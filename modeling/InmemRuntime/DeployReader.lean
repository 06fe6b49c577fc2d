import InmemRuntime.Filters
import InmemRuntime.Lib.LoneCall
import InmemRuntime.Streams
import Mathlib.Data.List.DropRight

namespace InmemRuntime

namespace Deploy

inductive DeployStatus where
  | running
  | succeeded
  | failed
deriving DecidableEq

/-- An SSE event: its name and its payload. -/
abbrev SseEvent := String × PyDict

/-- `append` on a `deque(maxlen=...)`. -/
def push {α : Type} (maxlen : Nat) (deque : List α) (entry : α) : List α := (deque ++ [entry]).rtake maxlen

/-- The `maxlen` of `events`. -/
def maxEvents : Nat := 2000

/-- The `maxlen` of `_stderr_tail`. -/
def maxStderrTail : Nat := 50

/-- What the tasks of one deploy share. A task that is done is not waited for. -/
structure DeployOperation where
  status : DeployStatus
  exitCode : Option Int
  finishedAt : Option Time
  events : List SseEvent
  lastStatusUrlEvent : Option PyDict
  lastResultEvent : Option PyDict
  stderrTail : List String
  stderrDone : Bool
  timeoutDone : Bool
  totalAppended : Nat

def DeployOperation.init : DeployOperation where
  status := .running
  exitCode := none
  finishedAt := none
  events := []
  lastStatusUrlEvent := none
  lastResultEvent := none
  stderrTail := []
  stderrDone := false
  timeoutDone := false
  totalAppended := 0

/-- `op.events.append(...)` and `op._total_appended += 1` -/
def DeployOperation.append (op : DeployOperation) (event : SseEvent) : DeployOperation :=
  { op with events := push maxEvents op.events event, totalAppended := op.totalAppended + 1 }

def logEvent (message : PyVal) (level : PyVal) : SseEvent := ("log", [("message", message), ("level", level)])

/-- What the tasks beside the reader do: `_drain_stderr` puts a line into the
ring or ends, and `_timeout_watchdog` logs what it does to the process. -/
inductive Beside where
  | stderrLine (line : String)
  | stderrEnds
  | timeoutLog (message : String)

def Beside.event? : Beside → Option SseEvent
  | .timeoutLog message => some (logEvent (.str message) (.str "error"))
  | .stderrLine _ | .stderrEnds => none

def Beside.apply (op : DeployOperation) : Beside → DeployOperation
  | .stderrLine line => if line = "" then op else { op with stderrTail := push maxStderrTail op.stderrTail line }
  | .stderrEnds => { op with stderrDone := true }
  | .timeoutLog message => op.append (logEvent (.str message) (.str "error"))

/-- `_NAMED_EVENT_TYPES` -/
def namedEventTypes : List String := ["step", "result", "upload_progress", "heartbeat"]

/-- `hash(value)` is defined. -/
def hashable : PyVal → Bool
  | .list _ | .dict _ => false
  | _ => true

/-- `evt_type in _NAMED_EVENT_TYPES` -/
def isNamed (evtType : PyVal) : Except PyError (Option String) :=
  if hashable evtType = false then .error .typeError
  else match evtType with
    | .str name => .ok (if name ∈ namedEventTypes then some name else none)
    | _ => .ok none

/-- `value or default` -/
def pyOr (value default : PyVal) : PyVal := if value.truthy then value else default

/-- The stash of the raw payload. -/
def DeployOperation.stash (op : DeployOperation) (evtType : PyVal) (event : PyDict) : DeployOperation :=
  match evtType with
  | .str name =>
    if name = "status_url" then { op with lastStatusUrlEvent := some event }
    else if name = "result" then { op with lastResultEvent := some event }
    else op
  | _ => op

section Reader

-- `decode` is `raw_line.decode(errors="replace").rstrip()`, `loads` is `json.loads`.
variable (decode : List UInt8 → String) (loads : String → Except PyError PyVal)

/-- The body of the loop over the lines. An exception keeps what was done before it. -/
def DeployOperation.readLine (op : DeployOperation) (rawLine : List UInt8) : DeployOperation × Except PyError Unit :=
  let line := decode rawLine
  match loads line with
  | .error (.valueError _) => (op.append (logEvent (.str line) (.str "log")), .ok ())
  | .error e => (op, .error e)
  | .ok (.dict event) =>
    let evtType := (PyDict.get? event "event").getD .none
    let op := op.stash evtType event
    match isNamed evtType with
    | .error e => (op, .error e)
    | .ok (some name) => (op.append (name, event), .ok ())
    | .ok none =>
      let msg := (PyDict.get? event "message").getD (.str "")
      if msg.truthy then (op.append (logEvent msg (pyOr evtType (.str "log"))), .ok ()) else (op, .ok ())
  | .ok _ => (op, .error .attributeError)

/-- Where the reader waits: for a line, for the exit, or for the rest of stderr. -/
inductive ReaderPoint where
  | reading
  | exiting
  | draining (final : Option DeployStatus)

/-- What the reader learns from a wait: what ran beside it meanwhile, whether
it was cancelled, the next line or none, the exit code and the clock. -/
structure Heard where
  beside : List Beside
  cancelled : Bool
  line : Option (List UInt8)
  exitCode : Int
  now : Time

/-- How the task ends. -/
inductive ReaderEnd where
  | returned
  | cancelled
deriving DecidableEq

/-- The end of the `finally` block. -/
def DeployOperation.finish (op : DeployOperation) (final : Option DeployStatus) (now : Time) : DeployOperation :=
  let op := if final = some .failed then
      op.stderrTail.foldl (fun op line => op.append (logEvent (.str line) (.str "error"))) op
    else op
  { op with finishedAt := some now, status := final.getD op.status, timeoutDone := true }

/-- What follows the `try` block; without a final status the task was cancelled. -/
def settle (op : DeployOperation) (final : Option DeployStatus) (now : Time) :
    DeployOperation × Turn ReaderPoint ReaderEnd :=
  if op.stderrDone then
    (op.finish final now, .finished (if final.isSome then .returned else .cancelled))
  else (op, .suspended (.draining final))

/-- `_read_subprocess` -/
def readSubprocess (op : DeployOperation) (point : ReaderPoint) (heard : Heard) :
    DeployOperation × Turn ReaderPoint ReaderEnd :=
  let op := heard.beside.foldl Beside.apply op
  match point with
  | .reading =>
    if heard.cancelled then settle op none heard.now
    else match heard.line with
      | none => (op, .suspended .exiting)
      | some rawLine =>
        match op.readLine decode loads rawLine with
        | (op, .ok _) => (op, .suspended .reading)
        | (op, .error _) => settle op (some .failed) heard.now
  | .exiting =>
    if heard.cancelled then settle op none heard.now
    else
      settle { op with exitCode := some heard.exitCode }
        (some (if heard.exitCode = 0 then .succeeded else .failed)) heard.now
  | .draining final =>
    if heard.cancelled then (op, .finished .cancelled)
    else (op.finish final heard.now, .finished (if final.isSome then .returned else .cancelled))

end Reader

/-- A run of the subprocess without cancellation: its lines, with what runs
beside the reader before each, and the code it exits with. -/
structure Session where
  lines : List (List Beside × List UInt8)
  atEof : List Beside
  atExit : List Beside
  drained : List Beside
  exitCode : Int
  now : Time

def Session.lineHeard (exitCode : Int) (now : Time) (turn : List Beside × List UInt8) : Heard :=
  ⟨turn.1, false, some turn.2, exitCode, now⟩

/-- What the reader hears of the run. -/
def Session.heard (s : Session) : List Heard :=
  s.lines.map (Session.lineHeard s.exitCode s.now) ++
    [⟨s.atEof, false, none, s.exitCode, s.now⟩, ⟨s.atExit, false, none, s.exitCode, s.now⟩,
      ⟨s.drained, false, none, s.exitCode, s.now⟩]

def Beside.stderr? : Beside → Option String
  | .stderrLine line => if line = "" then none else some line
  | .stderrEnds | .timeoutLog _ => none

def Beside.ends : Beside → Bool
  | .stderrEnds => true
  | .stderrLine _ | .timeoutLog _ => false

/-- The event type of an object, when it is a text. -/
def eventType? (event : PyDict) : Option String :=
  match PyDict.get? event "event" with
  | some (.str name) => some name
  | _ => none

/-- The event for a JSON object: a named one, a log of its message, or none. -/
def objectEvent? (event : PyDict) : Option SseEvent :=
  match (eventType? event).filter (fun name => name ∈ namedEventTypes) with
  | some name => some (name, event)
  | none =>
    ((PyDict.get? event "message").filter PyVal.truthy).map (fun message =>
      logEvent message (pyOr ((PyDict.get? event "event").getD .none) (.str "log")))

section Spec

variable (decode : List UInt8 → String) (loads : String → Except PyError PyVal)

/-- The JSON object that a line is. -/
def object? (rawLine : List UInt8) : Option PyDict :=
  match loads (decode rawLine) with
  | .ok (.dict event) => some event
  | _ => none

/-- The event for a line. -/
def lineEvent? (rawLine : List UInt8) : Option SseEvent :=
  match object? decode loads rawLine with
  | some event => objectEvent? event
  | none => some (logEvent (.str (decode rawLine)) (.str "log"))

/-- The line is no JSON, or an object whose event type can be looked up in a set. -/
def Orderly (rawLine : List UInt8) : Prop :=
  match loads (decode rawLine) with
  | .ok (.dict event) => hashable ((PyDict.get? event "event").getD .none) = true
  | .ok _ => False
  | .error (.valueError _) => True
  | .error _ => False

namespace Session

variable (s : Session)

/-- What ran beside the reader until it had read the exit code. -/
def besideReading : List Beside := s.lines.flatMap Prod.fst ++ s.atEof ++ s.atExit

/-- What ran beside the reader in all. When stderr is at its end it does not wait for it. -/
def beside : List Beside :=
  s.besideReading ++ (if s.besideReading.any Beside.ends then [] else s.drained)

/-- What is appended while the lines are read. -/
def lineEvents (lines : List (List Beside × List UInt8)) : List SseEvent :=
  lines.flatMap (fun turn => turn.1.filterMap Beside.event? ++ (lineEvent? decode loads turn.2).toList)

/-- Everything that is appended: an event a line in order, what the watchdog
logs in between, and after a failure the last lines of stderr. -/
def history : List SseEvent :=
  lineEvents decode loads s.lines ++
    (s.atEof ++ s.atExit ++ (if s.besideReading.any Beside.ends then [] else s.drained)).filterMap Beside.event? ++
    (if s.exitCode = 0 then []
      else ((s.beside.filterMap Beside.stderr?).rtake maxStderrTail).map
        (fun line => logEvent (.str line) (.str "error")))

def objects (lines : List (List Beside × List UInt8)) : List PyDict :=
  lines.filterMap (fun turn => object? decode loads turn.2)

/-- The last of the objects with an event type. -/
def lastOf (name : String) (objects : List PyDict) : Option PyDict :=
  (objects.filter (fun event => eventType? event = some name)).getLast?

/-- All lines are read, and all that they say is recorded. -/
structure Recorded (op : DeployOperation) : Prop where
  exitCode : op.exitCode = some s.exitCode
  status : op.status = if s.exitCode = 0 then .succeeded else .failed
  statusUrl : op.lastStatusUrlEvent = lastOf "status_url" (objects decode loads s.lines)
  result : op.lastResultEvent = lastOf "result" (objects decode loads s.lines)
  events : op.events = (s.history decode loads).rtake maxEvents
  appended : op.totalAppended = (s.history decode loads).length

end Session

end Spec

/-- A bounded deque of a history takes an entry as the history does. -/
theorem push_rtake {α : Type} {maxlen : Nat} (positive : 0 < maxlen) (history : List α) (entry : α) :
    push maxlen (history.rtake maxlen) entry = (history ++ [entry]).rtake maxlen := by
  obtain ⟨n, rfl⟩ : ∃ n, maxlen = n + 1 := ⟨maxlen - 1, by omega⟩
  rw [push, List.rtake_concat_succ, List.rtake_concat_succ]
  simp only [List.rtake_eq_reverse_take_reverse, List.reverse_reverse, List.take_take]
  rw [Nat.min_eq_left (Nat.le_succ n)]

/-- The operation holds the end of a history, and the last events of what was read. -/
structure Tracks (op : DeployOperation) (history : List SseEvent) (objects : List PyDict) (beside : List Beside) :
    Prop where
  events : op.events = history.rtake maxEvents
  appended : op.totalAppended = history.length
  statusUrl : op.lastStatusUrlEvent = Session.lastOf "status_url" objects
  result : op.lastResultEvent = Session.lastOf "result" objects
  stderr : op.stderrTail = (beside.filterMap Beside.stderr?).rtake maxStderrTail
  stderrDone : op.stderrDone = beside.any Beside.ends

section Tracking

variable {decode : List UInt8 → String} {loads : String → Except PyError PyVal} {op : DeployOperation}
  {history : List SseEvent} {objects : List PyDict} {beside : List Beside}

theorem Tracks.init : Tracks .init [] [] [] := ⟨rfl, rfl, rfl, rfl, rfl, rfl⟩

section Append

variable (op : DeployOperation) (event : SseEvent)

@[simp] theorem append_events : (op.append event).events = push maxEvents op.events event := by
  rw [DeployOperation.append]

@[simp] theorem append_totalAppended : (op.append event).totalAppended = op.totalAppended + 1 := by
  rw [DeployOperation.append]

@[simp] theorem append_statusUrl : (op.append event).lastStatusUrlEvent = op.lastStatusUrlEvent := by
  rw [DeployOperation.append]

@[simp] theorem append_result : (op.append event).lastResultEvent = op.lastResultEvent := by
  rw [DeployOperation.append]

@[simp] theorem append_stderrTail : (op.append event).stderrTail = op.stderrTail := by
  rw [DeployOperation.append]

@[simp] theorem append_stderrDone : (op.append event).stderrDone = op.stderrDone := by
  rw [DeployOperation.append]

@[simp] theorem append_exitCode : (op.append event).exitCode = op.exitCode := by
  rw [DeployOperation.append]

@[simp] theorem append_status : (op.append event).status = op.status := by
  rw [DeployOperation.append]

end Append

theorem Tracks.append (tracks : Tracks op history objects beside) (event : SseEvent) :
    Tracks (op.append event) (history ++ [event]) objects beside where
  events := by
    rw [append_events, tracks.events]
    exact push_rtake (by decide) history event
  appended := by rw [append_totalAppended, tracks.appended, List.length_append, List.length_singleton]
  statusUrl := by rw [append_statusUrl, tracks.statusUrl]
  result := by rw [append_result, tracks.result]
  stderr := by rw [append_stderrTail, tracks.stderr]
  stderrDone := by rw [append_stderrDone, tracks.stderrDone]

theorem Tracks.appendAll (tracks : Tracks op history objects beside) (events : List SseEvent) :
    Tracks (events.foldl DeployOperation.append op) (history ++ events) objects beside := by
  induction events generalizing op history with
  | nil => simpa using tracks
  | cons event events ih => simpa using ih (tracks.append event)

/-- One thing that runs beside the reader. -/
theorem Tracks.besideStep (tracks : Tracks op history objects beside) (step : Beside) :
    Tracks (step.apply op) (history ++ step.event?.toList) objects (beside ++ [step]) := by
  have texts : (beside ++ [step]).filterMap Beside.stderr? =
      beside.filterMap Beside.stderr? ++ step.stderr?.toList := by
    rw [List.filterMap_append]
    cases text : step.stderr? <;> simp [text]
  have ends : (beside ++ [step]).any Beside.ends = (beside.any Beside.ends || step.ends) := by simp
  obtain ⟨events, appended, statusUrl, result, stderr, stderrDone⟩ := tracks
  cases step with
  | stderrLine line =>
    rw [Beside.stderr?] at texts
    rw [Beside.ends, Bool.or_false] at ends
    rw [Beside.apply, Beside.event?, Option.toList_none, List.append_nil]
    split
    · rename_i blank
      rw [if_pos blank, Option.toList_none, List.append_nil] at texts
      exact ⟨events, appended, statusUrl, result, by rw [texts, stderr], by rw [ends, stderrDone]⟩
    · rename_i full
      rw [if_neg full, Option.toList_some] at texts
      refine ⟨events, appended, statusUrl, result, ?_, by rw [ends, ← stderrDone]⟩
      rw [texts, ← push_rtake (by decide), ← stderr]
  | stderrEnds =>
    rw [Beside.stderr?, Option.toList_none, List.append_nil] at texts
    rw [Beside.ends, Bool.or_true] at ends
    rw [Beside.apply, Beside.event?, Option.toList_none, List.append_nil]
    exact ⟨events, appended, statusUrl, result, by rw [texts, ← stderr], by rw [ends]⟩
  | timeoutLog message =>
    rw [Beside.stderr?, Option.toList_none, List.append_nil] at texts
    rw [Beside.ends, Bool.or_false] at ends
    have logged := Tracks.append ⟨events, appended, statusUrl, result, stderr, stderrDone⟩
      (logEvent (.str message) (.str "error"))
    exact ⟨logged.events, logged.appended, logged.statusUrl, logged.result, by rw [texts, ← logged.stderr]; rfl,
      by rw [ends, ← logged.stderrDone]; rfl⟩

theorem Tracks.besideAll (tracks : Tracks op history objects beside) (steps : List Beside) :
    Tracks (steps.foldl Beside.apply op) (history ++ steps.filterMap Beside.event?) objects (beside ++ steps) := by
  induction steps generalizing op history beside with
  | nil => simpa using tracks
  | cons step steps ih =>
    have next := ih (tracks.besideStep step)
    have events : (step :: steps).filterMap Beside.event? = step.event?.toList ++ steps.filterMap Beside.event? := by
      cases event : step.event? <;> simp [event]
    rw [events, ← List.append_assoc, ← List.singleton_append, ← List.append_assoc]
    exact next

theorem lastOf_append (name : String) (objects : List PyDict) (event : PyDict) :
    Session.lastOf name (objects ++ [event]) =
      if eventType? event = some name then some event else Session.lastOf name objects := by
  rw [Session.lastOf, List.filter_append]
  by_cases named : eventType? event = some name
  · simp [named]
  · simp [named, Session.lastOf]

theorem stash_fields (op : DeployOperation) (event : PyDict) :
    op.stash ((PyDict.get? event "event").getD .none) event =
      { op with
        lastStatusUrlEvent := if eventType? event = some "status_url" then some event else op.lastStatusUrlEvent
        lastResultEvent := if eventType? event = some "result" then some event else op.lastResultEvent } := by
  cases type : PyDict.get? event "event" with
  | none => simp [DeployOperation.stash, eventType?, type]
  | some value =>
    cases value with
    | str name =>
      by_cases url : name = "status_url"
      · simp [DeployOperation.stash, eventType?, type, url]
      · by_cases result : name = "result" <;> simp [DeployOperation.stash, eventType?, type, url, result]
    | _ => simp [DeployOperation.stash, eventType?, type]

/-- What the stash keeps of an object. -/
theorem Tracks.stash (tracks : Tracks op history objects beside) (event : PyDict) :
    Tracks (op.stash ((PyDict.get? event "event").getD .none) event) history (objects ++ [event]) beside := by
  rw [stash_fields]
  refine ⟨tracks.events, tracks.appended, ?_, ?_, tracks.stderr, tracks.stderrDone⟩
  · rw [lastOf_append, ← tracks.statusUrl]
  · rw [lastOf_append, ← tracks.result]

/-- A named type is looked up as it is; a type that cannot be hashed raises. -/
theorem isNamed_type (event : PyDict) (orderly : hashable ((PyDict.get? event "event").getD .none) = true) :
    isNamed ((PyDict.get? event "event").getD .none) =
      .ok ((eventType? event).filter (fun name => name ∈ namedEventTypes)) := by
  unfold isNamed
  rw [orderly, if_neg (by decide)]
  cases type : PyDict.get? event "event" with
  | none => simp [eventType?, type]
  | some value =>
    cases value with
    | str name => by_cases named : name ∈ namedEventTypes <;> simp [eventType?, type, named, Option.filter]
    | _ => simp [eventType?, type]

theorem readLine_ok (op : DeployOperation) {rawLine : List UInt8} (orderly : Orderly decode loads rawLine) :
    (op.readLine decode loads rawLine).2 = .ok () := by
  rw [Orderly] at orderly
  rw [DeployOperation.readLine]
  cases loaded : loads (decode rawLine) with
  | error e =>
    rw [loaded] at orderly
    cases e with
    | valueError message => rfl
    | _ => exact orderly.elim
  | ok value =>
    rw [loaded] at orderly
    cases value with
    | dict event =>
      simp only [isNamed_type event orderly]
      cases (eventType? event).filter (fun name => name ∈ namedEventTypes) with
      | some name => rfl
      | none =>
        simp only
        split <;> rfl
    | _ => exact orderly.elim

/-- An orderly line is recorded. -/
theorem Tracks.readLine (tracks : Tracks op history objects beside) {rawLine : List UInt8}
    (orderly : Orderly decode loads rawLine) :
    Tracks (op.readLine decode loads rawLine).1 (history ++ (lineEvent? decode loads rawLine).toList)
      (objects ++ (object? decode loads rawLine).toList) beside := by
  rw [Orderly] at orderly
  rw [DeployOperation.readLine, lineEvent?, object?]
  cases loaded : loads (decode rawLine) with
  | error e =>
    rw [loaded] at orderly
    cases e with
    | valueError message => simpa using tracks.append (logEvent (.str (decode rawLine)) (.str "log"))
    | _ => exact orderly.elim
  | ok value =>
    rw [loaded] at orderly
    cases value with
    | dict event =>
      simp only [isNamed_type event orderly, objectEvent?]
      have stashed := tracks.stash event
      cases (eventType? event).filter (fun name => name ∈ namedEventTypes) with
      | some name => exact stashed.append (name, event)
      | none =>
        cases message : PyDict.get? event "message" with
        | none => simpa [PyVal.truthy] using stashed
        | some msg =>
          by_cases full : msg.truthy
          · simp only [Option.getD_some, full, if_true, Option.filter_some, Option.map_some, Option.toList_some]
            exact stashed.append _
          · simp only [Option.getD_some, full, Bool.false_eq_true, if_false, Option.filter_some, Option.map_none,
              Option.toList_none, List.append_nil]
            exact stashed
    | _ => exact orderly.elim

/-- Any other line raises. -/
theorem readLine_raises (op : DeployOperation) {rawLine : List UInt8} (disorder : ¬ Orderly decode loads rawLine) :
    ∃ e, (op.readLine decode loads rawLine).2 = .error e := by
  rw [Orderly] at disorder
  rw [DeployOperation.readLine]
  cases loaded : loads (decode rawLine) with
  | error e =>
    rw [loaded] at disorder
    cases e with
    | valueError message => exact absurd trivial disorder
    | _ => exact ⟨_, rfl⟩
  | ok value =>
    rw [loaded] at disorder
    cases value with
    | dict event =>
      simp only [isNamed, Bool.not_eq_true] at disorder ⊢
      rw [if_pos disorder]
      exact ⟨_, rfl⟩
    | _ => exact ⟨_, rfl⟩

theorem stash_exitCode (op : DeployOperation) (evtType : PyVal) (event : PyDict) :
    (op.stash evtType event).exitCode = op.exitCode := by
  unfold DeployOperation.stash
  split
  · split
    · rfl
    · split <;> rfl
  · rfl

theorem readLine_exitCode (op : DeployOperation) (rawLine : List UInt8) :
    (op.readLine decode loads rawLine).1.exitCode = op.exitCode := by
  unfold DeployOperation.readLine
  simp only
  split
  · exact append_exitCode _ _
  · rfl
  · split
    · exact stash_exitCode _ _ _
    · rw [append_exitCode, stash_exitCode]
    · split
      · rw [append_exitCode, stash_exitCode]
      · exact stash_exitCode _ _ _
  · rfl

theorem besideAll_exitCode (op : DeployOperation) (steps : List Beside) :
    (steps.foldl Beside.apply op).exitCode = op.exitCode := by
  induction steps generalizing op with
  | nil => rfl
  | cons step steps ih =>
    rw [List.foldl_cons, ih]
    cases step with
    | stderrLine line =>
      rw [Beside.apply]
      split <;> rfl
    | stderrEnds => rfl
    | timeoutLog message => rw [Beside.apply, append_exitCode]

/-- The lines are logged as events of their own. -/
theorem logTail_eq (lines : List String) (op : DeployOperation) :
    lines.foldl (fun op line => op.append (logEvent (.str line) (.str "error"))) op =
      (lines.map (fun line => logEvent (.str line) (.str "error"))).foldl DeployOperation.append op := by
  rw [List.foldl_map]

theorem appendAll_exitCode (events : List SseEvent) (op : DeployOperation) :
    (events.foldl DeployOperation.append op).exitCode = op.exitCode := by
  induction events generalizing op with
  | nil => rfl
  | cons event events ih => rw [List.foldl_cons, ih, append_exitCode]

theorem finish_exitCode (op : DeployOperation) (final : Option DeployStatus) (now : Time) :
    (op.finish final now).exitCode = op.exitCode := by
  unfold DeployOperation.finish
  simp only
  split
  · rw [logTail_eq, appendAll_exitCode]
  · rfl

/-- The end of the reader leaves the exit code. -/
theorem settle_exitCode {op' : DeployOperation} {final : Option DeployStatus} {now : Time} {replies : List Heard}
    {ending : ReaderEnd} (ends : Turn.EndsOn (readSubprocess decode loads) replies (settle op final now) op' ending) :
    op'.exitCode = op.exitCode := by
  rw [settle] at ends
  split at ends
  · obtain ⟨rfl, _⟩ := Turn.endsOn_finished.mp ends
    exact finish_exitCode _ _ _
  · cases ends with
    | @suspended reply replies _ _ _ _ ends =>
      rw [readSubprocess] at ends
      split at ends
      · obtain ⟨rfl, _⟩ := Turn.endsOn_finished.mp ends
        exact besideAll_exitCode _ _
      · obtain ⟨rfl, _⟩ := Turn.endsOn_finished.mp ends
        rw [finish_exitCode, besideAll_exitCode]

end Tracking

section Runs

variable {decode : List UInt8 → String} {loads : String → Except PyError PyVal} {op op' : DeployOperation}
  {history : List SseEvent} {objects : List PyDict} {beside : List Beside} {exitCode : Int} {now : Time}
  {replies : List Heard} {ending : ReaderEnd}

/-- What an orderly turn of the loop does. -/
def DeployOperation.hear (decode : List UInt8 → String) (loads : String → Except PyError PyVal)
    (op : DeployOperation) (turn : List Beside × List UInt8) : DeployOperation :=
  ((turn.1.foldl Beside.apply op).readLine decode loads turn.2).1

theorem Tracks.hearAll (tracks : Tracks op history objects beside) {lines : List (List Beside × List UInt8)}
    (orderly : ∀ turn ∈ lines, Orderly decode loads turn.2) :
    Tracks (lines.foldl (DeployOperation.hear decode loads) op)
      (history ++ Session.lineEvents decode loads lines) (objects ++ Session.objects decode loads lines)
      (beside ++ lines.flatMap Prod.fst) := by
  induction lines generalizing op history objects beside with
  | nil => simpa [Session.lineEvents, Session.objects] using tracks
  | cons turn lines ih =>
    obtain ⟨here, others⟩ := List.forall_mem_cons.mp orderly
    have next := ih ((tracks.besideAll turn.1).readLine here) others
    have listed : Session.objects decode loads (turn :: lines) =
        (object? decode loads turn.2).toList ++ Session.objects decode loads lines := by
      rw [Session.objects, List.filterMap_cons]
      cases object? decode loads turn.2 <;> rfl
    rw [listed, ← List.append_assoc, Session.lineEvents, List.flatMap_cons, List.flatMap_cons, ← List.append_assoc,
      ← List.append_assoc, ← List.append_assoc]
    exact next

/-- Orderly lines are heard one after another. -/
theorem endsOn_lines {lines : List (List Beside × List UInt8)}
    (orderly : ∀ turn ∈ lines, Orderly decode loads turn.2) :
    Turn.EndsOn (readSubprocess decode loads) (lines.map (Session.lineHeard exitCode now) ++ replies)
        (op, .suspended .reading) op' ending ↔
      Turn.EndsOn (readSubprocess decode loads) replies
        (lines.foldl (DeployOperation.hear decode loads) op, .suspended .reading) op' ending := by
  induction lines generalizing op with
  | nil => exact Iff.rfl
  | cons turn lines ih =>
    obtain ⟨here, others⟩ := List.forall_mem_cons.mp orderly
    have goesOn : readSubprocess decode loads op .reading (Session.lineHeard exitCode now turn) =
        (op.hear decode loads turn, .suspended .reading) := by
      have said : ((turn.1.foldl Beside.apply op).readLine decode loads turn.2) =
          (op.hear decode loads turn, .ok ()) := Prod.ext rfl (readLine_ok _ here)
      simp only [readSubprocess, Session.lineHeard, Bool.false_eq_true, if_false, said]
    rw [List.map_cons, List.cons_append, Turn.endsOn_suspended, goesOn, ih others, List.foldl_cons]

/-- A line that raises ends the reading: the exit code stays as it was. -/
theorem endsOn_disorder {lines : List (List Beside × List UInt8)}
    (disorder : ∃ turn ∈ lines, ¬ Orderly decode loads turn.2)
    (ends : Turn.EndsOn (readSubprocess decode loads) (lines.map (Session.lineHeard exitCode now) ++ replies)
      (op, .suspended .reading) op' ending) : op'.exitCode = op.exitCode := by
  induction lines generalizing op with
  | nil => exact absurd disorder (by simp)
  | cons turn lines ih =>
    rw [List.map_cons, List.cons_append, Turn.endsOn_suspended] at ends
    by_cases here : Orderly decode loads turn.2
    · have said : ((turn.1.foldl Beside.apply op).readLine decode loads turn.2) =
          (op.hear decode loads turn, .ok ()) := Prod.ext rfl (readLine_ok _ here)
      simp only [readSubprocess, Session.lineHeard, Bool.false_eq_true, if_false, said] at ends
      have later : ∃ turn ∈ lines, ¬ Orderly decode loads turn.2 := by
        obtain ⟨other, member, bad⟩ := disorder
        rcases List.mem_cons.mp member with rfl | member
        · exact absurd here bad
        · exact ⟨other, member, bad⟩
      rw [ih later ends, DeployOperation.hear, readLine_exitCode, besideAll_exitCode]
    · obtain ⟨e, raises⟩ := readLine_raises (turn.1.foldl Beside.apply op) here
      have said : ((turn.1.foldl Beside.apply op).readLine decode loads turn.2) =
          (op.hear decode loads turn, .error e) := Prod.ext rfl raises
      simp only [readSubprocess, Session.lineHeard, Bool.false_eq_true, if_false, said] at ends
      rw [settle_exitCode ends, DeployOperation.hear, readLine_exitCode, besideAll_exitCode]

/-- The end of a run that has read the exit code. -/
theorem finish_recorded {s : Session} (tracks : Tracks op
      (Session.lineEvents decode loads s.lines ++ (s.atEof ++ s.atExit ++
        (if s.besideReading.any Beside.ends then [] else s.drained)).filterMap Beside.event?)
      (Session.objects decode loads s.lines) s.beside) (exited : op.exitCode = some s.exitCode) :
    s.Recorded decode loads (op.finish (some (if s.exitCode = 0 then .succeeded else .failed)) s.now) := by
  by_cases zero : s.exitCode = 0
  · have whole : s.history decode loads = Session.lineEvents decode loads s.lines ++ (s.atEof ++ s.atExit ++
        (if s.besideReading.any Beside.ends then [] else s.drained)).filterMap Beside.event? := by
      rw [Session.history, if_pos zero, List.append_nil]
    refine ⟨(finish_exitCode _ _ _).trans exited, ?_, ?_, ?_, ?_, ?_⟩
    all_goals simp only [zero, if_true, DeployOperation.finish, Option.some.injEq, reduceCtorEq, if_false]
    · rfl
    · exact tracks.statusUrl
    · exact tracks.result
    · exact whole ▸ tracks.events
    · exact whole ▸ tracks.appended
  · have flushed := tracks.appendAll (op.stderrTail.map (fun line => logEvent (.str line) (.str "error")))
    rw [tracks.stderr] at flushed
    have whole : s.history decode loads = Session.lineEvents decode loads s.lines ++ (s.atEof ++ s.atExit ++
        (if s.besideReading.any Beside.ends then [] else s.drained)).filterMap Beside.event? ++
        ((s.beside.filterMap Beside.stderr?).rtake maxStderrTail).map
          (fun line => logEvent (.str line) (.str "error")) := by
      rw [Session.history, if_neg zero]
    rw [← whole] at flushed
    refine ⟨(finish_exitCode _ _ _).trans exited, ?_, ?_, ?_, ?_, ?_⟩
    all_goals simp only [zero, if_false, DeployOperation.finish, if_true, logTail_eq, tracks.stderr]
    · rfl
    · exact flushed.statusUrl
    · exact flushed.result
    · exact flushed.events
    · exact flushed.appended

/-- After the lines the reader waits for the exit and ends with all recorded. -/
theorem orderly_recorded (s : Session) (orderly : ∀ turn ∈ s.lines, Orderly decode loads turn.2) :
    ∃ op', Turn.EndsOn (readSubprocess decode loads) s.heard (.init, .suspended .reading) op' .returned ∧
      s.Recorded decode loads op' := by
  have read := ((Tracks.init.hearAll orderly).besideAll s.atEof).besideAll s.atExit
  rw [List.nil_append, List.nil_append, List.nil_append, List.append_assoc (Session.lineEvents ..),
    ← List.filterMap_append] at read
  generalize heard : s.atExit.foldl Beside.apply
    (s.atEof.foldl Beside.apply (s.lines.foldl (DeployOperation.hear decode loads) .init)) = op at read
  have tracks : Tracks { op with exitCode := some s.exitCode }
      (Session.lineEvents decode loads s.lines ++ (s.atEof ++ s.atExit).filterMap Beside.event?)
      (Session.objects decode loads s.lines) s.besideReading :=
    ⟨read.events, read.appended, read.statusUrl, read.result, read.stderr, read.stderrDone⟩
  have exits : ∀ op', Turn.EndsOn (readSubprocess decode loads) s.heard (.init, .suspended .reading) op' .returned ↔
      Turn.EndsOn (readSubprocess decode loads) [⟨s.drained, false, none, s.exitCode, s.now⟩]
        (settle { op with exitCode := some s.exitCode }
          (some (if s.exitCode = 0 then .succeeded else .failed)) s.now) op' .returned := by
    intro op'
    rw [Session.heard, endsOn_lines orderly, Turn.endsOn_suspended]
    simp only [readSubprocess, Bool.false_eq_true, if_false, Turn.endsOn_suspended, heard]
  cases done : s.besideReading.any Beside.ends with
  | true =>
    have stderrDone : op.stderrDone = true := tracks.stderrDone.trans done
    have beside : s.beside = s.besideReading := by rw [Session.beside, done, if_pos rfl, List.append_nil]
    rw [← List.append_nil (s.atEof ++ s.atExit), ← beside] at tracks
    have recorded := finish_recorded (s := s) (by
      rw [done, if_pos rfl]
      exact tracks) rfl
    refine ⟨_, (exits _).mpr ?_, recorded⟩
    rw [settle, if_pos stderrDone]
    exact .finished _ _ _
  | false =>
    have stderrDone : op.stderrDone = false := tracks.stderrDone.trans done
    have beside : s.beside = s.besideReading ++ s.drained := by
      rw [Session.beside, done, if_neg Bool.false_ne_true]
    have drained := tracks.besideAll s.drained
    rw [List.append_assoc, ← List.filterMap_append, ← beside] at drained
    have recorded := finish_recorded (s := s) (by
      rw [done, if_neg Bool.false_ne_true]
      exact drained) (besideAll_exitCode _ _)
    refine ⟨_, (exits _).mpr ?_, recorded⟩
    rw [settle, if_neg (by simp [stderrDone])]
    exact .suspended (.finished _ _ _)

theorem recorded_orderly {s : Session}
    (ends : Turn.EndsOn (readSubprocess decode loads) s.heard (.init, .suspended .reading) op .returned)
    (recorded : s.Recorded decode loads op) : ∀ turn ∈ s.lines, Orderly decode loads turn.2 := by
  by_contra disorder
  have bad : ∃ turn ∈ s.lines, ¬ Orderly decode loads turn.2 := by
    simpa only [not_forall, exists_prop] using disorder
  have unread := endsOn_disorder bad ends
  rw [recorded.exitCode] at unread
  cases unread

/-- A run of the subprocess is recorded exactly when each of its lines is no
JSON or an object with an event type that can be looked up. -/
theorem readSubprocess_recorded_iff (decode : List UInt8 → String) (loads : String → Except PyError PyVal)
    (s : Session) :
    (∃ op, Turn.EndsOn (readSubprocess decode loads) s.heard (.init, .suspended .reading) op .returned ∧
        s.Recorded decode loads op) ↔
      ∀ turn ∈ s.lines, Orderly decode loads turn.2 := by
  constructor
  · rintro ⟨op, ends, recorded⟩
    exact recorded_orderly ends recorded
  · exact orderly_recorded s

/-- The text of a line of ASCII characters. -/
def asciiLine (rawLine : List UInt8) : String :=
  String.ofList ((rawLine.map (fun byte => Char.ofNat byte.toNat)).rdropWhile Char.isWhitespace)

/-- `json.loads` on the line `null` and on lines that are no JSON. -/
def loadsNull (line : String) : Except PyError PyVal :=
  if line = "null" then .ok .none else .error (.valueError "Expecting value")

/-- The subprocess prints the line `null` and exits with 0: the reader fails on
the line, and no exit code is recorded. -/
theorem readSubprocess_fails_on_null :
    ¬ ∃ op, Turn.EndsOn (readSubprocess asciiLine loadsNull)
        (Session.heard ⟨[([], [110, 117, 108, 108, 10])], [], [], [], 0, 0⟩) (.init, .suspended .reading) op
          .returned ∧
      Session.Recorded asciiLine loadsNull ⟨[([], [110, 117, 108, 108, 10])], [], [], [], 0, 0⟩ op := by
  rintro ⟨op, ends, recorded⟩
  have orderly := recorded_orderly ends recorded ([], [110, 117, 108, 108, 10]) List.mem_cons_self
  have text : asciiLine [110, 117, 108, 108, 10] = "null" := by decide +kernel
  have null : loadsNull "null" = .ok .none := if_pos rfl
  rw [Orderly, text, null] at orderly
  exact orderly

end Runs

end Deploy

end InmemRuntime
