import InmemRuntime.DeployReader
import InmemRuntime.Lib.EventLoop

namespace InmemRuntime

namespace Deploy

/-- What `generate` yields, with the id: an entry of the ring, or the marker at the end. -/
inductive SseYield where
  | event (event : SseEvent) (id : Int)
  | terminal (event : SseEvent) (id : Int)

/-- Where a generator waits. `id` is that of the first entry in `rest`. -/
inductive StreamPoint where
  | called (initialCursor : Nat)
  | polling (total : Nat) (rest : List SseEvent) (id : Int)
  | closing (rest : List SseEvent) (id : Int)
  | sleeping (cursor : Nat)
  | ended

namespace DeployOperation

variable (op : DeployOperation)

def dequeStart : Int := op.totalAppended - op.events.length

def skip (cursor : Nat) : Nat := (max 0 ((cursor : Int) - op.dequeStart)).toNat

/-- `snapshot[skip:]` -/
def unseen (cursor : Nat) : List SseEvent := op.events.drop (op.skip cursor)

/-- `deque_start + skip + offset + 1` of the first entry. -/
def firstId (cursor : Nat) : Int := op.dequeStart + op.skip cursor + 1

def terminalEvent : SseEvent :=
  (if op.status = .succeeded then "done" else "error", [("exit_code", op.exitCode.elim .none .int)])

/-- The loop over the second snapshot, and the marker after it. -/
def closing : List SseEvent → Int → Turn StreamPoint (Option SseYield)
  | event :: rest, id => .yielded (some (.event event id)) (.closing rest (id + 1))
  | [], _ => .yielded (some (.terminal op.terminalEvent (op.totalAppended + 1))) .ended

/-- The loop over a snapshot. After it the cursor is `total`. -/
def polling (total : Nat) : List SseEvent → Int → Turn StreamPoint (Option SseYield)
  | event :: rest, id => .yielded (some (.event event id)) (.polling total rest (id + 1))
  | [], _ =>
    if op.status ≠ .running then op.closing (op.unseen total) (op.firstId total)
    else .suspended (.sleeping total)

/-- `generate`; the end of the generator gives `none`. -/
def generate : StreamPoint → Turn StreamPoint (Option SseYield)
  | .called cursor | .sleeping cursor => op.polling op.totalAppended (op.unseen cursor) (op.firstId cursor)
  | .polling total rest id => op.polling total rest id
  | .closing rest id => op.closing rest id
  | .ended => .finished none

end DeployOperation

/-- The operation with all events that were ever appended. -/
structure DeployLog where
  op : DeployOperation
  appended : List SseEvent

namespace DeployLog

def init : DeployLog := ⟨.init, []⟩

/-- The events that a turn has appended are the last ones of the ring. -/
def record (h : DeployLog) (op : DeployOperation) : DeployLog :=
  ⟨op, h.appended ++ op.events.rtake (op.totalAppended - h.op.totalAppended)⟩

end DeployLog

/-- How many events had been evicted and how many appended when a snapshot was taken. -/
structure Snapshot where
  evicted : Nat
  total : Nat

/-- A generator with the cursor that it was started with, all that it has
yielded and the snapshots that it has taken. -/
structure Streaming where
  point : StreamPoint
  cursor : Nat
  yielded : List SseYield
  snapshots : List Snapshot

def DeployLog.snapshot (h : DeployLog) : Snapshot := ⟨h.appended.length - h.op.events.length, h.appended.length⟩

/-- The snapshots of a turn; two that are taken in one turn are the same. -/
def DeployLog.taken (h : DeployLog) : StreamPoint → List Snapshot
  | .called _ | .sleeping _ => [h.snapshot]
  | .polling _ [] _ => if h.op.status ≠ .running then [h.snapshot] else []
  | .polling _ (_ :: _) _ | .closing _ _ | .ended => []

namespace Streaming

def start (cursor : Nat) : Streaming := ⟨.called cursor, cursor, [], []⟩

def isStart : Streaming → Bool
  | ⟨.called cursor, initial, [], []⟩ => cursor = initial
  | _ => false

def follow (g : Streaming) : Turn StreamPoint (Option SseYield) → Turn Streaming (Option SseYield)
  | .yielded value point => .yielded value { g with point := point, yielded := g.yielded ++ value.toList }
  | turn => turn.map (fun point => { g with point := point }) id

/-- A turn of the generator. -/
def resume (h : DeployLog) (g : Streaming) : Turn Streaming (Option SseYield) :=
  { g with snapshots := g.snapshots ++ h.taken g.point }.follow (h.op.generate g.point)

end Streaming

/-- The reader, what runs beside it, and the generators. -/
inductive DeployCall where
  | reader (point : ReaderPoint)
  | beside (step : Beside)
  | stream (g : Streaming)

section Calls

variable (decode : List UInt8 → String) (loads : String → Except PyError PyVal)

/-- The tasks of a deploy; what runs beside the reader is a call of its own. -/
def deployCalls : Coroutines DeployLog DeployCall Heard (Option SseYield) where
  fresh
    | .reader .reading | .beside _ => true
    | .reader _ => false
    | .stream g => g.isStart
  resume h
    | .reader point, heard =>
      let out := readSubprocess decode loads h.op point { heard with beside := [] }
      (h.record out.1, out.2.map .reader (fun _ => none))
    | .beside step, _ => (h.record (step.apply h.op), .finished none)
    | .stream g, _ => (h, (g.resume h).map .stream id)

end Calls

/-- Events are appended before the terminal status, and no cursor is beyond the
events appended when its generator starts. -/
def BeforeTerminal (h : DeployLog) (_ : List DeployCall) (k : DeployCall) (_ : Heard) : Prop :=
  match k with
  | .reader _ => h.op.status = .running
  | .beside step => step.event? = none ∨ h.op.status = .running
  | .stream g => ∀ cursor, g.point = .called cursor → cursor ≤ h.appended.length

def SseYield.id : SseYield → Int
  | .event _ id | .terminal _ id => id

def SseYield.isTerminal : SseYield → Bool
  | .event _ _ => false
  | .terminal _ _ => true

/-- The event of this id had been evicted when the first snapshot was taken that could have held it. -/
def Streaming.Missed (g : Streaming) (n : Nat) : Prop :=
  ∃ snapshot, g.snapshots.find? (fun snapshot => n ≤ snapshot.total) = some snapshot ∧ n ≤ snapshot.evicted

/-- Resumed until it ends, with the log as it is, a generator yields these values. -/
inductive Drains (h : DeployLog) : Streaming → List SseYield → Streaming → Prop
  | ended {g} : g.resume h = .finished none → Drains h g [] g
  | yields {g value g' values last} : g.resume h = .yielded (some value) g' → Drains h g' values last →
      Drains h g (value :: values) last

/-- All that a generator has yielded once it has ended: each event after its
cursor, unless it was missed, and then the marker. -/
def Streaming.Complete (h : DeployLog) (g : Streaming) : Prop :=
  ∃ events, g.yielded = events ++ [.terminal h.op.terminalEvent (h.appended.length + 1)] ∧
    (∀ y ∈ events, y.isTerminal = false) ∧
    ∀ n : Nat, g.cursor < n → n ≤ h.appended.length → (∃ y ∈ events, y.id = (n : Int)) ∨ g.Missed n

/-- The events of the log that a generator has yielded so far, and from the
terminal status on all that it has still to yield. -/
structure StreamsExactly (h : DeployLog) (g : Streaming) : Prop where
  events : ∀ event id, .event event id ∈ g.yielded → ∃ n : Nat, id = n + 1 ∧ h.appended[n]? = some event
  increasing : (g.yielded.map SseYield.id).Pairwise (· < ·)
  above : ∀ y ∈ g.yielded, (g.cursor : Int) < y.id
  skipped : ∀ n : Nat, g.cursor < n → (∃ y ∈ g.yielded, (n : Int) < y.id) →
    (∀ y ∈ g.yielded, y.id ≠ n) → g.Missed n
  last : ∀ y ∈ g.yielded.dropLast, y.isTerminal = false
  terminal : ∀ y ∈ g.yielded, y.isTerminal = true → y = .terminal h.op.terminalEvent (h.appended.length + 1)
  ends : h.op.generate g.point = .finished none → ∃ y ∈ g.yielded, y.isTerminal = true
  closes : h.op.status ≠ .running → (∀ cursor, g.point = .called cursor → cursor ≤ h.appended.length) →
    ∃ values last, Drains h g values last ∧ last.cursor = g.cursor ∧ last.yielded = g.yielded ++ values ∧
      last.Complete h

/-- The ring holds the end of what was appended, and the total is its length. -/
structure Rings (op : DeployOperation) (appended : List SseEvent) : Prop where
  events : op.events = appended.rtake maxEvents
  total : op.totalAppended = appended.length

theorem Rings.append {op : DeployOperation} {appended : List SseEvent} (rings : Rings op appended) (event : SseEvent) :
    Rings (op.append event) (appended ++ [event]) where
  events := by
    rw [append_events, rings.events]
    exact push_rtake (by decide) appended event
  total := by rw [append_totalAppended, rings.total, List.length_append, List.length_singleton]

/-- A step of the reader: it appends so many events at most, and reads the lines of stderr only. -/
structure Logs (n : Nat) (op op' : DeployOperation) : Prop where
  appends : ∃ added : List SseEvent, added.length ≤ n ∧ ∀ appended, Rings op appended → Rings op' (appended ++ added)
  tail : op'.stderrTail = op.stderrTail

section Steps

variable {op op' : DeployOperation} {n : Nat}

theorem Logs.of_same (events : op'.events = op.events) (total : op'.totalAppended = op.totalAppended)
    (tail : op'.stderrTail = op.stderrTail) : Logs n op op' where
  appends := by
    refine ⟨[], Nat.zero_le _, fun appended rings => ?_⟩
    rw [List.append_nil]
    exact ⟨events.trans rings.events, total.trans rings.total⟩
  tail := tail

theorem Logs.trans {op'' : DeployOperation} {m : Nat} (first : Logs n op op') (second : Logs m op' op'') :
    Logs (n + m) op op'' where
  appends := by
    obtain ⟨added, few, rings⟩ := first.appends
    obtain ⟨added', few', rings'⟩ := second.appends
    refine ⟨added ++ added', ?_, fun appended start => ?_⟩
    · rw [List.length_append]
      omega
    · rw [← List.append_assoc]
      exact rings' _ (rings _ start)
  tail := second.tail.trans first.tail

theorem Logs.mono {m : Nat} (logs : Logs n op op') (more : n ≤ m) : Logs m op op' where
  appends := by
    obtain ⟨added, few, rings⟩ := logs.appends
    exact ⟨added, few.trans more, rings⟩
  tail := logs.tail

theorem logs_append (op : DeployOperation) (event : SseEvent) : Logs 1 op (op.append event) where
  appends := ⟨[event], le_rfl, fun _ rings => rings.append event⟩
  tail := append_stderrTail op event

theorem logs_appendAll (events : List SseEvent) (op : DeployOperation) :
    Logs events.length op (events.foldl DeployOperation.append op) := by
  induction events generalizing op with
  | nil => exact .of_same rfl rfl rfl
  | cons event events ih =>
    rw [List.foldl_cons, List.length_cons, Nat.add_comm]
    exact (logs_append op event).trans (ih _)

theorem logs_stash (op : DeployOperation) (evtType : PyVal) (event : PyDict) : Logs 0 op (op.stash evtType event) := by
  unfold DeployOperation.stash
  split
  · split
    · exact .of_same rfl rfl rfl
    · split <;> exact .of_same rfl rfl rfl
  · exact .of_same rfl rfl rfl

theorem logs_readLine (decode : List UInt8 → String) (loads : String → Except PyError PyVal) (op : DeployOperation)
    (rawLine : List UInt8) : Logs 1 op (op.readLine decode loads rawLine).1 := by
  unfold DeployOperation.readLine
  dsimp only
  split
  · exact logs_append _ _
  · exact .of_same rfl rfl rfl
  · have stashed := fun evtType event => logs_stash op evtType event
    split
    · exact (stashed _ _).mono (Nat.zero_le _)
    · exact (stashed _ _).trans (logs_append _ _)
    · split
      · exact (stashed _ _).trans (logs_append _ _)
      · exact (stashed _ _).mono (Nat.zero_le _)
  · exact .of_same rfl rfl rfl

theorem logs_finish (op : DeployOperation) (final : Option DeployStatus) (now : Time) :
    Logs op.stderrTail.length op (op.finish final now) := by
  unfold DeployOperation.finish
  dsimp only
  split
  · rw [logTail_eq]
    have flushed := logs_appendAll (op.stderrTail.map (fun line => logEvent (.str line) (.str "error"))) op
    rw [List.length_map] at flushed
    exact flushed.trans (m := 0) (.of_same rfl rfl rfl)
  · exact .of_same rfl rfl rfl

theorem logs_settle (op : DeployOperation) (final : Option DeployStatus) (now : Time) :
    Logs op.stderrTail.length op (settle op final now).1 := by
  unfold settle
  split
  · exact logs_finish op final now
  · exact .of_same rfl rfl rfl

/-- A turn of the reader alone appends an event, or the end of stderr. -/
theorem logs_readSubprocess (decode : List UInt8 → String) (loads : String → Except PyError PyVal) (op : DeployOperation)
    (point : ReaderPoint) (heard : Heard) :
    Logs (1 + op.stderrTail.length) op (readSubprocess decode loads op point { heard with beside := [] }).1 := by
  have settles : ∀ final now, Logs (1 + op.stderrTail.length) op (settle op final now).1 :=
    fun final now => (logs_settle op final now).mono (Nat.le_add_left _ _)
  unfold readSubprocess
  dsimp only [List.foldl_nil]
  cases point with
  | reading =>
    dsimp only
    split
    · exact settles _ _
    · split
      · exact .of_same rfl rfl rfl
      · rename_i rawLine _
        have read := logs_readLine decode loads op rawLine
        generalize op.readLine decode loads rawLine = out at read
        obtain ⟨op', outcome⟩ := out
        cases outcome with
        | ok _ => exact read.mono (Nat.le_add_right _ _)
        | error _ =>
          have settled := logs_settle op' (some .failed) heard.now
          rw [read.tail] at settled
          exact read.trans settled
  | exiting =>
    dsimp only
    split
    · exact settles _ _
    · have exited : Logs 1 op { op with exitCode := some heard.exitCode } := .of_same rfl rfl rfl
      exact exited.trans (logs_settle { op with exitCode := some heard.exitCode } _ _)
  | draining final =>
    dsimp only
    split
    · exact .of_same rfl rfl rfl
    · exact (logs_finish op final heard.now).mono (Nat.le_add_left _ _)

end Steps

/-- The ring is in order, and stderr is kept within bounds. -/
structure InOrder (h : DeployLog) : Prop where
  rings : Rings h.op h.appended
  tail : h.op.stderrTail.length ≤ maxStderrTail

/-- What is recorded of a step that appends to the ring. -/
theorem Rings.record {h : DeployLog} {op' : DeployOperation} {added : List SseEvent} (few : added.length ≤ maxEvents)
    (after : Rings op' (h.appended ++ added)) (before : Rings h.op h.appended) : h.record op' = ⟨op', h.appended ++ added⟩ := by
  have count : op'.totalAppended - h.op.totalAppended = added.length := by
    rw [after.total, before.total, List.length_append]
    omega
  have last : (h.appended ++ added).length - maxEvents +
      ((h.appended ++ added).length - ((h.appended ++ added).length - maxEvents) - added.length) = h.appended.length := by
    rw [List.length_append]
    omega
  have tail : op'.events.rtake added.length = added := by
    rw [after.events, List.rtake, List.rtake, List.length_drop, List.drop_drop, last, List.drop_left]
  rw [DeployLog.record, count, tail]

/-- The log goes on; after the terminal status nothing is appended. -/
structure Grows (h h' : DeployLog) : Prop where
  appended : ∃ added, h'.appended = h.appended ++ added
  still : h.op.status ≠ .running →
    h'.appended = h.appended ∧ h'.op.status = h.op.status ∧ h'.op.terminalEvent = h.op.terminalEvent

theorem InOrder.logs {h : DeployLog} (order : InOrder h) {op' : DeployOperation} {n : Nat} (logs : Logs n h.op op')
    (few : n ≤ maxEvents) : InOrder (h.record op') ∧ ∃ added, (h.record op').appended = h.appended ++ added := by
  obtain ⟨added, bound, rings⟩ := logs.appends
  have after := rings _ order.rings
  rw [Rings.record (bound.trans few) after order.rings]
  exact ⟨⟨after, by rw [logs.tail]; exact order.tail⟩, added, rfl⟩

theorem reader_grows {h : DeployLog} (order : InOrder h) (running : h.op.status = .running)
    (decode : List UInt8 → String) (loads : String → Except PyError PyVal) (point : ReaderPoint) (heard : Heard) :
    InOrder (h.record (readSubprocess decode loads h.op point { heard with beside := [] }).1) ∧
      Grows h (h.record (readSubprocess decode loads h.op point { heard with beside := [] }).1) := by
  have few : 1 + h.op.stderrTail.length ≤ maxEvents := by
    have tail := order.tail
    rw [maxStderrTail] at tail
    rw [maxEvents]
    omega
  obtain ⟨kept, appended⟩ := order.logs (logs_readSubprocess decode loads h.op point heard) few
  exact ⟨kept, appended, fun stopped => absurd running stopped⟩

theorem push_length {α : Type} (maxlen : Nat) (deque : List α) (entry : α) : (push maxlen deque entry).length ≤ maxlen := by
  rw [push, List.rtake, List.length_drop]
  omega

theorem beside_grows {h : DeployLog} (order : InOrder h) {step : Beside}
    (met : step.event? = none ∨ h.op.status = .running) :
    InOrder (h.record (step.apply h.op)) ∧ Grows h (h.record (step.apply h.op)) := by
  -- What does not touch the ring is recorded as it is.
  have aside : ∀ op' : DeployOperation, op'.events = h.op.events → op'.totalAppended = h.op.totalAppended →
      op'.status = h.op.status → op'.exitCode = h.op.exitCode → op'.stderrTail.length ≤ maxStderrTail →
      InOrder (h.record op') ∧ Grows h (h.record op') := by
    intro op' events total status exitCode tail
    have after : Rings op' (h.appended ++ []) := by
      rw [List.append_nil]
      exact ⟨events.trans order.rings.events, total.trans order.rings.total⟩
    rw [Rings.record (Nat.zero_le _) after order.rings, List.append_nil]
    rw [List.append_nil] at after
    have marker : op'.terminalEvent = h.op.terminalEvent := by
      rw [DeployOperation.terminalEvent, DeployOperation.terminalEvent, status, exitCode]
    exact ⟨⟨after, tail⟩, ⟨[], (List.append_nil _).symm⟩, fun _ => ⟨rfl, status, marker⟩⟩
  cases step with
  | stderrLine line =>
    rw [Beside.apply]
    split
    · exact aside _ rfl rfl rfl rfl order.tail
    · exact aside _ rfl rfl rfl rfl (push_length _ _ _)
  | stderrEnds => exact aside _ rfl rfl rfl rfl order.tail
  | timeoutLog message =>
    have running : h.op.status = .running := by simpa [Beside.event?] using met
    obtain ⟨kept, appended⟩ := order.logs (logs_append h.op (logEvent (.str message) (.str "error"))) (by decide)
    exact ⟨kept, appended, fun stopped => absurd running stopped⟩

theorem Grows.trans {h h' h'' : DeployLog} (first : Grows h h') (second : Grows h' h'') : Grows h h'' where
  appended := by
    obtain ⟨added, appended⟩ := first.appended
    obtain ⟨added', appended'⟩ := second.appended
    exact ⟨added ++ added', by rw [appended', appended, List.append_assoc]⟩
  still stopped := by
    obtain ⟨same, status, marker⟩ := first.still stopped
    obtain ⟨same', status', marker'⟩ := second.still (status ▸ stopped)
    exact ⟨same'.trans same, status'.trans status, marker'.trans marker⟩

/-- A turn of any task. -/
theorem turn_grows (decode : List UInt8 → String) (loads : String → Except PyError PyVal) {h : DeployLog} (order : InOrder h)
    {others : List DeployCall} {k : DeployCall} {heard : Heard} (met : BeforeTerminal h others k heard) :
    InOrder ((deployCalls decode loads).resume h k heard).1 ∧ Grows h ((deployCalls decode loads).resume h k heard).1 := by
  cases k with
  | reader point => exact reader_grows order met decode loads point heard
  | beside step => exact beside_grows order met
  | stream g => exact ⟨order, ⟨[], (List.append_nil _).symm⟩, fun _ => ⟨rfl, rfl, rfl⟩⟩

/-- Along a run the log goes on. -/
theorem grows_of_reaches {decode : List UInt8 → String} {loads : String → Except PyError PyVal}
    {m m' : EventLoop DeployLog DeployCall} (order : InOrder m.state)
    (reach : (deployCalls decode loads).Reaches BeforeTerminal m m') : InOrder m'.state ∧ Grows m.state m'.state :=
  reach.invariant (P := fun h _ => InOrder h ∧ Grows m.state h) (fun _ held => held) (fun held _ => held)
    (fun held met => ⟨(turn_grows decode loads held.1 met).1, held.2.trans (turn_grows decode loads held.1 met).2⟩)
    ⟨order, ⟨[], (List.append_nil _).symm⟩, fun _ => ⟨rfl, rfl, rfl⟩⟩

theorem inOrder_init : InOrder .init := ⟨⟨rfl, rfl⟩, Nat.zero_le _⟩

/-- What has been yielded up to an id: each event after the cursor, unless it was missed. -/
structure Streamed (appended : List SseEvent) (g : Streaming) (covered : Nat) : Prop where
  within : covered ≤ appended.length
  started : g.cursor ≤ covered
  events : ∀ y ∈ g.yielded, ∃ (n : Nat) (event : SseEvent), y = .event event (n + 1) ∧ appended[n]? = some event ∧
    g.cursor ≤ n ∧ n < covered
  increasing : (g.yielded.map SseYield.id).Pairwise (· < ·)
  missed : ∀ n : Nat, g.cursor < n → n ≤ covered → (∀ y ∈ g.yielded, y.id ≠ n) → g.Missed n

section Generator

variable {appended : List SseEvent} {g : Streaming} {covered : Nat}

theorem Streamed.at (streamed : Streamed appended g covered) (point : StreamPoint) :
    Streamed appended { g with point := point } covered :=
  ⟨streamed.within, streamed.started, streamed.events, streamed.increasing, streamed.missed⟩

theorem Streamed.grow (streamed : Streamed appended g covered) (added : List SseEvent) :
    Streamed (appended ++ added) g covered where
  within := by
    rw [List.length_append]
    exact streamed.within.trans (Nat.le_add_right _ _)
  started := streamed.started
  events y member := by
    obtain ⟨n, event, shape, stands, later, before⟩ := streamed.events y member
    refine ⟨n, event, shape, ?_, later, before⟩
    rw [List.getElem?_append_left (Nat.lt_of_lt_of_le before streamed.within), stands]
  increasing := streamed.increasing
  missed := streamed.missed

theorem streamed_start {cursor : Nat} (within : cursor ≤ appended.length) : Streamed appended (.start cursor) cursor where
  within := within
  started := le_rfl
  events _ member := absurd member List.not_mem_nil
  increasing := .nil
  missed _ after upTo := absurd after (Nat.not_lt.mpr upTo)

theorem Streamed.id_le (streamed : Streamed appended g covered) {y : SseYield} (member : y ∈ g.yielded) :
    (g.cursor : Int) < y.id ∧ y.id ≤ covered := by
  obtain ⟨n, event, rfl, _, later, before⟩ := streamed.events y member
  rw [SseYield.id]
  omega

/-- The next event is yielded under the next id. -/
theorem Streamed.yield (streamed : Streamed appended g covered) {event : SseEvent} (next : appended[covered]? = some event)
    (point : StreamPoint) :
    Streamed appended { g with point := point, yielded := g.yielded ++ [.event event (covered + 1)] } (covered + 1) where
  within := (List.getElem?_eq_some_iff.mp next).1
  started := streamed.started.trans (Nat.le_succ _)
  events y member := by
    rcases List.mem_append.mp member with old | new
    · obtain ⟨n, event, shape, stands, later, before⟩ := streamed.events y old
      exact ⟨n, event, shape, stands, later, Nat.lt_succ_of_lt before⟩
    · exact ⟨covered, event, List.mem_singleton.mp new, next, streamed.started, Nat.lt_succ_self _⟩
  increasing := by
    rw [List.map_append, List.pairwise_append]
    refine ⟨streamed.increasing, List.pairwise_singleton _ _, fun id earlier id' last => ?_⟩
    obtain ⟨y, member, rfl⟩ := List.mem_map.mp earlier
    rw [List.map_singleton, List.mem_singleton] at last
    have bound := (streamed.id_le member).2
    rw [last, SseYield.id]
    omega
  missed n after upTo absent := by
    have old : n ≤ covered := by
      have other := absent _ (List.mem_append_right _ (List.mem_singleton_self _))
      rw [SseYield.id] at other
      omega
    exact streamed.missed n after old (fun y member => absent y (List.mem_append_left _ member))

/-- A new snapshot covers what had been evicted when it was taken. -/
theorem Streamed.snapshot (streamed : Streamed appended g covered) (earlier : ∀ s ∈ g.snapshots, s.total ≤ covered)
    {evicted : Nat} (bound : evicted ≤ appended.length) :
    Streamed appended { g with snapshots := g.snapshots ++ [⟨evicted, appended.length⟩] } (max covered evicted) where
  within := Nat.max_le.mpr ⟨streamed.within, bound⟩
  started := streamed.started.trans (Nat.le_max_left _ _)
  events y member := by
    obtain ⟨n, event, shape, stands, later, before⟩ := streamed.events y member
    exact ⟨n, event, shape, stands, later, Nat.lt_of_lt_of_le before (Nat.le_max_left _ _)⟩
  increasing := streamed.increasing
  missed n after upTo absent := by
    rw [Streaming.Missed, List.find?_append]
    by_cases old : n ≤ covered
    · obtain ⟨snapshot, found, missed⟩ := streamed.missed n after old absent
      exact ⟨snapshot, by rw [found, Option.some_or], missed⟩
    · have none : g.snapshots.find? (fun snapshot => n ≤ snapshot.total) = none := by
        rw [List.find?_eq_none]
        intro s member
        have before := earlier s member
        rw [decide_eq_true_eq]
        omega
      have missed : n ≤ evicted := by omega
      refine ⟨⟨evicted, appended.length⟩, ?_, missed⟩
      rw [none, Option.none_or, List.find?_cons_of_pos (by simpa using missed.trans bound)]

end Generator

/-- Where a loop over a snapshot is: the rest of it is what was appended from
the id that comes next up to `total`. -/
structure Round (appended : List SseEvent) (g : Streaming) (total : Nat) (rest : List SseEvent) (id : Int) (covered : Nat) : Prop where
  streamed : Streamed appended g covered
  next : id = covered + 1
  rest : rest = (appended.take total).drop covered
  upTo : covered ≤ total
  within : total ≤ appended.length
  taken : ∀ s ∈ g.snapshots, s.total ≤ total

/-- Where a generator can wait, with what it has yielded until then. -/
def Standing (h : DeployLog) (g : Streaming) : Prop :=
  match g.point with
  | .called _ => g.isStart = true
  | .sleeping cursor => Streamed h.appended g cursor ∧ ∀ s ∈ g.snapshots, s.total ≤ cursor
  | .polling total rest id => ∃ covered, Round h.appended g total rest id covered
  | .closing rest id => h.op.status ≠ .running ∧ ∃ covered, Round h.appended g h.appended.length rest id covered
  | .ended => h.op.status ≠ .running ∧
      ∃ before, g.yielded = before ++ [.terminal h.op.terminalEvent (h.appended.length + 1)] ∧
        Streamed h.appended { g with yielded := before } h.appended.length

section Turns

variable {h : DeployLog} {g : Streaming} {appended : List SseEvent} {covered total : Nat} {rest : List SseEvent} {id : Int}

theorem Round.cons {event : SseEvent} (round : Round h.appended g total (event :: rest) id covered) (point : StreamPoint) :
    Round h.appended { g with point := point, yielded := g.yielded ++ [.event event id] } total rest (id + 1) (covered + 1) := by
  obtain ⟨streamed, rfl, ahead, upTo, within, taken⟩ := round
  have stands : (h.appended.take total)[covered]? = some event := by
    rw [← List.head?_drop, ← ahead, List.head?_cons]
  have inside : covered < total := by
    have bound := (List.getElem?_eq_some_iff.mp stands).1
    rwa [List.length_take_of_le within] at bound
  rw [List.getElem?_take_of_lt inside] at stands
  refine ⟨streamed.yield stands point, by push_cast; rfl, ?_, inside, within, taken⟩
  rw [← List.tail_drop, ← ahead, List.tail_cons]

/-- At the end of a snapshot all of it is covered. -/
theorem Round.nil (round : Round h.appended g total [] id covered) : covered = total := by
  have none := round.rest.symm
  rw [List.drop_eq_nil_iff, List.length_take_of_le round.within] at none
  exact Nat.le_antisymm round.upTo none

theorem standing_closing (stopped : h.op.status ≠ .running) (round : Round h.appended g h.appended.length rest id covered)
    (total : h.op.totalAppended = h.appended.length) :
    ∀ g' ∈ (g.follow (h.op.closing rest id)).points, Standing h g' := by
  intro g' member
  cases rest with
  | cons event rest =>
    rw [List.mem_singleton.mp member]
    exact ⟨stopped, covered + 1, round.cons _⟩
  | nil =>
    rw [List.mem_singleton.mp member]
    refine ⟨stopped, g.yielded, ?_, ?_⟩
    · rw [← total]
      rfl
    · exact round.nil ▸ round.streamed.at _

/-- The ring is what was appended without the evicted part. -/
theorem Rings.kept {op : DeployOperation} (rings : Rings op appended) :
    op.events = appended.drop (appended.length - op.events.length) ∧ op.events.length ≤ appended.length := by
  have count : op.events.length = appended.length - (appended.length - maxEvents) := by
    rw [rings.events, List.rtake, List.length_drop]
  have within : appended.length - maxEvents ≤ appended.length := Nat.sub_le _ _
  refine ⟨?_, count ▸ Nat.sub_le _ _⟩
  rw [count, Nat.sub_sub_self within]
  exact rings.events

theorem Rings.unseen (rings : Rings h.op h.appended) (cursor : Nat) :
    h.op.unseen cursor = h.appended.drop (max cursor (h.appended.length - h.op.events.length)) ∧
      h.op.firstId cursor = (max cursor (h.appended.length - h.op.events.length) : Nat) + 1 := by
  obtain ⟨kept, bound⟩ := rings.kept
  have starts : h.op.dequeStart = (h.appended.length - h.op.events.length : Nat) := by
    rw [DeployOperation.dequeStart, rings.total, Nat.cast_sub bound]
  generalize h.appended.length - h.op.events.length = evicted at kept starts
  have skips : h.op.skip cursor = cursor - evicted := by
    rw [DeployOperation.skip, starts]
    omega
  have first : evicted + (cursor - evicted) = max cursor evicted := by omega
  constructor
  · rw [DeployOperation.unseen, skips, kept, List.drop_drop, first]
  · rw [DeployOperation.firstId, starts, skips, ← Nat.cast_add, first]

/-- A new snapshot begins a round. -/
theorem round_snapshot (rings : Rings h.op h.appended) (streamed : Streamed h.appended g covered)
    (earlier : ∀ s ∈ g.snapshots, s.total ≤ covered) :
    Round h.appended { g with snapshots := g.snapshots ++ [h.snapshot] } h.appended.length (h.op.unseen covered)
      (h.op.firstId covered) (max covered (h.appended.length - h.op.events.length)) := by
  obtain ⟨unseen, first⟩ := rings.unseen covered
  have bound : h.appended.length - h.op.events.length ≤ h.appended.length := Nat.sub_le _ _
  refine ⟨streamed.snapshot earlier bound, first, ?_, Nat.max_le.mpr ⟨streamed.within, bound⟩, le_rfl, fun s member => ?_⟩
  · rw [unseen, List.take_length]
  · rcases List.mem_append.mp member with old | new
    · exact (earlier s old).trans streamed.within
    · rw [List.mem_singleton.mp new]
      exact le_rfl

/-- The end of a poll: the generator sleeps, or takes its last snapshot. -/
theorem standing_polled (rings : Rings h.op h.appended) (streamed : Streamed h.appended g total)
    (taken : ∀ s ∈ g.snapshots, s.total ≤ total) :
    ∀ g' ∈ ({ g with snapshots := g.snapshots ++ h.taken (.polling total [] id) }.follow
      (h.op.polling total [] id)).points, Standing h g' := by
  rw [DeployLog.taken, DeployOperation.polling]
  by_cases stopped : h.op.status ≠ .running
  · rw [if_pos stopped, if_pos stopped]
    exact standing_closing stopped (round_snapshot rings streamed taken) rings.total
  · rw [if_neg stopped, if_neg stopped, List.append_nil]
    intro g' member
    rw [List.mem_singleton.mp member]
    exact ⟨streamed.at _, taken⟩

theorem standing_poll (rings : Rings h.op h.appended) {cursor : Nat} (streamed : Streamed h.appended g cursor)
    (earlier : ∀ s ∈ g.snapshots, s.total ≤ cursor) :
    ∀ g' ∈ ({ g with snapshots := g.snapshots ++ [h.snapshot] }.follow
      (h.op.polling h.op.totalAppended (h.op.unseen cursor) (h.op.firstId cursor))).points, Standing h g' := by
  have round := round_snapshot rings streamed earlier
  rw [rings.total]
  cases ahead : h.op.unseen cursor with
  | cons event rest =>
    rw [ahead] at round
    intro g' member
    rw [List.mem_singleton.mp member]
    exact ⟨_, round.cons _⟩
  | nil =>
    rw [ahead] at round
    have all := round.nil
    have streamed := round.streamed
    rw [all] at streamed
    rw [DeployOperation.polling]
    split
    · rename_i stopped
      -- The second snapshot is the first one, and there is nothing left of it.
      obtain ⟨unseen, first⟩ := rings.unseen h.appended.length
      rw [Nat.max_eq_left (Nat.sub_le _ _)] at unseen first
      rw [unseen, first, List.drop_length]
      have done : Round h.appended _ h.appended.length [] (h.appended.length + 1) h.appended.length :=
        ⟨streamed, rfl, by rw [List.take_length, List.drop_length], le_rfl, le_rfl, round.taken⟩
      exact standing_closing stopped done rings.total
    · intro g' member
      rw [List.mem_singleton.mp member]
      exact ⟨streamed.at _, round.taken⟩

/-- A turn of a generator. -/
theorem Standing.resume (standing : Standing h g) (rings : Rings h.op h.appended)
    (met : ∀ cursor, g.point = .called cursor → cursor ≤ h.appended.length) :
    ∀ g' ∈ (g.resume h).points, Standing h g' := by
  obtain ⟨point, cursor, yielded, snapshots⟩ := g
  rw [Streaming.resume]
  cases point with
  | called initial =>
    have within := met initial rfl
    match cursor, yielded, snapshots, standing with
    | cursor, [], [], standing =>
      obtain rfl : initial = cursor := of_decide_eq_true standing
      exact standing_poll rings (streamed_start within) (fun s member => absurd member List.not_mem_nil)
  | sleeping cursor => exact standing_poll rings standing.1 standing.2
  | polling total rest id =>
    obtain ⟨covered, round⟩ := standing
    cases rest with
    | cons event rest =>
      intro g' member
      rw [List.mem_singleton.mp member, DeployLog.taken, List.append_nil]
      exact ⟨_, round.cons _⟩
    | nil => exact standing_polled rings (round.nil ▸ round.streamed) round.taken
  | closing rest id =>
    obtain ⟨stopped, covered, round⟩ := standing
    rw [DeployLog.taken, List.append_nil]
    exact standing_closing stopped round rings.total
  | ended =>
    intro g' member
    cases member

theorem Standing.grow {h' : DeployLog} (standing : Standing h g) (grows : Grows h h') : Standing h' g := by
  obtain ⟨added, appended⟩ := grows.appended
  obtain ⟨point, cursor, yielded, snapshots⟩ := g
  cases point with
  | called initial => exact standing
  | sleeping cursor =>
    refine ⟨?_, standing.2⟩
    rw [appended]
    exact standing.1.grow added
  | polling total rest id =>
    obtain ⟨covered, streamed, next, rest, upTo, within, taken⟩ := standing
    refine ⟨covered, ?_, next, ?_, upTo, ?_, taken⟩
    · rw [appended]
      exact streamed.grow added
    · rw [appended, List.take_append_of_le_length within, rest]
    · rw [appended, List.length_append]
      exact within.trans (Nat.le_add_right _ _)
  | closing rest id =>
    obtain ⟨same, status, _⟩ := grows.still standing.1
    exact ⟨status ▸ standing.1, same ▸ standing.2⟩
  | ended =>
    obtain ⟨same, status, marker⟩ := grows.still standing.1
    obtain ⟨stopped, before, shape, streamed⟩ := standing
    exact ⟨status ▸ stopped, before, by rw [shape, same, marker], same ▸ streamed⟩

theorem resume_yielded {value : SseYield} {g' : Streaming} (turn : g.resume h = .yielded (some value) g') :
    g'.cursor = g.cursor ∧ g'.yielded = g.yielded ++ [value] := by
  rw [Streaming.resume] at turn
  cases generated : h.op.generate g.point with
  | yielded value' point =>
    rw [generated] at turn
    cases turn
    exact ⟨rfl, rfl⟩
  | _ =>
    rw [generated] at turn
    cases turn

theorem Drains.kept {values : List SseYield} {last : Streaming} (drains : Drains h g values last) :
    last.cursor = g.cursor ∧ last.yielded = g.yielded ++ values := by
  induction drains with
  | ended => exact ⟨rfl, (List.append_nil _).symm⟩
  | yields turn _ ih =>
    obtain ⟨cursor, yielded⟩ := resume_yielded turn
    rw [ih.1, ih.2, cursor, yielded, List.append_assoc, List.singleton_append]
    exact ⟨rfl, rfl⟩

theorem Drains.standing {values : List SseYield} {last : Streaming} (drains : Drains h g values last)
    (standing : Standing h g) (rings : Rings h.op h.appended)
    (met : ∀ cursor, g.point = .called cursor → cursor ≤ h.appended.length) : Standing h last := by
  induction drains with
  | ended => exact standing
  | @yields g value g' values last turn _ ih =>
    have next : Standing h g' := standing.resume rings met g' (by rw [turn]; exact List.mem_singleton_self g')
    refine ih next (fun cursor called => ?_)
    -- a generator that has yielded is not at its start
    obtain ⟨_, yielded⟩ := resume_yielded turn
    obtain ⟨point, initial, before, snapshots⟩ := g'
    dsimp only at called yielded
    subst called
    match before, snapshots, next, yielded with
    | [], [], _, yielded => cases (List.append_ne_nil_of_right_ne_nil _ (List.cons_ne_nil _ _)) yielded.symm

theorem drains_closing (rest : List SseEvent) : ∀ (id : Int) (g₀ : Streaming) {g : Streaming},
    g.resume h = g₀.follow (h.op.closing rest id) → ∃ values last, Drains h g values last ∧ last.point = .ended := by
  induction rest with
  | nil => exact fun _ _ _ turn => ⟨_, _, .yields turn (.ended rfl), rfl⟩
  | cons event rest ih =>
    intro id g₀ g turn
    obtain ⟨values, last, drains, ended⟩ := ih (id + 1)
      ⟨.closing rest (id + 1), g₀.cursor, g₀.yielded ++ [.event event id], g₀.snapshots ++ []⟩
      (g := ⟨.closing rest (id + 1), g₀.cursor, g₀.yielded ++ [.event event id], g₀.snapshots⟩) rfl
    exact ⟨_, last, .yields turn drains, ended⟩

/-- After the terminal status a generator does not sleep again. -/
theorem drains_polling (stopped : h.op.status ≠ .running) (total : Nat) (rest : List SseEvent) :
    ∀ (id : Int) (g₀ : Streaming) {g : Streaming}, g.resume h = g₀.follow (h.op.polling total rest id) →
      ∃ values last, Drains h g values last ∧ last.point = .ended := by
  induction rest with
  | nil =>
    intro id g₀ g turn
    rw [DeployOperation.polling, if_pos stopped] at turn
    exact drains_closing _ _ _ turn
  | cons event rest ih =>
    intro id g₀ g turn
    let next : Streaming := ⟨.polling total rest (id + 1), g₀.cursor, g₀.yielded ++ [.event event id], g₀.snapshots⟩
    obtain ⟨values, last, drains, ended⟩ := ih (id + 1)
      { next with snapshots := next.snapshots ++ h.taken next.point } (g := next) rfl
    exact ⟨_, last, .yields turn drains, ended⟩

theorem exists_drains (stopped : h.op.status ≠ .running) (g : Streaming) :
    ∃ values last, Drains h g values last ∧ last.point = .ended := by
  obtain ⟨point, cursor, yielded, snapshots⟩ := g
  cases point with
  | called | sleeping | polling => exact drains_polling stopped _ _ _ _ rfl
  | closing => exact drains_closing _ _ _ rfl
  | ended => exact ⟨[], _, .ended rfl, rfl⟩

theorem Standing.complete (standing : Standing h g) (ended : g.point = .ended) : g.Complete h := by
  rw [Standing, ended] at standing
  obtain ⟨_, before, shape, streamed⟩ := standing
  refine ⟨before, shape, fun y member => ?_, fun n after upTo => ?_⟩
  · obtain ⟨n, event, rfl, _⟩ := streamed.events y member
    rfl
  · by_cases yielded : ∃ y ∈ before, y.id = (n : Int)
    · exact .inl yielded
    · exact .inr (streamed.missed n after upTo (fun y member same => yielded ⟨y, member, same⟩))

theorem Standing.closes (standing : Standing h g) (rings : Rings h.op h.appended) (stopped : h.op.status ≠ .running)
    (met : ∀ cursor, g.point = .called cursor → cursor ≤ h.appended.length) :
    ∃ values last, Drains h g values last ∧ last.cursor = g.cursor ∧ last.yielded = g.yielded ++ values ∧
      last.Complete h := by
  obtain ⟨values, last, drains, ended⟩ := exists_drains stopped g
  obtain ⟨cursor, yielded⟩ := drains.kept
  exact ⟨values, last, drains, cursor, yielded, (drains.standing standing rings met).complete ended⟩

/-- A generator that has not yielded the marker. -/
theorem Streamed.exactly (streamed : Streamed h.appended g covered) (goesOn : h.op.generate g.point ≠ .finished none)
    (standing : Standing h g) (rings : Rings h.op h.appended) : StreamsExactly h g where
  events event id member := by
    obtain ⟨n, event', same, stands, _⟩ := streamed.events _ member
    cases same
    exact ⟨n, rfl, stands⟩
  increasing := streamed.increasing
  above y member := (streamed.id_le member).1
  skipped n after := by
    rintro ⟨y, member, before⟩ absent
    have upTo := (streamed.id_le member).2
    exact streamed.missed n after (by omega) absent
  last y member := by
    obtain ⟨n, event, rfl, _⟩ := streamed.events y (List.dropLast_subset _ member)
    rfl
  terminal y member marker := by
    obtain ⟨n, event, rfl, _⟩ := streamed.events y member
    cases marker
  ends finished := absurd finished goesOn
  closes := standing.closes rings

theorem closing_goesOn (op : DeployOperation) (rest : List SseEvent) (id : Int) : op.closing rest id ≠ .finished none := by
  intro same
  cases rest <;> cases same

theorem polling_goesOn (op : DeployOperation) (total : Nat) (rest : List SseEvent) (id : Int) :
    op.polling total rest id ≠ .finished none := by
  intro same
  cases rest with
  | cons => cases same
  | nil =>
    rw [DeployOperation.polling] at same
    split at same
    · exact closing_goesOn _ _ _ same
    · cases same

/-- A generator that has yielded the marker after the events. -/
theorem Streamed.exactly_of_marker {before : List SseYield}
    (streamed : Streamed h.appended { g with yielded := before } h.appended.length)
    (shape : g.yielded = before ++ [.terminal h.op.terminalEvent (h.appended.length + 1)])
    (standing : Standing h g) (rings : Rings h.op h.appended) : StreamsExactly h g := by
  have closes := standing.closes rings
  obtain ⟨point, cursor, yielded, snapshots⟩ := g
  dsimp only at shape
  subst shape
  have older : ∀ y ∈ before, y.isTerminal = false ∧ (cursor : Int) < y.id ∧ y.id ≤ h.appended.length := by
    intro y member
    obtain ⟨n, event, rfl, _⟩ := streamed.events y member
    exact ⟨rfl, streamed.id_le member⟩
  constructor
  case events =>
    intro event' id member
    rcases List.mem_append.mp member with old | marker
    · obtain ⟨n, event', same, stands, _⟩ := streamed.events _ old
      cases same
      exact ⟨n, rfl, stands⟩
    · cases List.mem_singleton.mp marker
  case increasing =>
    rw [List.map_append, List.pairwise_append]
    refine ⟨streamed.increasing, List.pairwise_singleton _ _, fun id earlier id' last => ?_⟩
    obtain ⟨y, member, rfl⟩ := List.mem_map.mp earlier
    rw [List.map_singleton, List.mem_singleton] at last
    have bound := (older y member).2.2
    rw [last, SseYield.id]
    omega
  case above =>
    intro y member
    rcases List.mem_append.mp member with old | marker
    · exact (older y old).2.1
    · have started : cursor ≤ h.appended.length := streamed.started
      rw [List.mem_singleton.mp marker, SseYield.id]
      dsimp only
      omega
  case skipped =>
    rintro n after ⟨y, member, earlier⟩ absent
    have upTo : n ≤ h.appended.length := by
      rcases List.mem_append.mp member with old | marker
      · have bound := (older y old).2.2
        omega
      · rw [List.mem_singleton.mp marker, SseYield.id] at earlier
        omega
    exact streamed.missed n after upTo (fun y old => absent y (List.mem_append_left _ old))
  case last =>
    intro y member
    rw [List.dropLast_concat] at member
    exact (older y member).1
  case terminal =>
    intro y member marker
    rcases List.mem_append.mp member with old | last
    · rw [(older y old).1] at marker
      cases marker
    · exact List.mem_singleton.mp last
  case ends => exact fun _ => ⟨_, List.mem_append_right _ (List.mem_singleton_self _), rfl⟩
  case closes => exact closes

theorem Standing.exactly (standing : Standing h g) (rings : Rings h.op h.appended) : StreamsExactly h g := by
  have closes := standing.closes rings
  obtain ⟨point, cursor, yielded, snapshots⟩ := g
  cases point with
  | called initial =>
    match yielded, snapshots, standing with
    | [], [], _ =>
      refine ⟨?_, .nil, ?_, ?_, ?_, ?_, fun finished => absurd finished (polling_goesOn _ _ _ _), closes⟩
      · exact fun _ _ member => absurd member List.not_mem_nil
      · exact fun _ member => absurd member List.not_mem_nil
      · exact fun _ _ ⟨_, member, _⟩ => absurd member List.not_mem_nil
      · exact fun _ member => absurd member List.not_mem_nil
      · exact fun _ member => absurd member List.not_mem_nil
  | sleeping cursor => exact standing.1.exactly (polling_goesOn _ _ _ _) standing rings
  | polling total rest id =>
    have stands := standing
    obtain ⟨covered, round⟩ := standing
    exact round.streamed.exactly (polling_goesOn _ _ _ _) stands rings
  | closing rest id =>
    have stands := standing
    obtain ⟨_, covered, round⟩ := standing
    exact round.streamed.exactly (closing_goesOn _ _ _) stands rings
  | ended =>
    have stands := standing
    obtain ⟨_, before, shape, streamed⟩ := standing
    exact streamed.exactly_of_marker shape stands rings

end Turns

/-- In every interleaving the total without the ring is what was evicted, and
every generator yields the events by their ids. -/
theorem streams_exactly {decode : List UInt8 → String} {loads : String → Except PyError PyVal}
    {l : EventLoop DeployLog DeployCall}
    (reach : (deployCalls decode loads).Reaches BeforeTerminal ⟨.init, []⟩ l) :
    (∃ evicted, l.state.appended = evicted ++ l.state.op.events ∧ l.state.op.dequeStart = evicted.length) ∧
      ∀ g, .stream g ∈ l.waiting → StreamsExactly l.state g := by
  have kept : Coroutines.Annotated InOrder (fun h k => ∀ g, k = .stream g → Standing h g) l := by
    refine reach.annotated ?_ ?_ ⟨inOrder_init, fun k member => absurd member List.not_mem_nil⟩
    · rintro h k order new g rfl
      match g, new with
      | ⟨.called _, _, [], []⟩, new => exact new
    · intro h others k heard order standing rest met
      obtain ⟨after, grown⟩ := turn_grows decode loads order met
      refine ⟨after, fun p member g at_p => ?_, fun j member g at_j => (rest j member g at_j).grow grown⟩
      subst at_p
      cases k with
      | reader point =>
        dsimp only [deployCalls] at member
        rw [Turn.points_map] at member
        obtain ⟨q, _, same⟩ := List.mem_map.mp member
        cases same
      | beside step => cases member
      | stream g =>
        dsimp only [deployCalls] at member
        rw [Turn.points_map] at member
        obtain ⟨g', stands, same⟩ := List.mem_map.mp member
        cases same
        exact (standing g rfl).resume order.rings met _ stands
  obtain ⟨order, standing⟩ := kept
  refine ⟨?_, fun g waits => (standing _ waits g rfl).exactly order.rings⟩
  obtain ⟨ring, bound⟩ := order.rings.kept
  refine ⟨l.state.appended.take (l.state.appended.length - l.state.op.events.length), ?_, ?_⟩
  · exact (List.take_append_drop _ _).symm.trans (by rw [← ring])
  · rw [List.length_take_of_le (Nat.sub_le _ _), DeployOperation.dequeStart, order.rings.total, Nat.cast_sub bound]

/-- Every line is no JSON. -/
def loadsNothing (_ : String) : Except PyError PyVal := .error (.valueError "Expecting value")

def lineEvent : SseEvent := logEvent (.str (asciiLine [111, 107, 10])) (.str "log")

def lineHeard : Heard := ⟨[], false, some [111, 107, 10], 0, 0⟩

/-- The log of so many lines, with nothing on stderr. -/
def linesLog : Nat → DeployLog
  | 0 => ⟨{ DeployOperation.init with stderrDone := true }, []⟩
  | n + 1 => ⟨(linesLog n).op.append lineEvent, (linesLog n).appended ++ [lineEvent]⟩

theorem linesLog_rings (n : Nat) : Rings (linesLog n).op (linesLog n).appended := by
  induction n with
  | zero => exact ⟨rfl, rfl⟩
  | succ n ih => exact ih.append lineEvent

theorem linesLog_length (n : Nat) : (linesLog n).appended.length = n := by
  induction n with
  | zero => rfl
  | succ n ih => rw [linesLog, List.length_append, ih, List.length_singleton]

theorem linesLog_op (n : Nat) : (linesLog n).op.status = .running ∧ (linesLog n).op.stderrDone = true := by
  induction n with
  | zero => exact ⟨rfl, rfl⟩
  | succ n ih => rwa [linesLog, append_status, append_stderrDone]

/-- What leaves the ring alone is recorded as it is. -/
theorem record_of_same {h : DeployLog} {op' : DeployOperation} (rings : Rings h.op h.appended)
    (events : op'.events = h.op.events) (total : op'.totalAppended = h.op.totalAppended) :
    h.record op' = ⟨op', h.appended⟩ := by
  have after : Rings op' (h.appended ++ []) := by
    rw [List.append_nil]
    exact ⟨events.trans rings.events, total.trans rings.total⟩
  rw [Rings.record (Nat.zero_le _) after rings, List.append_nil]

/-- A reader and a generator, after so many lines. -/
def readLines (n : Nat) : EventLoop DeployLog DeployCall := ⟨linesLog n, [.reader .reading, .stream (.start 0)]⟩

theorem readLines_reached (n : Nat) :
    (deployCalls asciiLine loadsNothing).Reaches BeforeTerminal ⟨.init, []⟩ (readLines n) := by
  induction n with
  | zero =>
    have begun : (deployCalls asciiLine loadsNothing).Reaches BeforeTerminal ⟨.init, []⟩
        ⟨.init, [.beside .stderrEnds]⟩ := .call .start rfl
    have drained := begun.turn 0 lineHeard rfl (show BeforeTerminal .init [] (.beside .stderrEnds) lineHeard from .inl rfl)
    have recorded : DeployLog.init.record (Beside.stderrEnds.apply .init) = linesLog 0 := record_of_same ⟨rfl, rfl⟩ rfl rfl
    rw [show (deployCalls asciiLine loadsNothing).advance ⟨.init, [.beside .stderrEnds]⟩ 0 (.beside .stderrEnds) lineHeard =
      ⟨DeployLog.init.record (Beside.stderrEnds.apply .init), []⟩ from rfl, recorded] at drained
    exact .call (.call drained rfl) rfl
  | succ n ih =>
    have turned := ih.turn 0 lineHeard rfl (linesLog_op n).1
    have recorded : (linesLog n).record ((linesLog n).op.append lineEvent) = linesLog (n + 1) :=
      @Rings.record _ _ [lineEvent] (by decide) (linesLog_rings (n + 1)) (linesLog_rings n)
    rwa [show (deployCalls asciiLine loadsNothing).advance (readLines n) 0 (.reader .reading) lineHeard =
      ⟨(linesLog n).record ((linesLog n).op.append lineEvent), [.reader .reading, .stream (.start 0)]⟩ from rfl,
      recorded] at turned

/-- After these lines the process exits normally. -/
def exitedLog (n : Nat) : DeployLog :=
  ⟨{ (linesLog n).op with exitCode := some 0, finishedAt := some 0, status := .succeeded, timeoutDone := true },
    (linesLog n).appended⟩

theorem exitedLog_rings (n : Nat) : Rings (exitedLog n).op (exitedLog n).appended :=
  ⟨(linesLog_rings n).events, (linesLog_rings n).total⟩

theorem exitedLog_reached (n : Nat) : (deployCalls asciiLine loadsNothing).Reaches BeforeTerminal ⟨.init, []⟩
    ⟨exitedLog n, [.stream (.start 0)]⟩ := by
  obtain ⟨running, drained⟩ := linesLog_op n
  let eof : Heard := ⟨[], false, none, 0, 0⟩
  have atEof : (deployCalls asciiLine loadsNothing).advance (readLines n) 0 (.reader .reading) eof =
      ⟨linesLog n, [.reader .exiting, .stream (.start 0)]⟩ := by
    change EventLoop.mk ((linesLog n).record (linesLog n).op) _ = _
    rw [record_of_same (linesLog_rings n) rfl rfl]
    rfl
  have settled : settle { (linesLog n).op with exitCode := some 0 } (some .succeeded) 0 =
      ((exitedLog n).op, .finished .returned) := by
    rw [settle, if_pos drained]
    rfl
  have atExit : (deployCalls asciiLine loadsNothing).advance ⟨linesLog n, [.reader .exiting, .stream (.start 0)]⟩ 0
      (.reader .exiting) eof = ⟨exitedLog n, [.stream (.start 0)]⟩ := by
    have turn : readSubprocess asciiLine loadsNothing (linesLog n).op .exiting { eof with beside := [] } =
        ((exitedLog n).op, .finished .returned) := settled
    have recorded : (linesLog n).record (exitedLog n).op = exitedLog n := record_of_same (linesLog_rings n) rfl rfl
    simp only [Coroutines.advance, deployCalls, turn, recorded, Turn.map, Turn.points_finished]
    rfl
  have closed := (readLines_reached n).turn 0 eof rfl running
  rw [atEof] at closed
  have exited := closed.turn 0 eof rfl running
  rwa [atExit] at exited

/-- One line more than the ring holds: the first is missed, the others are
yielded, and then the marker. -/
theorem streams_exactly_overflow :
    StreamsExactly (exitedLog 2001) (.start 0) ∧ (exitedLog 2001).op.dequeStart = 1 ∧
      ∃ values last, Drains (exitedLog 2001) (.start 0) values last ∧
        values.getLast? = some (.terminal ("done", [("exit_code", .int 0)]) 2002) := by
  obtain ⟨⟨evicted, whole, start⟩, streams⟩ := streams_exactly (exitedLog_reached 2001)
  have exactly := streams _ List.mem_cons_self
  have total : (exitedLog 2001).appended.length = 2001 := linesLog_length 2001
  refine ⟨exactly, ?_, ?_⟩
  · have held : (exitedLog 2001).op.events.length = 2000 := by
      rw [(exitedLog_rings 2001).events, List.rtake, List.length_drop, total]
      rfl
    have lengths := congrArg List.length whole
    rw [List.length_append, total, held] at lengths
    rw [start]
    omega
  · obtain ⟨values, last, drains, _, yielded, events, complete, _⟩ :=
      exactly.closes (by decide) (fun cursor called => by cases called; exact Nat.zero_le _)
    refine ⟨values, last, drains, ?_⟩
    rw [show values = last.yielded from yielded.symm, complete, List.getLast?_concat, total]
    rfl

end Deploy

end InmemRuntime
