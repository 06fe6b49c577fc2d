import InmemRuntime.DeployServer

namespace InmemRuntime

namespace Deploy

section Tasks

variable {decode : List UInt8 → String} {loads : String → Except PyError PyVal} {op : DeployOperation} {d : Deployment}

@[simp] theorem append_timeoutDone (op : DeployOperation) (event : SseEvent) :
    (op.append event).timeoutDone = op.timeoutDone := by
  rw [DeployOperation.append]

theorem stash_status (op : DeployOperation) (evtType : PyVal) (event : PyDict) :
    (op.stash evtType event).status = op.status := by
  unfold DeployOperation.stash
  split
  · split
    · rfl
    · split <;> rfl
  · rfl

theorem readLine_status (op : DeployOperation) (rawLine : List UInt8) :
    (op.readLine decode loads rawLine).1.status = op.status := by
  unfold DeployOperation.readLine
  simp only
  split
  · exact append_status _ _
  · rfl
  · split
    · exact stash_status _ _ _
    · rw [append_status, stash_status]
    · split
      · rw [append_status, stash_status]
      · exact stash_status _ _ _
  · rfl

/-- A reader that goes on leaves the operation running; one that ends it has
cancelled the watchdog. -/
structure Reads {κ ρ : Type} (out : DeployOperation × Turn κ ρ) : Prop where
  once : out.2.points.length ≤ 1
  running : out.2.points ≠ [] → out.1.status = .running
  cancelled : out.1.status ≠ .running → out.1.timeoutDone = true

theorem settle_reads (running : op.status = .running) (final : Option DeployStatus) (now : Time) :
    Reads (settle op final now) := by
  unfold settle
  split
  · exact ⟨Nat.zero_le 1, fun waits => absurd rfl waits, fun _ => rfl⟩
  · exact ⟨le_rfl, fun _ => running, fun ended => absurd running ended⟩

theorem readSubprocess_reads (running : op.status = .running) (point : ReaderPoint) (heard : Heard)
    (alone : heard.beside = []) : Reads (readSubprocess decode loads op point heard) := by
  have waits (op' : DeployOperation) (point : ReaderPoint) (same : op'.status = op.status) :
      Reads ((op', .suspended point) : DeployOperation × Turn ReaderPoint ReaderEnd) :=
    ⟨le_rfl, fun _ => same.trans running, fun ended => absurd (same.trans running) ended⟩
  unfold readSubprocess
  rw [alone, List.foldl_nil]
  cases point with
  | reading =>
    dsimp only
    split
    · exact settle_reads running _ _
    · split
      · exact waits _ _ rfl
      · rename_i rawLine _
        have read : (op.readLine decode loads rawLine).1.status = op.status := readLine_status op rawLine
        generalize op.readLine decode loads rawLine = out at read
        obtain ⟨op', outcome⟩ := out
        cases outcome with
        | ok _ => exact waits _ _ read
        | error _ => exact settle_reads (read.trans running) _ _
  | exiting =>
    dsimp only
    split
    · exact settle_reads running _ _
    · have exited : ({ op with exitCode := some heard.exitCode } : DeployOperation).status = .running := running
      exact settle_reads exited _ _
  | draining final =>
    dsimp only
    split
    · exact ⟨Nat.zero_le 1, fun waits => absurd rfl waits, fun ended => absurd running ended⟩
    · exact ⟨Nat.zero_le 1, fun waits => absurd rfl waits, fun _ => rfl⟩

variable (decode loads) in
theorem read_reads (running : d.op.status = .running) (point : ReaderPoint) (heard : Heard) :
    Reads ((d.read decode loads point heard).1.op, (d.read decode loads point heard).2) ∧
      (d.read decode loads point heard).1.signals = d.signals := by
  have hears (exitCode : Int) :
      Reads (readSubprocess decode loads d.op point { heard with beside := [], exitCode := exitCode }) :=
    readSubprocess_reads running point _ rfl
  unfold Deployment.read
  dsimp only
  split
  · split
    · exact ⟨hears _, rfl⟩
    · exact ⟨⟨le_rfl, fun _ => running, fun ended => absurd running ended⟩, rfl⟩
  · exact ⟨hears _, rfl⟩

end Tasks

/-- `_serialize_operation` -/
structure SerializedOperation where
  operationId : String
  status : DeployStatus
  exitCode : Option Int
  startedAt : Time
  finishedAt : Option Time
  statusUrlEvent : Option PyDict
  resultEvent : Option PyDict

def serializeOperation (d : Deployment) : SerializedOperation where
  operationId := d.operationId
  status := d.op.status
  exitCode := d.op.exitCode
  startedAt := d.startedAt
  finishedAt := d.op.finishedAt
  statusUrlEvent := d.op.lastStatusUrlEvent
  resultEvent := d.op.lastResultEvent

/-- Nothing that is shown of the operation is another, and its subprocess has had no other signal. -/
structure Frozen (d d' : Deployment) : Prop where
  serialized : serializeOperation d' = serializeOperation d
  events : d'.op.events = d.op.events
  totalAppended : d'.op.totalAppended = d.op.totalAppended
  signals : d'.signals = d.signals

theorem Frozen.refl (d : Deployment) : Frozen d d := ⟨rfl, rfl, rfl, rfl⟩

theorem Frozen.trans {d d' d'' : Deployment} (first : Frozen d d') (second : Frozen d' d'') : Frozen d d'' :=
  ⟨second.serialized.trans first.serialized, second.events.trans first.events,
    second.totalAppended.trans first.totalAppended, second.signals.trans first.signals⟩

theorem Frozen.status {d d' : Deployment} (frozen : Frozen d d') : d'.op.status = d.op.status :=
  congrArg SerializedOperation.status frozen.serialized

/-- The watchdog of an operation that has ended is cancelled. -/
def Unwatched (d : Deployment) : Prop := d.op.status ≠ .running → d.op.timeoutDone = true

/-- What a turn of a task can do to its operation. -/
structure Moves (d d' : Deployment) : Prop where
  unwatched : Unwatched d → Unwatched d'
  frozen : Unwatched d → d.op.status ≠ .running → Frozen d d'

section Moves

variable {decode : List UInt8 → String} {loads : String → Except PyError PyVal} {d : Deployment}

theorem Moves.refl (d : Deployment) : Moves d d := ⟨id, fun _ _ => .refl d⟩

variable (decode loads) in
theorem moves_read (running : d.op.status = .running) (point : ReaderPoint) (heard : Heard) :
    Moves d (d.read decode loads point heard).1 :=
  ⟨fun _ ended => (read_reads decode loads running point heard).1.cancelled ended, fun _ ended => absurd running ended⟩

variable (decode) in
theorem drainStderr_same (op : DeployOperation) (line : Option (List UInt8)) :
    ∃ tail done, (drainStderr decode op line).1 = { op with stderrTail := tail, stderrDone := done } := by
  cases line with
  | none => exact ⟨_, _, rfl⟩
  | some rawLine =>
    rw [drainStderr, Beside.apply]
    split
    · exact ⟨op.stderrTail, op.stderrDone, rfl⟩
    · exact ⟨_, _, rfl⟩

variable (decode) in
theorem moves_drain (line : Option (List UInt8)) : Moves d { d with op := (drainStderr decode d.op line).1 } := by
  obtain ⟨tail, done, same⟩ := drainStderr_same decode d.op line
  rw [same]
  exact ⟨id, fun _ _ => ⟨rfl, rfl, rfl, rfl⟩⟩

theorem warn_status (message : String) (signal : Signal) : (d.warn message signal).op.status = d.op.status :=
  append_status _ _

theorem moves_warn (watched : d.op.timeoutDone ≠ true) (message : String) (signal : Signal) :
    Moves d (d.warn message signal) where
  unwatched before ended := absurd (before (by rwa [warn_status] at ended)) watched
  frozen unwatched ended := absurd (unwatched ended) watched

/-- The watchdog looks on, or warns a subprocess that runs. -/
theorem moves_watch (timedOut : Bool) (point : WatchdogPoint) : Moves d (timeoutWatchdog d timedOut point).1 := by
  cases point with
  | sleeping =>
    rw [timeoutWatchdog]
    split
    · exact .refl d
    · rename_i watched
      split
      · exact moves_warn watched _ _
      · exact .refl d
  | waiting =>
    rw [timeoutWatchdog]
    split
    · exact .refl d
    · rename_i watched
      exact moves_warn (fun done => watched (Or.inl done)) _ _

theorem moves_exit (code : Int) : Moves d (d.exit code) := ⟨id, fun _ _ => ⟨rfl, rfl, rfl, rfl⟩⟩

end Moves

def ServerCall.reader? : ServerCall → Option Nat
  | .reader i _ => some i
  | _ => none

def ServerCall.watchdog? : ServerCall → Option Nat
  | .watchdog i _ => some i
  | _ => none

/-- The signals that a watchdog has sent when it waits there. -/
def WatchdogPoint.sent : WatchdogPoint → List Signal
  | .sleeping => []
  | .waiting => [.terminate]

/-- An operation has one reader, until it ends, and one watchdog. -/
structure Supervised (server : DeployServer) (waiting : List ServerCall) : Prop where
  readers : (waiting.filterMap ServerCall.reader?).Nodup
  reading : ∀ i point, .reader i point ∈ waiting → ∃ d, server.deploys[i]? = some d ∧ d.op.status = .running
  watchdogs : (waiting.filterMap ServerCall.watchdog?).Nodup
  watching : ∀ i point, .watchdog i point ∈ waiting → ∃ d, server.deploys[i]? = some d ∧ d.signals = point.sent
  unwatched : ∀ d ∈ server.deploys, Unwatched d
  signals : ∀ d ∈ server.deploys, d.signals <+: [.terminate, .kill]

section Servers

variable {server : DeployServer} {others waiting : List ServerCall} {i : Nat} {d d' : Deployment}

theorem mem_readers {point : ReaderPoint} (member : .reader i point ∈ others) : i ∈ others.filterMap ServerCall.reader? :=
  List.mem_filterMap.mpr ⟨_, member, rfl⟩

theorem mem_watchdogs {point : WatchdogPoint} (member : .watchdog i point ∈ others) :
    i ∈ others.filterMap ServerCall.watchdog? :=
  List.mem_filterMap.mpr ⟨_, member, rfl⟩

theorem update_deploys (server : DeployServer) (i : Nat) (d' : Deployment) (j : Nat) :
    (server.update i (fun _ => d')).deploys[j]? = server.deploys[j]?.map (fun d => if i = j then d' else d) := by
  rw [DeployServer.update, List.getElem?_modify]
  rfl

theorem update_self (at_i : server.deploys[i]? = some d) (d' : Deployment) :
    (server.update i (fun _ => d')).deploys[i]? = some d' := by
  rw [update_deploys, at_i, Option.map_some, if_pos rfl]

theorem mem_update {e : Deployment} (member : e ∈ (server.update i (fun _ => d')).deploys) : e ∈ server.deploys ∨ e = d' := by
  obtain ⟨j, at_j⟩ := List.mem_iff_getElem?.mp member
  rw [update_deploys, Option.map_eq_some_iff] at at_j
  obtain ⟨old, stood, same⟩ := at_j
  split at same
  · exact .inr same.symm
  · exact .inl (same ▸ List.mem_of_getElem? stood)

theorem Supervised.perm (supervised : Supervised server others) (same : others.Perm waiting) : Supervised server waiting where
  readers := (same.filterMap _).nodup_iff.mp supervised.readers
  reading i point member := supervised.reading i point (same.mem_iff.mpr member)
  watchdogs := (same.filterMap _).nodup_iff.mp supervised.watchdogs
  watching i point member := supervised.watching i point (same.mem_iff.mpr member)
  unwatched := supervised.unwatched
  signals := supervised.signals

/-- A call has come to its end. -/
theorem Supervised.tail {k : ServerCall} (supervised : Supervised server (k :: others)) : Supervised server others where
  readers := supervised.readers.sublist ((List.sublist_cons_self k others).filterMap _)
  reading i point member := supervised.reading i point (List.mem_cons_of_mem _ member)
  watchdogs := supervised.watchdogs.sublist ((List.sublist_cons_self k others).filterMap _)
  watching i point member := supervised.watching i point (List.mem_cons_of_mem _ member)
  unwatched := supervised.unwatched
  signals := supervised.signals

/-- A call that is no reader and no watchdog. -/
theorem Supervised.cons {k : ServerCall} (supervised : Supervised server others) (noReader : k.reader? = none)
    (noWatchdog : k.watchdog? = none) : Supervised server (k :: others) where
  readers := by
    rw [List.filterMap_cons_none noReader]
    exact supervised.readers
  reading i point member := by
    rcases List.mem_cons.mp member with rfl | other
    · cases noReader
    · exact supervised.reading i point other
  watchdogs := by
    rw [List.filterMap_cons_none noWatchdog]
    exact supervised.watchdogs
  watching i point member := by
    rcases List.mem_cons.mp member with rfl | other
    · cases noWatchdog
    · exact supervised.watching i point other
  unwatched := supervised.unwatched
  signals := supervised.signals

theorem Supervised.consReader (supervised : Supervised server others) (alone : i ∉ others.filterMap ServerCall.reader?)
    (at_i : server.deploys[i]? = some d) (running : d.op.status = .running) (point : ReaderPoint) :
    Supervised server (.reader i point :: others) where
  readers := by
    rw [List.filterMap_cons_some (show ServerCall.reader? (.reader i point) = some i from rfl)]
    exact List.nodup_cons.mpr ⟨alone, supervised.readers⟩
  reading j point' member := by
    rcases List.mem_cons.mp member with same | other
    · cases same
      exact ⟨d, at_i, running⟩
    · exact supervised.reading j point' other
  watchdogs := by
    rw [List.filterMap_cons_none rfl]
    exact supervised.watchdogs
  watching j point' member := by
    rcases List.mem_cons.mp member with same | other
    · cases same
    · exact supervised.watching j point' other
  unwatched := supervised.unwatched
  signals := supervised.signals

theorem Supervised.consWatchdog (supervised : Supervised server others) (alone : i ∉ others.filterMap ServerCall.watchdog?)
    (at_i : server.deploys[i]? = some d) (point : WatchdogPoint) (sent : d.signals = point.sent) :
    Supervised server (.watchdog i point :: others) where
  readers := by
    rw [List.filterMap_cons_none rfl]
    exact supervised.readers
  reading j point' member := by
    rcases List.mem_cons.mp member with same | other
    · cases same
    · exact supervised.reading j point' other
  watchdogs := by
    rw [List.filterMap_cons_some (show ServerCall.watchdog? (.watchdog i point) = some i from rfl)]
    exact List.nodup_cons.mpr ⟨alone, supervised.watchdogs⟩
  watching j point' member := by
    rcases List.mem_cons.mp member with same | other
    · cases same
      exact ⟨d, at_i, sent⟩
    · exact supervised.watching j point' other
  unwatched := supervised.unwatched
  signals := supervised.signals

/-- A turn of a task of the operation at `i`. -/
theorem Supervised.update (supervised : Supervised server others) (at_i : server.deploys[i]? = some d)
    (moves : Moves d d') (reading : ∀ point, .reader i point ∈ others → d'.op.status = d.op.status)
    (watching : ∀ point, .watchdog i point ∈ others → d'.signals = d.signals)
    (signals : d'.signals <+: [.terminate, .kill]) : Supervised (server.update i (fun _ => d')) others where
  readers := supervised.readers
  reading j point member := by
    obtain ⟨e, at_j, running⟩ := supervised.reading j point member
    rw [update_deploys, at_j]
    refine ⟨_, rfl, ?_⟩
    split
    · rename_i same
      subst same
      rw [reading point member, Option.some.inj (at_i.symm.trans at_j), running]
    · exact running
  watchdogs := supervised.watchdogs
  watching j point member := by
    obtain ⟨e, at_j, sent⟩ := supervised.watching j point member
    rw [update_deploys, at_j]
    refine ⟨_, rfl, ?_⟩
    split
    · rename_i same
      subst same
      rw [watching point member, Option.some.inj (at_i.symm.trans at_j), sent]
    · exact sent
  unwatched e member := by
    rcases mem_update member with old | rfl
    · exact supervised.unwatched e old
    · exact moves.unwatched (supervised.unwatched d (List.mem_of_getElem? at_i))
  signals e member := by
    rcases mem_update member with old | rfl
    · exact supervised.signals e old
    · exact signals

theorem getElem?_launch (server : DeployServer) (d : Deployment) {j : Nat} {e : Deployment} (at_j : server.deploys[j]? = some e) :
    (server.launch d).deploys[j]? = some e := by
  obtain ⟨inside, _⟩ := List.getElem?_eq_some_iff.mp at_j
  rw [DeployServer.launch, List.getElem?_append_left inside, at_j]

/-- An operation is started with its three tasks. -/
theorem Supervised.launch (supervised : Supervised server others) (operationId : String) (now : Time) (command : List String) :
    Supervised (server.launch (.start operationId now command))
      (.reader server.deploys.length .reading :: .watchdog server.deploys.length .sleeping :: others) := by
  have free {j : Nat} (there : ∃ e, server.deploys[j]? = some e) : j ≠ server.deploys.length := by
    obtain ⟨e, at_j⟩ := there
    exact Nat.ne_of_lt (List.getElem?_eq_some_iff.mp at_j).1
  have at_new : (server.launch (.start operationId now command)).deploys[server.deploys.length]? =
      some (.start operationId now command) := List.getElem?_concat_length
  have old : Supervised (server.launch (.start operationId now command)) others := by
    refine ⟨supervised.readers, fun j point member => ?_, supervised.watchdogs, fun j point member => ?_, ?_, ?_⟩
    · obtain ⟨e, at_j, running⟩ := supervised.reading j point member
      exact ⟨e, getElem?_launch server _ at_j, running⟩
    · obtain ⟨e, at_j, sent⟩ := supervised.watching j point member
      exact ⟨e, getElem?_launch server _ at_j, sent⟩
    · intro e member
      rcases List.mem_append.mp member with before | new
      · exact supervised.unwatched e before
      · rw [List.mem_singleton.mp new]
        exact fun ended => absurd rfl ended
    · intro e member
      rcases List.mem_append.mp member with before | new
      · exact supervised.signals e before
      · rw [List.mem_singleton.mp new]
        exact List.nil_prefix
  have noWatchdog : server.deploys.length ∉ others.filterMap ServerCall.watchdog? := by
    intro member
    obtain ⟨k, waits, named⟩ := List.mem_filterMap.mp member
    cases k with
    | watchdog j point =>
      obtain ⟨e, at_j, _⟩ := supervised.watching j point waits
      exact free ⟨e, at_j⟩ (Option.some.inj named)
    | _ => cases named
  have noReader : server.deploys.length ∉ others.filterMap ServerCall.reader? := by
    intro member
    obtain ⟨k, waits, named⟩ := List.mem_filterMap.mp member
    cases k with
    | reader j point =>
      obtain ⟨e, at_j, _⟩ := supervised.reading j point waits
      exact free ⟨e, at_j⟩ (Option.some.inj named)
    | _ => cases named
  refine (old.consWatchdog noWatchdog at_new .sleeping rfl).consReader ?_ at_new rfl .reading
  rw [List.filterMap_cons_none rfl]
  exact noReader

end Servers

section Turns

variable {isDigit : Char → Bool} {str : PyVal → String} {decode : List UInt8 → String}
  {loads : String → Except PyError PyVal} {server : DeployServer} {k : ServerCall} {others : List ServerCall}
  {reply : ServerReply}

/-- What a turn of `start_deploy` does: it starts an operation, or nothing. -/
inductive Starts (server : DeployServer) : ServerTurn → Prop
  | waits {p : Starting} : Starts server (server, .suspended (.start p))
  | ends {outcome} : Starts server (server, .finished outcome)
  | launches {operationId : String} {now : Time} {command : List String} {response : Response} :
      Starts server (server.launch (.start operationId now command),
        .forked [.reader server.deploys.length .reading, .drainer server.deploys.length,
          .watchdog server.deploys.length .sleeping] (.start (.answered response)))

theorem startDeploy_starts (p : Starting) : Starts server (startDeploy isDigit str server reply p) := by
  cases p with
  | called origin =>
    rw [startDeploy]
    split
    · exact .ends
    · split
      · exact .ends
      · exact .waits
  | readingBody => exact .waits
  | gettingCwd command =>
    rw [startDeploy]
    exact attempt_cases (fun _ _ => .ends) (fun _ _ => .waits)
  | spawning command =>
    rw [startDeploy]
    exact attempt_cases (fun _ _ => .ends) (fun _ _ => .launches)
  | answered response => exact .ends

/-- What a turn leaves: the tasks in order, and each operation moved. -/
def Kept (server : DeployServer) (others : List ServerCall) (out : ServerTurn) : Prop :=
  Supervised out.1 (out.2.points ++ others) ∧
    ∀ (j : Nat) (d : Deployment), server.deploys[j]? = some d → ∃ d', out.1.deploys[j]? = some d' ∧ Moves d d'

theorem kept_work {κ ρ : Type} {i : Nat} {call : κ → ServerCall} {task : Deployment → Deployment × Turn κ ρ}
    (rest : Supervised server others)
    (works : ∀ d, server.deploys[i]? = some d → Moves d (task d).1 ∧
      Supervised (server.update i (fun _ => (task d).1)) ((task d).2.points.map call ++ others)) :
    Kept server others (server.work i call task) := by
  unfold DeployServer.work
  split
  · exact ⟨rest, fun j d at_j => ⟨d, at_j, .refl d⟩⟩
  · rename_i d at_i
    obtain ⟨moves, supervised⟩ := works d at_i
    refine ⟨by rwa [Turn.points_map], fun j e at_j => ?_⟩
    rw [update_deploys, at_j]
    refine ⟨_, rfl, ?_⟩
    split
    · rename_i same
      subst same
      rw [← Option.some.inj (at_i.symm.trans at_j)]
      exact moves
    · exact .refl e

theorem kept_start (rest : Supervised server others) {out : ServerTurn} (starts : Starts server out) : Kept server others out := by
  cases starts with
  | waits => exact ⟨rest.cons rfl rfl, fun j d at_j => ⟨d, at_j, .refl d⟩⟩
  | ends => exact ⟨rest, fun j d at_j => ⟨d, at_j, .refl d⟩⟩
  | @launches operationId now command response =>
    refine ⟨?_, fun j d at_j => ⟨d, getElem?_launch server _ at_j, .refl d⟩⟩
    have answered := rest.cons (k := .start (.answered response)) rfl rfl
    have drained := (answered.launch operationId now command).cons (k := .drainer server.deploys.length) rfl rfl
    exact drained.perm (.swap _ _ _)

theorem kept_reader (supervised : Supervised server (.reader i point :: others)) (heard : Heard) :
    Kept server others (server.work i (.reader i) (fun d => d.read decode loads point heard)) := by
  have alone : i ∉ others.filterMap ServerCall.reader? := by
    have distinct := supervised.readers
    rw [List.filterMap_cons_some (show ServerCall.reader? (.reader i point) = some i from rfl)] at distinct
    exact (List.nodup_cons.mp distinct).1
  obtain ⟨e, at_e, running⟩ := supervised.reading i point List.mem_cons_self
  refine kept_work supervised.tail (fun d at_i => ?_)
  rw [Option.some.inj (at_e.symm.trans at_i)] at running
  obtain ⟨reads, signals⟩ := read_reads decode loads running point heard
  have moves := moves_read decode loads running point heard
  refine ⟨moves, ?_⟩
  have updated := supervised.tail.update at_i moves
    (fun _ member => absurd (mem_readers member) alone)
    (fun _ _ => signals) (signals ▸ supervised.signals d (List.mem_of_getElem? at_i))
  have at_new := update_self at_i (d.read decode loads point heard).1
  generalize d.read decode loads point heard = out at reads updated at_new ⊢
  rcases waits : out.2.points with _ | ⟨q, _ | ⟨_, _⟩⟩
  · exact updated
  · exact updated.consReader alone at_new (reads.running (by simp [waits])) q
  · have once := reads.once
    rw [waits] at once
    cases once with
    | step more => cases more

theorem kept_watchdog (supervised : Supervised server (.watchdog i point :: others)) (timedOut : Bool) :
    Kept server others (server.work i (.watchdog i) (fun d => timeoutWatchdog d timedOut point)) := by
  have alone : i ∉ others.filterMap ServerCall.watchdog? := by
    have distinct := supervised.watchdogs
    rw [List.filterMap_cons_some (show ServerCall.watchdog? (.watchdog i point) = some i from rfl)] at distinct
    exact (List.nodup_cons.mp distinct).1
  obtain ⟨e, at_e, sent⟩ := supervised.watching i point List.mem_cons_self
  refine kept_work supervised.tail (fun d at_i => ⟨moves_watch timedOut point, ?_⟩)
  rw [Option.some.inj (at_e.symm.trans at_i)] at sent
  have updated (d' : Deployment) (moves : Moves d d') (status : d'.op.status = d.op.status)
      (signals : d'.signals <+: [.terminate, .kill]) : Supervised (server.update i (fun _ => d')) others :=
    supervised.tail.update at_i moves (fun _ _ => status)
      (fun _ member => absurd (mem_watchdogs member) alone) signals
  have still := updated d (.refl d) rfl (supervised.signals d (List.mem_of_getElem? at_i))
  have moves := moves_watch (d := d) timedOut point
  cases point with
  | sleeping =>
    rw [timeoutWatchdog] at moves ⊢
    split
    · exact still
    · rename_i watched
      rw [if_neg watched] at moves
      split
      · rename_i runs
        rw [if_pos runs] at moves
        have warned := updated _ moves (warn_status _ _) (by
          rw [Deployment.warn, sent]
          exact ⟨[.kill], rfl⟩)
        refine warned.consWatchdog alone (update_self at_i _) .waiting ?_
        rw [Deployment.warn, sent]
        rfl
      · exact still
  | waiting =>
    rw [timeoutWatchdog] at moves ⊢
    split
    · exact still
    · rename_i watched
      rw [if_neg watched] at moves
      exact updated _ moves (warn_status _ _) (by
        rw [Deployment.warn, sent]
        exact List.prefix_rfl)

theorem kept_drainer (rest : Supervised server others) (line : Option (List UInt8)) :
    Kept server others (server.work i (fun (_ : Unit) => .drainer i) (fun d =>
      ({ d with op := (drainStderr decode d.op line).1 }, (drainStderr decode d.op line).2))) := by
  refine kept_work rest (fun d at_i => ⟨moves_drain decode line, ?_⟩)
  obtain ⟨tail, done, same⟩ := drainStderr_same decode d.op line
  have updated := rest.update at_i (moves_drain decode line) (fun _ _ => by rw [same]) (fun _ _ => rfl)
    (rest.signals d (List.mem_of_getElem? at_i))
  cases line with
  | none => exact updated
  | some rawLine => exact updated.cons rfl rfl

theorem kept_exit (rest : Supervised server others) (code : Int) :
    Kept server others (server.work i (fun (_ : Unit) => .exits i code) (fun d => (d.exit code, .finished ()))) :=
  kept_work rest (fun d at_i => ⟨moves_exit code, rest.update at_i (moves_exit code) (fun _ _ => rfl) (fun _ _ => rfl)
    (rest.signals d (List.mem_of_getElem? at_i))⟩)

variable (isDigit str decode loads reply) in
/-- A turn keeps the tasks in order, and moves each operation. -/
theorem kept_turn (supervised : Supervised server (k :: others)) :
    Kept server others ((deployServer isDigit str decode loads).resume server k reply) := by
  cases k with
  | start p => exact kept_start supervised.tail (startDeploy_starts p)
  | reader i point => exact kept_reader supervised reply.heard
  | drainer i => exact kept_drainer supervised.tail reply.stderrLine
  | watchdog i point => exact kept_watchdog supervised reply.timedOut
  | exits i code => exact kept_exit supervised.tail code

end Turns

section Runs

variable {isDigit : Char → Bool} {str : PyVal → String} {decode : List UInt8 → String}
  {loads : String → Except PyError PyVal} {l l' : EventLoop DeployServer ServerCall}
  {allowed : DeployServer → List ServerCall → ServerCall → ServerReply → Prop}

theorem supervised_made {server : DeployServer} {waiting : List ServerCall} {k : ServerCall}
    (supervised : Supervised server waiting) (fresh : (deployServer isDigit str decode loads).fresh k = true) :
    Supervised server (k :: waiting) := by
  cases k with
  | start | exits => exact supervised.cons rfl rfl
  | _ => cases fresh

theorem supervised_of_reaches (reach : (deployServer isDigit str decode loads).Reaches allowed ⟨.init, []⟩ l) :
    Supervised l.state l.waiting := by
  refine reach.invariant (fun same supervised => supervised.perm same) supervised_made
    (fun supervised _ => (kept_turn isDigit str decode loads _ supervised).1) ?_
  exact ⟨List.nodup_nil, fun _ _ member => absurd member List.not_mem_nil, List.nodup_nil,
    fun _ _ member => absurd member List.not_mem_nil, fun _ member => absurd member List.not_mem_nil,
    fun _ member => absurd member List.not_mem_nil⟩

/-- Once an operation has ended, nothing that is shown of it changes any more, and its
subprocess is sent no signal; a subprocess is killed only after it has been terminated,
and each is done once at most. In every interleaving of all requests, readers,
drainers, watchdogs and exits. -/
theorem ended_deploys_frozen (begun : (deployServer isDigit str decode loads).Reaches allowed ⟨.init, []⟩ l)
    (later : (deployServer isDigit str decode loads).Reaches allowed l l') :
    (∀ (i : Nat) (d : Deployment), l.state.deploys[i]? = some d → d.op.status ≠ .running →
      ∃ d', l'.state.deploys[i]? = some d' ∧ Frozen d d') ∧
      ∀ d ∈ l.state.deploys, d.signals <+: [.terminate, .kill] := by
  have supervised := supervised_of_reaches begun
  refine ⟨fun i d at_i ended => ?_, supervised.signals⟩
  have kept := later.invariant
    (P := fun server waiting => Supervised server waiting ∧ ∃ d', server.deploys[i]? = some d' ∧ Frozen d d')
    (fun same held => ⟨held.1.perm same, held.2⟩) (fun held fresh => ⟨supervised_made held.1 fresh, held.2⟩)
    (fun held _ => ?_) ⟨supervised, d, at_i, .refl d⟩
  · exact kept.2
  · obtain ⟨d', at_i', frozen⟩ := held.2
    obtain ⟨after, moved⟩ := kept_turn isDigit str decode loads _ held.1
    obtain ⟨d'', at_i'', moves⟩ := moved i d' at_i'
    have stopped : d'.op.status ≠ .running := frozen.status ▸ ended
    exact ⟨after, d'', at_i'',
      frozen.trans (moves.frozen (held.1.unwatched d' (List.mem_of_getElem? at_i')) stopped)⟩

end Runs

/-- A request that has looked at `_current_op` and has still to assign it. -/
def ServerCall.isPending : ServerCall → Bool
  | .start .readingBody | .start (.gettingCwd _) | .start (.spawning _) => true
  | _ => false

/-- No request looks at `_current_op` while another is about to assign it. -/
def Apart (_ : DeployServer) (others : List ServerCall) (k : ServerCall) (_ : ServerReply) : Prop :=
  match k with
  | .start (.called _) => ∀ j ∈ others, j.isPending = false
  | _ => True

instance (server : DeployServer) (others : List ServerCall) (k : ServerCall) (reply : ServerReply) :
    Decidable (Apart server others k reply) :=
  match k with
  | .start (.called _) => inferInstanceAs (Decidable (∀ j ∈ others, j.isPending = false))
  | .start .readingBody | .start (.gettingCwd _) | .start (.spawning _) | .start (.answered _) | .reader _ _ | .drainer _
  | .watchdog _ _ | .exits _ _ => isTrue trivial

/-- Only the current operation runs, and none while a request is about to start one. -/
structure OneAtATime (server : DeployServer) (waiting : List ServerCall) : Prop where
  supervised : Supervised server waiting
  current : ∀ (i : Nat) (d : Deployment), server.deploys[i]? = some d → d.op.status = .running → server.current = some i
  pending : (waiting.filter ServerCall.isPending).length ≤ 1
  idle : ∀ k ∈ waiting, k.isPending = true → ∀ d ∈ server.deploys, d.op.status ≠ .running

section Exclusive

variable {isDigit : Char → Bool} {str : PyVal → String} {decode : List UInt8 → String}
  {loads : String → Except PyError PyVal} {server : DeployServer} {k : ServerCall} {others waiting : List ServerCall}
  {reply : ServerReply}

theorem OneAtATime.perm (one : OneAtATime server others) (same : others.Perm waiting) : OneAtATime server waiting where
  supervised := one.supervised.perm same
  current := one.current
  pending := (same.filter _).length_eq ▸ one.pending
  idle k member := one.idle k (same.mem_iff.mpr member)

theorem OneAtATime.made (one : OneAtATime server waiting) (fresh : (deployServer isDigit str decode loads).fresh k = true) :
    OneAtATime server (k :: waiting) := by
  have notYet : k.isPending = false := by
    cases k with
    | start p =>
      cases p with
      | called => rfl
      | _ => cases fresh
    | exits => rfl
    | _ => cases fresh
  refine ⟨supervised_made one.supervised fresh, one.current, ?_, fun j member pends => ?_⟩
  · rw [List.filter_cons_of_neg (by simp [notYet])]
    exact one.pending
  · rcases List.mem_cons.mp member with rfl | other
    · rw [notYet] at pends
      cases pends
    · exact one.idle j other pends

/-- An operation that does not run does not run after a turn. -/
theorem Moves.idle {d d' : Deployment} (moves : Moves d d') (unwatched : Unwatched d) (running : d'.op.status = .running) :
    d.op.status = .running := by
  by_contra ended
  rw [(moves.frozen unwatched ended).status] at running
  exact ended running

/-- A turn that starts no operation. -/
theorem OneAtATime.moved (one : OneAtATime server (k :: others)) {out : ServerTurn} (kept : Kept server others out)
    (current : out.1.current = server.current) (length : out.1.deploys.length = server.deploys.length)
    (pends : ∀ j ∈ out.2.points, j.isPending = true →
      (∀ j ∈ others, j.isPending = false) ∧ ∀ d ∈ server.deploys, d.op.status ≠ .running)
    (once : (out.2.points.filter ServerCall.isPending).length ≤ 1) : OneAtATime out.1 (out.2.points ++ others) := by
  have back (i : Nat) (d' : Deployment) (at_i : out.1.deploys[i]? = some d') (running : d'.op.status = .running) :
      ∃ d, server.deploys[i]? = some d ∧ d.op.status = .running := by
    obtain ⟨inside, _⟩ := List.getElem?_eq_some_iff.mp at_i
    rw [length] at inside
    obtain ⟨d'', at_i', moves⟩ := kept.2 i _ (List.getElem?_eq_getElem inside)
    cases at_i.symm.trans at_i'
    exact ⟨_, List.getElem?_eq_getElem inside,
      moves.idle (one.supervised.unwatched _ (List.getElem_mem inside)) running⟩
  have few : (others.filter ServerCall.isPending).length ≤ 1 :=
    (((List.sublist_cons_self k others).filter _).length_le).trans one.pending
  refine ⟨kept.1, fun i d' at_i running => ?_, ?_, fun j member waits d' listed running => ?_⟩
  · obtain ⟨d, at_i', ran⟩ := back i d' at_i running
    rw [current]
    exact one.current i d at_i' ran
  · rw [List.filter_append, List.length_append]
    by_cases new : ∃ j ∈ out.2.points, j.isPending = true
    · obtain ⟨j, member, waits⟩ := new
      have none : others.filter ServerCall.isPending = [] :=
        List.filter_eq_nil_iff.mpr (fun i other => by simp [(pends j member waits).1 i other])
      rw [none, List.length_nil, Nat.add_zero]
      exact once
    · have none : out.2.points.filter ServerCall.isPending = [] :=
        List.filter_eq_nil_iff.mpr (fun j member waits => new ⟨j, member, waits⟩)
      rw [none, List.length_nil, Nat.zero_add]
      exact few
  · obtain ⟨i, at_i⟩ := List.mem_iff_getElem?.mp listed
    obtain ⟨d, at_i', ran⟩ := back i d' at_i running
    rcases List.mem_append.mp member with new | other
    · exact (pends j new waits).2 d (List.mem_of_getElem? at_i') ran
    · exact one.idle j (List.mem_cons_of_mem _ other) waits d (List.mem_of_getElem? at_i') ran

/-- A turn of a task. -/
theorem OneAtATime.work (one : OneAtATime server (k :: others)) {κ ρ : Type} {i : Nat} {call : κ → ServerCall}
    {task : Deployment → Deployment × Turn κ ρ} (kept : Kept server others (server.work i call task))
    (still : ∀ point, (call point).isPending = false) :
    OneAtATime (server.work i call task).1 ((server.work i call task).2.points ++ others) := by
  have calm : ∀ j ∈ (server.work i call task).2.points, j.isPending = false := by
    unfold DeployServer.work
    split
    · exact fun j member => absurd member List.not_mem_nil
    · intro j member
      rw [Turn.points_map] at member
      obtain ⟨point, _, rfl⟩ := List.mem_map.mp member
      exact still point
  refine one.moved kept ?_ ?_ (fun j member waits => ?_) ?_
  · unfold DeployServer.work
    split <;> rfl
  · unfold DeployServer.work
    split
    · rfl
    · exact List.length_modify _ _ _
  · rw [calm j member] at waits
    cases waits
  · rw [List.filter_eq_nil_iff.mpr (fun j member => by simp [calm j member])]
    exact Nat.zero_le 1

/-- The request that is about to start an operation is the only one. -/
theorem OneAtATime.alone (one : OneAtATime server (k :: others)) (waits : k.isPending = true) :
    (∀ j ∈ others, j.isPending = false) ∧ ∀ d ∈ server.deploys, d.op.status ≠ .running := by
  refine ⟨fun j member => ?_, one.idle k List.mem_cons_self waits⟩
  have count := one.pending
  rw [List.filter_cons_of_pos waits, List.length_cons] at count
  have none := List.length_eq_zero_iff.mp (Nat.le_zero.mp (Nat.le_of_succ_le_succ count))
  exact Bool.eq_false_iff.mpr (List.filter_eq_nil_iff.mp none j member)

/-- Nothing runs when the current operation does not. -/
theorem OneAtATime.idle_of_current (one : OneAtATime server waiting)
    (stopped : server.currentOp.filter Deployment.isRunning = none) : ∀ d ∈ server.deploys, d.op.status ≠ .running := by
  intro d member running
  obtain ⟨i, at_i⟩ := List.mem_iff_getElem?.mp member
  have current : server.currentOp = some d := by rw [DeployServer.currentOp, one.current i d at_i running, Option.bind_some, at_i]
  have runs : d.isRunning = true := decide_eq_true running
  rw [current, Option.filter_some, if_pos runs] at stopped
  cases stopped

theorem OneAtATime.launched (one : OneAtATime server (k :: others)) (waits : k.isPending = true) {operationId : String}
    {now : Time} {command : List String} {points : List ServerCall}
    (kept : Supervised (server.launch (.start operationId now command)) (points ++ others))
    (calm : ∀ j ∈ points, j.isPending = false) :
    OneAtATime (server.launch (.start operationId now command)) (points ++ others) := by
  obtain ⟨alone, idle⟩ := one.alone waits
  have calmed : ∀ j ∈ points ++ others, j.isPending = false :=
    fun j member => (List.mem_append.mp member).elim (calm j) (alone j)
  refine ⟨kept, fun i d at_i running => ?_, ?_, fun j member pends => ?_⟩
  · rw [DeployServer.launch] at at_i ⊢
    dsimp only at at_i ⊢
    rw [List.getElem?_append] at at_i
    split at at_i
    · exact absurd running (idle d (List.mem_of_getElem? at_i))
    · rename_i new
      rw [List.getElem?_singleton] at at_i
      split at at_i
      · rename_i last
        exact congrArg some (Nat.le_antisymm (Nat.le_of_not_lt new) (Nat.sub_eq_zero_iff_le.mp last))
      · cases at_i
  · rw [List.filter_eq_nil_iff.mpr (fun j member => by simp [calmed j member])]
    exact Nat.zero_le 1
  · rw [calmed j member] at pends
    cases pends

theorem OneAtATime.turn (one : OneAtATime server (k :: others)) (apart : Apart server others k reply) :
    OneAtATime ((deployServer isDigit str decode loads).resume server k reply).1
      (((deployServer isDigit str decode loads).resume server k reply).2.points ++ others) := by
  have kept := kept_turn isDigit str decode loads reply one.supervised
  cases k with
  | reader | drainer | watchdog | exits => exact one.work kept (fun _ => rfl)
  | start p =>
    have stays (q : Starting) (only : (∀ j ∈ others, j.isPending = false) ∧ ∀ d ∈ server.deploys, d.op.status ≠ .running)
        (kept : Kept server others (server, .suspended (.start q))) :
        OneAtATime server ([.start q] ++ others) :=
      one.moved kept rfl rfl (fun _ _ _ => only) (List.length_filter_le _ _)
    have ends (outcome : Except PyError (Option Response)) (kept : Kept server others (server, .finished outcome)) :
        OneAtATime server ([] ++ others) :=
      one.moved kept rfl rfl (fun _ member => absurd member List.not_mem_nil) (Nat.zero_le 1)
    change Kept server others (startDeploy isDigit str server reply p) at kept
    change OneAtATime (startDeploy isDigit str server reply p).1 ((startDeploy isDigit str server reply p).2.points ++ others)
    cases p with
    | called origin =>
      rw [startDeploy] at kept ⊢
      split
      · rename_i refused
        rw [if_pos refused] at kept
        exact ends _ kept
      · rename_i accepted
        rw [if_neg accepted] at kept
        split
        · rename_i d runs
          rw [runs] at kept
          exact ends _ kept
        · rename_i stopped
          rw [stopped] at kept
          exact stays _ ⟨apart, one.idle_of_current stopped⟩ kept
    | readingBody => exact stays _ (one.alone rfl) kept
    | gettingCwd command =>
      rw [startDeploy] at kept ⊢
      cases answer : reply.answer with
      | error e =>
        rw [answer] at kept
        exact ends _ kept
      | ok value =>
        rw [answer] at kept
        exact stays _ (one.alone rfl) kept
    | spawning command =>
      rw [startDeploy] at kept ⊢
      cases answer : reply.answer with
      | error e =>
        rw [answer] at kept
        exact ends _ kept
      | ok value =>
        rw [answer] at kept
        refine one.launched rfl kept.1 (List.forall_mem_cons.mpr ⟨rfl, List.forall_mem_cons.mpr ⟨rfl, ?_⟩⟩)
        exact List.forall_mem_cons.mpr ⟨rfl, List.forall_mem_singleton.mpr rfl⟩
    | answered response => exact ends _ kept

/-- As long as no request of `start_deploy` looks at the current operation while
another one is about to assign it, at most one operation runs at a time, and it is the
current one. -/
theorem one_deploy_at_a_time {l : EventLoop DeployServer ServerCall}
    (reach : (deployServer isDigit str decode loads).Reaches Apart ⟨.init, []⟩ l) {i : Nat} {d : Deployment}
    (at_i : l.state.deploys[i]? = some d) (running : d.op.status = .running) : l.state.current = some i := by
  have one : OneAtATime l.state l.waiting := by
    refine reach.invariant (fun same one => one.perm same) (fun one fresh => one.made fresh) (fun one apart => one.turn apart) ?_
    refine ⟨?_, fun i d at_i => (by cases at_i), Nat.zero_le 1, fun _ member => absurd member List.not_mem_nil⟩
    have started : (deployServer isDigit str decode loads).Reaches Apart ⟨.init, []⟩ ⟨.init, []⟩ := .start
    exact supervised_of_reaches started
  exact one.current i d at_i running

end Exclusive

section Once

def deployReply : ServerReply := ⟨lineHeard, none, true, "0123456789ab", .ok .none⟩

/-- At the end of stdout the subprocess exits with 0. -/
def eofReply : ServerReply := { deployReply with heard := { lineHeard with line := none } }

def plainServer : Coroutines DeployServer ServerCall ServerReply (Except PyError (Option Response)) :=
  deployServer Char.isDigit (fun _ => "") asciiLine loadsNothing

/-- A request is answered, and its operation runs to its end. -/
def deployOnce (i : Nat) : List (Coroutines.Move ServerCall ServerReply) :=
  [.call (.start (.called "")), .turn i deployReply, .turn i deployReply, .turn i deployReply, .turn i deployReply,
    .turn (i + 3) deployReply, .turn i deployReply, .call (.exits i 0), .turn (i + 3) deployReply, .turn i eofReply, .turn i deployReply,
    .turn i deployReply]

theorem deployOnce_performed : (plainServer.performAll ⟨.init, []⟩ (deployOnce 0)).isSome = true := rfl

def deployedOnce : EventLoop DeployServer ServerCall :=
  (plainServer.performAll ⟨.init, []⟩ (deployOnce 0)).get deployOnce_performed

theorem deployedOnce_current : deployedOnce.state.currentOp.isSome = true := rfl

/-- The operation of the request, which has succeeded. -/
def onceDeployed : Deployment := deployedOnce.state.currentOp.get deployedOnce_current

/-- The watchdog wakes up after the operation has ended. -/
theorem ended_deploys_frozen_once :
    onceDeployed.op.status = .succeeded ∧
      ∃ d', (plainServer.advance deployedOnce 1 (.watchdog 0 .sleeping) deployReply).state.deploys[0]? = some d' ∧
        Frozen onceDeployed d' := by
  have begun : plainServer.Reaches Coroutines.unrestricted ⟨.init, []⟩ deployedOnce :=
    Coroutines.reaches_of_performAll (Option.some_get deployOnce_performed).symm
  have watched : plainServer.Reaches Coroutines.unrestricted deployedOnce
      (plainServer.advance deployedOnce 1 (.watchdog 0 .sleeping) deployReply) := .turn 1 deployReply .start rfl trivial
  have at_0 : deployedOnce.state.deploys[0]? = some onceDeployed := (Option.some_get deployedOnce_current).symm
  have status : onceDeployed.op.status = .succeeded := rfl
  exact ⟨status, (ended_deploys_frozen begun watched).1 0 onceDeployed at_0 (by rw [status]; decide)⟩

theorem deployTwice_performed :
    (plainServer.performAllIf Apart ⟨.init, []⟩ (deployOnce 0 ++ (deployOnce 2).take 5)).isSome = true := rfl

/-- A second operation is started when the first one has ended. -/
theorem one_deploy_at_a_time_twice :
    ∃ (l : EventLoop DeployServer ServerCall) (d : Deployment), l.state.deploys[1]? = some d ∧ d.op.status = .running ∧
      l.state.current = some 1 := by
  have reached : plainServer.Reaches Apart ⟨.init, []⟩ _ :=
    Coroutines.Reaches.performAllIf .start (Option.some_get deployTwice_performed).symm
  have running : ∀ d, ((plainServer.performAllIf Apart ⟨.init, []⟩ (deployOnce 0 ++ (deployOnce 2).take 5)).get
      deployTwice_performed).state.deploys[1]? = some d → d.op.status = .running := by
    intro d at_1
    cases at_1
    rfl
  obtain ⟨d, at_1⟩ : ∃ d, ((plainServer.performAllIf Apart ⟨.init, []⟩ (deployOnce 0 ++ (deployOnce 2).take 5)).get
      deployTwice_performed).state.deploys[1]? = some d := ⟨_, rfl⟩
  exact ⟨_, d, at_1, running d at_1, one_deploy_at_a_time reached at_1 (running d at_1)⟩

end Once

end Deploy

end InmemRuntime
