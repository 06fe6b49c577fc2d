import InmemRuntime.JoinRuns
import InmemRuntime.StreamMailboxes
import InmemRuntime.ThreadDelivery

namespace InmemRuntime

namespace ThreadStreams

def threadDeliveries (s : ThreadStreams) : ThreadDeliveries := ⟨s.deliveries, s.threadStreams⟩

def withThreadDeliveries (s : ThreadStreams) (d : ThreadDeliveries) : ThreadStreams :=
  { s.withLive (s.withDeliveries d.toDeliveries) with threadStreams := d.threadStreams }

/-- What `queues`, `control_queues` and `thread_streams` refer to. -/
def registry (s : ThreadStreams) : Board QueueKey Message where
  listed := s.threadDeliveries.listed
  count := s.streams.queueCount
  received := fun _ => []

end ThreadStreams

section Others

variable (uuid : String → Except PyError Uuid)

/-- The same lists with nothing in the queues. -/
def ThreadDeliveries.emptied (d : ThreadDeliveries) : ThreadDeliveries :=
  ⟨⟨{ d.streams with contents := fun _ => [] }, []⟩, d.threadStreams⟩

structure SameLists (d d' : ThreadDeliveries) : Prop where
  listed : ∀ key, d.listed key = d'.listed key
  count : d.streams.queueCount = d'.streams.queueCount

theorem sameLists_of {d d' : ThreadDeliveries} (queues : d.streams.queues = d'.streams.queues)
    (controlQueues : d.streams.controlQueues = d'.streams.controlQueues) (threadStreams : d.threadStreams = d'.threadStreams)
    (count : d.streams.queueCount = d'.streams.queueCount) : SameLists d d' := by
  refine ⟨fun key => ?_, count⟩
  cases key with
  | run => simp only [ThreadDeliveries.listed, queues]
  | control => simp only [ThreadDeliveries.listed, controlQueues]
  | thread => simp only [ThreadDeliveries.listed, threadStreams]

/-- What the queues hold has no part in what a call does to the lists. -/
theorem after_emptied (op : StreamOp) (d : ThreadDeliveries) : SameLists (op.after uuid d) (op.after uuid d.emptied) := by
  unfold StreamOp.after StreamOp.run
  cases op with
  | put runId threadId message resumable now =>
    dsimp only [ThreadDeliveries.put]
    cases ThreadDeliveries.runKey uuid runId threadId with
    | error e => exact sameLists_of rfl rfl rfl rfl
    | ok key =>
      simp only [ok_bind, Deliveries.publish, StreamManager.record, ThreadDeliveries.emptied]
      split <;> exact sameLists_of rfl rfl rfl rfl
  | putThread threadId message now =>
    dsimp only [ThreadDeliveries.putThread]
    cases ThreadDeliveries.ensureUuid uuid threadId <;> exact sameLists_of rfl rfl rfl rfl
  | addThreadStream threadId =>
    dsimp only [ThreadDeliveries.addThreadStream]
    cases ThreadDeliveries.ensureUuid uuid threadId <;> exact sameLists_of rfl rfl rfl rfl
  | addQueue runId threadId =>
    dsimp only [ThreadDeliveries.addQueue]
    cases ThreadDeliveries.runKey uuid runId threadId <;> exact sameLists_of rfl rfl rfl rfl
  | addControlQueue runId threadId =>
    dsimp only [ThreadDeliveries.addControlQueue]
    cases ThreadDeliveries.runKey uuid runId threadId <;> exact sameLists_of rfl rfl rfl rfl
  | removeQueue runId threadId queue =>
    dsimp only [ThreadDeliveries.removeQueue, StreamManager.removeQueue]
    cases ThreadDeliveries.runKey uuid runId threadId with
    | error e => exact sameLists_of rfl rfl rfl rfl
    | ok key =>
      simp only [ok_bind, ThreadDeliveries.emptied]
      cases d.streams.queues.removeQueue key.1 key.2 queue <;> exact sameLists_of rfl rfl rfl rfl
  | removeControlQueue runId threadId queue =>
    dsimp only [ThreadDeliveries.removeControlQueue, StreamManager.removeControlQueue]
    cases ThreadDeliveries.runKey uuid runId threadId with
    | error e => exact sameLists_of rfl rfl rfl rfl
    | ok key =>
      simp only [ok_bind, ThreadDeliveries.emptied]
      cases d.streams.controlQueues.removeQueue key.1 key.2 queue <;> exact sameLists_of rfl rfl rfl rfl
  | deliver =>
    dsimp only
    unfold Deliveries.deliverNext
    cases d.underway <;> exact sameLists_of rfl rfl rfl rfl
  | get queue =>
    dsimp only
    cases taken : d.take? queue with
    | none => exact sameLists_of rfl rfl rfl rfl
    | some found =>
      obtain ⟨contents, frame⟩ := Deliveries.take?_frame d.toDeliveries queue taken
      have none : d.emptied.take? queue = none := rfl
      rw [none]
      have queues := congrArg StreamManager.queues frame
      have controlQueues := congrArg StreamManager.controlQueues frame
      have count := congrArg StreamManager.queueCount frame
      exact sameLists_of queues controlQueues rfl count

end Others

namespace Threads

/-- The shared state, and for each closed generator the queues that it made. -/
structure WatchedQueues extends ThreadStreams where
  closed : List (List Nat)

/-- A generator with the queues that it has made so far, any other call of the
stream manager, and runs that come and go. -/
inductive GeneratorCall where
  | generator (call : StreamCall) (point : StreamJoin) (created : List Nat)
  | other (op : StreamOp)
  | changeRuns (runs : Table Run)

/-- The queues made before, with those made since there were `start`. -/
def made (created : List Nat) (start : Nat) (s : ThreadStreams) : List Nat :=
  created ++ List.range' start (s.streams.queueCount - start)

section Calls

variable (uuid : String → Except PyError Uuid) (decode : Message → Except PyError (String × String))
  (loads : String → Except PyError PyVal)

def generatorCalls : Coroutines WatchedQueues GeneratorCall Reply Unit where
  fresh
    | .generator _ .called [] | .other _ | .changeRuns _ => true
    | _ => false
  resume s
    | .generator call point created, reply =>
      let out := StreamJoin.resume decode loads call s.toThreadStreams point reply
      let created := made created s.streams.queueCount out.1
      let closed := match out.2 with
        | .finished _ => s.closed ++ [created]
        | _ => s.closed
      ({ s with toThreadStreams := out.1, closed := closed },
        out.2.map (fun point => .generator call point created) (fun _ => ()))
    | .other op, _ =>
      ({ s with toThreadStreams := s.withThreadDeliveries (op.after uuid s.threadDeliveries) }, .finished ())
    | .changeRuns runs, _ =>
      ({ s with toThreadStreams := s.withLive (s.withRuntime { s.toRuntime with runs := runs }) }, .finished ())

/-- No entry of `queues` or `thread_streams` refers to a queue of a closed generator. -/
def HoldsNone (s : WatchedQueues) : Prop :=
  ∀ created ∈ s.closed, ∀ queue ∈ created, (∀ threadId runId, queue ∉ queuesAt s.toThreadStreams threadId runId) ∧
    ∀ threadId, queue ∉ (s.threadStreams.get? threadId).getD []

end Calls

/-- Nothing is ever removed from under such a key. -/
def ofThread (key : QueueKey) : Prop := ∃ threadId, key = .thread threadId

/-- Where the queue that a generator makes for a run, or for its thread, is listed. -/
def homeOf (threadId : Uuid) (runId : Option Uuid) : QueueKey :=
  if runId = some threadId then .thread threadId else .run (some threadId) runId

structure Holding (threadId : Uuid) (r : Board QueueKey Message) (seen : List (Option Uuid)) (queues : Queues)
    (created : List Nat) : Prop where
  seen : some threadId ∈ seen
  numbers : created = queues.map Prod.snd
  homes : ∀ queue ∈ queues, ∀ key, queue.2 ∈ r.listed key → key = homeOf threadId queue.1
  numbered : ∀ queue ∈ queues, queue.2 < r.count
  thread : ∃ queue ∈ queues, queue.2 ∈ r.listed (.thread threadId)

def StreamJoin.Holds (threadId : Uuid) (r : Board QueueKey Message) (created : List Nat) : StreamJoin → Prop
  | .called | .authorizing | .logging | .replaying _ => created = []
  | .draining seen queues _ | .resting seen queues | .idling seen queues => Holding threadId r seen queues created

/-- What is left of a generator that is closed: of its queues no run lists one,
but its thread does if there are any. -/
structure Abandoned (r : Board QueueKey Message) (created : List Nat) : Prop where
  numbered : ∀ queue ∈ created, queue < r.count
  queues : ∀ queue ∈ created, ∀ key, queue ∈ r.listed key → ofThread key
  thread : created ≠ [] → ∃ queue ∈ created, ∃ threadId, queue ∈ r.listed (.thread threadId)

section Later

variable {r r' : Board QueueKey Message} {threadId : Uuid} {seen : List (Option Uuid)} {queues : Queues}
  {created : List Nat}

theorem Holding.later (holding : Holding threadId r seen queues created) (later : Board.Later ofThread r r') :
    Holding threadId r' seen queues created where
  seen := holding.seen
  numbers := holding.numbers
  homes := fun queue member key listed =>
    holding.homes queue member key (later.old key queue.2 listed (holding.numbered queue member))
  numbered := fun queue member => Nat.lt_of_lt_of_le (holding.numbered queue member) later.count
  thread := by
    obtain ⟨queue, member, listed⟩ := holding.thread
    exact ⟨queue, member, later.kept _ ⟨threadId, rfl⟩ queue.2 listed⟩

theorem StreamJoin.Holds.later {point : StreamJoin} (holds : point.Holds threadId r created)
    (later : Board.Later ofThread r r') : point.Holds threadId r' created := by
  cases point with
  | called | authorizing | logging | replaying => exact holds
  | draining | resting | idling => exact Holding.later holds later

theorem Abandoned.later (abandoned : Abandoned r created) (later : Board.Later ofThread r r') : Abandoned r' created where
  numbered := fun queue member => Nat.lt_of_lt_of_le (abandoned.numbered queue member) later.count
  queues := fun queue member key listed =>
    abandoned.queues queue member key (later.old key queue listed (abandoned.numbered queue member))
  thread := by
    intro some'
    obtain ⟨queue, member, threadId, listed⟩ := abandoned.thread some'
    exact ⟨queue, member, threadId, later.kept _ ⟨threadId, rfl⟩ queue listed⟩

theorem abandoned_nothing (r : Board QueueKey Message) : Abandoned r [] :=
  ⟨fun _ member => absurd member List.not_mem_nil, fun _ member => absurd member List.not_mem_nil,
    fun some' => absurd rfl some'⟩

end Later

section Poll

variable {threadId : Uuid} {created : List Nat} {start : Nat}

theorem made_self (created : List Nat) (s : ThreadStreams) : made created s.streams.queueCount s = created := by
  rw [made, Nat.sub_self]
  exact List.append_nil _

theorem made_succ (created : List Nat) {s s' : ThreadStreams} (below : start ≤ s.streams.queueCount)
    (count : s'.streams.queueCount = s.streams.queueCount + 1) :
    made created start s' = made created start s ++ [s.streams.queueCount] := by
  have length : s.streams.queueCount + 1 - start = s.streams.queueCount - start + 1 := by omega
  have last : start + (s.streams.queueCount - start) = s.streams.queueCount := by omega
  rw [made, count, length, List.range'_1_concat, last, ← List.append_assoc]
  rfl

/-- The state of a poll: it has made queues from `start` on. -/
structure Polling (threadId : Uuid) (created : List Nat) (start : Nat) (p : Polled) : Prop where
  well : p.shared.registry.WellFormed
  begun : start ≤ p.shared.streams.queueCount
  holding : Holding threadId p.shared.registry p.seen p.queues (made created start p.shared)

theorem addThreadStream_registry (s : ThreadStreams) (threadId : Uuid) :
    (s.addThreadStream threadId).2.registry = s.registry.add (.thread threadId) := by
  have listed := @ThreadDeliveries.addThreadStream_listed s.threadDeliveries
    (s.addThreadStream threadId).2.threadDeliveries threadId rfl rfl rfl
  exact Board.ext (funext listed) rfl rfl

theorem addQueue_registry (s : ThreadStreams) (runId threadId : Option Uuid) :
    (s.withStreams (s.streams.addQueue runId threadId).2).registry = s.registry.add (.run threadId runId) :=
  Board.ext (funext (s.threadDeliveries.addQueue_listed runId threadId)) rfl rfl

/-- The queue of one more run of the thread. -/
theorem Polling.run {p : Polled} (polling : Polling threadId created start p) {runId : Option Uuid}
    (new : runId ∉ p.seen) {shared : ThreadStreams}
    (added : shared.registry = p.shared.registry.add (.run (some threadId) runId)) :
    Polling threadId created start
      ⟨shared, p.seen ++ [runId], p.queues ++ [(runId, p.shared.streams.queueCount)]⟩ where
  well := by
    show shared.registry.WellFormed
    rw [added]
    exact polling.well.add _
  begun := by
    have count : shared.streams.queueCount = p.shared.streams.queueCount + 1 := congrArg Board.count added
    have before := polling.begun
    show start ≤ shared.streams.queueCount
    omega
  holding := by
    have count : shared.streams.queueCount = p.shared.streams.queueCount + 1 := congrArg Board.count added
    have notThread : runId ≠ some threadId := fun same => new (same ▸ polling.holding.seen)
    have old := polling.holding.later (Board.Later.add p.shared.registry (.run (some threadId) runId))
    show Holding threadId shared.registry _ _ (made created start shared)
    rw [added, made_succ created polling.begun count]
    refine ⟨List.mem_append_left _ old.seen, ?_, fun queue member key listed => ?_, fun queue member => ?_, ?_⟩
    · rw [old.numbers, List.map_append]
      rfl
    · rcases List.mem_append.mp member with before | last
      · exact old.homes queue before key listed
      · rw [List.mem_singleton.mp last] at listed ⊢
        rw [homeOf, if_neg notThread]
        rcases Board.mem_add.mp listed with before | ⟨here, _⟩
        · exact absurd (polling.well.numbered key _ before) (Nat.lt_irrefl _)
        · exact here
    · rcases List.mem_append.mp member with before | last
      · exact old.numbered queue before
      · rw [List.mem_singleton.mp last]
        exact Nat.lt_succ_self _
    · obtain ⟨queue, member, listed⟩ := old.thread
      exact ⟨queue, List.mem_append_left _ member, listed⟩

theorem Polling.subscribeRun {p : Polled} (polling : Polling threadId created start p) (run : Run) :
    Polling threadId created start (subscribeRun threadId p run) ∧
      Board.Later ofThread p.shared.registry (subscribeRun threadId p run).shared.registry := by
  unfold Threads.subscribeRun
  split
  · rename_i new
    have added := addQueue_registry p.shared run.runId (some threadId)
    refine ⟨polling.run new.2 added, ?_⟩
    rw [added]
    exact Board.Later.add _ _
  · exact ⟨polling, Board.Later.refl _⟩

theorem Polling.subscribeRuns {p : Polled} (polling : Polling threadId created start p) (runs : List Run) :
    Polling threadId created start (runs.foldl (Threads.subscribeRun threadId) p) ∧
      Board.Later ofThread p.shared.registry (runs.foldl (Threads.subscribeRun threadId) p).shared.registry := by
  induction runs generalizing p with
  | nil => exact ⟨polling, Board.Later.refl _⟩
  | cons run runs ih =>
    obtain ⟨first, later⟩ := polling.subscribeRun run
    obtain ⟨rest, later'⟩ := ih first
    exact ⟨rest, later.trans later'⟩

/-- Before the first poll nothing is made, and afterwards the queues are held. -/
def Polled.Ready (threadId : Uuid) (created : List Nat) (p : Polled) : Prop :=
  (p.seen = [] ∧ p.queues = [] ∧ created = []) ∨ Holding threadId p.shared.registry p.seen p.queues created

theorem subscribe_polling {p : Polled} (well : p.shared.registry.WellFormed) (ready : p.Ready threadId created) :
    Polling threadId created p.shared.streams.queueCount (subscribe threadId p) ∧
      Board.Later ofThread p.shared.registry (subscribe threadId p).shared.registry := by
  have first : Polling threadId created p.shared.streams.queueCount (subscribeThread threadId p) ∧
      Board.Later ofThread p.shared.registry (subscribeThread threadId p).shared.registry := by
    unfold subscribeThread
    rcases ready with ⟨seen, queues, created⟩ | holding
    · have unseen : some threadId ∉ p.seen := by
        rw [seen]
        exact List.not_mem_nil
      have added := addThreadStream_registry p.shared threadId
      have count : (p.shared.addThreadStream threadId).2.streams.queueCount = p.shared.streams.queueCount + 1 := rfl
      rw [if_neg unseen, seen, queues, created]
      refine ⟨⟨?_, Nat.le_succ _, ?_⟩, ?_⟩
      · show (p.shared.addThreadStream threadId).2.registry.WellFormed
        rw [added]
        exact well.add _
      · show Holding threadId (p.shared.addThreadStream threadId).2.registry _ _ (made [] _ (p.shared.addThreadStream threadId).2)
        rw [added, made_succ [] (Nat.le_refl _) count, made_self]
        refine ⟨List.mem_singleton_self _, rfl, fun queue member key listed => ?_, fun queue member => ?_, ?_⟩
        · rw [List.mem_singleton.mp member] at listed ⊢
          rw [homeOf, if_pos rfl]
          rcases Board.mem_add.mp listed with before | ⟨here, _⟩
          · exact absurd (well.numbered key _ before) (Nat.lt_irrefl _)
          · exact here
        · rw [List.mem_singleton.mp member]
          exact Nat.lt_succ_self _
        · exact ⟨_, List.mem_singleton_self _, Board.mem_add.mpr (Or.inr ⟨rfl, rfl⟩)⟩
      · show Board.Later ofThread p.shared.registry (p.shared.addThreadStream threadId).2.registry
        rw [added]
        exact Board.Later.add _ _
    · rw [if_pos holding.seen]
      refine ⟨⟨well, Nat.le_refl _, ?_⟩, Board.Later.refl _⟩
      rw [made_self]
      exact holding
  obtain ⟨rest, later⟩ := first.1.subscribeRuns p.shared.runs.values
  exact ⟨rest, first.2.trans later⟩

end Poll

section Turns

variable (decode : Message → Except PyError (String × String)) (loads : String → Except PyError PyVal) (call : StreamCall)

theorem drain_registry (s : ThreadStreams) (todo : Queues) : (drain decode loads call s todo).1.registry = s.registry := by
  induction todo generalizing s with
  | nil => rfl
  | cons queue todo ih =>
    obtain ⟨runId, queue⟩ := queue
    unfold drain
    split
    · exact ih (leave s queue [])
    · rfl
    · rfl

/-- A removal that raises changes nothing, and there was nothing to remove. -/
theorem closeQueue_registry (s : ThreadStreams) (runId threadId : Option Uuid) (queue : Nat) :
    (match s.streams.removeQueue runId threadId queue with
      | .error _ => s
      | .ok streams => s.withStreams streams).registry = s.registry.remove (.run threadId runId) queue := by
  have board := s.threadDeliveries.removeQueue_board (fun _ => []) runId threadId queue
  have listed : ∀ key, (s.threadDeliveries.removed (s.streams.removeQueue runId threadId queue)).listed key =
      (s.registry.remove (.run threadId runId) queue).listed key := fun key => congrFun (congrArg Board.listed board) key
  have count : (s.threadDeliveries.removed (s.streams.removeQueue runId threadId queue)).streams.queueCount =
      s.streams.queueCount := congrArg Board.count board
  cases outcome : s.streams.removeQueue runId threadId queue with
  | error e =>
    rw [outcome] at listed count
    exact Board.ext (funext listed) count rfl
  | ok streams =>
    rw [outcome] at listed count
    exact Board.ext (funext listed) count rfl

variable {decode loads call} {s : ThreadStreams}

/-- The queues of runs go, and none comes. -/
theorem closeQueues_registry (well : s.registry.WellFormed) (queues : Queues) :
    (closeQueues call s queues).registry.WellFormed ∧
      Board.Later ofThread s.registry (closeQueues call s queues).registry ∧
      (closeQueues call s queues).streams.queueCount = s.streams.queueCount ∧
      ∀ queue ∈ queues, queue.2 < s.streams.queueCount →
        queue.2 ∉ (closeQueues call s queues).registry.listed (.run (some call.threadId) queue.1) := by
  induction queues generalizing s with
  | nil => exact ⟨well, Board.Later.refl _, rfl, fun _ member => absurd member List.not_mem_nil⟩
  | cons queue queues ih =>
    have removed := closeQueue_registry s queue.1 (some call.threadId) queue.2
    have closes : closeQueues call s (queue :: queues) =
        closeQueues call (match s.streams.removeQueue queue.1 (some call.threadId) queue.2 with
          | .error _ => s
          | .ok streams => s.withStreams streams) queues := rfl
    rw [closes]
    revert removed
    generalize (match s.streams.removeQueue queue.1 (some call.threadId) queue.2 with
      | .error _ => s
      | .ok streams => s.withStreams streams) = middle
    intro removed
    have count : middle.streams.queueCount = s.streams.queueCount := congrArg Board.count removed
    have temporary : ¬ofThread (.run (some call.threadId) queue.1) := fun ⟨_, same⟩ => nomatch same
    have first : Board.Later ofThread s.registry middle.registry := by
      rw [removed]
      exact Board.Later.remove well temporary queue.2
    obtain ⟨well', later, count', gone⟩ := ih (s := middle) (by rw [removed]; exact well.remove _ _)
    refine ⟨well', first.trans later, count'.trans count, fun other member below listed => ?_⟩
    have below : other.2 < middle.streams.queueCount := Nat.lt_of_lt_of_eq below count.symm
    rcases List.mem_cons.mp member with rfl | rest
    · have still := later.old _ _ listed below
      rw [removed, well.mem_remove] at still
      exact still.2 ⟨rfl, rfl⟩
    · exact gone other rest below listed

/-- What a turn of a generator does to the queues that are listed, from where
it had made `created`. -/
structure Proceeds (call : StreamCall) (s : ThreadStreams) (created : List Nat) (out : StreamTurn) : Prop where
  well : out.1.registry.WellFormed
  later : Board.Later ofThread s.registry out.1.registry
  points : ∀ point ∈ out.2.points, point.Holds call.threadId out.1.registry (made created s.streams.queueCount out.1)
  ended : ∀ outcome, out.2 = .finished outcome → Abandoned out.1.registry (made created s.streams.queueCount out.1)

/-- A turn that changes none of the queues that are listed. -/
theorem Proceeds.same {created : List Nat} {s' : ThreadStreams} (well : s.registry.WellFormed) (same : s'.registry = s.registry)
    {turn : Turn StreamJoin (Except PyError (List ThreadEvent))}
    (points : ∀ point ∈ turn.points, point.Holds call.threadId s.registry created)
    (ended : ∀ outcome, turn = .finished outcome → created = []) : Proceeds call s created (s', turn) := by
  have count : s.streams.queueCount = s'.streams.queueCount := congrArg Board.count same.symm
  refine ⟨same ▸ well, ?_, fun point member => ?_, fun outcome finished => ?_⟩
  · show Board.Later ofThread s.registry s'.registry
    rw [same]
    exact Board.Later.refl _
  · show point.Holds call.threadId s'.registry (made created s.streams.queueCount s')
    rw [count, made_self, same]
    exact points point member
  · show Abandoned s'.registry (made created s.streams.queueCount s')
    rw [count, made_self, ended outcome finished]
    exact abandoned_nothing _

/-- A closed generator leaves its queue for the thread. -/
theorem close_abandons (well : s.registry.WellFormed) {seen : List (Option Uuid)} {queues : Queues} {created : List Nat}
    (holding : Holding call.threadId s.registry seen queues created) :
    Abandoned (closeQueues call s queues).registry created := by
  obtain ⟨_, later, _, gone⟩ := @closeQueues_registry call s well queues
  have kept := holding.later later
  refine ⟨fun queue member => ?_, fun queue member key listed => ?_, fun _ => ?_⟩
  · rw [kept.numbers] at member
    obtain ⟨pair, inside, rfl⟩ := List.mem_map.mp member
    exact kept.numbered pair inside
  · rw [kept.numbers] at member
    obtain ⟨pair, inside, rfl⟩ := List.mem_map.mp member
    have home := kept.homes pair inside key listed
    unfold homeOf at home
    split at home
    · exact ⟨_, home⟩
    · rw [home] at listed
      exact absurd listed (gone pair inside (holding.numbered pair inside))
  · obtain ⟨pair, inside, listed⟩ := kept.thread
    exact ⟨pair.2, kept.numbers ▸ List.mem_map_of_mem inside, call.threadId, listed⟩

/-- The generator ends with the cleanup of its queues. -/
theorem close_proceeds {s₀ : ThreadStreams} {created : List Nat} {seen : List (Option Uuid)} {queues : Queues}
    (later : Board.Later ofThread s₀.registry s.registry) (well : s.registry.WellFormed)
    (holding : Holding call.threadId s.registry seen queues (made created s₀.streams.queueCount s)) (e : PyError) :
    Proceeds call s₀ created (StreamJoin.close call s queues e) := by
  obtain ⟨well', later', count, _⟩ := @closeQueues_registry call s well queues
  have same : made created s₀.streams.queueCount (closeQueues call s queues) = made created s₀.streams.queueCount s := by
    rw [made, made, count]
  refine ⟨well', later.trans later', fun _ member => absurd member List.not_mem_nil, fun _ _ => ?_⟩
  show Abandoned (closeQueues call s queues).registry (made created s₀.streams.queueCount (closeQueues call s queues))
  rw [same]
  exact close_abandons well holding

variable (decode loads) in
theorem pass_proceeds {s₀ : ThreadStreams} {created : List Nat} {seen : List (Option Uuid)} {queues : Queues}
    (later : Board.Later ofThread s₀.registry s.registry) (well : s.registry.WellFormed)
    (holding : Holding call.threadId s.registry seen queues (made created s₀.streams.queueCount s)) (todo : Queues)
    (drained : Bool) : Proceeds call s₀ created (StreamJoin.pass decode loads call s seen queues todo drained) := by
  have drains := drain_registry decode loads call s todo
  unfold StreamJoin.pass
  cases pass : drain decode loads call s todo with
  | mk s' next =>
    rw [pass] at drains
    have drains : s'.registry = s.registry := drains
    have count : s'.streams.queueCount = s.streams.queueCount := congrArg Board.count drains
    have same : made created s₀.streams.queueCount s' = made created s₀.streams.queueCount s := by
      rw [made, made, count]
    rw [← drains] at later well
    rw [← drains, ← same] at holding
    cases next with
    | exhausted =>
      refine ⟨well, later, fun point member => ?_, fun _ finished => nomatch finished⟩
      rw [List.mem_singleton.mp member]
      cases drained <;> exact holding
    | yields event rest =>
      refine ⟨well, later, fun point member => ?_, fun _ finished => nomatch finished⟩
      rw [List.mem_singleton.mp member]
      exact holding
    | fails e rest => exact close_proceeds later well holding e

variable (decode loads) in
theorem poll_proceeds (well : s.registry.WellFormed) {created : List Nat} {seen : List (Option Uuid)} {queues : Queues}
    (ready : Polled.Ready call.threadId created ⟨s, seen, queues⟩) :
    Proceeds call s created (StreamJoin.poll decode loads call s seen queues) := by
  obtain ⟨polling, later⟩ := subscribe_polling (p := ⟨s, seen, queues⟩) well ready
  exact pass_proceeds decode loads later polling.well polling.holding _ false

variable (decode loads) in
theorem replay_proceeds (well : s.registry.WellFormed) (rest : List (Message × Option Uuid)) :
    Proceeds call s [] (StreamJoin.replay decode loads call s rest) := by
  unfold StreamJoin.replay
  split
  · exact poll_proceeds decode loads well (Or.inl ⟨rfl, rfl, rfl⟩)
  · refine Proceeds.same well rfl (fun point member => ?_) (fun _ finished => nomatch finished)
    rw [List.mem_singleton.mp member]
    exact (rfl : ([] : List Nat) = [])
  · exact Proceeds.same well rfl (fun _ member => absurd member List.not_mem_nil) (fun _ _ => rfl)

theorem refused_proceeds {s' : ThreadStreams} (well : s.registry.WellFormed) (same : s'.registry = s.registry) (e : PyError) :
    Proceeds call s [] (raised s' e) :=
  Proceeds.same well same (fun _ member => absurd member List.not_mem_nil) (fun _ _ => rfl)

theorem waits_proceeds {s' : ThreadStreams} (well : s.registry.WellFormed) (same : s'.registry = s.registry)
    {point : StreamJoin} (first : point.Holds call.threadId s.registry []) :
    Proceeds call s [] (s', .suspended point) := by
  refine Proceeds.same well same (fun other member => ?_) (fun _ finished => nomatch finished)
  rw [List.mem_singleton.mp member]
  exact first

variable (decode loads) in
theorem resume_proceeds (well : s.registry.WellFormed) {created : List Nat} {point : StreamJoin}
    (holds : point.Holds call.threadId s.registry created) (reply : Reply) :
    Proceeds call s created (StreamJoin.resume decode loads call s point reply) := by
  cases point with
  | called =>
    obtain rfl : created = [] := holds
    exact waits_proceeds well rfl rfl
  | authorizing =>
    obtain rfl : created = [] := holds
    simp only [StreamJoin.resume]
    cases reply.answer with
    | error e => exact refused_proceeds well rfl e
    | ok filters =>
      dsimp only
      split
      · have frame := Runs.getWithFilters_frame s.toRuntime call.threadId filters
        cases found : Threads.getWithFilters s.toRuntime call.threadId filters with
        | mk runtime result =>
          rw [found] at frame
          have streams : runtime.streams = s.streams := frame.1
          have same : (s.withLive (s.withRuntime runtime)).registry = s.registry := by
            refine Board.ext (funext (fun key => ?_)) (congrArg StreamManager.queueCount streams) rfl
            cases key with
            | run threadId runId => exact congrArg (fun m : StreamManager => (m.queues.get? threadId runId).getD []) streams
            | control threadId runId =>
              exact congrArg (fun m : StreamManager => (m.controlQueues.get? threadId runId).getD []) streams
            | thread => rfl
          cases result with
          | error e => exact refused_proceeds well same e
          | ok thread =>
            cases thread with
            | none => exact refused_proceeds well same _
            | some r => exact waits_proceeds well same rfl
      · exact waits_proceeds well rfl rfl
  | logging =>
    obtain rfl : created = [] := holds
    simp only [StreamJoin.resume]
    cases reply.answer with
    | error e => exact refused_proceeds well rfl e
    | ok value =>
      cases call.lastEventId with
      | none => exact poll_proceeds decode loads well (Or.inl ⟨rfl, rfl, rfl⟩)
      | some lastEventId =>
        dsimp only
        cases snapshot call s lastEventId with
        | error e => exact refused_proceeds well rfl e
        | ok messages => exact replay_proceeds decode loads well messages
  | replaying rest =>
    obtain rfl : created = [] := holds
    simp only [StreamJoin.resume]
    cases reply.answer with
    | error e => exact refused_proceeds well rfl e
    | ok value => exact replay_proceeds decode loads well rest
  | draining seen queues todo =>
    have holding : Holding call.threadId s.registry seen queues (made created s.streams.queueCount s) := by
      rw [made_self]
      exact holds
    simp only [StreamJoin.resume]
    cases reply.answer with
    | error e => exact close_proceeds (Board.Later.refl _) well holding e
    | ok value => exact pass_proceeds decode loads (Board.Later.refl _) well holding todo true
  | resting seen queues | idling seen queues =>
    have holding : Holding call.threadId s.registry seen queues (made created s.streams.queueCount s) := by
      rw [made_self]
      exact holds
    simp only [StreamJoin.resume]
    cases reply.answer with
    | error e => exact close_proceeds (Board.Later.refl _) well holding e
    | ok value => exact poll_proceeds decode loads well (Or.inr holds)

end Turns

theorem event_removed {uuid : String → Except PyError Uuid} {op : StreamOp} {d : ThreadDeliveries} {key : QueueKey}
    {queue : Nat} (removes : op.event uuid d = some (.removed key queue)) : ¬ofThread key := by
  rintro ⟨threadId, rfl⟩
  cases op with
  | deliver | get => cases removes
  | put | putThread | addQueue | addControlQueue | addThreadStream | removeQueue | removeControlQueue =>
    obtain ⟨_, _, other⟩ := Option.map_eq_some_iff.mp removes
    cases other

/-- A call of the stream manager lists no old queue anew, and removes none from
under a thread. -/
theorem after_later (uuid : String → Except PyError Uuid) {s : ThreadStreams} (well : s.registry.WellFormed)
    (op : StreamOp) :
    (s.withThreadDeliveries (op.after uuid s.threadDeliveries)).registry.WellFormed ∧
      Board.Later ofThread s.registry (s.withThreadDeliveries (op.after uuid s.threadDeliveries)).registry := by
  have same := after_emptied uuid op s.threadDeliveries
  let emptied : Recorded := ⟨s.threadDeliveries.emptied, [], fun _ => []⟩
  have runs := @after_board uuid emptied op rfl
  have reached : (((emptied.after uuid op).board (emptied.after uuid op).read).WellFormed) ∧
      Board.Later ofThread s.registry ((emptied.after uuid op).board (emptied.after uuid op).read) := by
    rw [runs]
    cases happens : op.event uuid emptied.toThreadDeliveries with
    | none => exact ⟨well, Board.Later.refl _⟩
    | some event =>
      refine ⟨Board.WellFormed.after well _ event, ?_⟩
      cases event with
      | added key => exact Board.Later.add _ _
      | removed key queue => exact Board.Later.remove well (event_removed happens) queue
      | sent key message => exact Board.Later.send _ _ _
  obtain ⟨well', later⟩ := reached
  refine ⟨⟨fun key queue member => ?_, fun key => ?_, fun _ _ => rfl⟩, later.trans (.of_listed same.listed same.count)⟩
  · have listed : queue ∈ (op.after uuid s.threadDeliveries).listed key := member
    rw [same.listed] at listed
    have below := well'.numbered key queue listed
    exact Nat.lt_of_lt_of_eq below same.count.symm
  · show ((op.after uuid s.threadDeliveries).listed key).Nodup
    rw [same.listed]
    exact well'.nodup key

/-- The lists are in order, and each closed generator has left what it leaves. -/
structure Tidy (s : WatchedQueues) : Prop where
  well : s.registry.WellFormed
  closed : ∀ created ∈ s.closed, Abandoned s.registry created

def GeneratorCall.Waits (s : WatchedQueues) : GeneratorCall → Prop
  | .generator call point created => point.Holds call.threadId s.registry created
  | _ => True

section Runs

variable {uuid : String → Except PyError Uuid} {decode : Message → Except PyError (String × String)}
  {loads : String → Except PyError PyVal}

theorem Tidy.later {s s' : WatchedQueues} (tidy : Tidy s) (well : s'.registry.WellFormed)
    (later : Board.Later ofThread s.registry s'.registry) (closed : s'.closed = s.closed) : Tidy s' :=
  ⟨well, fun created member => (tidy.closed created (closed ▸ member)).later later⟩

theorem GeneratorCall.Waits.later {s s' : WatchedQueues} {k : GeneratorCall} (waits : k.Waits s)
    (later : Board.Later ofThread s.registry s'.registry) : k.Waits s' := by
  cases k with
  | generator => exact StreamJoin.Holds.later waits later
  | other | changeRuns => trivial

theorem turn_tidy {s : WatchedQueues} {k : GeneratorCall} (tidy : Tidy s) (waits : k.Waits s) (reply : Reply) :
    Tidy ((generatorCalls uuid decode loads).resume s k reply).1 ∧
      (∀ p ∈ ((generatorCalls uuid decode loads).resume s k reply).2.points,
        p.Waits ((generatorCalls uuid decode loads).resume s k reply).1) ∧
      Board.Later ofThread s.registry ((generatorCalls uuid decode loads).resume s k reply).1.registry := by
  cases k with
  | generator call point created =>
    obtain ⟨well, later, points, ended⟩ := resume_proceeds decode loads tidy.well waits reply
    refine ⟨⟨well, ?_⟩, fun p member => ?_, later⟩
    · have before : ∀ old ∈ s.closed, Abandoned (StreamJoin.resume decode loads call s.toThreadStreams point reply).1.registry old :=
        fun old member => (tidy.closed old member).later later
      intro old member
      simp only [generatorCalls] at member
      split at member
      · rename_i outcome finished
        rcases List.mem_append.mp member with earlier | last
        · exact before old earlier
        · rw [List.mem_singleton.mp last]
          exact ended outcome finished
      · exact before old member
    · simp only [generatorCalls, Turn.points_map] at member
      obtain ⟨point', inside, rfl⟩ := List.mem_map.mp member
      exact points point' inside
  | other op =>
    obtain ⟨well, later⟩ := after_later uuid tidy.well op
    exact ⟨tidy.later well later rfl, fun p member => absurd member List.not_mem_nil, later⟩
  | changeRuns runs =>
    have later : Board.Later ofThread s.registry (s.withLive (s.withRuntime { s.toRuntime with runs := runs })).registry :=
      Board.Later.refl _
    exact ⟨tidy.later tidy.well later rfl, fun p member => absurd member List.not_mem_nil, later⟩

/-- In every run, and so once all generators are closed, no run lists a queue of
a closed generator; that no thread does either means that each of them was
closed before it had subscribed to anything. -/
theorem closed_generators_hold_none {initial : ThreadStreams} (well : initial.registry.WellFormed)
    {l : EventLoop WatchedQueues GeneratorCall}
    (reach : (generatorCalls uuid decode loads).Reaches Coroutines.unrestricted ⟨⟨initial, []⟩, []⟩ l) :
    (∀ created ∈ l.state.closed, ∀ queue ∈ created, ∀ threadId runId,
      queue ∉ queuesAt l.state.toThreadStreams threadId runId) ∧
    (HoldsNone l.state ↔ ∀ created ∈ l.state.closed, created = []) := by
  have annotated : Coroutines.Annotated Tidy (fun s k => GeneratorCall.Waits s k) l := by
    refine reach.annotated (fun {s k} _ new => ?_) (fun {s others k reply} tidy waits rest _ => ?_)
      ⟨⟨well, fun _ member => absurd member List.not_mem_nil⟩, fun _ member => absurd member List.not_mem_nil⟩
    · cases k with
      | other | changeRuns => trivial
      | generator call point created =>
        unfold generatorCalls at new
        dsimp only at new
        split at new
        · rename_i same
          cases same
          exact (rfl : ([] : List Nat) = [])
        · rename_i same
          cases same
        · rename_i same
          cases same
        · cases new
    · obtain ⟨kept, own, later⟩ := @turn_tidy uuid decode loads s k tidy waits reply
      exact ⟨kept, own, fun j member => (rest j member).later later⟩
  have closed := annotated.state.closed
  have ofRuns : ∀ created ∈ l.state.closed, ∀ queue ∈ created, ∀ threadId runId,
      queue ∉ queuesAt l.state.toThreadStreams threadId runId := by
    intro created member queue inside threadId runId listed
    obtain ⟨_, same⟩ := (closed created member).queues queue inside (.run threadId runId) listed
    cases same
  refine ⟨ofRuns, fun none created member => ?_, fun empty created member queue inside => ?_⟩
  · by_contra some'
    obtain ⟨queue, inside, threadId, listed⟩ := (closed created member).thread some'
    exact (none created member queue inside).2 threadId listed
  · rw [empty created member] at inside
    cases inside

end Runs

section Leak

/-- One run of the thread and no queue. -/
def oneRunStreams : ThreadStreams := { Runs.oneRun with threadStreams := .empty }

theorem oneRunStreams_wellFormed : oneRunStreams.registry.WellFormed := by
  have none : ∀ key, oneRunStreams.registry.listed key = [] := fun key => by cases key <;> rfl
  refine ⟨fun key queue member => ?_, fun key => ?_, fun _ _ => rfl⟩
  · rw [none] at member
    cases member
  · rw [none]
    exact List.nodup_nil

def liveStream : StreamCall := ⟨⟨2⟩, none, ["run_modes"]⟩

def unparsed (_ : String) : Except PyError PyVal := .error (.valueError "")

def cancelled : Reply := { plainReply with answer := .error (.foreign "CancelledError") }

/-- The generator is cancelled in its first sleep. -/
def disconnect : List (Coroutines.Move GeneratorCall Reply) :=
  [.call (.generator liveStream .called []), .turn 0 plainReply, .turn 0 plainReply, .turn 0 plainReply, .turn 0 cancelled]

theorem disconnect_performed :
    ((generatorCalls noUuid Runs.plainDecode unparsed).performAll ⟨⟨oneRunStreams, []⟩, []⟩ disconnect).isSome = true := by
  decide +kernel

/-- The queue of the run is gone, and that of the thread is still there. -/
theorem closed_generator_leaks :
    ¬ ∀ (uuid : String → Except PyError Uuid) (decode : Message → Except PyError (String × String))
      (loads : String → Except PyError PyVal) (initial : ThreadStreams), initial.registry.WellFormed →
        ∀ l, (generatorCalls uuid decode loads).Reaches Coroutines.unrestricted ⟨⟨initial, []⟩, []⟩ l →
          l.waiting = [] → HoldsNone l.state := by
  intro all
  have none := all noUuid Runs.plainDecode unparsed oneRunStreams oneRunStreams_wellFormed _
    (Coroutines.reaches_of_performAll (Option.some_get disconnect_performed).symm) (by decide +kernel)
  exact (none [0, 1] (by decide +kernel) 0 (by decide)).2 ⟨2⟩ (by decide +kernel)

/-- A client disconnects after its generator has subscribed to the thread and to
the run, which leaves the run; another one is refused by the handler. -/
theorem closed_generators_hold_none_disconnected :
    (∃ l : EventLoop WatchedQueues GeneratorCall, l.waiting = [] ∧ l.state.closed = [[0, 1]] ∧
      ∀ queue ∈ [0, 1], ∀ threadId runId, queue ∉ queuesAt l.state.toThreadStreams threadId runId) ∧
    ∃ l : EventLoop WatchedQueues GeneratorCall, l.waiting = [] ∧ l.state.closed = [[]] ∧ HoldsNone l.state := by
  constructor
  · have closed : ((Option.get _ disconnect_performed).state.closed) = [[0, 1]] := by decide +kernel
    have released := (closed_generators_hold_none oneRunStreams_wellFormed
      (Coroutines.reaches_of_performAll (Option.some_get disconnect_performed).symm)).1 [0, 1]
      (by rw [closed]; exact List.mem_singleton_self _)
    exact ⟨_, by decide +kernel, closed, released⟩
  · have called : (generatorCalls noUuid Runs.plainDecode unparsed).Reaches Coroutines.unrestricted
        ⟨⟨oneRunStreams, []⟩, []⟩ ⟨⟨oneRunStreams, []⟩, [.generator liveStream .called []]⟩ := .call .start rfl
    have refused := (called.turn 0 plainReply rfl trivial).turn 0 cancelled rfl trivial
    refine ⟨_, rfl, rfl, (closed_generators_hold_none oneRunStreams_wellFormed refused).2.mpr (fun created member => ?_)⟩
    exact List.mem_singleton.mp member

end Leak

end Threads

end InmemRuntime
