import InmemRuntime.CancelListener
import InmemRuntime.JoinRuns
import InmemRuntime.StreamReplay

namespace InmemRuntime

namespace Runs

/-- A run that is entered, the messages put on the queue that `enter` has
registered, and those that its listener has read. -/
structure HeardState where
  entered : EnterState
  puts : List Message
  received : List Message

/-- `Runs.enter` with its listener and the control puts, and clients that
subscribe to this run or to another. -/
inductive SubscribedCall where
  | enter (call : EnterCall)
  | subscribe (runId threadId : Uuid)
deriving DecidableEq

/-- The control message that a turn puts for the run. -/
def EnterCall.sends : EnterCall → Reply → Option ControlData
  | .control action, _ => some (.action action)
  | .entered _, reply => if reply.answer.isOk then some .done else none
  | _, _ => none

/-- What a turn of the listener takes from its queue. -/
def EnterCall.reads (s : EnterState) : EnterCall → Reply → List Message
  | .listening queue, reply =>
    if s.cancelled = false ∧ reply.answer.isOk then ((s.deliveries.take? queue).map Prod.fst).toList else []
  | _, _ => []

section Subscribed

variable (encode : String → String → String) (runId threadId : Uuid) (resumable : Bool)

/-- What a control put for the run puts on the registered queue. -/
def EnterState.putOn (s : EnterState) (data : ControlData) (now : Time) : List Message :=
  match s.history.controlQueue with
  | none => []
  | some queue =>
    if queue ∈ controlQueuesOf runId (some threadId) s.deliveries.streams then [(data.message runId).stamped now]
    else []

def HeardState.first (d : Deliveries) : HeardState := ⟨EnterState.first runId (some threadId) d [], [], []⟩

def SubscribedCall.resume (s : HeardState) :
    SubscribedCall → Reply → HeardState × Turn SubscribedCall (Except PyError Unit)
  | .enter k, reply =>
    let (entered, turn) := EnterCall.resume encode runId (some threadId) resumable s.entered k reply
    (⟨entered,
        s.puts ++ (k.sends reply).toList.flatMap (fun data => s.entered.putOn runId threadId data reply.now),
        s.received ++ k.reads s.entered reply⟩,
      turn.map .enter id)
  | .subscribe runId threadId, _ =>
    let streams := (Runs.subscribe s.entered.deliveries.streams runId threadId).2
    ({ s with entered := { s.entered with deliveries := { s.entered.deliveries with streams := streams } } },
      .finished (.ok ()))

/-- One `Runs.enter` with any control puts for its run and any subscribers. -/
def subscribedCalls : Coroutines HeardState SubscribedCall Reply (Except PyError Unit) where
  fresh
    | .enter (.control _) | .enter .deliver | .subscribe _ _ => true
    | _ => false
  resume s k reply := SubscribedCall.resume encode runId threadId resumable s k reply

/-- The listener has been started for the queue and goes on. -/
def Listened (s : EnterState) (waiting : List SubscribedCall) (queue : Nat) : Prop :=
  s.cancelled = false ∧ (.enter (.starting queue) ∈ waiting ∨ .enter (.listening queue) ∈ waiting)

/-- What has been put on the queue of a listener has been received by it, or
comes to it next, in the order of the puts. -/
def HearsAll (s : HeardState) (waiting : List SubscribedCall) : Prop :=
  ∀ queue, Listened s.entered waiting queue → s.puts = s.received ++ s.entered.deliveries.arriving queue

/-- A client subscribes to the run only while the queue of its listener holds
no message that the listener has not read. -/
def NothingUnread (s : HeardState) (others : List SubscribedCall) : SubscribedCall → Reply → Prop
  | .subscribe r t, _ => r = runId → t = threadId → ∀ queue, Listened s.entered others queue →
      s.entered.deliveries.streams.contents queue = []
  | .enter _, _ => True

end Subscribed

/-- The queues that are listed or written to have been made. -/
structure Fresh (d : Deliveries) : Prop where
  runs : ∀ thread run, ∀ queue ∈ (d.streams.queues.get? thread run).getD [], queue < d.streams.queueCount
  controls : ∀ thread run, ∀ queue ∈ (d.streams.controlQueues.get? thread run).getD [], queue < d.streams.queueCount
  underway : ∀ task ∈ d.underway, task.1 < d.streams.queueCount

/-- The queue is a control queue of this run and nothing else. -/
structure Dedicated (runId threadId : Uuid) (queue : Nat) (m : StreamManager) : Prop where
  made : queue < m.queueCount
  once : (controlQueuesOf runId (some threadId) m).count queue ≤ 1
  unsubscribed : ∀ thread run, queue ∉ (m.queues.get? thread run).getD []
  alone : ∀ thread run, queue ∈ (m.controlQueues.get? thread run).getD [] → thread = some threadId ∧ run = some runId

/-- No queue is made, and none is listed anew. -/
structure ListsNoMore (m m' : StreamManager) : Prop where
  count : m'.queueCount = m.queueCount
  runs : ∀ thread run, ((m'.queues.get? thread run).getD []).Sublist ((m.queues.get? thread run).getD [])
  controls : ∀ thread run,
    ((m'.controlQueues.get? thread run).getD []).Sublist ((m.controlQueues.get? thread run).getD [])

section Lists

variable {runId threadId : Uuid} {m m' : StreamManager} {d d' : Deliveries} {queue : Nat}

theorem Dedicated.keeps (dedicated : Dedicated runId threadId queue m) (keeps : ListsNoMore m m') :
    Dedicated runId threadId queue m' where
  made := keeps.count ▸ dedicated.made
  once := (List.Sublist.count_le _ (keeps.controls (some threadId) (some runId))).trans dedicated.once
  unsubscribed thread run member := dedicated.unsubscribed thread run ((keeps.runs thread run).subset member)
  alone thread run member := dedicated.alone thread run ((keeps.controls thread run).subset member)

theorem Fresh.keeps (fresh : Fresh d) (keeps : ListsNoMore d.streams d'.streams)
    (underway : ∀ task ∈ d'.underway, task.1 < d.streams.queueCount) : Fresh d' where
  runs thread run queue member := keeps.count ▸ fresh.runs thread run queue ((keeps.runs thread run).subset member)
  controls thread run queue member :=
    keeps.count ▸ fresh.controls thread run queue ((keeps.controls thread run).subset member)
  underway task member := keeps.count ▸ underway task member

theorem nothing_arrives (empty : d.streams.contents queue = []) (idle : ∀ task ∈ d.underway, task.1 ≠ queue) :
    d.arriving queue = [] := by
  have none : d.underway.filter (fun task => task.1 = queue) = [] :=
    List.filter_eq_nil_iff.mpr (fun task member => by simpa using idle task member)
  simp [Deliveries.arriving, empty, none]

section Publish

variable (d) (run thread : Option Uuid) (message : Message) (resumable : Bool) (now : Time)

theorem publish_lists : ListsNoMore d.streams (d.publish run thread message resumable now).streams := by
  constructor
  case count =>
    simp only [Deliveries.publish, StreamManager.record]
    split <;> rfl
  case runs =>
    intro thread' run'
    simp only [Deliveries.publish, StreamManager.record]
    split
    · exact List.Sublist.refl _
    · rw [Nested.touch_listed]
  case controls =>
    intro thread' run'
    simp only [Deliveries.publish, StreamManager.record]
    split
    · rw [Nested.touch_listed]
    · exact List.Sublist.refl _

variable {d}

theorem Fresh.publish (fresh : Fresh d) : Fresh (d.publish run thread message resumable now) := by
  refine fresh.keeps (publish_lists d run thread message resumable now) (fun task member => ?_)
  rcases List.mem_append.mp member with old | sent
  · exact fresh.underway task old
  · simp only [StreamManager.record] at sent
    split at sent
    · obtain ⟨queue, listed, rfl⟩ := List.mem_map.mp sent
      exact fresh.controls thread run queue listed
    · obtain ⟨queue, listed, rfl⟩ := List.mem_map.mp sent
      exact fresh.runs thread run queue listed

end Publish

/-- A control put comes once to a queue that is listed, and to no other. -/
theorem putControl_arriving (dedicated : Dedicated runId threadId queue d.streams) (data : ControlData) (now : Time) :
    (d.publish (some runId) (some threadId) (data.message runId) false now).arriving queue =
      d.arriving queue ++
        if queue ∈ controlQueuesOf runId (some threadId) d.streams then [(data.message runId).stamped now] else [] := by
  rw [Deliveries.publish_arriving]
  refine congrArg (d.arriving queue ++ ·) ?_
  simp only [StreamManager.record, controlTopic, if_true]
  rw [Deliveries.tasks_for]
  split
  · rename_i listed
    have once : (controlQueuesOf runId (some threadId) d.streams).count queue = 1 :=
      le_antisymm dedicated.once (List.count_pos_iff.mpr listed)
    rw [controlQueuesOf] at once
    rw [once]
    rfl
  · rename_i unlisted
    rw [controlQueuesOf] at unlisted
    rw [List.count_eq_zero.mpr unlisted]
    rfl

/-- What is put on the stream of a run does not come to a control queue. -/
theorem putStream_arriving (dedicated : Dedicated runId threadId queue d.streams) (data : String) (resumable : Bool)
    (now : Time) :
    (d.publish (some runId) (some threadId) (streamMessage runId data) resumable now).arriving queue =
      d.arriving queue := by
  rw [Deliveries.publish_arriving, StreamManager.record_of_stream _ _ _ _ _ (streamTopic runId data),
    Deliveries.tasks_for, List.count_eq_zero.mpr (dedicated.unsubscribed (some threadId) (some runId))]
  exact List.append_nil _

theorem deliverNext_lists (d : Deliveries) : ListsNoMore d.streams d.deliverNext.streams ∧
    ∀ task ∈ d.deliverNext.underway, task ∈ d.underway := by
  unfold Deliveries.deliverNext
  split
  · exact ⟨⟨rfl, fun _ _ => List.Sublist.refl _, fun _ _ => List.Sublist.refl _⟩, fun _ member => member⟩
  · rename_i first rest holds
    refine ⟨⟨rfl, fun _ _ => List.Sublist.refl _, fun _ _ => List.Sublist.refl _⟩, fun task member => ?_⟩
    rw [holds]
    exact List.mem_cons_of_mem _ member

theorem take_lists {message : Message} (taken : d.take? queue = some (message, d')) :
    ListsNoMore d.streams d'.streams := by
  obtain ⟨contents, frame⟩ := d.take?_frame queue taken
  rw [frame]
  exact ⟨rfl, fun _ _ => List.Sublist.refl _, fun _ _ => List.Sublist.refl _⟩

theorem removeControlQueue_lists {run thread : Option Uuid} {number : Nat}
    (removed : m.removeControlQueue run thread number = .ok m') : ListsNoMore m m' := by
  obtain ⟨controlQueues, done, rest⟩ := bind_ok removed
  cases rest
  refine ⟨rfl, fun _ _ => List.Sublist.refl _, fun thread' run' => ?_⟩
  have listed := Nested.removeQueue_listed m.controlQueues thread run number
  rw [done] at listed
  rw [listed thread' run']
  split
  · exact List.erase_sublist
  · exact List.Sublist.refl _

theorem addControlQueue_listed (m : StreamManager) (runId threadId thread run : Option Uuid) :
    (((m.addControlQueue runId threadId).2.controlQueues.get? thread run).getD []) =
      if thread = threadId ∧ run = runId then (m.controlQueues.get? thread run).getD [] ++ [m.queueCount]
      else (m.controlQueues.get? thread run).getD [] :=
  Nested.append_listed ..

/-- The queue that `enter` registers is new: nobody else has it, and nothing is on its way to it. -/
theorem addControlQueue_registers (fresh : Fresh d) {streams : StreamManager}
    (added : d.streams.addControlQueue (some runId) (some threadId) = (queue, streams)) :
    Fresh { d with streams := streams } ∧ Dedicated runId threadId queue streams ∧
      ({ d with streams := streams } : Deliveries).arriving queue = [] := by
  have unlisted : ∀ thread run, d.streams.queueCount ∉ (d.streams.controlQueues.get? thread run).getD [] :=
    fun thread run member => Nat.lt_irrefl _ (fresh.controls thread run _ member)
  have grown : ∀ {i : Nat}, i < d.streams.queueCount → i < d.streams.queueCount + 1 := fun made => by omega
  have listed := addControlQueue_listed d.streams (some runId) (some threadId)
  rw [added] at listed
  cases added
  refine ⟨?_, ?_, ?_⟩
  · constructor
    case runs => exact fun thread run i member => grown (fresh.runs thread run i member)
    case controls =>
      intro thread run i member
      rw [listed] at member
      split at member
      · rcases List.mem_append.mp member with old | new
        · exact grown (fresh.controls thread run i old)
        · rw [List.mem_singleton.mp new]
          exact Nat.lt_succ_self _
      · exact grown (fresh.controls thread run i member)
    case underway => exact fun task member => grown (fresh.underway task member)
  · constructor
    case made => exact Nat.lt_succ_self _
    case once =>
      rw [controlQueuesOf, listed, if_pos ⟨rfl, rfl⟩, List.count_append, List.count_eq_zero.mpr (unlisted _ _),
        List.count_singleton_self]
    case unsubscribed => exact fun thread run member => Nat.lt_irrefl _ (fresh.runs thread run _ member)
    case alone =>
      intro thread run member
      rw [listed] at member
      split at member
      · rename_i same
        exact same
      · exact absurd member (unlisted thread run)
  · exact nothing_arrives (if_pos rfl) (fun task member => Nat.ne_of_lt (fresh.underway task member))

/-- What is read from the control queues is read to its end. -/
theorem drainInto_spec (m : StreamManager) (target : Nat) (queues : List Nat) :
    (m.drainInto target queues).queues = m.queues ∧ (m.drainInto target queues).controlQueues = m.controlQueues ∧
      (m.drainInto target queues).queueCount = m.queueCount ∧
      ∀ queue, queue ≠ target →
        (m.drainInto target queues).contents queue = if queue ∈ queues then [] else m.contents queue := by
  induction queues generalizing m with
  | nil => exact ⟨rfl, rfl, rfl, fun _ _ => rfl⟩
  | cons first queues ih =>
    obtain ⟨runs, controls, count, contents⟩ := ih
      { m with
        contents := fun i =>
          if i = target then m.contents target ++ m.contents first else if i = first then [] else m.contents i }
    refine ⟨runs, controls, count, fun queue other => ?_⟩
    rw [StreamManager.drainInto, contents queue other]
    by_cases same : queue = first
    · subst same
      simp [other]
    · simp [same, other]

theorem subscribe_spec (m : StreamManager) (run thread : Uuid) :
    (subscribe m run thread).2.controlQueues = m.controlQueues ∧
      (subscribe m run thread).2.queueCount = m.queueCount + 1 ∧
      (∀ t r, ((subscribe m run thread).2.queues.get? t r).getD [] =
        if t = some thread ∧ r = some run then (m.queues.get? t r).getD [] ++ [m.queueCount]
        else (m.queues.get? t r).getD []) ∧
      ∀ queue, queue ≠ m.queueCount → (subscribe m run thread).2.contents queue =
        if queue ∈ controlQueuesOf run (some thread) m then [] else m.contents queue := by
  obtain ⟨runs, controls, count, contents⟩ := drainInto_spec (m.addQueue (some run) (some thread)).2 m.queueCount
    (controlQueuesOf run (some thread) m)
  refine ⟨controls, count, fun t r => ?_, fun queue other => ?_⟩
  · have appended := Nested.append_listed m.queues (some thread) (some run) t r m.queueCount
    exact (congrArg (fun queues => (Nested.get? queues t r).getD []) runs).trans appended
  · refine (contents queue other).trans ?_
    simp [StreamManager.addQueue, other]

theorem Fresh.subscribe (fresh : Fresh d) (run thread : Uuid) :
    Fresh { d with streams := (Runs.subscribe d.streams run thread).2 } := by
  obtain ⟨controls, count, runs, _⟩ := subscribe_spec d.streams run thread
  have grown : ∀ {i : Nat}, i < d.streams.queueCount → i < (Runs.subscribe d.streams run thread).2.queueCount :=
    fun made => by omega
  constructor
  case runs =>
    intro t r i member
    rw [runs] at member
    split at member
    · rcases List.mem_append.mp member with old | new
      · exact grown (fresh.runs t r i old)
      · rw [List.mem_singleton.mp new, count]
        exact Nat.lt_succ_self _
    · exact grown (fresh.runs t r i member)
  case controls =>
    intro t r i member
    rw [controls] at member
    exact grown (fresh.controls t r i member)
  case underway => exact fun task member => grown (fresh.underway task member)

theorem Dedicated.subscribe (dedicated : Dedicated runId threadId queue m) (run thread : Uuid) :
    Dedicated runId threadId queue (Runs.subscribe m run thread).2 := by
  obtain ⟨controls, count, runs, _⟩ := subscribe_spec m run thread
  have made := dedicated.made
  constructor
  case made => omega
  case once => simpa only [controlQueuesOf, controls] using dedicated.once
  case unsubscribed =>
    intro t r member
    rw [runs] at member
    split at member
    · rcases List.mem_append.mp member with old | new
      · exact dedicated.unsubscribed t r old
      · have same := List.mem_singleton.mp new
        omega
    · exact dedicated.unsubscribed t r member
  case alone => simpa only [controls] using dedicated.alone

/-- A subscriber takes what the control queue of its run holds, and nothing else. -/
theorem subscribe_arriving (dedicated : Dedicated runId threadId queue d.streams) (run thread : Uuid)
    (unread : run = runId → thread = threadId → d.streams.contents queue = []) :
    ({ d with streams := (Runs.subscribe d.streams run thread).2 } : Deliveries).arriving queue = d.arriving queue := by
  obtain ⟨_, _, _, contents⟩ := subscribe_spec d.streams run thread
  have same : (Runs.subscribe d.streams run thread).2.contents queue = d.streams.contents queue := by
    rw [contents queue (Nat.ne_of_lt dedicated.made)]
    split
    · rename_i listed
      obtain ⟨ownThread, ownRun⟩ := dedicated.alone (some thread) (some run) listed
      exact (unread (Option.some.inj ownRun) (Option.some.inj ownThread)).symm
    · rfl
  simp only [Deliveries.arriving, same]

end Lists

end Runs

end InmemRuntime
