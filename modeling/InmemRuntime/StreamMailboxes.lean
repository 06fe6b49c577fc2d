import InmemRuntime.StreamBoard

namespace InmemRuntime

namespace ThreadDeliveries

/-- The queues that are listed, with what each has received beside what has been read of it. -/
def board (d : ThreadDeliveries) (read : Nat → List Message) : Board QueueKey Message where
  listed := d.listed
  count := d.streams.queueCount
  received := fun queue => read queue ++ d.arriving queue

section Board

variable {d d' : ThreadDeliveries} {read : Nat → List Message}

theorem board_eq {b : Board QueueKey Message} (listed : ∀ key, d.listed key = b.listed key)
    (count : d.streams.queueCount = b.count) (received : ∀ queue, read queue ++ d.arriving queue = b.received queue) :
    d.board read = b :=
  Board.ext (funext listed) count (funext received)

/-- The queues that the tasks of a `put` are for. -/
theorem tasks_arriving (tasks : List Nat) (message : Message) (queue : Nat)
    (underway : d'.underway = d.underway ++ tasks.map (fun queue => (queue, message)))
    (contents : d'.streams.contents = d.streams.contents) :
    d'.arriving queue = d.arriving queue ++ List.replicate (tasks.count queue) message := by
  rw [Deliveries.arriving, Deliveries.arriving, underway, contents, List.filter_append, List.map_append,
    Deliveries.tasks_for, List.append_assoc]

theorem put_board (d : ThreadDeliveries) (read : Nat → List Message) (runId threadId : Option Uuid) (message : Message)
    (resumable : Bool) (now : Time) :
    ({ d with toDeliveries := d.publish runId threadId message resumable now } : ThreadDeliveries).board read =
      (d.board read).send
        (if PyVal.isSubstring "control" message.topic then .control threadId runId else .run threadId runId)
        (message.stamp now) := by
  by_cases control : PyVal.isSubstring "control" message.topic = true
  · refine board_eq (fun key => ?_) ?_ (fun queue => ?_)
    · rw [Board.send]
      cases key with
      | control thread run =>
        simp only [listed, Deliveries.publish, StreamManager.record, control, if_true]
        exact d.streams.controlQueues.touch_listed threadId runId thread run
      | run | thread => simp only [listed, Deliveries.publish, StreamManager.record, control, if_true, board]
    · simp only [Deliveries.publish, StreamManager.record, control, if_true, board, Board.send]
    · rw [tasks_arriving (d := d) (d.listed (.control threadId runId)) (message.stamp now) queue, ← List.append_assoc]
      · simp only [Board.send, board, control, if_true]
      · simp only [Deliveries.publish, StreamManager.record, control, if_true, listed, Message.stamp]
      · simp only [Deliveries.publish, StreamManager.record, control, if_true]
  · have stream : PyVal.isSubstring "control" message.topic = false := Bool.of_not_eq_true control
    refine board_eq (fun key => ?_) ?_ (fun queue => ?_)
    · rw [Board.send]
      cases key with
      | run thread run =>
        simp only [listed, Deliveries.publish, StreamManager.record, stream, Bool.false_eq_true, if_false]
        exact d.streams.queues.touch_listed threadId runId thread run
      | control | thread =>
        simp only [listed, Deliveries.publish, StreamManager.record, stream, Bool.false_eq_true, if_false, board]
    · simp only [Deliveries.publish, StreamManager.record, stream, Bool.false_eq_true, if_false, board, Board.send]
    · rw [tasks_arriving (d := d) (d.listed (.run threadId runId)) (message.stamp now) queue, ← List.append_assoc]
      · simp only [Board.send, board, stream, Bool.false_eq_true, if_false]
      · simp only [Deliveries.publish, StreamManager.record, stream, Bool.false_eq_true, if_false, listed, Message.stamp]
      · simp only [Deliveries.publish, StreamManager.record, stream, Bool.false_eq_true, if_false]

theorem threadStreams_listed (threadStreams : Dict Uuid (List Nat)) (threadId other : Uuid) (queues : List Nat) :
    ((threadStreams.set threadId queues).get? other).getD [] =
      if other = threadId then queues else (threadStreams.get? other).getD [] := by
  by_cases here : other = threadId
  · rw [if_pos here, here, Dict.get?_set_self]
    rfl
  · rw [if_neg here, Dict.get?_set_of_ne _ _ here]

theorem putThread_board {threadId : Uuid} {message : Message} (streams : d'.streams = d.streams)
    (touched : d'.threadStreams = d.threadStreams.set threadId (d.listed (.thread threadId)))
    (underway : d'.underway = d.underway ++ (d.listed (.thread threadId)).map (fun queue => (queue, message))) :
    d'.board read = (d.board read).send (.thread threadId) message := by
  refine board_eq (fun key => ?_) (by rw [streams]; rfl) (fun queue => ?_)
  · cases key with
    | run | control => simp only [listed, streams, Board.send, board]
    | thread other =>
      show (d'.threadStreams.get? other).getD [] = (d.threadStreams.get? other).getD []
      rw [touched, threadStreams_listed]
      split
      · rename_i here
        rw [here]
        rfl
      · rfl
  · rw [tasks_arriving _ message queue underway (by rw [streams]), ← List.append_assoc]
    rfl

/-- A new queue, to which nothing is on its way. -/
theorem added_board {key : QueueKey} (fresh : d.arriving d.streams.queueCount = [])
    (listed : ∀ k, d'.listed k = if k = key then d.listed k ++ [d.streams.queueCount] else d.listed k)
    (count : d'.streams.queueCount = d.streams.queueCount + 1)
    (contents : ∀ i, d'.streams.contents i = if i = d.streams.queueCount then [] else d.streams.contents i)
    (underway : d'.underway = d.underway) : d'.board read = (d.board read).add key := by
  refine board_eq listed count (fun queue => ?_)
  show read queue ++ d'.arriving queue = read queue ++ d.arriving queue
  rw [Deliveries.arriving, Deliveries.arriving, underway, contents]
  split
  · rename_i new
    rw [new, (List.append_eq_nil_iff.mp fresh).1]
  · rfl

theorem addQueue_listed (d : ThreadDeliveries) (runId threadId : Option Uuid) (k : QueueKey) :
    (d.withStreams (d.streams.addQueue runId threadId).2).listed k =
      if k = .run threadId runId then d.listed k ++ [d.streams.queueCount] else d.listed k := by
  cases k with
  | control | thread => rfl
  | run thread run =>
    simp only [QueueKey.run.injEq]
    exact d.streams.queues.append_listed threadId runId thread run _

theorem addQueue_board (fresh : d.arriving d.streams.queueCount = []) (runId threadId : Option Uuid) :
    (d.withStreams (d.streams.addQueue runId threadId).2).board read = (d.board read).add (.run threadId runId) := by
  exact added_board fresh (d.addQueue_listed runId threadId) rfl (fun i => rfl) rfl

theorem addControlQueue_board (fresh : d.arriving d.streams.queueCount = []) (runId threadId : Option Uuid) :
    (d.withStreams (d.streams.addControlQueue runId threadId).2).board read =
      (d.board read).add (.control threadId runId) := by
  refine added_board fresh (fun k => ?_) rfl (fun i => rfl) rfl
  cases k with
  | run | thread => rfl
  | control thread run =>
    simp only [QueueKey.control.injEq]
    exact d.streams.controlQueues.append_listed threadId runId thread run _

theorem addThreadStream_listed {threadId : Uuid} (queues : d'.streams.queues = d.streams.queues)
    (controlQueues : d'.streams.controlQueues = d.streams.controlQueues)
    (added : d'.threadStreams = d.threadStreams.set threadId (d.listed (.thread threadId) ++ [d.streams.queueCount]))
    (k : QueueKey) :
    d'.listed k = if k = .thread threadId then d.listed k ++ [d.streams.queueCount] else d.listed k := by
  cases k with
  | run | control => simp only [listed, queues, controlQueues, reduceCtorEq, if_false]
  | thread other =>
    simp only [listed, added, threadStreams_listed, QueueKey.thread.injEq]
    split
    · rename_i here
      rw [here]
    · rfl

theorem addThreadStream_board (fresh : d.arriving d.streams.queueCount = []) {threadId : Uuid}
    (added : d'.threadStreams = d.threadStreams.set threadId (d.listed (.thread threadId) ++ [d.streams.queueCount]))
    (streams : d'.streams = { d.streams with
      contents := fun i => if i = d.streams.queueCount then [] else d.streams.contents i
      queueCount := d.streams.queueCount + 1 }) (underway : d'.underway = d.underway) :
    d'.board read = (d.board read).add (.thread threadId) := by
  have listed := addThreadStream_listed (by rw [streams]) (by rw [streams]) added
  exact added_board fresh listed (by rw [streams]) (fun i => by rw [streams]) underway

/-- The state after a removal, also where that raises. -/
def removed (d : ThreadDeliveries) (outcome : Except PyError StreamManager) : ThreadDeliveries :=
  match outcome with
  | .error _ => d
  | .ok streams => d.withStreams streams

theorem removeQueue_board (d : ThreadDeliveries) (read : Nat → List Message) (runId threadId : Option Uuid) (queue : Nat) :
    (d.removed (d.streams.removeQueue runId threadId queue)).board read = (d.board read).remove (.run threadId runId) queue := by
  have removal := d.streams.queues.removeQueue_listed threadId runId queue
  unfold StreamManager.removeQueue
  cases outcome : d.streams.queues.removeQueue threadId runId queue with
  | error e =>
    rw [outcome] at removal
    have absent : queue ∉ (d.board read).listed (.run threadId runId) := removal
    exact (Board.remove_of_not_mem absent).symm
  | ok queues =>
    rw [outcome] at removal
    refine board_eq (fun key => ?_) rfl (fun _ => rfl)
    cases key with
    | control | thread => rfl
    | run thread run =>
      simp only [Board.remove, QueueKey.run.injEq]
      exact removal thread run

theorem removeControlQueue_board (d : ThreadDeliveries) (read : Nat → List Message) (runId threadId : Option Uuid)
    (queue : Nat) :
    (d.removed (d.streams.removeControlQueue runId threadId queue)).board read =
      (d.board read).remove (.control threadId runId) queue := by
  have removal := d.streams.controlQueues.removeQueue_listed threadId runId queue
  unfold StreamManager.removeControlQueue
  cases outcome : d.streams.controlQueues.removeQueue threadId runId queue with
  | error e =>
    rw [outcome] at removal
    have absent : queue ∉ (d.board read).listed (.control threadId runId) := removal
    exact (Board.remove_of_not_mem absent).symm
  | ok queues =>
    rw [outcome] at removal
    refine board_eq (fun key => ?_) rfl (fun _ => rfl)
    cases key with
    | run | thread => rfl
    | control thread run =>
      simp only [Board.remove, QueueKey.control.injEq]
      exact removal thread run

end Board

end ThreadDeliveries

/-- The streams, what has happened to them, and what has been read of each queue. -/
structure Recorded extends ThreadDeliveries where
  history : List StreamEvent
  read : Nat → List Message

/-- What `start_stream` makes. -/
def Recorded.first : Recorded := ⟨⟨⟨.empty, []⟩, .empty⟩, [], fun _ => []⟩

/-- What the store of a run keeps of an event. -/
def resumableOf (threadId runId : Option Uuid) : StreamEvent → Option Message
  | .sent key sent =>
    if sent.resumable ∧ (key = .run threadId runId ∨ key = .control threadId runId) then some sent.message else none
  | _ => none

section Runs

variable (uuid : String → Except PyError Uuid)

def Recorded.after (s : Recorded) (op : StreamOp) : Recorded where
  toThreadDeliveries := op.after uuid s.toThreadDeliveries
  history := s.history ++ (op.event uuid s.toThreadDeliveries).toList
  read := fun queue => s.read queue ++ op.reads s.toThreadDeliveries queue

theorem deliver_board (s : Recorded) :
    (StreamOp.deliver.after uuid s.toThreadDeliveries).board s.read = s.board s.read := by
  refine ThreadDeliveries.board_eq (fun key => ?_) ?_ (fun queue => ?_)
  · show (ThreadDeliveries.listed { s.toThreadDeliveries with toDeliveries := s.deliverNext }) key = s.listed key
    unfold Deliveries.deliverNext
    split <;> rfl
  · show s.deliverNext.streams.queueCount = s.streams.queueCount
    unfold Deliveries.deliverNext
    split <;> rfl
  · exact congrArg (s.read queue ++ ·) (Deliveries.deliverNext_arriving s.toDeliveries queue)

variable {uuid} {s : Recorded}

/-- A message that is read has been received before. -/
theorem get_board (s : Recorded) (queue : Nat) :
    (s.after uuid (.get queue)).board (s.after uuid (.get queue)).read = s.board s.read := by
  have ran : (s.after uuid (.get queue)).toThreadDeliveries =
      ((s.take? queue).map Prod.snd).elim s.toThreadDeliveries
        (fun deliveries => { s.toThreadDeliveries with toDeliveries := deliveries }) := by
    show StreamOp.after uuid s.toThreadDeliveries (.get queue) = _
    dsimp only [StreamOp.after, StreamOp.run]
    cases s.take? queue <;> rfl
  have reads : ∀ other, (s.after uuid (.get queue)).read other =
      s.read other ++ if queue = other then ((s.take? queue).map Prod.fst).toList else [] := fun _ => rfl
  cases taken : s.take? queue with
  | none =>
    rw [taken] at ran reads
    refine ThreadDeliveries.board_eq (fun key => by rw [ran]; rfl) (by rw [ran]; rfl) (fun other => ?_)
    rw [ran, reads]
    show (s.read other ++ if queue = other then [] else []) ++ s.arriving other = s.read other ++ s.arriving other
    rw [ite_self, List.append_nil]
  | some found =>
    obtain ⟨message, deliveries⟩ := found
    rw [taken] at ran reads
    obtain ⟨here, elsewhere, _⟩ := Deliveries.take?_arriving s.toDeliveries queue taken
    obtain ⟨contents, frame⟩ := Deliveries.take?_frame s.toDeliveries queue taken
    refine ThreadDeliveries.board_eq (fun key => ?_) ?_ (fun other => ?_)
    · rw [ran]
      show (ThreadDeliveries.listed { s.toThreadDeliveries with toDeliveries := deliveries }) key = s.listed key
      cases key <;> simp only [ThreadDeliveries.listed, frame]
    · rw [ran]
      show deliveries.streams.queueCount = s.streams.queueCount
      rw [frame]
    · rw [ran, reads]
      show (s.read other ++ if queue = other then [message] else []) ++ deliveries.arriving other = s.read other ++ s.arriving other
      by_cases same : queue = other
      · rw [if_pos same, ← same, here, List.append_assoc]
        rfl
      · rw [if_neg same, elsewhere other (Ne.symm same), List.append_nil]

/-- A call does to the board what its event says. -/
theorem after_board (s : Recorded) (op : StreamOp) (fresh : s.arriving s.streams.queueCount = []) :
    (s.after uuid op).board (s.after uuid op).read =
      match op.event uuid s.toThreadDeliveries with
      | none => s.board s.read
      | some event => (s.board s.read).after SentMessage.message event := by
  by_cases isGet : ∃ queue, op = .get queue
  · obtain ⟨queue, rfl⟩ := isGet
    exact get_board s queue
  have unread : (s.after uuid op).read = s.read := by
    funext queue
    cases op with
    | get queue => exact absurd ⟨queue, rfl⟩ isGet
    | _ => exact List.append_nil _
  rw [unread]
  show ThreadDeliveries.board (op.after uuid s.toThreadDeliveries) s.read = _
  unfold StreamOp.after StreamOp.run StreamOp.event
  cases op with
  | get queue => exact absurd ⟨queue, rfl⟩ isGet
  | deliver => exact deliver_board uuid s
  | put runId threadId message resumable now =>
    dsimp only [ThreadDeliveries.put]
    cases ThreadDeliveries.runKey uuid runId threadId with
    | error e => rfl
    | ok key => exact ThreadDeliveries.put_board _ _ _ _ _ _ _
  | putThread threadId message now =>
    dsimp only [ThreadDeliveries.putThread]
    cases ThreadDeliveries.ensureUuid uuid threadId with
    | error e => rfl
    | ok key => exact ThreadDeliveries.putThread_board rfl rfl rfl
  | addQueue runId threadId =>
    dsimp only [ThreadDeliveries.addQueue]
    cases ThreadDeliveries.runKey uuid runId threadId with
    | error e => rfl
    | ok key => exact ThreadDeliveries.addQueue_board fresh _ _
  | addControlQueue runId threadId =>
    dsimp only [ThreadDeliveries.addControlQueue]
    cases ThreadDeliveries.runKey uuid runId threadId with
    | error e => rfl
    | ok key => exact ThreadDeliveries.addControlQueue_board fresh _ _
  | addThreadStream threadId =>
    dsimp only [ThreadDeliveries.addThreadStream]
    cases ThreadDeliveries.ensureUuid uuid threadId with
    | error e => rfl
    | ok key => exact ThreadDeliveries.addThreadStream_board fresh rfl rfl rfl
  | removeQueue runId threadId queue =>
    dsimp only [ThreadDeliveries.removeQueue]
    cases ThreadDeliveries.runKey uuid runId threadId with
    | error e => rfl
    | ok key =>
      refine Eq.trans ?_ (ThreadDeliveries.removeQueue_board s.toThreadDeliveries s.read key.2 key.1 queue)
      obtain ⟨thread, run⟩ := key
      rw [ok_bind]
      dsimp only
      cases s.streams.removeQueue run thread queue <;> rfl
  | removeControlQueue runId threadId queue =>
    dsimp only [ThreadDeliveries.removeControlQueue]
    cases ThreadDeliveries.runKey uuid runId threadId with
    | error e => rfl
    | ok key =>
      refine Eq.trans ?_ (ThreadDeliveries.removeControlQueue_board s.toThreadDeliveries s.read key.2 key.1 queue)
      obtain ⟨thread, run⟩ := key
      rw [ok_bind]
      dsimp only
      cases s.streams.removeControlQueue run thread queue <;> rfl

theorem event_added {op : StreamOp} {d : ThreadDeliveries} {key : QueueKey} {queue : Nat}
    (adds : op.event uuid d = some (.added key queue)) : queue = d.streams.queueCount := by
  cases op with
  | deliver | get => cases adds
  | put | putThread | removeQueue | removeControlQueue =>
    obtain ⟨_, _, other⟩ := Option.map_eq_some_iff.mp adds
    cases other
  | addQueue | addControlQueue | addThreadStream =>
    obtain ⟨_, _, same⟩ := Option.map_eq_some_iff.mp adds
    cases same
    rfl

theorem record_stored (m : StreamManager) (runId threadId : Option Uuid) (message : Message) (resumable : Bool)
    (now : Time) (runId' threadId' : Option Uuid) :
    (m.record runId threadId message resumable now).1.stored runId' threadId' =
      m.stored runId' threadId' ++
        if resumable ∧ threadId' = threadId ∧ runId' = runId then [message.stamp now] else [] := by
  have stores : (m.record runId threadId message resumable now).1.messageStores =
      if resumable then
        m.messageStores.set threadId runId ((m.messageStores.get? threadId runId).getD [] ++ [message.stamp now])
      else m.messageStores := by
    unfold StreamManager.record
    dsimp only
    split <;> rfl
  rw [StreamManager.stored, StreamManager.stored, stores]
  cases resumable with
  | false => simp
  | true =>
    simp only [if_true, true_and]
    rw [Nested.append_listed]
    split
    · rfl
    · rw [List.append_nil]

theorem resumableOf_put (control : Bool) (threadId runId threadId' runId' : Option Uuid) (sent : SentMessage) :
    [Board.Event.sent (if control then QueueKey.control threadId runId else .run threadId runId) sent].filterMap
        (resumableOf threadId' runId') =
      if sent.resumable ∧ threadId' = threadId ∧ runId' = runId then [sent.message] else [] := by
  have keys : ((if control then QueueKey.control threadId runId else .run threadId runId) = .run threadId' runId' ∨
      (if control then QueueKey.control threadId runId else .run threadId runId) = .control threadId' runId') ↔
        threadId' = threadId ∧ runId' = runId := by
    cases control <;> simp [eq_comm]
  simp only [List.filterMap_cons, List.filterMap_nil, resumableOf, keys]
  split
  · rename_i none
    split at none
    · cases none
    · rename_i other
      rw [if_neg other]
  · rename_i some'
    split at some'
    · rename_i same
      cases some'
      rw [if_pos same]
    · cases some'

/-- A call adds to the stores what its event says. -/
theorem after_stored (s : Recorded) (op : StreamOp) (runId threadId : Option Uuid) :
    (s.after uuid op).streams.stored runId threadId = s.streams.stored runId threadId ++
      (op.event uuid s.toThreadDeliveries).toList.filterMap (resumableOf threadId runId) := by
  show (StreamOp.after uuid s.toThreadDeliveries op).streams.stored runId threadId = _
  unfold StreamOp.after StreamOp.run StreamOp.event
  cases op with
  | deliver =>
    show s.deliverNext.streams.stored runId threadId = _
    unfold Deliveries.deliverNext
    split <;> exact (List.append_nil _).symm
  | get queue =>
    dsimp only
    cases taken : s.take? queue with
    | none => exact (List.append_nil _).symm
    | some found =>
      obtain ⟨contents, frame⟩ := Deliveries.take?_frame s.toDeliveries queue taken
      show found.2.streams.stored runId threadId = _
      rw [frame]
      exact (List.append_nil _).symm
  | put runId' threadId' message resumable now =>
    dsimp only [ThreadDeliveries.put]
    cases ThreadDeliveries.runKey uuid runId' threadId' with
    | error e => exact (List.append_nil _).symm
    | ok key =>
      obtain ⟨thread, run⟩ := key
      refine (record_stored s.streams run thread message resumable now runId threadId).trans ?_
      exact congrArg (s.streams.stored runId threadId ++ ·)
        (resumableOf_put (PyVal.isSubstring "control" message.topic) thread run threadId runId ⟨message.stamp now, resumable⟩).symm
  | putThread threadId' message now =>
    dsimp only [ThreadDeliveries.putThread]
    cases ThreadDeliveries.ensureUuid uuid threadId' <;> exact (List.append_nil _).symm
  | addThreadStream threadId' =>
    dsimp only [ThreadDeliveries.addThreadStream]
    cases ThreadDeliveries.ensureUuid uuid threadId' <;> exact (List.append_nil _).symm
  | addQueue runId' threadId' =>
    dsimp only [ThreadDeliveries.addQueue]
    cases ThreadDeliveries.runKey uuid runId' threadId' <;> exact (List.append_nil _).symm
  | addControlQueue runId' threadId' =>
    dsimp only [ThreadDeliveries.addControlQueue]
    cases ThreadDeliveries.runKey uuid runId' threadId' <;> exact (List.append_nil _).symm
  | removeQueue runId' threadId' queue =>
    dsimp only [ThreadDeliveries.removeQueue, StreamManager.removeQueue]
    cases ThreadDeliveries.runKey uuid runId' threadId' with
    | error e => exact (List.append_nil _).symm
    | ok key =>
      rw [ok_bind]
      cases s.streams.queues.removeQueue key.1 key.2 queue <;> exact (List.append_nil _).symm
  | removeControlQueue runId' threadId' queue =>
    dsimp only [ThreadDeliveries.removeControlQueue, StreamManager.removeControlQueue]
    cases ThreadDeliveries.runKey uuid runId' threadId' with
    | error e => exact (List.append_nil _).symm
    | ok key =>
      rw [ok_bind]
      cases s.streams.controlQueues.removeQueue key.1 key.2 queue <;> exact (List.append_nil _).symm

/-- With all tasks run, each queue holds what was on its way to it. -/
theorem Deliveries.deliverNext_all (d : Deliveries) :
    (Deliveries.deliverNext^[d.underway.length] d).underway = [] ∧
      ∀ queue, (Deliveries.deliverNext^[d.underway.length] d).streams.contents queue = d.arriving queue := by
  obtain ⟨streams, underway⟩ := d
  induction underway generalizing streams with
  | nil => exact ⟨rfl, fun queue => (List.append_nil _).symm⟩
  | cons task rest ih =>
    obtain ⟨none, contents⟩ := ih (streams.deliverTo task.1 task.2)
    refine ⟨none, fun queue => (contents queue).trans ?_⟩
    exact Deliveries.deliverNext_arriving ⟨streams, task :: rest⟩ queue

theorem first_listed (key : QueueKey) : (Recorded.first.board Recorded.first.read).listed key = [] := by
  cases key <;> rfl

theorem first_agrees : (Recorded.first.board Recorded.first.read).WellFormed ∧
    Board.Agrees SentMessage.message (Recorded.first.board Recorded.first.read) Recorded.first.history := by
  refine ⟨⟨fun key queue member => ?_, fun key => ?_, fun _ _ => rfl⟩, ⟨fun queue key => ?_, fun _ => rfl⟩⟩
  · rw [first_listed] at member
    cases member
  · rw [first_listed]
    exact List.nodup_nil
  · rw [first_listed]
    exact iff_of_false List.not_mem_nil (fun home => nomatch home)

theorem recorded_agrees (reach : Serial (Recorded.after uuid) (fun _ _ => True) Recorded.first s) :
    (s.board s.read).WellFormed ∧ Board.Agrees SentMessage.message (s.board s.read) s.history := by
  refine reach.invariant (P := fun s => (s.board s.read).WellFormed ∧
    Board.Agrees SentMessage.message (s.board s.read) s.history) first_agrees (fun {s op} holds _ => ?_)
  obtain ⟨well, agrees⟩ := holds
  have fresh : s.arriving s.streams.queueCount = [] :=
    (List.append_eq_nil_iff.mp (well.fresh s.streams.queueCount (Nat.le_refl _))).2
  rw [after_board s op fresh]
  cases happens : op.event uuid s.toThreadDeliveries with
  | none =>
    have history : (s.after uuid op).history = s.history := by
      show s.history ++ _ = _
      rw [happens]
      exact List.append_nil _
    rw [history]
    exact ⟨well, agrees⟩
  | some event =>
    have history : (s.after uuid op).history = s.history ++ [event] := by
      show s.history ++ _ = _
      rw [happens]
      rfl
    rw [history]
    exact ⟨well.after _ event, agrees.after well event (fun key queue adds => event_added (adds ▸ happens))⟩

theorem recorded_stores (reach : Serial (Recorded.after uuid) (fun _ _ => True) Recorded.first s)
    (runId threadId : Option Uuid) : s.streams.stored runId threadId = s.history.filterMap (resumableOf threadId runId) := by
  induction reach with
  | start => rfl
  | @next s op _ _ ih =>
    rw [after_stored, ih]
    exact List.filterMap_append.symm

/-- What has been read of a queue, what it holds and what is on its way to it
are the messages that were put under its key while it was registered there, in
the order of the puts; with all tasks run the queue has them all. The store of a
run has its resumable messages in that order. -/
theorem queues_receive_in_order (reach : Serial (Recorded.after uuid) (fun _ _ => True) Recorded.first s) :
    (∀ queue, s.read queue ++ s.arriving queue = (Board.mailbox s.history queue).messages.map SentMessage.message) ∧
      ((Deliveries.deliverNext^[s.underway.length] s.toDeliveries).underway = [] ∧
        ∀ queue, s.read queue ++ (Deliveries.deliverNext^[s.underway.length] s.toDeliveries).streams.contents queue =
          (Board.mailbox s.history queue).messages.map SentMessage.message) ∧
      ∀ runId threadId, s.streams.stored runId threadId = s.history.filterMap (resumableOf threadId runId) := by
  obtain ⟨_, agrees⟩ := recorded_agrees reach
  obtain ⟨none, contents⟩ := Deliveries.deliverNext_all s.toDeliveries
  refine ⟨agrees.received, ⟨none, fun queue => ?_⟩, fun runId threadId => recorded_stores reach runId threadId⟩
  rw [contents]
  exact agrees.received queue

end Runs

section OneSubscriber

/-- A message comes before the queue, two while it is there, and one after it. -/
def aroundSubscriber : List StreamOp :=
  [.put (some (.uuid ⟨1⟩)) none ⟨"run:1:stream", "before", none⟩ true 0, .addQueue (some (.uuid ⟨1⟩)) none,
    .put (some (.uuid ⟨1⟩)) none ⟨"run:1:stream", "first", none⟩ true 1, .deliver, .get 0,
    .put (some (.uuid ⟨1⟩)) none ⟨"run:1:stream", "second", none⟩ false 2, .removeQueue (some (.uuid ⟨1⟩)) none 0,
    .put (some (.uuid ⟨1⟩)) none ⟨"run:1:stream", "after", none⟩ true 3]

def noUuid (_ : String) : Except PyError Uuid := .error (.valueError "badly formed hexadecimal UUID string")

theorem queues_receive_in_order_subscriber :
    ∃ s : Recorded, (s.read 0 ++ s.arriving 0).map Message.data = ["first", "second"] ∧
      (s.streams.stored (some ⟨1⟩) none).map Message.data = ["before", "first", "after"] ∧
      s.read 0 ++ s.arriving 0 = (Board.mailbox s.history 0).messages.map SentMessage.message := by
  have begun : Serial (Recorded.after noUuid) (fun _ _ => True) Recorded.first Recorded.first := .start
  exact ⟨aroundSubscriber.foldl (Recorded.after noUuid) Recorded.first, by decide +kernel, by decide +kernel,
    (queues_receive_in_order (begun.foldl aroundSubscriber)).1 0⟩

end OneSubscriber

end InmemRuntime
