import InmemRuntime.ControlSubscribers
import InmemRuntime.StreamMailboxes

namespace InmemRuntime

namespace Runs

section Exit

variable (encode : String → String → String) (runId : Uuid) (threadId : Option Uuid) (resumable : Bool)

/-- The stream queues that are registered for the run. -/
def streamQueuesOf (m : StreamManager) : List Nat := (m.queues.get? threadId (some runId)).getD []

/-- What happens while the exit waits: the tasks of its put run, and readers
take messages (`read`). Other calls may change what they like, but what is
registered and stored for the run they leave. -/
structure Meanwhile (d : Deliveries) (read : Nat → List Message) (d' : Deliveries) : Prop where
  controls : controlQueuesOf runId threadId d'.streams = controlQueuesOf runId threadId d.streams
  queues : streamQueuesOf runId threadId d'.streams = streamQueuesOf runId threadId d.streams
  key : d'.streams.getControlKey (some runId) threadId = d.streams.getControlKey (some runId) threadId
  stored : d.streams.stored (some runId) threadId ⊆ d'.streams.stored (some runId) threadId
  arrived : ∀ task ∈ d.underway, task.2 ∈ read task.1 ++ d'.streams.contents task.1

/-- `Runs.enter` from one of its waits to the end of the context manager: the
replies that its waits end with, and what has been read of each queue meanwhile. -/
inductive Leaves : EnterState → EnterCall → List Reply → (Nat → List Message) → EnterState → Prop
  | ends {s k reply s' outcome} (turn : EnterCall.resume encode runId threadId resumable s k reply = (s', .finished outcome)) :
      Leaves s k [reply] (fun _ => []) s'
  | waits {s k reply between k' d read replies later s'}
      (turn : EnterCall.resume encode runId threadId resumable s k reply = (between, .suspended k'))
      (meanwhile : Meanwhile runId threadId between.deliveries read d)
      (rest : Leaves { between with deliveries := d } k' replies later s') :
      Leaves s k (reply :: replies) (fun queue => read queue ++ later queue) s'

/-- Subscribers that come late find the `done` of the control key, those that
are there have got the `done` of the stream, and a resumable run keeps it. -/
structure Told (read : Nat → List Message) (d : Deliveries) : Prop where
  signalled : ∃ message, d.streams.getControlKey (some runId) threadId = some message ∧ message.data = "done"
  finished : ∃ now, (∀ subscriber ∈ streamQueuesOf runId threadId d.streams,
      (streamDone encode runId).stamp now ∈ read subscriber ++ d.streams.contents subscriber) ∧
    (resumable = true → (streamDone encode runId).stamp now ∈ d.streams.stored (some runId) threadId)

/-- What the exit is for. -/
structure CleanedUp (queue : Nat) (read : Nat → List Message) (d : Deliveries) : Prop extends
    Told encode runId threadId resumable read d where
  unregistered : queue ∉ controlQueuesOf runId threadId d.streams

end Exit

section Turns

variable {encode : String → String → String} {runId : Uuid} {threadId : Option Uuid} {resumable : Bool}
  {s s' : EnterState} {queue : Nat} {d : Deliveries} {read : Nat → List Message} {replies : List Reply}

/-- The put of the stream message records it, and a task for each subscriber. -/
theorem publish_streamDone (d : Deliveries) (now : Time) :
    (d.publish (some runId) threadId (streamDone encode runId) resumable now) =
      ⟨{ d.streams with
          messageStores :=
            if resumable then
              d.streams.messageStores.set threadId (some runId)
                (d.streams.stored (some runId) threadId ++ [(streamDone encode runId).stamp now])
            else d.streams.messageStores
          queues := d.streams.queues.touch threadId (some runId) },
        d.underway ++ (streamQueuesOf runId threadId d.streams).map
          (fun subscriber => (subscriber, (streamDone encode runId).stamp now))⟩ := by
  have topic : PyVal.isSubstring "control" (streamDone encode runId).topic = false := streamTopic runId (encode "control" "done")
  rw [Deliveries.publish, StreamManager.record_of_stream _ _ _ _ _ topic]
  rfl

theorem streamDone_queues (d : Deliveries) (now : Time) :
    streamQueuesOf runId threadId (d.publish (some runId) threadId (streamDone encode runId) resumable now).streams =
      streamQueuesOf runId threadId d.streams := by
  rw [publish_streamDone]
  exact Nested.touch_listed _ _ _ _ _

theorem streamDone_stored (d : Deliveries) (now : Time) (kept : resumable = true) :
    (streamDone encode runId).stamp now ∈
      (d.publish (some runId) threadId (streamDone encode runId) resumable now).streams.stored (some runId) threadId := by
  rw [publish_streamDone, kept, StreamManager.stored]
  simp only [if_true, Nested.get?_set_self, Option.getD_some]
  exact List.mem_append_right _ List.mem_cons_self

/-- The points of `enter` behind its `yield`. -/
def EnterCall.isLeaving (queue : Nat) (k : EnterCall) : Prop := k = .entered queue ∨ k = .signalling queue ∨ k = .closing queue

/-- An exception leaves `enter` where it is raised. -/
theorem resume_raises {k : EnterCall} (leaving : k.isLeaving queue) {reply : Reply} {e : PyError}
    (answered : reply.answer = .error e) :
    EnterCall.resume encode runId threadId resumable s k reply = raised s.cancel e := by
  rcases leaving with rfl | rfl | rfl <;> simp only [EnterCall.resume, answered]

/-- After an exception the control queue is registered as before. -/
theorem not_cleanedUp_of_raised {k : EnterCall} (leaving : k.isLeaving queue)
    (registered : queue ∈ controlQueuesOf runId threadId s.deliveries.streams) {reply : Reply} {e : PyError}
    (answered : reply.answer = .error e) {later : Nat → List Message}
    (leaves : Leaves encode runId threadId resumable s k (reply :: replies) later s') :
    ¬ CleanedUp encode runId threadId resumable queue read s'.deliveries := by
  have raises : EnterCall.resume encode runId threadId resumable s k reply = raised s.cancel e :=
    resume_raises leaving answered
  cases leaves with
  | ends turn =>
    rw [raises] at turn
    cases turn
    exact fun cleaned => cleaned.unregistered registered
  | waits turn =>
    rw [raises] at turn
    cases turn

theorem Leaves.exists_reply {k : EnterCall} (leaves : Leaves encode runId threadId resumable s k replies read s') :
    ∃ reply rest, replies = reply :: rest := by
  cases leaves <;> exact ⟨_, _, rfl⟩

/-- An exception at the first of the waits decides. -/
theorem cleanedUp_iff_of_raised {k : EnterCall} (leaving : k.isLeaving queue)
    (registered : queue ∈ controlQueuesOf runId threadId s.deliveries.streams) {reply : Reply} {e : PyError}
    (answered : reply.answer = .error e) {later : Nat → List Message}
    (leaves : Leaves encode runId threadId resumable s k (reply :: replies) later s') :
    CleanedUp encode runId threadId resumable queue read s'.deliveries ↔
      ∀ reply' ∈ reply :: replies, reply'.answer.isOk = true := by
  refine iff_of_false (not_cleanedUp_of_raised leaving registered answered leaves) (fun all => ?_)
  have fine := all reply List.mem_cons_self
  rw [answered] at fine
  cases fine

/-- A queue that is listed once can be removed, and is gone then. -/
theorem removeControlQueue_once {m : StreamManager} (once : (controlQueuesOf runId threadId m).count queue = 1) :
    ∃ controlQueues, m.removeControlQueue (some runId) threadId queue = .ok { m with controlQueues := controlQueues } ∧
      queue ∉ controlQueuesOf runId threadId { m with controlQueues := controlQueues } := by
  have removal := Nested.removeQueue_listed m.controlQueues threadId (some runId) queue
  rw [StreamManager.removeControlQueue]
  cases removed : m.controlQueues.removeQueue threadId (some runId) queue with
  | error e =>
    rw [removed] at removal
    exact absurd (List.count_pos_iff.mp (once ▸ Nat.one_pos)) removal
  | ok controlQueues =>
    rw [removed] at removal
    refine ⟨controlQueues, rfl, ?_⟩
    have listed := removal threadId (some runId)
    rw [if_pos ⟨rfl, rfl⟩] at listed
    change queue ∉ (controlQueues.get? threadId (some runId)).getD []
    rw [listed, ← List.count_eq_zero, List.count_erase_self]
    exact Nat.sub_eq_zero_of_le (Nat.le_of_eq once)

/-- The last wait: the control queue is removed, unless the wait raises. -/
theorem closing_iff (once : (controlQueuesOf runId threadId s.deliveries.streams).count queue = 1)
    (told : Told encode runId threadId resumable read s.deliveries) {later : Nat → List Message}
    (leaves : Leaves encode runId threadId resumable s (.closing queue) replies later s') :
    CleanedUp encode runId threadId resumable queue (fun i => read i ++ later i) s'.deliveries ↔
      ∀ reply ∈ replies, reply.answer.isOk = true := by
  have listed := List.count_pos_iff.mp (once ▸ Nat.one_pos)
  obtain ⟨reply, rest, rfl⟩ := leaves.exists_reply
  cases answered : reply.answer with
  | error e => exact cleanedUp_iff_of_raised (.inr (.inr rfl)) listed answered leaves
  | ok value =>
    obtain ⟨controlQueues, removal, gone⟩ := removeControlQueue_once once
    have turned : EnterCall.resume encode runId threadId resumable s (.closing queue) reply =
        returned { s.cancel with
          deliveries := { s.deliveries with streams := { s.deliveries.streams with controlQueues := controlQueues } } } () := by
      simp only [EnterCall.resume, answered, removal]
    cases leaves with
    | ends turn =>
      rw [turned] at turn
      cases turn
      refine iff_of_true ⟨⟨told.signalled, ?_⟩, gone⟩ ?_
      · obtain ⟨now, received, kept⟩ := told.finished
        refine ⟨now, fun subscriber member => ?_, kept⟩
        rw [List.append_nil]
        exact received subscriber member
      · intro reply' member
        rw [List.mem_singleton.mp member, answered]
        rfl
    | waits turn =>
      rw [turned] at turn
      cases turn

/-- The wait after the control message: the stream message is put and arrives. -/
theorem signalling_iff (once : (controlQueuesOf runId threadId s.deliveries.streams).count queue = 1)
    (signalled : ∃ message, s.deliveries.streams.getControlKey (some runId) threadId = some message ∧
      message.data = "done") {later : Nat → List Message}
    (leaves : Leaves encode runId threadId resumable s (.signalling queue) replies later s') :
    CleanedUp encode runId threadId resumable queue (fun i => read i ++ later i) s'.deliveries ↔
      ∀ reply ∈ replies, reply.answer.isOk = true := by
  have listed := List.count_pos_iff.mp (once ▸ Nat.one_pos)
  obtain ⟨reply, rest, rfl⟩ := leaves.exists_reply
  cases answered : reply.answer with
  | error e => exact cleanedUp_iff_of_raised (.inr (.inl rfl)) listed answered leaves
  | ok value =>
    have turned : EnterCall.resume encode runId threadId resumable s (.signalling queue) reply =
        ({ s with
            deliveries := s.deliveries.publish (some runId) threadId (streamDone encode runId) resumable reply.now },
          .suspended (.closing queue)) := by
      simp only [EnterCall.resume, answered]
    cases leaves with
    | ends turn =>
      rw [turned] at turn
      cases (Prod.mk.inj turn).2
    | @waits _ _ _ between k' d read' _ later _ turn meanwhile rest =>
      rw [turned] at turn
      obtain ⟨rfl, stands⟩ := Prod.mk.inj turn
      cases stands
      have controls := meanwhile.controls
      have key := meanwhile.key
      have arrived := meanwhile.arrived
      have queues := meanwhile.queues.trans (streamDone_queues s.deliveries reply.now)
      rw [publish_streamDone] at controls key arrived
      have told : Told encode runId threadId resumable (fun i => read i ++ read' i) d := by
        refine ⟨key ▸ signalled, reply.now, fun subscriber member => ?_, fun kept => ?_⟩
        · rw [queues] at member
          have task := List.mem_append_right s.deliveries.underway
            (List.mem_map_of_mem (f := fun i => (i, (streamDone encode runId).stamp reply.now)) member)
          have came := arrived _ task
          rw [List.append_assoc]
          exact List.mem_append_right _ came
        · exact meanwhile.stored (streamDone_stored s.deliveries reply.now kept)
      have onceLater : (controlQueuesOf runId threadId d.streams).count queue = 1 := by
        rw [controls]
        exact once
      have ended := closing_iff onceLater told rest
      simp only [List.append_assoc] at ended
      rw [ended, List.forall_mem_cons, answered]
      exact (and_iff_right rfl).symm

/-- `Runs.enter` cleans up after its body exactly when neither the body nor a
wait of the clean-up raises. -/
theorem enter_cleans_iff (once : (controlQueuesOf runId threadId s.deliveries.streams).count queue = 1)
    (leaves : Leaves encode runId threadId resumable s (.entered queue) replies read s') :
    CleanedUp encode runId threadId resumable queue read s'.deliveries ↔
      ∀ reply ∈ replies, reply.answer.isOk = true := by
  have listed := List.count_pos_iff.mp (once ▸ Nat.one_pos)
  obtain ⟨reply, rest, rfl⟩ := leaves.exists_reply
  cases answered : reply.answer with
  | error e => exact cleanedUp_iff_of_raised (.inl rfl) listed answered leaves
  | ok value =>
    have turned : EnterCall.resume encode runId threadId resumable s (.entered queue) reply =
        (s.leave runId threadId reply.now, .suspended (.signalling queue)) := by
      simp only [EnterCall.resume, answered]
    cases leaves with
    | ends turn =>
      rw [turned] at turn
      cases (Prod.mk.inj turn).2
    | @waits _ _ _ between k' d read' _ later _ turn meanwhile rest =>
      rw [turned] at turn
      obtain ⟨rfl, stands⟩ := Prod.mk.inj turn
      cases stands
      have onceLater : (controlQueuesOf runId threadId d.streams).count queue = 1 := by
        rw [meanwhile.controls, ← once]
        exact congrArg (List.count queue) (putControl_queues s.deliveries runId threadId .done reply.now)
      obtain ⟨message, stored, carries⟩ := putControl_key s.deliveries runId threadId .done reply.now
      have signalled : ∃ message, d.streams.getControlKey (some runId) threadId = some message ∧ message.data = "done" :=
        ⟨message, meanwhile.key.trans stored, carries⟩
      rw [signalling_iff onceLater signalled rest, List.forall_mem_cons, answered]
      exact (and_iff_right rfl).symm

end Turns

section Settled

variable {encode : String → String → String} {runId : Uuid} {threadId : Option Uuid} {resumable : Bool}
  {s : EnterState} {queue : Nat}

theorem deliverNext_iterate_frame (n : Nat) (d : Deliveries) :
    ∃ contents, (Deliveries.deliverNext^[n] d).streams = { d.streams with contents := contents } := by
  induction n generalizing d with
  | zero => exact ⟨d.streams.contents, rfl⟩
  | succ n ih =>
    obtain ⟨contents, later⟩ := ih d.deliverNext
    refine ⟨contents, later.trans ?_⟩
    unfold Deliveries.deliverNext
    split <;> rfl

/-- With nobody else about, the event loop runs the tasks that there are. -/
theorem meanwhile_settled (d : Deliveries) :
    Meanwhile runId threadId d (fun _ => []) (Deliveries.deliverNext^[d.underway.length] d) := by
  obtain ⟨contents, frame⟩ := deliverNext_iterate_frame d.underway.length d
  have controls := congrArg StreamManager.controlQueues frame
  have queues := congrArg StreamManager.queues frame
  have keys := congrArg StreamManager.controlKeys frame
  have stores := congrArg StreamManager.messageStores frame
  refine ⟨?_, ?_, ?_, ?_, fun task member => ?_⟩
  · rw [controlQueuesOf, controls]
    rfl
  · rw [streamQueuesOf, queues]
    rfl
  · rw [StreamManager.getControlKey, keys]
    rfl
  · rw [StreamManager.stored, StreamManager.stored, stores]
    exact List.Subset.refl _
  · rw [List.nil_append, (Deliveries.deliverNext_all d).2, Deliveries.arriving]
    refine List.mem_append_right _ (List.mem_map.mpr ⟨task, List.mem_filter.mpr ⟨member, ?_⟩, rfl⟩)
    exact decide_eq_true rfl

theorem closing_leaves (once : (controlQueuesOf runId threadId s.deliveries.streams).count queue = 1) :
    ∃ read s', Leaves encode runId threadId resumable s (.closing queue) [plainReply] read s' := by
  obtain ⟨controlQueues, removal, _⟩ := removeControlQueue_once once
  have turn : EnterCall.resume encode runId threadId resumable s (.closing queue) plainReply =
      returned { s.cancel with
        deliveries := { s.deliveries with streams := { s.deliveries.streams with controlQueues := controlQueues } } } () := by
    simp only [EnterCall.resume, plainReply, removal]
  exact ⟨_, _, .ends turn⟩

theorem signalling_leaves (once : (controlQueuesOf runId threadId s.deliveries.streams).count queue = 1) :
    ∃ read s', Leaves encode runId threadId resumable s (.signalling queue) [plainReply, plainReply] read s' := by
  let put := s.deliveries.publish (some runId) threadId (streamDone encode runId) resumable plainReply.now
  have turn : EnterCall.resume encode runId threadId resumable s (.signalling queue) plainReply =
      ({ s with deliveries := put }, .suspended (.closing queue)) := rfl
  have meanwhile := @meanwhile_settled runId threadId put
  have onceLater : (controlQueuesOf runId threadId (Deliveries.deliverNext^[put.underway.length] put).streams).count queue =
      1 := by
    rw [meanwhile.controls, ← once]
    change List.count queue (controlQueuesOf runId threadId (s.deliveries.publish _ _ _ _ _).streams) = _
    rw [publish_streamDone]
    rfl
  obtain ⟨read, s', rest⟩ := closing_leaves (s := { s with deliveries := Deliveries.deliverNext^[put.underway.length] put })
    onceLater
  exact ⟨_, s', .waits turn meanwhile rest⟩

/-- However the body ends, `enter` comes to its end. -/
theorem exists_leaves (once : (controlQueuesOf runId threadId s.deliveries.streams).count queue = 1) (body : Reply) :
    ∃ rest read s', (∀ reply ∈ rest, reply.answer.isOk = true) ∧
      Leaves encode runId threadId resumable s (.entered queue) (body :: rest) read s' := by
  cases answered : body.answer with
  | error e =>
    have raises : EnterCall.resume encode runId threadId resumable s (.entered queue) body = raised s.cancel e :=
      resume_raises (.inl rfl) answered
    exact ⟨[], _, _, fun reply none => absurd none List.not_mem_nil, .ends raises⟩
  | ok value =>
    have turn : EnterCall.resume encode runId threadId resumable s (.entered queue) body =
        (s.leave runId threadId body.now, .suspended (.signalling queue)) := by
      simp only [EnterCall.resume, answered]
    let left := s.leave runId threadId body.now
    have meanwhile := @meanwhile_settled runId threadId left.deliveries
    have onceLater : (controlQueuesOf runId threadId
        (Deliveries.deliverNext^[left.deliveries.underway.length] left.deliveries).streams).count queue = 1 := by
      rw [meanwhile.controls, ← once]
      exact congrArg (List.count queue) (putControl_queues s.deliveries runId threadId .done body.now)
    obtain ⟨read, s', rest⟩ := signalling_leaves
      (s := { left with deliveries := Deliveries.deliverNext^[left.deliveries.underway.length] left.deliveries }) onceLater
    refine ⟨[plainReply, plainReply], _, s', fun reply member => ?_, .waits turn meanwhile rest⟩
    have same : reply = plainReply := by simpa using member
    rw [same]
    rfl

/-- A turn behind the `yield` leaves the registered stream queues alone. -/
theorem leaving_frame {k : EnterCall} (leaving : k.isLeaving queue) {reply : Reply} {out : EnterTurn}
    (turn : EnterCall.resume encode runId threadId resumable s k reply = out) :
    streamQueuesOf runId threadId out.1.deliveries.streams = streamQueuesOf runId threadId s.deliveries.streams ∧
      ∀ k', out.2 = .suspended k' → k'.isLeaving queue := by
  subst turn
  cases answered : reply.answer with
  | error e =>
    rw [resume_raises leaving answered]
    exact ⟨rfl, fun k' stands => by cases stands⟩
  | ok value =>
    rcases leaving with rfl | rfl | rfl <;> simp only [EnterCall.resume, answered]
    · refine ⟨?_, fun k' stands => ?_⟩
      · simp only [streamQueuesOf, EnterState.leave, Deliveries.publish, StreamManager.record, controlTopic, if_true]
      · cases stands
        exact .inr (.inl rfl)
    · refine ⟨streamDone_queues s.deliveries reply.now, fun k' stands => ?_⟩
      cases stands
      exact .inr (.inr rfl)
    · cases removed : s.deliveries.streams.removeControlQueue (some runId) threadId queue with
      | error e => exact ⟨rfl, fun k' stands => by cases stands⟩
      | ok streams =>
        obtain ⟨controlQueues, _, rest⟩ := bind_ok removed
        cases rest
        exact ⟨rfl, fun k' stands => by cases stands⟩

/-- The subscribers at the end are those that were there when the body ended. -/
theorem Leaves.subscribers {k : EnterCall} (leaving : k.isLeaving queue) {replies : List Reply}
    {read : Nat → List Message} {s' : EnterState} (leaves : Leaves encode runId threadId resumable s k replies read s') :
    streamQueuesOf runId threadId s'.deliveries.streams = streamQueuesOf runId threadId s.deliveries.streams := by
  induction leaves with
  | ends turn => exact (leaving_frame leaving turn).1
  | waits turn meanwhile _ ih =>
    obtain ⟨frame, next⟩ := leaving_frame leaving turn
    exact ((ih (next _ rfl)).trans meanwhile.queues).trans frame

end Settled

/-- A run that has been entered and has a subscriber. -/
def enteredRun : EnterState :=
  ⟨⟨((StreamManager.empty.addControlQueue (some ⟨0⟩) none).2.addQueue (some ⟨0⟩) none).2, []⟩, none, false,
    ⟨some 0, false, [], false⟩⟩

theorem enteredRun_once : (controlQueuesOf ⟨0⟩ none enteredRun.deliveries.streams).count 0 = 1 := rfl

/-- The subscriber has got the `done` at the end. -/
theorem enter_cleans_subscribed : ∃ read s', 1 ∈ streamQueuesOf ⟨0⟩ none s'.streams ∧
    (∃ message ∈ read 1 ++ s'.streams.contents 1, message.data = "controldone") ∧
      CleanedUp (fun event data => event ++ data) ⟨0⟩ none true 0 read s' := by
  obtain ⟨rest, read, s', fine, leaves⟩ :=
    @exists_leaves (fun event data => event ++ data) ⟨0⟩ none true enteredRun 0 enteredRun_once plainReply
  have cleaned := (enter_cleans_iff enteredRun_once leaves).mpr (List.forall_mem_cons.mpr ⟨rfl, fine⟩)
  have subscribed : 1 ∈ streamQueuesOf ⟨0⟩ none s'.deliveries.streams := by
    rw [leaves.subscribers (.inl rfl)]
    exact List.mem_singleton_self 1
  obtain ⟨now, received, _⟩ := cleaned.finished
  exact ⟨read, s'.deliveries, subscribed, ⟨_, received 1 subscribed, rfl⟩, cleaned⟩

/-- A cancelled body leaves the control queue behind. -/
theorem enter_leaves_queue :
    ¬ ∀ (encode : String → String → String) (runId : Uuid) (threadId : Option Uuid) (resumable : Bool)
      (s : EnterState) (queue : Nat) (body : Reply) (rest : List Reply) (read : Nat → List Message) (s' : EnterState),
      (controlQueuesOf runId threadId s.deliveries.streams).count queue = 1 →
        Leaves encode runId threadId resumable s (.entered queue) (body :: rest) read s' →
        (∀ reply ∈ rest, reply.answer.isOk = true) →
        CleanedUp encode runId threadId resumable queue read s'.deliveries := by
  intro cleans
  have leaves : Leaves (fun event data => event ++ data) ⟨0⟩ none true enteredRun (.entered 0)
      [⟨0, ⟨0⟩, .error (.foreign "CancelledError")⟩] (fun _ => []) enteredRun.cancel := .ends rfl
  have cleaned := cleans _ _ _ _ _ _ _ _ _ _ enteredRun_once leaves (fun reply none => absurd none List.not_mem_nil)
  exact cleaned.unregistered List.mem_cons_self

end Runs

end InmemRuntime
