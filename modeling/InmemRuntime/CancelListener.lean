import InmemRuntime.RunEnter

namespace InmemRuntime

namespace Runs

theorem not_signalled_nil : ¬ Signalled [] := by
  rintro ⟨earlier, action, later, split, _⟩
  simp at split

theorem not_signalled_append_done (sent : List ControlData) : ¬ Signalled (sent ++ [.done]) := by
  rintro ⟨earlier, action, later, split, since⟩
  rcases List.eq_nil_or_concat later with rfl | ⟨before, last, rfl⟩
  · exact absurd (List.append_inj_right' split rfl) (by simp)
  · rw [List.concat_eq_append] at split since
    rw [← List.cons_append, ← List.append_assoc] at split
    have same : [ControlData.done] = [last] := List.append_inj_right' split rfl
    exact since (by simp [List.singleton_inj.mp same])

theorem queuedValue_text (data : ControlData) : (queuedValue data.text).isSome = true := by
  cases data with
  | done => rfl
  | action requested => cases requested <;> rfl

theorem signalValue_text (action : CancelAction) : (signalValue action.text).isSome = true := by
  cases action <;> rfl

theorem controlTopic (runId : Uuid) (data : ControlData) :
    PyVal.isSubstring "control" (data.message runId).topic = true := by
  simp only [PyVal.isSubstring, ControlData.message, String.toList_append, List.any_eq_true, List.mem_tails]
  refine ⟨"control".toList, ?_, by decide⟩
  exact ⟨"run:".toList ++ runId.str.toList ++ ":".toList, by simp [toString]⟩

section Puts

variable (d : Deliveries) (runId : Uuid) (threadId : Option Uuid) (data : ControlData) (now : Time)

/-- The control queues of the run. -/
def controlQueuesOf (m : StreamManager) : List Nat := (m.controlQueues.get? threadId (some runId)).getD []

def putControl : Deliveries := d.publish (some runId) threadId (data.message runId) false now

theorem putControl_key : ∃ message,
    (putControl d runId threadId data now).streams.getControlKey (some runId) threadId = some message ∧
      message.data = data.text := by
  simp only [putControl, Deliveries.publish, StreamManager.record, controlTopic, if_true,
    StreamManager.getControlKey, Nested.get?_set_self]
  exact ⟨_, rfl, rfl⟩

theorem putControl_queues :
    controlQueuesOf runId threadId (putControl d runId threadId data now).streams =
      controlQueuesOf runId threadId d.streams := by
  simp only [controlQueuesOf, putControl, Deliveries.publish, StreamManager.record, controlTopic, if_true,
    Nested.touch, Nested.get?_set_self, Option.getD_some]

theorem putControl_arrives {queue : Nat} (listed : queue ∈ controlQueuesOf runId threadId d.streams) :
    ∃ message ∈ (putControl d runId threadId data now).arriving queue, message.data = data.text := by
  refine ⟨{ data.message runId with id := some (StreamManager.generateMsSeqId now) }, ?_, rfl⟩
  rw [putControl, Deliveries.publish_arriving, List.mem_append]
  refine Or.inr (List.mem_map.mpr ⟨(queue, _), List.mem_filter.mpr ⟨?_, by simp⟩, rfl⟩)
  simp only [StreamManager.record, controlTopic, if_true]
  exact List.mem_map_of_mem listed

end Puts

theorem mem_publish_arriving {d : Deliveries} {queue : Nat} {message : Message} (member : message ∈ d.arriving queue)
    (runId threadId : Option Uuid) (sent : Message) (resumable : Bool) (now : Time) :
    message ∈ (d.publish runId threadId sent resumable now).arriving queue := by
  rw [Deliveries.publish_arriving]
  exact List.mem_append_left _ member

def EnterCall.isEnter : EnterCall → Bool
  | .called | .entered _ | .signalling _ | .closing _ => true
  | _ => false

def EnterCall.queue? : EnterCall → Option Nat
  | .entered queue | .signalling queue | .closing queue | .starting queue | .listening queue => some queue
  | _ => none

section Invariant

variable (runId : Uuid) (threadId : Option Uuid)

/-- The stored control key asks for a cancellation. -/
def KeySignals (d : Deliveries) : Prop :=
  ∃ message, d.streams.getControlKey (some runId) threadId = some message ∧ (signalValue message.data).isSome

/-- A message that sets the event is in the queue or on its way to it. -/
def Coming (d : Deliveries) (queue : Nat) : Prop := ∃ message ∈ d.arriving queue, (queuedValue message.data).isSome

structure ListenerInvariant (s : EnterState) (waiting : List EnterCall) : Prop where
  once : waiting.countP EnterCall.isEnter ≤ 1
  before : s.history.controlQueue = none →
    s.history.heard = false ∧ s.history.left = false ∧ s.cancelled = false ∧
      (Signalled s.history.sent → KeySignals runId threadId s.deliveries)
  called : .called ∈ waiting → s.history.controlQueue = none
  queue : ∀ k ∈ waiting, ∀ queue, k.queue? = some queue → s.history.controlQueue = some queue
  inside : ∀ queue, .entered queue ∈ waiting → s.history.left = false ∧ s.cancelled = false
  leaving : ∀ queue, .signalling queue ∈ waiting ∨ .closing queue ∈ waiting → s.history.left = true
  listens : ∀ queue, .entered queue ∈ waiting → s.done = none →
    s.history.heard = false ∧ .starting queue ∈ waiting ∨ s.history.heard = true ∧ .listening queue ∈ waiting
  listed : ∀ queue, s.history.controlQueue = some queue → s.history.left = false →
    queue ∈ controlQueuesOf runId threadId s.deliveries.streams
  heard : ∀ queue, s.history.controlQueue = some queue → Signalled s.history.sent →
    s.done.isSome ∨ s.history.heard = false ∧ s.history.left = false ∧ KeySignals runId threadId s.deliveries ∨
      Coming s.deliveries queue

variable {runId threadId} {s : EnterState} {waiting : List EnterCall}

theorem ListenerInvariant.perm {waiting' : List EnterCall} (holds : ListenerInvariant runId threadId s waiting)
    (same : waiting.Perm waiting') : ListenerInvariant runId threadId s waiting' where
  once := same.countP_eq EnterCall.isEnter ▸ holds.once
  before := holds.before
  called member := holds.called (same.mem_iff.mpr member)
  queue k member := holds.queue k (same.mem_iff.mpr member)
  inside queue member := holds.inside queue (same.mem_iff.mpr member)
  leaving queue member := holds.leaving queue (by simpa only [same.mem_iff] using member)
  listens queue member unset := by
    simpa only [same.mem_iff] using holds.listens queue (same.mem_iff.mpr member) unset
  listed := holds.listed
  heard := holds.heard

/-- What the listener owes follows. -/
theorem ListenerInvariant.cancellable (holds : ListenerInvariant runId threadId s waiting) :
    Cancellable s waiting where
  listens queue member unset := (holds.listens queue member unset).imp And.right And.right
  signalled processed signalled := by
    obtain ⟨heard, queue, registered, empty⟩ := processed
    rcases holds.heard queue registered signalled with set | ⟨unheard, _⟩ | ⟨message, member, _⟩
    · exact set
    · exact absurd (heard.symm.trans unheard) (by decide)
    · rw [empty] at member
      cases member

/-- A call that is neither a point of `enter` nor of the listener may come and go. -/
theorem ListenerInvariant.cons_iff {k : EnterCall} (other : k.isEnter = false) (free : k.queue? = none) :
    ListenerInvariant runId threadId s (k :: waiting) ↔ ListenerInvariant runId threadId s waiting := by
  have apart : ∀ {p : EnterCall}, p.isEnter = true ∨ p.queue? ≠ none → (p ∈ k :: waiting ↔ p ∈ waiting) := by
    intro p kind
    have ne : p ≠ k := by
      rintro rfl
      rcases kind with enters | queued
      · exact absurd (other.symm.trans enters) (by decide)
      · exact queued free
    simp [ne]
  have count : (k :: waiting).countP EnterCall.isEnter = waiting.countP EnterCall.isEnter :=
    List.countP_cons_of_neg (by simp [other])
  constructor
  · intro holds
    exact
      { once := count ▸ holds.once
        before := holds.before
        called := fun member => holds.called (List.mem_cons_of_mem _ member)
        queue := fun p member => holds.queue p (List.mem_cons_of_mem _ member)
        inside := fun queue member => holds.inside queue (List.mem_cons_of_mem _ member)
        leaving := fun queue member =>
          holds.leaving queue (member.imp (List.mem_cons_of_mem _) (List.mem_cons_of_mem _))
        listens := fun queue member unset => by
          have here := holds.listens queue (List.mem_cons_of_mem _ member) unset
          rwa [apart (Or.inr (by simp [EnterCall.queue?])), apart (Or.inr (by simp [EnterCall.queue?]))] at here
        listed := holds.listed
        heard := holds.heard }
  · intro holds
    exact
      { once := count.symm ▸ holds.once
        before := holds.before
        called := fun member => holds.called ((apart (Or.inl rfl)).mp member)
        queue := fun p member queue at_queue =>
          holds.queue p ((apart (Or.inr (by simp [at_queue]))).mp member) queue at_queue
        inside := fun queue member => holds.inside queue ((apart (Or.inl rfl)).mp member)
        leaving := fun queue member =>
          holds.leaving queue (member.imp (apart (Or.inl rfl)).mp (apart (Or.inl rfl)).mp)
        listens := fun queue member unset =>
          (holds.listens queue ((apart (Or.inl rfl)).mp member) unset).imp
            (And.imp_right (List.mem_cons_of_mem _)) (And.imp_right (List.mem_cons_of_mem _))
        listed := holds.listed
        heard := holds.heard }

theorem Coming.publish {d : Deliveries} {queue : Nat} (coming : Coming d queue) (runId threadId : Option Uuid)
    (sent : Message) (resumable : Bool) (now : Time) : Coming (d.publish runId threadId sent resumable now) queue := by
  obtain ⟨message, member, sets⟩ := coming
  exact ⟨message, mem_publish_arriving member _ _ _ _ _, sets⟩

theorem coming_of_put {d : Deliveries} {queue : Nat} (data : ControlData) (now : Time)
    (listed : queue ∈ controlQueuesOf runId threadId d.streams) :
    Coming (putControl d runId threadId data now) queue := by
  obtain ⟨message, member, carries⟩ := putControl_arrives d runId threadId data now listed
  exact ⟨message, member, carries ▸ queuedValue_text data⟩

theorem keySignals_of_put (d : Deliveries) (action : CancelAction) (now : Time) :
    KeySignals runId threadId (putControl d runId threadId (.action action) now) := by
  obtain ⟨message, stored, carries⟩ := putControl_key d runId threadId (.action action) now
  exact ⟨message, stored, carries ▸ signalValue_text action⟩

/-- What a change of the messages has to keep. -/
theorem ListenerInvariant.changed (holds : ListenerInvariant runId threadId s waiting) {d : Deliveries}
    {sent : List ControlData}
    (before : s.history.controlQueue = none → Signalled sent → KeySignals runId threadId d)
    (listed : ∀ queue, s.history.controlQueue = some queue → s.history.left = false →
      queue ∈ controlQueuesOf runId threadId d.streams)
    (heard : ∀ queue, s.history.controlQueue = some queue → Signalled sent →
      s.done.isSome ∨ s.history.heard = false ∧ s.history.left = false ∧ KeySignals runId threadId d ∨
        Coming d queue) :
    ListenerInvariant runId threadId { s with deliveries := d, history := { s.history with sent := sent } }
      waiting where
  once := holds.once
  before unregistered := by
    obtain ⟨unheard, staying, running, _⟩ := holds.before unregistered
    exact ⟨unheard, staying, running, before unregistered⟩
  called := holds.called
  queue := holds.queue
  inside := holds.inside
  leaving := holds.leaving
  listens := holds.listens
  listed := listed
  heard := heard

theorem ListenerInvariant.send (holds : ListenerInvariant runId threadId s waiting) (action : CancelAction)
    (now : Time) : ListenerInvariant runId threadId (s.send runId threadId (.action action) now) waiting := by
  unfold EnterState.send
  refine holds.changed (d := putControl s.deliveries runId threadId (.action action) now)
    (fun _ _ => keySignals_of_put _ action now) (fun queue registered staying => ?_)
    (fun queue registered signalled => ?_)
  · rw [putControl_queues]
    exact holds.listed queue registered staying
  · by_cases left : s.history.left = true
    · have before : Signalled s.history.sent := by simpa [left] using signalled
      rcases holds.heard queue registered before with set | ⟨_, staying, _⟩ | coming
      · exact Or.inl set
      · exact absurd (left.symm.trans staying) (by decide)
      · exact Or.inr (Or.inr (coming.publish _ _ _ _ _))
    · have listed := holds.listed queue registered (by simpa using left)
      exact Or.inr (Or.inr (coming_of_put _ _ listed))

theorem ListenerInvariant.deliver (holds : ListenerInvariant runId threadId s waiting) :
    ListenerInvariant runId threadId { s with deliveries := s.deliveries.deliverNext } waiting := by
  have same : s.deliveries.deliverNext.streams.controlKeys = s.deliveries.streams.controlKeys ∧
      s.deliveries.deliverNext.streams.controlQueues = s.deliveries.streams.controlQueues := by
    unfold Deliveries.deliverNext
    split <;> exact ⟨rfl, rfl⟩
  have key : KeySignals runId threadId s.deliveries.deliverNext ↔ KeySignals runId threadId s.deliveries := by
    simp only [KeySignals, StreamManager.getControlKey, same.1]
  refine holds.changed (d := s.deliveries.deliverNext) (fun unregistered => ?_) (fun queue registered staying => ?_)
    (fun queue registered signalled => ?_)
  · rw [key]
    exact (holds.before unregistered).2.2.2
  · rw [controlQueuesOf, same.2]
    exact holds.listed queue registered staying
  · rw [key, Coming, Deliveries.deliverNext_arriving]
    exact holds.heard queue registered signalled

/-- The listener may stop when nobody waits for it. -/
theorem ListenerInvariant.stop {k : EnterCall} (holds : ListenerInvariant runId threadId s (k :: waiting))
    (idle : s.done ≠ none ∨ ∀ queue, .entered queue ∉ waiting) : ListenerInvariant runId threadId s waiting where
  once := (List.sublist_cons_self ..).countP_le.trans holds.once
  before := holds.before
  called member := holds.called (List.mem_cons_of_mem _ member)
  queue p member := holds.queue p (List.mem_cons_of_mem _ member)
  inside queue member := holds.inside queue (List.mem_cons_of_mem _ member)
  leaving queue member := holds.leaving queue (member.imp (List.mem_cons_of_mem _) (List.mem_cons_of_mem _))
  listens queue member unset := by
    rcases idle with set | nobody
    · exact absurd unset set
    · exact absurd member (nobody queue)
  listed := holds.listed
  heard := holds.heard

theorem ListenerInvariant.keepListening {queue : Nat}
    (holds : ListenerInvariant runId threadId s (.listening queue :: waiting)) :
    ListenerInvariant runId threadId (keepListening s queue).1 ((keepListening s queue).2.points ++ waiting) := by
  unfold Runs.keepListening
  split
  · rename_i set
    exact holds.stop (Or.inl (Option.isSome_iff_ne_none.mp set))
  · exact holds

/-- A cancelled listener stops, and nobody waits for it. -/
theorem ListenerInvariant.cancelled {k : EnterCall} (holds : ListenerInvariant runId threadId s (k :: waiting))
    (finished : s.history.left = true ∨ s.cancelled = true) : ListenerInvariant runId threadId s waiting := by
  refine holds.stop (Or.inr (fun queue member => ?_))
  obtain ⟨staying, running⟩ := holds.inside queue (List.mem_cons_of_mem _ member)
  rcases finished with left | cancelled
  · exact absurd (left.symm.trans staying) (by decide)
  · exact absurd (cancelled.symm.trans running) (by decide)

theorem or_isSome {value done : Option DoneValue} (set : done.isSome) : (value.or done).isSome := by
  cases value with
  | none => exact set
  | some _ => rfl

theorem ListenerInvariant.starts {queue : Nat}
    (holds : ListenerInvariant runId threadId s (.starting queue :: waiting)) (value : Option DoneValue)
    (read : KeySignals runId threadId s.deliveries → value.isSome) :
    ListenerInvariant runId threadId { s with done := value.or s.done, history := { s.history with heard := true } }
      (.listening queue :: waiting) := by
  have registered : s.history.controlQueue = some queue := holds.queue _ (List.mem_cons_self ..) queue rfl
  have others : ∀ {k : EnterCall}, k ∈ .listening queue :: waiting → k ≠ .listening queue → k ∈ .starting queue :: waiting := by
    intro k member ne
    exact List.mem_cons_of_mem _ ((List.mem_cons.mp member).resolve_left ne)
  constructor
  case once => simpa [List.countP_cons, EnterCall.isEnter] using holds.once
  case before =>
    intro unregistered
    exact absurd (registered.symm.trans unregistered) (by simp)
  case called => exact fun member => holds.called (others member (by simp))
  case queue =>
    intro k member queue' at_queue
    rcases List.mem_cons.mp member with rfl | other
    · cases at_queue
      exact registered
    · exact holds.queue k (List.mem_cons_of_mem _ other) queue' at_queue
  case inside => exact fun queue' member => holds.inside queue' (others member (by simp))
  case leaving =>
    exact fun queue' member => holds.leaving queue' (member.imp (others · (by simp)) (others · (by simp)))
  case listens =>
    intro queue' member _
    have same := holds.queue _ (others member (by simp)) queue' rfl
    rw [registered, Option.some.injEq] at same
    exact Or.inr ⟨rfl, same ▸ List.mem_cons_self ..⟩
  case listed => exact holds.listed
  case heard =>
    intro queue' registered' signalled
    rcases holds.heard queue' registered' signalled with set | ⟨_, _, key⟩ | coming
    · exact Or.inl (or_isSome set)
    · refine Or.inl ?_
      have given := read key
      cases value with
      | none => cases given
      | some _ => rfl
    · exact Or.inr (Or.inr coming)

theorem ListenerInvariant.reads {queue : Nat} {d : Deliveries} {message : Message}
    (holds : ListenerInvariant runId threadId s (.listening queue :: waiting))
    (taken : s.deliveries.take? queue = some (message, d)) :
    ListenerInvariant runId threadId { s with deliveries := d, done := (queuedValue message.data).or s.done }
      (.listening queue :: waiting) := by
  have registered : s.history.controlQueue = some queue := holds.queue _ (List.mem_cons_self ..) queue rfl
  obtain ⟨first, _, _⟩ := s.deliveries.take?_arriving queue taken
  have same : d.streams.controlKeys = s.deliveries.streams.controlKeys ∧
      d.streams.controlQueues = s.deliveries.streams.controlQueues := by
    unfold Deliveries.take? at taken
    split at taken
    · cases taken
    · cases taken
      exact ⟨rfl, rfl⟩
  have key : KeySignals runId threadId d ↔ KeySignals runId threadId s.deliveries := by
    simp only [KeySignals, StreamManager.getControlKey, same.1]
  constructor
  case once => exact holds.once
  case before =>
    intro unregistered
    exact absurd (registered.symm.trans unregistered) (by simp)
  case called => exact holds.called
  case queue => exact holds.queue
  case inside => exact holds.inside
  case leaving => exact holds.leaving
  case listens =>
    intro queue' member unset
    refine holds.listens queue' member ?_
    cases value : queuedValue message.data with
    | none => simpa [value] using unset
    | some _ => simp [value] at unset
  case listed => simpa only [controlQueuesOf, same.2] using holds.listed
  case heard =>
    intro queue' registered' signalled
    have here : queue' = queue := Option.some.inj (registered'.symm.trans registered)
    subst here
    rcases holds.heard queue' registered' signalled with set | ⟨unheard, staying, asks⟩ | ⟨coming, member, sets⟩
    · exact Or.inl (or_isSome set)
    · exact Or.inr (Or.inl ⟨unheard, staying, key.mpr asks⟩)
    · rw [first] at member
      rcases List.mem_cons.mp member with rfl | later
      · refine Or.inl ?_
        cases value : queuedValue coming.data with
        | none => simp [value] at sets
        | some _ => rfl
      · exact Or.inr (Or.inr ⟨coming, later, sets⟩)

theorem no_enter_left {k p : EnterCall} (holds : ListenerInvariant runId threadId s (k :: waiting))
    (enters : k.isEnter = true) (member : p ∈ waiting) : p.isEnter = false := by
  have once := holds.once
  rw [List.countP_cons_of_pos enters] at once
  have none : waiting.countP EnterCall.isEnter = 0 := by omega
  simpa using List.countP_eq_zero.mp none p member

/-- The point of `enter` is replaced by one at which its `done` has been put, or by none. -/
theorem ListenerInvariant.leaves {k : EnterCall} {d : Deliveries}
    (holds : ListenerInvariant runId threadId s (k :: waiting)) (point : List EnterCall) (cancelled : Bool) (enters : k.isEnter = true)
    (points : point = [] ∨ ∃ queue, s.history.controlQueue = some queue ∧
      (point = [.signalling queue] ∨ point = [.closing queue]))
    (called : s.history.controlQueue ≠ none)
    (heard : ∀ queue, s.history.controlQueue = some queue → Signalled s.history.sent →
      s.done.isSome ∨ Coming d queue) :
    ListenerInvariant runId threadId
      { s with deliveries := d, cancelled := cancelled, history := { s.history with left := true } }
      (point ++ waiting) := by
  have notEntered : ∀ queue, .entered queue ∉ point ++ waiting := by
    intro queue member
    rcases List.mem_append.mp member with mine | other
    · rcases points with rfl | ⟨_, _, rfl | rfl⟩ <;> simp at mine
    · exact absurd (no_enter_left holds enters other) (by simp [EnterCall.isEnter])
  have none : waiting.countP EnterCall.isEnter = 0 :=
    List.countP_eq_zero.mpr (fun p member => by simp [no_enter_left holds enters member])
  constructor
  case once =>
    rw [List.countP_append, none]
    rcases points with rfl | ⟨_, _, rfl | rfl⟩ <;> simp [EnterCall.isEnter]
  case before => exact fun unregistered => absurd unregistered called
  case called =>
    intro member
    rcases List.mem_append.mp member with mine | other
    · rcases points with rfl | ⟨_, _, rfl | rfl⟩ <;> simp at mine
    · exact absurd (no_enter_left holds enters other) (by simp [EnterCall.isEnter])
  case queue =>
    intro p member queue' at_queue
    rcases List.mem_append.mp member with mine | other
    · rcases points with rfl | ⟨queue, registered, rfl | rfl⟩
      · cases mine
      all_goals
        cases List.mem_singleton.mp mine
        cases at_queue
        exact registered
    · exact holds.queue p (List.mem_cons_of_mem _ other) queue' at_queue
  case inside => exact fun queue member => absurd member (notEntered queue)
  case leaving => exact fun _ _ => rfl
  case listens => exact fun queue member _ => absurd member (notEntered queue)
  case listed => exact fun _ _ staying => absurd staying (by simp)
  case heard =>
    intro queue registered signalled
    exact (heard queue registered signalled).imp_right Or.inr

theorem ListenerInvariant.goesOn {k : EnterCall} {d : Deliveries}
    (holds : ListenerInvariant runId threadId s (k :: waiting)) (point : List EnterCall) (cancelled : Bool) (enters : k.isEnter = true)
    (left : s.history.left = true)
    (points : point = [] ∨ ∃ queue, s.history.controlQueue = some queue ∧
      (point = [.signalling queue] ∨ point = [.closing queue]))
    (called : s.history.controlQueue ≠ none) (coming : ∀ queue, Coming s.deliveries queue → Coming d queue) :
    ListenerInvariant runId threadId { s with deliveries := d, cancelled := cancelled } (point ++ waiting) := by
  have same : { s.history with left := true } = s.history := by
    rw [← left]
  have leaves := holds.leaves (d := d) point cancelled enters points called
    (fun queue registered signalled => by
      rcases holds.heard queue registered signalled with set | ⟨_, staying, _⟩ | comes
      · exact Or.inl set
      · exact absurd (left.symm.trans staying) (by decide)
      · exact Or.inr (coming queue comes))
  rwa [same] at leaves

theorem ListenerInvariant.aborts {k : EnterCall} (holds : ListenerInvariant runId threadId s (k :: waiting))
    (enters : k.isEnter = true) (registered : s.history.controlQueue ≠ none) :
    ListenerInvariant runId threadId s.cancel waiting where
  once := (List.sublist_cons_self ..).countP_le.trans holds.once
  before unregistered := absurd unregistered registered
  called member := holds.called (List.mem_cons_of_mem _ member)
  queue p member := holds.queue p (List.mem_cons_of_mem _ member)
  inside queue member := absurd (no_enter_left holds enters member) (by simp [EnterCall.isEnter])
  leaving queue member := holds.leaving queue (member.imp (List.mem_cons_of_mem _) (List.mem_cons_of_mem _))
  listens queue member := absurd (no_enter_left holds enters member) (by simp [EnterCall.isEnter])
  listed := holds.listed
  heard := holds.heard

theorem ListenerInvariant.registers (holds : ListenerInvariant runId threadId s (.called :: waiting)) {queue : Nat}
    {streams : StreamManager} (added : s.deliveries.streams.addControlQueue (some runId) threadId = (queue, streams)) :
    ListenerInvariant runId threadId
      { s with
        deliveries := { s.deliveries with streams := streams }
        history := { s.history with controlQueue := some queue } }
      (.starting queue :: .entered queue :: waiting) := by
  have unregistered := holds.called (List.mem_cons_self ..)
  obtain ⟨unheard, staying, running, asks⟩ := holds.before unregistered
  have free : ∀ {k : EnterCall}, k ∈ waiting → k.isEnter = false ∧ k.queue? = none := by
    intro k member
    refine ⟨no_enter_left holds rfl member, Option.eq_none_iff_forall_ne_some.mpr (fun queue' at_queue => ?_)⟩
    have registered := holds.queue k (List.mem_cons_of_mem _ member) queue' at_queue
    exact absurd (registered.symm.trans unregistered) (by simp)
  cases added
  constructor
  case once =>
    have none : waiting.countP EnterCall.isEnter = 0 :=
      List.countP_eq_zero.mpr (fun p member => by simp [(free member).1])
    simp [List.countP_cons, EnterCall.isEnter, none]
  case before => exact fun unregistered => absurd unregistered (by simp)
  case called =>
    intro member
    have other : .called ∈ waiting := by simpa using member
    exact absurd (free other).1 (by simp [EnterCall.isEnter])
  case queue =>
    intro k member queue' at_queue
    rcases List.mem_cons.mp member with rfl | member
    · exact at_queue
    rcases List.mem_cons.mp member with rfl | other
    · exact at_queue
    · exact absurd (free other).2 (by simp [at_queue])
  case inside => exact fun _ _ => ⟨staying, running⟩
  case leaving =>
    intro queue' member
    have other : .signalling queue' ∈ waiting ∨ .closing queue' ∈ waiting := by simpa using member
    rcases other with other | other <;> exact absurd (free other).1 (by simp [EnterCall.isEnter])
  case listens =>
    intro queue' member _
    refine Or.inl ⟨unheard, ?_⟩
    have same : queue' = s.deliveries.streams.queueCount := by
      rcases List.mem_cons.mp member with other | member
      · cases other
      rcases List.mem_cons.mp member with same | other
      · exact EnterCall.entered.inj same
      · exact absurd (free other).1 (by simp [EnterCall.isEnter])
    exact same ▸ List.mem_cons_self ..
  case listed =>
    intro queue' registered _
    cases registered
    simp [controlQueuesOf]
  case heard => exact fun _ _ signalled => Or.inr (Or.inl ⟨unheard, staying, asks signalled⟩)

section Turns

variable {encode : String → String → String} {resumable : Bool}

theorem ListenerInvariant.turn {k : EnterCall} (holds : ListenerInvariant runId threadId s (k :: waiting)) (reply : Reply)
    (patient : Patient s waiting k reply) :
    ListenerInvariant runId threadId (EnterCall.resume encode runId threadId resumable s k reply).1
      ((EnterCall.resume encode runId threadId resumable s k reply).2.points ++ waiting) := by
  have registered : ∀ {queue}, k.queue? = some queue → s.history.controlQueue = some queue :=
    fun at_queue => holds.queue k (List.mem_cons_self ..) _ at_queue
  have given : ∀ {queue}, k.queue? = some queue → s.history.controlQueue ≠ none :=
    fun at_queue => by simp [registered at_queue]
  cases k with
  | called => exact holds.registers rfl
  | control requested => exact ((ListenerInvariant.cons_iff rfl rfl).mp holds).send requested reply.now
  | deliver => exact ((ListenerInvariant.cons_iff rfl rfl).mp holds).deliver
  | entered queue =>
    simp only [EnterCall.resume]
    cases reply.answer with
    | error e => exact holds.aborts rfl (given rfl)
    | ok value =>
      refine holds.leaves [.signalling queue] _ rfl (Or.inr ⟨queue, registered rfl, Or.inl rfl⟩)
        (given rfl) (fun queue' registered' signalled => ?_)
      obtain ⟨staying, _⟩ := holds.inside queue (List.mem_cons_self ..)
      exact Or.inr (coming_of_put .done reply.now (holds.listed queue' registered' staying))
  | signalling queue =>
    have left := holds.leaving queue (Or.inl (List.mem_cons_self ..))
    simp only [EnterCall.resume]
    cases reply.answer with
    | error e => exact holds.aborts rfl (given rfl)
    | ok value =>
      refine holds.goesOn [.closing queue] _ rfl left (Or.inr ⟨queue, registered rfl, Or.inr rfl⟩)
        (given rfl) (fun queue' coming => coming.publish _ _ _ _ _)
  | closing queue =>
    have left := holds.leaving queue (Or.inr (List.mem_cons_self ..))
    simp only [EnterCall.resume]
    cases reply.answer with
    | error e => exact holds.aborts rfl (given rfl)
    | ok value =>
      cases removed : s.deliveries.streams.removeControlQueue (some runId) threadId queue with
      | error e => exact holds.aborts rfl (given rfl)
      | ok streams =>
        refine holds.goesOn [] _ rfl left (Or.inl rfl) (given rfl) (fun queue' coming => ?_)
        obtain ⟨controlQueues, _, rest⟩ := bind_ok removed
        cases rest
        exact coming
  | starting queue =>
    simp only [EnterCall.resume]
    split
    · rename_i finished
      exact holds.cancelled (Or.inr finished)
    · unfold startListening
      cases stored : s.deliveries.streams.getControlKey (some runId) threadId with
      | none =>
        refine (holds.starts none (fun asks => ?_)).keepListening
        obtain ⟨message, read, _⟩ := asks
        cases stored.symm.trans read
      | some message =>
        refine (holds.starts (signalValue message.data) (fun asks => ?_)).keepListening
        obtain ⟨message', read, signals⟩ := asks
        cases stored.symm.trans read
        exact signals
  | listening queue =>
    simp only [EnterCall.resume]
    split
    · rename_i finished
      exact holds.cancelled (Or.inr finished)
    · unfold listen
      cases answered : reply.answer with
      | error e =>
        refine holds.cancelled (patient.resolve_left ?_)
        rw [answered]
        exact Bool.false_ne_true
      | ok value =>
        cases taken : s.deliveries.take? queue with
        | none => exact holds
        | some pair => exact (holds.reads taken).keepListening

end Turns

theorem first_append (d : Deliveries) (past : List (ControlData × Time)) (put : ControlData × Time) :
    EnterState.first runId threadId d (past ++ [put]) =
      (EnterState.first runId threadId d past).send runId threadId put.1 put.2 := by
  rw [EnterState.first, List.foldl_append]
  rfl

variable (runId threadId) in
theorem first_idle (d : Deliveries) (past : List (ControlData × Time)) :
    (EnterState.first runId threadId d past).done = none ∧
      (EnterState.first runId threadId d past).cancelled = false ∧
      (EnterState.first runId threadId d past).history = ⟨none, false, past.map Prod.fst, false⟩ := by
  induction past using List.reverseRecOn with
  | nil => exact ⟨rfl, rfl, rfl⟩
  | append_singleton past put ih =>
    obtain ⟨unset, running, history⟩ := ih
    rw [first_append]
    simp only [EnterState.send, unset, running, history, Bool.false_eq_true, if_false, List.map_append,
      List.map_cons, List.map_nil, and_self]

theorem first_keySignals (d : Deliveries) (past : List (ControlData × Time)) (signalled : Signalled (past.map Prod.fst)) :
    KeySignals runId threadId (EnterState.first runId threadId d past).deliveries := by
  rcases List.eq_nil_or_concat past with rfl | ⟨before, ⟨data, now⟩, rfl⟩
  · exact absurd signalled not_signalled_nil
  · rw [List.concat_eq_append] at signalled ⊢
    rw [first_append]
    cases data with
    | action requested => exact keySignals_of_put _ requested now
    | done =>
      rw [List.map_append] at signalled
      exact absurd signalled (not_signalled_append_done _)

theorem first_holds (d : Deliveries) (past : List (ControlData × Time)) :
    ListenerInvariant runId threadId (EnterState.first runId threadId d past) [.called] := by
  obtain ⟨_, running, history⟩ := first_idle runId threadId d past
  constructor
  case once => simp [List.countP_cons, EnterCall.isEnter]
  case before =>
    refine fun _ => ⟨by rw [history], by rw [history], running, fun signalled => ?_⟩
    rw [history] at signalled
    exact first_keySignals d past signalled
  case called => exact fun _ => by rw [history]
  case queue =>
    intro k member queue at_queue
    cases List.mem_singleton.mp member
    cases at_queue
  case inside => exact fun queue member => absurd member (by simp)
  case leaving => exact fun queue member => absurd member (by simp)
  case listens => exact fun queue member => absurd member (by simp)
  case listed => exact fun queue registered => absurd (history ▸ registered) (by simp)
  case heard => exact fun queue registered => absurd (history ▸ registered) (by simp)

end Invariant

/-- With the messages put before it and any later ones, an entered run can be
cancelled as long as no wait of its listener times out while it is entered. -/
theorem enter_cancellable (encode : String → String → String) (runId : Uuid) (threadId : Option Uuid)
    (resumable : Bool) (d : Deliveries) (past : List (ControlData × Time)) {l : EventLoop EnterState EnterCall}
    (reach : (enterCalls encode runId threadId resumable).Reaches Patient
      ⟨EnterState.first runId threadId d past, [.called]⟩ l) : Cancellable l.state l.waiting := by
  suffices holds : ListenerInvariant runId threadId l.state l.waiting from holds.cancellable
  refine reach.invariant (fun same holds => holds.perm same) (fun {s waiting k} holds new => ?_)
    (fun holds patient => holds.turn _ patient) (first_holds d past)
  cases k with
  | control | deliver => exact (ListenerInvariant.cons_iff rfl rfl).mpr holds
  | _ => cases new

section Timeout

def noDeliveries : Deliveries := ⟨.empty, []⟩

def timeoutReply : Reply := { plainReply with answer := .error (.foreign "TimeoutError") }

/-- Nobody cancels the run for 240 seconds. -/
def waitInVain : List (Coroutines.Move EnterCall Reply) := [.turn 0 plainReply, .turn 0 plainReply, .turn 0 timeoutReply]

/-- After a timeout nobody listens for the cancellation of the run. -/
theorem enter_not_cancellable :
    ¬ ∀ (encode : String → String → String) (runId : Uuid) (threadId : Option Uuid) (resumable : Bool)
      (d : Deliveries) (past : List (ControlData × Time)) (l : EventLoop EnterState EnterCall),
        (enterCalls encode runId threadId resumable).Reaches Coroutines.unrestricted
          ⟨EnterState.first runId threadId d past, [.called]⟩ l → Cancellable l.state l.waiting := by
  intro cancellable
  have performed : ((enterCalls (fun _ data => data) ⟨1⟩ (some ⟨2⟩) false).performAll
      ⟨EnterState.first ⟨1⟩ (some ⟨2⟩) noDeliveries [], [.called]⟩ waitInVain).isSome = true := rfl
  have stopped := cancellable _ _ _ _ noDeliveries [] _
    (Coroutines.reaches_of_performAll (Option.some_get performed).symm)
  rcases stopped.listens 0 (List.mem_singleton_self _) rfl with starting | listening
  · have alone : EnterCall.starting 0 = .entered 0 := List.mem_singleton.mp starting
    cases alone
  · have alone : EnterCall.listening 0 = .entered 0 := List.mem_singleton.mp listening
    cases alone

/-- An interrupt is put while the listener waits, and reaches it. -/
theorem enter_cancellable_interrupted :
    ∃ l : EventLoop EnterState EnterCall, l.state.done = some .interrupt ∧ l.state.Processed ∧
      Cancellable l.state l.waiting := by
  have begun : (enterCalls (fun _ data => data) ⟨1⟩ (some ⟨2⟩) false).Reaches Patient
      ⟨EnterState.first ⟨1⟩ (some ⟨2⟩) noDeliveries [], [.called]⟩ _ := .start
  have entered := begun.turn 0 plainReply rfl trivial
  have listening := entered.turn 0 plainReply rfl trivial
  have putting := listening.call (k := EnterCall.control .interrupt) rfl
  have put := putting.turn (k := EnterCall.control .interrupt) 2 plainReply rfl trivial
  have delivering := put.call (k := EnterCall.deliver) rfl
  have delivered := delivering.turn (k := EnterCall.deliver) 2 plainReply rfl trivial
  have read := delivered.turn (k := EnterCall.listening 0) 0 plainReply rfl (Or.inl rfl)
  exact ⟨_, rfl, ⟨rfl, 0, rfl, rfl⟩, enter_cancellable (fun _ data => data) ⟨1⟩ (some ⟨2⟩) false noDeliveries [] read⟩

end Timeout

end Runs

end InmemRuntime
