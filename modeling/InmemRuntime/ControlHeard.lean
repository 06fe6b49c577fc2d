import InmemRuntime.ControlSubscribers

namespace InmemRuntime

namespace Runs

namespace SubscribedCall

def isEnter : SubscribedCall → Bool
  | .enter k => k.isEnter
  | .subscribe _ _ => false

def queue? : SubscribedCall → Option Nat
  | .enter k => k.queue?
  | .subscribe _ _ => none

def isListener : SubscribedCall → Bool
  | .enter (.starting _) | .enter (.listening _) => true
  | _ => false

/-- One call goes on where the other was. -/
structure Follows (k p : SubscribedCall) : Prop where
  enter : p.isEnter = k.isEnter
  queue : p.queue? = k.queue?
  listener : p.isListener = k.isListener
  notCalled : p ≠ .enter .called

end SubscribedCall

theorem listened_iff {s : EnterState} {waiting : List SubscribedCall} {queue : Nat} :
    Listened s waiting queue ↔
      s.cancelled = false ∧ ∃ k ∈ waiting, k.isListener = true ∧ k.queue? = some queue := by
  refine and_congr_right (fun _ => ⟨?_, ?_⟩)
  · rintro (starting | listening)
    · exact ⟨_, starting, rfl, rfl⟩
    · exact ⟨_, listening, rfl, rfl⟩
  · rintro ⟨k, member, listener, at_queue⟩
    cases k with
    | subscribe => cases listener
    | enter k =>
      cases k with
      | starting number =>
        cases at_queue
        exact Or.inl member
      | listening number =>
        cases at_queue
        exact Or.inr member
      | _ => cases listener

section Invariant

variable (runId threadId : Uuid)

structure HeardInvariant (s : HeardState) (waiting : List SubscribedCall) : Prop where
  once : waiting.countP SubscribedCall.isEnter ≤ 1
  called : .enter .called ∈ waiting → s.entered.history.controlQueue = none
  before : s.entered.history.controlQueue = none → s.puts = [] ∧ s.received = []
  queue : ∀ k ∈ waiting, ∀ queue, k.queue? = some queue → s.entered.history.controlQueue = some queue
  fresh : Fresh s.entered.deliveries
  dedicated : ∀ queue, s.entered.history.controlQueue = some queue →
    Dedicated runId threadId queue s.entered.deliveries.streams
  hears : HearsAll s waiting

variable {runId threadId} {s s' : HeardState} {waiting : List SubscribedCall} {k : SubscribedCall}

theorem HeardInvariant.perm {waiting' : List SubscribedCall} (holds : HeardInvariant runId threadId s waiting)
    (same : waiting.Perm waiting') : HeardInvariant runId threadId s waiting' where
  once := same.countP_eq SubscribedCall.isEnter ▸ holds.once
  called member := holds.called (same.mem_iff.mpr member)
  before := holds.before
  queue k member := holds.queue k (same.mem_iff.mpr member)
  fresh := holds.fresh
  dedicated := holds.dedicated
  hears queue listened := holds.hears queue (by simpa only [Listened, same.mem_iff] using listened)

/-- A call that is neither a point of `enter` nor of the listener can be made. -/
theorem HeardInvariant.made (holds : HeardInvariant runId threadId s waiting) (other : k.isEnter = false)
    (free : k.queue? = none) : HeardInvariant runId threadId s (k :: waiting) where
  once := by
    rw [List.countP_cons_of_neg (by simp [other])]
    exact holds.once
  called member := by
    rcases List.mem_cons.mp member with rfl | old
    · cases other
    · exact holds.called old
  before := holds.before
  queue p member queue at_queue := by
    rcases List.mem_cons.mp member with rfl | old
    · cases free.symm.trans at_queue
    · exact holds.queue p old queue at_queue
  fresh := holds.fresh
  dedicated := holds.dedicated
  hears queue listened := by
    obtain ⟨running, p, member, listener, at_queue⟩ := listened_iff.mp listened
    refine holds.hears queue (listened_iff.mpr ⟨running, p, ?_, listener, at_queue⟩)
    rcases List.mem_cons.mp member with rfl | old
    · cases free.symm.trans at_queue
    · exact old

/-- The rule for a turn after which the call waits at one point more or is over. -/
theorem HeardInvariant.goesOn (holds : HeardInvariant runId threadId s (k :: waiting)) (points : List SubscribedCall)
    (follows : points = [] ∨ ∃ p, points = [p] ∧ k.Follows p)
    (registered : s'.entered.history.controlQueue = s.entered.history.controlQueue)
    (before : s.entered.history.controlQueue = none → s'.puts = s.puts ∧ s'.received = s.received)
    (fresh : Fresh s'.entered.deliveries)
    (dedicated : ∀ queue, Dedicated runId threadId queue s.entered.deliveries.streams →
      Dedicated runId threadId queue s'.entered.deliveries.streams)
    (hears : ∀ queue, s.entered.history.controlQueue = some queue →
      Dedicated runId threadId queue s.entered.deliveries.streams → s'.entered.cancelled = false →
      s.entered.cancelled = false ∧
        (Listened s.entered (k :: waiting) queue → s.puts = s.received ++ s.entered.deliveries.arriving queue →
          s'.puts = s'.received ++ s'.entered.deliveries.arriving queue)) :
    HeardInvariant runId threadId s' (points ++ waiting) := by
  have origin : ∀ {p}, p ∈ points ++ waiting → k.Follows p ∨ p ∈ waiting := by
    intro p member
    rcases List.mem_append.mp member with mine | other
    · rcases follows with rfl | ⟨q, rfl, goesOn⟩
      · cases mine
      · rw [List.mem_singleton.mp mine]
        exact Or.inl goesOn
    · exact Or.inr other
  have at_registered : ∀ p ∈ points ++ waiting, ∀ queue, p.queue? = some queue →
      s.entered.history.controlQueue = some queue := by
    intro p member queue at_queue
    rcases origin member with goesOn | other
    · exact holds.queue k (List.mem_cons_self ..) queue (goesOn.queue ▸ at_queue)
    · exact holds.queue p (List.mem_cons_of_mem _ other) queue at_queue
  constructor
  case once =>
    have once := holds.once
    rw [List.countP_cons] at once
    rw [List.countP_append]
    rcases follows with rfl | ⟨p, rfl, goesOn⟩
    · rw [List.countP_nil]
      omega
    · rw [List.countP_singleton, goesOn.enter]
      omega
  case called =>
    intro member
    rcases origin member with goesOn | other
    · exact absurd rfl goesOn.notCalled
    · exact registered ▸ holds.called (List.mem_cons_of_mem _ other)
  case before =>
    intro unregistered
    rw [registered] at unregistered
    obtain ⟨noPuts, nothing⟩ := holds.before unregistered
    obtain ⟨puts, received⟩ := before unregistered
    exact ⟨puts.trans noPuts, received.trans nothing⟩
  case queue => exact fun p member queue at_queue => registered ▸ at_registered p member queue at_queue
  case fresh => exact fresh
  case dedicated => exact fun queue given => dedicated queue (holds.dedicated queue (registered ▸ given))
  case hears =>
    intro queue listened
    obtain ⟨running, p, member, listener, at_queue⟩ := listened_iff.mp listened
    have given := at_registered p member queue at_queue
    obtain ⟨before, step⟩ := hears queue given (holds.dedicated queue given) running
    have earlier : Listened s.entered (k :: waiting) queue := by
      rcases origin member with goesOn | other
      · exact listened_iff.mpr ⟨before, k, List.mem_cons_self .., goesOn.listener ▸ listener, goesOn.queue ▸ at_queue⟩
      · exact listened_iff.mpr ⟨before, p, List.mem_cons_of_mem _ other, listener, at_queue⟩
    exact step earlier (holds.hears queue earlier)

/-- `enter` registers its queue, to which nothing has come yet. -/
theorem HeardInvariant.registers (holds : HeardInvariant runId threadId s (.enter .called :: waiting)) {queue : Nat}
    {streams : StreamManager}
    (added : s.entered.deliveries.streams.addControlQueue (some runId) (some threadId) = (queue, streams))
    {entered : EnterState} (deliveries : entered.deliveries = { s.entered.deliveries with streams := streams })
    (registered : entered.history.controlQueue = some queue) :
    HeardInvariant runId threadId ⟨entered, s.puts, s.received⟩
      (.enter (.starting queue) :: .enter (.entered queue) :: waiting) := by
  have unregistered := holds.called (List.mem_cons_self ..)
  obtain ⟨noPuts, nothing⟩ := holds.before unregistered
  obtain ⟨fresh, dedicated, empty⟩ := addControlQueue_registers holds.fresh added
  have alone : waiting.countP SubscribedCall.isEnter = 0 := by
    have once := holds.once
    rw [List.countP_cons_of_pos rfl] at once
    omega
  have free : ∀ p ∈ waiting, p.queue? = none := by
    refine fun p member => Option.eq_none_iff_forall_ne_some.mpr (fun number at_queue => ?_)
    have given := holds.queue p (List.mem_cons_of_mem _ member) number at_queue
    cases unregistered.symm.trans given
  have at_new : ∀ p ∈ SubscribedCall.enter (.starting queue) :: .enter (.entered queue) :: waiting, ∀ number,
      p.queue? = some number → number = queue := by
    intro p member number at_queue
    rcases List.mem_cons.mp member with rfl | member
    · exact (Option.some.inj at_queue).symm
    rcases List.mem_cons.mp member with rfl | other
    · exact (Option.some.inj at_queue).symm
    · cases (free p other).symm.trans at_queue
  constructor
  case once =>
    rw [List.countP_cons_of_neg (by simp [SubscribedCall.isEnter, EnterCall.isEnter]), List.countP_cons_of_pos rfl,
      alone]
  case called =>
    intro member
    have other : .enter .called ∈ waiting := by simpa using member
    have counted := List.countP_eq_zero.mp alone _ other
    exact absurd rfl counted
  case before => exact fun none => absurd (registered.symm.trans none) (by simp)
  case queue => exact fun p member number at_queue => at_new p member number at_queue ▸ registered
  case fresh => exact deliveries ▸ fresh
  case dedicated =>
    intro number given
    cases registered.symm.trans given
    rw [deliveries]
    exact dedicated
  case hears =>
    intro number listened
    obtain ⟨_, p, member, _, at_queue⟩ := listened_iff.mp listened
    rw [at_new p member number at_queue, deliveries, empty, noPuts, nothing]
    rfl

/-- A turn that touches no queue. -/
theorem HeardInvariant.idle (holds : HeardInvariant runId threadId s (k :: waiting)) {points : List SubscribedCall}
    (follows : points = [] ∨ ∃ p, points = [p] ∧ k.Follows p) {entered : EnterState}
    (registered : entered.history.controlQueue = s.entered.history.controlQueue)
    (deliveries : entered.deliveries = s.entered.deliveries)
    (running : entered.cancelled = false → s.entered.cancelled = false) :
    HeardInvariant runId threadId ⟨entered, s.puts, s.received⟩ (points ++ waiting) := by
  refine holds.goesOn points follows registered (fun _ => ⟨rfl, rfl⟩) ?_ (fun queue dedicated => ?_)
    (fun queue _ _ still => ⟨running still, fun _ hears => ?_⟩)
  · exact deliveries ▸ holds.fresh
  · exact deliveries ▸ dedicated
  · exact deliveries ▸ hears

/-- A turn that sends a control message, to the registered queue as well. -/
theorem HeardInvariant.sends (holds : HeardInvariant runId threadId s (k :: waiting)) {points : List SubscribedCall}
    (follows : points = [] ∨ ∃ p, points = [p] ∧ k.Follows p) (data : ControlData) (now : Time) {entered : EnterState}
    (registered : entered.history.controlQueue = s.entered.history.controlQueue)
    (deliveries : entered.deliveries =
      s.entered.deliveries.publish (some runId) (some threadId) (data.message runId) false now)
    (running : entered.cancelled = s.entered.cancelled) :
    HeardInvariant runId threadId ⟨entered, s.puts ++ s.entered.putOn runId threadId data now, s.received⟩
      (points ++ waiting) := by
  refine holds.goesOn points follows registered (fun unregistered => ⟨?_, rfl⟩) ?_ (fun queue dedicated => ?_)
    (fun queue given dedicated still => ⟨running ▸ still, fun _ hears => ?_⟩)
  · simp [EnterState.putOn, unregistered]
  · exact deliveries ▸ holds.fresh.publish ..
  · exact deliveries ▸ dedicated.keeps (publish_lists ..)
  · have put : s.entered.putOn runId threadId data now =
        if queue ∈ controlQueuesOf runId (some threadId) s.entered.deliveries.streams then [(data.message runId).stamped now]
        else [] := by
      simp only [EnterState.putOn, given]
    show s.puts ++ s.entered.putOn runId threadId data now = s.received ++ entered.deliveries.arriving queue
    rw [put, deliveries, putControl_arriving dedicated, hears, List.append_assoc]

section Turn

variable {encode : String → String → String} {resumable : Bool}

/-- The listener goes on, or it is over. -/
theorem keepListening_points {k : SubscribedCall} (entered : EnterState) {queue : Nat}
    (goesOn : k.Follows (.enter (.listening queue))) :
    (keepListening entered queue).1 = entered ∧
      ((keepListening entered queue).2.points.map SubscribedCall.enter = [] ∨
        ∃ p, (keepListening entered queue).2.points.map SubscribedCall.enter = [p] ∧ k.Follows p) := by
  unfold Runs.keepListening
  split
  · exact ⟨rfl, Or.inl rfl⟩
  · exact ⟨rfl, Or.inr ⟨_, rfl, goesOn⟩⟩

/-- The first turn of the listener. -/
theorem HeardInvariant.starts {queue : Nat}
    (holds : HeardInvariant runId threadId s (.enter (.starting queue) :: waiting)) :
    HeardInvariant runId threadId ⟨(startListening runId (some threadId) s.entered queue).1, s.puts, s.received⟩
      ((startListening runId (some threadId) s.entered queue).2.points.map .enter ++ waiting) := by
  have follows : (SubscribedCall.enter (.starting queue)).Follows (.enter (.listening queue)) :=
    ⟨rfl, rfl, rfl, fun same => by cases same⟩
  unfold startListening
  dsimp only
  split
  · obtain ⟨same, points⟩ := keepListening_points { s.entered with history := { s.entered.history with heard := true } } follows
    rw [same]
    exact holds.idle points rfl rfl id
  · rename_i message _
    obtain ⟨same, points⟩ := keepListening_points
      (EnterState.set { s.entered with history := { s.entered.history with heard := true } } (signalValue message.data))
      follows
    rw [same]
    exact holds.idle points rfl rfl id

theorem HeardInvariant.listens {queue : Nat} (running : s.entered.cancelled = false)
    (holds : HeardInvariant runId threadId s (.enter (.listening queue) :: waiting)) (reply : Reply) :
    HeardInvariant runId threadId
      ⟨(listen s.entered queue reply).1, s.puts,
        s.received ++ (EnterCall.listening queue).reads s.entered reply⟩
      ((listen s.entered queue reply).2.points.map .enter ++ waiting) := by
  have follows : (SubscribedCall.enter (.listening queue)).Follows (.enter (.listening queue)) :=
    ⟨rfl, rfl, rfl, fun same => by cases same⟩
  have given := holds.queue _ (List.mem_cons_self ..) queue rfl
  unfold listen
  cases answered : reply.answer with
  | error e =>
    have nothing : (EnterCall.listening queue).reads s.entered reply = [] := by
      simp [EnterCall.reads, answered, Except.isOk, Except.toBool]
    rw [nothing, List.append_nil]
    exact holds.idle (Or.inl rfl) rfl rfl id
  | ok value =>
    have reads : (EnterCall.listening queue).reads s.entered reply =
        ((s.entered.deliveries.take? queue).map Prod.fst).toList := by
      simp [EnterCall.reads, answered, running, Except.isOk, Except.toBool]
    cases taken : s.entered.deliveries.take? queue with
    | none =>
      rw [reads, taken]
      rw [Option.map_none, Option.toList_none, List.append_nil]
      exact holds.idle (Or.inr ⟨_, rfl, follows⟩) rfl rfl id
    | some read =>
      obtain ⟨message, d⟩ := read
      obtain ⟨first, _, underway⟩ := s.entered.deliveries.take?_arriving queue taken
      have lists := take_lists taken
      rw [reads, taken]
      dsimp only
      obtain ⟨same, points⟩ := keepListening_points
        (EnterState.set { s.entered with deliveries := d } (queuedValue message.data)) follows
      rw [same]
      refine holds.goesOn _ points rfl (fun none => ?_) (holds.fresh.keeps lists ?_)
        (fun _ dedicated => dedicated.keeps lists) (fun number registered _ still => ⟨still, fun _ hears => ?_⟩)
      · cases given.symm.trans none
      · exact fun task member => holds.fresh.underway task (underway ▸ member)
      · cases given.symm.trans registered
        show s.puts = (s.received ++ [message]) ++ d.arriving queue
        rw [hears, first, List.append_assoc]
        rfl

theorem send_frame (s : EnterState) (data : ControlData) (now : Time) :
    (s.send runId (some threadId) data now).history.controlQueue = s.history.controlQueue ∧
      (s.send runId (some threadId) data now).deliveries =
        s.deliveries.publish (some runId) (some threadId) (data.message runId) false now ∧
      (s.send runId (some threadId) data now).cancelled = s.cancelled := by
  simp only [EnterState.send, and_self]

theorem leave_frame (s : EnterState) (now : Time) :
    (s.leave runId (some threadId) now).history.controlQueue = s.history.controlQueue ∧
      (s.leave runId (some threadId) now).deliveries =
        s.deliveries.publish (some runId) (some threadId) (ControlData.done.message runId) false now ∧
      (s.leave runId (some threadId) now).cancelled = s.cancelled := by
  simp only [EnterState.leave, and_self]

variable (encode resumable) in
/-- The invariant holds after a turn of the call. -/
def HeardAfter (runId threadId : Uuid) (s : HeardState) (waiting : List SubscribedCall) (k : SubscribedCall) (reply : Reply) :
    Prop :=
  HeardInvariant runId threadId (SubscribedCall.resume encode runId threadId resumable s k reply).1
    ((SubscribedCall.resume encode runId threadId resumable s k reply).2.points ++ waiting)

/-- A client may subscribe when the listener has nothing to read. -/
theorem HeardInvariant.subscribes {run thread : Uuid}
    (holds : HeardInvariant runId threadId s (.subscribe run thread :: waiting)) (reply : Reply)
    (nothingUnread : NothingUnread runId threadId s waiting (.subscribe run thread) reply) :
    HeardAfter encode resumable runId threadId s waiting (.subscribe run thread) reply := by
  refine holds.goesOn [] (Or.inl rfl) rfl (fun _ => ⟨rfl, rfl⟩) (holds.fresh.subscribe run thread)
    (fun _ dedicated => dedicated.subscribe run thread)
    (fun queue _ dedicated running => ⟨running, fun listened hears => ?_⟩)
  have other : Listened s.entered waiting queue := by
    simpa [Listened] using listened
  exact hears.trans (congrArg (s.received ++ ·) (subscribe_arriving dedicated run thread
    (fun same same' => nothingUnread same same' queue other)).symm)

theorem HeardInvariant.delivers (holds : HeardInvariant runId threadId s (.enter .deliver :: waiting)) (reply : Reply) :
    HeardAfter encode resumable runId threadId s waiting (.enter .deliver) reply := by
  simp only [HeardAfter, SubscribedCall.resume, Turn.points_map, EnterCall.sends, EnterCall.reads, Option.toList_none,
    List.flatMap_nil, List.append_nil]
  obtain ⟨lists, underway⟩ := deliverNext_lists s.entered.deliveries
  refine holds.goesOn [] (Or.inl rfl) rfl (fun _ => ⟨rfl, rfl⟩)
    (holds.fresh.keeps lists (fun task member => holds.fresh.underway task (underway task member)))
    (fun _ dedicated => dedicated.keeps lists) (fun queue _ _ running => ⟨running, fun _ hears => ?_⟩)
  exact hears.trans (congrArg (s.received ++ ·) (Deliveries.deliverNext_arriving ..).symm)

/-- The body has ended, and the control `done` is sent. -/
theorem HeardInvariant.leaves {queue : Nat}
    (holds : HeardInvariant runId threadId s (.enter (.entered queue) :: waiting)) (reply : Reply) :
    HeardAfter encode resumable runId threadId s waiting (.enter (.entered queue)) reply := by
  simp only [HeardAfter, SubscribedCall.resume, Turn.points_map, EnterCall.sends, EnterCall.reads, List.append_nil,
    EnterCall.resume]
  cases reply.answer with
  | error e =>
    simp only [Except.isOk, Except.toBool, Bool.false_eq_true, if_false, Option.toList_none, List.flatMap_nil,
      List.append_nil]
    exact holds.idle (Or.inl rfl) rfl rfl (fun running => Bool.noConfusion running)
  | ok value =>
    simp only [Except.isOk, Except.toBool, if_true, Option.toList_some, List.flatMap_singleton]
    have follows : (SubscribedCall.enter (.entered queue)).Follows (.enter (.signalling queue)) :=
      ⟨rfl, rfl, rfl, fun same => by cases same⟩
    obtain ⟨registered, deliveries, running⟩ := leave_frame s.entered reply.now
    exact holds.sends (Or.inr ⟨_, rfl, follows⟩) .done reply.now registered deliveries running

/-- The `done` of the stream goes to the other queues. -/
theorem HeardInvariant.signals {queue : Nat}
    (holds : HeardInvariant runId threadId s (.enter (.signalling queue) :: waiting)) (reply : Reply) :
    HeardAfter encode resumable runId threadId s waiting (.enter (.signalling queue)) reply := by
  simp only [HeardAfter, SubscribedCall.resume, Turn.points_map, EnterCall.sends, EnterCall.reads, Option.toList_none,
    List.flatMap_nil, List.append_nil, EnterCall.resume]
  cases reply.answer with
  | error e => exact holds.idle (Or.inl rfl) rfl rfl (fun running => Bool.noConfusion running)
  | ok value =>
    have topic : streamDone encode runId = streamMessage runId (encode "control" "done") := rfl
    rw [topic]
    refine holds.goesOn [.enter (.closing queue)] (Or.inr ⟨_, rfl, rfl, rfl, rfl, fun same => by cases same⟩) rfl
      (fun _ => ⟨rfl, rfl⟩) (holds.fresh.publish ..) (fun _ dedicated => dedicated.keeps (publish_lists ..))
      (fun number _ dedicated running => ⟨running, fun _ hears => ?_⟩)
    have same := putStream_arriving dedicated (encode "control" "done") resumable reply.now
    exact same.symm ▸ hears

theorem HeardInvariant.closes {queue : Nat}
    (holds : HeardInvariant runId threadId s (.enter (.closing queue) :: waiting)) (reply : Reply) :
    HeardAfter encode resumable runId threadId s waiting (.enter (.closing queue)) reply := by
  simp only [HeardAfter, SubscribedCall.resume, Turn.points_map, EnterCall.sends, EnterCall.reads, Option.toList_none,
    List.flatMap_nil, List.append_nil, EnterCall.resume]
  cases reply.answer with
  | error e => exact holds.idle (Or.inl rfl) rfl rfl (fun running => Bool.noConfusion running)
  | ok value =>
    dsimp only
    split
    · exact holds.idle (Or.inl rfl) rfl rfl (fun running => Bool.noConfusion running)
    · rename_i streams removed
      have lists := removeControlQueue_lists removed
      exact holds.goesOn [] (Or.inl rfl) rfl (fun _ => ⟨rfl, rfl⟩)
        (holds.fresh.keeps lists (fun task member => holds.fresh.underway task member))
        (fun _ dedicated => dedicated.keeps lists) (fun _ _ _ running => Bool.noConfusion running)

/-- A turn of any call, wherever it waits. -/
theorem HeardInvariant.turn {k : SubscribedCall} (holds : HeardInvariant runId threadId s (k :: waiting)) (reply : Reply)
    (nothingUnread : NothingUnread runId threadId s waiting k reply) :
    HeardInvariant runId threadId (SubscribedCall.resume encode runId threadId resumable s k reply).1
      ((SubscribedCall.resume encode runId threadId resumable s k reply).2.points ++ waiting) := by
  cases k with
  | subscribe run thread => exact holds.subscribes reply nothingUnread
  | enter k =>
    cases k with
    | deliver => exact holds.delivers reply
    | entered queue => exact holds.leaves reply
    | signalling queue => exact holds.signals reply
    | closing queue => exact holds.closes reply
    | called =>
      simp only [SubscribedCall.resume, Turn.points_map, EnterCall.sends, EnterCall.reads, Option.toList_none,
        List.flatMap_nil, List.append_nil]
      exact holds.registers rfl rfl rfl
    | control requested =>
      simp only [SubscribedCall.resume, Turn.points_map, EnterCall.sends, EnterCall.reads, Option.toList_some,
        List.flatMap_singleton, List.append_nil, EnterCall.resume, returned]
      obtain ⟨registered, deliveries, running⟩ := send_frame s.entered (.action requested) reply.now
      exact holds.sends (Or.inl rfl) (.action requested) reply.now registered deliveries running
    | starting queue =>
      simp only [SubscribedCall.resume, Turn.points_map, EnterCall.sends, EnterCall.reads, Option.toList_none,
        List.flatMap_nil, List.append_nil, EnterCall.resume]
      split
      · exact holds.idle (Or.inl rfl) rfl rfl id
      · exact holds.starts
    | listening queue =>
      simp only [SubscribedCall.resume, Turn.points_map, EnterCall.sends, Option.toList_none, List.flatMap_nil,
        List.append_nil, EnterCall.resume]
      split
      · rename_i finished
        have nothing : (EnterCall.listening queue).reads s.entered reply = [] := by
          simp [EnterCall.reads, finished]
        rw [nothing, List.append_nil]
        exact holds.idle (Or.inl rfl) rfl rfl id
      · rename_i running
        exact holds.listens (by simpa using running) reply

end Turn

variable (runId threadId) in
theorem HeardInvariant.first {d : Deliveries} (fresh : Fresh d) :
    HeardInvariant runId threadId (HeardState.first runId threadId d) [.enter .called] where
  once := by simp [SubscribedCall.isEnter, EnterCall.isEnter]
  called _ := rfl
  before _ := ⟨rfl, rfl⟩
  queue k member queue at_queue := by
    cases List.mem_singleton.mp member
    cases at_queue
  fresh := fresh
  dedicated queue given := by cases given
  hears queue listened := absurd listened.2 (by simp)

end Invariant

/-- As long as nobody subscribes to the run while its listener has a message to
read, the listener receives all that is put on its queue, in order. -/
theorem listener_hears (encode : String → String → String) (runId threadId : Uuid) (resumable : Bool) {d : Deliveries}
    (fresh : Fresh d) {l : EventLoop HeardState SubscribedCall}
    (reach : (subscribedCalls encode runId threadId resumable).Reaches (NothingUnread runId threadId)
      ⟨HeardState.first runId threadId d, [.enter .called]⟩ l) : HearsAll l.state l.waiting := by
  have holds : HeardInvariant runId threadId l.state l.waiting := by
    refine reach.invariant (fun same holds => holds.perm same) (fun {s waiting k} holds new => ?_)
      (fun holds nothingUnread => holds.turn _ nothingUnread) (HeardInvariant.first runId threadId fresh)
    cases k with
    | subscribe => exact holds.made rfl rfl
    | enter k =>
      cases k with
      | control | deliver => exact holds.made rfl rfl
      | _ => cases new
  exact holds.hears

section Drained

theorem noDeliveries_fresh : Fresh noDeliveries := by
  constructor
  case underway => exact fun task member => by cases member
  all_goals exact fun thread run queue member => by cases member

/-- An interrupt reaches the queue of the listener, and a client subscribes
before the listener wakes up. -/
def subscribeFirst : List (Coroutines.Move SubscribedCall Reply) :=
  [.turn 0 plainReply, .turn 0 plainReply, .call (.enter (.control .interrupt)), .turn 2 plainReply,
    .call (.enter .deliver), .turn 2 plainReply, .call (.subscribe ⟨1⟩ ⟨2⟩), .turn 2 plainReply]

/-- The client has the interrupt, and the listener waits on. -/
theorem listener_not_hears :
    ¬ ∀ (encode : String → String → String) (runId threadId : Uuid) (resumable : Bool) (d : Deliveries), Fresh d →
      ∀ l : EventLoop HeardState SubscribedCall,
        (subscribedCalls encode runId threadId resumable).Reaches Coroutines.unrestricted
          ⟨HeardState.first runId threadId d, [.enter .called]⟩ l → HearsAll l.state l.waiting := by
  intro hears
  have performed : ((subscribedCalls (fun _ data => data) ⟨1⟩ ⟨2⟩ false).performAll
      ⟨HeardState.first ⟨1⟩ ⟨2⟩ noDeliveries, [.enter .called]⟩ subscribeFirst).isSome = true := rfl
  have lost := hears _ _ _ _ noDeliveries noDeliveries_fresh _
    (Coroutines.reaches_of_performAll (Option.some_get performed).symm) 0 ⟨rfl, Or.inr (List.mem_cons_self ..)⟩
  have put : ((Option.get _ performed).state.puts).length = 1 := rfl
  rw [lost] at put
  cases put

/-- A client subscribes while the interrupt is on its way, and the listener receives it. -/
theorem listener_hears_between :
    ∃ l : EventLoop HeardState SubscribedCall, l.state.received.length = 1 ∧ l.state.entered.done = some .interrupt ∧
      HearsAll l.state l.waiting := by
  have ofEnter : ∀ k reply s others, NothingUnread ⟨1⟩ ⟨2⟩ s others (.enter k) reply := fun _ _ _ _ => trivial
  have ofSubscribe : ∀ reply s others, (∀ queue, s.entered.deliveries.streams.contents queue = []) →
      NothingUnread ⟨1⟩ ⟨2⟩ s others (.subscribe ⟨1⟩ ⟨2⟩) reply := fun _ _ _ empty _ _ queue _ => empty queue
  have begun : (subscribedCalls (fun _ data => data) ⟨1⟩ ⟨2⟩ false).Reaches (NothingUnread ⟨1⟩ ⟨2⟩)
      ⟨HeardState.first ⟨1⟩ ⟨2⟩ noDeliveries, [.enter .called]⟩ _ := .start
  have entered := begun.turn 0 plainReply rfl (ofEnter _ _ _ _)
  have listening := entered.turn 0 plainReply rfl (ofEnter _ _ _ _)
  have asking := listening.call (k := .enter (.control .interrupt)) rfl
  have put := asking.turn (k := .enter (.control .interrupt)) 2 plainReply rfl (ofEnter _ _ _ _)
  have subscribing := put.call (k := .subscribe ⟨1⟩ ⟨2⟩) rfl
  have subscribed := subscribing.turn (k := .subscribe ⟨1⟩ ⟨2⟩) 2 plainReply rfl
    (ofSubscribe _ _ _ (fun queue => by cases queue <;> rfl))
  have delivering := subscribed.call (k := .enter .deliver) rfl
  have delivered := delivering.turn (k := .enter .deliver) 2 plainReply rfl (ofEnter _ _ _ _)
  have read := delivered.turn (k := .enter (.listening 0)) 0 plainReply rfl (ofEnter _ _ _ _)
  exact ⟨_, rfl, rfl, listener_hears (fun _ data => data) ⟨1⟩ ⟨2⟩ false noDeliveries_fresh read⟩

end Drained

end Runs

end InmemRuntime
