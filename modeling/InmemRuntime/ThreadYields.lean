import InmemRuntime.ThreadStreamRuns

namespace InmemRuntime

/-- Of elements with distinct keys, one with a value gives the only value with its key. -/
theorem Multiset.filterMap_filter_key {α β κ : Type*} [DecidableEq κ] {l : Multiset α} {key : α → κ} {key' : β → κ}
    {f : α → Option β} (distinct : (l.map key).Nodup) (keeps : ∀ a b, f a = some b → key' b = key a) {a : α} {b : β}
    (member : a ∈ l) (value : f a = some b) : (l.filterMap f).filter (fun b => key' b = key a) = {b} := by
  obtain ⟨rest, rfl⟩ := Multiset.exists_cons_of_mem member
  rw [Multiset.map_cons, Multiset.nodup_cons] at distinct
  rw [Multiset.filterMap_cons_some f a rest value,
    Multiset.filter_cons_of_pos (p := fun b => key' b = key a) _ (keeps a b value)]
  have none : (rest.filterMap f).filter (fun b => key' b = key a) = 0 := by
    rw [Multiset.filter_eq_nil]
    intro b' inside same
    obtain ⟨a', here, value'⟩ := Multiset.mem_filterMap f rest |>.mp inside
    refine distinct.1 (Multiset.mem_map.mpr ⟨a', here, ?_⟩)
    rw [← keeps a' b' value', same]
  rw [none]
  rfl

namespace Threads

section Balance

variable (decode : Message → Except PyError (String × String)) (loads : String → Except PyError PyVal) (call : StreamCall)
  (lastEventId : String)

structure Balanced (s : WatchedStreams) (events : Multiset ThreadEvent) : Prop where
  once : ∀ runId message event, (runId, message) ∈ s.puts → isLater lastEventId message = true →
    eventOf? decode loads call (some runId) message = some event →
    events.filter (fun e => e.id = message.id) = {event}
  known : ∀ event ∈ events, ∃ p ∈ storedMessages call s.toThreadStreams, event.id = p.2.id

/-- The events that the generator has yielded and those it is going to yield. -/
def StreamJoin.events (s : ThreadStreams) (generator : StreamJoin) (received : List ThreadEvent) : Multiset ThreadEvent :=
  received + generator.coming decode loads call lastEventId s

structure Sound (s : WatchedStreams) (generator : StreamJoin) (received : List ThreadEvent) : Prop where
  stored : WellStored call s
  listening : generator.Listening call s.toThreadStreams
  balanced : Balanced decode loads call lastEventId s
    (generator.events decode loads call lastEventId s.toThreadStreams received)

variable {decode loads call lastEventId}

theorem laterEvent?_id {p : Option Uuid × Message} {event : ThreadEvent}
    (of : laterEvent? decode loads call lastEventId p = some event) : event.id = p.2.id := by
  unfold laterEvent? at of
  split at of
  · exact eventOf?_id decode loads call of
  · cases of

/-- Before the generator looks at the stored messages, the events of all later ones are to come. -/
theorem Sound.called {s : WatchedStreams} (stored : WellStored call s) :
    Sound decode loads call lastEventId s .called [] := by
  refine ⟨stored, trivial, fun runId message event put later of => ?_, fun event member => ?_⟩
  · have value : laterEvent? decode loads call lastEventId (some runId, message) = some event := by
      rw [laterEvent?, if_pos later, of]
    show Multiset.filter _ (0 + _) = _
    rw [zero_add]
    exact Multiset.filterMap_filter_key stored.distinct (fun _ _ => laterEvent?_id) (stored.puts _ put) value
  · have inside : event ∈ (storedMessages call s.toThreadStreams).filterMap
        (laterEvent? decode loads call lastEventId) := by simpa [StreamJoin.events, StreamJoin.coming] using member
    obtain ⟨p, here, value⟩ := (Multiset.mem_filterMap _ _).mp inside
    exact ⟨p, here, laterEvent?_id value⟩

theorem Sound.turn (asked : call.lastEventId = some lastEventId) {s : WatchedStreams} {generator : StreamJoin}
    {received : List ThreadEvent} (sound : Sound decode loads call lastEventId s generator received) {reply : Reply}
    {shared : ThreadStreams} {generator' : StreamJoin} {received' : List ThreadEvent}
    (next : StreamClient.resume decode loads call s.toThreadStreams (.joining generator received) reply =
      (shared, .joining generator' received')) :
    Sound decode loads call lastEventId { s with toThreadStreams := shared } generator' received' := by
  obtain ⟨sharedIs, clientIs⟩ := Prod.mk.inj next
  have moves := resume_moves decode loads received asked sound.stored.numbered
    sound.listening reply
  rw [Moves, clientIs, sharedIs] at moves
  obtain ⟨stored, numbered, _, listening, events⟩ := moves
  refine ⟨⟨?_, ?_, ?_, numbered⟩, listening, ?_, ?_⟩
  · show ∀ p ∈ storedMessages call shared, _
    rw [stored]
    exact sound.stored.ids
  · show ((storedMessages call shared).map _).Nodup
    rw [stored]
    exact sound.stored.distinct
  · show ∀ p ∈ s.puts, _ ∈ storedMessages call shared
    rw [stored]
    exact sound.stored.puts
  · show ∀ runId message event, _ → _ → _ → (Multiset.filter _ (_ + _)) = _
    rw [events]
    exact sound.balanced.once
  · show ∀ event ∈ (_ + _ : Multiset ThreadEvent), ∃ p ∈ storedMessages call shared, _
    rw [events, stored]
    exact sound.balanced.known

/-- What does not touch messages, queues or puts leaves a client as it is. -/
theorem Sound.keeps {s : WatchedStreams} {shared : ThreadStreams} {generator : StreamJoin} {received : List ThreadEvent}
    (sound : Sound decode loads call lastEventId s generator received) (keeps : Keeps call s.toThreadStreams shared) :
    Sound decode loads call lastEventId { s with toThreadStreams := shared } generator received := by
  have coming : generator.coming decode loads call lastEventId shared =
      generator.coming decode loads call lastEventId s.toThreadStreams := by
    cases generator with
    | called | authorizing | logging => rw [StreamJoin.coming, StreamJoin.coming, keeps.stored]
    | replaying rest => rfl
    | draining seen queues todo => exact keeps.comingLive queues
    | resting seen queues | idling seen queues => exact keeps.comingLive queues
  have listening : generator.Listening call shared := by
    have before := sound.listening
    cases generator with
    | called | authorizing | logging | replaying => trivial
    | draining seen queues todo => exact ⟨before.1.keeps keeps, before.2⟩
    | resting seen queues | idling seen queues => exact Listens.keeps before keeps
  refine ⟨⟨?_, ?_, ?_, sound.stored.numbered.keeps keeps⟩, listening, ?_, ?_⟩
  · show ∀ p ∈ storedMessages call shared, _
    rw [keeps.stored]
    exact sound.stored.ids
  · show ((storedMessages call shared).map _).Nodup
    rw [keeps.stored]
    exact sound.stored.distinct
  · show ∀ p ∈ s.puts, _ ∈ storedMessages call shared
    rw [keeps.stored]
    exact sound.stored.puts
  · show ∀ runId message event, _ → _ → _ → (Multiset.filter _ (_ + generator.coming decode loads call lastEventId shared)) = _
    rw [coming]
    exact sound.balanced.once
  · show ∀ event ∈ (_ + generator.coming decode loads call lastEventId shared : Multiset ThreadEvent), ∃ p ∈ storedMessages call shared, _
    rw [coming, keeps.stored]
    exact sound.balanced.known

theorem live_puts_coming {s s' : ThreadStreams} {runId : Uuid} {message : Message}
    (published : Puts call runId message s s') {seen : List (Option Uuid)} {queues : Queues}
    (listens : Listens call s seen queues) :
    ∃ extra, comingLive decode loads call s' queues = extra + comingLive decode loads call s queues ∧
      (∀ event ∈ extra, event.id = message.id) ∧
      ∀ event, some runId ∈ seen ∧ runId ≠ call.threadId → isLater lastEventId message = true →
        eventOf? decode loads call (some runId) message = some event → extra = {event} := by
  refine ⟨_, listens.puts_coming published, fun event member => ?_, fun event hears _ of => ?_⟩
  · split at member
    · exact eventOf?_id decode loads call (Option.mem_toList.mp member)
    · exact absurd member (Multiset.notMem_zero event)
  · rw [if_pos hears, of]
    rfl

variable (decode loads lastEventId) in
/-- What a put adds to the events to come: the event of the message at most,
and that event when the generator hears it. -/
theorem puts_coming {s s' : ThreadStreams} {runId : Uuid} {message : Message} (published : Puts call runId message s s')
    {generator : StreamJoin} (listening : generator.Listening call s) :
    ∃ extra, generator.coming decode loads call lastEventId s' =
        extra + generator.coming decode loads call lastEventId s ∧
      (∀ event ∈ extra, event.id = message.id) ∧
      ∀ event, generator.Hears call runId → isLater lastEventId message = true →
        eventOf? decode loads call (some runId) message = some event → extra = {event} := by
  cases generator with
  | called | authorizing | logging =>
    refine ⟨((laterEvent? decode loads call lastEventId (some runId, message)).toList : Multiset ThreadEvent), ?_, ?_, ?_⟩
    · rw [StreamJoin.coming, StreamJoin.coming, published.stored, Multiset.filterMap_cons]
      cases laterEvent? decode loads call lastEventId (some runId, message) <;> rfl
    · intro event member
      exact laterEvent?_id (Option.mem_toList.mp member)
    · intro event _ later of
      rw [laterEvent?, if_pos later, of]
      rfl
  | replaying rest =>
    exact ⟨0, (zero_add _).symm, fun event member => absurd member (Multiset.notMem_zero event), fun _ hears => hears.elim⟩
  | draining seen queues todo => exact live_puts_coming published listening.1
  | resting seen queues | idling seen queues => exact live_puts_coming published listening

section Put

variable {s s' : WatchedStreams} {runId : Uuid} {message : Message}

theorem WellStored.put (wellStored : WellStored call s)
    (published : Puts call runId message s.toThreadStreams s'.toThreadStreams) (stamped : message.id.isSome)
    (fresh : ∀ p ∈ storedMessages call s.toThreadStreams, p.2.id ≠ message.id)
    (puts : ∀ p ∈ s'.puts, p ∈ s.puts ∨ p = (runId, message)) : WellStored call s' := by
  refine ⟨fun p member => ?_, ?_, fun p put => ?_, wellStored.numbered.puts published⟩
  · rw [published.stored] at member
    rcases Multiset.mem_cons.mp member with rfl | old
    · exact stamped
    · exact wellStored.ids p old
  · rw [published.stored, Multiset.map_cons, Multiset.nodup_cons]
    refine ⟨fun taken => ?_, wellStored.distinct⟩
    obtain ⟨p, old, same⟩ := Multiset.mem_map.mp taken
    exact fresh p old same
  · rw [published.stored]
    rcases puts p put with old | rfl
    · exact Multiset.mem_cons_of_mem (wellStored.puts p old)
    · exact Multiset.mem_cons_self _ _

theorem Balanced.put {events extra : Multiset ThreadEvent} (balanced : Balanced decode loads call lastEventId s events)
    (wellStored : WellStored call s) (published : Puts call runId message s.toThreadStreams s'.toThreadStreams)
    (fresh : ∀ p ∈ storedMessages call s.toThreadStreams, p.2.id ≠ message.id)
    (puts : ∀ p ∈ s'.puts, p ∈ s.puts ∨ p = (runId, message)) (ofMessage : ∀ event ∈ extra, event.id = message.id)
    (due : (runId, message) ∈ s'.puts → isLater lastEventId message = true → ∀ event,
      eventOf? decode loads call (some runId) message = some event → extra = {event})
    (known : ∀ event ∈ extra, ∃ p ∈ storedMessages call s'.toThreadStreams, event.id = p.2.id) :
    Balanced decode loads call lastEventId s' (extra + events) := by
  refine ⟨fun runId' message' event put later of => ?_, fun event member => ?_⟩
  · rw [Multiset.filter_add]
    rcases puts _ put with old | new
    · have apart := fresh _ (wellStored.puts _ old)
      have none : extra.filter (fun e => e.id = message'.id) = 0 := by
        rw [Multiset.filter_eq_nil]
        intro e inside same
        exact apart (same.symm.trans (ofMessage e inside))
      rw [none, zero_add]
      exact balanced.once runId' message' event old later of
    · obtain ⟨rfl, rfl⟩ := Prod.mk.inj new
      have none : events.filter (fun e => e.id = message'.id) = 0 := by
        rw [Multiset.filter_eq_nil]
        intro e inside same
        obtain ⟨p, stored, ofStored⟩ := balanced.known e inside
        exact fresh p stored (ofStored.symm.trans same)
      have carries : event.id = message'.id := eventOf?_id decode loads call of
      rw [none, add_zero, due put later event of, Multiset.filter_singleton, if_pos carries]
  · rcases Multiset.mem_add.mp member with new | old
    · exact known event new
    · obtain ⟨p, stored, same⟩ := balanced.known event old
      exact ⟨p, published.stored ▸ Multiset.mem_cons_of_mem stored, same⟩

end Put

theorem puts_listening {s s' : ThreadStreams} {runId : Uuid} {message : Message} (published : Puts call runId message s s')
    (topic : message.topic = (Runs.streamMessage runId "").topic) {generator : StreamJoin}
    (listening : generator.Listening call s) : generator.Listening call s' := by
  cases generator with
  | called | authorizing | logging | replaying => trivial
  | draining seen queues todo => exact ⟨listening.1.puts published topic, listening.2⟩
  | resting seen queues | idling seen queues => exact Listens.puts published topic listening

/-- A put that the generator hears, if it owes the message. -/
theorem Sound.put {s s' : WatchedStreams} {generator : StreamJoin} {received : List ThreadEvent}
    (sound : Sound decode loads call lastEventId s generator received) {runId : Uuid} {message : Message}
    (published : Puts call runId message s.toThreadStreams s'.toThreadStreams)
    (topic : message.topic = (Runs.streamMessage runId "").topic) (stamped : message.id.isSome)
    (fresh : ∀ p ∈ storedMessages call s.toThreadStreams, p.2.id ≠ message.id)
    (puts : ∀ p ∈ s'.puts, p ∈ s.puts ∨ (p = (runId, message) ∧ inStore call s.toThreadStreams runId = true))
    (heard : inStore call s.toThreadStreams runId = true → isLater lastEventId message = true →
      (eventOf? decode loads call (some runId) message).isSome → generator.Hears call runId) :
    Sound decode loads call lastEventId s' generator received := by
  have grown : ∀ p ∈ s'.puts, p ∈ s.puts ∨ p = (runId, message) := fun p member => (puts p member).imp_right And.left
  obtain ⟨extra, coming, ofMessage, due⟩ := puts_coming decode loads lastEventId published sound.listening
  have events : generator.events decode loads call lastEventId s'.toThreadStreams received =
      extra + generator.events decode loads call lastEventId s.toThreadStreams received := by
    rw [StreamJoin.events, coming, add_left_comm]
    rfl
  refine ⟨sound.stored.put published stamped fresh grown, puts_listening published topic sound.listening, ?_⟩
  rw [events]
  refine sound.balanced.put sound.stored published fresh grown ofMessage ?_ ?_
  · intro put later event of
    rcases puts _ put with old | ⟨_, there⟩
    · exact absurd rfl (fresh _ (sound.stored.puts _ old))
    · exact due event (heard there later (by rw [of]; rfl)) later of
  · intro event member
    exact ⟨_, published.stored ▸ Multiset.mem_cons_self _ _, ofMessage event member⟩

variable (decode loads call lastEventId) in
/-- There is one client at most, and while it joins it has what it is owed or is going to get it. -/
def Watched (s : WatchedStreams) (waiting : List StreamedCall) : Prop :=
  waiting.countP StreamedCall.isClient ≤ 1 ∧
    ∀ generator received, .client (.joining generator received) ∈ waiting →
      Sound decode loads call lastEventId s generator received

theorem create_keeps (s : ThreadStreams) (run : Run) :
    Keeps call s (s.withLive (s.withRuntime { s.toRuntime with runs := s.runs.append run })) :=
  ⟨rfl, fun _ => rfl, fun _ _ => rfl, rfl, fun _ member => member⟩

section Turn

variable {s : WatchedStreams} {others : List StreamedCall} {reply : Reply}

theorem Watched.client (asked : call.lastEventId = some lastEventId) {client : StreamClient}
    (watched : Watched decode loads call lastEventId s (.client client :: others)) :
    Watched decode loads call lastEventId ((streamedCalls decode loads call).resume s (.client client) reply).1
      (((streamedCalls decode loads call).resume s (.client client) reply).2.points ++ others) := by
  obtain ⟨one, sound⟩ := watched
  refine ⟨one, fun generator' received' member => ?_⟩
  have alone : StreamedCall.client (.joining generator' received') ∉ others := by
    intro inside
    have two : 0 < others.countP StreamedCall.isClient := List.countP_pos_iff.mpr ⟨_, inside, rfl⟩
    rw [List.countP_cons_of_pos rfl] at one
    omega
  rcases List.mem_append.mp member with mine | other
  · have next : StreamClient.joining generator' received' =
        (StreamClient.resume decode loads call s.toThreadStreams client reply).2 :=
      StreamedCall.client.inj (List.mem_singleton.mp mine)
    cases client with
    | joining generator received =>
      exact (sound generator received List.mem_cons_self).turn asked (Prod.ext rfl next.symm)
    | failed received e => cases next
  · exact absurd other alone

theorem Watched.publish {runId : Uuid} {data : String}
    (watched : Watched decode loads call lastEventId s (.publish runId data :: others))
    (increasing : IncreasingIds call s others (.publish runId data) reply)
    (heard : Heard decode loads call lastEventId s others (.publish runId data) reply) :
    Watched decode loads call lastEventId ((streamedCalls decode loads call).resume s (.publish runId data) reply).1
      (((streamedCalls decode loads call).resume s (.publish runId data) reply).2.points ++ others) := by
  obtain ⟨one, sound⟩ := watched
  refine ⟨one, fun generator received member => ?_⟩
  have fresh : ∀ p ∈ storedMessages call s.toThreadStreams, p.2.id ≠ (stamped runId data reply.now).id := by
    intro p inside same
    exact lt_irrefl _ (increasing p inside _ same)
  refine (sound generator received (List.mem_cons_of_mem _ member)).put
    (publishRun_puts call s.toThreadStreams runId data reply.now) rfl rfl fresh (fun p put => ?_)
    (fun there later passes => heard there later passes generator received member)
  by_cases there : inStore call s.toThreadStreams runId = true
  · have grown : p ∈ s.puts ++ [(runId, stamped runId data reply.now)] := by
      simpa only [streamedCalls, there, if_true] using put
    rcases List.mem_append.mp grown with old | new
    · exact Or.inl old
    · exact Or.inr ⟨List.mem_singleton.mp new, there⟩
  · have same : p ∈ s.puts := by
      simpa only [streamedCalls, there, Bool.false_eq_true, if_false] using put
    exact Or.inl same

theorem Watched.turn (asked : call.lastEventId = some lastEventId) {k : StreamedCall}
    (watched : Watched decode loads call lastEventId s (k :: others))
    (increasing : IncreasingIds call s others k reply) (heard : Heard decode loads call lastEventId s others k reply) :
    Watched decode loads call lastEventId ((streamedCalls decode loads call).resume s k reply).1
      (((streamedCalls decode loads call).resume s k reply).2.points ++ others) := by
  cases k with
  | client client => exact watched.client asked
  | publish runId data => exact watched.publish increasing heard
  | deliver =>
    exact ⟨watched.1, fun generator received member =>
      (watched.2 generator received (List.mem_cons_of_mem _ member)).keeps (deliverNext_keeps call s.toThreadStreams)⟩
  | create run =>
    exact ⟨watched.1, fun generator received member =>
      (watched.2 generator received (List.mem_cons_of_mem _ member)).keeps (create_keeps s.toThreadStreams run)⟩

end Turn

theorem mem_comingLive {s : ThreadStreams} {queues : Queues} {event : ThreadEvent}
    (coming : event ∈ comingLive decode loads call s queues) :
    ∃ queue ∈ queues, ∃ message ∈ s.deliveries.arriving queue.2, eventOf? decode loads call queue.1 message = some event := by
  induction queues with
  | nil => exact absurd coming (Multiset.notMem_zero event)
  | cons queue queues ih =>
    rw [comingLive, List.map_cons, List.sum_cons] at coming
    rcases Multiset.mem_add.mp coming with first | rest
    · exact ⟨queue, List.mem_cons_self, List.mem_filterMap.mp first⟩
    · obtain ⟨other, later, found⟩ := ih rest
      exact ⟨other, List.mem_cons_of_mem _ later, found⟩

/-- Once its queues are found empty, only what is being delivered is still to come. -/
theorem Sound.found_empty {s : WatchedStreams} {generator : StreamJoin} {received : List ThreadEvent}
    (sound : Sound decode loads call lastEventId s generator received)
    (empty : FoundEmpty call s.toThreadStreams generator) :
    AllYieldedOnce decode loads call lastEventId s received := by
  intro runId message event put delivered later of
  have all := sound.balanced.once runId message event put later of
  have none : (generator.coming decode loads call lastEventId s.toThreadStreams).filter (fun e => e.id = message.id) = 0 := by
    rw [Multiset.filter_eq_nil]
    intro e coming same
    obtain ⟨seen, queues, listens, quiet, here⟩ : ∃ seen queues, Listens call s.toThreadStreams seen queues ∧
        (∀ queue ∈ queues, s.streams.contents queue.2 = []) ∧ e ∈ comingLive decode loads call s.toThreadStreams queues := by
      cases generator with
      | resting seen queues | idling seen queues => exact ⟨seen, queues, sound.listening, empty.2, coming⟩
      | _ => exact empty.elim
    obtain ⟨queue, member, other, arrives, ofOther⟩ := mem_comingLive here
    have underway : ∃ task ∈ s.underway, task.2 = other := by
      have waits := arrives
      rw [Deliveries.arriving, show s.deliveries.streams.contents queue.2 = [] from quiet queue member, List.nil_append] at waits
      obtain ⟨task, inside, rfl⟩ := List.mem_map.mp waits
      exact ⟨task, (List.mem_filter.mp inside).1, rfl⟩
    have sameId : other.id = message.id := (eventOf?_id decode loads call ofOther).symm.trans same
    have samePut : (queue.1, other) = (some runId, message) :=
      Multiset.inj_on_of_nodup_map sound.stored.distinct _ (listens.arrivals queue member other arrives).1 _
        (sound.stored.puts _ put) sameId
    obtain ⟨task, inside, isOther⟩ := underway
    exact delivered task inside (isOther.trans (congrArg Prod.snd samePut))
  have got : (received.filter (fun e => e.id = message.id) : Multiset ThreadEvent) = {event} := by
    rw [← all, StreamJoin.events, Multiset.filter_add, none, add_zero, Multiset.filter_coe]
  exact Multiset.coe_eq_singleton.mp got

end Balance

/-- When the generator listens to every run in the store and has found all its
queues empty, each message it owes has been yielded once. -/
theorem thread_stream_yields_once (decode : Message → Except PyError (String × String))
    (loads : String → Except PyError PyVal) (call : StreamCall) {lastEventId : String}
    (asked : call.lastEventId = some lastEventId) {initial : WatchedStreams} (stored : WellStored call initial)
    {l : EventLoop WatchedStreams StreamedCall}
    (reach : (streamedCalls decode loads call).Reaches
      (fun s others k reply => IncreasingIds call s others k reply ∧ Heard decode loads call lastEventId s others k reply)
      ⟨initial, [.client (.joining .called [])]⟩ l)
    {generator : StreamJoin} {received : List ThreadEvent} (waits : .client (.joining generator received) ∈ l.waiting)
    (empty : FoundEmpty call l.state.toThreadStreams generator) :
    AllYieldedOnce decode loads call lastEventId l.state received := by
  have watched : Watched decode loads call lastEventId l.state l.waiting := by
    refine reach.invariant (fun {s waiting waiting'} same watched => ?_) (fun {s waiting k} watched new => ?_)
      (fun {s others k reply} watched met => watched.turn asked met.1 met.2) ?_
    · exact ⟨same.countP_eq _ ▸ watched.1, fun generator received member =>
        watched.2 generator received (same.mem_iff.mpr member)⟩
    · have env : k.isClient = false := by simpa [streamedCalls] using new
      refine ⟨?_, fun generator received member => ?_⟩
      · rw [List.countP_cons_of_neg (by simp [env])]
        exact watched.1
      · rcases List.mem_cons.mp member with rfl | old
        · cases env
        · exact watched.2 generator received old
    · refine ⟨le_rfl, fun generator received member => ?_⟩
      cases List.mem_singleton.mp member
      exact .called stored
  exact (watched.2 generator received waits).found_empty empty

section Missed

/-- One run of the thread, nothing stored, no queue. -/
def watchedRun : WatchedStreams := { Runs.oneRun with threadStreams := .empty, puts := [] }

def resumedStream : StreamCall := ⟨⟨2⟩, some "0", ["run_modes"]⟩

def noJson (_ : String) : Except PyError PyVal := .error (.valueError "")

def streamedEvent (payload id : String) : ThreadEvent := ⟨"values", payload, some id, (⟨1⟩ : Uuid).str⟩

theorem watchedRun_stored : WellStored resumedStream watchedRun := by
  refine ⟨fun p member => absurd member (Multiset.notMem_zero p), Multiset.nodup_zero, fun p member => ?_,
    ⟨fun threadId runId queue member => ?_, fun task member => ?_⟩⟩
  all_goals cases member

instance (call : StreamCall) (s : WatchedStreams) (others : List StreamedCall) (k : StreamedCall) (reply : Reply) :
    Decidable (IncreasingIds call s others k reply) :=
  match k with
  | .publish _ _ => inferInstanceAs (Decidable (∀ p ∈ storedMessages call s.toThreadStreams, ∀ id ∈ p.2.id,
      id < StreamManager.generateMsSeqId reply.now))
  | .client _ | .deliver | .create _ => inferInstanceAs (Decidable True)

/-- A message is put while the client holds the first event of the replay. -/
def publishDuringReplay : List (Coroutines.Move StreamedCall Reply) :=
  [.call (.publish ⟨1⟩ "a"), .turn 1 (Runs.replyAt 1000), .turn 0 plainReply, .turn 0 plainReply,
    .turn 0 plainReply, .call (.publish ⟨1⟩ "b"), .turn 1 (Runs.replyAt 2000), .turn 0 plainReply]

theorem publishDuringReplay_performed :
    ((streamedCalls Runs.plainDecode noJson resumedStream).performAllIf (IncreasingIds resumedStream)
      ⟨watchedRun, [.client (.joining .called [])]⟩ publishDuringReplay).isSome = true := by decide +kernel

/-- It is neither replayed nor queued. -/
theorem thread_stream_misses :
    ¬ ∀ (decode : Message → Except PyError (String × String)) (loads : String → Except PyError PyVal) (call : StreamCall)
      (lastEventId : String), call.lastEventId = some lastEventId → ∀ initial : WatchedStreams, WellStored call initial →
        ∀ l : EventLoop WatchedStreams StreamedCall,
          (streamedCalls decode loads call).Reaches (IncreasingIds call) ⟨initial, [.client (.joining .called [])]⟩ l →
            ∀ generator received, .client (.joining generator received) ∈ l.waiting →
              FoundEmpty call l.state.toThreadStreams generator → AllYieldedOnce decode loads call lastEventId l.state received := by
  intro once
  have all := once Runs.plainDecode noJson resumedStream "0" rfl watchedRun watchedRun_stored _
    (Coroutines.Reaches.performAllIf .start (Option.some_get publishDuringReplay_performed).symm)
    (.idling [some ⟨2⟩, some ⟨1⟩] [(some ⟨2⟩, 0), (some ⟨1⟩, 1)]) [streamedEvent "a" "1-0"] (List.mem_singleton_self _)
    ⟨by decide +kernel, by decide +kernel⟩
  have missed := all ⟨1⟩ (stamped ⟨1⟩ "b" 2000) (streamedEvent "b" "2-0") (List.mem_cons_of_mem _ List.mem_cons_self)
    (fun task member => by cases member) rfl rfl
  exact absurd missed (by decide +kernel)

/-- Before the client joins one message is put, and one more when it listens. -/
theorem thread_stream_yields_both :
    ∃ (l : EventLoop WatchedStreams StreamedCall) (generator : StreamJoin),
      .client (.joining generator [streamedEvent "a" "1-0", streamedEvent "b" "2-0"]) ∈ l.waiting ∧
        FoundEmpty resumedStream l.state.toThreadStreams generator ∧ l.state.puts.length = 2 ∧
        AllYieldedOnce Runs.plainDecode noJson resumedStream "0" l.state
          [streamedEvent "a" "1-0", streamedEvent "b" "2-0"] := by
  have begun : (streamedCalls Runs.plainDecode noJson resumedStream).Reaches
      (fun s others k reply => IncreasingIds resumedStream s others k reply ∧
        Heard Runs.plainDecode noJson resumedStream "0" s others k reply)
      ⟨watchedRun, [.client (.joining .called [])]⟩ _ := .start
  have publishing := begun.call (k := StreamedCall.publish ⟨1⟩ "a") rfl
  have published := publishing.turn (k := StreamedCall.publish ⟨1⟩ "a") 1 (Runs.replyAt 1000) rfl
    ⟨of_decide_eq_true rfl, fun _ _ _ generator received waits => by
      cases List.mem_singleton.mp waits
      trivial⟩
  have authorizing := published.turn 0 plainReply rfl ⟨trivial, trivial⟩
  have logging := authorizing.turn 0 plainReply rfl ⟨trivial, trivial⟩
  have replaying := logging.turn 0 plainReply rfl ⟨trivial, trivial⟩
  have idling := replaying.turn 0 plainReply rfl ⟨trivial, trivial⟩
  have publishing' := idling.call (k := StreamedCall.publish ⟨1⟩ "b") rfl
  have published' := publishing'.turn (k := StreamedCall.publish ⟨1⟩ "b") 1 (Runs.replyAt 2000) rfl
    ⟨of_decide_eq_true rfl, fun _ _ _ generator received waits => by
      cases List.mem_singleton.mp waits
      exact ⟨List.mem_cons_of_mem _ List.mem_cons_self, by decide⟩⟩
  have delivering := published'.call (k := StreamedCall.deliver) rfl
  have delivered := delivering.turn (k := StreamedCall.deliver) 1 plainReply rfl ⟨trivial, trivial⟩
  have draining := delivered.turn 0 plainReply rfl ⟨trivial, trivial⟩
  have resting := draining.turn 0 plainReply rfl ⟨trivial, trivial⟩
  refine ⟨_, .resting [some ⟨2⟩, some ⟨1⟩] [(some ⟨2⟩, 0), (some ⟨1⟩, 1)], ?_, ?_, ?_,
    thread_stream_yields_once Runs.plainDecode noJson resumedStream rfl watchedRun_stored resting
      (List.mem_singleton_self _) ⟨by decide +kernel, by decide +kernel⟩⟩
  · exact List.mem_singleton_self _
  · exact ⟨by decide +kernel, by decide +kernel⟩
  · decide +kernel

end Missed

end Threads

end InmemRuntime
