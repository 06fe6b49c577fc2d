import InmemRuntime.ThreadListening

namespace InmemRuntime

namespace Threads

theorem messagesAfter_ok {lastEventId : String} {messages later : List Message}
    (restored : messagesAfter lastEventId messages = .ok later) : later = messages.filter (isLater lastEventId) := by
  induction messages generalizing later with
  | nil =>
    cases restored
    rfl
  | cons message messages ih =>
    obtain ⟨after, compared, restored⟩ := bind_ok restored
    obtain ⟨others, rest, restored⟩ := bind_ok restored
    cases restored
    have same : isLater lastEventId message = after := by
      unfold Message.isAfter at compared
      unfold isLater
      cases given : message.id with
      | none => simp [given] at compared
      | some id => simpa [given] using compared
    rw [List.filter_cons, same, ih rest]

section Replay

variable (decode : Message → Except PyError (String × String)) (loads : String → Except PyError PyVal) (call : StreamCall)
  (lastEventId : String)

/-- The event that the replay yields for a stored message. -/
def laterEvent? (p : Option Uuid × Message) : Option ThreadEvent :=
  if isLater lastEventId p.2 then eventOf? decode loads call p.1 p.2 else none

def replayEvents (messages : List (Message × Option Uuid)) : List ThreadEvent :=
  messages.filterMap (fun p => eventOf? decode loads call p.2 p.1)

theorem replayEvents_run (runId : Option Uuid) (messages : List Message) :
    replayEvents decode loads call ((messages.filter (isLater lastEventId)).map (fun message => (message, runId))) =
      (messages.map (fun message => (runId, message))).filterMap (laterEvent? decode loads call lastEventId) := by
  rw [replayEvents, List.filterMap_map, List.filterMap_map, List.filterMap_filter]
  refine List.filterMap_congr (fun message _ => ?_)
  rfl

theorem restored_events {runs : List (Option Uuid × List Message)} {restored : List (List (Message × Option Uuid))}
    (read : runs.mapM (fun run => (messagesAfter lastEventId run.2).map (fun messages =>
      messages.map (fun message => (message, run.1)))) = .ok restored) :
    (replayEvents decode loads call restored.flatten : Multiset ThreadEvent) =
      ((runs.map (fun run => (run.2.map (fun message => (run.1, message)) : Multiset (Option Uuid × Message)))).sum).filterMap
        (laterEvent? decode loads call lastEventId) := by
  induction runs generalizing restored with
  | nil =>
    cases read
    rfl
  | cons run runs ih =>
    rw [List.mapM_cons] at read
    obtain ⟨first, one, read⟩ := bind_ok read
    obtain ⟨others, rest, read⟩ := bind_ok read
    cases read
    have own : first = (run.2.filter (isLater lastEventId)).map (fun message => (message, run.1)) := by
      cases after : messagesAfter lastEventId run.2 with
      | error e =>
        rw [after] at one
        cases one
      | ok later =>
        rw [after] at one
        cases one
        rw [messagesAfter_ok after]
    rw [List.map_cons, List.sum_cons, Multiset.filterMap_add, ← ih rest, List.flatten_cons, replayEvents,
      List.filterMap_append, ← Multiset.coe_add, own]
    congr 1
    rw [Multiset.filterMap_coe]
    exact congrArg _ (replayEvents_run decode loads call lastEventId run.1 run.2)

variable {call lastEventId} in
/-- The replay has the event of each later message that is stored. -/
theorem snapshot_events {s : ThreadStreams} {messages : List (Message × Option Uuid)}
    (taken : snapshot call s lastEventId = .ok messages) :
    (replayEvents decode loads call messages : Multiset ThreadEvent) =
      (storedMessages call s).filterMap (laterEvent? decode loads call lastEventId) := by
  obtain ⟨restored, read, sorted⟩ := bind_ok taken
  cases sorted
  have stored : storedMessages call s = ((((Dict.get? s.streams.messageStores (some call.threadId)).getD .empty).entries).map
      (fun run => (run.2.map (fun message => (run.1, message)) : Multiset (Option Uuid × Message)))).sum := rfl
  rw [stored, ← restored_events decode loads call lastEventId read, Multiset.coe_eq_coe]
  exact (List.perm_insertionSort _ _).filterMap _

theorem replayNext_spec (messages : List (Message × Option Uuid)) :
    match replayNext decode loads call messages with
    | .exhausted => replayEvents decode loads call messages = []
    | .yields event rest => replayEvents decode loads call messages = event :: replayEvents decode loads call rest
    | .fails _ _ => True := by
  induction messages with
  | nil => rfl
  | cons p messages ih =>
    obtain ⟨message, runId⟩ := p
    unfold replayNext
    cases replayed : replayedEvent decode loads call message runId with
    | error e => trivial
    | ok found =>
      have of : eventOf? decode loads call runId message = found := by rw [eventOf?, replayed]
      cases found with
      | some event => exact List.filterMap_cons_some of
      | none =>
        have skip : replayEvents decode loads call ((message, runId) :: messages) =
            replayEvents decode loads call messages := List.filterMap_cons_none of
        dsimp only
        rw [skip]
        exact ih

end Replay

section Turns

variable (decode : Message → Except PyError (String × String)) (loads : String → Except PyError PyVal) (call : StreamCall)
  (lastEventId : String)

/-- The events that the generator is still going to yield. -/
def StreamJoin.coming (s : ThreadStreams) : StreamJoin → Multiset ThreadEvent
  | .called | .authorizing | .logging => (storedMessages call s).filterMap (laterEvent? decode loads call lastEventId)
  | .replaying rest => (replayEvents decode loads call rest : List ThreadEvent)
  | .draining _ queues _ | .resting _ queues | .idling _ queues => comingLive decode loads call s queues

def StreamJoin.Listening (s : ThreadStreams) : StreamJoin → Prop
  | .called | .authorizing | .logging | .replaying _ => True
  | .draining seen queues todo => Listens call s seen queues ∧ ∀ queue ∈ todo, queue ∈ queues
  | .resting seen queues | .idling seen queues => Listens call s seen queues

/-- A turn moves events from those to come to those the client has got. -/
def Moves (s : ThreadStreams) (events : Multiset ThreadEvent) (received : List ThreadEvent) (out : StreamTurn) : Prop :=
  match StreamClient.next received out.2 with
  | .failed _ _ => True
  | .joining generator received => storedMessages call out.1 = storedMessages call s ∧ Numbered out.1 ∧
      out.1.underway = s.underway ∧ generator.Listening call out.1 ∧
        (received : Multiset ThreadEvent) + generator.coming decode loads call lastEventId out.1 = events

variable {decode loads call lastEventId} {s : ThreadStreams} {seen : List (Option Uuid)} {queues : Queues}
  {received : List ThreadEvent}

variable (decode loads lastEventId received) in
theorem pass_moves (listens : Listens call s seen queues) (numbered : Numbered s) {todo : Queues}
    (inside : ∀ queue ∈ todo, queue ∈ queues) (drained : Bool) :
    Moves decode loads call lastEventId s (received + comingLive decode loads call s queues) received
      (StreamJoin.pass decode loads call s seen queues todo drained) := by
  have spec := drain_spec decode loads listens inside
  unfold StreamJoin.pass
  cases pass : drain decode loads call s todo with
  | mk s' next =>
    rw [pass] at spec
    cases next with
    | exhausted =>
      obtain ⟨drains, coming, _⟩ := spec
      rw [coming]
      cases drained with
      | true => exact ⟨drains.stored, numbered.drains drains, drains.underway, listens.drains drains, rfl⟩
      | false => exact ⟨drains.stored, numbered.drains drains, drains.underway, listens.drains drains, rfl⟩
    | yields event rest =>
      obtain ⟨drains, coming, left⟩ := spec
      refine ⟨drains.stored, numbered.drains drains, drains.underway, ⟨listens.drains drains, left⟩, ?_⟩
      rw [coming, ← Multiset.coe_add, Multiset.coe_singleton, add_assoc]
      rfl
    | fails e rest => trivial

theorem Moves.of_same {s s' : ThreadStreams} {events : Multiset ThreadEvent} {out : StreamTurn}
    (moves : Moves decode loads call lastEventId s' events received out)
    (stored : storedMessages call s' = storedMessages call s) (underway : s'.underway = s.underway) :
    Moves decode loads call lastEventId s events received out := by
  unfold Moves at moves ⊢
  split
  · trivial
  · rename_i generator received' at_next
    rw [at_next] at moves
    obtain ⟨stored', numbered, underway', rest⟩ := moves
    exact ⟨stored'.trans stored, numbered, underway'.trans underway, rest⟩

theorem poll_moves (listens : Listens call s seen queues) (numbered : Numbered s) :
    Moves decode loads call lastEventId s (received + comingLive decode loads call s queues) received
      (StreamJoin.poll decode loads call s seen queues) := by
  have polls : Polls decode loads call ⟨s, seen, queues⟩ (subscribe call.threadId ⟨s, seen, queues⟩) :=
    (subscribe_polls decode loads (p := ⟨s, seen, queues⟩) listens numbered).1
  have passes := pass_moves decode loads lastEventId received polls.listens polls.numbered (fun queue member => member) false
  rw [polls.coming] at passes
  exact passes.of_same polls.stored polls.underway

theorem replay_moves (numbered : Numbered s) (messages : List (Message × Option Uuid)) :
    Moves decode loads call lastEventId s (received + (replayEvents decode loads call messages : List ThreadEvent)) received
      (StreamJoin.replay decode loads call s messages) := by
  have spec := replayNext_spec decode loads call messages
  unfold StreamJoin.replay
  cases next : replayNext decode loads call messages with
  | exhausted =>
    rw [next] at spec
    dsimp only at spec ⊢
    rw [spec]
    exact poll_moves Listens.nothing numbered
  | yields event rest =>
    rw [next] at spec
    refine ⟨rfl, numbered, rfl, trivial, ?_⟩
    rw [spec, ← Multiset.coe_add, add_assoc]
    rfl
  | fails e rest => trivial

variable (decode loads received) in
theorem resume_moves (asked : call.lastEventId = some lastEventId) (numbered : Numbered s) {generator : StreamJoin}
    (listening : generator.Listening call s) (reply : Reply) :
    Moves decode loads call lastEventId s (received + generator.coming decode loads call lastEventId s) received
      (StreamJoin.resume decode loads call s generator reply) := by
  cases generator with
  | called => exact ⟨rfl, numbered, rfl, trivial, rfl⟩
  | authorizing =>
    simp only [StreamJoin.resume]
    cases reply.answer with
    | error e => trivial
    | ok filters =>
      dsimp only
      split
      · have frame := Runs.getWithFilters_frame s.toRuntime call.threadId filters
        cases found : Threads.getWithFilters s.toRuntime call.threadId filters with
        | mk runtime result =>
          rw [found] at frame
          obtain ⟨streams, runs⟩ : runtime.streams = s.streams ∧ runtime.runs = s.runs := frame
          have stored : storedMessages call (s.withLive (s.withRuntime runtime)) = storedMessages call s := by
            rw [storedMessages, storedMessages]
            show ((Dict.get? runtime.streams.messageStores _).getD _).sum _ = _
            rw [streams]
          have kept : Numbered (s.withLive (s.withRuntime runtime)) := by
            refine ⟨fun threadId runId queue member => ?_, fun task member => ?_⟩
            · show queue < runtime.streams.queueCount
              rw [streams]
              refine numbered.queues threadId runId queue ?_
              have listed : queue ∈ (runtime.streams.queues.get? threadId runId).getD [] := member
              rw [streams] at listed
              exact listed
            · show task.1 < runtime.streams.queueCount
              rw [streams]
              exact numbered.underway task member
          cases result with
          | error e => trivial
          | ok thread =>
            cases thread with
            | none => trivial
            | some r => exact ⟨stored, kept, rfl, trivial, by rw [StreamJoin.coming, StreamJoin.coming, stored]⟩
      · exact ⟨rfl, numbered, rfl, trivial, rfl⟩
  | logging =>
    simp only [StreamJoin.resume, asked]
    cases reply.answer with
    | error e => trivial
    | ok value =>
      dsimp only
      cases taken : snapshot call s lastEventId with
      | error e => trivial
      | ok messages =>
        rw [StreamJoin.coming, ← snapshot_events decode loads taken]
        exact replay_moves numbered messages
  | replaying rest =>
    simp only [StreamJoin.resume]
    cases reply.answer with
    | error e => trivial
    | ok value => exact replay_moves numbered rest
  | draining seen queues todo =>
    simp only [StreamJoin.resume]
    cases reply.answer with
    | error e => trivial
    | ok value => exact pass_moves decode loads lastEventId received listening.1 numbered listening.2 true
  | resting seen queues | idling seen queues =>
    simp only [StreamJoin.resume]
    cases reply.answer with
    | error e => trivial
    | ok value => exact poll_moves listening numbered

section Idle

variable {seen' : List (Option Uuid)} {queues' : Queues}

end Idle

end Turns

end Threads

end InmemRuntime
