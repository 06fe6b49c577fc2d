import InmemRuntime.JoinDelivery
import InmemRuntime.ThreadReads

namespace InmemRuntime

namespace Runs

section Publishing

variable {call : JoinCall} {s : LiveRuntime}

/-- A message of the run's stream is no control message: no character of its
topic is an `o`. -/
theorem streamTopic (runId : Uuid) (data : String) :
    PyVal.isSubstring "control" (streamMessage runId data).topic = false := by
  rw [PyVal.isSubstring, List.any_eq_false]
  intro rest tail isPrefix
  have inRest : 'o' ∈ rest := (List.isPrefixOf_iff_prefix.mp isPrefix).subset (by decide)
  have inTopic : 'o' ∈ "run:".toList ++ runId.chars ++ ":stream".toList := by
    have := ((List.mem_tails _ _).mp tail).subset inRest
    simpa [streamMessage, toString] using this
  rcases List.mem_append.mp inTopic with early | late
  · rcases List.mem_append.mp early with first | inId
    · exact absurd first (by decide)
    · exact absurd (Uuid.chars_isUuidChar inId) (by decide)
  · exact absurd late (by decide)

def stampedMessage (call : JoinCall) (data : String) (now : Time) : Message :=
  { streamMessage call.runId data with id := some (StreamManager.generateMsSeqId now) }

theorem publishTo_stored (data : String) (now : Time) :
    call.stored (publishTo call s data now) = call.stored s ++ [stampedMessage call data now] := by
  simp only [JoinCall.stored, publishTo, LiveRuntime.withDeliveries, Deliveries.publish, LiveRuntime.deliveries,
    StreamManager.record_of_stream _ _ _ _ _ (streamTopic call.runId data), if_true, StreamManager.stored,
    Nested.get?_set_self, Option.getD_some, stampedMessage]

theorem publishTo_queues (data : String) (now : Time) :
    call.queuesOf (publishTo call s data now) = call.queuesOf s ∧
      (publishTo call s data now).streams.queueCount = s.streams.queueCount := by
  simp only [JoinCall.queuesOf, publishTo, LiveRuntime.withDeliveries, Deliveries.publish, LiveRuntime.deliveries,
    StreamManager.record_of_stream _ _ _ _ _ (streamTopic call.runId data), Nested.touch, Nested.get?_set_self,
    Option.getD_some, and_self]

/-- A queue that is listed once gets the message once. -/
theorem publishTo_arriving {queue : Nat} (once : (call.queuesOf s).count queue = 1) (data : String) (now : Time) :
    (publishTo call s data now).deliveries.arriving queue =
      s.deliveries.arriving queue ++ [stampedMessage call data now] := by
  have published : (publishTo call s data now).deliveries =
      s.deliveries.publish (some call.runId) (some call.threadId) (streamMessage call.runId data) true now := by
    rw [publishTo, LiveRuntime.withDeliveries_deliveries]
  rw [published, Deliveries.publish_arriving,
    StreamManager.record_of_stream _ _ _ _ _ (streamTopic call.runId data)]
  have tasks := Deliveries.tasks_for queue (call.queuesOf s) (stampedMessage call data now)
  rw [once] at tasks
  exact congrArg (s.deliveries.arriving queue ++ ·) tasks

end Publishing

section Replay

variable (decode : Message → Except PyError (String × String)) (call : JoinCall) (lastEventId : String)

def comesLater (message : Message) : Bool := message.id.any (fun id => lastEventId < id)

/-- The replay passes over the message. -/
def Quiet (message : Message) : Prop :=
  comesLater lastEventId message → isDone decode message = false ∧ eventOf? decode call message = none

theorem isDone_of_event {message : Message} (passes : (eventOf? decode call message).isSome) :
    isDone decode message = false := by
  unfold eventOf? at passes
  unfold isDone
  cases decoded : decode message with
  | error e => rfl
  | ok pair =>
    by_cases control : pair.1 = "control"
    · simp [decoded, control] at passes
    · simp [control]

theorem isAfter_eq {message : Message} {after : Bool} (compared : message.isAfter lastEventId = .ok after) :
    comesLater lastEventId message = after := by
  unfold Message.isAfter at compared
  unfold comesLater
  cases given : message.id with
  | none => simp [given] at compared
  | some id => simpa [given] using compared

/-- What a replay of the messages has passed over, and what it stops at. -/
def Passed (messages : List Message) (next : Nat) : Replayed → Prop
  | .exhausted => ∀ message ∈ messages, Quiet decode call lastEventId message
  | .done => ∃ before message after, messages = before ++ message :: after ∧
      (∀ m ∈ before, Quiet decode call lastEventId m) ∧ isDone decode message = true
  | .yields event next' => ∃ before message after, messages = before ++ message :: after ∧
      (∀ m ∈ before, Quiet decode call lastEventId m) ∧ isWanted decode call lastEventId message = true ∧
        eventOf? decode call message = some event ∧ next' = next + before.length + 1
  | .fails _ => True

/-- A message that is passed over goes in front of those before the stop. -/
theorem Passed.skip {message : Message} {rest : List Message} {next : Nat} {replayed : Replayed}
    (quiet : Quiet decode call lastEventId message) (later : Passed decode call lastEventId rest (next + 1) replayed) :
    Passed decode call lastEventId (message :: rest) next replayed := by
  cases replayed with
  | exhausted => exact List.forall_mem_cons.mpr ⟨quiet, later⟩
  | done =>
    obtain ⟨before, stop, after, split, passed, done⟩ := later
    exact ⟨message :: before, stop, after, by rw [split]; rfl, List.forall_mem_cons.mpr ⟨quiet, passed⟩, done⟩
  | yields event next' =>
    obtain ⟨before, stop, after, split, passed, wanted, event, position⟩ := later
    refine ⟨message :: before, stop, after, by rw [split]; rfl, List.forall_mem_cons.mpr ⟨quiet, passed⟩,
      wanted, event, ?_⟩
    rw [position, List.length_cons]
    omega
  | fails e => trivial

theorem replay_spec (messages : List Message) (next : Nat) :
    Passed decode call lastEventId messages next (replay decode call lastEventId messages next) := by
  induction messages generalizing next with
  | nil => exact fun message member => absurd member List.not_mem_nil
  | cons message rest ih =>
    have skip (quiet : Quiet decode call lastEventId message) := Passed.skip decode call lastEventId quiet (ih (next + 1))
    unfold replay
    cases compared : message.isAfter lastEventId with
    | error e => trivial
    | ok after =>
      have later := isAfter_eq lastEventId compared
      cases after with
      | false => exact skip (fun isLater => absurd isLater (by simp [later]))
      | true =>
        cases decoded : decode message with
        | error e => trivial
        | ok pair =>
          obtain ⟨mode, payload⟩ := pair
          dsimp only
          by_cases control : mode = "control"
          · simp only [control, if_true]
            by_cases done : payload = "done"
            · simp only [done, if_true]
              exact ⟨[], message, rest, rfl, by simp, by simp [isDone, decoded, control, done]⟩
            · simp only [done, if_false]
              exact skip (fun _ => ⟨by simp [isDone, decoded, done], by simp [eventOf?, decoded, control]⟩)
          · simp only [control, if_false]
            by_cases passes : runStreamModeMatches mode call.streamMode = true
            · simp only [passes, if_true]
              have event : eventOf? decode call message = some (.message mode payload message.id) := by
                simp [eventOf?, decoded, control, passes]
              refine ⟨[], message, rest, rfl, by simp, ?_, event, rfl⟩
              rw [isWanted, event]
              simpa [comesLater] using later
            · simp only [passes, Bool.false_eq_true, if_false]
              exact skip (fun _ => ⟨by simp [isDone, decoded, control], by simp [eventOf?, decoded, passes]⟩)

variable {decode call lastEventId}

theorem not_wanted_of_quiet {message : Message} (quiet : Quiet decode call lastEventId message) :
    isWanted decode call lastEventId message = false := by
  by_cases later : comesLater lastEventId message = true
  · simp [isWanted, (quiet later).2]
  · have early : message.id.any (fun id => lastEventId < id) = false := by simpa [comesLater] using later
    rw [isWanted, early, Bool.false_and]

theorem filter_wanted_of_quiet {messages : List Message} (quiet : ∀ m ∈ messages, Quiet decode call lastEventId m) :
    messages.filter (isWanted decode call lastEventId) = [] :=
  List.filter_eq_nil_iff.mpr (fun message member => by simp [not_wanted_of_quiet (quiet message member)])

end Replay

section Following

variable (decode : Message → Except PyError (String × String)) (call : JoinCall) (lastEventId : String)

/-- The wanted messages that have been put. -/
def wanted (s : LiveRuntime) : List Message := (call.stored s).filter (isWanted decode call lastEventId)

def isLaterEvent : RunEvent → Bool
  | .message _ _ id => id.any (fun id => lastEventId < id)
  | .error _ => false

/-- Of the events with a later id, the client has got those of `messages`. -/
def Got (received : List RunEvent) (messages : List Message) : Prop :=
  received.filter (isLaterEvent lastEventId) = messages.filterMap (eventOf? decode call)

/-- The client has wanted messages in order, and all that are owed. -/
def Served (s : LiveRuntime) (received : List RunEvent) : Prop :=
  (∃ messages, Got decode call lastEventId received messages ∧
    messages.Sublist (wanted decode call lastEventId s)) ∧
    ∀ message ∈ owed decode call lastEventId (call.stored s),
      ∀ event, eventOf? decode call message = some event → event ∈ received

/-- What the client has and what its queue holds before a `done` are wanted
messages in order, and no wanted message is anywhere else. -/
def Follows (s : LiveRuntime) (queue : Nat) (received : List RunEvent) : Prop :=
  ∃ messages, Got decode call lastEventId received messages ∧
    (messages ++ ((s.deliveries.arriving queue).takeWhile (fun m => !isDone decode m)).filter
      (isWanted decode call lastEventId)).Sublist (wanted decode call lastEventId s) ∧
    ∀ message ∈ wanted decode call lastEventId s, message ∈ messages ∨ message ∈ s.deliveries.arriving queue

/-- The events of a run found by `Runs.get` carry the ids of their messages. -/
def ResumableRef (s : LiveRuntime) (run : Option Nat) : Prop :=
  ∀ r, run = some r → ((s.runs.get r).kwargs.get? "resumable").any PyVal.truthy = true

def Join.Phase (s : LiveRuntime) : Join → List RunEvent → Prop
  | .called _, received | .authorizing _, received | .gettingRun _, received => received = []
  | .replaying _ run next, received =>
    ResumableRef s run ∧ next ≤ (call.stored s).length ∧
      received = (((call.stored s).take next).filter (isWanted decode call lastEventId)).filterMap (eventOf? decode call) ∧
      ∀ message ∈ (call.stored s).take next, comesLater lastEventId message → isDone decode message = false
  | .listening queue run, received | .handing queue run, received =>
    ResumableRef s run ∧ Follows decode call lastEventId s queue received
  | .checking queue, received | .breaking queue, received => Follows decode call lastEventId s queue received

def Subscriber.Sound (s : LiveRuntime) : Subscriber → Prop
  | .subscribing => s.streams.queueCount ∉ call.queuesOf s
  | .joining generator received =>
    (call.queuesOf s).count generator.queue = 1 ∧ generator.Phase decode call lastEventId s received
  | .ended received => Served decode call lastEventId s received
  | .failed _ _ => True

variable {decode call lastEventId} {s s' : LiveRuntime} {received : List RunEvent} {queue : Nat} {message : Message}

theorem eventOf?_isLater {event : RunEvent} (of : eventOf? decode call message = some event) :
    isLaterEvent lastEventId event = comesLater lastEventId message := by
  unfold eventOf? at of
  split at of
  · split at of
    · cases of
      rfl
    · cases of
  · cases of

theorem eventOf?_id {event : RunEvent} {other : Message} (of : eventOf? decode call message = some event)
    (of' : eventOf? decode call other = some event) : message.id = other.id := by
  unfold eventOf? at of of'
  split at of
  · split at of
    · split at of'
      · split at of'
        · have same := of.trans of'.symm
          rw [Option.some.injEq, RunEvent.message.injEq] at same
          exact same.2.2
        · cases of'
      · cases of'
    · cases of
  · cases of

theorem owed_sub_wanted (member : message ∈ owed decode call lastEventId (call.stored s)) :
    message ∈ wanted decode call lastEventId s := by
  obtain ⟨early, isWanted⟩ := List.mem_filter.mp member
  exact List.mem_filter.mpr ⟨(List.takeWhile_sublist _).subset early, isWanted⟩

/-- The events of wanted messages have later ids. -/
theorem filter_later_events (messages : List Message) :
    ((messages.filter (isWanted decode call lastEventId)).filterMap (eventOf? decode call)).filter
        (isLaterEvent lastEventId) =
      (messages.filter (isWanted decode call lastEventId)).filterMap (eventOf? decode call) := by
  rw [List.filter_eq_self]
  intro event member
  obtain ⟨message, inWanted, of⟩ := List.mem_filterMap.mp member
  have isWanted := (List.mem_filter.mp inWanted).2
  rw [eventOf?_isLater of]
  exact (Bool.and_eq_true_iff.mp isWanted).1

/-- The replay has gone over all that is stored. -/
theorem follows_of_replayed (early : ∀ m ∈ (s.deliveries.arriving queue).takeWhile (fun m => !isDone decode m),
      isWanted decode call lastEventId m = false) :
    Follows decode call lastEventId s queue
      ((wanted decode call lastEventId s).filterMap (eventOf? decode call)) := by
  refine ⟨wanted decode call lastEventId s, filter_later_events _, ?_, fun message member => Or.inl member⟩
  rw [List.filter_eq_nil_iff.mpr (fun message member => by simp [early message member]), List.append_nil]

/-- The client gets the event of the next message. -/
theorem Follows.gets {event : RunEvent} (follows : Follows decode call lastEventId s queue received)
    (next : s.deliveries.arriving queue = message :: s'.deliveries.arriving queue)
    (same : call.stored s' = call.stored s) (of : eventOf? decode call message = some event) :
    Follows decode call lastEventId s' queue (received ++ [event]) := by
  have kept : wanted decode call lastEventId s' = wanted decode call lastEventId s := by rw [wanted, wanted, same]
  obtain ⟨messages, got, inOrder, somewhere⟩ := follows
  have notDone : isDone decode message = false := isDone_of_event decode call (by simp [of])
  simp only [next, List.takeWhile_cons, notDone, Bool.not_false, if_true, List.filter_cons, List.mem_cons] at inOrder somewhere
  have isLater : isLaterEvent lastEventId event = comesLater lastEventId message := eventOf?_isLater of
  by_cases isWanted' : isWanted decode call lastEventId message = true
  · have later : comesLater lastEventId message = true := (Bool.and_eq_true_iff.mp isWanted').1
    refine ⟨messages ++ [message], ?_, ?_, ?_⟩
    · rw [Got, List.filter_append, got, List.filterMap_append]
      simp [isLater, later, of]
    · rw [kept, List.append_assoc]
      simpa [isWanted'] using inOrder
    · intro m member
      rw [kept] at member
      rcases somewhere m member with before | rfl | after
      · exact Or.inl (List.mem_append_left _ before)
      · exact Or.inl (List.mem_append_right _ (List.mem_singleton_self _))
      · exact Or.inr after
  · have early : comesLater lastEventId message = false := by
      simpa [isWanted, of, comesLater] using isWanted'
    refine ⟨messages, ?_, ?_, ?_⟩
    · rw [Got, List.filter_append, got]
      simp [isLater, early]
    · rw [kept]
      simpa [isWanted'] using inOrder
    · intro m member
      rw [kept] at member
      rcases somewhere m member with before | rfl | after
      · exact Or.inl before
      · exact absurd (List.mem_filter.mp member).2 isWanted'
      · exact Or.inr after

/-- The next message has no event for the client. -/
theorem Follows.skips (follows : Follows decode call lastEventId s queue received)
    (next : s.deliveries.arriving queue = message :: s'.deliveries.arriving queue)
    (same : call.stored s' = call.stored s) (notDone : isDone decode message = false)
    (none : eventOf? decode call message = none) : Follows decode call lastEventId s' queue received := by
  have kept : wanted decode call lastEventId s' = wanted decode call lastEventId s := by rw [wanted, wanted, same]
  obtain ⟨messages, got, inOrder, somewhere⟩ := follows
  have unwanted : isWanted decode call lastEventId message = false := by simp [isWanted, none]
  refine ⟨messages, got, ?_, fun m member => ?_⟩
  · rw [kept]
    simpa [next, notDone, unwanted] using inOrder
  · rw [kept] at member
    rcases somewhere m member with before | inQueue
    · exact Or.inl before
    · rw [next] at inQueue
      rcases List.mem_cons.mp inQueue with rfl | after
      · exact absurd (List.mem_filter.mp member).2 (by simp [unwanted])
      · exact Or.inr after

/-- The generator ends when it has yielded what its queue still owes. -/
theorem Follows.stops (follows : Follows decode call lastEventId s queue received)
    (served : ∀ m ∈ s.deliveries.arriving queue, m ∈ owed decode call lastEventId (call.stored s) →
      ∀ event, eventOf? decode call m = some event → event ∈ received) :
    Served decode call lastEventId s received := by
  obtain ⟨messages, got, inOrder, somewhere⟩ := follows
  refine ⟨⟨messages, got, (List.sublist_append_left _ _).trans inOrder⟩, fun m member event of => ?_⟩
  rcases somewhere m (owed_sub_wanted member) with before | inQueue
  · have gotIt : event ∈ messages.filterMap (eventOf? decode call) := List.mem_filterMap.mpr ⟨m, before, of⟩
    rw [← got] at gotIt
    exact (List.mem_filter.mp gotIt).1
  · exact served m inQueue member event of

theorem takeWhile_append_sublist {α : Type} (p : α → Bool) (l : List α) (a : α) :
    ((l ++ [a]).takeWhile p).Sublist (l.takeWhile p ++ [a]) := by
  induction l with
  | nil =>
    by_cases pass : p a = true
    · simp [pass]
    · simp [pass]
  | cons b l ih =>
    by_cases pass : p b = true
    · simpa [pass] using ih
    · simp [pass]

theorem Follows.published (follows : Follows decode call lastEventId s queue received)
    (stored : call.stored s' = call.stored s ++ [message])
    (arriving : s'.deliveries.arriving queue = s.deliveries.arriving queue ++ [message]) :
    Follows decode call lastEventId s' queue received := by
  obtain ⟨messages, got, inOrder, somewhere⟩ := follows
  have grown : wanted decode call lastEventId s' =
      wanted decode call lastEventId s ++ [message].filter (isWanted decode call lastEventId) := by
    rw [wanted, wanted, stored, List.filter_append]
  refine ⟨messages, got, ?_, fun m member => ?_⟩
  · rw [grown, arriving]
    have ahead := (takeWhile_append_sublist (fun m => !isDone decode m) (s.deliveries.arriving queue) message).filter
      (isWanted decode call lastEventId)
    rw [List.filter_append] at ahead
    refine ((List.Sublist.refl messages).append ahead).trans ?_
    rw [← List.append_assoc]
    exact inOrder.append (List.Sublist.refl _)
  · rw [grown] at member
    rw [arriving]
    rcases List.mem_append.mp member with old | new
    · exact (somewhere m old).imp_right (List.mem_append_left _)
    · exact Or.inr (List.mem_append_right _ (List.mem_filter.mp new).1)

theorem Served.published (served : Served decode call lastEventId s received)
    (stored : call.stored s' = call.stored s ++ [message])
    (nothing : owed decode call lastEventId (call.stored s') = owed decode call lastEventId (call.stored s)) :
    Served decode call lastEventId s' received := by
  obtain ⟨⟨messages, got, inOrder⟩, all⟩ := served
  refine ⟨⟨messages, got, ?_⟩, ?_⟩
  · rw [wanted, stored, List.filter_append]
    exact inOrder.trans (List.sublist_append_left _ _)
  · rw [nothing]
    exact all

end Following

theorem getWithFilters_frame (s : Runtime) (threadId : Uuid) (filters : PyVal) :
    (Threads.getWithFilters s threadId filters).1.streams = s.streams ∧
      (Threads.getWithFilters s threadId filters).1.runs = s.runs := by
  have completed := Threads.getWithFilters_completed s threadId filters
  exact ⟨completed.streams, completed.runs⟩

theorem visibleRun_frame (s : Runtime) (runId threadId : Uuid) (filters : PyVal) :
    (visibleRun s runId threadId filters).1.streams = s.streams ∧
      (visibleRun s runId threadId filters).1.runs = s.runs := by
  unfold visibleRun
  split
  · exact ⟨rfl, rfl⟩
  · rename_i r _
    have frame := getWithFilters_frame s (s.runs.get r).threadId filters
    split
    · split
      all_goals
        rename_i found
        rw [found] at frame
        exact frame
    · exact ⟨rfl, rfl⟩

theorem find?_of_visibleRun {s : Runtime} {runId threadId : Uuid} {filters : PyVal} {r : Nat}
    (visible : (visibleRun s runId threadId filters).2 = .ok (some r)) : s.runs.find? (byIds runId threadId) = some r := by
  unfold visibleRun at visible
  split at visible
  · cases visible
  · rename_i found
    split at visible
    · split at visible
      · cases visible
      · split at visible
        · cases visible
          exact found
        · cases visible
    · cases visible
      exact found

theorem drainInto_frame (m : StreamManager) (queue : Nat) (controlQueues : List Nat) :
    ∃ contents, m.drainInto queue controlQueues = { m with contents := contents } := by
  induction controlQueues generalizing m with
  | nil => exact ⟨m.contents, rfl⟩
  | cons first rest ih =>
    rw [StreamManager.drainInto]
    obtain ⟨contents, same⟩ := ih { m with
      contents := fun i =>
        if i = queue then m.contents queue ++ m.contents first else if i = first then [] else m.contents i }
    exact ⟨contents, same⟩

section Turns

variable {decode : Message → Except PyError (String × String)} {call : JoinCall} {lastEventId : String}
variable {s s' : LiveRuntime} {received : List RunEvent} {queue : Nat}

variable (call) in
/-- What the client's invariant speaks of is the same. -/
structure SameView (s s' : LiveRuntime) : Prop where
  stored : call.stored s' = call.stored s
  arriving : ∀ queue, s'.deliveries.arriving queue = s.deliveries.arriving queue
  queues : call.queuesOf s' = call.queuesOf s
  queueCount : s'.streams.queueCount = s.streams.queueCount
  kwargs : ∀ r, (s'.runs.get r).kwargs = (s.runs.get r).kwargs

theorem SameView.of_frame {runtime : Runtime} (streams : runtime.streams = s.streams) (runs : runtime.runs = s.runs) :
    SameView call s (s.withRuntime runtime) where
  stored := by simp only [JoinCall.stored, LiveRuntime.withRuntime, streams]
  arriving queue := by simp only [LiveRuntime.deliveries, LiveRuntime.withRuntime, streams]
  queues := by simp only [JoinCall.queuesOf, LiveRuntime.withRuntime, streams]
  queueCount := by simp only [LiveRuntime.withRuntime, streams]
  kwargs r := by simp only [LiveRuntime.withRuntime, runs]

theorem SameView.served (same : SameView call s s') (served : Served decode call lastEventId s received) :
    Served decode call lastEventId s' received := by
  rw [Served, wanted, same.stored]
  exact served

theorem SameView.follows (same : SameView call s s') (follows : Follows decode call lastEventId s queue received) :
    Follows decode call lastEventId s' queue received := by
  rw [Follows, wanted, same.stored, same.arriving]
  exact follows

theorem SameView.resumable (same : SameView call s s') {run : Option Nat} (resumable : ResumableRef s run) :
    ResumableRef s' run := by
  intro r at_r
  rw [same.kwargs]
  exact resumable r at_r

theorem SameView.phase (same : SameView call s s') {generator : Join}
    (phase : generator.Phase decode call lastEventId s received) : generator.Phase decode call lastEventId s' received := by
  cases generator with
  | called | authorizing | gettingRun => exact phase
  | replaying _ run next =>
    rw [Join.Phase, same.stored]
    exact ⟨same.resumable phase.1, phase.2⟩
  | listening | handing => exact ⟨same.resumable phase.1, same.follows phase.2⟩
  | checking | breaking => exact same.follows phase

theorem SameView.sound (same : SameView call s s') {client : Subscriber}
    (sound : client.Sound decode call lastEventId s) : client.Sound decode call lastEventId s' := by
  cases client with
  | subscribing =>
    rw [Subscriber.Sound, same.queues, same.queueCount]
    exact sound
  | joining generator received =>
    rw [Subscriber.Sound, same.queues]
    exact ⟨sound.1, same.phase sound.2⟩
  | ended received => exact same.served sound
  | failed => trivial

variable (decode call lastEventId) in
/-- A turn of the client leaves the messages and the runs alone and leads to a sound point. -/
structure Settles (s : LiveRuntime) (out : LiveRuntime × Turn Subscriber Unit) : Prop where
  stored : call.stored out.1 = call.stored s
  runs : out.1.runs = s.runs
  sound : ∃ client, out.2 = .suspended client ∧ client.Sound decode call lastEventId out.1

theorem Settles.of_close (stored : call.stored s' = call.stored s) (runs : s'.runs = s.runs)
    {outcome : Except PyError (List RunEvent)}
    (served : ∀ events, outcome = .ok events → Served decode call lastEventId s' (received ++ events)) :
    Settles decode call lastEventId s (Subscriber.next received (Join.close call s' queue outcome)) := by
  unfold Join.close
  cases removed : s'.streams.removeQueue (some call.runId) (some call.threadId) queue with
  | error e => exact ⟨stored, runs, _, rfl, trivial⟩
  | ok streams =>
    obtain ⟨queues, _, rest⟩ := bind_ok removed
    cases rest
    cases outcome with
    | error e => exact ⟨stored, runs, _, rfl, trivial⟩
    | ok events =>
      refine ⟨stored, runs, _, rfl, ?_⟩
      have ended := served events rfl
      rw [Served, wanted] at ended
      exact ended

theorem ResumableRef.streamId {run : Option Nat} (resumable : ResumableRef s run) {r : Nat} (at_r : run = some r)
    (message : Message) : streamId s r message = message.id := by
  simp only [Runs.streamId, resumable r at_r, if_true]

theorem takeWhile_of_stop {α : Type} {p : α → Bool} (before : List α) {stop : α} (after : List α) (stops : p stop = false) :
    (before ++ stop :: after).takeWhile p = before.takeWhile p := by
  induction before with
  | nil => simp [stops]
  | cons a before ih =>
    by_cases pass : p a = true
    · simp [pass, ih]
    · simp [pass]

/-- The replay has come by one more event. -/
theorem phase_of_yields {run : Option Nat} {next next' : Nat} {event : RunEvent}
    (phase : (Join.replaying queue run next).Phase decode call lastEventId s' received)
    (passed : Passed decode call lastEventId ((call.stored s').drop next) next (.yields event next')) :
    (Join.replaying queue run next').Phase decode call lastEventId s' (received ++ [event]) := by
  obtain ⟨resumable, inside, have_, noDone⟩ := phase
  obtain ⟨before, message, after, split, quiet, isWanted', of, rfl⟩ := passed
  have whole : (call.stored s').take next ++ (call.stored s').drop next = call.stored s' := List.take_append_drop ..
  have length : ((call.stored s').take next).length = next := by simp [inside]
  rw [split] at whole
  have gone : (call.stored s').take (next + before.length + 1) = (call.stored s').take next ++ (before ++ [message]) := by
    conv_lhs => rw [← whole]
    rw [List.take_append, length, List.take_of_length_le (by omega),
      show next + before.length + 1 - next = (before ++ [message]).length by simp; omega,
      show before ++ message :: after = (before ++ [message]) ++ after by simp, List.take_left]
  refine ⟨resumable, ?_, ?_, ?_⟩
  · have count := congrArg List.length whole
    simp only [List.length_append, List.length_cons, length] at count
    omega
  · rw [gone, List.filter_append, List.filter_append, filter_wanted_of_quiet quiet, List.nil_append,
      List.filterMap_append, ← have_]
    simp [isWanted', of]
  · intro m member later
    rw [gone] at member
    rcases List.mem_append.mp member with old | new
    · exact noDone m old later
    rcases List.mem_append.mp new with passed | here
    · exact (quiet m passed later).1
    · rw [List.mem_singleton.mp here]
      exact isDone_of_event decode call (by simp [of])

/-- The replay goes on from where it is. -/
theorem replayFrom_settles (asked : call.lastEventId = some lastEventId) {run : Option Nat} {next : Nat}
    (stored : call.stored s' = call.stored s) (runs : s'.runs = s.runs)
    (listed : (call.queuesOf s').count queue = 1)
    (phase : (Join.replaying queue run next).Phase decode call lastEventId s' received)
    (early : (∀ message ∈ (call.stored s').drop next, Quiet decode call lastEventId message) →
      ∀ message ∈ (s'.deliveries.arriving queue).takeWhile (fun m => !isDone decode m),
        isWanted decode call lastEventId message = false) :
    Settles decode call lastEventId s (Subscriber.next received (Join.replayFrom decode call s' queue run next)) := by
  obtain ⟨resumable, _, have_, _⟩ := id phase
  have spec := replay_spec decode call lastEventId ((call.stored s').drop next) next
  have whole : (call.stored s').take next ++ (call.stored s').drop next = call.stored s' := List.take_append_drop ..
  simp only [Join.replayFrom, asked]
  cases result : replay decode call lastEventId ((call.stored s').drop next) next with
  | exhausted =>
    rw [result] at spec
    refine ⟨stored, runs, _, rfl, listed, resumable, ?_⟩
    have all : received = (wanted decode call lastEventId s').filterMap (eventOf? decode call) := by
      conv_rhs => rw [wanted, ← whole, List.filter_append, filter_wanted_of_quiet spec, List.append_nil]
      exact have_
    rw [all]
    exact follows_of_replayed (early spec)
  | done =>
    rw [result] at spec
    obtain ⟨before, message, after, split, quiet, done⟩ := spec
    refine Settles.of_close stored runs (fun events same => ?_)
    cases same
    rw [split] at whole
    rw [List.append_nil]
    refine ⟨⟨((call.stored s').take next).filter (isWanted decode call lastEventId), ?_, ?_⟩, fun m member event of => ?_⟩
    · rw [Got, have_]
      exact filter_later_events _
    · exact (List.take_sublist _ _).filter _
    · rw [owed, ← whole, ← List.append_assoc, takeWhile_of_stop _ _ (by simp [done])] at member
      have inside' := ((List.takeWhile_sublist _).filter _).subset member
      rw [List.filter_append, filter_wanted_of_quiet quiet, List.append_nil] at inside'
      rw [have_]
      exact List.mem_filterMap.mpr ⟨m, inside', of⟩
  | yields event next' =>
    rw [result] at spec
    exact ⟨stored, runs, _, rfl, listed, phase_of_yields phase spec⟩
  | fails e =>
    refine Settles.of_close stored runs (fun events same => ?_)
    cases same

variable (call) in
theorem startReplay_frame (s : LiveRuntime) :
    (Join.startReplay call s).runs = s.runs ∧ (Join.startReplay call s).deliveries.underway = s.deliveries.underway ∧
      call.stored (Join.startReplay call s) = call.stored s ∧
      (Join.startReplay call s).streams.contents = s.streams.contents ∧
      call.queuesOf (Join.startReplay call s) = call.queuesOf s := by
  unfold Join.startReplay
  split
  · refine ⟨rfl, rfl, ?_, rfl, rfl⟩
    simp only [JoinCall.stored, LiveRuntime.withRuntime, StreamManager.stored, Nested.touch, Nested.get?_set_self,
      Option.getD_some]
  · exact ⟨rfl, rfl, rfl, rfl, rfl⟩

variable (call) in
/-- The message is the next one, and reading it only takes it from the queue. -/
theorem SameView.of_take {d : Deliveries} {message : Message} (taken : s.deliveries.take? queue = some (message, d)) :
    s.deliveries.arriving queue = message :: (s.withDeliveries d).deliveries.arriving queue ∧
      call.stored (s.withDeliveries d) = call.stored s ∧ call.queuesOf (s.withDeliveries d) = call.queuesOf s := by
  obtain ⟨next, _, _⟩ := s.deliveries.take?_arriving queue taken
  obtain ⟨contents, streams⟩ := s.deliveries.take?_frame queue taken
  refine ⟨next, ?_, ?_⟩
  · simp only [JoinCall.stored, LiveRuntime.withDeliveries, streams]
    rfl
  · simp only [JoinCall.queuesOf, LiveRuntime.withDeliveries, streams]
    rfl

theorem Follows.sent_error (follows : Follows decode call lastEventId s queue received) (e : PyError) :
    Follows decode call lastEventId s queue (received ++ [.error e]) := by
  obtain ⟨messages, got, rest⟩ := follows
  refine ⟨messages, ?_, rest⟩
  rw [Got, List.filter_append, got]
  simp [isLaterEvent]

theorem read_settles {run : Option Nat} {message : Message} {d : Deliveries}
    (taken : s.deliveries.take? queue = some (message, d)) (listed : (call.queuesOf s).count queue = 1)
    (resumable : ResumableRef s run) (follows : Follows decode call lastEventId s queue received)
    (stops : isDone decode message → ∀ m ∈ s.deliveries.arriving queue,
      m ∈ owed decode call lastEventId (call.stored s) → ∀ event, eventOf? decode call m = some event → event ∈ received) :
    Settles decode call lastEventId s
      (Subscriber.next received (Join.read decode call (s.withDeliveries d) queue run message)) := by
  obtain ⟨next, stored, queues⟩ := SameView.of_take call taken
  have listed' : (call.queuesOf (s.withDeliveries d)).count queue = 1 := by rw [queues]; exact listed
  have failed : ∀ e, Settles decode call lastEventId s
      (Subscriber.next received (Join.close call (s.withDeliveries d) queue (.error e))) :=
    fun e => Settles.of_close stored rfl (fun events same => by cases same)
  unfold Join.read
  cases decoded : decode message with
  | error e => exact failed e
  | ok pair =>
    obtain ⟨mode, payload⟩ := pair
    dsimp only
    by_cases control : mode = "control"
    · have none : eventOf? decode call message = none := by simp [eventOf?, decoded, control]
      simp only [control, if_true]
      by_cases done : payload = "done"
      · simp only [done, if_true]
        refine Settles.of_close stored rfl (fun events same => ?_)
        cases same
        have served := follows.stops (stops (by simp [isDone, decoded, control, done]))
        rw [Served, wanted] at served
        rw [List.append_nil, Served, wanted, stored]
        exact served
      · simp only [done, if_false]
        have skips := follows.skips next stored (by simp [isDone, decoded, done]) none
        exact ⟨stored, rfl, _, rfl, listed', resumable, skips⟩
    · simp only [control, if_false]
      by_cases passes : runStreamModeMatches mode call.streamMode = true
      · simp only [passes, if_true]
        cases run with
        | none => exact failed _
        | some r =>
          have of : eventOf? decode call message = some (.message mode payload message.id) := by
            simp [eventOf?, decoded, control, passes]
          refine ⟨stored, rfl, _, rfl, listed', resumable, ?_⟩
          rw [ResumableRef.streamId (s := s.withDeliveries d) resumable rfl]
          exact follows.gets next stored of
      · simp only [passes, Bool.false_eq_true, if_false]
        have skips := follows.skips next stored (by simp [isDone, decoded, control])
          (by simp [eventOf?, decoded, passes])
        exact ⟨stored, rfl, _, rfl, listed', resumable, skips⟩

theorem Settles.failed (same : SameView call s s') (runs : s'.runs = s.runs) (e : PyError) :
    Settles decode call lastEventId s (Subscriber.next received (Join.close call s' queue (.error e))) :=
  Settles.of_close same.stored runs (fun events ended => by cases ended)

theorem Settles.ended (same : SameView call s s') (runs : s'.runs = s.runs)
    (served : Served decode call lastEventId s received) :
    Settles decode call lastEventId s (Subscriber.next received (Join.close call s' queue (.ok []))) := by
  refine Settles.of_close same.stored runs (fun events ended => ?_)
  cases ended
  rw [List.append_nil]
  exact same.served served

theorem Settles.waits (same : SameView call s s') (runs : s'.runs = s.runs) (generator : Join)
    (listed : (call.queuesOf s).count generator.queue = 1)
    (phase : generator.Phase decode call lastEventId s received) :
    Settles decode call lastEventId s (Subscriber.next received (s', .suspended generator)) := by
  have listed' : (call.queuesOf s').count generator.queue = 1 := by
    rw [same.queues]
    exact listed
  exact ⟨same.stored, runs, _, rfl, listed', same.phase phase⟩

theorem SameView.refl (s : LiveRuntime) : SameView call s s := ⟨rfl, fun _ => rfl, rfl, rfl, fun _ => rfl⟩

theorem SameView.startReplay (same : SameView call s s') :
    call.stored (Join.startReplay call s') = call.stored s ∧
      (∀ queue, (Join.startReplay call s').deliveries.arriving queue = s.deliveries.arriving queue) ∧
      call.queuesOf (Join.startReplay call s') = call.queuesOf s := by
  obtain ⟨_, underway, stored, contents, queues⟩ := startReplay_frame call s'
  refine ⟨stored.trans same.stored, fun queue => ?_, queues.trans same.queues⟩
  rw [← same.arriving, Deliveries.arriving, Deliveries.arriving, underway]
  exact congrArg (fun contents => contents queue ++ _) contents

/-- The lookup of the run leaves all of this alone. -/
theorem SameView.of_visibleRun {filters : PyVal} {runtime : Runtime} {result : Except PyError (Option Nat)}
    (found : visibleRun s.toRuntime call.runId call.threadId filters = (runtime, result)) :
    SameView call s (s.withRuntime runtime) ∧ runtime.runs = s.runs := by
  have frame := visibleRun_frame s.toRuntime call.runId call.threadId filters
  rw [found] at frame
  exact ⟨.of_frame frame.1 frame.2, frame.2⟩

theorem authorizing_settles (listed : (call.queuesOf s).count queue = 1) (nothing : received = []) (reply : Reply) :
    Settles decode call lastEventId s
      (Subscriber.next received (Join.resume decode call s (.authorizing queue) reply)) := by
  simp only [Join.resume]
  cases reply.answer with
  | error e => exact .failed (.refl s) rfl e
  | ok filters =>
    dsimp only
    split
    · have frame := getWithFilters_frame s.toRuntime call.threadId filters
      cases found : Threads.getWithFilters s.toRuntime call.threadId filters with
      | mk runtime result =>
        rw [found] at frame
        obtain ⟨streams, runs⟩ : runtime.streams = s.streams ∧ runtime.runs = s.runs := frame
        have same : SameView call s (s.withRuntime runtime) := .of_frame streams runs
        cases result with
        | error e => exact .failed same runs e
        | ok thread =>
          cases thread with
          | none => exact .failed same runs _
          | some r => exact .waits same runs (.gettingRun queue) listed nothing
    · exact .waits (.refl s) rfl (.gettingRun queue) listed nothing

/-- The run is found and the replay begins. -/
theorem gettingRun_settles (asked : call.lastEventId = some lastEventId) (flagged : ResumableRun call s) {reply : Reply}
    (listed : (call.queuesOf s).count queue = 1) (nothing : received = [])
    (early : ReplayEnds decode call lastEventId s (.gettingRun queue) reply →
      ∀ message ∈ (s.deliveries.arriving queue).takeWhile (fun m => !isDone decode m),
        isWanted decode call lastEventId message = false) :
    Settles decode call lastEventId s
      (Subscriber.next received (Join.resume decode call s (.gettingRun queue) reply)) := by
  simp only [Join.resume]
  cases answered : reply.answer with
  | error e => exact .failed (.refl s) rfl e
  | ok filters =>
    dsimp only
    cases found : visibleRun s.toRuntime call.runId call.threadId filters with
    | mk runtime result =>
      obtain ⟨same, runs⟩ := SameView.of_visibleRun found
      cases result with
      | error e => exact .failed same runs e
      | ok run =>
        obtain ⟨stored, arriving, queues⟩ := same.startReplay
        have runs : (Join.startReplay call (s.withRuntime runtime)).runs = s.runs :=
          (startReplay_frame call _).1.trans runs
        refine replayFrom_settles asked stored runs (by rw [queues]; exact listed) ?_ (fun quiet => ?_)
        · refine ⟨fun r at_r => ?_, Nat.zero_le _, by simp [nothing], by simp⟩
          subst at_r
          rw [runs]
          exact flagged r (find?_of_visibleRun (by rw [found]))
        · rw [arriving]
          rw [stored] at quiet
          exact early ⟨by rw [answered]; rfl, 0, Or.inl ⟨rfl, rfl⟩, quiet⟩

theorem listening_settles {run : Option Nat} {reply : Reply} (listed : (call.queuesOf s).count queue = 1)
    (resumable : ResumableRef s run) (follows : Follows decode call lastEventId s queue received)
    (stops : StopsListening decode call s (.listening queue run) reply → ∀ m ∈ s.deliveries.arriving queue,
      m ∈ owed decode call lastEventId (call.stored s) → ∀ event, eventOf? decode call m = some event → event ∈ received) :
    Settles decode call lastEventId s
      (Subscriber.next received (Join.resume decode call s (.listening queue run) reply)) := by
  simp only [Join.resume]
  cases answered : reply.answer with
  | error e => exact .waits (.refl s) rfl (.checking queue) listed follows
  | ok value =>
    dsimp only
    cases taken : s.deliveries.take? queue with
    | none => exact .waits (.refl s) rfl (.listening queue run) listed ⟨resumable, follows⟩
    | some pair =>
      obtain ⟨rest, holds⟩ := s.deliveries.take?_contents queue taken
      refine read_settles taken listed resumable follows (fun done => stops ?_)
      exact ⟨by rw [answered]; rfl, pair.1, rest, holds, done⟩

/-- After a time out the run is looked up again. -/
theorem checking_settles (flagged : ResumableRun call s) {reply : Reply} (listed : (call.queuesOf s).count queue = 1)
    (follows : Follows decode call lastEventId s queue received)
    (stops : StopsListening decode call s (.checking queue) reply → ∀ m ∈ s.deliveries.arriving queue,
      m ∈ owed decode call lastEventId (call.stored s) → ∀ event, eventOf? decode call m = some event → event ∈ received) :
    Settles decode call lastEventId s
      (Subscriber.next received (Join.resume decode call s (.checking queue) reply)) := by
  simp only [Join.resume]
  cases answered : reply.answer with
  | error e => exact .failed (.refl s) rfl e
  | ok filters =>
    dsimp only
    cases found : visibleRun s.toRuntime call.runId call.threadId filters with
    | mk runtime result =>
      obtain ⟨same, runs⟩ := SameView.of_visibleRun found
      cases result with
      | error e => exact .failed same runs e
      | ok run =>
        cases run with
        | none =>
          dsimp only
          split
          · rename_i ignore
            exact .ended same runs (follows.stops (stops ⟨filters, answered, Or.inl ⟨by rw [found], ignore⟩⟩))
          · have listed' : (call.queuesOf (s.withRuntime runtime)).count queue = 1 := by
              rw [same.queues]
              exact listed
            exact ⟨same.stored, runs, _, rfl, listed', same.follows (follows.sent_error _)⟩
        | some r =>
          dsimp only
          split
          · refine .waits same runs (.listening queue (some r)) listed ⟨fun r' at_r => ?_, follows⟩
            cases at_r
            exact flagged r (find?_of_visibleRun (by rw [found]))
          · rename_i inactive
            refine .ended same runs (follows.stops (stops ⟨filters, answered, Or.inr ⟨r, by rw [found], ?_⟩⟩))
            rw [runs] at inactive
            simpa using inactive

/-- A turn of the generator, wherever it waits. -/
theorem join_settles (asked : call.lastEventId = some lastEventId) (flagged : ResumableRun call s) {generator : Join}
    {reply : Reply} (listed : (call.queuesOf s).count generator.queue = 1)
    (phase : generator.Phase decode call lastEventId s received) {others : List JoinedCall}
    (met : Seamless decode call lastEventId s others (.client (.joining generator received)) reply) :
    Settles decode call lastEventId s (Subscriber.next received (Join.resume decode call s generator reply)) := by
  obtain ⟨early, stops⟩ := met
  cases generator with
  | called queue => exact .waits (.refl s) rfl (.authorizing queue) listed phase
  | authorizing queue => exact authorizing_settles listed phase reply
  | gettingRun queue => exact gettingRun_settles asked flagged listed phase early
  | replaying queue run next =>
    simp only [Join.resume]
    cases answered : reply.answer with
    | error e => exact .failed (.refl s) rfl e
    | ok value =>
      exact replayFrom_settles asked rfl rfl listed phase
        (fun quiet => early ⟨by rw [answered]; rfl, next, Or.inr ⟨run, rfl⟩, quiet⟩)
  | listening queue run => exact listening_settles listed phase.1 phase.2 stops
  | handing queue run =>
    simp only [Join.resume]
    cases reply.answer with
    | error e => exact .failed (.refl s) rfl e
    | ok value => exact .waits (.refl s) rfl (.listening queue run) listed phase
  | checking queue => exact checking_settles flagged listed phase stops
  | breaking queue =>
    simp only [Join.resume]
    cases answered : reply.answer with
    | error e => exact .failed (.refl s) rfl e
    | ok value =>
      have ends : reply.answer.isOk = true := by rw [answered]; rfl
      exact .ended (.refl s) rfl (Follows.stops phase (stops ends))

theorem subscribe_settles (free : s.streams.queueCount ∉ call.queuesOf s) (reply : Reply) :
    Settles decode call lastEventId s (Subscriber.resume decode call s .subscribing reply) := by
  simp only [Subscriber.resume, subscribe]
  obtain ⟨contents, drained⟩ := drainInto_frame (s.streams.addQueue (some call.runId) (some call.threadId)).2
    (s.streams.addQueue (some call.runId) (some call.threadId)).1
    (((s.streams.addQueue (some call.runId) (some call.threadId)).2.controlQueues.get? (some call.threadId)
      (some call.runId)).getD [])
  rw [drained]
  refine ⟨rfl, rfl, _, rfl, ?_, rfl⟩
  simp only [StreamManager.addQueue, LiveRuntime.withRuntime, JoinCall.queuesOf, Nested.get?_set_self,
    Option.getD_some, List.count_append, Join.queue]
  have absent : (call.queuesOf s).count s.streams.queueCount = 0 := List.count_eq_zero.mpr free
  simpa [JoinCall.queuesOf] using absent

theorem client_settles (asked : call.lastEventId = some lastEventId) (flagged : ResumableRun call s)
    {client : Subscriber} (sound : client.Sound decode call lastEventId s) {others : List JoinedCall} {reply : Reply}
    (met : Seamless decode call lastEventId s others (.client client) reply) :
    Settles decode call lastEventId s (Subscriber.resume decode call s client reply) := by
  cases client with
  | subscribing => exact subscribe_settles sound reply
  | joining generator received => exact join_settles asked flagged sound.1 sound.2 met
  | ended received => exact ⟨rfl, rfl, _, rfl, sound⟩
  | failed received e => exact ⟨rfl, rfl, _, rfl, trivial⟩

variable (call) in
/-- A message is put for the run. -/
structure Published (s s' : LiveRuntime) (message : Message) : Prop where
  stored : call.stored s' = call.stored s ++ [message]
  arriving : ∀ queue, (call.queuesOf s).count queue = 1 →
    s'.deliveries.arriving queue = s.deliveries.arriving queue ++ [message]
  queues : call.queuesOf s' = call.queuesOf s
  queueCount : s'.streams.queueCount = s.streams.queueCount
  runs : s'.runs = s.runs

theorem publishTo_published (data : String) (now : Time) :
    Published call s (publishTo call s data now) (stampedMessage call data now) where
  stored := publishTo_stored data now
  arriving _ once := publishTo_arriving once data now
  queues := (publishTo_queues data now).1
  queueCount := (publishTo_queues data now).2
  runs := by simp only [publishTo, LiveRuntime.withDeliveries]

theorem Published.sound {message : Message} (published : Published call s s' message) {client : Subscriber}
    (sound : client.Sound decode call lastEventId s)
    (late : ∀ received, client = .ended received →
      owed decode call lastEventId (call.stored s') = owed decode call lastEventId (call.stored s)) :
    client.Sound decode call lastEventId s' := by
  have kept : ∀ {run}, ResumableRef s run → ResumableRef s' run := by
    intro run resumable
    rw [ResumableRef, published.runs]
    exact resumable
  cases client with
  | subscribing =>
    rw [Subscriber.Sound, published.queues, published.queueCount]
    exact sound
  | joining generator received =>
    obtain ⟨listed, phase⟩ := sound
    have arriving := published.arriving _ listed
    refine ⟨by rw [published.queues]; exact listed, ?_⟩
    cases generator with
    | called | authorizing | gettingRun => exact phase
    | replaying queue run next =>
      obtain ⟨resumable, inside, have_, noDone⟩ := phase
      have same : (call.stored s').take next = (call.stored s).take next := by
        rw [published.stored, List.take_append_of_le_length inside]
      refine ⟨kept resumable, ?_, ?_, ?_⟩
      · rw [published.stored, List.length_append]
        omega
      · rw [same]
        exact have_
      · rw [same]
        exact noDone
    | listening | handing => exact ⟨kept phase.1, phase.2.published published.stored arriving⟩
    | checking | breaking => exact Follows.published phase published.stored arriving
  | ended received => exact Served.published sound published.stored (late received rfl)
  | failed => trivial

theorem Published.increasing {message : Message} (published : Published call s s' message) {id : String}
    (stamped : message.id = some id) (increasing : StoredIncreasing call s)
    (greater : ∀ message ∈ call.stored s, ∀ old, message.id = some old → old < id) : StoredIncreasing call s' := by
  obtain ⟨ids, read, ordered⟩ := increasing
  refine ⟨ids ++ [id], ?_, ?_⟩
  · rw [published.stored, List.map_append, List.map_append, read, List.map_cons, stamped]
    rfl
  · rw [List.pairwise_append]
    refine ⟨ordered, List.pairwise_singleton _ _, fun old inIds new isNew => ?_⟩
    rw [List.mem_singleton.mp isNew]
    have inStored : some old ∈ (call.stored s).map Message.id := by
      rw [read]
      exact List.mem_map_of_mem inIds
    obtain ⟨message, member, given⟩ := List.mem_map.mp inStored
    exact greater message member old given

theorem deliver_sameView (s : LiveRuntime) : SameView call s (s.withDeliveries s.deliveries.deliverNext) := by
  have frame : ∃ contents, s.deliveries.deliverNext.streams = { s.streams with contents := contents } := by
    unfold Deliveries.deliverNext
    split
    · exact ⟨s.streams.contents, rfl⟩
    · exact ⟨_, rfl⟩
  obtain ⟨contents, streams⟩ := frame
  refine ⟨?_, fun queue => Deliveries.deliverNext_arriving .., ?_, ?_, fun _ => rfl⟩
  · simp only [JoinCall.stored, LiveRuntime.withDeliveries, streams]
    rfl
  · simp only [JoinCall.queuesOf, LiveRuntime.withDeliveries, streams]
  · simp only [LiveRuntime.withDeliveries, streams]

theorem changeStatus_kwargs (s : LiveRuntime) (r : Nat) (status : RunStatus) (now : Time) (i : Nat) :
    ((changeStatus s r status now).runs.get i).kwargs = (s.runs.get i).kwargs := by
  simp only [changeStatus, LiveRuntime.withRuntime, Table.update_get]
  split <;> rfl

variable (decode call lastEventId) in
structure JoinInvariant (s : LiveRuntime) (waiting : List JoinedCall) : Prop where
  alone : waiting.countP JoinedCall.isClient ≤ 1
  increasing : StoredIncreasing call s
  flagged : ResumableRun call s
  sound : ∀ client, .client client ∈ waiting → client.Sound decode call lastEventId s

theorem JoinInvariant.turn (asked : call.lastEventId = some lastEventId) {others : List JoinedCall} {k : JoinedCall}
    {reply : Reply} (holds : JoinInvariant decode call lastEventId s (k :: others))
    (increasing : IncreasingIds call s others k reply) (met : Seamless decode call lastEventId s others k reply) :
    JoinInvariant decode call lastEventId ((joinedCalls decode call).resume s k reply).1
      (((joinedCalls decode call).resume s k reply).2.points ++ others) := by
  have later : ∀ client, .client client ∈ others → client.Sound decode call lastEventId s :=
    fun client member => holds.sound client (List.mem_cons_of_mem _ member)
  cases k with
  | client client =>
    have alone := holds.alone
    rw [List.countP_cons_of_pos rfl] at alone
    have nobody : ∀ client, .client client ∉ others := by
      intro client member
      have none : others.countP JoinedCall.isClient = 0 := by omega
      exact absurd rfl (List.countP_eq_zero.mp none _ member)
    obtain ⟨stored, runs, client', at_client, sound⟩ := client_settles asked holds.flagged
      (holds.sound client (List.mem_cons_self ..)) met
    simp only [joinedCalls, at_client, Turn.map, Turn.points_suspended]
    refine ⟨?_, ?_, ?_, fun other member => ?_⟩
    · simpa [List.countP_cons, JoinedCall.isClient] using alone
    · rw [StoredIncreasing, stored]
      exact holds.increasing
    · rw [ResumableRun, runs]
      exact holds.flagged
    · rcases List.mem_append.mp member with mine | left
      · cases List.mem_singleton.mp mine
        exact sound
      · exact absurd left (nobody other)
  | publish data =>
    have published : Published call s (publishTo call s data reply.now) _ := publishTo_published data reply.now
    have increased := published.increasing rfl holds.increasing increasing
    refine ⟨holds.alone, increased, ?_, fun client member => ?_⟩
    · rw [ResumableRun, joinedCalls, published.runs]
      exact holds.flagged
    · exact published.sound (later client member) (fun received at_end => met received (at_end ▸ member))
  | deliver =>
    have same : SameView call s (s.withDeliveries s.deliveries.deliverNext) := deliver_sameView s
    refine ⟨holds.alone, ?_, holds.flagged, fun client member => same.sound (later client member)⟩
    rw [StoredIncreasing, joinedCalls, same.stored]
    exact holds.increasing
  | status r status =>
    have kwargs := changeStatus_kwargs s r status reply.now
    have same : SameView call s (changeStatus s r status reply.now) := ⟨rfl, fun _ => rfl, rfl, rfl, kwargs⟩
    refine ⟨holds.alone, holds.increasing, fun i found => ?_, fun client member => same.sound (later client member)⟩
    have found' : (s.runs.update r (withStatus status reply.now)).find? (byIds call.runId call.threadId) = some i := found
    have unmoved : ∀ run, byIds call.runId call.threadId (withStatus status reply.now run) =
        byIds call.runId call.threadId run := fun _ => rfl
    rw [Table.update_find? _ _ unmoved] at found'
    have flagged := holds.flagged i found'
    rw [← kwargs i] at flagged
    exact flagged

/-- Two sublists with the same members of a list without repetitions are the same. -/
theorem eq_of_sublist_of_mem_iff {α : Type} {l first second : List α} (distinct : l.Nodup) (one : first.Sublist l)
    (other : second.Sublist l) (same : ∀ a, a ∈ first ↔ a ∈ second) : first = second := by
  induction l generalizing first second with
  | nil => rw [List.sublist_nil.mp one, List.sublist_nil.mp other]
  | cons b l ih =>
    have absent : b ∉ l := (List.nodup_cons.mp distinct).1
    have rest : l.Nodup := (List.nodup_cons.mp distinct).2
    rcases List.sublist_cons_iff.mp one with inside | ⟨first', rfl, inside⟩
    · have out : b ∉ second := fun member => absent (inside.subset ((same b).mpr member))
      rcases List.sublist_cons_iff.mp other with inside' | ⟨second', rfl, _⟩
      · exact ih rest inside inside' same
      · exact absurd (List.mem_cons_self ..) out
    · rcases List.sublist_cons_iff.mp other with inside' | ⟨second', rfl, inside'⟩
      · exact absurd (inside'.subset ((same b).mp (List.mem_cons_self ..))) absent
      · have same' : ∀ a, a ∈ first' ↔ a ∈ second' := by
          intro a
          by_cases here : a = b
          · subst here
            exact ⟨fun member => absurd (inside.subset member) absent, fun member => absurd (inside'.subset member) absent⟩
          · simpa [here] using same a
        rw [ih rest inside inside' same']

theorem events_nodup (increasing : StoredIncreasing call s) :
    ((wanted decode call lastEventId s).filterMap (eventOf? decode call)).Nodup := by
  obtain ⟨ids, read, ordered⟩ := increasing
  have apart : (call.stored s).Pairwise (fun a b => a.id ≠ b.id) := by
    rw [← List.pairwise_map, read, List.pairwise_map]
    refine ordered.imp (fun {a b} less same => ?_)
    rw [Option.some.inj same] at less
    exact String.lt_irrefl b less
  rw [List.Nodup, List.pairwise_filterMap]
  refine (apart.filter _).imp (fun {a b} different event of event' of' same => different ?_)
  subst same
  exact eventOf?_id of of'

/-- Where the client has all that is owed, among wanted messages in order, it has that in order and once. -/
theorem Served.deliveredOnce (served : Served decode call lastEventId s received) (increasing : StoredIncreasing call s) :
    DeliveredOnce decode call lastEventId received (call.stored s) := by
  obtain ⟨⟨messages, got, inOrder⟩, all⟩ := served
  have owedSub : (owed decode call lastEventId (call.stored s)).Sublist (wanted decode call lastEventId s) :=
    (List.takeWhile_sublist _).filter _
  have owedLater : ∀ event ∈ (owed decode call lastEventId (call.stored s)).filterMap (eventOf? decode call),
      isLaterEvent lastEventId event = true := by
    intro event member
    have inWanted := (owedSub.filterMap (eventOf? decode call)).subset member
    rw [wanted, ← filter_later_events] at inWanted
    exact (List.mem_filter.mp inWanted).2
  have through : received.filter
      (fun event => event ∈ (owed decode call lastEventId (call.stored s)).filterMap (eventOf? decode call)) =
      (messages.filterMap (eventOf? decode call)).filter
        (fun event => event ∈ (owed decode call lastEventId (call.stored s)).filterMap (eventOf? decode call)) := by
    rw [← got, List.filter_filter]
    refine List.filter_congr (fun event _ => ?_)
    by_cases isOwed : event ∈ (owed decode call lastEventId (call.stored s)).filterMap (eventOf? decode call)
    · simp [isOwed, owedLater event isOwed]
    · simp [isOwed]
  refine eq_of_sublist_of_mem_iff (events_nodup increasing) ?_ (owedSub.filterMap _) (fun event => ?_)
  · rw [through]
    exact List.filter_sublist.trans (inOrder.filterMap _)
  · rw [List.mem_filter, decide_eq_true_iff]
    refine ⟨And.right, fun isOwed => ⟨?_, isOwed⟩⟩
    obtain ⟨message, member, of⟩ := List.mem_filterMap.mp isOwed
    exact all message member event of

end Turns

/-- A client that iterates until the generator ends has got each message it is
owed once and in order, also when more are put after the end. -/
theorem join_delivers_once (decode : Message → Except PyError (String × String)) (call : JoinCall) {lastEventId : String}
    (asked : call.lastEventId = some lastEventId) {initial : LiveRuntime} (free : initial.streams.queueCount ∉ call.queuesOf initial)
    (increasing : StoredIncreasing call initial) (flagged : ResumableRun call initial)
    {l : EventLoop LiveRuntime JoinedCall}
    (reach : (joinedCalls decode call).Reaches
      (fun s others k reply => IncreasingIds call s others k reply ∧ Seamless decode call lastEventId s others k reply)
      ⟨initial, [.client .subscribing]⟩ l)
    {received : List RunEvent} (ended : .client (.ended received) ∈ l.waiting) :
    DeliveredOnce decode call lastEventId received (call.stored l.state) := by
  have holds : JoinInvariant decode call lastEventId l.state l.waiting := by
    refine reach.invariant (fun {s waiting waiting'} same holds => ?_) (fun {s waiting k} holds new => ?_)
      (fun {s others k reply} holds met => holds.turn asked met.1 met.2) ?_
    · exact ⟨same.countP_eq _ ▸ holds.alone, holds.increasing, holds.flagged,
        fun client member => holds.sound client (same.mem_iff.mpr member)⟩
    · have env : k.isClient = false := by simpa [joinedCalls] using new
      refine ⟨?_, holds.increasing, holds.flagged, fun client member => ?_⟩
      · rw [List.countP_cons_of_neg (by simp [env])]
        exact holds.alone
      · rcases List.mem_cons.mp member with rfl | old
        · cases env
        · exact holds.sound client old
    · refine ⟨by simp [List.countP_cons, JoinedCall.isClient], increasing, flagged, fun client member => ?_⟩
      cases List.mem_singleton.mp member
      exact free
  exact Served.deliveredOnce (holds.sound _ ended) holds.increasing

section Overlap

def streamedRun : Run :=
  { runId := some ⟨1⟩, threadId := ⟨2⟩, assistantId := ⟨3⟩, metadata := [], status := some .running,
    kwargs := [("resumable", .bool true)], multitaskStrategy := "reject", createdAt := none, updatedAt := none,
    langsmithSessionName := none }

def oneRun : LiveRuntime := { (default : Runtime) with runs := Table.empty.append streamedRun, underway := [] }

/-- The data of a message is its payload. -/
def plainDecode (message : Message) : Except PyError (String × String) :=
  .ok (if message.data = "done" then ("control", "done") else ("values", message.data))

def wholeStream : JoinCall := ⟨⟨1⟩, ⟨2⟩, false, .none, some "0"⟩

theorem oneRun_starts : oneRun.streams.queueCount ∉ wholeStream.queuesOf oneRun ∧ StoredIncreasing wholeStream oneRun ∧
    ResumableRun wholeStream oneRun := by
  refine ⟨by decide, ⟨[], rfl, List.Pairwise.nil⟩, fun r found => ?_⟩
  have first : oneRun.runs.find? (byIds wholeStream.runId wholeStream.threadId) = some 0 := rfl
  rw [Option.some.inj (found.symm.trans first)]
  rfl

def replyAt (now : Time) : Reply := { plainReply with now := now }

/-- A message is put between the subscription and the replay. -/
def publishBeforeReplay : List (Coroutines.Move JoinedCall Reply) :=
  [.turn 0 plainReply, .call (.publish "x"), .turn 1 (replyAt 1000), .turn 0 plainReply, .turn 0 plainReply,
    .turn 0 plainReply, .turn 0 plainReply, .call .deliver, .turn 1 plainReply, .turn 0 plainReply, .turn 0 plainReply,
    .call (.publish "done"), .turn 1 (replyAt 2000), .call .deliver, .turn 1 plainReply, .turn 0 plainReply]

/-- It is yielded by the replay and again from the queue. -/
theorem join_delivers_twice :
    ¬ ∀ (decode : Message → Except PyError (String × String)) (call : JoinCall) (lastEventId : String),
      call.lastEventId = some lastEventId → ∀ initial : LiveRuntime, initial.streams.queueCount ∉ call.queuesOf initial →
        StoredIncreasing call initial → ResumableRun call initial → ∀ l : EventLoop LiveRuntime JoinedCall,
          (joinedCalls decode call).Reaches (IncreasingIds call) ⟨initial, [.client .subscribing]⟩ l →
            ∀ received, .client (.ended received) ∈ l.waiting →
              DeliveredOnce decode call lastEventId received (call.stored l.state) := by
  intro once
  obtain ⟨free, increasing, flagged⟩ := oneRun_starts
  have performed : ((joinedCalls plainDecode wholeStream).performAllIf (IncreasingIds wholeStream)
      ⟨oneRun, [.client .subscribing]⟩ publishBeforeReplay).isSome = true := rfl
  have delivered : DeliveredOnce plainDecode wholeStream "0"
      [.message "values" "x" (some "1-0"), .message "values" "x" (some "1-0")]
      [stampedMessage wholeStream "x" 1000, stampedMessage wholeStream "done" 2000] :=
    once plainDecode wholeStream "0" rfl oneRun free increasing flagged _
      (Coroutines.Reaches.performAllIf .start (Option.some_get performed).symm) _ (List.mem_singleton_self _)
  rw [DeliveredOnce] at delivered
  exact absurd delivered (by decide +kernel)

theorem seamless_of_unwanted {s : LiveRuntime} {others : List JoinedCall} {generator : Join} {received : List RunEvent}
    {reply : Reply} (unwanted : ∀ message ∈ s.deliveries.arriving generator.queue,
      isWanted plainDecode wholeStream "0" message = false) :
    Seamless plainDecode wholeStream "0" s others (.client (.joining generator received)) reply := by
  refine ⟨fun _ message early => unwanted message ((List.takeWhile_sublist _).subset early), fun _ message queued isOwed => ?_⟩
  have wants := (List.mem_filter.mp isOwed).2
  rw [unwanted message queued] at wants
  cases wants

theorem seamless_of_message {s : LiveRuntime} {others : List JoinedCall} {queue : Nat} {run : Option Nat}
    {received : List RunEvent} {reply : Reply} {message : Message} (arrived : s.streams.contents queue = [message])
    (goesOn : isDone plainDecode message = false) :
    Seamless plainDecode wholeStream "0" s others (.client (.joining (.listening queue run) received)) reply := by
  constructor
  · rintro ⟨_, next, ⟨⟨⟩, _⟩ | ⟨run, ⟨⟩⟩, _⟩
  · rintro ⟨_, next, rest, holds, done⟩
    rw [arrived] at holds
    cases holds
    rw [goesOn] at done
    cases done

/-- One message is put before the subscription; when the replay has yielded it,
another one is put, and then the `done`. -/
theorem join_delivers_once_live :
    ∃ l : EventLoop LiveRuntime JoinedCall,
      .client (.ended [.message "values" "x" (some "1-0"), .message "values" "y" (some "2-0")]) ∈ l.waiting ∧
      (owed plainDecode wholeStream "0" (wholeStream.stored l.state)).map Message.data = ["x", "y"] ∧
      DeliveredOnce plainDecode wholeStream "0"
        [.message "values" "x" (some "1-0"), .message "values" "y" (some "2-0")] (wholeStream.stored l.state) := by
  obtain ⟨free, increasing, flagged⟩ := oneRun_starts
  have begun : (joinedCalls plainDecode wholeStream).Reaches
      (fun s others k reply => IncreasingIds wholeStream s others k reply ∧
        Seamless plainDecode wholeStream "0" s others k reply) ⟨oneRun, [.client .subscribing]⟩ _ := .start
  have first := (begun.call (k := JoinedCall.publish "x") rfl).turn (k := JoinedCall.publish "x") 1 (replyAt 1000) rfl
    ⟨of_decide_eq_true rfl, fun received early => by cases List.mem_singleton.mp early⟩
  have subscribed := first.turn 0 plainReply rfl ⟨trivial, trivial⟩
  have authorizing := subscribed.turn 0 plainReply rfl ⟨trivial, seamless_of_unwanted (of_decide_eq_true rfl)⟩
  have getting := authorizing.turn 0 plainReply rfl ⟨trivial, seamless_of_unwanted (of_decide_eq_true rfl)⟩
  have replayed := getting.turn 0 plainReply rfl ⟨trivial, seamless_of_unwanted (of_decide_eq_true rfl)⟩
  have listening := replayed.turn 0 plainReply rfl ⟨trivial, seamless_of_unwanted (of_decide_eq_true rfl)⟩
  have second := (listening.call (k := JoinedCall.publish "y") rfl).turn (k := JoinedCall.publish "y") 1 (replyAt 2000) rfl
    ⟨of_decide_eq_true rfl, fun received early => by cases List.mem_singleton.mp early⟩
  have delivered := (second.call (k := JoinedCall.deliver) rfl).turn (k := JoinedCall.deliver) 1 plainReply rfl
    ⟨trivial, trivial⟩
  have goesOn : isDone plainDecode (stampedMessage wholeStream "y" 2000) = false := by decide
  have got := delivered.turn 0 plainReply rfl ⟨trivial, seamless_of_message rfl goesOn⟩
  have waiting := got.turn 0 plainReply rfl ⟨trivial, seamless_of_unwanted (of_decide_eq_true rfl)⟩
  have last := (waiting.call (k := JoinedCall.publish "done") rfl).turn (k := JoinedCall.publish "done") 1 (replyAt 3000)
    rfl ⟨by decide +kernel, fun received early => by cases List.mem_singleton.mp early⟩
  have arrived := (last.call (k := JoinedCall.deliver) rfl).turn (k := JoinedCall.deliver) 1 plainReply rfl ⟨trivial, trivial⟩
  have ended := arrived.turn 0 plainReply rfl ⟨trivial, seamless_of_unwanted (by decide +kernel)⟩
  refine ⟨_, List.mem_singleton_self _, ?_, join_delivers_once plainDecode wholeStream rfl free increasing flagged ended
    (List.mem_singleton_self _)⟩
  decide +kernel

end Overlap

end Runs

end InmemRuntime
