import InmemRuntime.JoinDelivery
import InmemRuntime.ThreadStream
import Mathlib.Algebra.Order.Group.Multiset

namespace InmemRuntime

namespace Threads

/-- The shared state and the messages put so far for runs that were in the store. -/
structure WatchedStreams extends ThreadStreams where
  puts : List (Uuid × Message)

/-- A client that iterates, with the events it has got so far. -/
inductive StreamClient where
  | joining (generator : StreamJoin) (received : List ThreadEvent)
  | failed (received : List ThreadEvent) (e : PyError)

/-- The client, a publish for a run, the running of a delivery, and a new run. -/
inductive StreamedCall where
  | client (client : StreamClient)
  | publish (runId : Uuid) (data : String)
  | deliver
  | create (run : Run)

def StreamedCall.isClient : StreamedCall → Bool
  | .client _ => true
  | _ => false

/-- What `Runs.Stream.publish` has put. -/
def stamped (runId : Uuid) (data : String) (now : Time) : Message :=
  { Runs.streamMessage runId data with id := some (StreamManager.generateMsSeqId now) }

section Client

variable (decode : Message → Except PyError (String × String)) (loads : String → Except PyError PyVal) (call : StreamCall)

/-- A step of the iteration. -/
def StreamClient.next (received : List ThreadEvent) (turn : Turn StreamJoin (Except PyError (List ThreadEvent))) :
    StreamClient :=
  match turn with
  | .suspended generator | .forked _ generator => .joining generator received
  | .yielded (.ok events) generator => .joining generator (received ++ events)
  | .yielded (.error e) _ | .finished (.error e) => .failed received e
  | .finished (.ok events) => .failed (received ++ events) .stopIteration

def StreamClient.resume (s : ThreadStreams) : StreamClient → Reply → ThreadStreams × StreamClient
  | .joining generator received, reply =>
    ((StreamJoin.resume decode loads call s generator reply).1,
      StreamClient.next received (StreamJoin.resume decode loads call s generator reply).2)
  | .failed received e, _ => (s, .failed received e)

/-- A resumable publish for a run of the thread. -/
def publishRun (s : ThreadStreams) (runId : Uuid) (data : String) (now : Time) : ThreadStreams :=
  s.withLive (s.withDeliveries
    (s.deliveries.publish (some runId) (some call.threadId) (Runs.streamMessage runId data) true now))

/-- The run is in the store, on the thread. -/
def inStore (s : ThreadStreams) (runId : Uuid) : Bool :=
  s.runs.values.any (fun run => run.runId = some runId ∧ run.threadId = call.threadId)

def streamedCalls : Coroutines WatchedStreams StreamedCall Reply Unit where
  fresh k := !k.isClient
  resume s
    | .client client, reply =>
      let (shared, client) := StreamClient.resume decode loads call s.toThreadStreams client reply
      ({ s with toThreadStreams := shared }, .suspended (.client client))
    | .publish runId data, reply =>
      (⟨publishRun call s.toThreadStreams runId data reply.now,
        if inStore call s.toThreadStreams runId then s.puts ++ [(runId, stamped runId data reply.now)] else s.puts⟩,
        .finished ())
    | .deliver, _ =>
      ({ s with toThreadStreams := s.withLive (s.withDeliveries s.deliveries.deliverNext) }, .finished ())
    | .create run, _ =>
      ({ s with toThreadStreams := s.withLive (s.withRuntime { s.toRuntime with runs := s.runs.append run }) },
        .finished ())

/-- The event of a message of a run that the filter lets through. -/
def eventOf? (runId : Option Uuid) (message : Message) : Option ThreadEvent :=
  match replayedEvent decode loads call message runId with
  | .ok event => event
  | .error _ => none

/-- The message comes after `last_event_id`. -/
def isLater (lastEventId : String) (message : Message) : Bool := message.id.any (fun id => lastEventId < id)

/-- The generator has subscribed to the runs in the store and found all its queues empty. -/
def FoundEmpty (s : ThreadStreams) : StreamJoin → Prop
  | .resting seen queues | .idling seen queues =>
    (∀ run ∈ s.runs.values, run.threadId = call.threadId → run.runId ∈ seen) ∧
      ∀ queue ∈ queues, s.streams.contents queue.2 = []
  | _ => False

/-- Each message put so far, as far as its delivery is not under way any more,
that comes after `last_event_id` and passes the filter has been yielded once. -/
def AllYieldedOnce (lastEventId : String) (s : WatchedStreams) (received : List ThreadEvent) : Prop :=
  ∀ runId message event, (runId, message) ∈ s.puts → (∀ task ∈ s.underway, task.2 ≠ message) →
    isLater lastEventId message = true → eventOf? decode loads call (some runId) message = some event →
    received.filter (fun e => e.id = message.id) = [event]

/-- What is put for the run now will be seen: by the replay, which has not
looked at the stored messages yet, or through the queue of the run. -/
def StreamJoin.Hears (runId : Uuid) : StreamJoin → Prop
  | .called | .authorizing | .logging => True
  | .replaying _ => False
  | .draining seen _ _ | .resting seen _ | .idling seen _ => some runId ∈ seen ∧ runId ≠ call.threadId

/-- No owed message is put between the look at the stored messages and the
subscription to its run. -/
def Heard (lastEventId : String) (s : WatchedStreams) (others : List StreamedCall) (k : StreamedCall) (reply : Reply) :
    Prop :=
  match k with
  | .publish runId data =>
    inStore call s.toThreadStreams runId = true → isLater lastEventId (stamped runId data reply.now) = true →
      (eventOf? decode loads call (some runId) (stamped runId data reply.now)).isSome →
      ∀ generator received, .client (.joining generator received) ∈ others → generator.Hears call runId
  | _ => True

/-- The messages stored for the runs of the thread. -/
def storedMessages (s : ThreadStreams) : Multiset (Option Uuid × Message) :=
  ((Dict.get? s.streams.messageStores (some call.threadId)).getD .empty).sum
    (fun runId messages => (messages.map (fun message => (runId, message)) : Multiset (Option Uuid × Message)))

/-- Each publish gets an id greater than those of the messages before it. -/
def IncreasingIds (s : WatchedStreams) (_others : List StreamedCall) (k : StreamedCall) (reply : Reply) : Prop :=
  match k with
  | .publish _ _ => ∀ p ∈ storedMessages call s.toThreadStreams, ∀ id ∈ p.2.id, id < StreamManager.generateMsSeqId reply.now
  | _ => True

/-- The queues that get what is published for a run. -/
def queuesAt (s : ThreadStreams) (threadId runId : Option Uuid) : List Nat :=
  (s.streams.queues.get? threadId runId).getD []

/-- Queues are numbered in the order in which they were made. -/
structure Numbered (s : ThreadStreams) : Prop where
  queues : ∀ threadId runId, ∀ queue ∈ queuesAt s threadId runId, queue < s.streams.queueCount
  underway : ∀ task ∈ s.underway, task.1 < s.streams.queueCount

/-- The stored messages have distinct ids, and those put so far are among them. -/
structure WellStored (s : WatchedStreams) : Prop where
  ids : ∀ p ∈ storedMessages call s.toThreadStreams, p.2.id.isSome
  distinct : ((storedMessages call s.toThreadStreams).map (fun p => p.2.id)).Nodup
  puts : ∀ p ∈ s.puts, (some p.1, p.2) ∈ storedMessages call s.toThreadStreams
  numbered : Numbered s.toThreadStreams

end Client

end Threads

end InmemRuntime
