import InmemRuntime.RunStream

namespace InmemRuntime

namespace Runs

/-- A client that subscribes, joins and iterates, with the events it has got so far. -/
inductive Subscriber where
  | subscribing
  | joining (generator : Join) (received : List RunEvent)
  | ended (received : List RunEvent)
  | failed (received : List RunEvent) (e : PyError)

/-- The client, the publishes of the run, the running of a delivery, and a run
that gets another status. -/
inductive JoinedCall where
  | client (client : Subscriber)
  | publish (data : String)
  | deliver
  | status (r : Nat) (status : RunStatus)

def JoinedCall.isClient : JoinedCall → Bool
  | .client _ => true
  | _ => false

def Join.queue : Join → Nat
  | .called queue | .authorizing queue | .gettingRun queue | .replaying queue _ _ | .listening queue _
  | .handing queue _ | .checking queue | .breaking queue => queue

/-- The message that `Runs.Stream.publish` puts. -/
def streamMessage (runId : Uuid) (data : String) : Message := ⟨s!"run:{runId.str}:stream", data, none⟩

section Client

variable (decode : Message → Except PyError (String × String)) (call : JoinCall)

/-- A step of the iteration. -/
def Subscriber.next (received : List RunEvent) (out : JoinTurn) : LiveRuntime × Turn Subscriber Unit :=
  match out.2 with
  | .suspended generator => (out.1, .suspended (.joining generator received))
  | .yielded (.ok events) generator => (out.1, .suspended (.joining generator (received ++ events)))
  | .yielded (.error e) _ | .finished (.error e) => (out.1, .suspended (.failed received e))
  | .forked _ generator => (out.1, .suspended (.joining generator received))
  | .finished (.ok events) => (out.1, .suspended (.ended (received ++ events)))

def Subscriber.resume (s : LiveRuntime) : Subscriber → Reply → LiveRuntime × Turn Subscriber Unit
  | .subscribing, _ =>
    let (queue, streams) := subscribe s.streams call.runId call.threadId
    (s.withRuntime { s.toRuntime with streams := streams }, .suspended (.joining (.called queue) []))
  | .joining generator received, reply => Subscriber.next received (Join.resume decode call s generator reply)
  | .ended received, _ => (s, .suspended (.ended received))
  | .failed received e, _ => (s, .suspended (.failed received e))

/-- A resumable publish of the run. -/
def publishTo (s : LiveRuntime) (data : String) (now : Time) : LiveRuntime :=
  s.withDeliveries
    (s.deliveries.publish (some call.runId) (some call.threadId) (streamMessage call.runId data) true now)

/-- The record `r` gets a status, as every operation that changes one does. -/
def changeStatus (s : LiveRuntime) (r : Nat) (status : RunStatus) (now : Time) : LiveRuntime :=
  s.withRuntime { s.toRuntime with runs := s.runs.update r (withStatus status now) }

def joinedCalls : Coroutines LiveRuntime JoinedCall Reply Unit where
  fresh k := !k.isClient
  resume s
    | .client client, reply =>
      ((Subscriber.resume decode call s client reply).1,
        (Subscriber.resume decode call s client reply).2.map .client id)
    | .publish data, reply => (publishTo call s data reply.now, .finished ())
    | .deliver, _ => (s.withDeliveries s.deliveries.deliverNext, .finished ())
    | .status r status, reply => (changeStatus s r status reply.now, .finished ())

/-- The run's stream `done` message. -/
def isDone (message : Message) : Bool :=
  match decode message with
  | .ok (mode, payload) => mode = "control" && payload = "done"
  | .error _ => false

/-- The event of a message whose mode passes the filter. -/
def eventOf? (message : Message) : Option RunEvent :=
  match decode message with
  | .ok (mode, payload) =>
    if mode ≠ "control" ∧ runStreamModeMatches mode call.streamMode then
      some (.message mode payload message.id)
    else none
  | .error _ => none

/-- The message has an id greater than `last_event_id`, and its mode passes the filter. -/
def isWanted (lastEventId : String) (message : Message) : Bool :=
  message.id.any (fun id => lastEventId < id) && (eventOf? decode call message).isSome

/-- Of the messages put for the run, those the client has to get: the wanted
ones before `done`. -/
def owed (lastEventId : String) (messages : List Message) : List Message :=
  (messages.takeWhile (fun message => !isDone decode message)).filter (isWanted decode call lastEventId)

/-- Of the events of the owed messages each has been got once, in the order of the messages. -/
def DeliveredOnce (lastEventId : String) (received : List RunEvent) (messages : List Message) : Prop :=
  received.filter (fun event => event ∈ (owed decode call lastEventId messages).filterMap (eventOf? decode call)) =
    (owed decode call lastEventId messages).filterMap (eventOf? decode call)

/-- The turn takes the replay to its end. -/
def ReplayEnds (lastEventId : String) (s : LiveRuntime) (generator : Join) (reply : Reply) : Prop :=
  reply.answer.isOk ∧ ∃ next, (generator = .gettingRun generator.queue ∧ next = 0 ∨
      ∃ run, generator = .replaying generator.queue run next) ∧
    ∀ message ∈ (call.stored s).drop next, message.id.any (fun id => lastEventId < id) →
      isDone decode message = false ∧ eventOf? decode call message = none

/-- The turn ends the generator: at a `done`, or as the run is gone or not active any more. -/
def StopsListening (s : LiveRuntime) (generator : Join) (reply : Reply) : Prop :=
  match generator with
  | .listening queue _ =>
    reply.answer.isOk ∧ ∃ message rest, s.streams.contents queue = message :: rest ∧ isDone decode message
  | .checking _ =>
    ∃ filters, reply.answer = .ok filters ∧
      ((visibleRun s.toRuntime call.runId call.threadId filters).2 = .ok none ∧ call.ignore404 ∨
        ∃ r, (visibleRun s.toRuntime call.runId call.threadId filters).2 = .ok (some r) ∧
          (s.runs.get r).isActive = false)
  | .breaking _ => reply.answer.isOk
  | _ => False

/-- The replay ends before a wanted message is queued, the generator ends when
it has yielded all the owed messages of its queue, and no owed message is put
after that. -/
def Seamless (lastEventId : String) (s : LiveRuntime) (others : List JoinedCall) (k : JoinedCall) (reply : Reply) :
    Prop :=
  match k with
  | .client (.joining generator received) =>
    (ReplayEnds decode call lastEventId s generator reply →
      ∀ message ∈ (s.deliveries.arriving generator.queue).takeWhile (fun message => !isDone decode message),
        isWanted decode call lastEventId message = false) ∧
    (StopsListening decode call s generator reply →
      ∀ message ∈ s.deliveries.arriving generator.queue, message ∈ owed decode call lastEventId (call.stored s) →
        ∀ event, eventOf? decode call message = some event → event ∈ received)
  | .publish data =>
    ∀ received, .client (.ended received) ∈ others →
      owed decode call lastEventId (call.stored (publishTo call s data reply.now)) =
        owed decode call lastEventId (call.stored s)
  | _ => True

/-- Each publish gets an id greater than those of the messages before it. -/
def IncreasingIds (s : LiveRuntime) (_others : List JoinedCall) (k : JoinedCall) (reply : Reply) : Prop :=
  match k with
  | .publish _ => ∀ message ∈ call.stored s, ∀ id ∈ message.id, id < StreamManager.generateMsSeqId reply.now
  | _ => True

instance (s : LiveRuntime) (others : List JoinedCall) (k : JoinedCall) (reply : Reply) :
    Decidable (IncreasingIds call s others k reply) :=
  match k with
  | .publish _ => inferInstanceAs (Decidable
      (∀ message ∈ call.stored s, ∀ id ∈ message.id, id < StreamManager.generateMsSeqId reply.now))
  | .client _ | .deliver | .status _ _ => inferInstanceAs (Decidable True)

/-- The queues that get what is published to the run. -/
def JoinCall.queuesOf (s : LiveRuntime) : List Nat :=
  (s.streams.queues.get? (some call.threadId) (some call.runId)).getD []

/-- The messages stored for the run have increasing ids. -/
def StoredIncreasing (s : LiveRuntime) : Prop :=
  ∃ ids : List String, (call.stored s).map Message.id = ids.map some ∧ ids.Pairwise (· < ·)

/-- The run's record says that it is resumable. -/
def ResumableRun (s : LiveRuntime) : Prop :=
  ∀ r, s.runs.find? (byIds call.runId call.threadId) = some r →
    ((s.runs.get r).kwargs.get? "resumable").any PyVal.truthy = true

end Client

end Runs

end InmemRuntime
