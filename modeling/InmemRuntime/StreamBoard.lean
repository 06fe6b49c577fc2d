import InmemRuntime.Lib.Board
import InmemRuntime.Lib.Serial
import InmemRuntime.StreamDelivery

namespace InmemRuntime

/-- The deliveries together with the queues of `add_thread_stream`. -/
structure ThreadDeliveries extends Deliveries where
  threadStreams : Dict Uuid (List Nat)

/-- `UUID | str` -/
inductive IdArg where
  | uuid (id : Uuid)
  | text (text : String)

/-- `str(id_)` -/
def IdArg.str : IdArg → String
  | .uuid id => id.str
  | .text t => t

/-- What the three kinds of queues are kept under. No thread is `THREADLESS_KEY`. -/
inductive QueueKey where
  | run (threadId runId : Option Uuid)
  | control (threadId runId : Option Uuid)
  | thread (threadId : Uuid)
deriving DecidableEq

def Message.stamp (message : Message) (now : Time) : Message :=
  { message with id := some (StreamManager.generateMsSeqId now) }

namespace ThreadDeliveries

/-- The queues listed under a key. -/
def listed (d : ThreadDeliveries) : QueueKey → List Nat
  | .run threadId runId => (d.streams.queues.get? threadId runId).getD []
  | .control threadId runId => (d.streams.controlQueues.get? threadId runId).getD []
  | .thread threadId => (d.threadStreams.get? threadId).getD []

def withStreams (d : ThreadDeliveries) (streams : StreamManager) : ThreadDeliveries :=
  { d with toDeliveries := { d.toDeliveries with streams := streams } }

section Methods

-- `uuid` is `UUID(text)`.
variable (uuid : String → Except PyError Uuid) (d : ThreadDeliveries)

def ensureUuid : IdArg → Except PyError Uuid
  | .uuid id => .ok id
  | .text text => uuid text

def ensureOptional : Option IdArg → Except PyError (Option Uuid)
  | none => .ok none
  | some id => (ensureUuid uuid id).map some

/-- What the methods on the queues of runs begin with: the thread and the run. -/
def runKey (runId threadId : Option IdArg) : Except PyError (Option Uuid × Option Uuid) := do
  let runId ← ensureOptional uuid runId
  let threadId ← ensureOptional uuid threadId
  .ok (threadId, runId)

/-- `put` up to where it waits for its tasks. -/
def put (runId threadId : Option IdArg) (message : Message) (resumable : Bool) (now : Time) :
    Except PyError ThreadDeliveries := do
  let (threadId, runId) ← runKey uuid runId threadId
  .ok { d with toDeliveries := d.publish runId threadId message resumable now }

/-- `put_thread` up to where it waits for its tasks. -/
def putThread (threadId : IdArg) (message : Message) (now : Time) : Except PyError ThreadDeliveries := do
  let threadId ← ensureUuid uuid threadId
  let queues := d.listed (.thread threadId)
  .ok { d with
    threadStreams := d.threadStreams.set threadId queues
    underway := d.underway ++ queues.map (fun queue => (queue, message.stamp now)) }

def addQueue (runId threadId : Option IdArg) : Except PyError ThreadDeliveries := do
  let (threadId, runId) ← runKey uuid runId threadId
  .ok (d.withStreams (d.streams.addQueue runId threadId).2)

def addControlQueue (runId threadId : Option IdArg) : Except PyError ThreadDeliveries := do
  let (threadId, runId) ← runKey uuid runId threadId
  .ok (d.withStreams (d.streams.addControlQueue runId threadId).2)

def addThreadStream (threadId : IdArg) : Except PyError ThreadDeliveries := do
  let threadId ← ensureUuid uuid threadId
  .ok { d.withStreams { d.streams with
      contents := fun i => if i = d.streams.queueCount then [] else d.streams.contents i
      queueCount := d.streams.queueCount + 1 } with
    threadStreams := d.threadStreams.set threadId (d.listed (.thread threadId) ++ [d.streams.queueCount]) }

def removeQueue (runId threadId : Option IdArg) (queue : Nat) : Except PyError ThreadDeliveries := do
  let (threadId, runId) ← runKey uuid runId threadId
  let streams ← d.streams.removeQueue runId threadId queue
  .ok (d.withStreams streams)

def removeControlQueue (runId threadId : Option IdArg) (queue : Nat) : Except PyError ThreadDeliveries := do
  let (threadId, runId) ← runKey uuid runId threadId
  let streams ← d.streams.removeControlQueue runId threadId queue
  .ok (d.withStreams streams)

end Methods

end ThreadDeliveries

/-- A call of a method, up to its first wait. `deliver` is the event loop coming
to the oldest task, and `get` a reader at a queue. -/
inductive StreamOp where
  | put (runId threadId : Option IdArg) (message : Message) (resumable : Bool) (now : Time)
  | putThread (threadId : IdArg) (message : Message) (now : Time)
  | addQueue (runId threadId : Option IdArg)
  | addControlQueue (runId threadId : Option IdArg)
  | addThreadStream (threadId : IdArg)
  | removeQueue (runId threadId : Option IdArg) (queue : Nat)
  | removeControlQueue (runId threadId : Option IdArg) (queue : Nat)
  | deliver
  | get (queue : Nat)

/-- What a call of `put` or `put_thread` was given, with the id it set. -/
structure SentMessage where
  message : Message
  resumable : Bool

abbrev StreamEvent := Board.Event QueueKey SentMessage

namespace StreamOp

section Run

variable (uuid : String → Except PyError Uuid) (d : ThreadDeliveries)

def run : StreamOp → Except PyError ThreadDeliveries
  | .put runId threadId message resumable now => d.put uuid runId threadId message resumable now
  | .putThread threadId message now => d.putThread uuid threadId message now
  | .addQueue runId threadId => d.addQueue uuid runId threadId
  | .addControlQueue runId threadId => d.addControlQueue uuid runId threadId
  | .addThreadStream threadId => d.addThreadStream uuid threadId
  | .removeQueue runId threadId queue => d.removeQueue uuid runId threadId queue
  | .removeControlQueue runId threadId queue => d.removeControlQueue uuid runId threadId queue
  | .deliver => .ok { d with toDeliveries := d.deliverNext }
  | .get queue =>
    match d.take? queue with
    | none => .error (.foreign "QueueEmpty")
    | some (_, deliveries) => .ok { d with toDeliveries := deliveries }

/-- What the call means, once its ids are known. -/
def event : StreamOp → Option StreamEvent
  | .put runId threadId message resumable now =>
    (ThreadDeliveries.runKey uuid runId threadId).toOption.map (fun (threadId, runId) =>
      .sent (if PyVal.isSubstring "control" message.topic then .control threadId runId else .run threadId runId)
        ⟨message.stamp now, resumable⟩)
  | .putThread threadId message now =>
    (ThreadDeliveries.ensureUuid uuid threadId).toOption.map (fun threadId =>
      .sent (.thread threadId) ⟨message.stamp now, false⟩)
  | .addQueue runId threadId =>
    (ThreadDeliveries.runKey uuid runId threadId).toOption.map (fun (threadId, runId) =>
      .added (.run threadId runId) d.streams.queueCount)
  | .addControlQueue runId threadId =>
    (ThreadDeliveries.runKey uuid runId threadId).toOption.map (fun (threadId, runId) =>
      .added (.control threadId runId) d.streams.queueCount)
  | .addThreadStream threadId =>
    (ThreadDeliveries.ensureUuid uuid threadId).toOption.map (fun threadId =>
      .added (.thread threadId) d.streams.queueCount)
  | .removeQueue runId threadId queue =>
    (ThreadDeliveries.runKey uuid runId threadId).toOption.map (fun (threadId, runId) =>
      .removed (.run threadId runId) queue)
  | .removeControlQueue runId threadId queue =>
    (ThreadDeliveries.runKey uuid runId threadId).toOption.map (fun (threadId, runId) =>
      .removed (.control threadId runId) queue)
  | .deliver | .get _ => none

/-- What the reader at a queue gets. -/
def reads (queue : Nat) : StreamOp → List Message
  | .get other => if other = queue then ((d.take? other).map Prod.fst).toList else []
  | _ => []

/-- The state after the call, whatever it raises. -/
def after (op : StreamOp) : ThreadDeliveries :=
  match op.run uuid d with
  | .error _ => d
  | .ok d' => d'

end Run

end StreamOp

end InmemRuntime
