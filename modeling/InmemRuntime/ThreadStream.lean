import InmemRuntime.RunsCancel
import InmemRuntime.RunStream
import Mathlib.Data.List.Sort

namespace InmemRuntime

/-- Everything shared, with the queues of `add_thread_stream`. -/
structure ThreadStreams extends LiveRuntime where
  threadStreams : Dict Uuid (List Nat)

namespace ThreadStreams

def withLive (s : ThreadStreams) (live : LiveRuntime) : ThreadStreams := { s with toLiveRuntime := live }

def withStreams (s : ThreadStreams) (streams : StreamManager) : ThreadStreams :=
  s.withLive (s.withRuntime { s.toRuntime with streams := streams })

/-- `add_thread_stream` -/
def addThreadStream (s : ThreadStreams) (threadId : Uuid) : Nat × ThreadStreams :=
  (s.streams.queueCount,
    { s.withStreams { s.streams with
        contents := fun i => if i = s.streams.queueCount then [] else s.streams.contents i
        queueCount := s.streams.queueCount + 1 } with
      threadStreams := s.threadStreams.set threadId ((s.threadStreams.get? threadId).getD [] ++ [s.streams.queueCount]) })

end ThreadStreams

namespace Threads

/-- The queues that a poll has made, each for a run or for the thread itself. -/
abbrev Queues := List (Option Uuid × Nat)

/-- What a poll carries along: the shared state, `seen_runs` and the new queues. -/
structure Polled where
  shared : ThreadStreams
  seen : List (Option Uuid)
  queues : Queues

def subscribeThread (threadId : Uuid) (p : Polled) : Polled :=
  if some threadId ∈ p.seen then p
  else
    let (queue, shared) := p.shared.addThreadStream threadId
    ⟨shared, p.seen ++ [some threadId], p.queues ++ [(some threadId, queue)]⟩

def subscribeRun (threadId : Uuid) (p : Polled) (run : Run) : Polled :=
  if run.threadId = threadId ∧ run.runId ∉ p.seen then
    let (queue, streams) := p.shared.streams.addQueue run.runId (some threadId)
    ⟨p.shared.withStreams streams, p.seen ++ [run.runId], p.queues ++ [(run.runId, queue)]⟩
  else p

/-- `Threads.Stream.subscribe`, appending to the queues made before. -/
def subscribe (threadId : Uuid) (p : Polled) : Polled :=
  p.shared.runs.values.foldl (subscribeRun threadId) (subscribeThread threadId p)

/-- What the generator yields: event, payload, id and run. -/
structure ThreadEvent where
  event : String
  payload : String
  id : Option String
  runId : String
deriving DecidableEq

structure StreamCall where
  threadId : Uuid
  lastEventId : Option String
  streamModes : List String

/-- `orjson.dumps` of the status `run_done` and a run. -/
def runDone (runId : Option String) : String :=
  "\x7b\"status\":\"run_done\",\"run_id\":" ++ runId.elim "null" (fun runId => "\"" ++ runId ++ "\"") ++ "\x7d"

/-- `should_filter_event`. What `orjson` raises counts as filtered. -/
def shouldFilterEvent (loads : String → Except PyError PyVal) (modes : List String) (event payload : String) :
    Except PyError Bool :=
  if modes.contains "run_modes" && event ≠ "state_update" then .ok false
  else if modes.contains "state_update" && event = "state_update" then .ok false
  else if modes.contains "lifecycle" && event = "metadata" then
    match loads payload with
    | .error _ => .ok true
    | .ok (.dict items) =>
      match PyDict.get? items "status" with
      | some (.str "run_done") => .ok false
      | _ => .ok (!(PyDict.hasKey items "attempt" && PyDict.hasKey items "run_id"))
    | .ok _ => .error .attributeError
  else .ok true

/-- `text.split(sep)[0]` -/
def beforeSep (sep : List Char) : List Char → List Char
  | [] => []
  | c :: rest => if sep.isPrefixOf (c :: rest) then [] else c :: beforeSep sep rest

/-- What follows the first `sep`. -/
def afterSep? (sep : List Char) : List Char → Option (List Char)
  | [] => none
  | c :: rest => if sep.isPrefixOf (c :: rest) then some ((c :: rest).drop sep.length) else afterSep? sep rest

/-- `topic.split("run:")[1].split(":")[0]` -/
def topicRun (topic : String) : Except PyError String :=
  match afterSep? "run:".toList topic.toList with
  | none => .error .indexError
  | some rest => .ok (String.ofList (beforeSep ":".toList (beforeSep "run:".toList rest)))

/-- Where the generator waits: `replaying` and `draining` at a `yield`, `resting`
and `idling` in the two sleeps after a pass over the queues. -/
inductive StreamJoin where
  | called
  | authorizing
  | logging
  | replaying (rest : List (Message × Option Uuid))
  | draining (seen : List (Option Uuid)) (queues todo : Queues)
  | resting (seen : List (Option Uuid)) (queues : Queues)
  | idling (seen : List (Option Uuid)) (queues : Queues)

abbrev StreamTurn := ThreadStreams × Turn StreamJoin (Except PyError (List ThreadEvent))

/-- What a loop over messages comes to next, with the messages that it leaves. -/
inductive Next (α : Type) where
  | exhausted
  | yields (event : ThreadEvent) (rest : α)
  | fails (e : PyError) (rest : α)

section Generator

variable (decode : Message → Except PyError (String × String)) (loads : String → Except PyError PyVal) (call : StreamCall)

/-- The event when the filter lets it through. -/
def passing (event : ThreadEvent) : Except PyError (Option ThreadEvent) :=
  (shouldFilterEvent loads call.streamModes event.event event.payload).map (fun out => if out then none else some event)

/-- The event that the replay yields for a message. -/
def replayedEvent (message : Message) (runId : Option Uuid) : Except PyError (Option ThreadEvent) := do
  let (event, payload) ← decode message
  if event = "control" ∧ payload = "done" then
    passing loads call ⟨"metadata", runDone (runId.map Uuid.str), message.id, Runs.strOfRunId runId⟩
  else passing loads call ⟨event, payload, message.id, Runs.strOfRunId runId⟩

/-- The event that a message from the queue of a run leads to. What cannot be decoded is passed over. -/
def liveEvent (message : Message) (runId : Option Uuid) : Except PyError (Option ThreadEvent) :=
  match decode message with
  | .error (.valueError _) | .error .keyError => .ok none
  | .error e => .error e
  | .ok (event, payload) =>
    if event = "control" ∧ payload = "done" then do
      let done ← topicRun message.topic
      passing loads call ⟨"metadata", runDone (some done), message.id, done⟩
    else passing loads call ⟨event, payload, message.id, Runs.strOfRunId runId⟩

/-- The stored messages after `last_event_id`, of all runs of the thread, by their ids. -/
def snapshot (s : ThreadStreams) (lastEventId : String) : Except PyError (List (Message × Option Uuid)) := do
  let runs := ((Dict.get? s.streams.messageStores (some call.threadId)).getD .empty).entries
  let restored ← runs.mapM (fun run => (messagesAfter lastEventId run.2).map (fun messages =>
    messages.map (fun message => (message, run.1))))
  .ok (restored.flatten.insertionSort (fun a b => a.1.id.getD "" ≤ b.1.id.getD ""))

/-- The loop over the events to replay. -/
def replayNext : List (Message × Option Uuid) → Next (List (Message × Option Uuid))
  | [] => .exhausted
  | (message, runId) :: rest =>
    match replayedEvent decode loads call message runId with
    | .error e => .fails e rest
    | .ok none => replayNext rest
    | .ok (some event) => .yields event rest

/-- `while True: queue.get_nowait()` over what a queue holds. -/
def readQueue (runId : Option Uuid) : List Message → Next (List Message)
  | [] => .exhausted
  | message :: rest =>
    match liveEvent decode loads call message runId with
    | .error e => .fails e rest
    | .ok none => readQueue runId rest
    | .ok (some event) => .yields event rest

/-- The queue is left with these messages. -/
def leave (s : ThreadStreams) (queue : Nat) (rest : List Message) : ThreadStreams :=
  s.withStreams { s.streams with contents := fun i => if i = queue then rest else s.streams.contents i }

/-- The pass over the queues. -/
def drain (s : ThreadStreams) : Queues → ThreadStreams × Next Queues
  | [] => (s, .exhausted)
  | (runId, queue) :: todo =>
    match readQueue decode loads call runId (s.streams.contents queue) with
    | .exhausted => drain (leave s queue []) todo
    | .yields event rest => (leave s queue rest, .yields event ((runId, queue) :: todo))
    | .fails e rest => (leave s queue rest, .fails e todo)

/-- `finally:` each queue is removed, and an error of that is ignored. -/
def closeQueues (s : ThreadStreams) (queues : Queues) : ThreadStreams :=
  queues.foldl (fun s queue =>
    match s.streams.removeQueue queue.1 (some call.threadId) queue.2 with
    | .error _ => s
    | .ok streams => s.withStreams streams) s

def StreamJoin.close (s : ThreadStreams) (queues : Queues) (e : PyError) : StreamTurn :=
  raised (closeQueues call s queues) e

/-- A pass from some of the queues on; `drained` says that the pass has yielded. -/
def StreamJoin.pass (s : ThreadStreams) (seen : List (Option Uuid)) (queues todo : Queues) (drained : Bool) :
    StreamTurn :=
  match drain decode loads call s todo with
  | (s, .exhausted) => (s, .suspended (if drained then .resting seen queues else .idling seen queues))
  | (s, .yields event todo) => (s, .yielded (.ok [event]) (.draining seen queues todo))
  | (s, .fails e _) => StreamJoin.close call s queues e

/-- One round of the loop: new queues, and a pass over all of them. -/
def StreamJoin.poll (s : ThreadStreams) (seen : List (Option Uuid)) (queues : Queues) : StreamTurn :=
  let p := subscribe call.threadId ⟨s, seen, queues⟩
  StreamJoin.pass decode loads call p.shared p.seen p.queues p.queues false

/-- The replay up to its next `yield`, or on to the first round. -/
def StreamJoin.replay (s : ThreadStreams) (rest : List (Message × Option Uuid)) : StreamTurn :=
  match replayNext decode loads call rest with
  | .exhausted => StreamJoin.poll decode loads call s [] []
  | .yields event rest => (s, .yielded (.ok [event]) (.replaying rest))
  | .fails e _ => raised s e

/-- `Threads.Stream.join_event_streaming` -/
def StreamJoin.resume (s : ThreadStreams) : StreamJoin → Reply → StreamTurn
  | .called, _ => (s, .suspended .authorizing)
  | .authorizing, reply =>
    match reply.answer with
    | .error e => raised s e
    | .ok filters =>
      if filters.truthy then
        match Threads.getWithFilters s.toRuntime call.threadId filters with
        | (runtime, .error e) => raised (s.withLive (s.withRuntime runtime)) e
        | (runtime, .ok none) => raised (s.withLive (s.withRuntime runtime)) (.http 404 "Thread not found")
        | (runtime, .ok (some _)) => (s.withLive (s.withRuntime runtime), .suspended .logging)
      else (s, .suspended .logging)
  | .logging, reply =>
    match reply.answer, call.lastEventId with
    | .error e, _ => raised s e
    | .ok _, none => StreamJoin.poll decode loads call s [] []
    | .ok _, some lastEventId =>
      match snapshot call s lastEventId with
      | .error e => raised s e
      | .ok messages => StreamJoin.replay decode loads call s messages
  | .replaying rest, reply =>
    match reply.answer with
    | .error e => raised s e
    | .ok _ => StreamJoin.replay decode loads call s rest
  | .draining seen queues todo, reply =>
    match reply.answer with
    | .error e => StreamJoin.close call s queues e
    | .ok _ => StreamJoin.pass decode loads call s seen queues todo true
  | .resting seen queues, reply | .idling seen queues, reply =>
    match reply.answer with
    | .error e => StreamJoin.close call s queues e
    | .ok _ => StreamJoin.poll decode loads call s seen queues

end Generator

end Threads

end InmemRuntime
