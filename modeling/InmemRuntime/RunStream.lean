import InmemRuntime.RunOps
import InmemRuntime.StreamDelivery

namespace InmemRuntime

/-- Everything shared, with the deliveries under way. -/
structure LiveRuntime extends Runtime where
  underway : List (Nat × Message)

namespace LiveRuntime

def deliveries (s : LiveRuntime) : Deliveries := ⟨s.streams, s.underway⟩

def withDeliveries (s : LiveRuntime) (d : Deliveries) : LiveRuntime :=
  { s with streams := d.streams, underway := d.underway }

@[simp] theorem withDeliveries_deliveries (s : LiveRuntime) (d : Deliveries) : (s.withDeliveries d).deliveries = d := rfl

def withRuntime (s : LiveRuntime) (runtime : Runtime) : LiveRuntime := { s with toRuntime := runtime }

end LiveRuntime

namespace StreamManager

/-- `while True: queue.put(control_queue.get_nowait())` over the control queues. -/
def drainInto (m : StreamManager) (queue : Nat) : List Nat → StreamManager
  | [] => m
  | controlQueue :: rest =>
    drainInto
      { m with
        contents := fun i =>
          if i = queue then m.contents queue ++ m.contents controlQueue
          else if i = controlQueue then [] else m.contents i }
      queue rest

end StreamManager

namespace Runs

/-- `Runs.get` after its auth event: the first run with both ids, when the
filters let its thread be seen. -/
def visibleRun (s : Runtime) (runId threadId : Uuid) (filters : PyVal) : Runtime × Except PyError (Option Nat) :=
  match s.runs.find? (byIds runId threadId) with
  | none => (s, .ok none)
  | some r =>
    if filters.truthy then
      match Threads.getWithFilters s (s.runs.get r).threadId filters with
      | (s, .error e) => (s, .error e)
      | (s, .ok found) => (s, .ok (if found.isSome then some r else none))
    else (s, .ok (some r))

/-- `stream_mode`: no filter, one mode or a list of modes. -/
inductive ModeFilter where
  | none
  | one (mode : String)
  | list (modes : List String)

namespace ModeFilter

def truthy : ModeFilter → Bool
  | .none => false
  | .one mode => mode ≠ ""
  | .list modes => modes ≠ []

/-- `mode in stream_mode`, which in a string looks for a substring. -/
def has (filter : ModeFilter) (mode : String) : Bool :=
  match filter with
  | .none => false
  | .one text => PyVal.isSubstring mode text
  | .list modes => modes.contains mode

end ModeFilter

/-- `event_mode.partition("|")[0]` -/
def baseMode (eventMode : String) : String := String.ofList (eventMode.toList.takeWhile (· ≠ '|'))

/-- `_run_stream_mode_matches` -/
def runStreamModeMatches (eventMode : String) (filter : ModeFilter) : Bool :=
  if !filter.truthy then true
  else if filter.has eventMode then true
  else if (filter.has "messages" || filter.has "messages-tuple") && "messages".toList.isPrefixOf eventMode.toList then true
  else PyVal.isSubstring "|" eventMode && filter.has (baseMode eventMode)

/-- `Runs.Stream.subscribe`: a new queue, with what the control queues of the run hold. -/
def subscribe (m : StreamManager) (runId threadId : Uuid) : Nat × StreamManager :=
  let (queue, m) := m.addQueue (some runId) (some threadId)
  (queue, m.drainInto queue ((m.controlQueues.get? (some threadId) (some runId)).getD []))

/-- What `join` yields. The error event carries the exception it is made from. -/
inductive RunEvent where
  | message (mode payload : String) (id : Option String)
  | error (e : PyError)
deriving DecidableEq

structure JoinCall where
  runId : Uuid
  threadId : Uuid
  ignore404 : Bool
  streamMode : ModeFilter
  lastEventId : Option String

/-- Where the generator waits. `replaying` and `handing` are its two `yield`s
of a message; `run` is the run it has found last. -/
inductive Join where
  | called (queue : Nat)
  | authorizing (queue : Nat)
  | gettingRun (queue : Nat)
  | replaying (queue : Nat) (run : Option Nat) (next : Nat)
  | listening (queue : Nat) (run : Option Nat)
  | handing (queue : Nat) (run : Option Nat)
  | checking (queue : Nat)
  | breaking (queue : Nat)

/-- What the loop over the stored messages comes to next. -/
inductive Replayed where
  | exhausted
  | done
  | yields (event : RunEvent) (next : Nat)
  | fails (e : PyError)

abbrev JoinTurn := LiveRuntime × Turn Join (Except PyError (List RunEvent))

section Generator

variable (decode : Message → Except PyError (String × String)) (call : JoinCall)

/-- The loop over the stored messages, from the one at position `next` on. -/
def replay (lastEventId : String) : List Message → Nat → Replayed
  | [], _ => .exhausted
  | message :: rest, next =>
    match message.isAfter lastEventId with
    | .error e => .fails e
    | .ok false => replay lastEventId rest (next + 1)
    | .ok true =>
      match decode message with
      | .error e => .fails e
      | .ok (mode, payload) =>
        if mode = "control" then
          if payload = "done" then .done else replay lastEventId rest (next + 1)
        else if runStreamModeMatches mode call.streamMode then .yields (.message mode payload message.id) (next + 1)
        else replay lastEventId rest (next + 1)

/-- The messages kept for the run. -/
def JoinCall.stored (s : LiveRuntime) : List Message := s.streams.stored (some call.runId) (some call.threadId)

/-- `finally: await stream_manager.remove_queue(...)` -/
def Join.close (s : LiveRuntime) (queue : Nat) (outcome : Except PyError (List RunEvent)) : JoinTurn :=
  match s.streams.removeQueue (some call.runId) (some call.threadId) queue with
  | .error e => raised s e
  | .ok streams => (s.withRuntime { s.toRuntime with streams := streams }, .finished outcome)

/-- The stored messages from a position on, up to a yield or the live messages. -/
def Join.replayFrom (s : LiveRuntime) (queue : Nat) (run : Option Nat) (next : Nat) : JoinTurn :=
  match call.lastEventId with
  | none => (s, .suspended (.listening queue run))
  | some lastEventId =>
    match replay decode call lastEventId ((call.stored s).drop next) next with
    | .exhausted => (s, .suspended (.listening queue run))
    | .done => Join.close call s queue (.ok [])
    | .yields event next => (s, .yielded (.ok [event]) (.replaying queue run next))
    | .fails e => Join.close call s queue (.error e)

/-- Reading the stores leaves an entry behind when the thread has one. -/
def Join.startReplay (s : LiveRuntime) : LiveRuntime :=
  if call.lastEventId.isSome ∧ Dict.contains s.streams.messageStores (some call.threadId) then
    s.withRuntime { s.toRuntime with streams := { s.streams with
      messageStores := s.streams.messageStores.touch (some call.threadId) (some call.runId) } }
  else s

/-- `run.get("kwargs", {}).get("resumable")` decides whether the id is given. -/
def streamId (s : LiveRuntime) (r : Nat) (message : Message) : Option String :=
  if ((s.runs.get r).kwargs.get? "resumable").any PyVal.truthy then message.id else none

/-- What a message from the queue leads to. -/
def Join.read (s : LiveRuntime) (queue : Nat) (run : Option Nat) (message : Message) : JoinTurn :=
  match decode message with
  | .error e => Join.close call s queue (.error e)
  | .ok (mode, payload) =>
    if mode = "control" then
      if payload = "done" then Join.close call s queue (.ok []) else (s, .suspended (.listening queue run))
    else if runStreamModeMatches mode call.streamMode then
      match run with
      | none => Join.close call s queue (.error .attributeError)
      | some r => (s, .yielded (.ok [.message mode payload (streamId s r message)]) (.handing queue run))
    else (s, .suspended (.listening queue run))

/-- `Runs.Stream.join`. Its wait raises only its timeout. What
`cancel_on_disconnect` starts is a call of its own. -/
def Join.resume (s : LiveRuntime) : Join → Reply → JoinTurn
  | .called queue, _ => (s, .suspended (.authorizing queue))
  | .authorizing queue, reply =>
    match reply.answer with
    | .error e => Join.close call s queue (.error e)
    | .ok filters =>
      if filters.truthy then
        match Threads.getWithFilters s.toRuntime call.threadId filters with
        | (runtime, .error e) => Join.close call (s.withRuntime runtime) queue (.error e)
        | (runtime, .ok none) =>
          Join.close call (s.withRuntime runtime) queue (.error (.http 404 "Thread not found"))
        | (runtime, .ok (some _)) => (s.withRuntime runtime, .suspended (.gettingRun queue))
      else (s, .suspended (.gettingRun queue))
  | .gettingRun queue, reply =>
    match reply.answer with
    | .error e => Join.close call s queue (.error e)
    | .ok filters =>
      match visibleRun s.toRuntime call.runId call.threadId filters with
      | (runtime, .error e) => Join.close call (s.withRuntime runtime) queue (.error e)
      | (runtime, .ok run) => Join.replayFrom decode call (Join.startReplay call (s.withRuntime runtime)) queue run 0
  | .replaying queue run next, reply =>
    match reply.answer with
    | .error e => Join.close call s queue (.error e)
    | .ok _ => Join.replayFrom decode call s queue run next
  | .listening queue run, reply =>
    match reply.answer with
    | .error _ => (s, .suspended (.checking queue))
    | .ok _ =>
      match s.deliveries.take? queue with
      | none => (s, .suspended (.listening queue run))
      | some (message, d) => Join.read decode call (s.withDeliveries d) queue run message
  | .handing queue run, reply =>
    match reply.answer with
    | .error e => Join.close call s queue (.error e)
    | .ok _ => (s, .suspended (.listening queue run))
  | .checking queue, reply =>
    match reply.answer with
    | .error e => Join.close call s queue (.error e)
    | .ok filters =>
      match visibleRun s.toRuntime call.runId call.threadId filters with
      | (runtime, .error e) => Join.close call (s.withRuntime runtime) queue (.error e)
      | (runtime, .ok none) =>
        if call.ignore404 then Join.close call (s.withRuntime runtime) queue (.ok [])
        else (s.withRuntime runtime, .yielded (.ok [.error (.http 404 "Run not found")]) (.breaking queue))
      | (runtime, .ok (some r)) =>
        if (runtime.runs.get r).isActive then (s.withRuntime runtime, .suspended (.listening queue (some r)))
        else Join.close call (s.withRuntime runtime) queue (.ok [])
  | .breaking queue, reply =>
    match reply.answer with
    | .error e => Join.close call s queue (.error e)
    | .ok _ => Join.close call s queue (.ok [])

end Generator

end Runs

end InmemRuntime
