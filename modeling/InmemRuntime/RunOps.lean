import InmemRuntime.RunCheckpoints
import InmemRuntime.ThreadOps

namespace InmemRuntime

/-- `matching_thread.setdefault("state_updated_at", matching_thread.get("updated_at"))` -/
def Thread.withStateUpdatedAt (thread : Thread) : Thread :=
  { thread with stateUpdatedAt := some (thread.stateUpdatedAt.getD thread.updatedAt) }

/-- `Threads._get_with_filters`, which completes the record that it returns. -/
def Threads.getWithFilters (s : Runtime) (threadId : Uuid) (filters : PyVal) :
    Runtime × Except PyError (Option Nat) :=
  match s.threads.find? (Threads.byId threadId) with
  | none => (s, .ok none)
  | some r =>
    match filtersAllow (s.threads.get r).metadata filters with
    | .error e => (s, .error e)
    | .ok false => (s, .ok none)
    | .ok true => ({ s with threads := s.threads.update r Thread.withStateUpdatedAt }, .ok (some r))

namespace Runs

/-- The search of `Runs.delete`. -/
def byIds (runId : Uuid) (threadId : Uuid) (run : Run) : Bool :=
  run.runId = some runId ∧ run.threadId = threadId

inductive Delete where
  | called (runId : Option Uuid) (threadId : Uuid)
  | authorizing (runId threadId : Uuid)
  | deletingCheckpoints (runId threadId : Uuid)

abbrev DeleteTurn := Runtime × Turn Delete (Except PyError (List Uuid))

/-- The search for the run and its removal, with no await between them. -/
def Delete.remove (s : Runtime) (runId threadId : Uuid) : DeleteTurn :=
  match s.runs.findIdx? (byIds runId threadId) with
  | none => raised s (.http 404 "Run not found")
  | some i => returned { s with runs := s.runs.pop i } [runId]

def Delete.checkpoints (serde : Serde) (s : Runtime) (runId threadId : Uuid) : DeleteTurn :=
  if s.config.useCustomCheckpointer then (s, .suspended (.deletingCheckpoints runId threadId))
  else
    Delete.remove { s with memory := s.memory.deleteRunCheckpoints serde runId.str threadId.str } runId threadId

/-- `Runs.delete`. `_ensure_uuid` draws a new id when it is given none. -/
def Delete.resume (serde : Serde) (s : Runtime) : Delete → Reply → DeleteTurn
  | .called runId threadId, reply => (s, .suspended (.authorizing (runId.getD reply.fresh) threadId))
  | .authorizing runId threadId, reply =>
    attempt s reply.answer (fun filters =>
      if filters.truthy then
        let (s, found) := Threads.getWithFilters s threadId filters
        attempt s found (fun thread =>
          if thread = none then returned s [] else Delete.checkpoints serde s runId threadId)
      else Delete.checkpoints serde s runId threadId)
  | .deletingCheckpoints runId threadId, reply =>
    attempt s reply.answer (fun _ => Delete.remove s runId threadId)

/-- `run.update({"status": status, "updated_at": now})` -/
def withStatus (status : RunStatus) (now : Time) (run : Run) : Run :=
  { run with status := some status, updatedAt := some now }

/-- `Runs.set_status`: the first run with the id, on whatever thread. -/
def setStatus (s : Runtime) (runId : Uuid) (status : RunStatus) (now : Time) : Runtime :=
  match s.runs.find? (fun run => run.runId = some runId) with
  | none => s
  | some r => { s with runs := s.runs.update r (withStatus status now) }

end Runs

structure TaskPayload where
  id : String
  /-- The id and the value of each interrupt. -/
  interrupts : List (PyVal × PyVal)

structure CheckpointPayload where
  next : List PyVal
  values : PyVal
  tasks : List TaskPayload

inductive ExceptionKind where
  | userInterrupt
  | userRollback
  | other
deriving DecidableEq

/-- An exception and `json_loads(json_dumpb(exception))`. -/
structure PyException where
  kind : ExceptionKind
  json : PyVal

/-- `_patch_interrupt` with `USE_NEW_INTERRUPTS` -/
def patchInterrupt (interrupt : PyVal × PyVal) : PyVal :=
  .dict [("id", interrupt.1), ("value", interrupt.2)]

def interruptsOf (checkpoint : Option CheckpointPayload) : PyDict :=
  checkpoint.elim [] (fun checkpoint =>
    PyDict.update [] ((checkpoint.tasks.filter (fun task => !task.interrupts.isEmpty)).map (fun task =>
      (task.id, .list (task.interrupts.map patchInterrupt)))))

def hasNext (checkpoint : Option CheckpointPayload) : Bool :=
  checkpoint.elim false (fun checkpoint => !checkpoint.next.isEmpty)

/-- `thread.update(update)` with the keys that both status operations write. -/
def Thread.reported (status : ThreadStatus) (checkpoint : Option CheckpointPayload)
    (exception : Option PyException) (now : Time) (thread : Thread) : Thread :=
  { thread with
    updatedAt := now
    stateUpdatedAt := some now
    status := status
    interrupts := some (interruptsOf checkpoint)
    error := some (exception.elim .none PyException.json)
    values := checkpoint.elim thread.values (fun checkpoint => some checkpoint.values) }

namespace Threads

def activeOn (threadId : Uuid) (run : Run) : Bool := run.threadId = threadId && run.isActive

def hasActiveRuns (s : Runtime) (threadId : Uuid) : Bool := s.runs.values.any (activeOn threadId)

def baseStatus (checkpoint : Option CheckpointPayload) (failed : Bool) : ThreadStatus :=
  if failed then .error else if hasNext checkpoint then .interrupted else .idle

/-- `Threads.set_status`. -/
def setStatus (s : Runtime) (threadId : Uuid) (checkpoint : Option CheckpointPayload)
    (exception : Option PyException) (now : Time) : Runtime × Except PyError Unit :=
  match s.threads.find? (byId threadId) with
  | none => (s, .error (.http 404 s!"Thread {threadId.str} not found."))
  | some r =>
    let status := if hasActiveRuns s threadId then .busy else baseStatus checkpoint exception.isSome
    ({ s with threads := s.threads.update r (Thread.reported status checkpoint exception now) }, .ok ())

/-- A run status, or the word that deletes the run. -/
inductive JointStatus where
  | status (status : RunStatus)
  | rollback
deriving DecidableEq

structure JointCall where
  threadId : Uuid
  runId : Uuid
  runStatus : JointStatus
  graphId : String
  checkpoint : Option CheckpointPayload
  exception : Option PyException

/-- `exception and not isinstance(exception, UserInterrupt | UserRollback)` -/
def JointCall.failed (call : JointCall) : Bool :=
  call.exception.elim false (fun exception => exception.kind = .other)

inductive Joint where
  | called (call : JointCall)
  | rollingBack (call : JointCall) (thread : Nat) (now : Time) (deletion : Runs.Delete)

/-- The end of `set_joint_status`, on the record found at its start. -/
def Joint.finish (s : Runtime) (call : JointCall) (thread : Nat) (now : Time) (busy : Bool) : Runtime :=
  let status := if busy then .busy else baseStatus call.checkpoint call.failed
  { s with threads := s.threads.update thread (fun record =>
      Thread.reported status call.checkpoint call.exception now
        { record with metadata := record.metadata.set "graph_id" (.str call.graphId) }) }

/-- The awaited `Runs.delete`: it is suspended, it raises, or it ends and the
status of the thread is worked out from what is left. -/
def Joint.afterDelete (call : JointCall) (thread : Nat) (now : Time) (turn : Runs.DeleteTurn) :
    Runtime × Turn Joint (Except PyError Unit) :=
  match turn with
  | (s, .suspended deletion) => (s, .suspended (.rollingBack call thread now deletion))
  | (s, .finished (.error e)) => raised s e
  | (s, _) => returned (Joint.finish s call thread now (hasActiveRuns s call.threadId)) ()

/-- `Threads.set_joint_status`. -/
def Joint.resume (serde : Serde) (s : Runtime) : Joint → Reply → Runtime × Turn Joint (Except PyError Unit)
  | .called call, reply =>
    match s.threads.find? (byId call.threadId) with
    | none => raised s (.http 404 s!"Thread {call.threadId.str} not found")
    | some thread =>
      match s.runs.find? (Runs.byIds call.runId call.threadId) with
      | none => raised s (.http 404 s!"Run {call.runId.str} not found")
      | some run =>
        match call.runStatus with
        | .rollback =>
          Joint.afterDelete call thread reply.now
            (Runs.Delete.resume serde s (.called (some call.runId) (s.runs.get run).threadId) reply)
        | .status status =>
          let s := { s with runs := s.runs.update run (Runs.withStatus status reply.now) }
          let busy := status = .pending ∨ status = .running ∨ hasActiveRuns s call.threadId
          returned (Joint.finish s call thread reply.now (decide busy)) ()
  | .rollingBack call thread now deletion, reply =>
    Joint.afterDelete call thread now (Runs.Delete.resume serde s deletion reply)

end Threads

end InmemRuntime
