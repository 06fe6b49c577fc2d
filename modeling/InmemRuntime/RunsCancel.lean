import InmemRuntime.RunOps

namespace InmemRuntime

namespace Runs

inductive CancelAction where
  | interrupt
  | rollback
deriving DecidableEq

def CancelAction.text : CancelAction → String
  | .interrupt => "interrupt"
  | .rollback => "rollback"

inductive CancelStatus where
  | pending
  | running
  | all
  | other (name : String)
deriving DecidableEq

structure CancelCall where
  runIds : Option (List Uuid)
  action : CancelAction
  threadId : Option Uuid
  status : Option CancelStatus
  assistantId : Option Uuid

/-- The first part of `cancel`: one of the three selection forms, and no mixture. -/
def CancelCall.validate (call : CancelCall) : Except PyError Unit :=
  if call.assistantId.isSome then
    if call.threadId.isSome ∨ call.runIds.isSome ∨ call.status.isSome then
      .error (.http 422
        "Cannot specify 'thread_id', 'run_ids', or 'status' when using 'assistant_id'")
    else .ok ()
  else if call.status.isSome then
    if call.threadId.isSome ∨ call.runIds.isSome then
      .error (.http 422 "Cannot specify 'thread_id' or 'run_ids' when using 'status'")
    else .ok ()
  else if call.threadId.isNone ∨ call.runIds.isNone then
    .error (.http 422
      "Must provide either a status, an assistant_id, or both 'thread_id' and 'run_ids'")
  else .ok ()

/-- `status_list`, empty when no status is given. -/
def statusList : Option CancelStatus → Except PyError (List RunStatus)
  | none => .ok []
  | some .all => .ok [.pending, .running]
  | some .pending => .ok [.pending]
  | some .running => .ok [.running]
  | some (.other name) => .error (.valueError s!"Unsupported status: {name}")

/-- `is_run_match` -/
def CancelCall.isRunMatch (call : CancelCall) (statuses : List RunStatus) (run : Run) : Bool :=
  match call.assistantId with
  | some assistantId => run.assistantId = assistantId && run.isActive
  | none =>
    if statuses ≠ [] then statuses.any (fun status => run.status = some status)
    else some run.threadId = call.threadId && (call.runIds.getD []).any (fun runId => run.runId = some runId)

/-- Where a call of `cancel` waits: `deferred` is the loop at a log call, with
the run that it will add a deletion for, if any, and the tasks collected so
far. The last two are the tasks that are gathered. -/
inductive Cancel where
  | called (call : CancelCall)
  | authorizing (call : CancelCall)
  | deferred (call : CancelCall) (eager : Option Nat) (rest : List Nat) (tasks : List Cancel) (cancelable : List Nat)
  | gathering (call : CancelCall) (cancelable : List Nat)
  | reporting
  | putting (runId threadId : Option Uuid) (message : Message)
  | deleting (deletion : Delete)

abbrev CancelTurn := Runtime × Turn Cancel (Except PyError Unit)

def strOfRunId (runId : Option Uuid) : String := runId.elim "None" Uuid.str

def controlMessage (action : CancelAction) (runId : Option Uuid) : Message :=
  ⟨s!"run:{strOfRunId runId}:control", action.text, none⟩

/-- `[r for r in candidate_runs if await _get_with_filters(conn, r["thread_id"], filters)]` -/
def filterCandidates (filters : PyVal) : Runtime → List Nat → Runtime × Except PyError (List Nat)
  | s, [] => (s, .ok [])
  | s, r :: rest =>
    match Threads.getWithFilters s (s.runs.get r).threadId filters with
    | (s, .error e) => (s, .error e)
    | (s, .ok found) =>
      match filterCandidates filters s rest with
      | (s, .error e) => (s, .error e)
      | (s, .ok kept) => (s, .ok (if found.isSome then r :: kept else kept))

/-- The candidates that the auth filters leave. -/
def authorizedCandidates (call : CancelCall) (filters : PyVal) (s : Runtime) (candidates : List Nat) :
    Runtime × Except PyError (List Nat) :=
  if filters.truthy then
    match call.threadId with
    | some threadId =>
      match Threads.getWithFilters s threadId filters with
      | (s, .error e) => (s, .error e)
      | (s, .ok found) => (s, .ok (if found.isSome then candidates else []))
    | none => filterCandidates filters s candidates
  else (s, .ok candidates)

/-- `thread["status"] = "idle"; thread["updated_at"] = now` on the thread of a pending run. -/
def idleThreadOf (s : Runtime) (threadId : Uuid) (now : Time) : Runtime :=
  match s.threads.find? (Threads.byId threadId) with
  | none => s
  | some r =>
    { s with threads := s.threads.update r (fun thread => { thread with status := .idle, updatedAt := now }) }

def interruptRun (s : Runtime) (r : Nat) (now : Time) : Runtime :=
  { s with runs := s.runs.update r (withStatus .interrupted now) }

/-- The control message of one candidate is made and the queues of its stream
are looked up, under the `thread_id` argument of the call. -/
def signal (call : CancelCall) (s : Runtime) (r : Nat) : Runtime × Cancel × List Nat :=
  let runId := (s.runs.get r).runId
  let (queues, streams) := s.streams.getQueues runId call.threadId
  ({ s with streams := streams }, .putting runId call.threadId (controlMessage call.action runId), queues)

/-- A candidate that is marked in place. -/
def markInterrupted (s : Runtime) (r : Nat) (now : Time) : Runtime :=
  interruptRun (if (s.runs.get r).isPending then idleThreadOf s (s.runs.get r).threadId now else s) r now

/-- What follows the loop. -/
def Cancel.afterLoop (call : CancelCall) (s : Runtime) (tasks : List Cancel) (cancelable : List Nat) : CancelTurn :=
  if cancelable = [] then
    if call.assistantId.isSome then returned s ()
    else raised s (.http 404 ("No matching runs to cancel. Please verify the thread ID and run IDs are " ++
      "correct, and the runs haven't been deleted or completed."))
  else if tasks = [] then (s, .suspended .reporting)
  else (s, .forked tasks (.gathering call cancelable))

/-- The loop over the candidates, up to the next log call. -/
def Cancel.loop (call : CancelCall) (now : Time) :
    Runtime → List Nat → List Cancel → List Nat → CancelTurn
  | s, [], tasks, cancelable => Cancel.afterLoop call s tasks cancelable
  | s, r :: rest, tasks, cancelable =>
    let (s, put, queues) := signal call s r
    let tasks := tasks ++ [put]
    if (s.runs.get r).isActive then
      let cancelable := cancelable ++ [r]
      if queues ≠ [] ∨ call.action ≠ .rollback then
        Cancel.loop call now (markInterrupted s r now) rest tasks cancelable
      else (s, .suspended (.deferred call (some r) rest tasks cancelable))
    else (s, .suspended (.deferred call none rest tasks cancelable))

/-- The deletion of a run that was logged as eagerly deleted. -/
def eagerDeletion (s : Runtime) (eager : Option Nat) : List Cancel :=
  eager.elim [] (fun r => [.deleting (.called (s.runs.get r).runId (s.runs.get r).threadId)])

/-- `Runs.cancel`, and the tasks that it gathers. -/
def Cancel.resume (serde : Serde) (s : Runtime) : Cancel → Reply → CancelTurn
  | .called call, _ => attempt s call.validate (fun _ => (s, .suspended (.authorizing call)))
  | .authorizing call, reply =>
    attempt s reply.answer (fun filters =>
      attempt s (statusList call.status) (fun statuses =>
        let candidates := s.runs.rows.filter (fun r => call.isRunMatch statuses (s.runs.get r))
        let (s, authorized) := authorizedCandidates call filters s candidates
        attempt s authorized (fun candidates =>
          if candidates = [] then
            if call.assistantId.isSome then returned s ()
            else raised s (.http 404 "No runs found to cancel.")
          else Cancel.loop call reply.now s candidates [] [])))
  | .deferred call eager rest tasks cancelable, reply =>
    attempt s reply.answer (fun _ =>
      Cancel.loop call reply.now s rest (tasks ++ eagerDeletion s eager) cancelable)
  | .gathering _ _, reply => attempt s reply.answer (fun _ => (s, .suspended .reporting))
  | .reporting, reply => attempt s reply.answer (fun _ => returned s ())
  | .putting runId threadId message, reply =>
    returned { s with streams := s.streams.put runId threadId message false reply.now } ()
  | .deleting deletion, reply =>
    let (s, turn) := Delete.resume serde s deletion reply
    (s, turn.map .deleting (fun outcome => outcome.map (fun _ => ())))

end Runs

end InmemRuntime
