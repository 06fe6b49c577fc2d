import InmemRuntime.ThreadSearch
import InmemRuntime.ThreadSweep

namespace InmemRuntime

namespace Threads

inductive Search where
  | called (call : SearchCall)
  | authorizing (call : SearchCall)

/-- `Threads.search`. The handler is asked first. -/
def Search.resume (uuid : String → Except PyError Uuid) (upper : String → String) (s : Runtime) :
    Search → Reply → Runtime × Turn Search (Except PyError (Page Thread))
  | .called call, _ => (s, .suspended (.authorizing call))
  | .authorizing call, reply =>
    attempt s reply.answer (fun filters =>
      let (s, page) := searchWith uuid upper s call filters
      (s, .finished page))

structure CountCall where
  metadata : PyDict
  values : PyDict
  status : Option ThreadStatus

def CountCall.filter (call : CountCall) (filters : PyVal) : ThreadFilter :=
  ⟨filters, call.metadata, call.values, call.status⟩

inductive Count where
  | called (call : CountCall)
  | authorizing (call : CountCall)

/-- `Threads.count` -/
def Count.resume (s : Runtime) : Count → Reply → Runtime × Turn Count (Except PyError Nat)
  | .called call, _ => (s, .suspended (.authorizing call))
  | .authorizing call, reply =>
    attempt s reply.answer (fun filters => (s, .finished (countThreads (call.filter filters) s.threads.values)))

end Threads

namespace Runs

inductive Get where
  | called (runId threadId : Uuid)
  | authorizing (runId threadId : Uuid)

/-- `Runs.get`, with the iterator that it returns: the run is looked up first and its thread after it. -/
def Get.resume (s : Runtime) : Get → Reply → Runtime × Turn Get (Except PyError (List Run))
  | .called runId threadId, _ => (s, .suspended (.authorizing runId threadId))
  | .authorizing runId threadId, reply =>
    attempt s reply.answer (fun filters =>
      match s.runs.find? (byIds runId threadId) with
      | none => returned s []
      | some r =>
        if filters.truthy then
          let (s, found) := Threads.getWithFilters s (s.runs.get r).threadId filters
          attempt s found (fun thread => if thread = none then returned s [] else returned s [s.runs.get r])
        else returned s [s.runs.get r])

structure SearchCall where
  threadId : Uuid
  limit : Nat
  offset : Nat
  status : Option RunStatus

inductive Search where
  | called (call : SearchCall)
  | authorizing (call : SearchCall)

/-- `filtered_runs`: the thread is looked up again for each run on it, and the empty
`metadata` is contained in every other. -/
def selectRuns (call : SearchCall) (filters : PyVal) : Runtime → List Nat → Runtime × Except PyError (List Nat)
  | s, [] => (s, .ok [])
  | s, r :: rest =>
    if (s.runs.get r).threadId ≠ call.threadId then selectRuns call filters s rest
    else
      let (s, found) : Runtime × Except PyError Bool :=
        if filters.truthy then
          let (s, thread) := Threads.getWithFilters s call.threadId filters
          (s, thread.map Option.isSome)
        else (s, .ok true)
      match found with
      | .error e => (s, .error e)
      | .ok allowed =>
        let (s, others) := selectRuns call filters s rest
        (s, others.map (fun rows =>
          if allowed && call.status.all (fun status => (s.runs.get r).status = some status) then r :: rows else rows))

/-- `sorted(filtered_runs, key=lambda x: x["created_at"], reverse=True)` -/
def newestFirst (runs : List Run) : Except PyError (List Run) :=
  if runs.any (fun run => run.createdAt.isNone) then .error .keyError
  else .ok (sortedBy (fun a b => a.createdAt.getD 0 ≤ b.createdAt.getD 0) true runs)

/-- `Runs.search` -/
def Search.resume (s : Runtime) : Search → Reply → Runtime × Turn Search (Except PyError (List Run))
  | .called call, _ => (s, .suspended (.authorizing call))
  | .authorizing call, reply =>
    attempt s reply.answer (fun filters =>
      let (s, selected) := selectRuns call filters s s.runs.rows
      attempt s selected (fun rows =>
        attempt s (newestFirst (rows.map s.runs.get)) (fun runs =>
          returned s ((runs.drop call.offset).take call.limit))))

end Runs

end InmemRuntime
