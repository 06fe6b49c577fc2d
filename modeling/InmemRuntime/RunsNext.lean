import InmemRuntime.RunOps

namespace InmemRuntime

namespace Runs

/-- What a call of `next` keeps while it holds `RUN_LOCK`: `pending_runs`, the
limit and how far the loop is. -/
structure Holding where
  pendingRuns : List Nat
  position : Nat
  limit : Nat

namespace Holding

/-- The runs that `zip(range(limit), pending_runs)` has given out already. -/
def passed (holding : Holding) : List Nat := holding.pendingRuns.take holding.position

/-- Those that it will still give out. -/
def remaining (holding : Holding) : List Nat := (holding.pendingRuns.take holding.limit).drop holding.position

end Holding

/-- Where a call of `next` waits. `now` is read before the first await. -/
inductive Next where
  | called (limit : Nat)
  | sleeping (limit : Nat) (now : Time)
  | locking (limit : Nat) (now : Time)
  | warning (holding : Holding)
  | yielding (holding : Holding)

/-- `run["status"] == "pending" and run.get("created_at", now) < now` -/
def isDue (now : Time) (run : Run) : Bool := run.isPending && (run.createdAt.getD now < now)

/-- The sort key of `next`. -/
def createdKey (run : Run) : Time := run.createdAt.getD minTime

/-- `pending_runs`. The sort is stable. -/
def pendingRuns (s : Runtime) (now : Time) : List Nat :=
  (s.runs.rows.filter (fun r => isDue now (s.runs.get r))).mergeSort
    (fun a b => createdKey (s.runs.get a) ≤ createdKey (s.runs.get b))

/-- Some run of the thread in the store is running. -/
def hasRunning (s : Runtime) (threadId : Uuid) : Bool :=
  s.runs.values.any (fun run => run.threadId = threadId && run.isRunning)

/-- `InMemoryRetryCounter.increment`. The lock is never held across an await. -/
def increment (s : Runtime) (runId : Option Uuid) : Nat × Runtime :=
  let attempt := (s.retryCounter.get? runId).getD 0 + 1
  (attempt, { s with retryCounter := s.retryCounter.set runId attempt })

/-- A run that is handed out, as it is then, and its attempt number. -/
structure HandOut where
  ref : Nat
  run : Run
  attempt : Nat

abbrev NextTurn := Runtime × Turn Next (Except PyError (List HandOut))

/-- `run["status"] = "running"` after the attempt is counted, and the yield. -/
def Next.handOut (s : Runtime) (holding : Holding) (r : Nat) : NextTurn :=
  let (attempt, s) := increment s (s.runs.get r).runId
  let s := { s with runs := s.runs.update r (fun run => { run with status := some .running }) }
  (s, .yielded (.ok [⟨r, s.runs.get r, attempt⟩]) (.yielding holding))

/-- The loop over the runs that remain, up to a yield or a log call. At its
end the lock is released. -/
def Next.loop (holding : Holding) : Nat → Runtime → List Nat → NextTurn
  | _, s, [] => returned { s with runLocked := false } []
  | position, s, r :: rest =>
    let run := s.runs.get r
    let holding' := { holding with position := position + 1 }
    if run.isPending = false then Next.loop holding (position + 1) s rest
    else if (s.threads.find? (Threads.byId run.threadId)).isNone then (s, .suspended (.warning holding'))
    else if hasRunning s run.threadId then Next.loop holding (position + 1) s rest
    else Next.handOut s holding' r

def Next.proceed (s : Runtime) (holding : Holding) : NextTurn :=
  Next.loop holding holding.position s holding.remaining

/-- `Runs.next`. The lock is taken when it is free; an exception thrown at a
yield or a log call releases it. -/
def Next.resume (s : Runtime) : Next → Reply → NextTurn
  | .called limit, reply => (s, .suspended (.sleeping limit reply.now))
  | .sleeping limit now, reply => attempt s reply.answer (fun _ => (s, .suspended (.locking limit now)))
  | .locking limit now, reply =>
    attempt s reply.answer (fun _ =>
      if s.runLocked then (s, .suspended (.locking limit now))
      else Next.proceed { s with runLocked := true } ⟨pendingRuns s now, 0, limit⟩)
  | .warning holding, reply =>
    attempt { s with runLocked := false } reply.answer (fun _ => Next.proceed s holding)
  | .yielding holding, reply =>
    attempt { s with runLocked := false } reply.answer (fun _ => Next.proceed s holding)

end Runs

end InmemRuntime
