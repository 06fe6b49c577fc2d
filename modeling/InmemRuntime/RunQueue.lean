import InmemRuntime.RunsCancel
import InmemRuntime.RunsNext

namespace InmemRuntime

/-- What the scheduler reads of `langgraph_api.config`. `concurrency` is `N_JOBS_PER_WORKER`. -/
structure QueueConfig where
  concurrency : Nat
  heartbeat : Time
  statsInterval : Time

/-- What a turn of the scheduler learns: also `loop.time()`, `graph.is_js_graph`
and how `Runs.stats` goes. -/
structure QueueReply extends Reply where
  time : Time
  isJsGraph : PyVal → Except PyError Bool
  stats : Except PyError Unit

/-- A task of `WORKERS`, with the runner token bound into its callback. -/
structure Worker where
  name : String
  run : Nat
  attempt : Nat
  runner : Nat

inductive WorkerOutcome where
  | cancelled
  | failed (e : PyError)
  | returned (webhook : Bool)

/-- What an iteration has to do besides fetching runs. -/
structure Duties where
  doSweep : Bool
  calcStats : Bool

/-- Where the scheduler is: at an await, in the body of the loop over the runs
(`handling`) or before `Runs.stats` (`counting`), which do not wait. -/
inductive QueuePoint where
  | starting
  | warning
  | requeueing (index : Nat)
  | waiting
  | logging (duties : Duties)
  | fetching (duties : Duties) (generator : Runs.Next)
  | handling (duties : Duties) (item : Runs.HandOut) (generator : Runs.Next)
  | counting (duties : Duties)
  | reporting (duties : Duties)
  | ended (e : PyError)

def QueuePoint.awaits : QueuePoint → Bool
  | .handling _ _ _ | .counting _ => false
  | _ => true

/-- `queue()` with a shared loop. The last three are history: the runs that
`Runs.next` has marked, the tasks that are done, and those of them with a webhook. -/
structure RunQueue where
  runtime : Runtime
  runners : List Nat
  expiredRunners : List Nat
  workers : List Worker
  lastStats : Option Time
  lastSweep : Option Time
  point : QueuePoint
  marked : List Runs.HandOut
  finished : List Worker
  webhooks : List Worker

namespace RunQueue

/-- One token for each job, before the first iteration. -/
def start (config : QueueConfig) (runtime : Runtime) : RunQueue where
  runtime := runtime
  runners := List.range config.concurrency
  expiredRunners := []
  workers := []
  lastStats := none
  lastSweep := none
  point := .starting
  marked := []
  finished := []
  webhooks := []

/-- `last is None or loop.time() - last > period` -/
def isOver (last : Option Time) (time period : Time) : Bool := last.all (fun last => period < time - last)

/-- `dict.get(key, {})`, whose result is asked for a key in turn. -/
def getOrEmpty (d : PyDict) (key : String) : Except PyError PyDict :=
  match d.get? key with
  | none => .ok []
  | some (.dict items) => .ok items
  | some _ => .error .attributeError

/-- `graph_id` -/
def graphId (kwargs : PyDict) : Except PyError (Option PyVal) := do
  let config ← getOrEmpty kwargs "config"
  let configurable ← getOrEmpty config "configurable"
  return configurable.get? "graph_id"

def taskName (reply : QueueReply) (item : Runs.HandOut) : Except PyError String := do
  let graphId ← graphId item.run.kwargs
  let isJs ← (match graphId.filter PyVal.truthy with
    | none => .ok false
    | some id => reply.isJsGraph id : Except PyError Bool)
  let name := s!"run-{Runs.strOfRunId item.run.runId}-attempt-{item.attempt}"
  return if isJs then "js-" ++ name else name

section Turns

variable (config : QueueConfig) (s : RunQueue) (reply : QueueReply)

def isFull : Bool := 0 < config.concurrency && config.concurrency ≤ s.runners.length

/-- The handler of an exception. It calls `exit.aclose()`; `exit` is not a name
of the module but the interpreter's own, an object without that method, so the
handler raises and the loop is left. -/
def fail (_ : PyError) : RunQueue := { s with point := .ended .attributeError }

/-- `Runs.next(wait=…, limit=runners.qsize())`, up to its first await. -/
def fetch (duties : Duties) : RunQueue :=
  { s with point := .fetching duties (.sleeping s.runners.length reply.now) }

def iterate : RunQueue :=
  let doSweep := isOver s.lastSweep reply.time (config.heartbeat * 2)
  if isOver s.lastStats reply.time config.statsInterval then
    { s with lastStats := some reply.time, point := .logging ⟨doSweep, true⟩ }
  else fetch s reply ⟨doSweep, false⟩

/-- `runners.wait()` returns when the queue is not empty. -/
def wait : RunQueue := if s.runners = [] then { s with point := .waiting } else iterate config s reply

def top : RunQueue := if s.expiredRunners ≠ [] then { s with point := .warning } else wait config s reply

/-- The loop that puts the expired runners back, and waits while the queue is full. -/
def requeue : List Nat → Nat → RunQueue → RunQueue
  | [], _, s => wait config { s with expiredRunners := [] } reply
  | runner :: rest, index, s =>
    if isFull config s then { s with point := .requeueing index }
    else requeue rest (index + 1) { s with runners := s.runners ++ [runner] }

/-- `Runs.sweep` does nothing. -/
def sweep (duties : Duties) : RunQueue :=
  top config (if duties.doSweep then { s with lastSweep := some reply.time } else s) reply

/-- What follows the loop over the runs. -/
def afterLoop (duties : Duties) : RunQueue :=
  if duties.calcStats then { s with point := .counting duties } else sweep config s reply duties

def count (duties : Duties) : RunQueue :=
  match reply.stats with
  | .error e => fail s e
  | .ok _ => { s with point := .reporting duties }

/-- What follows a turn of `Runs.next`. -/
def afterNext (duties : Duties) (out : Runs.NextTurn) : RunQueue :=
  let s := { s with runtime := out.1 }
  match out.2 with
  | .yielded (.ok (item :: _)) generator =>
    { s with point := .handling duties item generator, marked := s.marked ++ [item] }
  | .suspended generator | .forked _ generator | .yielded (.ok []) generator =>
    { s with point := .fetching duties generator }
  | .yielded (.error e) _ | .finished (.error e) => fail s e
  | .finished (.ok _) => afterLoop config s reply duties

/-- The body of the loop, and the step of `Runs.next` after it. -/
def handle (duties : Duties) (item : Runs.HandOut) (generator : Runs.Next) : RunQueue :=
  match s.runners with
  | [] => fail s (.foreign "QueueEmpty")
  | runner :: rest =>
    match taskName reply item with
    | .error e => fail { s with runners := rest } e
    | .ok name =>
      afterNext config
        { s with runners := rest, workers := s.workers ++ [⟨name, item.ref, item.attempt, runner⟩] }
        reply duties (Runs.Next.resume s.runtime generator { reply.toReply with answer := .ok .none })

/-- A turn of `queue()`. What is raised outside the `try` leaves the loop as it is. -/
def advance : RunQueue :=
  match s.point, reply.answer with
  | .ended _, _ => s
  | .handling duties item generator, _ => handle config s reply duties item generator
  | .fetching duties generator, _ =>
    afterNext config s reply duties (Runs.Next.resume s.runtime generator reply.toReply)
  | .counting duties, _ => count s reply duties
  | .logging _, .error e | .reporting _, .error e => fail s e
  | .starting, .error e | .warning, .error e | .requeueing _, .error e | .waiting, .error e =>
    { s with point := .ended e }
  | .starting, .ok _ => top config s reply
  | .warning, .ok _ => requeue config reply s.expiredRunners 0 s
  | .requeueing index, .ok _ => requeue config reply (s.expiredRunners.drop index) index s
  | .waiting, .ok _ => wait config s reply
  | .logging duties, .ok _ => fetch s reply duties
  | .reporting duties, .ok _ => sweep config s reply duties

/-- The callback of a task: `put_nowait` fails when the queue is full. -/
def cleanup (outcome : WorkerOutcome) (index : Nat) (worker : Worker) : RunQueue :=
  let s := { s with workers := s.workers.eraseIdx index, finished := s.finished ++ [worker] }
  let s := if isFull config s then { s with expiredRunners := s.expiredRunners ++ [worker.runner] }
    else { s with runners := s.runners ++ [worker.runner] }
  match outcome with
  | .returned true => { s with webhooks := s.webhooks ++ [worker] }
  | _ => s

end Turns

/-- The scheduler gets a turn, a worker's task is done, or others change the runtime. -/
inductive Move where
  | turn (reply : QueueReply)
  | complete (index : Nat) (outcome : WorkerOutcome)
  | others (runtime : Runtime)

/-- Only the scheduler moves while it is not at an await. -/
def perform (config : QueueConfig) (s : RunQueue) : Move → Option RunQueue
  | .turn reply => some (advance config s reply)
  | .complete index outcome =>
    if s.point.awaits then s.workers[index]?.map (cleanup config s outcome index) else none
  | .others runtime => if s.point.awaits then some { s with runtime := runtime } else none

/-- The states of a run each of whose moves meets a condition. -/
inductive Reaches (config : QueueConfig) (allowed : RunQueue → Move → Prop) (initial : RunQueue) : RunQueue → Prop
  | start : Reaches config allowed initial initial
  | move {s s'} (m : Move) : Reaches config allowed initial s → allowed s m → perform config s m = some s' →
      Reaches config allowed initial s'

end RunQueue

end InmemRuntime
