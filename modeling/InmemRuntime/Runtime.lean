import InmemRuntime.Lib.EventLoop
import InmemRuntime.Lib.Table
import InmemRuntime.Saver
import InmemRuntime.Streams

namespace InmemRuntime

inductive ThreadStatus where
  | idle
  | busy
  | interrupted
  | error
deriving DecidableEq, Inhabited

inductive RunStatus where
  | pending
  | running
  | error
  | success
  | timeout
  | interrupted
deriving DecidableEq

/-- A record of `store["threads"]`. A key that some operation leaves out is an option. -/
structure Thread where
  threadId : Uuid
  createdAt : Time
  updatedAt : Time
  stateUpdatedAt : Option Time
  metadata : PyDict
  status : ThreadStatus
  config : PyDict
  values : Option PyVal
  interrupts : Option PyDict
  error : Option PyVal
deriving Inhabited

/-- A record of `store["runs"]`. -/
structure Run where
  runId : Option Uuid
  threadId : Uuid
  assistantId : Uuid
  metadata : PyDict
  status : Option RunStatus
  kwargs : PyDict
  multitaskStrategy : String
  createdAt : Option Time
  updatedAt : Option Time
  langsmithSessionName : Option String
deriving Inhabited

namespace Run

def isPending (r : Run) : Bool := r.status = some .pending

def isRunning (r : Run) : Bool := r.status = some .running

/-- `run["status"] in ("pending", "running")` -/
def isActive (r : Run) : Bool := r.isPending || r.isRunning

end Run

structure Assistant where
  assistantId : Uuid
  graphId : String
  config : PyDict
  context : PyDict
  metadata : PyDict

structure Cron where
  cronId : Uuid
  assistantId : Uuid
  threadId : Option Uuid
  userId : Option String
  endTime : Option Time
  schedule : String
  timezone : Option String
  payload : PyDict
  nextRunDate : Time
  metadata : PyDict
  onRunCompleted : Option String
  enabled : Bool
  createdAt : Time
  updatedAt : Time

structure GlobalStore where
  runs : Table Run
  threads : Table Thread
  assistants : List Assistant
  crons : List Cron
  threadTtls : ThreadTtls
deriving Inhabited

/-- What the operations read of `langgraph_api.config`. -/
structure ApiConfig where
  threadTtl : Option PyDict
  useCustomCheckpointer : Bool
deriving Inhabited

/-- Everything the operations of one process share. -/
structure Runtime extends GlobalStore where
  retryCounter : Dict (Option Uuid) Nat
  memory : Memory
  streams : StreamManager
  runLocked : Bool
  config : ApiConfig
deriving Inhabited

/-- What a turn learns from outside: the clock, a fresh `uuid4()`, and what the
awaited call returned or raised. An auth handler returns its filters. -/
structure Reply where
  now : Time
  fresh : Uuid
  answer : Except PyError PyVal

section Turns

variable {σ κ α ρ : Type}

def raised (s : σ) (e : PyError) : σ × Turn κ (Except PyError ρ) := (s, .finished (.error e))

def returned (s : σ) (value : ρ) : σ × Turn κ (Except PyError ρ) := (s, .finished (.ok value))

/-- An exception ends the call where it is raised. -/
def attempt (s : σ) (x : Except PyError α) (next : α → σ × Turn κ (Except PyError ρ)) :
    σ × Turn κ (Except PyError ρ) :=
  match x with
  | .error e => raised s e
  | .ok value => next value

@[simp] theorem attempt_ok (s : σ) (value : α) (next : α → σ × Turn κ (Except PyError ρ)) :
    attempt s (.ok value) next = next value := rfl

@[simp] theorem attempt_error (s : σ) (e : PyError) (next : α → σ × Turn κ (Except PyError ρ)) :
    attempt s (.error e) next = raised s e := rfl

/-- Both ways an attempt can go. -/
@[elab_as_elim] theorem attempt_cases {motive : σ × Turn κ (Except PyError ρ) → Prop} {s : σ}
    {x : Except PyError α} {next : α → σ × Turn κ (Except PyError ρ)}
    (failed : ∀ e, x = .error e → motive (raised s e))
    (passed : ∀ value, x = .ok value → motive (next value)) : motive (attempt s x next) := by
  cases x with
  | error e => exact failed e rfl
  | ok value => exact passed value rfl

end Turns

namespace GlobalStore

def threadIds (store : GlobalStore) : List Uuid := store.threads.values.map Thread.threadId

end GlobalStore

/-- An idle thread with the given id. -/
def idleThread (threadId : Uuid) : Thread :=
  { threadId := threadId, createdAt := 0, updatedAt := 0, stateUpdatedAt := some 0, metadata := [],
    status := .idle, config := [], values := some .none, interrupts := none, error := none }

/-- A runtime with the given threads and nothing else. -/
def storeOf (threads : List Thread) : Runtime :=
  { (default : Runtime) with threads := threads.foldl Table.append .empty }

/-- A handler without filters answers. -/
def plainReply : Reply := ⟨0, ⟨0⟩, .ok .none⟩

end InmemRuntime
