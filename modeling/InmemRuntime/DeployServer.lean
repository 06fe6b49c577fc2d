import InmemRuntime.DeployStream
import InmemRuntime.Runtime

namespace InmemRuntime

namespace Deploy

inductive Signal where
  | terminate
  | kill
deriving DecidableEq

/-- An operation with its subprocess: the command, the exit code once it has
exited, and the signals that it was sent. -/
structure Deployment where
  operationId : String
  startedAt : Time
  command : List String
  op : DeployOperation
  returnCode : Option Int
  signals : List Signal

namespace Deployment

def start (operationId : String) (startedAt : Time) (command : List String) : Deployment where
  operationId := operationId
  startedAt := startedAt
  command := command
  op := .init
  returnCode := none
  signals := []

def isRunning (d : Deployment) : Bool := d.op.status = .running

/-- The subprocess exits, once. -/
def exit (d : Deployment) (code : Int) : Deployment := { d with returnCode := some (d.returnCode.getD code) }

/-- A signal, and its event in the log. -/
def warn (d : Deployment) (message : String) (signal : Signal) : Deployment :=
  { d with op := (Beside.timeoutLog message).apply d.op, signals := d.signals ++ [signal] }

end Deployment

/-- `DEPLOY_TIMEOUT_SECONDS`, as it is printed. -/
def deployTimeoutSeconds : String := "900"

/-- `DEPLOY_TERMINATE_GRACE_SECONDS`, as it is printed. -/
def deployTerminateGraceSeconds : String := "5.0"

inductive WatchdogPoint where
  | sleeping
  | waiting
deriving DecidableEq

/-- `_timeout_watchdog`. Once the reader has cancelled it, it gets no further. -/
def timeoutWatchdog (d : Deployment) (timedOut : Bool) : WatchdogPoint → Deployment × Turn WatchdogPoint Unit
  | .sleeping =>
    if d.op.timeoutDone then (d, .finished ())
    else if d.op.status = .running ∧ d.returnCode = none then
      (d.warn s!"Deploy timed out after {deployTimeoutSeconds}s, terminating subprocess" .terminate, .suspended .waiting)
    else (d, .finished ())
  | .waiting =>
    if d.op.timeoutDone ∨ timedOut = false then (d, .finished ())
    else
      (d.warn s!"Deploy did not exit within {deployTerminateGraceSeconds}s after SIGTERM, killing" .kill, .finished ())

section Reader

variable (decode : List UInt8 → String) (loads : String → Except PyError PyVal)

/-- `_drain_stderr`: a line, or the end of stderr or of the reading. -/
def drainStderr (op : DeployOperation) : Option (List UInt8) → DeployOperation × Turn Unit Unit
  | some rawLine => ((Beside.stderrLine (decode rawLine)).apply op, .suspended ())
  | none => (Beside.stderrEnds.apply op, .finished ())

/-- A turn of the reader. It waits for the subprocess, whose exit code it hears. -/
def Deployment.read (d : Deployment) (point : ReaderPoint) (heard : Heard) : Deployment × Turn ReaderPoint ReaderEnd :=
  let hear (exitCode : Int) : Deployment × Turn ReaderPoint ReaderEnd :=
    let out := readSubprocess decode loads d.op point { heard with beside := [], exitCode := exitCode }
    ({ d with op := out.1 }, out.2)
  match point, d.returnCode with
  | .exiting, none => if heard.cancelled then hear heard.exitCode else (d, .suspended .exiting)
  | _, code => hear (code.getD heard.exitCode)

end Reader

/-- `_ALLOWED_DEPLOY_ORIGINS` -/
def allowedDeployOrigins : List String :=
  ["https://smith.langchain.com", "https://eu.smith.langchain.com", "https://dev.smith.langchain.com",
    "https://staging.smith.langchain.com"]

/-- `(:\d+)?$`, which a last newline does not disturb. -/
def isPort (isDigit : Char → Bool) (rest : List Char) : Bool :=
  let rest := if rest.getLast? = some '\n' then rest.dropLast else rest
  match rest with
  | [] => true
  | c :: digits => c = ':' && !digits.isEmpty && digits.all isDigit

/-- `re.match(r"http://(localhost|127\.0\.0\.1)(:\d+)?$", origin)` -/
def isLocalOrigin (isDigit : Char → Bool) (origin : String) : Bool :=
  ["http://localhost", "http://127.0.0.1"].any (fun host =>
    host.toList.isPrefixOf origin.toList && isPort isDigit (origin.toList.drop host.length))

/-- `_is_allowed_deploy_origin` -/
def isAllowedDeployOrigin (isDigit : Char → Bool) (origin : String) : Bool :=
  origin = "" || isLocalOrigin isDigit origin || origin ∈ allowedDeployOrigins

/-- `cmd`, after the interpreter. `str` is Python's. -/
def deployCommand (str : PyVal → String) (body : Except PyError PyVal) : List String :=
  let name : PyVal := match body with
    | .ok (.dict items) => (PyDict.get? items "name").getD .none
    | _ => .none
  ["-m", "langgraph_cli", "deploy", "--json", "--no-input"] ++ if name.truthy then ["--name", str name] else []

structure Response where
  statusCode : Nat
  body : PyDict

/-- All operations that were started, and the position of `_current_op`. -/
structure DeployServer where
  deploys : List Deployment
  current : Option Nat

namespace DeployServer

def init : DeployServer := ⟨[], none⟩

def update (server : DeployServer) (i : Nat) (f : Deployment → Deployment) : DeployServer :=
  { server with deploys := server.deploys.modify i f }

/-- `_current_op` -/
def currentOp (server : DeployServer) : Option Deployment := server.current.bind (fun i => server.deploys[i]?)

def launch (server : DeployServer) (d : Deployment) : DeployServer :=
  ⟨server.deploys ++ [d], some server.deploys.length⟩

end DeployServer

/-- Where a call of `start_deploy` waits. -/
inductive Starting where
  | called (origin : String)
  | readingBody
  | gettingCwd (command : List String)
  | spawning (command : List String)
  | answered (response : Response)

/-- The requests, the tasks of each operation, and the exits of the subprocesses. -/
inductive ServerCall where
  | start (p : Starting)
  | reader (i : Nat) (point : ReaderPoint)
  | drainer (i : Nat)
  | watchdog (i : Nat) (point : WatchdogPoint)
  | exits (i : Nat) (code : Int)

/-- What a turn learns: what the reader hears, the line of stderr, whether a
wait timed out, a fresh operation id, and what an awaited call returned or raised. -/
structure ServerReply where
  heard : Heard
  stderrLine : Option (List UInt8)
  timedOut : Bool
  operationId : String
  answer : Except PyError PyVal

abbrev ServerTurn := DeployServer × Turn ServerCall (Except PyError (Option Response))

section Server

variable (isDigit : Char → Bool) (str : PyVal → String)

/-- `start_deploy`. Between the look at `_current_op` and its assignment it waits three times. -/
def startDeploy (server : DeployServer) (reply : ServerReply) : Starting → ServerTurn
  | .called origin =>
    if isAllowedDeployOrigin isDigit origin = false then
      returned server (some ⟨403, [("error", .str "origin not allowed")]⟩)
    else match server.currentOp.filter Deployment.isRunning with
      | some d =>
        returned server
          (some ⟨409, [("error", .str "Deploy already in progress"), ("operation_id", .str d.operationId)]⟩)
      | none => (server, .suspended (.start .readingBody))
  | .readingBody => (server, .suspended (.start (.gettingCwd (deployCommand str reply.answer))))
  | .gettingCwd command => attempt server reply.answer (fun _ => (server, .suspended (.start (.spawning command))))
  | .spawning command =>
    attempt server reply.answer (fun _ =>
      let i := server.deploys.length
      (server.launch (.start reply.operationId reply.heard.now command),
        .forked [.reader i .reading, .drainer i, .watchdog i .sleeping]
          (.start (.answered ⟨200, [("operation_id", .str reply.operationId), ("status", .str "running")]⟩))))
  | .answered response => returned server (some response)

variable (decode : List UInt8 → String) (loads : String → Except PyError PyVal)

/-- A turn of a task of the operation at `i`. -/
def DeployServer.work {κ ρ : Type} (server : DeployServer) (i : Nat) (call : κ → ServerCall)
    (task : Deployment → Deployment × Turn κ ρ) : ServerTurn :=
  match server.deploys[i]? with
  | none => returned server none
  | some d => (server.update i (fun _ => (task d).1), (task d).2.map call (fun _ => .ok none))

def deployServer : Coroutines DeployServer ServerCall ServerReply (Except PyError (Option Response)) where
  fresh
    | .start (.called _) | .exits _ _ => true
    | _ => false
  resume server
    | .start p, reply => startDeploy isDigit str server reply p
    | .reader i point, reply => server.work i (.reader i) (fun d => d.read decode loads point reply.heard)
    | .drainer i, reply =>
      server.work i (fun (_ : Unit) => .drainer i) (fun d =>
        ({ d with op := (drainStderr decode d.op reply.stderrLine).1 }, (drainStderr decode d.op reply.stderrLine).2))
    | .watchdog i point, reply => server.work i (.watchdog i) (fun d => timeoutWatchdog d reply.timedOut point)
    | .exits i code, _ =>
      server.work i (fun (_ : Unit) => .exits i code) (fun d => (d.exit code, .finished ()))

end Server

end Deploy

end InmemRuntime
