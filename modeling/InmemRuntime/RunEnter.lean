import InmemRuntime.RunsCancel
import InmemRuntime.StreamDelivery

namespace InmemRuntime

namespace Runs

/-- What `done.set(...)` is given: `UserRollback()`, `UserInterrupt()` or nothing. -/
inductive DoneValue where
  | rollback
  | interrupt
  | plain
deriving DecidableEq

/-- What a control message of a run carries. -/
inductive ControlData where
  | action (action : CancelAction)
  | done
deriving DecidableEq

def ControlData.text : ControlData → String
  | .action requested => requested.text
  | .done => "done"

def ControlData.message (runId : Uuid) (data : ControlData) : Message :=
  ⟨s!"run:{runId.str}:control", data.text, none⟩

/-- The payloads that the stored control key is compared with. -/
def signalValue (payload : String) : Option DoneValue :=
  if payload = "rollback" then some .rollback else if payload = "interrupt" then some .interrupt else none

/-- The payloads that a message of the queue is compared with. -/
def queuedValue (payload : String) : Option DoneValue :=
  if payload = "rollback" then some .rollback
  else if payload = "interrupt" then some .interrupt
  else if payload = "done" then some .plain
  else none

/-- What has happened so far: the queue that `enter` has registered, whether
the listener has read the control key, the control messages put for the run
before its own `done`, and whether that has been put. -/
structure EnterHistory where
  controlQueue : Option Nat
  heard : Bool
  sent : List ControlData
  left : Bool

/-- `done` is the event, and `cancelled` says that the task group is over. -/
structure EnterState where
  deliveries : Deliveries
  done : Option DoneValue
  cancelled : Bool
  history : EnterHistory

/-- Where `Runs.enter` waits, where its listener does, and what else happens: a
control message is put, and the event loop runs the oldest delivery. -/
inductive EnterCall where
  | called
  | entered (queue : Nat)
  | signalling (queue : Nat)
  | closing (queue : Nat)
  | starting (queue : Nat)
  | listening (queue : Nat)
  | control (action : CancelAction)
  | deliver
deriving DecidableEq

namespace EnterState

def set (s : EnterState) (value : Option DoneValue) : EnterState := { s with done := value.or s.done }

/-- The end of the task group cancels the listener. -/
def cancel (s : EnterState) : EnterState := { s with cancelled := true }

section Run

variable (runId : Uuid) (threadId : Option Uuid)

def send (s : EnterState) (data : ControlData) (now : Time) : EnterState :=
  { s with
    deliveries := s.deliveries.publish (some runId) threadId (data.message runId) false now
    history := { s.history with sent := if s.history.left then s.history.sent else s.history.sent ++ [data] } }

/-- `Runs.enter` puts its own `done`. -/
def leave (s : EnterState) (now : Time) : EnterState :=
  { s with
    deliveries := s.deliveries.publish (some runId) threadId (ControlData.done.message runId) false now
    history := { s.history with left := true } }

/-- Before `enter`: some control messages have been put for the run. -/
def first (d : Deliveries) (past : List (ControlData × Time)) : EnterState :=
  past.foldl (fun s put => s.send runId threadId put.1 put.2) ⟨d, none, false, ⟨none, false, [], false⟩⟩

end Run

end EnterState

abbrev EnterTurn := EnterState × Turn EnterCall (Except PyError Unit)

/-- `while not done.is_set()` -/
def keepListening (s : EnterState) (queue : Nat) : EnterTurn :=
  if s.done.isSome then returned s () else (s, .suspended (.listening queue))

/-- A turn of `listen_for_cancellation` in its loop. The only error that the
wait raises is its timeout. -/
def listen (s : EnterState) (queue : Nat) (reply : Reply) : EnterTurn :=
  match reply.answer with
  | .error _ => returned s ()
  | .ok _ =>
    match s.deliveries.take? queue with
    | none => (s, .suspended (.listening queue))
    | some (message, d) => keepListening ({ s with deliveries := d }.set (queuedValue message.data)) queue

section Enter

variable (encode : String → String → String) (runId : Uuid) (threadId : Option Uuid) (resumable : Bool)

/-- `listen_for_cancellation` up to its first wait. -/
def startListening (s : EnterState) (queue : Nat) : EnterTurn :=
  let heard := { s with history := { s.history with heard := true } }
  match s.deliveries.streams.getControlKey (some runId) threadId with
  | none => keepListening heard queue
  | some message => keepListening (heard.set (signalValue message.data)) queue

def streamDone : Message := ⟨s!"run:{runId.str}:stream", encode "control" "done", none⟩

/-- `Runs.enter` and its listener. `encode` is `STREAM_CODEC.encode`. -/
def EnterCall.resume (s : EnterState) : EnterCall → Reply → EnterTurn
  | .called, _ =>
    let (queue, streams) := s.deliveries.streams.addControlQueue (some runId) threadId
    ({ s with
        deliveries := { s.deliveries with streams := streams }
        history := { s.history with controlQueue := some queue } },
      .forked [.starting queue] (.entered queue))
  | .entered queue, reply =>
    match reply.answer with
    | .error e => raised s.cancel e
    | .ok _ => (s.leave runId threadId reply.now, .suspended (.signalling queue))
  | .signalling queue, reply =>
    match reply.answer with
    | .error e => raised s.cancel e
    | .ok _ =>
      ({ s with
          deliveries := s.deliveries.publish (some runId) threadId (streamDone encode runId) resumable reply.now },
        .suspended (.closing queue))
  | .closing queue, reply =>
    match reply.answer with
    | .error e => raised s.cancel e
    | .ok _ =>
      match s.deliveries.streams.removeControlQueue (some runId) threadId queue with
      | .error e => raised s.cancel e
      | .ok streams => returned { s.cancel with deliveries := { s.deliveries with streams := streams } } ()
  | .starting queue, _ => if s.cancelled then returned s () else startListening runId threadId s queue
  | .listening queue, reply => if s.cancelled then returned s () else listen s queue reply
  | .control action, reply => returned (s.send runId threadId (.action action) reply.now) ()
  | .deliver, _ => returned { s with deliveries := s.deliveries.deliverNext } ()

/-- One `Runs.enter` with any control puts for the same run. -/
def enterCalls : Coroutines EnterState EnterCall Reply (Except PyError Unit) where
  fresh
    | .control _ | .deliver => true
    | _ => false
  resume s k reply := EnterCall.resume encode runId threadId resumable s k reply

end Enter

/-- An interrupt or a rollback has been put since the previous `done`. -/
def Signalled (sent : List ControlData) : Prop :=
  ∃ earlier action later, sent = earlier ++ .action action :: later ∧ ControlData.done ∉ later

/-- The listener has read the control key and all that its queue was sent. -/
def EnterState.Processed (s : EnterState) : Prop :=
  s.history.heard = true ∧ ∃ queue, s.history.controlQueue = some queue ∧ s.deliveries.arriving queue = []

/-- The listener waits on while the run is entered and its event is unset, and
a signal that has been processed has set the event. -/
structure Cancellable (s : EnterState) (waiting : List EnterCall) : Prop where
  listens : ∀ queue, .entered queue ∈ waiting → s.done = none →
    .starting queue ∈ waiting ∨ .listening queue ∈ waiting
  signalled : s.Processed → Signalled s.history.sent → s.done.isSome

/-- No wait of the listener times out while the run is entered. -/
def Patient (s : EnterState) (_others : List EnterCall) (k : EnterCall) (reply : Reply) : Prop :=
  match k with
  | .listening _ => reply.answer.isOk ∨ s.history.left ∨ s.cancelled
  | _ => True

end Runs

end InmemRuntime
