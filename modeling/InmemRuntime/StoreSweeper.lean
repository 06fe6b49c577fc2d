import InmemRuntime.ItemTracking
import InmemRuntime.Runtime

namespace InmemRuntime

/-- Where a task of `_sweep_loop` is. While it waits for the stop event or the end of
the interval, `notified` says that the event has been set. A task that is cancelled
before its first step never begins. -/
inductive SweeperPoint where
  | created
  | waiting (notified : Bool)
  | sweeping
  | ended
  | unbegun
deriving DecidableEq

structure SweeperTask where
  intervalMinutes : PyFloat
  point : SweeperPoint
  cancelRequested : Bool

namespace SweeperTask

/-- `not task.done()` -/
def isLive (task : SweeperTask) : Bool := task.point ≠ .ended && task.point ≠ .unbegun

/-- The stop event is set. -/
def notify (task : SweeperTask) : SweeperTask :=
  match task.point with
  | .waiting _ => { task with point := .waiting true }
  | _ => task

def cancel (task : SweeperTask) : SweeperTask := { task with cancelRequested := true }

def goTo (point : SweeperPoint) (task : SweeperTask) : SweeperTask := { task with point := point }

end SweeperTask

/-- The part of `TTLConfig` that the sweeper reads. -/
structure StoreTtlConfig where
  sweepIntervalMinutes : Option PyFloat

/-- The store with its sweeper: all tasks of `_sweep_loop` that were made, and the
position of `_ttl_sweeper_task` among them. -/
structure SweptStore where
  store : DiskBackedInMemStore
  ttlConfig : Option StoreTtlConfig
  sweepers : List SweeperTask
  ttlSweeperTask : Option Nat
  stopEvent : Bool
  closed : Bool

/-- The sweeper's calls, its tasks, and the operations of the store. -/
inductive SweptCall where
  | start (sweepIntervalMinutes : Option PyFloat)
  | started (i : Nat)
  | stop (timeout : Bool)
  | stopping (i : Nat) (timeout expired : Bool)
  | close
  | cancelling (i : Nat)
  | loop (i : Nat)
  | item (k : ItemCall)

def SweptCall.isFresh : SweptCall → Bool
  | .start _ | .stop _ | .close => true
  | .item k => k.isFresh
  | _ => false

def SweptCall.isStart : SweptCall → Bool
  | .start _ => true
  | _ => false

/-- The operation of the store that a call is. -/
def SweptCall.item? : SweptCall → Option ItemCall
  | .item k => some k
  | _ => none

/-- The call is a sweep. -/
def ItemCall.isSweep : ItemCall → Bool
  | .sweeping => true
  | _ => false

/-- What a call returns; without a TTL config `start` returns a task that only sleeps. -/
inductive SweptOutcome where
  | task (i : Nat)
  | sleeping
  | stopped (inTime : Bool)
  | closed
  | gone
  | item (outcome : ItemOutcome)

structure SweptReply extends StoreReply where
  timedOut : Bool

abbrev SweptTurn := SweptStore × Turn SweptCall (Except PyError SweptOutcome)

namespace SweptStore

def init (store : DiskBackedInMemStore) (ttlConfig : Option StoreTtlConfig) : SweptStore :=
  ⟨store, ttlConfig, [], none, false, false⟩

def update (s : SweptStore) (i : Nat) (f : SweeperTask → SweeperTask) : SweptStore :=
  { s with sweepers := s.sweepers.modify i f }

/-- `_ttl_sweeper_task`, if it is there and not done. -/
def liveTask (s : SweptStore) : Option Nat :=
  s.ttlSweeperTask.filter (fun i => (s.sweepers[i]?.map SweeperTask.isLive).getD false)

/-- `interval <= 0` -/
def notAboveZero : PyFloat → Bool
  | .finite q => q ≤ 0
  | .negInfinite => true
  | _ => false

/-- `start_ttl_sweeper` -/
def startTtlSweeper (s : SweptStore) (sweepIntervalMinutes : Option PyFloat) : SweptTurn :=
  match s.ttlConfig with
  | none => returned s .sleeping
  | some config =>
    match s.liveTask with
    | some i => returned s (.task i)
    | none =>
      let s := { s with stopEvent := false }
      let interval := (sweepIntervalMinutes.or config.sweepIntervalMinutes).getD (.finite 5)
      if notAboveZero interval then raised s (.valueError "Store TTL sweep interval must be greater than zero.")
      else
        let i := s.sweepers.length
        ({ s with sweepers := s.sweepers ++ [⟨interval, .created, false⟩], ttlSweeperTask := some i },
          .forked [.loop i] (.started i))

/-- `stop_ttl_sweeper` up to where it awaits the task. -/
def stopTtlSweeper (s : SweptStore) (timeout : Bool) : SweptTurn :=
  match s.liveTask with
  | none => returned s (.stopped true)
  | some i =>
    ({ s with stopEvent := true, sweepers := s.sweepers.map SweeperTask.notify },
      .suspended (.stopping i timeout false))

/-- `stop_ttl_sweeper` where it awaits the task. On a timeout `wait_for` cancels the
task and still waits for its end. -/
def awaitTask (s : SweptStore) (i : Nat) (timeout expired timedOut : Bool) : SweptTurn :=
  match s.sweepers[i]?.map SweeperTask.point with
  | some .ended => returned { s with ttlSweeperTask := none } (.stopped true)
  | some .unbegun => if expired then returned s (.stopped false) else raised s (.foreign "CancelledError")
  | _ =>
    if timeout && !expired && timedOut then
      (s.update i SweeperTask.cancel, .suspended (.stopping i timeout true))
    else (s, .suspended (.stopping i timeout expired))

/-- `close`, whose cancellation is a callback that runs later. -/
def close (s : SweptStore) : SweptTurn :=
  if s.closed then returned s .closed
  else
    match s.liveTask with
    | none => returned { s with closed := true } .closed
    | some i => ({ s with closed := true }, .suspended (.cancelling i))

/-- The task is over. -/
def ends (s : SweptStore) (i : Nat) (point : SweeperPoint) : SweptTurn :=
  returned (s.update i (SweeperTask.goTo point)) .gone

/-- `while not self._ttl_stop_event.is_set()` -/
def loopHead (s : SweptStore) (i : Nat) : SweptTurn :=
  if s.stopEvent then s.ends i .ended
  else (s.update i (SweeperTask.goTo (.waiting false)), .suspended (.loop i))

section Loop

variable (base : InMemoryStore) (estimate : PickleSize)

/-- `await self.sweep_ttl()`, which waits for the operation lock if it is taken. -/
def sweepOnce (s : SweptStore) (i : Nat) (reply : SweptReply) : SweptTurn :=
  match DiskBackedInMemStore.resume base estimate s.store .sweeping reply.toStoreReply with
  | (store, .suspended _) => ({ s with store := store }.update i (SweeperTask.goTo .sweeping), .suspended (.loop i))
  | (store, _) => { s with store := store }.loopHead i

/-- A turn of `_sweep_loop`. -/
def sweepLoop (s : SweptStore) (i : Nat) (reply : SweptReply) : SweptTurn :=
  match s.sweepers[i]? with
  | none => returned s .gone
  | some task =>
    match task.point with
    | .created => if task.cancelRequested then s.ends i .unbegun else s.loopHead i
    | .waiting notified =>
      if task.cancelRequested then s.ends i .ended
      else if reply.timedOut then s.sweepOnce base estimate i reply
      else if notified then s.ends i .ended
      else (s, .suspended (.loop i))
    | .sweeping => if task.cancelRequested then s.ends i .ended else s.sweepOnce base estimate i reply
    | .ended | .unbegun => returned s .gone

def resume (s : SweptStore) : SweptCall → SweptReply → SweptTurn
  | .start sweepIntervalMinutes, _ => s.startTtlSweeper sweepIntervalMinutes
  | .started i, _ => returned s (.task i)
  | .stop timeout, _ => s.stopTtlSweeper timeout
  | .stopping i timeout expired, reply => s.awaitTask i timeout expired reply.timedOut
  | .close, _ => s.close
  | .cancelling i, _ => returned (s.update i SweeperTask.cancel) .closed
  | .loop i, reply => s.sweepLoop base estimate i reply
  | .item k, reply =>
    let out := DiskBackedInMemStore.resume base estimate s.store k reply.toStoreReply
    ({ s with store := out.1 }, out.2.map .item (Except.map .item))

def sweptCalls : Coroutines SweptStore SweptCall SweptReply (Except PyError SweptOutcome) where
  fresh := SweptCall.isFresh
  resume := resume base estimate

end Loop

end SweptStore

end InmemRuntime
