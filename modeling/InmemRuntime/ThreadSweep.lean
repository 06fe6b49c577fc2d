import InmemRuntime.Prune
import InmemRuntime.RunOps
import Mathlib.Data.List.Basic

namespace InmemRuntime

namespace Threads

/-- `updated_at + timedelta(minutes=ttl_minutes)` -/
def expiresAt (config : TtlConfig) (updatedAt : Time) : Except PyError Time := do
  addDelta updatedAt (← timedeltaMinutes config.ttlMinutes)

/-- A `keep_latest` thread that was swept at its present `updated_at`. -/
def alreadySwept (config : TtlConfig) (state : ThreadTtlState) (updatedAt : Time) : Bool :=
  config.strategy = .keepLatest && state.lastSweptUpdatedAt.any (fun lastSwept => updatedAt ≤ lastSwept)

structure TtlInfo where
  strategy : TtlStrategy
  ttlMinutes : PyFloat
  expiresAt : Option Time

/-- `_thread_ttl_info` -/
def threadTtlInfo (thread : Thread) (config : TtlConfig) (state : ThreadTtlState) : Except PyError TtlInfo :=
  if alreadySwept config state thread.updatedAt then .ok ⟨config.strategy, config.ttlMinutes, none⟩
  else do
    .ok ⟨config.strategy, config.ttlMinutes, some (← expiresAt config thread.updatedAt)⟩

inductive Get where
  | called (threadId : Uuid) (includeTtl : Bool)
  | authorizing (threadId : Uuid) (includeTtl : Bool)

/-- `Threads.get`: the thread, and the policy under `ttl` when it is asked for and there is one. -/
def Get.resume (s : Runtime) : Get → Reply → Runtime × Turn Get (Except PyError (Thread × Option TtlInfo))
  | .called threadId includeTtl, _ => (s, .suspended (.authorizing threadId includeTtl))
  | .authorizing threadId includeTtl, reply =>
    attempt s reply.answer (fun filters =>
      let (s, found) := getWithFilters s threadId filters
      attempt s found (fun thread =>
        match thread with
        | none => raised s (notFound threadId)
        | some r =>
          if includeTtl then
            attempt s (effectiveThreadTtl s.config.threadTtl s.threadTtls threadId) (fun policy =>
              match policy.1 with
              | none => returned s (s.threads.get r, none)
              | some config =>
                attempt s (threadTtlInfo (s.threads.get r) config policy.2) (fun info =>
                  returned s (s.threads.get r, some info)))
          else returned s (s.threads.get r, none)))

structure SweepCall where
  limit : Option Int
  batchSize : Int
  wantsStats : Bool

/-- An entry of the list `expired`. -/
structure Expired where
  expiresAt : Time
  threadId : Uuid
  config : TtlConfig
  state : ThreadTtlState
  updatedAt : Time
deriving DecidableEq

/-- `ttl_state["last_swept_updated_at"] = updated_at` -/
def Expired.marked (item : Expired) : ThreadTtlState :=
  { item.state with lastSweptUpdatedAt := some item.updatedAt }

/-- `sys.get_int_max_str_digits()` -/
def maxStrDigits : Nat := 4300

/-- `int(value)` -/
def pyInt : PyVal → Except PyError Int
  | .bool b => .ok (if b then 1 else 0)
  | .int n => .ok n
  | .float q => .ok (wholePart q)
  | .str s =>
    let (negative, digits) := PyFloat.scanSign (numberText s)
    match PyFloat.scanDigits 0 0 digits with
    | (_, 0, _) | (_, _, _ :: _) => .error (.valueError "invalid literal for int() with base 10")
    | (value, count, []) =>
      if maxStrDigits < count then .error (.valueError "Exceeds the limit (4300 digits) for integer string conversion")
      else .ok (if negative then -value else value)
  | _ => .error .typeError

/-- `effective_limit`. A policy without `sweep_limit` has 10000. -/
def effectiveLimit (config : ApiConfig) (limit : Option Int) : Except PyError (Option Nat) :=
  match limit with
  | some limit => .ok (some limit.toNat)
  | none =>
    match (PyDict.get? (config.threadTtl.getD []) "sweep_limit").getD (.int 10000) with
    | .none => .ok none
    | configured => do .ok (some (← pyInt configured).toNat)

/-- `active_thread_ids` -/
def activeThreadIds (s : GlobalStore) : List Uuid :=
  (s.runs.values.filter Run.isActive).map Run.threadId

/-- The body of the loop that collects the expired threads. -/
def examine (s : Runtime) (now : Time) (thread : Thread) : Except PyError (Option Expired) :=
  if thread.threadId ∈ activeThreadIds s.toGlobalStore then .ok none
  else do
    let (config, state) ← effectiveThreadTtl s.config.threadTtl s.threadTtls thread.threadId
    match config with
    | none => .ok none
    | some config =>
      if alreadySwept config state thread.updatedAt then .ok none
      else do
        let expiry ← expiresAt config thread.updatedAt
        .ok (if expiry ≤ now then some ⟨expiry, thread.threadId, config, state, thread.updatedAt⟩ else none)

def examineAll (s : Runtime) (now : Time) : List Thread → Except PyError (List Expired)
  | [] => .ok []
  | thread :: threads => do
    let first ← examine s now thread
    let rest ← examineAll s now threads
    .ok (first.toList ++ rest)

/-- The order of `expired.sort(key=lambda item: (item[0], str(item[1])))`. -/
def Expired.le (a b : Expired) : Bool :=
  a.expiresAt < b.expiresAt || (a.expiresAt = b.expiresAt && a.threadId.str ≤ b.threadId.str)

/-- The list that the batches are cut from. -/
def selectExpired (s : Runtime) (limit : Option Int) (now : Time) : Except PyError (List Expired) := do
  let limit ← effectiveLimit s.config limit
  let expired ← examineAll s now s.threads.values
  let sorted := expired.mergeSort Expired.le
  .ok (limit.elim sorted sorted.take)

/-- What the sweep has left to do: prune the `keep_latest` threads of a batch,
and take each thread of the batch. -/
inductive SweepWork where
  | prune (threadIds : List Uuid)
  | take (item : Expired)

def batchWork (batch : List Expired) : List SweepWork :=
  let keepLatestIds := (batch.filter (fun item => item.config.strategy = .keepLatest)).map Expired.threadId
  (if keepLatestIds.isEmpty then [] else [.prune keepLatestIds]) ++ batch.map .take

/-- `expired[offset : offset + batch_size]` for each offset. -/
def batches (batchSize : Nat) (expired : List Expired) : List (List Expired) :=
  (List.range ((expired.length + batchSize - 1) / batchSize)).map (fun i =>
    (expired.drop (batchSize * i)).take batchSize)

def sweepWork (batchSize : Int) (expired : List Expired) : List SweepWork :=
  (batches (max 1 batchSize).toNat expired).flatMap batchWork

/-- The estimates read before the first batch. -/
structure SizesBefore where
  totalBytes : Int
  sizes : Dict String Nat
  counts : Dict String Nat

/-- `stats`. A custom checkpointer gives no estimates. -/
structure SweepStats where
  deletedItems : Option Nat
  deletedSizeBytes : Option Nat
  totalBeforeBytes : Option Int
  sizeTrackingAvailable : Bool
deriving DecidableEq

def SizesBefore.read (s : Runtime) (selected : List Expired) : SizesBefore :=
  let keys := selected.map (fun item => item.threadId.str)
  { totalBytes := s.memory.sizeState.totalBytes
    sizes := .ofPairs (keys.map (fun key => (key, s.memory.sizeState.threadBytes key)))
    counts := .ofPairs (keys.map (fun key => (key, s.memory.sizeState.threadCheckpoints key))) }

/-- The sum of `max(before - after, 0)`. -/
def SizesBefore.stats (before : SizesBefore) (s : Runtime) : SweepStats where
  deletedItems := some (before.counts.sum (fun key count => count - s.memory.sizeState.threadCheckpoints key))
  deletedSizeBytes := some (before.sizes.sum (fun key size => size - s.memory.sizeState.threadBytes key))
  totalBeforeBytes := some before.totalBytes
  sizeTrackingAvailable := true

structure SweepOutcome where
  processed : Nat
  deleted : Nat
  stats : Option SweepStats
deriving DecidableEq

/-- The local variables of the batch loop. `before` is there when stats are
wanted and the checkpointer gives estimates. -/
structure SweepFrame where
  call : SweepCall
  now : Time
  hasCheckpointer : Bool
  before : Option SizesBefore
  processed : Nat
  deleted : Nat

def SweepFrame.outcome (frame : SweepFrame) (s : Runtime) : SweepOutcome where
  processed := frame.processed
  deleted := frame.deleted
  stats := if frame.call.wantsStats then
      some ((frame.before.map (fun before => before.stats s)).getD ⟨none, none, none, false⟩)
    else none

inductive Sweep where
  | called (call : SweepCall)
  | gettingFirst (call : SweepCall)
  | gettingCheckpointer (frame : SweepFrame) (threadIds : List Uuid) (rest : List SweepWork)
  | pruning (frame : SweepFrame) (rest : List SweepWork)
  | deleting (frame : SweepFrame) (deletion : Delete) (rest : List SweepWork)
  /-- A built-in prune that does not come to its end. -/
  | stuck

abbrev SweepTurn := Runtime × Turn Sweep (Except PyError SweepOutcome)

/-- What one piece of work leads to: the sweep stops there, or it goes on. -/
abbrev SweepStep := SweepTurn ⊕ (Runtime × SweepFrame)

/-- A 404 of the deletion is dropped; each id that it yields is counted. -/
def Sweep.afterDelete (frame : SweepFrame) (rest : List SweepWork)
    (out : Runtime × Turn Delete (Except PyError (List Uuid))) : SweepStep :=
  match out.2 with
  | .finished (.ok ids) =>
    .inr (out.1, { frame with processed := frame.processed + ids.length, deleted := frame.deleted + ids.length })
  | .finished (.error (.http 404 _)) => .inr (out.1, frame)
  | .finished (.error e) => .inl (raised out.1 e)
  | .suspended p | .yielded _ p | .forked _ p => .inl (out.1, .suspended (.deleting frame p rest))

section Loop

variable (base : BaseSaver) (serde : Serde) (fuel : Nat)

/-- `await Threads.delete(conn, thread_id)` up to where it waits. Without a
user no auth handler is asked. -/
def Sweep.delete (s : Runtime) (threadId : Uuid) : Runtime × Turn Delete (Except PyError (List Uuid)) :=
  Delete.resume base s (.authorizing threadId (s.threads.locate? (byId threadId))) plainReply

/-- `checkpointer.aprune(keep_latest_ids, strategy="keep_latest")` -/
def Sweep.prune (s : Runtime) (frame : SweepFrame) (rest : List SweepWork) (threadIds : List Uuid) : SweepStep :=
  if s.config.useCustomCheckpointer then .inl (s, .suspended (.pruning frame rest))
  else
    match InmemRuntime.prune serde fuel base s.memory (threadIds.map (fun id => .text id.str)) .keepLatest with
    | none => .inl (s, .suspended .stuck)
    | some (.error (.unsupportedStrategy name)) => .inl (raised s (.valueError name))
    | some (.ok memory) => .inr ({ s with memory := memory }, frame)

/-- One piece of the work of the two loops over the batches. -/
def Sweep.advance (s : Runtime) (frame : SweepFrame) (rest : List SweepWork) : SweepWork → SweepStep
  | .prune threadIds =>
    if frame.hasCheckpointer then Sweep.prune base serde fuel s frame rest threadIds
    else .inl (s, .suspended (.gettingCheckpointer frame threadIds rest))
  | .take item =>
    match item.config.strategy with
    | .delete => Sweep.afterDelete frame rest (Sweep.delete base s item.threadId)
    | .keepLatest =>
      .inr ({ s with threadTtls := s.threadTtls.set item.threadId.str item.marked },
        { frame with processed := frame.processed + 1 })

/-- The loops, up to where they wait or end. -/
def Sweep.loop : List SweepWork → Runtime × SweepFrame → SweepTurn
  | [], at' => returned at'.1 (at'.2.outcome at'.1)
  | work :: rest, at' => Sum.elim id (Sweep.loop rest) (Sweep.advance base serde fuel at'.1 at'.2 rest work)

/-- The local variables before the first batch. -/
def SweepFrame.first (s : Runtime) (call : SweepCall) (now : Time) (selected : List Expired) : SweepFrame where
  call := call
  now := now
  hasCheckpointer := call.wantsStats
  before := if call.wantsStats && !s.config.useCustomCheckpointer then some (SizesBefore.read s selected) else none
  processed := 0
  deleted := 0

/-- The sweep from its reading of the clock on. -/
def Sweep.start (s : Runtime) (call : SweepCall) (now : Time) : SweepTurn :=
  if call.limit.any (fun limit => limit ≤ 0) then returned s ((SweepFrame.first s call now []).outcome s)
  else
    attempt s (selectExpired s call.limit now) (fun selected =>
      Sweep.loop base serde fuel (sweepWork call.batchSize selected) (s, .first s call now selected))

/-- `Threads.sweep_ttl` -/
def Sweep.resume (s : Runtime) : Sweep → Reply → SweepTurn
  | .called call, reply =>
    if call.wantsStats then (s, .suspended (.gettingFirst call)) else Sweep.start base serde fuel s call reply.now
  | .gettingFirst call, reply =>
    attempt s reply.answer (fun _ => Sweep.start base serde fuel s call reply.now)
  | .gettingCheckpointer frame threadIds rest, reply =>
    attempt s reply.answer (fun _ =>
      Sweep.loop base serde fuel (.prune threadIds :: rest) (s, { frame with hasCheckpointer := true }))
  | .pruning frame rest, reply => attempt s reply.answer (fun _ => Sweep.loop base serde fuel rest (s, frame))
  | .deleting frame deletion rest, reply =>
    Sum.elim id (Sweep.loop base serde fuel rest)
      (Sweep.afterDelete frame rest (Delete.resume base s deletion reply))
  | .stuck, _ => (s, .suspended .stuck)

end Loop

end Threads

end InmemRuntime
