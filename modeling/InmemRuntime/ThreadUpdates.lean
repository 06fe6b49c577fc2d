import InmemRuntime.RunOps
import InmemRuntime.RunsPut

namespace InmemRuntime

/-- A part of a thread record. -/
inductive ThreadField where
  | status
  | config
  | values
  | metadata (key : String)
deriving DecidableEq

inductive FieldValue where
  | status (value : ThreadStatus)
  | config (value : PyDict)
  | values (value : Option PyVal)
  | item (value : Option PyVal)

def Thread.read (thread : Thread) : ThreadField → FieldValue
  | .status => .status thread.status
  | .config => .config thread.config
  | .values => .values thread.values
  | .metadata key => .item (PyDict.get? thread.metadata key)

/-- The record that a turn writes and the fields of it: none when it writes no record. -/
abbrev Written := Nat × List ThreadField

def nothingWritten : Written := (0, [])

/-- The record passes the filters. -/
def passes (s : Runtime) (r : Nat) (filters : PyVal) : Bool :=
  (filtersAllow (s.threads.get r).metadata filters).toOption = some true

/-- A new record takes the place of the old one. -/
def Threads.Patch.written (s : Runtime) : Threads.Patch → Reply → Written
  | .called _, _ => nothingWritten
  | .authorizing call threadIdx, reply =>
    match reply.answer, s.threads.rows[threadIdx]? with
    | .ok filters, some r =>
      if passes s r filters then (s.threads.size, call.metadata.map (fun item => .metadata item.1))
      else nothingWritten
    | _, _ => nothingWritten

namespace Runs

/-- A record that is busy is not written. -/
def Put.extended (s : Runtime) (existing : Option Nat) (filters : PyVal) : Written :=
  match existing with
  | none => nothingWritten
  | some r =>
    if passes s r filters ∧ (s.threads.get r).status ≠ .busy then
      (r, [.status, .config, .metadata "graph_id", .metadata "assistant_id"])
    else nothingWritten

def Put.written (s : Runtime) : Put → Reply → Written
  | .called _, _ => nothingWritten
  | .authorizing call assistant, reply =>
    match reply.answer with
    | .error _ => nothingWritten
    | .ok filters =>
      if isSystemAssistant assistant then Put.extended s (existingThread s call) filters else nothingWritten
  | .authorizingAssistant _ assistant existing filters, reply =>
    match reply.answer with
    | .error _ => nothingWritten
    | .ok assistantFilters =>
      if (filtersAllow assistant.metadata assistantFilters).toOption = some true then Put.extended s existing filters
      else nothingWritten
  | .creatingThread _ _ thread, reply =>
    match reply.answer with
    | .error _ => nothingWritten
    | .ok _ => (s.threads.size, .status :: .config :: .values :: thread.metadata.map (fun item => .metadata item.1))

end Runs

namespace Threads

def JointCall.fields (call : JointCall) : List ThreadField :=
  .status :: .metadata "graph_id" :: if call.checkpoint.isSome then [.values] else []

/-- The record is written at the end, unless the deletion raises. -/
def Joint.written (serde : Serde) (s : Runtime) : Joint → Reply → Written
  | .called call, _ =>
    match s.threads.find? (byId call.threadId), s.runs.find? (Runs.byIds call.runId call.threadId), call.runStatus with
    | some thread, some _, .status _ => (thread, call.fields)
    | _, _, _ => nothingWritten
  | .rollingBack call thread _ deletion, reply =>
    match (Runs.Delete.resume serde s deletion reply).2 with
    | .suspended _ | .finished (.error _) => nothingWritten
    | _ => (thread, call.fields)

end Threads

/-- The shared state, and what has been written to the record of one thread,
whether or not the list still had that record. -/
structure LoggedRuntime extends Runtime where
  log : List (ThreadField × FieldValue)

/-- The value written last. -/
def lastWritten (log : List (ThreadField × FieldValue)) (field : ThreadField) : Option FieldValue :=
  (log.reverse.find? (fun entry => entry.1 = field)).map Prod.snd

inductive UpdateCall where
  | patch (p : Threads.Patch)
  | put (p : Runs.Put)
  | joint (p : Threads.Joint)

section Updates

variable (serde : Serde) (threadId : Uuid)

/-- The entries of a turn, whose values are those that it leaves in the record. -/
def writtenTo (threads : Table Thread) (written : Written) : List (ThreadField × FieldValue) :=
  if (threads.get written.1).threadId = threadId then
    written.2.map (fun field => (field, (threads.get written.1).read field))
  else []

def LoggedRuntime.next (s : LoggedRuntime) (s' : Runtime) (written : Written) : LoggedRuntime :=
  ⟨s', s.log ++ writtenTo threadId s'.threads written⟩

def UpdateCall.resume (s : LoggedRuntime) : UpdateCall → Reply → LoggedRuntime × Turn UpdateCall (Except PyError Unit)
  | .patch p, reply =>
    let (s', turn) := Threads.Patch.resume s.toRuntime p reply
    (s.next threadId s' (p.written s.toRuntime reply), turn.map .patch (Except.map (fun _ => ())))
  | .put p, reply =>
    let (s', turn) := Runs.Put.resume s.toRuntime p reply
    (s.next threadId s' (p.written s.toRuntime reply), turn.map .put (Except.map (fun _ => ())))
  | .joint p, reply =>
    let (s', turn) := Threads.Joint.resume serde s.toRuntime p reply
    (s.next threadId s' (p.written serde s.toRuntime reply), turn.map .joint id)

/-- Any calls of `Threads.patch`, `Runs.put` and `Threads.set_joint_status`, on
this thread or on others. -/
def updateCalls : Coroutines LoggedRuntime UpdateCall Reply (Except PyError Unit) where
  fresh
    | .patch (.called _) | .put (.called _) | .joint (.called _) => true
    | _ => false
  resume s k reply := UpdateCall.resume serde threadId s k reply

/-- The record of the thread has, in each field, what has been written to it last. -/
def NoLostUpdate (s : LoggedRuntime) : Prop :=
  ∀ field value, lastWritten s.log field = some value →
    ∃ r, s.threads.find? (Threads.byId threadId) = some r ∧ (s.threads.get r).read field = value

/-- A call that goes on with a record of the thread, found before an await, finds
it still in the list or has nothing to write to it; and a record is added only
while the thread has none. -/
def StillListed (s : LoggedRuntime) (_others : List UpdateCall) : UpdateCall → Reply → Prop
  | .put (.authorizingAssistant _ _ (some r) _), _ => (s.threads.get r).threadId = threadId →
      (s.threads.get r).status ≠ .busy → s.threads.find? (Threads.byId threadId) = some r
  | .put (.creatingThread _ _ thread), _ => thread.threadId = threadId →
      s.threads.find? (Threads.byId threadId) = none
  | .joint (.rollingBack call thread _ _), _ => call.threadId = threadId →
      s.threads.find? (Threads.byId threadId) = some thread
  | _, _ => True

end Updates

end InmemRuntime
