import InmemRuntime.Filters
import InmemRuntime.Lib.Dict
import InmemRuntime.ThreadTtl

namespace InmemRuntime

structure Message where
  topic : String
  data : String
  id : Option String
deriving DecidableEq, Inhabited

/-- `message.id.decode() > message_id` -/
def Message.isAfter (message : Message) (messageId : String) : Except PyError Bool :=
  match message.id with
  | some own => .ok (messageId < own)
  | none => .error .attributeError

/-- The loop of `restore_messages` over the stored messages. -/
def messagesAfter (messageId : String) : List Message → Except PyError (List Message)
  | [] => .ok []
  | message :: messages => do
    let later ← message.isAfter messageId
    let others ← messagesAfter messageId messages
    .ok (if later then message :: others else others)

/-- `d[thread][run]`. The thread key `none` is `THREADLESS_KEY`. -/
abbrev Nested (ν : Type) := Dict (Option Uuid) (Dict (Option Uuid) ν)

namespace Nested

variable {ν : Type}

/-- `d.get(thread, {}).get(run)` -/
def get? (d : Nested ν) (thread run : Option Uuid) : Option ν :=
  (Dict.get? d thread).bind (fun runs => runs.get? run)

def set (d : Nested ν) (thread run : Option Uuid) (value : ν) : Nested ν :=
  Dict.set d thread (((Dict.get? d thread).getD .empty).set run value)

/-- `del d[thread][run]` -/
def erase (d : Nested ν) (thread run : Option Uuid) : Nested ν :=
  Dict.set d thread (((Dict.get? d thread).getD .empty).erase run)

/-- `d[thread][run].remove(queue)`, which drops the list with its last queue. -/
def removeQueue (d : Nested (List Nat)) (thread run : Option Uuid) (queue : Nat) : Except PyError (Nested (List Nat)) :=
  match d.get? thread run with
  | none => .ok d
  | some queues =>
    if queue ∈ queues then
      .ok (if queues.erase queue = [] then d.erase thread run else d.set thread run (queues.erase queue))
    else .error (.valueError "list.remove(x): x not in list")

/-- Reading a `defaultdict` stores the default under a missing key. -/
def touch (d : Nested (List ν)) (thread run : Option Uuid) : Nested (List ν) :=
  d.set thread run ((d.get? thread run).getD [])

@[simp] theorem get?_set_self (d : Nested ν) (thread run : Option Uuid) (value : ν) :
    (d.set thread run value).get? thread run = some value := by
  simp [get?, set]

theorem get?_set_of_ne (d : Nested ν) {thread run thread' run' : Option Uuid} (value : ν)
    (other : thread' ≠ thread ∨ run' ≠ run) :
    (d.set thread run value).get? thread' run' = d.get? thread' run' := by
  simp only [get?, set]
  by_cases same : thread' = thread
  · subst same
    have elsewhere : run' ≠ run := by simpa using other
    rw [Dict.get?_set_self, Option.bind_some, Dict.get?_set_of_ne _ _ elsewhere]
    cases Dict.get? d thread' <;> simp
  · rw [Dict.get?_set_of_ne _ _ same]

theorem get?_erase (d : Nested ν) (thread run thread' run' : Option Uuid) :
    (d.erase thread run).get? thread' run' = if thread' = thread ∧ run' = run then none else d.get? thread' run' := by
  simp only [get?, erase]
  by_cases sameThread : thread' = thread
  · subst sameThread
    rw [Dict.get?_set_self, Option.bind_some]
    by_cases sameRun : run' = run
    · rw [if_pos ⟨rfl, sameRun⟩, sameRun, Dict.get?_erase_self]
    · rw [if_neg (fun both => sameRun both.2), Dict.get?_erase_of_ne _ sameRun]
      cases Dict.get? d thread' <;> simp
  · rw [if_neg (fun both => sameThread both.1), Dict.get?_set_of_ne _ _ sameThread]

theorem get?_set (d : Nested ν) (thread run thread' run' : Option Uuid) (value : ν) :
    (d.set thread run value).get? thread' run' =
      if thread' = thread ∧ run' = run then some value else d.get? thread' run' := by
  split
  · rename_i same
    rw [same.1, same.2, get?_set_self]
  · rename_i apart
    exact get?_set_of_ne _ _ (Decidable.not_and_iff_or_not.mp apart)

/-- Reading a `defaultdict` changes nothing that is listed. -/
theorem touch_listed (d : Nested (List ν)) (thread run thread' run' : Option Uuid) :
    ((d.touch thread run).get? thread' run').getD [] = (d.get? thread' run').getD [] := by
  rw [touch, get?_set]
  split
  · rename_i same
    rw [same.1, same.2]
    rfl
  · rfl

theorem append_listed (d : Nested (List ν)) (thread run thread' run' : Option Uuid) (value : ν) :
    ((d.set thread run ((d.get? thread run).getD [] ++ [value])).get? thread' run').getD [] =
      if thread' = thread ∧ run' = run then (d.get? thread' run').getD [] ++ [value] else (d.get? thread' run').getD [] := by
  rw [get?_set]
  split
  · rename_i same
    rw [same.1, same.2]
    rfl
  · rfl

/-- A removal that raises has found that the queue is not listed. -/
theorem removeQueue_listed (d : Nested (List Nat)) (thread run : Option Uuid) (queue : Nat) :
    match d.removeQueue thread run queue with
    | .error _ => queue ∉ (d.get? thread run).getD []
    | .ok d' => ∀ thread' run', (d'.get? thread' run').getD [] =
        if thread' = thread ∧ run' = run then ((d.get? thread' run').getD []).erase queue
        else (d.get? thread' run').getD [] := by
  unfold removeQueue
  cases stored : d.get? thread run with
  | none =>
    intro thread' run'
    split
    · rename_i same
      rw [same.1, same.2, stored]
      rfl
    · rfl
  | some queues =>
    dsimp only
    by_cases member : queue ∈ queues
    · rw [if_pos member]
      intro thread' run'
      by_cases here : thread' = thread ∧ run' = run
      · rw [if_pos here, here.1, here.2, stored]
        split
        · rename_i empty
          rw [get?_erase, if_pos ⟨rfl, rfl⟩]
          exact empty.symm
        · rw [get?_set_self]
          rfl
      · rw [if_neg here]
        split
        · rw [get?_erase, if_neg here]
        · rw [get?_set, if_neg here]
    · rw [if_neg member]
      exact member

end Nested

/-- The queues are references into `contents`. -/
structure StreamManager where
  queues : Nested (List Nat)
  controlQueues : Nested (List Nat)
  controlKeys : Nested Message
  messageStores : Nested (List Message)
  contents : Nat → List Message
  queueCount : Nat

namespace StreamManager

def empty : StreamManager := ⟨.empty, .empty, .empty, .empty, fun _ => [], 0⟩

instance : Inhabited StreamManager := ⟨empty⟩

/-- `_generate_ms_seq_id`: the sequence part is always 0. -/
def generateMsSeqId (now : Time) : String := s!"{now / 1000}-0"

/-- `queue.put(message)` on each of the queues. They are unbounded, so none waits. -/
def deliver (contents : Nat → List Message) (queues : List Nat) (message : Message) : Nat → List Message :=
  queues.foldl (fun contents queue => fun i =>
    if i = queue then contents i ++ [message] else contents i) contents

section Keyed

variable (m : StreamManager) (runId threadId : Option Uuid)

/-- `get_queues`, with the entry that the read leaves behind. -/
def getQueues : List Nat × StreamManager :=
  ((m.queues.get? threadId runId).getD [], { m with queues := m.queues.touch threadId runId })

def getControlKey : Option Message := m.controlKeys.get? threadId runId

def put (message : Message) (resumable : Bool) (now : Time) : StreamManager :=
  let message := { message with id := some (generateMsSeqId now) }
  let stores := if resumable then
      m.messageStores.set threadId runId ((m.messageStores.get? threadId runId).getD [] ++ [message])
    else m.messageStores
  if PyVal.isSubstring "control" message.topic then
    { m with
      messageStores := stores
      controlKeys := m.controlKeys.set threadId runId message
      controlQueues := m.controlQueues.touch threadId runId
      contents := deliver m.contents ((m.controlQueues.get? threadId runId).getD []) message }
  else
    { m with
      messageStores := stores
      queues := m.queues.touch threadId runId
      contents := deliver m.contents ((m.queues.get? threadId runId).getD []) message }

/-- The messages kept for the subscribers that come back. -/
def stored : List Message := (m.messageStores.get? threadId runId).getD []

/-- `restore_messages`, run to its end: the messages it yields, or the error
that ends it, and the manager with the entry that the read leaves behind. -/
def restoreMessages (messageId : Option String) : Except PyError (List Message) × StreamManager :=
  match messageId with
  | none => (.ok [], m)
  | some messageId =>
    if Dict.contains m.messageStores threadId then
      (messagesAfter messageId (m.stored runId threadId),
        { m with messageStores := m.messageStores.touch threadId runId })
    else (.ok [], m)

/-- `add_control_queue`: the new queue and the manager that lists it. -/
def addControlQueue : Nat × StreamManager :=
  (m.queueCount,
    { m with
      controlQueues := m.controlQueues.set threadId runId
        ((m.controlQueues.get? threadId runId).getD [] ++ [m.queueCount])
      contents := fun i => if i = m.queueCount then [] else m.contents i
      queueCount := m.queueCount + 1 })

/-- `add_queue` -/
def addQueue : Nat × StreamManager :=
  (m.queueCount,
    { m with
      queues := m.queues.set threadId runId ((m.queues.get? threadId runId).getD [] ++ [m.queueCount])
      contents := fun i => if i = m.queueCount then [] else m.contents i
      queueCount := m.queueCount + 1 })

/-- `remove_queue` -/
def removeQueue (queue : Nat) : Except PyError StreamManager := do
  .ok { m with queues := ← m.queues.removeQueue threadId runId queue }

/-- `remove_control_queue` -/
def removeControlQueue (queue : Nat) : Except PyError StreamManager := do
  .ok { m with controlQueues := ← m.controlQueues.removeQueue threadId runId queue }

end Keyed

end StreamManager

end InmemRuntime
