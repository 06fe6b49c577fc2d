import InmemRuntime.Lib.Dict
import InmemRuntime.Uuid
import Mathlib.Algebra.Group.Prod
import Mathlib.Algebra.Order.Group.Int

namespace InmemRuntime

/-- An id as Python code holds it: a string, or a `uuid.UUID` object. Checkpoint
ids are strings apart from legacy ones. -/
inductive PyId where
  | text (s : String)
  | uuid (u : Uuid)
deriving DecidableEq, Inhabited

def PyId.str : PyId → String
  | .text s => s
  | .uuid u => u.str

/-- A channel version as it stands in a checkpoint and in a blob key. A float
is kept as its printed text. -/
inductive Version where
  | none
  | text (s : String)
  | int (n : Int)
  | float (printed : String)
deriving DecidableEq, Inhabited

/-- A `(type, bytes)` pair of the serializer. -/
structure Typed where
  kind : String
  data : List UInt8
deriving DecidableEq, Inhabited

/-- A stored checkpoint: payload, metadata payload and parent id. -/
structure CheckpointEntry where
  checkpoint : Typed
  metadata : Typed
  parent : Option PyId
deriving DecidableEq, Inhabited

structure PendingWrite where
  taskId : String
  channel : String
  value : Typed
  taskPath : String
deriving DecidableEq, Inhabited

abbrev WriteGroup := Dict (String × Int) PendingWrite

structure WriteKey where
  thread : String
  ns : String
  checkpoint : PyId
deriving DecidableEq, Inhabited

structure BlobKey where
  thread : String
  ns : String
  channel : String
  version : Version
deriving DecidableEq, Inhabited

/-- The Python values `_component_size` tells apart: `None`, a string, bytes,
and any other object through its printed text. -/
inductive Component where
  | none
  | text (s : String)
  | bytes (b : List UInt8)
  | other (printed : String)

def componentSize : Component → Nat
  | .none => 0
  | .text s => s.utf8ByteSize
  | .bytes b => b.length
  | .other printed => printed.utf8ByteSize

def PyId.component : PyId → Component
  | .text s => .text s
  | .uuid u => .other u.str

def parentComponent : Option PyId → Component
  | .none => .none
  | .some id => id.component

def Version.component : Version → Component
  | .none => .none
  | .text s => .text s
  | .int n => .other (toString n)
  | .float printed => .other printed

def typedPayloadSize (value : Typed) : Nat :=
  componentSize (.text value.kind) + componentSize (.bytes value.data)

def checkpointEntrySize (checkpointId : PyId) (entry : CheckpointEntry) : Nat :=
  componentSize checkpointId.component + typedPayloadSize entry.checkpoint +
    typedPayloadSize entry.metadata + componentSize (parentComponent entry.parent)

def pendingWriteSize (innerKey : String × Int) (write : PendingWrite) : Nat :=
  componentSize (.text innerKey.1) + componentSize (.other (toString innerKey.2)) +
    componentSize (.text write.taskId) + componentSize (.text write.channel) +
    typedPayloadSize write.value + componentSize (.text write.taskPath)

def writeGroupSize (checkpointId : PyId) (writes : WriteGroup) : Nat :=
  componentSize checkpointId.component + writes.sum pendingWriteSize

def blobEntrySize (channel : String) (version : Version) (value : Typed) : Nat :=
  componentSize (.text channel) + componentSize version.component + typedPayloadSize value

/-- `_CheckpointSizeState`: bytes and checkpoints for each thread, and the two totals. -/
structure CheckpointSizeState where
  byThread : Dict String (Nat × Nat)
  totalBytes : Int
  totalCheckpoints : Int
deriving DecidableEq, Inhabited

namespace CheckpointSizeState

def cleared : CheckpointSizeState := ⟨.empty, 0, 0⟩

def thread (s : CheckpointSizeState) (threadId : String) : Nat × Nat :=
  (s.byThread.get? threadId).getD (0, 0)

def threadBytes (s : CheckpointSizeState) (threadId : String) : Nat := (s.thread threadId).1

def threadCheckpoints (s : CheckpointSizeState) (threadId : String) : Nat := (s.thread threadId).2

/-- Write the two counts of a thread and carry the difference into the totals. -/
def record (s : CheckpointSizeState) (threadId : String) (new : Nat × Nat) : CheckpointSizeState where
  byThread := if new.1 ≠ 0 ∨ new.2 ≠ 0 then s.byThread.set threadId new else s.byThread.erase threadId
  totalBytes := s.totalBytes + ((new.1 : Int) - (s.thread threadId).1)
  totalCheckpoints := s.totalCheckpoints + ((new.2 : Int) - (s.thread threadId).2)

/-- `max(0, old + delta)` on both counts; `Int.toNat` is the clamp. -/
def adjust (s : CheckpointSizeState) (threadId : String) (sizeDelta : Int)
    (checkpointDelta : Int) : CheckpointSizeState :=
  s.record threadId (((s.thread threadId).1 + sizeDelta).toNat,
    ((s.thread threadId).2 + checkpointDelta).toNat)

def removeThread (s : CheckpointSizeState) (threadId : String) : CheckpointSizeState where
  byThread := s.byThread.erase threadId
  totalBytes := s.totalBytes - (s.thread threadId).1
  totalCheckpoints := s.totalCheckpoints - (s.thread threadId).2

def copyThread (s : CheckpointSizeState) (source target : String) : CheckpointSizeState :=
  s.record target (s.thread source)

@[simp] theorem thread_record (s : CheckpointSizeState) (t u : String) (new : Nat × Nat) :
    (s.record t new).thread u = if u = t then new else s.thread u := by
  simp only [record, thread]
  by_cases same : u = t
  · subst same
    by_cases used : new.1 ≠ 0 ∨ new.2 ≠ 0
    · simp [used]
    · have zero : new = (0, 0) := by
        push Not at used
        exact Prod.ext used.1 used.2
      simp [zero]
  · by_cases used : new.1 ≠ 0 ∨ new.2 ≠ 0
    · simp [used, same, Dict.get?_set_of_ne]
    · simp [used, same, Dict.get?_erase_of_ne]

@[simp] theorem thread_removeThread (s : CheckpointSizeState) (t u : String) :
    (s.removeThread t).thread u = if u = t then (0, 0) else s.thread u := by
  simp only [removeThread, thread]
  by_cases same : u = t
  · subst same; simp
  · simp [same, Dict.get?_erase_of_ne]

theorem byThread_record_of_ne (s : CheckpointSizeState) {t u : String} (other : u ≠ t) (new : Nat × Nat) :
    (s.record t new).byThread.get? u = s.byThread.get? u := by
  simp only [record]
  split
  · exact Dict.get?_set_of_ne _ _ other
  · exact Dict.get?_erase_of_ne _ other

theorem byThread_record_ne_zero (s : CheckpointSizeState) (t : String) (new : Nat × Nat) :
    (s.record t new).byThread.get? t ≠ some (0, 0) := by
  simp only [record]
  split
  · rename_i used
    rw [Dict.get?_set_self]
    intro zero
    cases zero
    simp at used
  · simp

/-- Adjusting by nothing changes nothing, as long as no entry of zeros is stored. -/
theorem adjust_zero {s : CheckpointSizeState} {t : String}
    (used : s.byThread.get? t ≠ some (0, 0)) : s.adjust t 0 0 = s := by
  have counts : s.adjust t 0 0 = s.record t (s.thread t) := by simp [adjust]
  have entry : (if (s.thread t).1 ≠ 0 ∨ (s.thread t).2 ≠ 0 then s.byThread.set t (s.thread t)
      else s.byThread.erase t) = s.byThread := by
    cases stored : s.byThread.get? t with
    | none =>
      rw [if_neg (by simp [thread, stored])]
      refine Dict.filter_eq_self (fun k v member => ?_)
      have other : k ≠ t := by
        rintro rfl
        rw [Dict.mem_entries_iff.mp member] at stored
        cases stored
      simpa using other
    | some new =>
      have value : s.thread t = new := by simp [thread, stored]
      rw [value, if_pos, Dict.set_eq_self stored]
      by_contra zero
      push Not at zero
      exact used (stored.trans (congrArg some (Prod.ext zero.1 zero.2)))
  rw [counts, record, entry]
  simp

theorem removeThread_eq_record_totals (s : CheckpointSizeState) (t : String) :
    (s.removeThread t).totalBytes = (s.record t (0, 0)).totalBytes ∧
      (s.removeThread t).totalCheckpoints = (s.record t (0, 0)).totalCheckpoints := by
  constructor <;> simp [removeThread, record, sub_eq_add_neg]

end CheckpointSizeState

end InmemRuntime
