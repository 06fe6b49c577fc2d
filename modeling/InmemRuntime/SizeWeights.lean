import InmemRuntime.Saver
import InmemRuntime.Lib.Tally
import Mathlib.Algebra.Order.Ring.Nat

namespace InmemRuntime

open Tally

def checkpointsWeight (checkpoints : Checkpoints) : Nat × Nat :=
  checkpoints.sum (fun id entry => (checkpointEntrySize id entry, 1))

def namespacesWeight (namespaces : Namespaces) : Nat × Nat :=
  namespaces.sum (fun _ checkpoints => checkpointsWeight checkpoints)

def storageWeight (storage : Dict String Namespaces) (p : String → Bool) : Nat × Nat :=
  tally id (fun _ namespaces => namespacesWeight namespaces) storage p

def writesWeight (writes : Dict WriteKey WriteGroup) (p : String → Bool) : Nat × Nat :=
  tally WriteKey.thread (fun key group => (writeGroupSize key.checkpoint group, 0)) writes p

def blobsWeight (blobs : Dict BlobKey Typed) (p : String → Bool) : Nat × Nat :=
  tally BlobKey.thread (fun key value => (blobEntrySize key.channel key.version value, 0)) blobs p

/-- What the containers weigh, over the threads that a test selects: bytes and
checkpoints. The tracker is to hold the weight of each single thread and, as its
totals, the weight of all. -/
def Containers.weight (c : Containers) (p : String → Bool) : Nat × Nat :=
  storageWeight c.storage p + writesWeight c.writes p + blobsWeight c.blobs p

/-- Only the thread is selected. -/
def only (t : String) : String → Bool := fun u => decide (u = t)

def every : String → Bool := fun _ => true

/-- The tracker's counts are these weights. -/
structure Counts (s : CheckpointSizeState) (w : (String → Bool) → Nat × Nat) : Prop where
  thread : ∀ t, s.thread t = w (only t)
  totalBytes : s.totalBytes = (w every).1
  totalCheckpoints : s.totalCheckpoints = (w every).2

namespace Counts

variable {s : CheckpointSizeState} {w w' : (String → Bool) → Nat × Nat} {t : String}

theorem cleared : Counts CheckpointSizeState.cleared (fun _ => 0) := ⟨fun _ => rfl, rfl, rfl⟩

/-- Recording the thread's new weight keeps the counts exact. -/
theorem record (counts : Counts s w) {new : Nat × Nat} (shift : Shifts w w' t (w (only t)) new) :
    Counts (s.record t new) w' := by
  have self : (only t) t = true := by simp [only]
  have old := counts.thread t
  have atEvery := shift every
  simp only [every, if_true] at atEvery
  refine ⟨fun u => ?_, ?_, ?_⟩
  · rw [CheckpointSizeState.thread_record]
    have atU := shift (only u)
    by_cases same : u = t
    · subst same
      rw [self, if_pos rfl, if_pos rfl, add_comm] at atU
      rw [if_pos rfl, add_left_cancel atU]
    · have outside : (only u) t = false := by simpa [only] using Ne.symm same
      simp only [outside, Bool.false_eq_true, if_false, add_zero] at atU
      rw [if_neg same, counts.thread u, atU]
  · have bytes := congrArg Prod.fst atEvery
    simp only [Prod.fst_add] at bytes
    simp only [CheckpointSizeState.record, counts.totalBytes, old]
    omega
  · have checkpoints := congrArg Prod.snd atEvery
    simp only [Prod.snd_add] at checkpoints
    simp only [CheckpointSizeState.record, counts.totalCheckpoints, old]
    omega

/-- An adjustment by the difference of a shift never reaches the clamps. -/
theorem adjust (counts : Counts s w) {old new : Nat × Nat} (shift : Shifts w w' t old new) :
    Counts (s.adjust t ((new.1 : Int) - old.1) ((new.2 : Int) - old.2)) w' := by
  have self : (only t) t = true := by simp [only]
  have here := shift (only t)
  rw [self, if_pos rfl, if_pos rfl] at here
  have bytes := congrArg Prod.fst here
  have checkpoints := congrArg Prod.snd here
  simp only [Prod.fst_add, Prod.snd_add] at bytes checkpoints
  have recorded : Shifts w w' t (w (only t)) (w' (only t)) := by
    intro p
    have atP := shift p
    by_cases selected : p t
    · simp only [selected, if_true] at atP ⊢
      have first := congrArg Prod.fst atP
      have second := congrArg Prod.snd atP
      simp only [Prod.fst_add, Prod.snd_add] at first second
      apply Prod.ext
      · simp only [Prod.fst_add]
        omega
      · simp only [Prod.snd_add]
        omega
    · simpa [selected] using atP
  have result := counts.record recorded
  have value : (((((w (only t)).1 : Int) + ((new.1 : Int) - old.1)).toNat,
      (((w (only t)).2 : Int) + ((new.2 : Int) - old.2)).toNat) : Nat × Nat) = w' (only t) := by
    apply Prod.ext
    · simp only
      omega
    · simp only
      omega
  rw [CheckpointSizeState.adjust, counts.thread t, value]
  exact result

theorem removeThread (counts : Counts s w) {old : Nat × Nat} (shift : Shifts w w' t old 0)
    (gone : w' (only t) = 0) : Counts (s.removeThread t) w' := by
  have here := shift (only t)
  have self : (only t) t = true := by simp [only]
  rw [self, if_pos rfl, if_pos rfl, gone, zero_add, add_zero] at here
  have recorded := counts.record (here ▸ shift)
  obtain ⟨bytes, checkpoints⟩ := s.removeThread_eq_record_totals t
  refine ⟨fun u => ?_, bytes.trans recorded.totalBytes, checkpoints.trans recorded.totalCheckpoints⟩
  rw [← recorded.thread u, CheckpointSizeState.thread_removeThread, CheckpointSizeState.thread_record]
  rfl

theorem copyThread (counts : Counts s w) {source : String} (shift : Shifts w w' t 0 (w (only source)))
    (absent : w (only t) = 0) : Counts (s.copyThread source t) w' := by
  rw [CheckpointSizeState.copyThread, counts.thread source]
  exact counts.record (absent ▸ shift)

/-- A fold whose steps add to the counts adds all their weights. -/
theorem foldl {α : Type} {step : CheckpointSizeState → α → CheckpointSizeState}
    {added : α → (String → Bool) → Nat × Nat}
    (adds : ∀ s w x, Counts s w → Counts (step s x) (fun p => w p + added x p))
    (l : List α) (counts : Counts s w) :
    Counts (l.foldl step s) (fun p => w p + (l.map (fun x => added x p)).sum) := by
  induction l generalizing s w with
  | nil => simpa using counts
  | cons x l ih => simpa [add_assoc] using ih (adds s w x counts)

end Counts

section Rebuild

/-- Adding an item of a thread adds its weight. -/
theorem Counts.adjust_new {s : CheckpointSizeState} {w : (String → Bool) → Nat × Nat} (counts : Counts s w)
    (t : String) (size count : Nat) :
    Counts (s.adjust t size count) (fun p => w p + if p t then (size, count) else 0) := by
  have shift : Shifts w (fun p => w p + if p t then (size, count) else 0) t 0 (size, count) := by
    intro p
    simp
  simpa using counts.adjust shift

theorem sum_ite {α : Type} (l : List α) (f : α → Nat × Nat) (b : Bool) :
    (l.map (fun x => if b then f x else 0)).sum = if b then (l.map f).sum else 0 := by
  cases b with
  | true => simp
  | false => simp

theorem Counts.add_checkpoints {s : CheckpointSizeState} {w : (String → Bool) → Nat × Nat}
    (counts : Counts s w) (t : String) (checkpoints : Checkpoints) :
    Counts (checkpoints.entries.foldl (fun s (checkpointId, entry) =>
        s.adjust t (checkpointEntrySize checkpointId entry) 1) s)
      (fun p => w p + if p t then checkpointsWeight checkpoints else 0) := by
  have added := counts.foldl (fun s w (e : PyId × CheckpointEntry) counts =>
    counts.adjust_new t (checkpointEntrySize e.1 e.2) 1) checkpoints.entries
  simp only [sum_ite] at added
  exact added

theorem Counts.add_namespaces {s : CheckpointSizeState} {w : (String → Bool) → Nat × Nat}
    (counts : Counts s w) (t : String) (namespaces : Namespaces) :
    Counts (namespaces.entries.foldl (fun s (_, checkpoints) =>
        checkpoints.entries.foldl (fun s (checkpointId, entry) =>
          s.adjust t (checkpointEntrySize checkpointId entry) 1) s) s)
      (fun p => w p + if p t then namespacesWeight namespaces else 0) := by
  have added := counts.foldl (fun s w (e : String × Checkpoints) counts =>
    counts.add_checkpoints t e.2) namespaces.entries
  simp only [sum_ite] at added
  exact added

/-- `_rebuild_size_tracking` counts exactly what is stored. -/
theorem Memory.rebuild_counts (m : Memory) :
    Counts m.rebuildSizeTracking.sizeState m.weight := by
  have storage := Counts.cleared.foldl (fun s w (e : String × Namespaces) counts =>
    counts.add_namespaces e.1 e.2) m.storage.entries
  have writes := storage.foldl (fun s w (e : WriteKey × WriteGroup) counts =>
    counts.adjust_new e.1.thread (writeGroupSize e.1.checkpoint e.2) 0) m.writes.entries
  have blobs := writes.foldl (fun s w (e : BlobKey × Typed) counts =>
    counts.adjust_new e.1.thread (blobEntrySize e.1.channel e.1.version e.2) 0) m.blobs.entries
  simp only [zero_add] at blobs
  exact blobs

/-- The counts are the ones a rebuild would compute now. -/
def Memory.SizesExact (m : Memory) : Prop :=
  (∀ t, m.sizeState.threadBytes t = m.rebuildSizeTracking.sizeState.threadBytes t ∧
    m.sizeState.threadCheckpoints t = m.rebuildSizeTracking.sizeState.threadCheckpoints t) ∧
  m.sizeState.totalBytes = m.rebuildSizeTracking.sizeState.totalBytes ∧
  m.sizeState.totalCheckpoints = m.rebuildSizeTracking.sizeState.totalCheckpoints

theorem Memory.sizesExact_iff (m : Memory) :
    m.SizesExact ↔ Counts m.sizeState m.weight := by
  have rebuilt := m.rebuild_counts
  constructor
  · rintro ⟨threads, bytes, checkpoints⟩
    refine ⟨fun t => ?_, bytes.trans rebuilt.totalBytes, checkpoints.trans rebuilt.totalCheckpoints⟩
    rw [← rebuilt.thread t]
    exact Prod.ext (threads t).1 (threads t).2
  · intro counts
    refine ⟨fun t => ?_, counts.totalBytes.trans rebuilt.totalBytes.symm,
      counts.totalCheckpoints.trans rebuilt.totalCheckpoints.symm⟩
    have same := (counts.thread t).trans (rebuilt.thread t).symm
    exact ⟨congrArg Prod.fst same, congrArg Prod.snd same⟩

end Rebuild

end InmemRuntime
