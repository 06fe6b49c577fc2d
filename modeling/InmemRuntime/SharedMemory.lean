import InmemRuntime.Lib.DictParts
import InmemRuntime.PruneCalls

namespace InmemRuntime

/-- The counts of the threads whose ids pass the test are the same, the others are as
at first, and the totals have changed alike. -/
structure CheckpointSizeState.Agree (p : String → Bool) (first first' z z' : CheckpointSizeState) : Prop where
  byThread : Dict.Agree p first.byThread first'.byThread z.byThread z'.byThread
  bytes : z.totalBytes - first.totalBytes = z'.totalBytes - first'.totalBytes
  checkpoints : z.totalCheckpoints - first.totalCheckpoints = z'.totalCheckpoints - first'.totalCheckpoints

/-- The data of the threads whose ids pass the test are the same, and each checkpointer
holds what it had at first of the others. -/
structure Memory.Agree (p : String → Bool) (first first' m m' : Memory) : Prop where
  storage : Dict.Agree p first.storage first'.storage m.storage m'.storage
  writes : Dict.Agree (fun key : WriteKey => p key.thread) first.writes first'.writes m.writes m'.writes
  blobs : Dict.Agree (fun key : BlobKey => p key.thread) first.blobs first'.blobs m.blobs m'.blobs
  sizeState : CheckpointSizeState.Agree p first.sizeState first'.sizeState m.sizeState m'.sizeState

/-- Two results of the same kind, with related values. -/
inductive SameKind {α : Type} (R : α → α → Prop) : Except α α → Except α α → Prop
  | error {a a'} : R a a' → SameKind R (.error a) (.error a')
  | ok {a a'} : R a a' → SameKind R (.ok a) (.ok a')

theorem SameKind.map {α : Type} {R : α → α → Prop} {x x' : Except α α} {f : α → α} (same : SameKind R x x')
    (kept : ∀ {a a'}, R a a' → R (f a) (f a')) : SameKind R (x.map f) (x'.map f) := by
  cases same with
  | error related => exact .error related
  | ok related => exact .ok (kept related)

section Sizes

variable {p : String → Bool} {first first' z z' : CheckpointSizeState} {threadId source target : String}

theorem CheckpointSizeState.Agree.thread (agree : Agree p first first' z z') (passes : p threadId = true) :
    z.thread threadId = z'.thread threadId := by
  rw [CheckpointSizeState.thread, agree.byThread.get? passes, CheckpointSizeState.thread]

theorem CheckpointSizeState.Agree.record (agree : Agree p first first' z z') (passes : p threadId = true) (new : Nat × Nat) :
    Agree p first first' (z.record threadId new) (z'.record threadId new) := by
  have before := agree.thread passes
  have bytes := agree.bytes
  have checkpoints := agree.checkpoints
  refine ⟨?_, ?_, ?_⟩
  · unfold CheckpointSizeState.record
    dsimp only
    split
    · exact agree.byThread.set passes new
    · exact agree.byThread.erase passes
  · simp only [CheckpointSizeState.record, before]
    omega
  · simp only [CheckpointSizeState.record, before]
    omega

theorem CheckpointSizeState.Agree.adjust (agree : Agree p first first' z z') (passes : p threadId = true)
    (size checkpoints : Int) : Agree p first first' (z.adjust threadId size checkpoints) (z'.adjust threadId size checkpoints) := by
  rw [CheckpointSizeState.adjust, CheckpointSizeState.adjust, agree.thread passes]
  exact agree.record passes _

theorem CheckpointSizeState.Agree.removeThread (agree : Agree p first first' z z') (passes : p threadId = true) :
    Agree p first first' (z.removeThread threadId) (z'.removeThread threadId) := by
  have before := agree.thread passes
  have bytes := agree.bytes
  have checkpoints := agree.checkpoints
  refine ⟨agree.byThread.erase passes, ?_, ?_⟩
  · simp only [CheckpointSizeState.removeThread, before]
    omega
  · simp only [CheckpointSizeState.removeThread, before]
    omega

theorem CheckpointSizeState.Agree.copyThread (agree : Agree p first first' z z') (ofSource : p source = true)
    (ofTarget : p target = true) : Agree p first first' (z.copyThread source target) (z'.copyThread source target) := by
  rw [CheckpointSizeState.copyThread, CheckpointSizeState.copyThread, agree.thread ofSource]
  exact agree.record ofTarget _

end Sizes

namespace Memory.Agree

variable {p : String → Bool} {first first' m m' : Memory} {threadId : String} {serde : Serde} {fuel : Nat}

theorem foldl {α : Type} {step : Memory → α → Memory} (l : List α)
    (kept : ∀ {m m'} a, Memory.Agree p first first' m m' → Memory.Agree p first first' (step m a) (step m' a))
    (agree : Memory.Agree p first first' m m') : Memory.Agree p first first' (l.foldl step m) (l.foldl step m') := by
  induction l generalizing m m' with
  | nil => exact agree
  | cons a l ih => exact ih (kept a agree)

theorem deleteThread (base : BaseSaver) (agree : Memory.Agree p first first' m m') (passes : p threadId = true) :
    Memory.Agree p first first' (m.deleteThread base threadId) (m'.deleteThread base threadId) := by
  have spared : ∀ thread : String, p thread = false → decide (thread ≠ threadId) = true := by
    intro thread fails
    rw [decide_eq_true_iff]
    rintro rfl
    rw [passes] at fails
    cases fails
  simp only [Memory.deleteThread, base.deleteThread_law]
  exact ⟨agree.storage.erase passes, agree.writes.filter (fun key _ fails => spared key.thread fails),
    agree.blobs.filter (fun key _ fails => spared key.thread fails), agree.sizeState.removeThread passes⟩

theorem discardOfRun {runId ns : String} (item : PyId × CheckpointEntry) (agree : Memory.Agree p first first' m m')
    (passes : p threadId = true) : Memory.Agree p first first' (m.discardOfRun serde runId threadId ns item)
      (m'.discardOfRun serde runId threadId ns item) := by
  unfold Memory.discardOfRun
  split
  · rw [agree.storage.get? passes]
    exact ⟨agree.storage.set passes _, agree.writes, agree.blobs, agree.sizeState.adjust passes _ _⟩
  · exact agree

theorem deleteRunCheckpoints {runId : String} (agree : Memory.Agree p first first' m m') (passes : p threadId = true) :
    Memory.Agree p first first' (m.deleteRunCheckpoints serde runId threadId)
      (m'.deleteRunCheckpoints serde runId threadId) := by
  unfold Memory.deleteRunCheckpoints
  rw [agree.storage.get? passes]
  split
  · exact agree
  · exact foldl _ (fun item agree => foldl _ (fun entry agree => discardOfRun entry agree passes) agree) agree

theorem pruneThread (agree : Memory.Agree p first first' m m') (passes : p threadId = true) :
    Option.Rel (Memory.Agree p first first') (InmemRuntime.pruneThread serde fuel m threadId)
      (InmemRuntime.pruneThread serde fuel m' threadId) := by
  have ofThread : ∀ thread : String, thread = threadId → p thread = true := fun thread own => own ▸ passes
  have blobs : ∀ key : BlobKey, key.thread = threadId → m'.blobs.get? key = m.blobs.get? key :=
    fun key own => (agree.blobs.get? (ofThread key.thread own)).symm
  have spared : ∀ (thread : String) (listed : Bool), p thread = false → (!(decide (thread = threadId) && listed)) = true := by
    intro thread listed fails
    have other : thread ≠ threadId := by
      rintro rfl
      rw [passes] at fails
      cases fails
    simp [other]
  unfold InmemRuntime.pruneThread
  rw [agree.storage.get? passes, pruneNamespace_agree blobs]
  split
  · exact .some agree
  · split
    · exact .some agree
    · cases List.foldlM (pruneNamespace serde fuel m.blobs threadId) _ _ with
      | none => exact .none
      | some acc =>
        have writes := agree.writes.filter_eq (q := fun key _ =>
          decide (key.thread = threadId) && !acc.keptWriteKeys.contains (key.thread, key.ns, key.checkpoint.str))
          (fun key _ dropped => ofThread key.thread (of_decide_eq_true (Bool.and_eq_true_iff.mp dropped).1))
        have blobs := agree.blobs.filter_eq (q := fun key _ =>
          decide (key.thread = threadId) && !acc.keptBlobKeys.contains key)
          (fun key _ dropped => ofThread key.thread (of_decide_eq_true (Bool.and_eq_true_iff.mp dropped).1))
        refine .some ⟨agree.storage.set passes _, ?_, ?_, ?_⟩
        · exact agree.writes.filter (fun key _ fails =>
            spared key.thread (!acc.keptWriteKeys.contains (key.thread, key.ns, key.checkpoint.str)) fails)
        · exact agree.blobs.filter (fun key _ fails => spared key.thread (!acc.keptBlobKeys.contains key) fails)
        · simp only [writes, blobs]
          exact agree.sizeState.adjust passes _ _

theorem foldlM {α : Type} {step : Memory → α → Option Memory} {l : List α}
    (kept : ∀ {m m'}, ∀ a ∈ l, Memory.Agree p first first' m m' →
      Option.Rel (Memory.Agree p first first') (step m a) (step m' a))
    (agree : Memory.Agree p first first' m m') :
    Option.Rel (Memory.Agree p first first') (l.foldlM step m) (l.foldlM step m') := by
  induction l generalizing m m' with
  | nil => exact .some agree
  | cons a l ih =>
    rw [List.foldlM_cons, List.foldlM_cons]
    have one := kept a List.mem_cons_self agree
    generalize step m a = next at one ⊢
    generalize step m' a = next' at one ⊢
    cases one with
    | none => exact .none
    | some agree => exact ih (fun b member => kept b (List.mem_cons_of_mem a member)) agree

section Copy

variable {source target : Uuid}

theorem copyWriteGroups (ofSource : p source.str = true) (ofTarget : p target.str = true) {keys : List WriteKey}
    (own : ∀ key ∈ keys, key.thread = source.str) (agree : Memory.Agree p first first' m m') :
    SameKind (Memory.Agree p first first') (InmemRuntime.copyWriteGroups source target keys m)
      (InmemRuntime.copyWriteGroups source target keys m') := by
  induction keys generalizing m m' with
  | nil => exact .ok agree
  | cons key keys ih =>
    obtain ⟨mine, others⟩ := List.forall_mem_cons.mp own
    have found : m.writes.get? key = m'.writes.get? key := agree.writes.get? (by simpa [mine] using ofSource)
    simp only [InmemRuntime.copyWriteGroups, found]
    cases (m'.writes.get? key).bind (copyWriteGroup source target) with
    | none => exact .error agree
    | some mapped =>
      have writes := agree.writes.set (k := { key with thread := target.str }) ofTarget mapped
      exact ih others ⟨agree.storage, writes, agree.blobs, agree.sizeState⟩

theorem copyBlobs (ofSource : p source.str = true) (ofTarget : p target.str = true)
    (agree : Memory.Agree p first first' m m') :
    Dict.Agree (fun key : BlobKey => p key.thread) first.blobs first'.blobs
      (InmemRuntime.copyBlobs source target m.blobs) (InmemRuntime.copyBlobs source target m'.blobs) := by
  have mine : m.blobs.filter (fun key _ => key.thread = source.str) = m'.blobs.filter (fun key _ => key.thread = source.str) :=
    agree.blobs.filter_eq (fun key _ own => by simpa [of_decide_eq_true own] using ofSource)
  have selected : ∀ blobs : Dict BlobKey Typed, InmemRuntime.copyBlobs source target blobs =
      (blobs.filter (fun key _ => key.thread = source.str)).entries.foldl
        (fun copied e => copied.set { e.1 with thread := target.str } e.2) blobs := by
    intro blobs
    rw [InmemRuntime.copyBlobs, Dict.filter, List.foldl_filter]
    simp only [decide_eq_true_eq]
  rw [selected, selected, mine]
  have start := agree.blobs
  generalize m.blobs = d at start ⊢
  generalize (m'.blobs.filter (fun key _ => key.thread = source.str)).entries = items
  generalize m'.blobs = d' at start ⊢
  induction items generalizing d d' with
  | nil => exact start
  | cons item items ih => exact ih _ _ (start.set (k := { item.1 with thread := target.str }) ofTarget _)

theorem copyThread (ofSource : p source.str = true) (ofTarget : p target.str = true)
    (agree : Memory.Agree p first first' m m') :
    SameKind (Memory.Agree p first first') (m.copyThread source target) (m'.copyThread source target) := by
  have keys : m.writes.keys.filter (fun key => key.thread = source.str) =
      m'.writes.keys.filter (fun key => key.thread = source.str) := by
    have mine := agree.writes.filter_eq (q := fun key _ => key.thread = source.str)
      (fun key _ own => by simpa [of_decide_eq_true own] using ofSource)
    have same := congrArg Dict.keys mine
    rwa [← Dict.part, ← Dict.part, Dict.keys_part, Dict.keys_part] at same
  unfold Memory.copyThread
  rw [agree.storage.get? ofSource, keys]
  dsimp only
  have read : Memory.Agree p first first' { m with storage := m.storage.set source.str ((m'.storage.get? source.str).getD .empty) }
      { m' with storage := m'.storage.set source.str ((m'.storage.get? source.str).getD .empty) } :=
    ⟨agree.storage.set ofSource _, agree.writes, agree.blobs, agree.sizeState⟩
  cases (replaceThreadId (namespacesToData ((m'.storage.get? source.str).getD .empty)) target source).bind
      namespacesOfData? with
  | none => exact .error read
  | some copied =>
    have own : ∀ key ∈ m'.writes.keys.filter (fun key => key.thread = source.str), key.thread = source.str :=
      fun key member => of_decide_eq_true (List.mem_filter.mp member).2
    have stored : Memory.Agree p first first'
        { m with storage := (m.storage.set source.str ((m'.storage.get? source.str).getD .empty)).set target.str copied }
        { m' with storage := (m'.storage.set source.str ((m'.storage.get? source.str).getD .empty)).set target.str copied } :=
      ⟨read.storage.set ofTarget copied, read.writes, read.blobs, read.sizeState⟩
    exact (copyWriteGroups ofSource ofTarget own stored).map (fun agree => ⟨agree.storage, agree.writes,
      copyBlobs ofSource ofTarget agree, agree.sizeState.copyThread ofSource ofTarget⟩)

end Copy

end Memory.Agree

end InmemRuntime
