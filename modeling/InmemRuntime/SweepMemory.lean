import InmemRuntime.PruneCycles
import InmemRuntime.SweepRuns

namespace InmemRuntime

/-- One thread is pruned, or everything of it is deleted. -/
inductive MemoryStep where
  | prune (threadId : String)
  | drop (threadId : String)

def MemoryStep.threadId : MemoryStep → String
  | .prune threadId => threadId
  | .drop threadId => threadId

def MemoryStep.perform (base : BaseSaver) (serde : Serde) (fuel : Nat) (m : Memory) : MemoryStep → Option Memory
  | .prune threadId => pruneThread serde fuel m threadId
  | .drop threadId => some (m.deleteThread base threadId)

/-- The checkpoints, writes and blobs of a thread are the same. -/
structure SameData (m m' : Memory) (threadId : String) : Prop where
  storage : m'.storage.get? threadId = m.storage.get? threadId
  writes : ∀ key, key.thread = threadId → m'.writes.get? key = m.writes.get? key
  blobs : ∀ key, key.thread = threadId → m'.blobs.get? key = m.blobs.get? key

theorem SameThread.data {m m' : Memory} {threadId : String} (same : SameThread m m' threadId) : SameData m m' threadId :=
  ⟨same.storage, same.writes, same.blobs⟩

theorem SameData.trans {m m' m'' : Memory} {threadId : String} (one : SameData m m' threadId)
    (two : SameData m' m'' threadId) : SameData m m'' threadId where
  storage := two.storage.trans one.storage
  writes key mine := (two.writes key mine).trans (one.writes key mine)
  blobs key mine := (two.blobs key mine).trans (one.blobs key mine)

/-- The thread is pruned as it is by itself. -/
def PrunedAlone (serde : Serde) (m m' : Memory) (threadId : String) : Prop :=
  ∃ fuel pruned, pruneThread serde fuel m threadId = some pruned ∧ SameData pruned m' threadId

/-- Nothing is stored for the thread. -/
structure NoData (m : Memory) (threadId : String) : Prop where
  storage : m.storage.get? threadId = none
  writes : ∀ key, key.thread = threadId → m.writes.get? key = none
  blobs : ∀ key, key.thread = threadId → m.blobs.get? key = none

section Single

variable {base : BaseSaver} {serde : Serde} {fuel : Nat} {m m' m₂ m₂' : Memory} {threadId other : String}

/-- A pruning depends on the data of its thread alone. -/
theorem pruneThread_of_sameData (same : SameData m m₂ threadId) (run : pruneThread serde fuel m₂ threadId = some m₂') :
    ∃ m', pruneThread serde fuel m threadId = some m' ∧ SameData m' m₂' threadId := by
  unfold pruneThread at run ⊢
  rw [same.storage, pruneNamespace_agree same.blobs] at run
  split
  · rename_i none
    simp only [none, Option.some.injEq] at run
    exact ⟨m, rfl, run ▸ same⟩
  · rename_i namespaces stored
    simp only [stored] at run
    split at run
    · rename_i empty
      exact ⟨m, if_pos empty, Option.some.inj run ▸ same⟩
    · rename_i full
      obtain ⟨acc, folded, ran⟩ := Option.bind_eq_some_iff.mp run
      cases Option.some.inj ran
      refine ⟨_, (if_neg full).trans (Option.bind_eq_some_iff.mpr ⟨acc, folded, rfl⟩), ?_, ?_, ?_⟩
      · simp only [Dict.get?_set_self]
      · intro key mine
        simp only [Dict.get?_filter, same.writes key mine]
      · intro key mine
        simp only [Dict.get?_filter, same.blobs key mine]

theorem deleteThread_noData (base : BaseSaver) (m : Memory) (threadId : String) :
    NoData (m.deleteThread base threadId) threadId := by
  simp only [Memory.deleteThread, base.deleteThread_law]
  exact ⟨Dict.get?_erase_self _ _, fun key mine => Dict.get?_filter_drop (fun _ => by simp [mine]),
    fun key mine => Dict.get?_filter_drop (fun _ => by simp [mine])⟩

theorem deleteThread_sameThread (base : BaseSaver) (m : Memory) (different : other ≠ threadId) :
    SameThread m (m.deleteThread base threadId) other := by
  simp only [Memory.deleteThread, base.deleteThread_law]
  exact ⟨Dict.get?_erase_of_ne _ different, fun key mine => Dict.get?_filter_pass (fun _ => by simp [mine, different]),
    fun key mine => Dict.get?_filter_pass (fun _ => by simp [mine, different]), Dict.get?_erase_of_ne _ different⟩

/-- A step shows in no other thread. -/
theorem MemoryStep.sameThread {step : MemoryStep} (run : step.perform base serde fuel m = some m')
    (different : other ≠ step.threadId) : SameThread m m' other := by
  cases step with
  | prune threadId => exact pruneThread_sameThread run different
  | drop threadId => exact Option.some.inj run ▸ deleteThread_sameThread base m different

end Single

/-- The counts of the listed threads fall by what the totals fall by; the others stay. -/
structure SizeDrop (ids : List String) (z z' : CheckpointSizeState) : Prop where
  bytes : z.totalBytes - z'.totalBytes = (ids.map (fun id => (z.threadBytes id : Int) - z'.threadBytes id)).sum
  checkpoints : z.totalCheckpoints - z'.totalCheckpoints =
    (ids.map (fun id => (z.threadCheckpoints id : Int) - z'.threadCheckpoints id)).sum
  falls : ∀ id, z'.threadBytes id ≤ z.threadBytes id ∧ z'.threadCheckpoints id ≤ z.threadCheckpoints id

namespace SizeDrop

variable {ids : List String} {z z' z'' : CheckpointSizeState}

theorem refl (ids : List String) (z : CheckpointSizeState) : SizeDrop ids z z := by
  constructor <;> simp

theorem trans (one : SizeDrop ids z z') (two : SizeDrop ids z' z'') : SizeDrop ids z z'' where
  bytes := by
    have split : ∀ id, (z.threadBytes id : Int) - z''.threadBytes id =
        ((z.threadBytes id : Int) - z'.threadBytes id) + ((z'.threadBytes id : Int) - z''.threadBytes id) := by
      intro id
      omega
    simp only [split, List.sum_map_add, ← one.bytes, ← two.bytes]
    omega
  checkpoints := by
    have split : ∀ id, (z.threadCheckpoints id : Int) - z''.threadCheckpoints id =
        ((z.threadCheckpoints id : Int) - z'.threadCheckpoints id) +
          ((z'.threadCheckpoints id : Int) - z''.threadCheckpoints id) := by
      intro id
      omega
    simp only [split, List.sum_map_add, ← one.checkpoints, ← two.checkpoints]
    omega
  falls id := ⟨(two.falls id).1.trans (one.falls id).1, (two.falls id).2.trans (one.falls id).2⟩

/-- What one listed thread contributes, when the others contribute nothing. -/
theorem sum_one {threadId : String} (listed : threadId ∈ ids) (distinct : ids.Nodup) {f g : String → Nat}
    (others : ∀ id, id ≠ threadId → g id = f id) :
    (ids.map (fun id => (f id : Int) - g id)).sum = (f threadId : Int) - g threadId := by
  have each : ∀ id, (f id : Int) - g id = if id = threadId then (f threadId : Int) - g threadId else 0 := by
    intro id
    split
    · rename_i same
      rw [same]
    · rename_i other
      rw [others id other, sub_self]
  rw [List.map_congr_left (fun id _ => each id), List.sum_map_ite_eq, List.count_eq_one_of_mem distinct listed]
  simp

/-- The counts of one listed thread fall. -/
theorem of_one {threadId : String} {new : Nat × Nat} (listed : threadId ∈ ids) (distinct : ids.Nodup)
    (thread : ∀ id, z'.thread id = if id = threadId then new else z.thread id)
    (fewer : new.1 ≤ (z.thread threadId).1 ∧ new.2 ≤ (z.thread threadId).2)
    (bytes : z'.totalBytes = z.totalBytes + ((new.1 : Int) - (z.thread threadId).1))
    (checkpoints : z'.totalCheckpoints = z.totalCheckpoints + ((new.2 : Int) - (z.thread threadId).2)) :
    SizeDrop ids z z' := by
  have own : z'.thread threadId = new := (thread threadId).trans (if_pos rfl)
  have others : ∀ id, id ≠ threadId → z'.thread id = z.thread id := fun id other => (thread id).trans (if_neg other)
  refine ⟨?_, ?_, fun id => ?_⟩
  · unfold CheckpointSizeState.threadBytes
    rw [sum_one listed distinct (fun id other => congrArg Prod.fst (others id other)), bytes, own]
    omega
  · unfold CheckpointSizeState.threadCheckpoints
    rw [sum_one listed distinct (fun id other => congrArg Prod.snd (others id other)), checkpoints, own]
    omega
  · unfold CheckpointSizeState.threadBytes CheckpointSizeState.threadCheckpoints
    by_cases same : id = threadId
    · rw [same, own]
      exact fewer
    · rw [others id same]
      exact ⟨le_rfl, le_rfl⟩

end SizeDrop

/-- One step takes from the counts of its thread. -/
theorem MemoryStep.sizeDrop {base : BaseSaver} {serde : Serde} {fuel : Nat} {m m' : Memory} {step : MemoryStep}
    (run : step.perform base serde fuel m = some m') {ids : List String} (listed : step.threadId ∈ ids)
    (distinct : ids.Nodup) : SizeDrop ids m.sizeState m'.sizeState := by
  cases step with
  | drop threadId =>
    cases Option.some.inj run
    have listed : threadId ∈ ids := listed
    refine .of_one listed distinct (fun id => CheckpointSizeState.thread_removeThread _ _ _)
      ⟨Nat.zero_le _, Nat.zero_le _⟩ ?_ ?_
    · simp only [Memory.deleteThread, CheckpointSizeState.removeThread]
      omega
    · simp only [Memory.deleteThread, CheckpointSizeState.removeThread]
      omega
  | prune threadId =>
    simp only [MemoryStep.perform] at run
    unfold pruneThread at run
    split at run
    · cases Option.some.inj run
      exact .refl _ _
    · split at run
      · cases Option.some.inj run
        exact .refl _ _
      · obtain ⟨acc, _, ran⟩ := Option.bind_eq_some_iff.mp run
        cases Option.some.inj ran
        have listed : threadId ∈ ids := listed
        refine .of_one listed distinct (fun id => CheckpointSizeState.thread_record _ _ _ _) ⟨?_, ?_⟩ rfl rfl
        · dsimp only
          omega
        · dsimp only
          omega

/-- What steps on different threads do: each thread is pruned as it is by itself,
or it is gone, and the other threads are as they were. -/
structure MemorySwept (serde : Serde) (steps : List MemoryStep) (m m' : Memory) : Prop where
  pruned : ∀ threadId, .prune threadId ∈ steps → PrunedAlone serde m m' threadId
  dropped : ∀ threadId, .drop threadId ∈ steps → NoData m' threadId
  others : ∀ threadId, threadId ∉ steps.map MemoryStep.threadId → SameThread m m' threadId

section Steps

variable {base : BaseSaver} {serde : Serde} {fuel : Nat} {m m' : Memory} {steps : List MemoryStep}

theorem NoData.of_sameThread {threadId : String} (none : NoData m threadId) (same : SameThread m m' threadId) :
    NoData m' threadId where
  storage := same.storage.trans none.storage
  writes key mine := (same.writes key mine).trans (none.writes key mine)
  blobs key mine := (same.blobs key mine).trans (none.blobs key mine)

theorem PrunedAlone.of_sameThread {m₁ : Memory} {threadId : String} (same : SameThread m m₁ threadId)
    (alone : PrunedAlone serde m₁ m' threadId) : PrunedAlone serde m m' threadId := by
  obtain ⟨fuel, pruned, run, data⟩ := alone
  obtain ⟨pruned', run', data'⟩ := pruneThread_of_sameData same.data run
  exact ⟨fuel, pruned', run', data'.trans data⟩

theorem PrunedAlone.followed {m₁ : Memory} {threadId : String} (alone : PrunedAlone serde m m₁ threadId)
    (same : SameThread m₁ m' threadId) : PrunedAlone serde m m' threadId := by
  obtain ⟨fuel, pruned, run, data⟩ := alone
  exact ⟨fuel, pruned, run, data.trans same.data⟩

theorem steps_swept (distinct : (steps.map MemoryStep.threadId).Nodup)
    (run : steps.foldlM (MemoryStep.perform base serde fuel) m = some m') : MemorySwept serde steps m m' := by
  induction steps generalizing m with
  | nil =>
    cases run
    exact ⟨fun _ member => absurd member List.not_mem_nil, fun _ member => absurd member List.not_mem_nil,
      fun threadId _ => .refl _ threadId⟩
  | cons step rest ih =>
    obtain ⟨m₁, first, later⟩ := Option.bind_eq_some_iff.mp run
    rw [List.map_cons, List.nodup_cons] at distinct
    have swept := ih distinct.2 later
    have apart : ∀ {other : MemoryStep}, other ∈ rest → SameThread m m₁ other.threadId := fun member =>
      step.sameThread first (fun same => distinct.1 (same ▸ List.mem_map_of_mem member))
    constructor
    · intro threadId member
      rcases List.mem_cons.mp member with rfl | inRest
      · exact ⟨fuel, m₁, first, (swept.others threadId distinct.1).data⟩
      · exact (swept.pruned threadId inRest).of_sameThread (apart inRest)
    · intro threadId member
      rcases List.mem_cons.mp member with rfl | inRest
      · exact (Option.some.inj first ▸ deleteThread_noData base m threadId).of_sameThread
          (swept.others threadId distinct.1)
      · exact swept.dropped threadId inRest
    · intro threadId outside
      rw [List.map_cons, List.mem_cons, not_or] at outside
      exact (step.sameThread first outside.1).trans (swept.others threadId outside.2)

theorem steps_sizeDrop {ids : List String} (distinct : ids.Nodup) (listed : ∀ step ∈ steps, step.threadId ∈ ids)
    (run : steps.foldlM (MemoryStep.perform base serde fuel) m = some m') : SizeDrop ids m.sizeState m'.sizeState := by
  induction steps generalizing m with
  | nil =>
    cases run
    exact .refl ids _
  | cons step rest ih =>
    obtain ⟨m₁, first, later⟩ := Option.bind_eq_some_iff.mp run
    obtain ⟨own, others⟩ := List.forall_mem_cons.mp listed
    exact (step.sizeDrop first own distinct).trans (ih others later)

theorem MemoryStep.perform_mono {fuel' : Nat} (le : fuel ≤ fuel') {step : MemoryStep}
    (run : step.perform base serde fuel m = some m') : step.perform base serde fuel' m = some m' := by
  cases step with
  | prune threadId => exact pruneThread_mono le run
  | drop threadId => exact run

/-- The steps come to their end where each pruning does by itself. -/
theorem steps_end_iff (distinct : (steps.map MemoryStep.threadId).Nodup) :
    (∃ fuel m', steps.foldlM (MemoryStep.perform base serde fuel) m = some m') ↔
      ∀ threadId, .prune threadId ∈ steps → WalksEnd serde m threadId := by
  constructor
  · rintro ⟨fuel, m', run⟩ threadId member
    obtain ⟨fuel', pruned, ran, _⟩ := (steps_swept distinct run).pruned threadId member
    exact ⟨fuel', pruned, ran⟩
  · induction steps generalizing m with
    | nil => exact fun _ => ⟨0, m, rfl⟩
    | cons step rest ih =>
      intro ends
      rw [List.map_cons, List.nodup_cons] at distinct
      have first : ∃ fuel m₁, step.perform base serde fuel m = some m₁ := by
        cases step with
        | prune threadId => exact ends threadId List.mem_cons_self
        | drop threadId => exact ⟨0, _, rfl⟩
      obtain ⟨fuel, m₁, first⟩ := first
      obtain ⟨fuel', m', later⟩ := @ih m₁ distinct.2 (fun threadId member => by
        have different : threadId ≠ step.threadId := fun same =>
          distinct.1 (same ▸ List.mem_map_of_mem (f := MemoryStep.threadId) member)
        exact (ends threadId (List.mem_cons_of_mem step member)).transfer (step.sameThread first different).symm)
      refine ⟨max fuel fuel', m', Option.bind_eq_some_iff.mpr ⟨m₁, ?_, ?_⟩⟩
      · exact MemoryStep.perform_mono (Nat.le_max_left ..) first
      · exact Fuel.foldlM_mono (fun _ _ _ => MemoryStep.perform_mono (Nat.le_max_right ..)) later

end Steps

end InmemRuntime
