import InmemRuntime.SizeShifts
import InmemRuntime.RunCheckpoints

namespace InmemRuntime

open Tally

/-- The tracker is exact: it holds the weight of the containers. -/
def Memory.Tracks (m : Memory) : Prop := Counts m.sizeState m.weight

namespace Memory

variable {m m' : Memory}

/-- An adjustment by what the containers' weight shifts by keeps the tracker exact. -/
theorem Tracks.adjust (tracks : m.Tracks) {c : Containers} {t : String} {old new : Nat × Nat}
    {sizeDelta checkpointDelta : Int} (shift : Shifts m.weight c.weight t old new)
    (bytes : sizeDelta = (new.1 : Int) - old.1) (checkpoints : checkpointDelta = (new.2 : Int) - old.2) :
    Tracks ⟨c, m.sizeState.adjust t sizeDelta checkpointDelta⟩ := by
  rw [bytes, checkpoints]
  exact Counts.adjust tracks shift

section Put

variable {base : BaseSaver} {config : RunnableConfig}

/-- The pairs that `put` writes: one blob for each entry of `new_versions`. -/
def blobPairs (t ns : String) (newVersions : Dict String Version) (value : String → Typed) :
    List (BlobKey × Typed) :=
  newVersions.entries.map (fun e => (⟨t, ns, e.1, e.2⟩, value e.1))

theorem blobPairs_nodup (t ns : String) (newVersions : Dict String Version) (value : String → Typed) :
    ((blobPairs t ns newVersions value).map Prod.fst).Nodup := by
  have channels : ((blobPairs t ns newVersions value).map Prod.fst).map BlobKey.channel =
      newVersions.entries.map Prod.fst := by
    simp [blobPairs, Function.comp_def]
  exact List.Nodup.of_map BlobKey.channel (channels ▸ newVersions.nodup)

theorem blobsWeight_put (blobs : Dict BlobKey Typed) (t ns : String) (newVersions : Dict String Version)
    (value : String → Typed) :
    let after := blobs.setAll (blobPairs t ns newVersions value)
    Shifts (blobsWeight blobs) (blobsWeight after) t
      (blobSizes blobs t ns newVersions, 0) (blobSizes after t ns newVersions, 0) := by
  intro after
  have distinct := blobPairs_nodup t ns newVersions value
  have ofThread : ∀ e ∈ blobPairs t ns newVersions value, e.1.thread = t := by
    intro e member
    obtain ⟨item, _, rfl⟩ := List.mem_map.mp member
    rfl
  have shift := blobsWeight_setAll blobs distinct ofThread
  have written : blobSizes after t ns newVersions = ((blobPairs t ns newVersions value).map
      (fun e => blobEntrySize e.1.channel e.1.version e.2)).sum := by
    simp only [blobSizes, Dict.sum, blobPairs, List.map_map]
    refine congrArg List.sum (List.map_congr_left (fun e member => ?_))
    have stored : after.get? ⟨t, ns, e.1, e.2⟩ = some (value e.1) :=
      Dict.get?_setAll_of_mem distinct (List.mem_map.mpr ⟨e, member, rfl⟩)
    rw [stored]
    rfl
  have replaced : blobSizes blobs t ns newVersions = ((blobPairs t ns newVersions value).map
      (fun e => (blobs.get? e.1).elim 0 (blobEntrySize e.1.channel e.1.version))).sum := by
    simp only [blobSizes, Dict.sum, blobPairs, List.map_map, Function.comp_def]
  rw [written, replaced]
  exact shift

/-- `put` writes one checkpoint and one blob for each new version, and adjusts
by the sizes after and before. -/
theorem Tracks.put (tracks : m.Tracks) {checkpoint : Checkpoint} {metadata : PyDict}
    {newVersions : Dict String Version}
    (run : m.put base config checkpoint metadata newVersions = some m') : m'.Tracks := by
  obtain ⟨ns, atNs, run⟩ := Option.bind_eq_some_iff.mp run
  obtain ⟨c, baseRun, run⟩ := Option.bind_eq_some_iff.mp run
  obtain ⟨newEntry, found, run⟩ := Option.bind_eq_some_iff.mp run
  obtain rfl := Option.some.inj run
  obtain ⟨ns', entry, value, atNs', storage, writes, blobs⟩ := base.put_law baseRun
  obtain rfl := Option.some.inj (atNs.symm.trans atNs')
  have isNew : newEntry = entry := by
    simpa [entryAt, storage] using found.symm
  subst isNew
  have storageShift := storageWeight_namespace m.storage config.threadId
    (namespacesWeight_put ((m.storage.get? config.threadId).getD .empty) ns checkpoint.id newEntry)
  have writesShift : Shifts (writesWeight m.writes) (writesWeight c.writes) config.threadId 0 0 := by
    rw [writes]
    exact .refl _ _
  have assigned : c.blobs = m.blobs.setAll (blobPairs config.threadId ns newVersions value) := by
    rw [blobs, blobPairs, Dict.setAll, List.foldl_map]
  have blobsShift := blobsWeight_put m.blobs config.threadId ns newVersions value
  simp only [← assigned] at blobsShift
  rw [← storage] at storageShift
  have old : (((((m.storage.get? config.threadId).getD .empty).get? ns).getD .empty).get? checkpoint.id).elim
      (0 : Nat × Nat) (fun old => (checkpointEntrySize checkpoint.id old, 1)) =
      ((entryAt m.toContainers config.threadId ns checkpoint.id).elim 0 (checkpointEntrySize checkpoint.id),
        if (entryAt m.toContainers config.threadId ns checkpoint.id).isNone then 0 else 1) := by
    unfold entryAt
    cases ((((m.storage.get? config.threadId).getD .empty).get? ns).getD .empty).get? checkpoint.id <;> rfl
  rw [old] at storageShift
  refine tracks.adjust (Containers.weight_shift storageShift writesShift blobsShift) (by simp) ?_
  cases (entryAt m.toContainers config.threadId ns checkpoint.id).isNone <;> simp

theorem Tracks.putWrites (tracks : m.Tracks) {writes : List (String × PyVal)} {taskId taskPath : String}
    (run : m.putWrites base config writes taskId taskPath = some m') : m'.Tracks := by
  obtain ⟨id, atId, run⟩ := Option.bind_eq_some_iff.mp run
  obtain ⟨c, baseRun, run⟩ := Option.bind_eq_some_iff.mp run
  obtain rfl := Option.some.inj run
  obtain ⟨id', atId', storage, blobs, added, written⟩ := base.putWrites_law baseRun
  obtain rfl := Option.some.inj (atId.symm.trans atId')
  have noStorage : Shifts (storageWeight m.storage) (storageWeight c.storage) config.threadId 0 0 := by
    rw [storage]
    exact .refl _ _
  have noBlobs : Shifts (blobsWeight m.blobs) (blobsWeight c.blobs) config.threadId 0 0 := by
    rw [blobs]
    exact .refl _ _
  by_cases empty : added.isEmpty
  · simp only [empty, if_true] at written
    have noWrites : Shifts (writesWeight m.writes) (writesWeight c.writes) config.threadId 0 0 := by
      rw [written]
      exact .refl _ _
    exact tracks.adjust (Containers.weight_shift noStorage noWrites noBlobs) (by simp [written]) (by simp)
  · simp only [empty, Bool.false_eq_true, if_false] at written
    have group := writesWeight_set m.writes ⟨config.threadId, config.checkpointNs.getD "", id⟩
      (added.foldl (fun g e => g.set e.1 e.2)
        ((m.writes.get? ⟨config.threadId, config.checkpointNs.getD "", id⟩).getD .empty))
    rw [← written] at group
    exact tracks.adjust (Containers.weight_shift noStorage group noBlobs) (by simp [written]) (by simp)

end Put

section Delete

theorem Tracks.clear : m.clear.Tracks := Counts.cleared

theorem Tracks.deleteThread (tracks : m.Tracks) (base : BaseSaver) (t : String) :
    (m.deleteThread base t).Tracks := by
  have unused : (base.deleteThread m.toContainers t).Unused t := by
    rw [base.deleteThread_law]
    refine ⟨?_, fun key member => ?_, fun key member => ?_⟩
    · rw [← Dict.get?_eq_none_iff]
      exact Dict.get?_erase_self _ _
    · obtain ⟨e, inside, rfl⟩ := List.mem_map.mp member
      simpa using (Dict.mem_filter_entries.mp inside).2
    · obtain ⟨e, inside, rfl⟩ := List.mem_map.mp member
      simpa using (Dict.mem_filter_entries.mp inside).2
  obtain ⟨old, shift⟩ : ∃ old, Shifts m.weight (base.deleteThread m.toContainers t).weight t old 0 := by
    rw [base.deleteThread_law]
    have storage := storageWeight_erase m.storage t
    have writes := writesWeight_filter (t := t) m.writes (fun key => key.thread ≠ t) (by simp)
    have blobs := blobsWeight_filter (t := t) m.blobs (fun key => key.thread ≠ t) (by simp)
    exact ⟨_, (storage.add writes).add blobs⟩
  exact Counts.removeThread tracks shift unused.weight

end Delete

section Prune

variable {serde : Serde} {fuel : Nat}

/-- What is left in the thread's namespaces and what the loop counted as
removed make up what was there. -/
theorem pruneNamespace_balance {blobs : Dict BlobKey Typed} {t : String} {acc acc' : PruneAcc} {ns : String}
    {checkpoints : Checkpoints} (stored : acc.namespaces.get? ns = some checkpoints)
    (run : pruneNamespace serde fuel blobs t acc (ns, checkpoints) = some acc') :
    namespacesWeight acc'.namespaces + (acc'.removedSize, acc'.removedCheckpoints) =
      namespacesWeight acc.namespaces + (acc.removedSize, acc.removedCheckpoints) := by
  rcases pruneNamespace_cases run with ⟨empty, rfl⟩ | ⟨keep, _, rfl⟩
  · have erased := namespacesWeight_erase acc.namespaces ns
    have nothing : checkpointsWeight checkpoints = 0 := by
      rw [checkpointsWeight, Dict.sum, empty]
      rfl
    rw [stored, Option.getD_some, nothing, add_zero] at erased
    rw [erased]
  · have replaced := namespacesWeight_set acc.namespaces ns (checkpoints.filter (fun id _ => keep.contains id))
    have parts : checkpointsWeight (checkpoints.filter (fun id _ => keep.contains id)) +
        checkpointsWeight (checkpoints.filter (fun id _ => !keep.contains id)) = checkpointsWeight checkpoints :=
      Dict.sum_filter_add_sum_filter_not ..
    rw [stored, Option.getD_some, ← parts, ← add_assoc, add_right_comm] at replaced
    have kept := add_right_cancel replaced
    rw [checkpointsWeight_eq] at kept
    simp only [PruneAcc.keepNamespace, ← Prod.mk_add_mk]
    rw [add_comm (acc.removedSize, acc.removedCheckpoints), ← add_assoc, kept]

theorem pruneNamespaces_balance {blobs : Dict BlobKey Typed} {t : String} {l : List (String × Checkpoints)}
    {acc acc' : PruneAcc} (distinct : (l.map Prod.fst).Nodup)
    (stored : ∀ e ∈ l, acc.namespaces.get? e.1 = some e.2)
    (run : l.foldlM (pruneNamespace serde fuel blobs t) acc = some acc') :
    namespacesWeight acc'.namespaces + (acc'.removedSize, acc'.removedCheckpoints) =
      namespacesWeight acc.namespaces + (acc.removedSize, acc.removedCheckpoints) := by
  induction l generalizing acc with
  | nil => cases Option.some.inj run; rfl
  | cons e l ih =>
    obtain ⟨middle, first, rest⟩ := Option.bind_eq_some_iff.mp run
    simp only [List.map_cons, List.nodup_cons] at distinct
    obtain ⟨storedFirst, storedRest⟩ := List.forall_mem_cons.mp stored
    have untouched : ∀ f ∈ l, middle.namespaces.get? f.1 = some f.2 := by
      intro f member
      have other : f.1 ∉ [e].map Prod.fst := by
        simp only [List.map_cons, List.map_nil, List.mem_singleton]
        intro same
        exact distinct.1 (same ▸ List.mem_map_of_mem member)
      have single : [e].foldlM (pruneNamespace serde fuel blobs t) acc = some middle := by
        simp [List.foldlM_cons, first]
      rw [pruneNamespaces_other single other, storedRest f member]
    rw [ih distinct.2 untouched rest, pruneNamespace_balance storedFirst first]

theorem Tracks.pruneThread (tracks : m.Tracks) {t : String} (run : pruneThread serde fuel m t = some m') :
    m'.Tracks := by
  unfold InmemRuntime.pruneThread at run
  cases stored : m.storage.get? t with
  | none =>
    simp only [stored, Option.some.injEq] at run
    exact run ▸ tracks
  | some namespaces =>
    by_cases empty : namespaces.entries.isEmpty
    · simp only [stored, empty, if_true, Option.some.injEq] at run
      exact run ▸ tracks
    · simp only [stored, empty, Bool.false_eq_true, if_false] at run
      obtain ⟨acc, fold, run⟩ := Option.bind_eq_some_iff.mp run
      obtain rfl := Option.some.inj run
      have balance := pruneNamespaces_balance namespaces.nodup
        (fun e member => Dict.mem_entries_iff.mp member) fold
      have total : namespacesWeight acc.namespaces + (acc.removedSize, acc.removedCheckpoints) =
          namespacesWeight ((m.storage.get? t).getD .empty) + 0 := by
        rw [balance, stored]
        rfl
      have storage := storageWeight_namespace m.storage t total
      have writes := writesWeight_filter (t := t) m.writes (fun key => !(decide (key.thread = t) &&
        !acc.keptWriteKeys.contains (key.thread, key.ns, key.checkpoint.str))) (fun key out => by
          simp only [Bool.not_eq_false', Bool.and_eq_true, decide_eq_true_eq] at out
          exact out.1)
      have blobs := blobsWeight_filter (t := t) m.blobs (fun key => !(decide (key.thread = t) &&
        !acc.keptBlobKeys.contains key)) (fun key out => by
          simp only [Bool.not_eq_false', Bool.and_eq_true, decide_eq_true_eq] at out
          exact out.1)
      simp only [Bool.not_not] at writes blobs
      refine Tracks.adjust tracks ((storage.add writes).add blobs) ?_ ?_
      · simp
      · simp

theorem Tracks.prune (tracks : m.Tracks) {base : BaseSaver} {threadIds : List PyId} {strategy : PruneStrategy}
    (run : prune serde fuel base m threadIds strategy = some (.ok m')) : m'.Tracks := by
  have deleted : (threadIds.foldl (fun m id => m.deleteThread base id.str) m).Tracks := by
    clear run
    induction threadIds generalizing m with
    | nil => exact tracks
    | cons id threadIds ih => exact ih (tracks.deleteThread base id.str)
  cases strategy with
  | delete =>
    obtain rfl := Except.ok.inj (Option.some.inj run)
    exact deleted
  | deleteAll =>
    obtain rfl := Except.ok.inj (Option.some.inj run)
    exact deleted
  | other name => cases Option.some.inj run
  | keepLatest =>
    obtain ⟨last, fold, same⟩ := Option.map_eq_some_iff.mp run
    obtain rfl := Except.ok.inj same
    clear deleted same run
    induction threadIds generalizing m with
    | nil => exact Option.some.inj fold ▸ tracks
    | cons id threadIds ih =>
      obtain ⟨middle, first, rest⟩ := Option.bind_eq_some_iff.mp fold
      exact ih (tracks.pruneThread first) rest

end Prune

section DeleteRun

variable {serde : Serde} {runId t : String}

theorem Tracks.discardOfRun (tracks : m.Tracks) {ns : String} {item : PyId × CheckpointEntry}
    (stored : entryAt m.toContainers t ns item.1 = some item.2) :
    (m.discardOfRun serde runId t ns item).Tracks := by
  unfold Memory.discardOfRun
  split
  · obtain ⟨namespaces, checkpoints, atThread, atNs, atId⟩ := entryAt_eq stored
    have discarded := namespacesWeight_discard namespaces atNs atId
    simp only [atThread, atNs, Option.getD_some]
    have total : namespacesWeight (if (checkpoints.erase item.1).entries.isEmpty then namespaces.erase ns
        else namespaces.set ns (checkpoints.erase item.1)) + (checkpointEntrySize item.1 item.2, 1) =
        namespacesWeight ((m.storage.get? t).getD .empty) + 0 := by
      rw [discarded, atThread]
      rfl
    have storage := storageWeight_namespace m.storage t total
    exact Tracks.adjust tracks ((storage.add (.refl (writesWeight m.writes) t)).add
      (.refl (blobsWeight m.blobs) t)) (by simp) (by simp)
  · exact tracks

variable (serde runId) in
theorem Tracks.discardAll {ns : String} {items : List (PyId × CheckpointEntry)} (tracks : m.Tracks)
    (distinct : (items.map Prod.fst).Nodup)
    (stored : ∀ e ∈ items, entryAt m.toContainers t ns e.1 = some e.2) :
    (items.foldl (Memory.discardOfRun serde runId t ns) m).Tracks ∧ ∀ ns' ≠ ns, ∀ id,
      entryAt (items.foldl (Memory.discardOfRun serde runId t ns) m).toContainers t ns' id =
        entryAt m.toContainers t ns' id := by
  induction items generalizing m with
  | nil => exact ⟨tracks, fun _ _ _ => rfl⟩
  | cons e items ih =>
    simp only [List.map_cons, List.nodup_cons] at distinct
    obtain ⟨storedFirst, storedRest⟩ := List.forall_mem_cons.mp stored
    have untouched : ∀ f ∈ items,
        entryAt (m.discardOfRun serde runId t ns e).toContainers t ns f.1 = some f.2 := by
      intro f member
      have other : f.1 ≠ e.1 := fun same => distinct.1 (same ▸ List.mem_map_of_mem member)
      rw [m.discardOfRun_entryAt (Or.inr other), storedRest f member]
    obtain ⟨tracked, elsewhere⟩ := ih (tracks.discardOfRun storedFirst) distinct.2 untouched
    refine ⟨tracked, fun ns' other id => ?_⟩
    exact (elsewhere ns' other id).trans (m.discardOfRun_entryAt (Or.inl other))

theorem Tracks.deleteRunCheckpoints (tracks : m.Tracks) :
    (m.deleteRunCheckpoints serde runId t).Tracks := by
  unfold Memory.deleteRunCheckpoints
  cases atThread : m.storage.get? t with
  | none => exact tracks
  | some namespaces =>
    have stored : ∀ e ∈ namespaces.entries, ∀ f ∈ e.2.entries,
        entryAt m.toContainers t e.1 f.1 = some f.2 := by
      intro e member f inside
      have atNs := Dict.mem_entries_iff.mp member
      have atId := Dict.mem_entries_iff.mp inside
      simp [entryAt, atThread, atNs, atId]
    have distinct := namespaces.nodup
    simp only
    clear atThread
    generalize namespaces.entries = entries at stored distinct ⊢
    induction entries generalizing m with
    | nil => exact tracks
    | cons e rest ih =>
      simp only [List.map_cons, List.nodup_cons] at distinct
      obtain ⟨storedFirst, storedRest⟩ := List.forall_mem_cons.mp stored
      obtain ⟨tracked, elsewhere⟩ := tracks.discardAll serde runId e.2.nodup storedFirst
      refine ih tracked (fun f member g inside => ?_) distinct.2
      have other : f.1 ≠ e.1 := fun same => distinct.1 (same ▸ List.mem_map_of_mem member)
      rw [elsewhere f.1 other, storedRest f member g inside]

end DeleteRun

section Copy

/-- A copy to an unused id gives it the weight of the source. -/
theorem Tracks.copyThread (tracks : m.Tracks) {source target : Uuid} (other : target ≠ source)
    (clean : CleanSource m target source) (unused : m.toContainers.Unused target.str)
    (run : m.copyThread source target = .ok m') : m'.Tracks := by
  obtain rfl := Except.ok.inj ((copyThread_clean clean other).symm.trans run)
  have absent : m.storage.get? target.str = none := Dict.get?_eq_none_iff.mpr unused.storage
  have notSource : target.str ≠ source.str := fun same => other (Uuid.str_inj.mp same)
  have storage := storageWeight_set (m.storage.set source.str ((m.storage.get? source.str).getD .empty))
    target.str (substNamespaces target source ((m.storage.get? source.str).getD .empty))
  rw [storageWeight_read, Dict.get?_set_of_ne _ _ notSource, absent, namespacesWeight_subst clean.namespaces,
    ← storageWeight_only] at storage
  have writes := writesWeight_copy m.writes source unused.writes
  have blobs := blobsWeight_copy m.blobs source unused.blobs
  exact Counts.copyThread tracks ((storage.add writes).add blobs) unused.weight

end Copy

end Memory

end InmemRuntime
