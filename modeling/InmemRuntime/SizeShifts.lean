import InmemRuntime.SizeWeights
import InmemRuntime.ThreadCopySpec
import InmemRuntime.PruneSpec

namespace InmemRuntime

open Tally

section Storage

theorem checkpointsWeight_set (checkpoints : Checkpoints) (id : PyId) (entry : CheckpointEntry) :
    checkpointsWeight (checkpoints.set id entry) +
        (checkpoints.get? id).elim 0 (fun old => (checkpointEntrySize id old, 1)) =
      checkpointsWeight checkpoints + (checkpointEntrySize id entry, 1) :=
  Dict.sum_set_add ..

theorem checkpointsWeight_erase (checkpoints : Checkpoints) (id : PyId) :
    checkpointsWeight (checkpoints.erase id) +
        (checkpoints.get? id).elim 0 (fun old => (checkpointEntrySize id old, 1)) =
      checkpointsWeight checkpoints :=
  Dict.sum_erase_add ..

theorem checkpointsWeight_getD (found : Option Checkpoints) :
    checkpointsWeight (found.getD .empty) = found.elim 0 checkpointsWeight := by
  cases found <;> rfl

theorem checkpointsWeight_eq (checkpoints : Checkpoints) :
    checkpointsWeight checkpoints = (checkpoints.sum checkpointEntrySize, checkpoints.entries.length) := by
  unfold checkpointsWeight Dict.sum
  induction checkpoints.entries with
  | nil => rfl
  | cons e entries ih =>
    rw [List.map_cons, List.sum_cons, ih, Prod.mk_add_mk, List.map_cons, List.sum_cons, List.length_cons,
      Nat.add_comm 1]

theorem namespacesWeight_set (namespaces : Namespaces) (ns : String) (checkpoints : Checkpoints) :
    namespacesWeight (namespaces.set ns checkpoints) +
        checkpointsWeight ((namespaces.get? ns).getD .empty) =
      namespacesWeight namespaces + checkpointsWeight checkpoints := by
  rw [checkpointsWeight_getD]
  exact Dict.sum_set_add ..

theorem namespacesWeight_erase (namespaces : Namespaces) (ns : String) :
    namespacesWeight (namespaces.erase ns) + checkpointsWeight ((namespaces.get? ns).getD .empty) =
      namespacesWeight namespaces := by
  rw [checkpointsWeight_getD]
  exact Dict.sum_erase_add ..

theorem storageWeight_set (storage : Dict String Namespaces) (t : String) (namespaces : Namespaces) :
    Shifts (storageWeight storage) (storageWeight (storage.set t namespaces)) t
      (namespacesWeight ((storage.get? t).getD .empty)) (namespacesWeight namespaces) := by
  have old : namespacesWeight ((storage.get? t).getD .empty) =
      (storage.get? t).elim 0 (fun namespaces => namespacesWeight namespaces) := by
    cases storage.get? t <;> rfl
  rw [old]
  exact tally_set storage t namespaces

/-- Replacing one namespace shifts the thread's weight by the checkpoints that differ. -/
theorem storageWeight_namespace (storage : Dict String Namespaces) (t : String) {namespaces : Namespaces}
    {old new : Nat × Nat}
    (balance : namespacesWeight namespaces + old = namespacesWeight ((storage.get? t).getD .empty) + new) :
    Shifts (storageWeight storage) (storageWeight (storage.set t namespaces)) t old new :=
  (storageWeight_set storage t namespaces).cancel balance

theorem storageWeight_erase (storage : Dict String Namespaces) (t : String) :
    Shifts (storageWeight storage) (storageWeight (storage.erase t)) t
      ((storage.filter (fun u _ => !decide (u ≠ t))).sum (fun _ namespaces => namespacesWeight namespaces)) 0 :=
  tally_filter (fun _ namespaces => namespacesWeight namespaces) storage (fun u _ => u ≠ t)
    (fun e _ dropped => by simpa using dropped)

/-- Setting one checkpoint replaces its weight in the thread's namespaces. -/
theorem namespacesWeight_put (namespaces : Namespaces) (ns : String) (id : PyId) (entry : CheckpointEntry) :
    let checkpoints := (namespaces.get? ns).getD .empty
    namespacesWeight (namespaces.set ns (checkpoints.set id entry)) +
        (checkpoints.get? id).elim 0 (fun old => (checkpointEntrySize id old, 1)) =
      namespacesWeight namespaces + (checkpointEntrySize id entry, 1) := by
  intro checkpoints
  have outer := namespacesWeight_set namespaces ns (checkpoints.set id entry)
  have inner := checkpointsWeight_set checkpoints id entry
  refine add_right_cancel (b := checkpointsWeight checkpoints) ?_
  rw [add_right_comm, outer, add_assoc, inner, add_comm (checkpointsWeight checkpoints), add_assoc]

/-- Removing one checkpoint, and its namespace once that is empty, takes its weight away. -/
theorem namespacesWeight_discard (namespaces : Namespaces) {ns : String} {checkpoints : Checkpoints}
    (stored : namespaces.get? ns = some checkpoints) {id : PyId} {entry : CheckpointEntry}
    (found : checkpoints.get? id = some entry) :
    namespacesWeight (if (checkpoints.erase id).entries.isEmpty then namespaces.erase ns
        else namespaces.set ns (checkpoints.erase id)) + (checkpointEntrySize id entry, 1) =
      namespacesWeight namespaces := by
  have inner := checkpointsWeight_erase checkpoints id
  rw [found, Option.elim_some] at inner
  split
  · rename_i empty
    have outer := namespacesWeight_erase namespaces ns
    have nothing : checkpointsWeight (checkpoints.erase id) = 0 := by
      rw [checkpointsWeight, Dict.sum, List.isEmpty_iff.mp empty]
      rfl
    rw [nothing, zero_add] at inner
    rwa [stored, Option.getD_some, ← inner] at outer
  · have outer := namespacesWeight_set namespaces ns (checkpoints.erase id)
    rw [stored, Option.getD_some, ← inner, ← add_assoc, add_right_comm] at outer
    exact add_right_cancel outer

end Storage

theorem storageWeight_only (storage : Dict String Namespaces) (t : String) :
    storageWeight storage (only t) = namespacesWeight ((storage.get? t).getD .empty) := by
  have parts := storage.sum_erase_add t
    (fun u namespaces => if only t u then namespacesWeight namespaces else 0)
  have rest : storageWeight (storage.erase t) (only t) = 0 := by
    refine tally_only_eq_zero (fun e member same => ?_)
    have erased := (Dict.mem_filter_entries.mp member).2
    simp only [ne_eq, decide_not, Bool.not_eq_true', decide_eq_false_iff_not] at erased
    exact erased same
  have mine : (storage.get? t).elim 0 (fun namespaces => if only t t then namespacesWeight namespaces else 0) =
      namespacesWeight ((storage.get? t).getD .empty) := by
    cases storage.get? t with
    | none => rfl
    | some found => simp [only]
  rw [mine] at parts
  have whole : storageWeight (storage.erase t) (only t) + namespacesWeight ((storage.get? t).getD .empty) =
      storageWeight storage (only t) := parts
  rw [← whole, rest, zero_add]

/-- Reading a thread's namespaces into place changes no weight. -/
theorem storageWeight_read (storage : Dict String Namespaces) (t : String) :
    storageWeight (storage.set t ((storage.get? t).getD .empty)) = storageWeight storage := by
  funext p
  exact add_right_cancel (storageWeight_set storage t ((storage.get? t).getD .empty) p)

section CopiedSizes

variable {new old : Uuid}

theorem checkpointsWeight_subst {checkpoints : Checkpoints}
    (clean : (checkpointsToData checkpoints).Clean new old) :
    checkpointsWeight (substCheckpoints new old checkpoints) = checkpointsWeight checkpoints := by
  have distinct : ((checkpoints.entries.map
      (fun e => (substKey new old e.1, e.2.subst new old))).map Prod.fst).Nodup := by
    simp only [checkpointsToData, Data.Clean, List.map_map] at clean
    rw [List.map_map]
    exact clean.2.1
  rw [checkpointsWeight, Dict.sum, substCheckpoints, Dict.ofPairs_entries distinct, List.map_map]
  simp only [Function.comp_def, checkpointEntrySize_subst]
  rfl

/-- A clean copy of the namespaces weighs what the namespaces weigh. -/
theorem namespacesWeight_subst {namespaces : Namespaces}
    (clean : (namespacesToData namespaces).Clean new old) :
    namespacesWeight (substNamespaces new old namespaces) = namespacesWeight namespaces := by
  simp only [namespacesToData, Data.Clean, List.map_map] at clean
  obtain ⟨members, names, _⟩ := clean
  have distinct : ((namespaces.entries.map
      (fun e => (substText new old e.1, substCheckpoints new old e.2))).map Prod.fst).Nodup := by
    rw [List.map_map]
    refine List.Nodup.of_map PyId.text ?_
    rw [List.map_map]
    exact names
  rw [namespacesWeight, Dict.sum, substNamespaces, Dict.ofPairs_entries distinct, List.map_map]
  refine congrArg List.sum (List.map_congr_left (fun e member => ?_))
  exact checkpointsWeight_subst (members.value _ (List.mem_map_of_mem member))

end CopiedSizes

section Bytes

/-- Write groups and blobs count no checkpoints. -/
theorem sum_bytes {α : Type} (l : List α) (f : α → Nat) :
    (l.map (fun x => ((f x, 0) : Nat × Nat))).sum = ((l.map f).sum, 0) := by
  induction l with
  | nil => rfl
  | cons x l ih => rw [List.map_cons, List.sum_cons, ih, List.map_cons, List.sum_cons, Prod.mk_add_mk]

theorem elim_bytes {α : Type} (found : Option α) (f : α → Nat) :
    found.elim (0 : Nat × Nat) (fun x => (f x, 0)) = (found.elim 0 f, 0) := by
  cases found <;> rfl

theorem writesWeight_set (writes : Dict WriteKey WriteGroup) (key : WriteKey) (group : WriteGroup) :
    Shifts (writesWeight writes) (writesWeight (writes.set key group)) key.thread
      ((writes.get? key).elim 0 (writeGroupSize key.checkpoint), 0)
      (writeGroupSize key.checkpoint group, 0) := by
  rw [← elim_bytes]
  exact tally_set writes key group

/-- Assigning pairs of one thread shifts its weight by what they replace. -/
theorem blobsWeight_setAll (blobs : Dict BlobKey Typed) {t : String} {pairs : List (BlobKey × Typed)}
    (distinct : (pairs.map Prod.fst).Nodup) (ofThread : ∀ e ∈ pairs, e.1.thread = t) :
    Shifts (blobsWeight blobs) (blobsWeight (blobs.setAll pairs)) t
      ((pairs.map (fun e => (blobs.get? e.1).elim 0 (blobEntrySize e.1.channel e.1.version))).sum, 0)
      ((pairs.map (fun e => blobEntrySize e.1.channel e.1.version e.2)).sum, 0) := by
  rw [← sum_bytes, ← sum_bytes]
  simp only [← elim_bytes]
  exact tally_setAll blobs distinct ofThread

theorem writesWeight_filter (writes : Dict WriteKey WriteGroup) {t : String} (keep : WriteKey → Bool)
    (dropped : ∀ key, keep key = false → key.thread = t) :
    Shifts (writesWeight writes) (writesWeight (writes.filter (fun key _ => keep key))) t
      ((writes.filter (fun key _ => !keep key)).sum (fun key group => writeGroupSize key.checkpoint group), 0)
      0 := by
  have shift := tally_filter (fun (key : WriteKey) group => ((writeGroupSize key.checkpoint group, 0) : Nat × Nat))
    writes (fun key _ => keep key) (fun e _ out => dropped e.1 out)
  simp only [Dict.sum, sum_bytes] at shift
  exact shift

theorem blobsWeight_filter (blobs : Dict BlobKey Typed) {t : String} (keep : BlobKey → Bool)
    (dropped : ∀ key, keep key = false → key.thread = t) :
    Shifts (blobsWeight blobs) (blobsWeight (blobs.filter (fun key _ => keep key))) t
      ((blobs.filter (fun key _ => !keep key)).sum
        (fun key value => blobEntrySize key.channel key.version value), 0) 0 := by
  have shift := tally_filter
    (fun (key : BlobKey) value => ((blobEntrySize key.channel key.version value, 0) : Nat × Nat)) blobs
    (fun key _ => keep key) (fun e _ out => dropped e.1 out)
  simp only [Dict.sum, sum_bytes] at shift
  exact shift

theorem writesWeight_copy (writes : Dict WriteKey WriteGroup) {new : Uuid} (old : Uuid)
    (absent : ∀ key ∈ writes.keys, key.thread ≠ new.str) :
    Shifts (writesWeight writes)
      (writesWeight (writes.setAll
        (copiedWriteGroups new old (writes.entries.filter (fun e => decide (e.1.thread = old.str))))))
      new.str 0 (writesWeight writes (only old.str)) := by
  refine tally_copy writes (fun key => key.inThread new.str) (substWriteGroup new old) ?_ (fun _ => rfl) absent ?_
  · rintro ⟨_, ns, id⟩ ⟨_, ns', id'⟩ rfl rfl same
    simpa [WriteKey.inThread] using same
  · intro e _ _
    exact Prod.ext (writeGroupSize_subst e.1.checkpoint e.2) rfl

theorem blobsWeight_copy (blobs : Dict BlobKey Typed) {new : Uuid} (old : Uuid)
    (absent : ∀ key ∈ blobs.keys, key.thread ≠ new.str) :
    Shifts (blobsWeight blobs)
      (blobsWeight (blobs.setAll
        (copiedBlobs new (blobs.entries.filter (fun e => decide (e.1.thread = old.str))))))
      new.str 0 (blobsWeight blobs (only old.str)) := by
  refine tally_copy blobs (fun key => key.inThread new.str) id ?_ (fun _ => rfl) absent (fun _ _ _ => rfl)
  rintro ⟨_, ns, channel, version⟩ ⟨_, ns', channel', version'⟩ rfl rfl same
  simpa [BlobKey.inThread] using same

end Bytes

/-- Nothing is stored for the thread. -/
structure Containers.Unused (c : Containers) (t : String) : Prop where
  storage : t ∉ c.storage.keys
  writes : ∀ key ∈ c.writes.keys, key.thread ≠ t
  blobs : ∀ key ∈ c.blobs.keys, key.thread ≠ t

theorem Containers.Unused.weight {c : Containers} {t : String} (unused : c.Unused t) :
    c.weight (only t) = 0 := by
  have storage : storageWeight c.storage (only t) = 0 := by
    refine tally_only_eq_zero (fun e member same => unused.storage ?_)
    rw [← same]
    exact List.mem_map_of_mem member
  have writes : writesWeight c.writes (only t) = 0 :=
    tally_only_eq_zero (fun e member => unused.writes _ (List.mem_map_of_mem member))
  have blobs : blobsWeight c.blobs (only t) = 0 :=
    tally_only_eq_zero (fun e member => unused.blobs _ (List.mem_map_of_mem member))
  rw [Containers.weight, storage, writes, blobs]
  rfl

/-- The three containers' shifts make one. -/
theorem Containers.weight_shift {c c' : Containers} {t : String} {old new old' new' old'' new'' : Nat × Nat}
    (storage : Shifts (storageWeight c.storage) (storageWeight c'.storage) t old new)
    (writes : Shifts (writesWeight c.writes) (writesWeight c'.writes) t old' new')
    (blobs : Shifts (blobsWeight c.blobs) (blobsWeight c'.blobs) t old'' new'') :
    Shifts c.weight c'.weight t (old + old' + old'') (new + new' + new'') :=
  (storage.add writes).add blobs

end InmemRuntime
