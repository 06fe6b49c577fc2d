import InmemRuntime.ThreadCopy

namespace InmemRuntime

section Subst

variable (new old : Uuid)

def Typed.subst (value : Typed) : Typed :=
  ⟨substText new old value.kind, Replace.replace old.encoded new.encoded value.data⟩

def CheckpointEntry.subst (entry : CheckpointEntry) : CheckpointEntry :=
  ⟨entry.checkpoint.subst new old, entry.metadata.subst new old, entry.parent.map (substKey new old)⟩

def PendingWrite.subst (write : PendingWrite) : PendingWrite :=
  ⟨substText new old write.taskId, substText new old write.channel, write.value.subst new old,
    substText new old write.taskPath⟩

def substCheckpoints (checkpoints : Checkpoints) : Checkpoints :=
  Dict.ofPairs (checkpoints.entries.map (fun e => (substKey new old e.1, e.2.subst new old)))

def substNamespaces (namespaces : Namespaces) : Namespaces :=
  Dict.ofPairs (namespaces.entries.map (fun e => (substText new old e.1, substCheckpoints new old e.2)))

/-- The inner keys are kept as they are. -/
def substWriteGroup (writes : WriteGroup) : WriteGroup :=
  Dict.ofPairs (writes.entries.map (fun e => (e.1, e.2.subst new old)))

end Subst

section Decode

variable {new old : Uuid}

theorem mapM_some {α β : Type} {f : α → Option β} {g : α → β} {items : List α}
    (each : ∀ a ∈ items, f a = some (g a)) : items.mapM f = some (items.map g) := by
  induction items with
  | nil => rfl
  | cons a items ih =>
    obtain ⟨first, rest⟩ := List.forall_mem_cons.mp each
    simp [List.mapM_cons, first, ih rest]

theorem Typed.ofData?_substitute (value : Typed) :
    Typed.ofData? (value.toData.substitute new old) = some (value.subst new old) := rfl

theorem parentOfData?_substitute (parent : Option PyId) :
    parentOfData? ((parentToData parent).substitute new old) = some (parent.map (substKey new old)) := by
  rcases parent with _ | text | uuid
  · rfl
  · rfl
  · rfl

theorem CheckpointEntry.ofData?_substitute (entry : CheckpointEntry) :
    CheckpointEntry.ofData? (entry.toData.substitute new old) = some (entry.subst new old) := by
  simp [CheckpointEntry.toData, Data.substitute, substituteItems, CheckpointEntry.ofData?,
    Typed.ofData?_substitute, parentOfData?_substitute, CheckpointEntry.subst]

theorem PendingWrite.ofData?_substitute (write : PendingWrite) :
    PendingWrite.ofData? (write.toData.substitute new old) = some (write.subst new old) := rfl

theorem checkpointsOfData?_substitute (checkpoints : Checkpoints) :
    checkpointsOfData? ((checkpointsToData checkpoints).substitute new old) =
      some (substCheckpoints new old checkpoints) := by
  have each : ∀ e : PyId × CheckpointEntry,
      (CheckpointEntry.ofData? (e.2.toData.substitute new old)).map (substKey new old e.1, ·) =
        some (substKey new old e.1, e.2.subst new old) := by
    intro e
    rw [CheckpointEntry.ofData?_substitute, Option.map_some]
  simp only [checkpointsToData, Data.substitute, substituteMembers_eq_map, List.map_map, checkpointsOfData?,
    Function.comp_def]
  have read := mapM_some (fun e (_ : e ∈ checkpoints.entries) => each e)
  rw [List.mapM_map]
  exact congrArg (Option.map Dict.ofPairs) read

theorem namespacesOfData?_substitute (namespaces : Namespaces) :
    namespacesOfData? ((namespacesToData namespaces).substitute new old) =
      some (substNamespaces new old namespaces) := by
  have each : ∀ e : String × Checkpoints,
      namespaceOfItem? (.text (substText new old e.1), (checkpointsToData e.2).substitute new old) =
        some (substText new old e.1, substCheckpoints new old e.2) := by
    intro e
    rw [namespaceOfItem?, checkpointsOfData?_substitute, Option.map_some]
  simp only [namespacesToData, Data.substitute, substituteMembers_eq_map, List.map_map, namespacesOfData?,
    Function.comp_def, substKey]
  have read := mapM_some (fun e (_ : e ∈ namespaces.entries) => each e)
  rw [List.mapM_map]
  exact congrArg (Option.map Dict.ofPairs) read

end Decode

section Sizes

variable {new old : Uuid}

theorem utf8ByteSize_eq_sum (s : String) : s.utf8ByteSize = (s.toList.map Char.utf8Size).sum := by
  have general : ∀ chars : List Char, String.utf8Len chars = (chars.map Char.utf8Size).sum := by
    intro chars
    induction chars with
    | nil => rfl
    | cons c chars ih => rw [String.utf8Len_cons, ih, List.map_cons, List.sum_cons, Nat.add_comm]
  rw [← general, ← String.utf8ByteSize_ofList, String.ofList_toList]

theorem Uuid.chars_utf8 (u : Uuid) : (u.chars.map Char.utf8Size).sum = 36 := by
  have one : ∀ c ∈ u.chars, c.utf8Size = 1 := by
    intro c member
    have value := uuidChar_value (u.chars_isUuidChar member)
    have ascii : c.val ≤ 127 := UInt32.le_iff_toNat_le.mpr (show c.toNat ≤ 127 by omega)
    exact if_pos ascii
  rw [List.map_congr_left one, List.map_const', u.chars_length]
  rfl

theorem utf8ByteSize_substText (s : String) : (substText new old s).utf8ByteSize = s.utf8ByteSize := by
  rw [utf8ByteSize_eq_sum, utf8ByteSize_eq_sum, substText_toList,
    Replace.sum_replace old.chars_ne_nil _ (new.chars_utf8.trans old.chars_utf8.symm)]

theorem Uuid.encoded_length (u : Uuid) : u.encoded.length = 36 := by
  rw [Uuid.encoded, List.length_map, u.chars_length]

theorem Uuid.encoded_ne_nil (u : Uuid) : u.encoded ≠ [] := by
  intro nil
  have length := u.encoded_length
  rw [nil] at length
  cases length

theorem typedPayloadSize_subst (value : Typed) :
    typedPayloadSize (value.subst new old) = typedPayloadSize value := by
  have data : (Replace.replace old.encoded new.encoded value.data).length = value.data.length :=
    Replace.length_replace old.encoded_ne_nil (new.encoded_length.trans old.encoded_length.symm) _
  simp only [typedPayloadSize, Typed.subst, componentSize, utf8ByteSize_substText, data]

theorem componentSize_substKey (id : PyId) :
    componentSize (substKey new old id).component = componentSize id.component := by
  cases id with
  | text s => exact utf8ByteSize_substText s
  | uuid u => rfl

theorem checkpointEntrySize_subst (id : PyId) (entry : CheckpointEntry) :
    checkpointEntrySize (substKey new old id) (entry.subst new old) = checkpointEntrySize id entry := by
  have parent : componentSize (parentComponent (entry.parent.map (substKey new old))) =
      componentSize (parentComponent entry.parent) := by
    cases entry.parent with
    | none => rfl
    | some id => exact componentSize_substKey id
  simp only [checkpointEntrySize, CheckpointEntry.subst, componentSize_substKey, typedPayloadSize_subst,
    parent]

theorem pendingWriteSize_subst (innerKey : String × Int) (write : PendingWrite) :
    pendingWriteSize innerKey (write.subst new old) = pendingWriteSize innerKey write := by
  simp only [pendingWriteSize, PendingWrite.subst, componentSize, utf8ByteSize_substText,
    typedPayloadSize_subst]

end Sizes

section Run

variable {new old : Uuid}

theorem CleanMembers.value {items : List (PyId × Data)} (clean : CleanMembers new old items) :
    ∀ e ∈ items, e.2.Clean new old := by
  induction items with
  | nil => simp
  | cons e items ih =>
    obtain ⟨key, item⟩ := e
    cases key with
    | uuid u => simp [CleanMembers] at clean
    | text key =>
      simp only [CleanMembers] at clean
      exact List.forall_mem_cons.mpr ⟨clean.2.1, ih clean.2.2⟩

/-- The strings of the source thread let the copy be structural. -/
structure CleanSource (m : Memory) (new old : Uuid) : Prop where
  namespaces : (namespacesToData ((m.storage.get? old.str).getD .empty)).Clean new old
  writes : ∀ key group, m.writes.get? key = some group → key.thread = old.str →
    ∀ e ∈ group.entries, e.2.toData.Clean new old

theorem copyWriteGroup_clean {group : WriteGroup}
    (clean : ∀ e ∈ group.entries, e.2.toData.Clean new old) :
    copyWriteGroup old new group = some (substWriteGroup new old group) := by
  have each : ∀ e ∈ group.entries,
      ((replaceThreadId e.2.toData new old).bind PendingWrite.ofData?).map (e.1, ·) =
        some (e.1, e.2.subst new old) := by
    intro e member
    rw [replaceThreadId_of_clean (clean e member), Option.bind_some, PendingWrite.ofData?_substitute,
      Option.map_some]
  rw [copyWriteGroup, mapM_some each, Option.map_some, substWriteGroup]

def WriteKey.inThread (key : WriteKey) (thread : String) : WriteKey := { key with thread := thread }

def BlobKey.inThread (key : BlobKey) (thread : String) : BlobKey := { key with thread := thread }

def copiedWriteGroups (new old : Uuid) (items : List (WriteKey × WriteGroup)) : List (WriteKey × WriteGroup) :=
  items.map (fun e => (e.1.inThread new.str, substWriteGroup new old e.2))

def copiedBlobs (new : Uuid) (items : List (BlobKey × Typed)) : List (BlobKey × Typed) :=
  items.map (fun e => (e.1.inThread new.str, e.2))

theorem copyWriteGroups_clean (other : new ≠ old) {items : List (WriteKey × WriteGroup)} {m : Memory}
    (stored : ∀ e ∈ items, e.1.thread = old.str ∧ m.writes.get? e.1 = some e.2)
    (clean : ∀ e ∈ items, ∀ w ∈ e.2.entries, w.2.toData.Clean new old) :
    copyWriteGroups old new (items.map Prod.fst) m =
      .ok { m with writes := m.writes.setAll (copiedWriteGroups new old items) } := by
  induction items generalizing m with
  | nil => rfl
  | cons e items ih =>
    obtain ⟨⟨thread, found⟩, storedRest⟩ := List.forall_mem_cons.mp stored
    obtain ⟨cleanFirst, cleanRest⟩ := List.forall_mem_cons.mp clean
    have untouched : ∀ f ∈ items, f.1 ≠ e.1.inThread new.str := by
      intro f member same
      have sameThread := congrArg WriteKey.thread same
      rw [(storedRest f member).1] at sameThread
      exact other (Uuid.str_inj.mp sameThread.symm)
    simp only [List.map_cons, copyWriteGroups, found, Option.bind_some,
      copyWriteGroup_clean cleanFirst]
    rw [ih (fun f member => ⟨(storedRest f member).1, ?_⟩) cleanRest]
    · rfl
    · exact (Dict.get?_set_of_ne _ _ (untouched f member)).trans (storedRest f member).2

theorem copyBlobs_eq (blobs : Dict BlobKey Typed) :
    copyBlobs old new blobs =
      blobs.setAll (copiedBlobs new (blobs.entries.filter (fun e => decide (e.1.thread = old.str)))) := by
  rw [copyBlobs, copiedBlobs, Dict.setAll, List.foldl_map, List.foldl_filter]
  simp only [decide_eq_true_eq]
  rfl

/-- What the copy leaves behind when the strings of the source are clean. -/
theorem copyThread_clean {m : Memory} (clean : CleanSource m new old) (other : new ≠ old) :
    let namespaces := (m.storage.get? old.str).getD .empty
    m.copyThread old new = .ok
      { storage := (m.storage.set old.str namespaces).set new.str (substNamespaces new old namespaces)
        writes := m.writes.setAll
          (copiedWriteGroups new old (m.writes.entries.filter (fun e => decide (e.1.thread = old.str))))
        blobs := m.blobs.setAll
          (copiedBlobs new (m.blobs.entries.filter (fun e => decide (e.1.thread = old.str))))
        sizeState := m.sizeState.copyThread old.str new.str } := by
  intro namespaces
  have keys : m.writes.keys.filter (fun key => decide (key.thread = old.str)) =
      (m.writes.entries.filter (fun e => decide (e.1.thread = old.str))).map Prod.fst :=
    List.filter_map
  have items : ∀ e ∈ m.writes.entries.filter (fun e => decide (e.1.thread = old.str)),
      e.1.thread = old.str ∧ m.writes.get? e.1 = some e.2 := by
    intro e member
    obtain ⟨inside, mine⟩ := List.mem_filter.mp member
    exact ⟨of_decide_eq_true mine, Dict.mem_entries_iff.mp inside⟩
  have cleanItems : ∀ e ∈ m.writes.entries.filter (fun e => decide (e.1.thread = old.str)),
      ∀ w ∈ e.2.entries, w.2.toData.Clean new old :=
    fun e member => clean.writes e.1 e.2 (items e member).2 (items e member).1
  simp only [Memory.copyThread, replaceThreadId_of_clean clean.namespaces, Option.bind_some,
    namespacesOfData?_substitute, keys]
  let stored : Memory := { m with
    storage := (m.storage.set old.str namespaces).set new.str (substNamespaces new old namespaces) }
  have copied := copyWriteGroups_clean (m := stored) other items cleanItems
  refine (congrArg _ copied).trans ?_
  simp only [Except.map, copyBlobs_eq, stored]

end Run

section CleanSizes

variable {new old : Uuid}

theorem writeGroupSize_subst (id : PyId) (group : WriteGroup) :
    writeGroupSize id (substWriteGroup new old group) = writeGroupSize id group := by
  have distinct : ((group.entries.map (fun e => (e.1, e.2.subst new old))).map Prod.fst).Nodup := by
    rw [List.map_map]
    exact group.nodup
  rw [writeGroupSize, Dict.sum, substWriteGroup, Dict.ofPairs_entries distinct, List.map_map]
  simp only [Function.comp_def, pendingWriteSize_subst]
  rfl

end CleanSizes

end InmemRuntime
