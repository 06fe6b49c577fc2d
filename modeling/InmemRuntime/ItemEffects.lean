import InmemRuntime.ItemStore

namespace InmemRuntime

/-- `total_bytes` is the sum of the entries. -/
def SizeTracker.Totals (t : SizeTracker) : Prop := t.totalBytes = t.entries.sum (fun _ size => (size : Int))

namespace SizeTracker

theorem totals_cleared : cleared.Totals := rfl

variable {t : SizeTracker} (totals : t.Totals) (k : ItemKey)

include totals

theorem totals_setSize (size : Nat) : (t.setSize k size).Totals := by
  have sum := t.entries.sum_set_add k size (fun _ size => (size : Int))
  have total : t.totalBytes = t.entries.sum (fun _ size => (size : Int)) := totals
  show t.totalBytes + ((size : Int) - ((t.entries.get? k).getD 0 : Nat)) =
    (t.entries.set k size).sum (fun _ size => (size : Int))
  cases old : t.entries.get? k with
  | none =>
    simp only [old, Option.elim_none, Option.getD_none] at sum ⊢
    omega
  | some oldSize =>
    simp only [old, Option.elim_some, Option.getD_some] at sum ⊢
    omega

theorem totals_remove : (t.remove k).1.Totals := by
  have sum := t.entries.sum_erase_add k (fun _ size => (size : Int))
  have total : t.totalBytes = t.entries.sum (fun _ size => (size : Int)) := totals
  show t.totalBytes - ((t.entries.get? k).getD 0 : Nat) =
    (t.entries.erase k).sum (fun _ size => (size : Int))
  cases old : t.entries.get? k with
  | none =>
    simp only [old, Option.elim_none, Option.getD_none] at sum ⊢
    omega
  | some oldSize =>
    simp only [old, Option.elim_some, Option.getD_some] at sum ⊢
    omega

end SizeTracker

namespace DiskBackedInMemStore

section Tracking

variable (estimate : PickleSize) (s : DiskBackedInMemStore)

/-- The tracked size of an existing item, and none for any other key. -/
def exactSize (k : ItemKey) : Option Nat := (s.item? k).map (fun item => estimate k (some item) (s.vectors? k))

/-- Tracking changes the tracker and nothing else. -/
theorem trackItemSize_eq (k : ItemKey) :
    trackItemSize estimate s k = { s with sizeTracker := (trackItemSize estimate s k).sizeTracker } := by
  unfold trackItemSize
  split <;> rfl

theorem trackItemSize_entries (k j : ItemKey) :
    (trackItemSize estimate s k).sizeTracker.entries.get? j =
      if j = k then s.exactSize estimate k else s.sizeTracker.entries.get? j := by
  unfold trackItemSize exactSize estimateItemSize
  cases at_k : s.item? k with
  | none =>
    by_cases same : j = k
    · simp [SizeTracker.remove, same]
    · simp [SizeTracker.remove, same, Dict.get?_erase_of_ne]
  | some item =>
    by_cases same : j = k
    · simp [SizeTracker.setSize, same]
    · simp [SizeTracker.setSize, same, Dict.get?_set_of_ne]

theorem trackItemSize_totals (totals : s.sizeTracker.Totals) (k : ItemKey) :
    (trackItemSize estimate s k).sizeTracker.Totals := by
  unfold trackItemSize
  split
  · exact SizeTracker.totals_remove totals k
  · exact SizeTracker.totals_setSize totals k _

/-- Tracking the sizes of some keys. -/
theorem trackAll (ks : List ItemKey) :
    ∃ sizeTracker, ks.foldl (trackItemSize estimate) s = { s with sizeTracker := sizeTracker } ∧
      (∀ k, sizeTracker.entries.get? k =
        if k ∈ ks then s.exactSize estimate k else s.sizeTracker.entries.get? k) ∧
      (s.sizeTracker.Totals → sizeTracker.Totals) := by
  induction ks generalizing s with
  | nil => exact ⟨s.sizeTracker, rfl, by simp, id⟩
  | cons k ks ih =>
    obtain ⟨sizeTracker, after, entries, totals⟩ := ih (trackItemSize estimate s k)
    have first := trackItemSize_eq estimate s k
    refine ⟨sizeTracker, ?_, fun j => ?_, fun before => totals (trackItemSize_totals estimate s before k)⟩
    · rw [List.foldl_cons, after, first]
    · rw [entries, trackItemSize_entries]
      have exact : (trackItemSize estimate s k).exactSize estimate j = s.exactSize estimate j := by rw [first]; rfl
      rw [exact]
      by_cases later : j ∈ ks
      · simp [later]
      · by_cases same : j = k
        · subst same
          simp
        · simp [later, same]

end Tracking

/-- The records of some keys are renewed at `now`, and those of all others kept. -/
def Refreshed (now : Time) (ks : List ItemKey) (ttl ttl' : Dict ItemKey StoreTtlRecord) : Prop :=
  ∀ k, match ttl.get? k with
    | none => ttl'.get? k = none
    | some record => ∃ expiresAt, ttl'.get? k = some ⟨expiresAt, record.ttlMinutes⟩ ∧
        if k ∈ ks then expiry now record.ttlMinutes = .ok expiresAt else expiresAt = record.expiresAt

theorem Refreshed.refl (now : Time) (ttl : Dict ItemKey StoreTtlRecord) : Refreshed now [] ttl ttl := by
  intro k
  cases at_k : ttl.get? k with
  | none => simp
  | some record => exact ⟨record.expiresAt, rfl, by simp⟩

theorem Refreshed.owned {now : Time} {ks : List ItemKey} {ttl ttl' : Dict ItemKey StoreTtlRecord}
    (refreshed : Refreshed now ks ttl ttl') {k : ItemKey} {record' : StoreTtlRecord}
    (at_k : ttl'.get? k = some record') : ∃ record, ttl.get? k = some record := by
  have found := refreshed k
  cases old : ttl.get? k with
  | none =>
    simp only [old] at found
    rw [found] at at_k
    cases at_k
  | some record => exact ⟨record, rfl⟩

theorem refreshTtl_refreshed {now : Time} {ttl ttl' : Dict ItemKey StoreTtlRecord} {k : ItemKey}
    (refresh : refreshTtl now ttl k = .ok ttl') : Refreshed now [k] ttl ttl' := by
  unfold refreshTtl at refresh
  split at refresh
  · rename_i missing
    cases refresh
    intro j
    cases at_j : ttl.get? j with
    | none => simp
    | some record =>
      have other : j ≠ k := fun same => by rw [same, missing] at at_j; cases at_j
      exact ⟨record.expiresAt, rfl, by simp [other]⟩
  · rename_i record at_k
    obtain ⟨expiresAt, expires, refresh⟩ := bind_ok refresh
    cases refresh
    intro j
    by_cases same : j = k
    · subst same
      simp only [at_k]
      exact ⟨expiresAt, Dict.get?_set_self _ _ _, by simpa using expires⟩
    · rw [Dict.get?_set_of_ne _ _ same]
      cases at_j : ttl.get? j with
      | none => simp
      | some record => exact ⟨record.expiresAt, rfl, by simp [same]⟩

/-- Renewing again at the same time changes nothing more. -/
theorem Refreshed.append {now : Time} {ks js : List ItemKey} {ttl ttl' ttl'' : Dict ItemKey StoreTtlRecord}
    (first : Refreshed now ks ttl ttl') (second : Refreshed now js ttl' ttl'') :
    Refreshed now (ks ++ js) ttl ttl'' := by
  intro k
  have one := first k
  have two := second k
  cases at_k : ttl.get? k with
  | none =>
    simp only [at_k] at one
    simpa only [one] using two
  | some record =>
    simp only [at_k] at one
    obtain ⟨expiresAt, middle, renewed⟩ := one
    simp only [middle] at two
    obtain ⟨expiresAt', last, renewed'⟩ := two
    refine ⟨expiresAt', last, ?_⟩
    by_cases again : k ∈ js
    · simpa [again] using renewed'
    · simp only [again, if_false] at renewed'
      subst renewed'
      simpa [again] using renewed

theorem refreshAll_refreshed {now : Time} {s s' : DiskBackedInMemStore} {ks : List ItemKey}
    (refresh : refreshAll now s ks = (s', .ok ())) : s' = { s with ttl := s'.ttl } ∧ Refreshed now ks s.ttl s'.ttl := by
  induction ks generalizing s with
  | nil =>
    cases refresh
    exact ⟨rfl, .refl now _⟩
  | cons k ks ih =>
    unfold refreshAll at refresh
    split at refresh
    · cases refresh
    · rename_i ttl one
      obtain ⟨rest, refreshed⟩ := ih refresh
      exact ⟨rest, (refreshTtl_refreshed one).append refreshed⟩

/-- What a read changes: only the records of the keys that it refreshes. -/
structure Reads (now : Time) (ks : List ItemKey) (s s' : DiskBackedInMemStore) : Prop where
  items : ∀ k, s'.item? k = s.item? k
  vectors : ∀ k, s'.vectors? k = s.vectors? k
  sizes : s'.sizeTracker = s.sizeTracker
  refreshed : Refreshed now ks s.ttl s'.ttl
  locked : s'.operationLocked = s.operationLocked

variable {base : InMemoryStore} {estimate : PickleSize} {s s' : DiskBackedInMemStore} {now : Time}

theorem prepareOps_reads {ops : List StoreOp} {prepared : Prepared}
    (prepare : s.prepareOps base ops now = (s', .ok prepared)) :
    Reads now (refreshedByGets ops prepared.results) s s' ∧
      ∃ c, base.prepareOps s.toStoreContents ops = .ok (c, prepared) := by
  unfold prepareOps at prepare
  split at prepare
  · cases prepare
  · rename_i c prepared' computed
    cases refresh : refreshAll now { s with toStoreContents := c } (refreshedByGets ops prepared'.results) with
    | mk after outcome =>
      rw [refresh] at prepare
      cases outcome with
      | error e => cases prepare
      | ok done =>
        cases prepare
        obtain ⟨frame, refreshed⟩ := refreshAll_refreshed refresh
        obtain ⟨items, vectors, _⟩ := base.prepareOps_law computed
        have contents : s'.toStoreContents = c := by rw [frame]
        refine ⟨⟨fun k => ?_, fun k => ?_, by rw [frame], refreshed, by rw [frame]⟩, c, computed⟩
        · rw [contents, items]
        · rw [contents, vectors]

theorem batchSearch_reads {searches : SearchOps} {queries : Embeddings} {results results' : List ItemResult}
    (run : s.batchSearch base searches queries results now = (s', .ok results')) :
    Reads now (refreshedBySearches searches results') s s' ∧
      base.batchSearch searches queries results = .ok results' := by
  unfold batchSearch at run
  split at run
  · cases run
  · rename_i found computed
    cases refresh : refreshAll now s (refreshedBySearches searches found) with
    | mk after outcome =>
      rw [refresh] at run
      cases outcome with
      | error e => cases run
      | ok done =>
        cases run
        obtain ⟨frame, refreshed⟩ := refreshAll_refreshed refresh
        refine ⟨⟨fun k => ?_, fun k => ?_, by rw [frame], refreshed, by rw [frame]⟩, computed⟩
        · rw [frame]
        · rw [frame]

theorem search_reads {prepared : Prepared} {reply : StoreReply} {results : List ItemResult}
    (run : s.search base prepared reply = (s', .ok results)) :
    Reads reply.searchedAt (refreshedBySearches prepared.searchOps results) s s' ∧
      ∀ i, prepared.searchOps.get? i = none → results[i]? = prepared.results[i]? := by
  unfold search at run
  split at run
  · rename_i empty
    cases run
    have nothing : refreshedBySearches prepared.searchOps prepared.results = [] := by
      rw [refreshedBySearches, List.isEmpty_iff.mp empty]
      rfl
    rw [nothing]
    exact ⟨⟨fun _ => rfl, fun _ => rfl, rfl, .refl _ _, rfl⟩, fun _ _ => rfl⟩
  · split at run
    · cases run
    · obtain ⟨reads, computed⟩ := batchSearch_reads run
      exact ⟨reads, base.batchSearch_law computed⟩

/-- The record that a put leaves under its key. -/
def LeavesRecord (now : Time) (op : PutOp) : Option StoreTtlRecord → Prop
  | none => op.value = none ∨ op.ttl = none
  | some record =>
    op.value.isSome ∧ op.ttl = some record.ttlMinutes ∧ expiry now record.ttlMinutes = .ok record.expiresAt

theorem ttlUpdate_leaves {op : PutOp} {record : Option StoreTtlRecord} {now : Time}
    (computed : ttlUpdate now op = .ok record) : LeavesRecord now op record := by
  unfold ttlUpdate at computed
  split at computed
  · rename_i value ttlMinutes hasValue hasTtl
    obtain ⟨expiresAt, expires, computed⟩ := bind_ok computed
    cases computed
    exact ⟨by simp [hasValue], hasTtl, expires⟩
  · rename_i notBoth
    cases computed
    cases hasValue : op.value with
    | none => exact Or.inl hasValue
    | some value =>
      cases hasTtl : op.ttl with
      | none => exact Or.inr hasTtl
      | some ttlMinutes => exact absurd hasTtl (notBoth value ttlMinutes hasValue)

theorem ttlUpdates_ok {puts : List (ItemKey × PutOp)} {updates : List (ItemKey × Option StoreTtlRecord)}
    (computed : ttlUpdates now puts = .ok updates) :
    updates.map Prod.fst = puts.map Prod.fst ∧
      ∀ k op, (k, op) ∈ puts → ∃ record, (k, record) ∈ updates ∧ LeavesRecord now op record := by
  induction puts generalizing updates with
  | nil =>
    cases computed
    exact ⟨rfl, by simp⟩
  | cons put puts ih =>
    obtain ⟨j, op⟩ := put
    obtain ⟨record, first, computed⟩ := bind_ok computed
    obtain ⟨rest, later, computed⟩ := bind_ok computed
    cases computed
    obtain ⟨keys, records⟩ := ih later
    have leaves := ttlUpdate_leaves first
    refine ⟨by simp [keys], fun k op' member => ?_⟩
    rcases List.mem_cons.mp member with same | inside
    · cases same
      exact ⟨record, List.mem_cons_self, leaves⟩
    · obtain ⟨record', inUpdates, leaves'⟩ := records k op' inside
      exact ⟨record', List.mem_cons_of_mem _ inUpdates, leaves'⟩

theorem setRecord_get? (ttl : Dict ItemKey StoreTtlRecord) (update : ItemKey × Option StoreTtlRecord) (k : ItemKey) :
    (setRecord ttl update).get? k = if k = update.1 then update.2 else ttl.get? k := by
  obtain ⟨j, record⟩ := update
  cases record with
  | none =>
    by_cases same : k = j
    · simp [setRecord, same]
    · simp [setRecord, same, Dict.get?_erase_of_ne]
  | some record => simp only [setRecord, Dict.get?_set]

/-- The records after updates under distinct keys. -/
theorem setRecords_get? (ttl : Dict ItemKey StoreTtlRecord) {updates : List (ItemKey × Option StoreTtlRecord)}
    (distinct : (updates.map Prod.fst).Nodup) :
    (∀ k, k ∉ updates.map Prod.fst → (updates.foldl setRecord ttl).get? k = ttl.get? k) ∧
      ∀ k record, (k, record) ∈ updates → (updates.foldl setRecord ttl).get? k = record := by
  induction updates generalizing ttl with
  | nil => simp
  | cons update updates ih =>
    obtain ⟨fresh, distinct⟩ := List.nodup_cons.mp distinct
    obtain ⟨others, mine⟩ := ih (setRecord ttl update) distinct
    refine ⟨fun k absent => ?_, fun k record member => ?_⟩
    · simp only [List.map_cons, List.mem_cons, not_or] at absent
      rw [List.foldl_cons, others k absent.2, setRecord_get?, if_neg absent.1]
    · rw [List.foldl_cons]
      rcases List.mem_cons.mp member with same | later
      · subst same
        rw [others k fresh, setRecord_get?, if_pos rfl]
      · exact mine k record later

/-- What a batch of puts changes: what is under their keys. -/
structure Writes (estimate : PickleSize) (now : Time) (puts : Dict ItemKey PutOp) (s s' : DiskBackedInMemStore) :
    Prop where
  others : ∀ k, puts.get? k = none → s'.item? k = s.item? k ∧ s'.vectors? k = s.vectors? k ∧
    s'.ttl.get? k = s.ttl.get? k ∧ s'.sizeTracker.entries.get? k = s.sizeTracker.entries.get? k
  written : ∀ k op, puts.get? k = some op → (s'.item? k).isSome = op.value.isSome ∧
    (op.value = none → s'.vectors? k = none) ∧ LeavesRecord now op (s'.ttl.get? k) ∧
    s'.sizeTracker.entries.get? k = s'.exactSize estimate k
  totals : s.sizeTracker.Totals → s'.sizeTracker.Totals
  locked : s'.operationLocked = s.operationLocked

theorem dropEmptyBuckets_item? (s : DiskBackedInMemStore) (namespaces : List Namespace) (k : ItemKey) :
    (s.dropEmptyBuckets namespaces).item? k = s.item? k :=
  Buckets.find?_foldl_dropIfEmpty _ _ _ _

theorem dropEmptyBuckets_vectors? (s : DiskBackedInMemStore) (namespaces : List Namespace) (k : ItemKey) :
    (s.dropEmptyBuckets namespaces).vectors? k = s.vectors? k :=
  Buckets.find?_foldl_dropIfEmpty _ _ _ _

theorem applyPutOps_writes {puts : Dict ItemKey PutOp} {createdAt : Time}
    (run : s.applyPutOps base estimate puts now createdAt = (s', .ok ())) : Writes estimate now puts s s' := by
  unfold applyPutOps at run
  split at run
  · cases run
  · rename_i updates computed
    obtain ⟨sizeTracker, tracked, entries, totals⟩ := trackAll estimate
      { s with
        toStoreContents := base.applyPutOps s.toStoreContents puts createdAt
        ttl := updates.foldl setRecord s.ttl } puts.keys
    simp only [tracked] at run
    cases run
    obtain ⟨keys, records⟩ := ttlUpdates_ok computed
    obtain ⟨otherRecords, putRecords⟩ := setRecords_get? s.ttl (keys ▸ puts.nodup)
    have law := base.applyPutOps_law s.toStoreContents puts createdAt
    refine ⟨fun k absent => ?_, fun k op found => ?_, totals, rfl⟩
    · have notPut : k ∉ puts.keys := Dict.get?_eq_none_iff.mp absent
      obtain ⟨item, vectors⟩ := (law k).1 absent
      rw [dropEmptyBuckets_item?, dropEmptyBuckets_vectors?]
      refine ⟨item, vectors, otherRecords k (keys ▸ notPut), ?_⟩
      show sizeTracker.entries.get? k = _
      rw [entries, if_neg notPut]
    · have put : k ∈ puts.keys := Dict.mem_keys_iff.mpr ⟨op, found⟩
      obtain ⟨record, update, leaves⟩ := records k op (Dict.mem_entries_iff.mpr found)
      have atKey := putRecords k record update
      unfold exactSize
      rw [dropEmptyBuckets_item?, dropEmptyBuckets_vectors?]
      refine ⟨?_, fun deleted => ((law k).2.1 op found deleted).2, ?_, ?_⟩
      · show ((base.applyPutOps s.toStoreContents puts createdAt).item? k).isSome = _
        cases value : op.value with
        | none => rw [((law k).2.1 op found value).1]; rfl
        | some stored =>
          obtain ⟨item, at_k, _⟩ := (law k).2.2 op stored found value
          rw [at_k]
          rfl
      · show LeavesRecord now op ((updates.foldl setRecord s.ttl).get? k)
        rw [atKey]
        exact leaves
      · show sizeTracker.entries.get? k = _
        rw [entries, if_pos put]
        rfl

theorem write_writes {puts : Dict ItemKey PutOp} {reply : StoreReply}
    (run : s.write base estimate puts reply = (s', .ok ())) : Writes estimate reply.writtenAt puts s s' := by
  unfold write at run
  split at run
  · exact applyPutOps_writes run
  · split at run
    · cases run
    · split at run
      · cases run
      · rename_i c inserted
        obtain ⟨items, vectors⟩ := base.insertVectors_law inserted
        have applied := applyPutOps_writes run
        refine ⟨fun k absent => ?_, applied.written, applied.totals, applied.locked⟩
        obtain ⟨item, vector, rest⟩ := applied.others k absent
        refine ⟨item.trans (items k), vector.trans (vectors k (fun op found => ?_)), rest⟩
        rw [absent] at found
        cases found

/-- A batch that returns reads, searches and writes, one after the other. -/
theorem batch_steps {ops : List StoreOp} {reply : StoreReply} {results : List ItemResult}
    (run : s.batch base estimate ops reply = (s', .ok results)) :
    ∃ s₁ s₂ prepared, s.prepareOps base ops reply.readAt = (s₁, .ok prepared) ∧
      s₁.search base prepared reply = (s₂, .ok results) ∧
      s₂.write base estimate prepared.putOps reply = (s', .ok ()) := by
  unfold batch at run
  split at run
  · cases run
  · rename_i s₁ prepared prepare
    split at run
    · cases run
    · rename_i s₂ found searched
      split at run
      · cases run
      · rename_i s₃ written
        cases run
        exact ⟨s₁, s₂, prepared, prepare, searched, written⟩

/-- What a sweep changes: all that is under the expired keys. -/
structure Sweeps (ks : List ItemKey) (s s' : DiskBackedInMemStore) : Prop where
  removed : ∀ k ∈ ks, s'.item? k = none ∧ s'.vectors? k = none ∧ s'.ttl.get? k = none ∧
    s'.sizeTracker.entries.get? k = none
  kept : ∀ k, k ∉ ks → s'.item? k = s.item? k ∧ s'.vectors? k = s.vectors? k ∧ s'.ttl.get? k = s.ttl.get? k ∧
    s'.sizeTracker.entries.get? k = s.sizeTracker.entries.get? k
  totals : s.sizeTracker.Totals → s'.sizeTracker.Totals
  locked : s'.operationLocked = s.operationLocked

theorem sweepItem_sweeps (out : DiskBackedInMemStore × Nat × Nat) (k : ItemKey) :
    Sweeps [k] out.1 (sweepItem out k).1 := by
  obtain ⟨s, deleted, deletedSize⟩ := out
  have after : (sweepItem (s, deleted, deletedSize) k).1 = { s with
      data := s.data.discard k.1 k.2
      vectors := s.vectors.discard k.1 k.2
      ttl := s.ttl.erase k
      sizeTracker := (s.sizeTracker.remove k).1 } := by
    unfold sweepItem
    dsimp only
    split <;> rfl
  rw [after]
  refine ⟨fun j here => ?_, fun j apart => ?_, fun totals => SizeTracker.totals_remove totals k, rfl⟩
  · obtain rfl := List.mem_singleton.mp here
    simp [StoreContents.item?, StoreContents.vectors?, Buckets.find?_discard, SizeTracker.remove]
  · have other : j ≠ k := by simpa using apart
    have components : ¬ (j.1 = k.1 ∧ j.2 = k.2) := fun same => other (Prod.ext same.1 same.2)
    simp [StoreContents.item?, StoreContents.vectors?, Buckets.find?_discard, SizeTracker.remove, components,
      Dict.get?_erase_of_ne _ other]

theorem Sweeps.append {s s' s'' : DiskBackedInMemStore} {ks js : List ItemKey} (first : Sweeps ks s s')
    (second : Sweeps js s' s'') : Sweeps (ks ++ js) s s'' := by
  refine ⟨fun k member => ?_, fun k apart => ?_, fun totals => second.totals (first.totals totals),
    second.locked.trans first.locked⟩
  · by_cases later : k ∈ js
    · exact second.removed k later
    · obtain ⟨item, vectors, record, size⟩ := second.kept k later
      rw [item, vectors, record, size]
      exact first.removed k ((List.mem_append.mp member).resolve_right later)
  · rw [List.mem_append, not_or] at apart
    obtain ⟨item, vectors, record, size⟩ := second.kept k apart.2
    rw [item, vectors, record, size]
    exact first.kept k apart.1

theorem sweepItems (ks : List ItemKey) (out : DiskBackedInMemStore × Nat × Nat) (distinct : ks.Nodup) :
    Sweeps ks out.1 (ks.foldl sweepItem out).1 ∧
      (ks.foldl sweepItem out).2.1 = out.2.1 + (ks.filter (fun k => (out.1.item? k).isSome)).length := by
  induction ks generalizing out with
  | nil => exact ⟨⟨by simp, by simp, id, rfl⟩, rfl⟩
  | cons k ks ih =>
    obtain ⟨fresh, distinct⟩ := List.nodup_cons.mp distinct
    obtain ⟨sweeps, count⟩ := ih (sweepItem out k) distinct
    have first := sweepItem_sweeps out k
    refine ⟨first.append sweeps, ?_⟩
    have same : ks.filter (fun j => ((sweepItem out k).1.item? j).isSome) =
        ks.filter (fun j => (out.1.item? j).isSome) := by
      refine List.filter_congr (fun j member => ?_)
      have other : j ∉ [k] := fun here => fresh (List.mem_singleton.mp here ▸ member)
      rw [(first.kept j other).1]
    have counted : (sweepItem out k).2.1 = out.2.1 + if (out.1.item? k).isSome then 1 else 0 := by
      unfold sweepItem
      dsimp only
      split <;> rfl
    rw [List.foldl_cons, count, same, counted, List.filter_cons]
    split
    · simp
      omega
    · simp

theorem mem_expired {k : ItemKey} :
    k ∈ s.expired now ↔ ∃ record, s.ttl.get? k = some record ∧ record.expiresAt ≤ now := by
  unfold expired
  rw [Dict.mem_keys_iff]
  simp only [Dict.get?_filter, Option.filter_eq_some_iff, decide_eq_true_eq]

theorem sweepTtl_sweeps (s : DiskBackedInMemStore) (now : Time) :
    Sweeps (s.expired now) s (s.sweepTtl now).1 ∧
      (s.sweepTtl now).2 = ((s.expired now).filter (fun k => (s.item? k).isSome)).length := by
  obtain ⟨sweeps, count⟩ := sweepItems (s.expired now) (s, 0, 0) (Dict.nodup _)
  refine ⟨⟨fun k member => ?_, fun k apart => ?_, sweeps.totals, sweeps.locked⟩, ?_⟩
  · obtain ⟨item, vectors, rest⟩ := sweeps.removed k member
    exact ⟨(dropEmptyBuckets_item? _ _ _).trans item, (dropEmptyBuckets_vectors? _ _ _).trans vectors, rest⟩
  · obtain ⟨item, vectors, rest⟩ := sweeps.kept k apart
    exact ⟨(dropEmptyBuckets_item? _ _ _).trans item, (dropEmptyBuckets_vectors? _ _ _).trans vectors, rest⟩
  · rw [Nat.zero_add] at count
    exact count

end DiskBackedInMemStore

end InmemRuntime
