import InmemRuntime.ItemStore

namespace InmemRuntime

namespace InMemoryStore

/-- An embedded text of a put. -/
def fieldText (field : String) (op : PutOp) : Option String :=
  match op.value, op.index with
  | some value, .configured =>
    match value.get? field with
    | some (.str text) => some text
    | _ => none
  | _, _ => none

def storeVector (field : String) (texts : Embeddings) (c : StoreContents) (put : ItemKey × PutOp) : StoreContents :=
  match (fieldText field put.2).bind (fun text => texts.lookup text) with
  | none => c
  | some vector =>
    { c with vectors := c.vectors.put put.1.1 put.1.2 (((c.vectors? put.1).getD .empty).set field vector) }

def storeItem (now : Time) (c : StoreContents) (put : ItemKey × PutOp) : StoreContents :=
  match put.2.value with
  | none => ⟨c.data.discard put.1.1 put.1.2, c.vectors.discard put.1.1 put.1.2⟩
  | some value => { c with data := c.data.put put.1.1 put.1.2 ⟨value, put.1.2, put.1.1, now, now⟩ }

section Contents

variable (c : StoreContents) (put : ItemKey × PutOp) (k : ItemKey)

theorem storeVector_item? (field : String) (texts : Embeddings) :
    (storeVector field texts c put).item? k = c.item? k := by
  unfold storeVector
  split <;> rfl

theorem storeVector_vectors? (field : String) (texts : Embeddings) (other : k ≠ put.1 ∨ put.2.value = none) :
    (storeVector field texts c put).vectors? k = c.vectors? k := by
  unfold storeVector
  split
  · rfl
  · rename_i vector embedded
    have apart : ¬ (k.1 = put.1.1 ∧ k.2 = put.1.2) := by
      rcases other with apart | deleted
      · exact fun same => apart (Prod.ext same.1 same.2)
      · simp [fieldText, deleted] at embedded
    simp [StoreContents.vectors?, Buckets.find?_put, apart]

theorem storeItem_other (now : Time) (other : k ≠ put.1) :
    (storeItem now c put).item? k = c.item? k ∧ (storeItem now c put).vectors? k = c.vectors? k := by
  have apart : ¬ (k.1 = put.1.1 ∧ k.2 = put.1.2) := fun same => other (Prod.ext same.1 same.2)
  unfold storeItem
  split
  · simp [StoreContents.item?, StoreContents.vectors?, Buckets.find?_discard, apart]
  · simp [StoreContents.item?, StoreContents.vectors?, Buckets.find?_put, apart]

theorem storeItem_deleted (now : Time) (deleted : put.2.value = none) :
    (storeItem now c put).item? put.1 = none ∧ (storeItem now c put).vectors? put.1 = none := by
  simp [storeItem, deleted, StoreContents.item?, StoreContents.vectors?, Buckets.find?_discard]

theorem storeItem_stored (now : Time) {value : PyDict} (stored : put.2.value = some value) :
    (storeItem now c put).item? put.1 = some ⟨value, put.1.2, put.1.1, now, now⟩ := by
  simp [storeItem, stored, StoreContents.item?, Buckets.find?_put]

end Contents

theorem storeVectors_law (field : String) (texts : Embeddings) (puts : List (ItemKey × PutOp)) (c : StoreContents)
    (k : ItemKey) :
    (puts.foldl (storeVector field texts) c).item? k = c.item? k ∧
      ((∀ op, (k, op) ∈ puts → op.value = none) →
        (puts.foldl (storeVector field texts) c).vectors? k = c.vectors? k) := by
  induction puts generalizing c with
  | nil => exact ⟨rfl, fun _ => rfl⟩
  | cons put puts ih =>
    obtain ⟨item, vectors⟩ := ih (storeVector field texts c put)
    refine ⟨item.trans (storeVector_item? c put k field texts), fun deleted => ?_⟩
    rw [List.foldl_cons, vectors (fun op member => deleted op (List.mem_cons_of_mem _ member))]
    refine storeVector_vectors? c put k field texts ?_
    by_cases same : k = put.1
    · exact Or.inr (deleted put.2 (by rw [same]; exact List.mem_cons_self))
    · exact Or.inl same

theorem storeItems_other (now : Time) {puts : List (ItemKey × PutOp)} (c : StoreContents) {k : ItemKey}
    (other : k ∉ puts.map Prod.fst) :
    (puts.foldl (storeItem now) c).item? k = c.item? k ∧ (puts.foldl (storeItem now) c).vectors? k = c.vectors? k := by
  induction puts generalizing c with
  | nil => exact ⟨rfl, rfl⟩
  | cons put puts ih =>
    simp only [List.map_cons, List.mem_cons, not_or] at other
    obtain ⟨item, vectors⟩ := ih (storeItem now c put) other.2
    obtain ⟨item', vectors'⟩ := storeItem_other c put k now other.1
    exact ⟨item.trans item', vectors.trans vectors'⟩

/-- Of the puts, only the one of a key decides what is under it. -/
theorem storeItems_of_mem (now : Time) {puts : List (ItemKey × PutOp)} (distinct : (puts.map Prod.fst).Nodup)
    (c : StoreContents) {k : ItemKey} {op : PutOp} (member : (k, op) ∈ puts) :
    ∃ before, (puts.foldl (storeItem now) c).item? k = (storeItem now before (k, op)).item? k ∧
        (puts.foldl (storeItem now) c).vectors? k = (storeItem now before (k, op)).vectors? k := by
  induction puts generalizing c with
  | nil => cases member
  | cons put puts ih =>
    obtain ⟨fresh, distinct⟩ := List.nodup_cons.mp distinct
    rcases List.mem_cons.mp member with same | later
    · subst same
      obtain ⟨item, vectors⟩ := storeItems_other now (storeItem now c (k, op)) fresh
      exact ⟨c, item, vectors⟩
    · exact ih distinct (storeItem now c put) later

/-- What a search finds before its ranking. -/
def candidatesOf (passes : SearchOp → Item → Bool) (c : StoreContents) (op : SearchOp) : Candidates :=
  c.data.entries.flatMap (fun bucket => (bucket.2.entries.filter (fun e => passes op e.2)).map (fun e =>
    (e.2, ((c.vectors? (bucket.1, e.1)).getD .empty).entries.map Prod.snd)))

def searchAt? (passes : SearchOp → Item → Bool) (c : StoreContents) (e : StoreOp × Nat) :
    Option (Nat × SearchOp × Candidates) :=
  match e.1 with
  | .search op => some (e.2, op, candidatesOf passes c op)
  | _ => none

theorem searchAt?_eq_some {passes : SearchOp → Item → Bool} {c : StoreContents} {e : StoreOp × Nat} {i : Nat}
    {op : SearchOp} {candidates : Candidates} :
    searchAt? passes c e = some (i, op, candidates) ↔
      e = (.search op, i) ∧ candidates = candidatesOf passes c op := by
  obtain ⟨called, place⟩ := e
  unfold searchAt?
  split
  · rename_i op' at_op
    simp only at at_op
    subst at_op
    constructor
    · intro found
      cases found
      exact ⟨rfl, rfl⟩
    · rintro ⟨same, rfl⟩
      cases same
      rfl
  · rename_i not_search
    constructor
    · intro found
      cases found
    · rintro ⟨same, _⟩
      cases same
      exact absurd rfl (not_search op)

theorem searchAt?_places (passes : SearchOp → Item → Bool) (c : StoreContents) (ops : List (StoreOp × Nat)) :
    ((ops.filterMap (searchAt? passes c)).map Prod.fst).Sublist (ops.map Prod.snd) := by
  induction ops with
  | nil => exact .slnil
  | cons e ops ih =>
    cases found : searchAt? passes c e with
    | none =>
      rw [List.filterMap_cons_none found]
      exact ih.cons _
    | some search =>
      obtain ⟨i, op, candidates⟩ := search
      rw [List.filterMap_cons_some found, (searchAt?_eq_some.mp found).1]
      exact ih.cons_cons _

/-- The searches of a batch at their places. -/
def searchesOf (passes : SearchOp → Item → Bool) (c : StoreContents) (ops : List StoreOp) : SearchOps where
  entries := ops.zipIdx.filterMap (searchAt? passes c)
  nodup := (searchAt?_places passes c ops.zipIdx).nodup (by
    rw [List.zipIdx_map_snd]
    exact List.nodup_range')

theorem searchesOf_get? (passes : SearchOp → Item → Bool) (c : StoreContents) (ops : List StoreOp) (i : Nat)
    (op : SearchOp) :
    ops[i]? = some (.search op) ↔ ∃ candidates, (searchesOf passes c ops).get? i = some (op, candidates) := by
  simp only [← Dict.mem_entries_iff, searchesOf, List.mem_filterMap, searchAt?_eq_some]
  constructor
  · intro at_i
    exact ⟨_, _, List.mem_zipIdx_iff_getElem?.mpr at_i, rfl, rfl⟩
  · rintro ⟨candidates, e, member, rfl, _⟩
    exact List.mem_zipIdx_iff_getElem?.mp member

/-- What a get returns. A search has no result yet, and the listing of
namespaces is left empty. -/
def resultOf (c : StoreContents) : StoreOp → ItemResult
  | .get op => ((c.item? (op.ns, op.key)).map .item).getD .none
  | .listNamespaces _ => .namespaces []
  | _ => .none

/-- An `InMemoryStore` over lists that embeds the text under one field of each
value; how it filters and ranks is left open. -/
def ofField (field : String) (passes : SearchOp → Item → Bool)
    (rank : SearchOp → Candidates → Embeddings → List SearchItem) : InMemoryStore where
  prepareOps c ops := .ok (c, ⟨ops.map (resultOf c),
    .ofPairs ((ops.filterMap StoreOp.put?).map (fun op => (op.itemKey, op))), searchesOf passes c ops⟩)
  batchSearch searches queries results :=
    .ok (results.mapIdx (fun i result =>
      match searches.get? i with
      | none => result
      | some (op, candidates) => .items (rank op candidates queries)))
  extractTexts puts := puts.entries.filterMap (fun put => fieldText field put.2)
  insertVectors c puts texts := .ok (puts.entries.foldl (storeVector field texts) c)
  applyPutOps c puts now := puts.entries.foldl (storeItem now) c
  prepareOps_law {c c' ops p} prepare := by
    cases prepare
    refine ⟨fun _ => rfl, fun _ => rfl, fun k => ?_, searchesOf_get? passes c ops⟩
    rw [Dict.get?_ofPairs, ← List.map_reverse, List.find?_map]
    simp [Function.comp_def]
  batchSearch_law {searches queries results results'} searched i noSearch := by
    cases searched
    rw [List.getElem?_mapIdx, noSearch]
    simp
  insertVectors_law {c c' puts texts} inserted := by
    cases inserted
    refine ⟨fun k => (storeVectors_law field texts puts.entries c k).1, fun k deleted => ?_⟩
    refine (storeVectors_law field texts puts.entries c k).2 (fun op member => ?_)
    exact deleted op (Dict.mem_entries_iff.mp member)
  applyPutOps_law c puts now k := by
    refine ⟨fun absent => ?_, fun op found deleted => ?_, fun op value found stored => ?_⟩
    · exact storeItems_other now c (Dict.get?_eq_none_iff.mp absent)
    · obtain ⟨before, item, vectors⟩ := storeItems_of_mem now puts.nodup c (Dict.mem_entries_iff.mpr found)
      obtain ⟨item', vectors'⟩ := storeItem_deleted before (k, op) now deleted
      exact ⟨item.trans item', vectors.trans vectors'⟩
    · obtain ⟨before, item, _⟩ := storeItems_of_mem now puts.nodup c (Dict.mem_entries_iff.mpr found)
      exact ⟨_, item.trans (storeItem_stored before (k, op) now stored), rfl, rfl⟩

end InMemoryStore

end InmemRuntime
