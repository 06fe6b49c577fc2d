import InmemRuntime.FailedCalls
import InmemRuntime.ItemTracking

namespace InmemRuntime

/-- `_vectors[namespace][key][path] = embedding`, for a path and its text. -/
def storePath (texts : Embeddings) (vectors : Option ItemVectors) (embedded : String × String) : Option ItemVectors :=
  match texts.lookup embedded.2 with
  | none => vectors
  | some vector => some ((vectors.getD .empty).set embedded.1 vector)

/-- `paths` are the paths of a put that `InMemoryStore` embeds, with their
texts. It asks for the embeddings of the texts, if there are any, and stores
them under the keys of the puts. -/
structure InMemoryStore.Embeds (base : InMemoryStore) (paths : PutOp → List (String × String)) : Prop where
  texts : ∀ {puts}, base.extractTexts puts = [] → ∀ k op, puts.get? k = some op → paths op = []
  vectors : ∀ {c c' puts texts}, base.insertVectors c puts texts = .ok c' → ∀ k op, puts.get? k = some op →
    c'.vectors? k = (paths op).foldl (storePath texts) (c.vectors? k)

/-- The put of a batch that decides a key. -/
def lastPut (puts : List PutOp) (k : ItemKey) : Option PutOp := puts.reverse.find? (fun op => op.itemKey = k)

namespace DiskBackedInMemStore

/-- The items, the vectors, the records and the sizes are those of before. -/
structure Unchanged (s s' : DiskBackedInMemStore) : Prop where
  items : ∀ k, s'.item? k = s.item? k
  vectors : ∀ k, s'.vectors? k = s.vectors? k
  ttl : s'.ttl = s.ttl
  sizes : s'.sizeTracker = s.sizeTracker

/-- Some TTL of the batch cannot be turned into an expiry. -/
def Unexpirable (now : Time) (puts : List PutOp) : Prop :=
  ∃ k op, lastPut puts k = some op ∧ ∃ e, ttlUpdate now op = .error e

/-- If the base class comes to store the vectors of the batch, each put sets
those that its key has. -/
def KeepsVectors (base : InMemoryStore) (paths : PutOp → List (String × String)) (c : StoreContents)
    (puts : List PutOp) (answer : Except PyError Embeddings) : Prop :=
  ∀ c₁ c₂ prepared texts, base.prepareOps c (puts.map .put) = .ok (c₁, prepared) → answer = .ok texts →
    base.insertVectors c₁ prepared.putOps texts = .ok c₂ →
    ∀ k op, lastPut puts k = some op → (paths op).foldl (storePath texts) (c.vectors? k) = c.vectors? k

section Puts

variable {base : InMemoryStore} {paths : PutOp → List (String × String)} {estimate : PickleSize}
  {s s' : DiskBackedInMemStore} {puts : List PutOp} {reply : StoreReply}

theorem filterMap_puts (puts : List PutOp) : (puts.map StoreOp.put).filterMap StoreOp.put? = puts := by
  induction puts with
  | nil => rfl
  | cons op puts ih => rw [List.map_cons, List.filterMap_cons_some (f := StoreOp.put?) rfl, ih]

/-- A batch of puts has nothing to refresh and nothing to search. -/
theorem refreshedByGets_puts (puts : List PutOp) (results : List ItemResult) :
    refreshedByGets (puts.map .put) results = [] := by
  refine List.filterMap_eq_nil_iff.mpr ?_
  rintro ⟨op, result⟩ member
  obtain ⟨op', _, rfl⟩ := List.mem_map.mp (List.of_mem_zip member).1
  rfl

theorem prepared_puts {c c' : StoreContents} {prepared : Prepared}
    (prepare : base.prepareOps c (puts.map .put) = .ok (c', prepared)) :
    (∀ k, c'.item? k = c.item? k) ∧ (∀ k, c'.vectors? k = c.vectors? k) ∧
      (∀ k, prepared.putOps.get? k = lastPut puts k) ∧ prepared.searchOps.entries.isEmpty = true := by
  obtain ⟨items, vectors, last, searches⟩ := base.prepareOps_law prepare
  refine ⟨items, vectors, fun k => ?_, ?_⟩
  · rw [last, filterMap_puts, lastPut]
  · rw [List.isEmpty_iff, List.eq_nil_iff_forall_not_mem]
    rintro ⟨i, op, candidates⟩ member
    have at_i := (searches i op).mpr ⟨candidates, Dict.mem_entries_iff.mp member⟩
    rw [List.getElem?_map] at at_i
    obtain ⟨_, _, same⟩ := Option.map_eq_some_iff.mp at_i
    cases same

theorem ttlUpdates_error_iff {now : Time} {entries : List (ItemKey × PutOp)} :
    (∃ e, ttlUpdates now entries = .error e) ↔ ∃ put ∈ entries, ∃ e, ttlUpdate now put.2 = .error e := by
  induction entries with
  | nil => simp [ttlUpdates]
  | cons put entries ih =>
    obtain ⟨k, op⟩ := put
    have never (records : List (ItemKey × Option StoreTtlRecord)) :
        ¬ ∃ e, (.ok records : Except PyError (List (ItemKey × Option StoreTtlRecord))) = .error e :=
      fun ⟨_, raises⟩ => by cases raises
    simp only [ttlUpdates, bind_error_iff, ih, never, and_false, exists_false, or_false, List.exists_mem_cons_iff]
    constructor
    · rintro (first | ⟨_, _, later⟩)
      · exact Or.inl first
      · exact Or.inr later
    · rintro (first | later)
      · exact Or.inl first
      · cases update : ttlUpdate now op with
        | error e => exact Or.inl ⟨e, rfl⟩
        | ok record => exact Or.inr ⟨record, rfl, later⟩

theorem unexpirable_iff {now : Time} {putOps : Dict ItemKey PutOp} (last : ∀ k, putOps.get? k = lastPut puts k) :
    (∃ e, ttlUpdates now putOps.entries = .error e) ↔ Unexpirable now puts := by
  rw [ttlUpdates_error_iff]
  constructor
  · rintro ⟨⟨k, op⟩, member, raises⟩
    exact ⟨k, op, (last k).symm.trans (Dict.mem_entries_iff.mp member), raises⟩
  · rintro ⟨k, op, found, raises⟩
    exact ⟨(k, op), Dict.mem_entries_iff.mpr ((last k).trans found), raises⟩

variable (s estimate reply) in
theorem batch_puts {c : StoreContents} {prepared : Prepared}
    (prepare : base.prepareOps s.toStoreContents (puts.map .put) = .ok (c, prepared)) :
    (s.batch base estimate (puts.map .put) reply).1 =
        ({ s with toStoreContents := c }.write base estimate prepared.putOps reply).1 ∧
      ∀ e, (s.batch base estimate (puts.map .put) reply).2 = .error e ↔
        ({ s with toStoreContents := c }.write base estimate prepared.putOps reply).2 = .error e := by
  obtain ⟨_, _, _, noSearch⟩ := prepared_puts prepare
  simp only [batch, prepareOps, prepare, refreshedByGets_puts, refreshAll, Except.map, search, noSearch, if_true]
  generalize { s with toStoreContents := c }.write base estimate prepared.putOps reply = written
  obtain ⟨after, outcome⟩ := written
  cases outcome <;> simp

variable (base estimate s) in
/-- Up to the place where the expiries are computed, only the vectors have changed. -/
theorem write_unexpirable {putOps : Dict ItemKey PutOp} (last : ∀ k, putOps.get? k = lastPut puts k)
    (unexpirable : Unexpirable reply.writtenAt puts) :
    (∃ e, (s.write base estimate putOps reply).2 = .error e) ∧
      ((s.write base estimate putOps reply).1 = s ∧
          (base.extractTexts putOps = [] ∨ ∀ texts, reply.texts = .ok texts →
            ∀ c, base.insertVectors s.toStoreContents putOps texts ≠ .ok c) ∨
        ∃ texts c, base.extractTexts putOps ≠ [] ∧ reply.texts = .ok texts ∧
          base.insertVectors s.toStoreContents putOps texts = .ok c ∧
          (s.write base estimate putOps reply).1 = { s with toStoreContents := c }) := by
  obtain ⟨e, raises⟩ := (unexpirable_iff last).mpr unexpirable
  unfold write
  by_cases noTexts : base.extractTexts putOps = []
  · rw [if_pos (List.isEmpty_iff.mpr noTexts), applyPutOps, raises]
    exact ⟨⟨e, rfl⟩, Or.inl ⟨rfl, Or.inl noTexts⟩⟩
  · rw [if_neg (fun empty => noTexts (List.isEmpty_iff.mp empty))]
    cases answer : reply.texts with
    | error e => exact ⟨⟨e, rfl⟩, Or.inl ⟨rfl, Or.inr (fun texts same => by cases same)⟩⟩
    | ok texts =>
      dsimp only
      cases inserted : base.insertVectors s.toStoreContents putOps texts with
      | error e =>
        refine ⟨⟨e, rfl⟩, Or.inl ⟨rfl, Or.inr (fun texts' same c => ?_)⟩⟩
        cases same
        simp [inserted]
      | ok c =>
        simp only [applyPutOps, raises]
        exact ⟨⟨e, rfl⟩, Or.inr ⟨texts, c, noTexts, rfl, inserted, rfl⟩⟩

variable (estimate s) in
theorem batch_unchanged_iff (embeds : base.Embeds paths) (unexpirable : Unexpirable reply.writtenAt puts) :
    ((∃ e, (s.batch base estimate (puts.map .put) reply).2 = .error e) ∧
      (s.Unchanged (s.batch base estimate (puts.map .put) reply).1 ↔
        KeepsVectors base paths s.toStoreContents puts reply.texts)) := by
  cases prepare : base.prepareOps s.toStoreContents (puts.map .put) with
  | error e =>
    have failed : s.batch base estimate (puts.map .put) reply = (s, .error e) := by
      simp only [batch, prepareOps, prepare]
    rw [failed]
    refine ⟨⟨e, rfl⟩, fun _ c₁ c₂ prepared texts prepares => ?_, fun _ => ⟨fun _ => rfl, fun _ => rfl, rfl, rfl⟩⟩
    rw [prepare] at prepares
    cases prepares
  | ok result =>
    obtain ⟨c, prepared⟩ := result
    obtain ⟨items, vectors, last, _⟩ := prepared_puts prepare
    obtain ⟨state, outcome⟩ := batch_puts estimate s reply prepare
    obtain ⟨⟨e, raises⟩, left⟩ := write_unexpirable base estimate { s with toStoreContents := c } last unexpirable
    refine ⟨⟨e, (outcome e).mpr raises⟩, ?_⟩
    rw [state]
    rcases left with ⟨same, unstored⟩ | ⟨texts, c', some', answer, inserted, after⟩
    · rw [same]
      refine ⟨fun _ c₁ c₂ prepared' texts prepares answer inserted k op put => ?_, fun _ => ⟨items, vectors, rfl, rfl⟩⟩
      rw [prepare] at prepares
      cases prepares
      rcases unstored with noTexts | never
      · rw [embeds.texts noTexts k op ((last k).trans put), List.foldl_nil]
      · exact absurd inserted (never texts answer c₂)
    · rw [after]
      constructor
      · intro unchanged c₁ c₂ prepared' texts' prepares answer' inserted' k op put
        rw [prepare] at prepares
        cases prepares
        rw [answer] at answer'
        cases answer'
        rw [inserted] at inserted'
        cases inserted'
        rw [← vectors, ← embeds.vectors inserted k op ((last k).trans put), vectors]
        exact unchanged.vectors k
      · intro keeps
        obtain ⟨itemsKept, vectorsKept⟩ := base.insertVectors_law inserted
        refine ⟨fun k => (itemsKept k).trans (items k), fun k => ?_, rfl, rfl⟩
        show c'.vectors? k = s.vectors? k
        cases put : prepared.putOps.get? k with
        | none =>
          rw [vectorsKept k (fun op found => by rw [put] at found; cases found)]
          exact vectors k
        | some op =>
          rw [embeds.vectors inserted k op put]
          simp only [vectors]
          exact keeps c c' prepared texts prepare answer inserted k op ((last k).symm.trans put)

end Puts

section Abatch

variable {base : InMemoryStore} {estimate : PickleSize} {s s' : DiskBackedInMemStore} {ops : List StoreOp}
  {reply : StoreReply} {outcome : Except PyError ItemOutcome}

theorem finishWrite_eq (s : DiskBackedInMemStore) (results : List ItemResult) (puts : Dict ItemKey PutOp) :
    finishWrite base estimate s results puts reply =
      release (s.write base estimate puts reply).1
        ((s.write base estimate puts reply).2.map (fun _ => .results results)) := by
  unfold finishWrite
  generalize s.write base estimate puts reply = written
  obtain ⟨after, outcome⟩ := written
  cases outcome <;> rfl

theorem afterSearch_ends_iff {results : List ItemResult} {puts : Dict ItemKey PutOp} :
    Turn.Ends (resume base estimate) reply (afterSearch base estimate s results puts reply) s' outcome ↔
      s' = { (s.write base estimate puts reply).1 with operationLocked := false } ∧
        outcome = (s.write base estimate puts reply).2.map (fun _ => .results results) := by
  unfold afterSearch
  split
  · rw [finishWrite_eq, release, Turn.Ends.finished_iff]
  · rw [Turn.Ends.suspended_iff]
    simp only [resume, finishWrite_eq, release, Turn.Ends.finished_iff]

/-- Run alone, `abatch` ends as `batch` does, under the lock. -/
theorem abatch_ends_iff :
    Turn.Ends (resume base estimate) reply (s, .suspended (.abatch ops)) s' outcome ↔
      s.operationLocked = false ∧
        s' = { ({ s with operationLocked := true }.batch base estimate ops reply).1 with operationLocked := false } ∧
        outcome = ({ s with operationLocked := true }.batch base estimate ops reply).2.map .results := by
  by_cases locked : s.operationLocked = true
  · have stuck : ¬ Turn.Ends (resume base estimate) reply (s, .suspended (.abatch ops)) s' outcome :=
      Turn.Ends.not_of_loop (by simp [resume, locked])
    simp [stuck, locked]
  · rw [Turn.Ends.suspended_iff]
    simp only [resume, locked, Bool.false_eq_true, if_false, true_and, batch]
    generalize { s with operationLocked := true }.prepareOps base ops reply.readAt = first
    obtain ⟨s₁, prepare⟩ := first
    cases prepare with
    | error e => simp [release, Except.map]
    | ok prepared =>
      dsimp only
      by_cases noSearch : prepared.searchOps.entries.isEmpty = true
      · rw [if_pos noSearch, afterSearch_ends_iff]
        have skipped : s₁.search base prepared reply = (s₁, .ok prepared.results) := by rw [search, if_pos noSearch]
        simp only [skipped]
        generalize s₁.write base estimate prepared.putOps reply = written
        obtain ⟨s₂, wrote⟩ := written
        cases wrote <;> simp [Except.map]
      · rw [if_neg noSearch, Turn.Ends.suspended_iff]
        simp only [resume]
        generalize s₁.search base prepared reply = searched
        obtain ⟨s₂, found⟩ := searched
        cases found with
        | error e => simp [release, Except.map]
        | ok results =>
          simp only [afterSearch_ends_iff]
          generalize s₂.write base estimate prepared.putOps reply = written
          obtain ⟨s₃, wrote⟩ := written
          cases wrote <;> simp [Except.map]

end Abatch

/-- A batch of puts with a TTL that makes no expiry, by `batch` or by `abatch`
run alone, leaves the store as it was if it raises, exactly when it comes to
set no vectors but those that its keys have. -/
theorem failed_puts_unchanged_iff {base : InMemoryStore} {paths : PutOp → List (String × String)}
    (embeds : base.Embeds paths) (estimate : PickleSize) (s : DiskBackedInMemStore) (puts : List PutOp)
    (reply : StoreReply) (unexpirable : Unexpirable reply.writtenAt puts) (call : ItemCall)
    (either : call = .batch (puts.map .put) ∨ call = .abatch (puts.map .put) ∧ s.operationLocked = false) :
    (∀ s' e, Turn.Ends (resume base estimate) reply (s, .suspended call) s' (.error e) → s.Unchanged s') ↔
      KeepsVectors base paths s.toStoreContents puts reply.texts := by
  rcases either with rfl | ⟨rfl, free⟩
  · obtain ⟨⟨e, raises⟩, unchanged⟩ := batch_unchanged_iff estimate s embeds unexpirable
    rw [← unchanged]
    simp only [Turn.Ends.suspended_iff, resume, Turn.Ends.finished_iff, raises, Except.map]
    exact ⟨fun ends => ends _ e ⟨rfl, rfl⟩, fun kept s' e' ended => ended.1 ▸ kept⟩
  · obtain ⟨⟨e, raises⟩, unchanged⟩ := batch_unchanged_iff estimate { s with operationLocked := true } embeds unexpirable
    have same (t : DiskBackedInMemStore) :
        s.Unchanged { t with operationLocked := false } ↔ { s with operationLocked := true }.Unchanged t :=
      ⟨fun h => ⟨h.items, h.vectors, h.ttl, h.sizes⟩, fun h => ⟨h.items, h.vectors, h.ttl, h.sizes⟩⟩
    rw [← unchanged, ← same]
    simp only [abatch_ends_iff, raises, Except.map]
    exact ⟨fun ends => ends _ e ⟨free, rfl, rfl⟩, fun kept s' e' ended => ended.2.1 ▸ kept⟩

section FieldIndexes

variable {field : String} {texts : Embeddings}

/-- The path that `ofField` embeds. -/
def fieldPaths (field : String) (op : PutOp) : List (String × String) :=
  (InMemoryStore.fieldText field op).toList.map (field, ·)

theorem storeVector_path (c : StoreContents) (put : ItemKey × PutOp) :
    (InMemoryStore.storeVector field texts c put).vectors? put.1 =
      (fieldPaths field put.2).foldl (storePath texts) (c.vectors? put.1) := by
  unfold InMemoryStore.storeVector fieldPaths
  cases embedded : InMemoryStore.fieldText field put.2 with
  | none => rfl
  | some text =>
    cases found : texts.lookup text with
    | none => simp [storePath, found]
    | some vector => simp [storePath, found, StoreContents.vectors?, Buckets.find?_put]

theorem storeVectors_path {puts : List (ItemKey × PutOp)} (distinct : (puts.map Prod.fst).Nodup) (c : StoreContents)
    {k : ItemKey} {op : PutOp} (member : (k, op) ∈ puts) :
    (puts.foldl (InMemoryStore.storeVector field texts) c).vectors? k =
      (fieldPaths field op).foldl (storePath texts) (c.vectors? k) := by
  induction puts generalizing c with
  | nil => cases member
  | cons put puts ih =>
    obtain ⟨fresh, distinct⟩ := List.nodup_cons.mp distinct
    rw [List.foldl_cons]
    rcases List.mem_cons.mp member with rfl | later
    · have others : ∀ op', (k, op') ∈ puts → op'.value = none :=
        fun op' inside => absurd (List.mem_map_of_mem (f := Prod.fst) inside) fresh
      rw [(InMemoryStore.storeVectors_law field texts puts _ k).2 others, storeVector_path]
    · have other : k ≠ put.1 := by
        rintro rfl
        exact fresh (List.mem_map.mpr ⟨_, later, rfl⟩)
      rw [ih distinct _ later, InMemoryStore.storeVector_vectors? c put k field texts (Or.inl other)]

theorem ofField_embeds (field : String) (passes : SearchOp → Item → Bool)
    (rank : SearchOp → Candidates → Embeddings → List SearchItem) :
    (InMemoryStore.ofField field passes rank).Embeds (fieldPaths field) where
  texts {puts} none k op found := by
    have noText := List.filterMap_eq_nil_iff.mp none (k, op) (Dict.mem_entries_iff.mpr found)
    rw [fieldPaths, noText]
    rfl
  vectors {c c' puts texts} inserted k op found := by
    cases inserted
    exact storeVectors_path puts.nodup c (Dict.mem_entries_iff.mpr found)

end FieldIndexes

/-- A TTL of infinitely many minutes. -/
def endless (text : String) (index : ItemIndex) : PutOp := { note text (some .infinite) with index := index }

theorem endless_unexpirable (text : String) (index : ItemIndex) (now : Time) : Unexpirable now [endless text index] :=
  ⟨(["notes"], "a"), endless text index, rfl, .overflowError, rfl⟩

/-- A store with one note, which is embedded. -/
def oneNote : DiskBackedInMemStore :=
  ((load countedSize ⟨.empty, .empty⟩ .empty).batch textIndex countedSize [.put (note "first" none)]
    (readingAt 0 [("first", [.finite 1])])).1

/-- Without an index, nothing is stored for the put that fails. -/
theorem failed_puts_unchanged_off :
    oneNote.Unchanged (oneNote.batch textIndex countedSize ([endless "second" .off].map .put) (readingAt 1 [])).1 := by
  have ends : Turn.Ends (resume textIndex countedSize) (readingAt 1 [])
      (oneNote, .suspended (.batch ([endless "second" .off].map .put)))
      (oneNote.batch textIndex countedSize ([endless "second" .off].map .put) (readingAt 1 [])).1
      (.error .overflowError) := .suspended (.finished _ _)
  refine (failed_puts_unchanged_iff (ofField_embeds _ _ _) countedSize oneNote [endless "second" .off] (readingAt 1 [])
    (endless_unexpirable _ _ _) _ (Or.inl rfl)).mpr ?_ _ _ ends
  intro c₁ c₂ prepared texts _ _ _ k op put
  have one : op = endless "second" .off := List.mem_singleton.mp (List.mem_of_find?_eq_some put)
  rw [one]
  rfl

/-- The old note under the vector of the one that failed. -/
theorem failed_puts_change_vectors :
    ¬ ∀ (base : InMemoryStore) (estimate : PickleSize) (s : DiskBackedInMemStore) (puts : List PutOp)
        (reply : StoreReply), Unexpirable reply.writtenAt puts →
      ∀ s' e, Turn.Ends (resume base estimate) reply (s, .suspended (.batch (puts.map .put))) s' (.error e) →
        s.Unchanged s' := by
  intro all
  have ends : Turn.Ends (resume textIndex countedSize) (readingAt 1 [("second", [.finite 2])])
      (oneNote, .suspended (.batch ([endless "second" .configured].map .put)))
      (oneNote.batch textIndex countedSize ([endless "second" .configured].map .put)
        (readingAt 1 [("second", [.finite 2])])).1 (.error .overflowError) := .suspended (.finished _ _)
  have kept := (all _ _ _ _ _ (endless_unexpirable _ _ _) _ _ ends).vectors (["notes"], "a")
  have same := congrArg (fun vectors => (vectors.getD .empty).get? "text") kept
  revert same
  decide +kernel

end DiskBackedInMemStore

end InmemRuntime
