import InmemRuntime.FieldIndex
import InmemRuntime.ItemEffects

namespace InmemRuntime

/-- Where an operation of the store waits: `batch` for its one turn, `abatch`
and `sweeping` for the operation lock, the other two, which hold it, for the
embedding model. -/
inductive ItemCall where
  | batch (ops : List StoreOp)
  | abatch (ops : List StoreOp)
  | embeddingQueries (prepared : Prepared)
  | embeddingTexts (results : List ItemResult) (puts : Dict ItemKey PutOp)
  | sweeping

def ItemCall.isFresh : ItemCall → Bool
  | .batch _ | .abatch _ | .sweeping => true
  | _ => false

inductive ItemOutcome where
  | results (results : List ItemResult)
  | deleted (count : Nat)

abbrev ItemTurn := DiskBackedInMemStore × Turn ItemCall (Except PyError ItemOutcome)

namespace DiskBackedInMemStore

section Calls

variable (base : InMemoryStore) (estimate : PickleSize)

/-- `async with self._operation_lock` ends. -/
def release (s : DiskBackedInMemStore) (outcome : Except PyError ItemOutcome) : ItemTurn :=
  ({ s with operationLocked := false }, .finished outcome)

/-- The end of `abatch`, which writes. -/
def finishWrite (s : DiskBackedInMemStore) (results : List ItemResult) (puts : Dict ItemKey PutOp) (reply : StoreReply) :
    ItemTurn :=
  match s.write base estimate puts reply with
  | (s, .error e) => release s (.error e)
  | (s, .ok ()) => release s (.ok (.results results))

/-- `abatch` after its searches: it awaits the embeddings of the texts, if there are any. -/
def afterSearch (s : DiskBackedInMemStore) (results : List ItemResult) (puts : Dict ItemKey PutOp) (reply : StoreReply) :
    ItemTurn :=
  if (base.extractTexts puts).isEmpty then finishWrite base estimate s results puts reply
  else (s, .suspended (.embeddingTexts results puts))

/-- `batch`, `abatch` and `sweep_ttl`, the last two under the operation lock. -/
def resume (s : DiskBackedInMemStore) : ItemCall → StoreReply → ItemTurn
  | .batch ops, reply =>
    ((s.batch base estimate ops reply).1, .finished ((s.batch base estimate ops reply).2.map .results))
  | .abatch ops, reply =>
    if s.operationLocked then (s, .suspended (.abatch ops))
    else
      match { s with operationLocked := true }.prepareOps base ops reply.readAt with
      | (s, .error e) => release s (.error e)
      | (s, .ok prepared) =>
        if prepared.searchOps.entries.isEmpty then afterSearch base estimate s prepared.results prepared.putOps reply
        else (s, .suspended (.embeddingQueries prepared))
  | .embeddingQueries prepared, reply =>
    match s.search base prepared reply with
    | (s, .error e) => release s (.error e)
    | (s, .ok results) => afterSearch base estimate s results prepared.putOps reply
  | .embeddingTexts results puts, reply => finishWrite base estimate s results puts reply
  | .sweeping, reply =>
    if s.operationLocked then (s, .suspended .sweeping)
    else ((s.sweepTtl reply.readAt).1, .finished (.ok (.deleted (s.sweepTtl reply.readAt).2)))

def itemCalls : Coroutines DiskBackedInMemStore ItemCall StoreReply (Except PyError ItemOutcome) where
  fresh := ItemCall.isFresh
  resume := resume base estimate

/-- The turn raises nothing. -/
def Succeeds (s : DiskBackedInMemStore) (_others : List ItemCall) (k : ItemCall) (reply : StoreReply) : Prop :=
  ∀ e, (resume base estimate s k reply).2 ≠ .finished (.error e)

end Calls

/-- The records and the sizes are of the items that exist, and the total is that of the sizes. -/
structure Consistent (estimate : PickleSize) (s : DiskBackedInMemStore) : Prop where
  ttlOwned : ∀ k record, s.ttl.get? k = some record → (s.item? k).isSome
  tracked : ∀ k, s.sizeTracker.entries.get? k = s.exactSize estimate k
  totals : s.sizeTracker.Totals

/-- Every vector belongs to an existing item. -/
def VectorsOwned (c : StoreContents) : Prop := ∀ k vectors, c.vectors? k = some vectors → (c.item? k).isSome

section Steps

variable {base : InMemoryStore} {estimate : PickleSize} {s s' : DiskBackedInMemStore} {now : Time}
  {ks : List ItemKey} {puts : Dict ItemKey PutOp}

theorem Reads.exactSize (reads : Reads now ks s s') (k : ItemKey) :
    s'.exactSize estimate k = s.exactSize estimate k := by
  rw [DiskBackedInMemStore.exactSize, DiskBackedInMemStore.exactSize, reads.items, reads.vectors]

theorem Reads.consistent (reads : Reads now ks s s') (consistent : Consistent estimate s) : Consistent estimate s' := by
  refine ⟨fun k record at_k => ?_, fun k => ?_, ?_⟩
  · obtain ⟨old, at_old⟩ := reads.refreshed.owned at_k
    rw [reads.items]
    exact consistent.ttlOwned k old at_old
  · rw [reads.sizes, reads.exactSize]
    exact consistent.tracked k
  · rw [reads.sizes]
    exact consistent.totals

theorem Reads.vectorsOwned (reads : Reads now ks s s') (owned : VectorsOwned s.toStoreContents) :
    VectorsOwned s'.toStoreContents := by
  intro k vectors at_k
  rw [reads.vectors] at at_k
  rw [reads.items]
  exact owned k vectors at_k

theorem Writes.consistent (writes : Writes estimate now puts s s') (consistent : Consistent estimate s) :
    Consistent estimate s' := by
  refine ⟨fun k record at_k => ?_, fun k => ?_, writes.totals consistent.totals⟩
  · cases put : puts.get? k with
    | none =>
      obtain ⟨item, _, old, _⟩ := writes.others k put
      rw [old] at at_k
      rw [item]
      exact consistent.ttlOwned k record at_k
    | some op =>
      obtain ⟨item, _, leaves, _⟩ := writes.written k op put
      rw [at_k] at leaves
      rw [item]
      exact leaves.1
  · cases put : puts.get? k with
    | none =>
      obtain ⟨item, vectors, _, size⟩ := writes.others k put
      rw [size, consistent.tracked, exactSize, exactSize, item, vectors]
    | some op => exact (writes.written k op put).2.2.2

theorem Writes.vectorsOwned (writes : Writes estimate now puts s s') (owned : VectorsOwned s.toStoreContents) :
    VectorsOwned s'.toStoreContents := by
  intro k vectors at_k
  cases put : puts.get? k with
  | none =>
    obtain ⟨item, vector, _⟩ := writes.others k put
    rw [vector] at at_k
    rw [item]
    exact owned k vectors at_k
  | some op =>
    obtain ⟨item, deleted, _⟩ := writes.written k op put
    rw [item]
    cases value : op.value with
    | none =>
      rw [deleted value] at at_k
      cases at_k
    | some stored => rfl

theorem Sweeps.consistent (sweeps : Sweeps ks s s') (consistent : Consistent estimate s) : Consistent estimate s' := by
  refine ⟨fun k record at_k => ?_, fun k => ?_, sweeps.totals consistent.totals⟩
  · by_cases gone : k ∈ ks
    · rw [(sweeps.removed k gone).2.2.1] at at_k
      cases at_k
    · obtain ⟨item, _, old, _⟩ := sweeps.kept k gone
      rw [old] at at_k
      rw [item]
      exact consistent.ttlOwned k record at_k
  · by_cases gone : k ∈ ks
    · obtain ⟨item, _, _, size⟩ := sweeps.removed k gone
      rw [size, exactSize, item]
      rfl
    · obtain ⟨item, vectors, _, size⟩ := sweeps.kept k gone
      rw [size, consistent.tracked, exactSize, exactSize, item, vectors]

theorem Sweeps.vectorsOwned (sweeps : Sweeps ks s s') (owned : VectorsOwned s.toStoreContents) :
    VectorsOwned s'.toStoreContents := by
  intro k vectors at_k
  by_cases gone : k ∈ ks
  · rw [(sweeps.removed k gone).2.1] at at_k
    cases at_k
  · obtain ⟨item, vector, _⟩ := sweeps.kept k gone
    rw [vector] at at_k
    rw [item]
    exact owned k vectors at_k

/-- Who holds the lock is no matter of the containers. -/
theorem Consistent.locked (consistent : Consistent estimate s) (locked : Bool) :
    Consistent estimate { s with operationLocked := locked } :=
  ⟨consistent.ttlOwned, consistent.tracked, consistent.totals⟩

end Steps

theorem dropOrphaned_get? (s : DiskBackedInMemStore) (k : ItemKey) :
    s.dropOrphanedTtlRecords.ttl.get? k = if (s.item? k).isNone then none else s.ttl.get? k := by
  have drops : ∀ (ks : List ItemKey) (ttl : Dict ItemKey StoreTtlRecord),
      (ks.foldl (fun ttl k => if (s.item? k).isNone then ttl.erase k else ttl) ttl).get? k =
        if k ∈ ks ∧ (s.item? k).isNone then none else ttl.get? k := by
    intro ks
    induction ks with
    | nil => simp
    | cons j ks ih =>
      intro ttl
      rw [List.foldl_cons, ih]
      by_cases same : k = j
      · subst same
        cases (s.item? k).isNone <;> simp
      · have first : (if (s.item? j).isNone then ttl.erase j else ttl).get? k = ttl.get? k := by
          split
          · exact Dict.get?_erase_of_ne _ same
          · rfl
        rw [first]
        simp [same]
  show (s.ttl.keys.foldl _ s.ttl).get? k = _
  rw [drops]
  cases missing : (s.item? k).isNone with
  | false => simp
  | true =>
    by_cases present : k ∈ s.ttl.keys
    · simp [present]
    · simp [present, Dict.get?_eq_none_iff.mpr present]

theorem rebuildSizeTracking_tracks (estimate : PickleSize) (s : DiskBackedInMemStore) :
    ∃ sizeTracker, rebuildSizeTracking estimate s = { s with sizeTracker := sizeTracker } ∧
      (∀ k, sizeTracker.entries.get? k = s.exactSize estimate k) ∧ sizeTracker.Totals := by
  obtain ⟨sizeTracker, after, entries, totals⟩ := trackAll estimate { s with sizeTracker := .cleared } s.data.pairs
  refine ⟨sizeTracker, after, fun k => ?_, totals SizeTracker.totals_cleared⟩
  rw [entries]
  by_cases stored : k ∈ s.data.pairs
  · rw [if_pos stored]
    rfl
  · have missing : s.item? k = none := by
      rw [← Option.not_isSome_iff_eq_none]
      exact fun found => stored (Buckets.mem_pairs.mpr found)
    rw [if_neg stored, exactSize, missing]
    rfl

/-- Construction makes the records and the sizes those of the persisted items. -/
theorem load_consistent (estimate : PickleSize) (c : StoreContents) (ttl : Dict ItemKey StoreTtlRecord) :
    Consistent estimate (load estimate c ttl) ∧ (load estimate c ttl).toStoreContents = c := by
  obtain ⟨sizeTracker, after, entries, totals⟩ :=
    rebuildSizeTracking_tracks estimate (dropOrphanedTtlRecords ⟨c, ttl, .cleared, ⟨0, 0, 0⟩, false⟩)
  unfold load
  rw [after]
  refine ⟨⟨fun k record at_k => ?_, entries, totals⟩, rfl⟩
  have kept := dropOrphaned_get? ⟨c, ttl, .cleared, ⟨0, 0, 0⟩, false⟩ k
  rw [show _ = some record from at_k] at kept
  show (c.item? k).isSome
  cases found : c.item? k with
  | none =>
    rw [if_pos (by rw [found]; rfl)] at kept
    cases kept
  | some item => rfl

section Turns

variable {base : InMemoryStore} {estimate : PickleSize} {clean : Prop} {s : DiskBackedInMemStore}

/-- What holds between the turns; `clean` says that no orphaned vectors were there at the start. -/
structure Sound (estimate : PickleSize) (clean : Prop) (s : DiskBackedInMemStore) : Prop where
  consistent : Consistent estimate s
  vectors : clean → VectorsOwned s.toStoreContents

theorem Sound.release (sound : Sound estimate clean s) (outcome : Except PyError ItemOutcome) :
    Sound estimate clean (s.release outcome).1 :=
  ⟨sound.consistent.locked false, sound.vectors⟩

theorem Sound.reads {s' : DiskBackedInMemStore} {now : Time} {ks : List ItemKey} (sound : Sound estimate clean s)
    (reads : Reads now ks s s') : Sound estimate clean s' :=
  ⟨reads.consistent sound.consistent, fun isClean => reads.vectorsOwned (sound.vectors isClean)⟩

theorem Sound.writes {s' : DiskBackedInMemStore} {now : Time} {puts : Dict ItemKey PutOp} (sound : Sound estimate clean s)
    (writes : Writes estimate now puts s s') : Sound estimate clean s' :=
  ⟨writes.consistent sound.consistent, fun isClean => writes.vectorsOwned (sound.vectors isClean)⟩

theorem Sound.sweeps {s' : DiskBackedInMemStore} {ks : List ItemKey} (sound : Sound estimate clean s)
    (sweeps : Sweeps ks s s') : Sound estimate clean s' :=
  ⟨sweeps.consistent sound.consistent, fun isClean => sweeps.vectorsOwned (sound.vectors isClean)⟩

theorem batch_sound {s' : DiskBackedInMemStore} {ops : List StoreOp} {reply : StoreReply} {results : List ItemResult}
    (sound : Sound estimate clean s) (run : s.batch base estimate ops reply = (s', .ok results)) : Sound estimate clean s' := by
  obtain ⟨s₁, s₂, prepared, prepare, searched, written⟩ := batch_steps run
  have afterGets := sound.reads (prepareOps_reads prepare).1
  exact (afterGets.reads (search_reads searched).1).writes (write_writes written)

theorem finishWrite_sound {results : List ItemResult} {puts : Dict ItemKey PutOp} {reply : StoreReply}
    (sound : Sound estimate clean s)
    (succeeds : ∀ e, (finishWrite base estimate s results puts reply).2 ≠ .finished (.error e)) :
    Sound estimate clean (finishWrite base estimate s results puts reply).1 := by
  unfold finishWrite at succeeds ⊢
  split at succeeds
  · rename_i after e written
    exact absurd rfl (succeeds e)
  · rename_i after written
    exact (sound.writes (write_writes written)).release _

theorem afterSearch_sound {results : List ItemResult} {puts : Dict ItemKey PutOp} {reply : StoreReply}
    (sound : Sound estimate clean s)
    (succeeds : ∀ e, (afterSearch base estimate s results puts reply).2 ≠ .finished (.error e)) :
    Sound estimate clean (afterSearch base estimate s results puts reply).1 := by
  unfold afterSearch at succeeds ⊢
  split
  · rename_i noTexts
    rw [if_pos noTexts] at succeeds
    exact finishWrite_sound sound succeeds
  · exact sound

theorem turn_sound {k : ItemCall} {reply : StoreReply} (sound : Sound estimate clean s)
    (succeeds : Succeeds base estimate s [] k reply) : Sound estimate clean (resume base estimate s k reply).1 := by
  unfold Succeeds at succeeds
  cases k with
  | batch ops =>
    simp only [resume] at succeeds ⊢
    cases run : s.batch base estimate ops reply with
    | mk after outcome =>
      rw [run] at succeeds
      cases outcome with
      | error e => exact absurd rfl (succeeds e)
      | ok results => exact batch_sound sound run
  | abatch ops =>
    simp only [resume] at succeeds ⊢
    split
    · exact sound
    · rename_i free
      rw [if_neg free] at succeeds
      have held : Sound estimate clean { s with operationLocked := true } := ⟨sound.consistent.locked true, sound.vectors⟩
      cases prepare : { s with operationLocked := true }.prepareOps base ops reply.readAt with
      | mk after outcome =>
        rw [prepare] at succeeds
        cases outcome with
        | error e => exact absurd rfl (succeeds e)
        | ok prepared =>
          dsimp only at succeeds ⊢
          have read := held.reads (prepareOps_reads prepare).1
          split
          · rename_i noSearch
            rw [if_pos noSearch] at succeeds
            exact afterSearch_sound read succeeds
          · exact read
  | embeddingQueries prepared =>
    simp only [resume] at succeeds ⊢
    cases searched : s.search base prepared reply with
    | mk after outcome =>
      rw [searched] at succeeds
      cases outcome with
      | error e => exact absurd rfl (succeeds e)
      | ok results => exact afterSearch_sound (sound.reads (search_reads searched).1) succeeds
  | embeddingTexts results puts => exact finishWrite_sound sound succeeds
  | sweeping =>
    simp only [resume]
    split
    · exact sound
    · exact sound.sweeps (sweepTtl_sweeps s reply.readAt).1

/-- In every interleaving of batches, asynchronous batches and sweeps on a
store made from persisted containers the records and the sizes are those of the
existing items, and as long as the containers held no other vectors, so are the
vectors. -/
theorem store_consistent {c : StoreContents} {ttl : Dict ItemKey StoreTtlRecord}
    {l : EventLoop DiskBackedInMemStore ItemCall}
    (reach : (itemCalls base estimate).Reaches (Succeeds base estimate) ⟨load estimate c ttl, []⟩ l) :
    Consistent estimate l.state ∧ (VectorsOwned c → VectorsOwned l.state.toStoreContents) := by
  obtain ⟨loaded, contents⟩ := load_consistent estimate c ttl
  have sound : Sound estimate (VectorsOwned c) l.state := by
    refine reach.invariant (P := fun s _ => Sound estimate (VectorsOwned c) s) (fun _ sound => sound)
      (fun sound _ => sound) (fun sound succeeds => turn_sound sound succeeds) ?_
    refine ⟨loaded, fun owned => ?_⟩
    rw [contents]
    exact owned
  exact ⟨sound.consistent, sound.vectors⟩

end Turns

section Overlap

instance (base : InMemoryStore) (estimate : PickleSize) (s : DiskBackedInMemStore) (others : List ItemCall)
    (k : ItemCall) (reply : StoreReply) : Decidable (Succeeds base estimate s others k reply) :=
  match ended : (resume base estimate s k reply).2 with
  | .finished (.error e) => isFalse (fun succeeds => succeeds e ended)
  | .finished (.ok _) | .suspended _ | .yielded _ _ | .forked _ _ => isTrue (fun e => by rw [ended]; simp)

def textIndex : InMemoryStore :=
  .ofField "text" (fun op item => op.namespacePrefix.isPrefixOf item.ns && op.filter.isEmpty)
    (fun op candidates _ => ((candidates.drop op.offset).take op.limit).map (fun e => ⟨e.1, none⟩))

/-- A size that counts the fields and the vectors. -/
def countedSize : PickleSize := fun _ item vectors =>
  item.elim 0 (fun item => item.value.length) + vectors.elim 0 (fun vectors => vectors.entries.length)

def note (text : String) (ttl : Option PyFloat) : PutOp := ⟨["notes"], "a", some [("text", .str text)], .configured, ttl⟩

def readingAt (now : Time) (texts : Embeddings) : StoreReply := ⟨now, now, now, now, .ok [], .ok texts⟩

/-- `abatch` awaits the embedding of a note while `batch` deletes it, and then a sweep runs. -/
def deletedWhileEmbedding : List (Coroutines.Move ItemCall StoreReply) :=
  [.call (.batch [.put (note "first" (some (.finite 1)))]), .turn 0 (readingAt 0 [("first", [.finite 1])]),
    .call (.abatch [.put (note "second" none)]), .turn 0 (readingAt 1 []),
    .call (.batch [.put { note "" none with value := none }]), .turn 1 (readingAt 2 []),
    .turn 0 (readingAt 3 [("second", [.finite 2])]), .call .sweeping, .turn 0 (readingAt 90000000 [])]

theorem deletedWhileEmbedding_performed :
    ((itemCalls textIndex countedSize).performAllIf (Succeeds textIndex countedSize)
      ⟨load countedSize ⟨.empty, .empty⟩ .empty, []⟩ deletedWhileEmbedding).isSome = true := by
  decide +kernel

theorem store_consistent_after_overlap :
    ∃ l : EventLoop DiskBackedInMemStore ItemCall, l.waiting.length = 0 ∧
      l.state.sizeTracker.entries.get? (["notes"], "a") = some 2 ∧ Consistent countedSize l.state ∧
      VectorsOwned l.state.toStoreContents := by
  have reach := Coroutines.Reaches.performAllIf .start (Option.some_get deletedWhileEmbedding_performed).symm
  obtain ⟨consistent, owned⟩ := store_consistent reach
  refine ⟨_, ?_, ?_, consistent, owned (fun k vectors at_k => by cases at_k)⟩
  · decide +kernel
  · decide +kernel

end Overlap

end DiskBackedInMemStore

end InmemRuntime
