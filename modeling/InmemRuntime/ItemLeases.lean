import InmemRuntime.ItemTracking

namespace InmemRuntime

/-- A write, or a read with `refresh_ttl` that returned the item, with its clock reading. -/
inductive ItemEvent where
  | written (key : ItemKey) (ttl : Option PyFloat) (now : Time)
  | returned (key : ItemKey) (now : Time)

namespace ItemEvent

def key : ItemEvent → ItemKey
  | .written key _ _ | .returned key _ => key

def now : ItemEvent → Time
  | .written _ _ now | .returned _ now => now

def isWrite : ItemEvent → Bool
  | .written _ _ _ => true
  | .returned _ _ => false

end ItemEvent

/-- The keys of the items that a get with `refresh_ttl` returned. -/
def returnedByGet : StoreOp × ItemResult → List ItemKey
  | (.get op, .item _) => if op.refreshTtl then [(op.ns, op.key)] else []
  | _ => []

/-- The keys of the items that a search with `refresh_ttl` returned. -/
def returnedBySearch : StoreOp × ItemResult → List ItemKey
  | (.search op, .items found) => if op.refreshTtl then found.map (fun item => (item.ns, item.key)) else []
  | _ => []

/-- What a batch that returned `results` does, the latest first: gets come
before searches, and reads before writes. -/
def batchEvents (ops : List StoreOp) (results : List ItemResult) (reply : StoreReply) : List ItemEvent :=
  (ops.filterMap StoreOp.put?).reverse.map (fun op => .written op.itemKey op.ttl reply.writtenAt) ++
    (((ops.zip results).flatMap returnedBySearch).map (fun k => .returned k reply.searchedAt) ++
      ((ops.zip results).flatMap returnedByGet).map (fun k => .returned k reply.readAt))

/-- The most recent write to a key. -/
def lastWrite (history : List ItemEvent) (k : ItemKey) : Option ItemEvent :=
  history.find? (fun event => event.key = k && event.isWrite)

/-- The latest write of a key or read that returned and refreshed it. -/
def latestUse (history : List ItemEvent) (k : ItemKey) : Option ItemEvent :=
  history.find? (fun event => event.key = k)

/-- The most recent write carried a TTL of `m` minutes, and `m` minutes after
the latest use are not after `t`. -/
def LeaseOver (history : List ItemEvent) (k : ItemKey) (t : Time) : Prop :=
  ∃ m written use delta, lastWrite history k = some (.written k (some m) written) ∧
    latestUse history k = some use ∧ timedeltaMinutes m = .ok delta ∧ use.now + delta ≤ t

namespace DiskBackedInMemStore

section Runs

variable (base : InMemoryStore) (estimate : PickleSize)

/-- Batches and sweeps one after the other on a new store, none of which fails,
with what they do to the items. -/
inductive ItemRun : List ItemEvent → DiskBackedInMemStore → Prop where
  | start : ItemRun [] (load estimate ⟨.empty, .empty⟩ .empty)
  | batch {history s s' results} (ops : List StoreOp) (reply : StoreReply) : ItemRun history s →
      s.batch base estimate ops reply = (s', .ok results) → ItemRun (batchEvents ops results reply ++ history) s'
  | abatch {history s s' results} (ops : List StoreOp) (reply : StoreReply) : ItemRun history s →
      Turn.Ends (resume base estimate) reply (s, .suspended (.abatch ops)) s' (.ok (.results results)) →
      ItemRun (batchEvents ops results reply ++ history) s'
  | sweep {history s} (now : Time) : ItemRun history s → ItemRun history (s.sweepTtl now).1

end Runs

/-- The record of every item is what its history makes of it. -/
def Leases (history : List ItemEvent) (s : DiskBackedInMemStore) : Prop :=
  ∀ k, (s.item? k).isSome → ∃ ttl written, lastWrite history k = some (.written k ttl written) ∧
    match ttl with
    | none => s.ttl.get? k = none
    | some m => ∃ use expiresAt, latestUse history k = some use ∧ expiry use.now m = .ok expiresAt ∧
        s.ttl.get? k = some ⟨expiresAt, m⟩

section Histories

variable {history : List ItemEvent} {k : ItemKey} {now : Time}

theorem lastWrite_reads (ks : List ItemKey) :
    lastWrite (ks.map (fun k => .returned k now) ++ history) k = lastWrite history k := by
  have none : (ks.map (fun k => ItemEvent.returned k now)).find? (fun event => event.key = k && event.isWrite) = none := by
    rw [List.find?_eq_none]
    intro event member
    obtain ⟨j, _, rfl⟩ := List.mem_map.mp member
    simp [ItemEvent.isWrite]
  rw [lastWrite, List.find?_append, none]
  rfl

theorem latestUse_reads (ks : List ItemKey) :
    latestUse (ks.map (fun k => .returned k now) ++ history) k =
      if k ∈ ks then some (.returned k now) else latestUse history k := by
  induction ks with
  | nil => simp
  | cons j ks ih =>
    by_cases same : j = k
    · subst same
      simp [latestUse, ItemEvent.key]
    · have later : latestUse ((j :: ks).map (fun k => .returned k now) ++ history) k =
          latestUse (ks.map (fun k => .returned k now) ++ history) k := by
        simp [latestUse, ItemEvent.key, same]
      rw [later, ih]
      simp [Ne.symm same]

variable (history k now) in
/-- Of the writes of a batch, the latest first, the first one to a key is the most recent. -/
theorem writes_found (puts : List PutOp) :
    (∀ op, puts.find? (fun op => op.itemKey = k) = some op →
      lastWrite (puts.map (fun op => .written op.itemKey op.ttl now) ++ history) k = some (.written k op.ttl now) ∧
        latestUse (puts.map (fun op => .written op.itemKey op.ttl now) ++ history) k = some (.written k op.ttl now)) ∧
    (puts.find? (fun op => op.itemKey = k) = none →
      lastWrite (puts.map (fun op => .written op.itemKey op.ttl now) ++ history) k = lastWrite history k ∧
        latestUse (puts.map (fun op => .written op.itemKey op.ttl now) ++ history) k = latestUse history k) := by
  induction puts with
  | nil => exact ⟨fun op found => (by cases found), fun _ => ⟨rfl, rfl⟩⟩
  | cons first puts ih =>
    by_cases same : first.itemKey = k
    · refine ⟨fun op found => ?_, fun found => ?_⟩
      · obtain rfl : first = op := by simpa [same] using found
        simp [lastWrite, latestUse, ItemEvent.key, ItemEvent.isWrite, same]
      · simp [same] at found
    · simpa [lastWrite, latestUse, ItemEvent.key, same] using ih

end Histories

section Returned

variable {base : InMemoryStore} {c c' : StoreContents} {ops : List StoreOp} {prepared : Prepared}
  {results : List ItemResult} {k : ItemKey}

theorem mem_zip_iff {op : StoreOp} {result : ItemResult} :
    (op, result) ∈ ops.zip results ↔ ∃ i : Nat, ops[i]? = some op ∧ results[i]? = some result := by
  rw [List.mem_iff_getElem?]
  simp only [List.getElem?_zip_eq_some]

theorem mem_refreshedByGets :
    k ∈ refreshedByGets ops results ↔ k ∈ (ops.zip results).flatMap returnedByGet := by
  have each : ∀ e : StoreOp × ItemResult, refreshedByGet? e = some k ↔ k ∈ returnedByGet e := by
    rintro ⟨op, result⟩
    cases op with
    | get op =>
      cases result with
      | item found =>
        cases refreshes : op.refreshTtl <;>
          simp [refreshedByGet?, returnedByGet, ItemResult.isItem, refreshes, Eq.comm (a := k)]
      | none => simp [refreshedByGet?, returnedByGet, ItemResult.isItem]
      | items found => simp [refreshedByGet?, returnedByGet, ItemResult.isItem]
      | namespaces found => simp [refreshedByGet?, returnedByGet, ItemResult.isItem]
    | search op => simp [refreshedByGet?, returnedByGet]
    | put op => simp [refreshedByGet?, returnedByGet]
    | listNamespaces op => simp [refreshedByGet?, returnedByGet]
  simp only [refreshedByGets, List.mem_filterMap, List.mem_flatMap, each]

/-- A get keeps its result through the searches. -/
theorem returnedByGets_kept (computed : base.prepareOps c ops = .ok (c', prepared))
    (kept : ∀ i, prepared.searchOps.get? i = none → results[i]? = prepared.results[i]?) :
    k ∈ refreshedByGets ops prepared.results ↔ k ∈ (ops.zip results).flatMap returnedByGet := by
  obtain ⟨_, _, _, searches⟩ := base.prepareOps_law computed
  have noSearch : ∀ (i : Nat) (op : GetOp), ops[i]? = some (.get op) → results[i]? = prepared.results[i]? := by
    intro i op at_i
    refine kept i ?_
    cases found : prepared.searchOps.get? i with
    | none => rfl
    | some search =>
      have isSearch := (searches i search.1).mpr ⟨search.2, found⟩
      rw [at_i] at isSearch
      cases isSearch
  rw [mem_refreshedByGets]
  simp only [List.mem_flatMap, Prod.exists, mem_zip_iff]
  constructor
  · rintro ⟨op, result, ⟨i, at_op, at_result⟩, member⟩
    cases op with
    | get op => exact ⟨.get op, result, ⟨i, at_op, (noSearch i op at_op).trans at_result⟩, member⟩
    | search op => simp [returnedByGet] at member
    | put op => simp [returnedByGet] at member
    | listNamespaces op => simp [returnedByGet] at member
  · rintro ⟨op, result, ⟨i, at_op, at_result⟩, member⟩
    cases op with
    | get op => exact ⟨.get op, result, ⟨i, at_op, (noSearch i op at_op).symm.trans at_result⟩, member⟩
    | search op => simp [returnedByGet] at member
    | put op => simp [returnedByGet] at member
    | listNamespaces op => simp [returnedByGet] at member

theorem returnedBySearches_kept (computed : base.prepareOps c ops = .ok (c', prepared)) :
    k ∈ refreshedBySearches prepared.searchOps results ↔ k ∈ (ops.zip results).flatMap returnedBySearch := by
  obtain ⟨_, _, _, searches⟩ := base.prepareOps_law computed
  simp only [refreshedBySearches, List.mem_flatMap, Prod.exists, mem_zip_iff, Dict.mem_entries_iff]
  constructor
  · rintro ⟨i, op, candidates, at_i, member⟩
    have called := (searches i op).mpr ⟨candidates, at_i⟩
    cases refreshes : op.refreshTtl with
    | false => simp [refreshes] at member
    | true =>
      cases listed : results[i]? with
      | none => simp [refreshes, listed] at member
      | some result =>
        refine ⟨.search op, result, ⟨i, called, listed⟩, ?_⟩
        cases result with
        | items found => simpa [returnedBySearch, refreshes, listed, ItemResult.listed] using member
        | none => simp [refreshes, listed, ItemResult.listed] at member
        | item found => simp [refreshes, listed, ItemResult.listed] at member
        | namespaces found => simp [refreshes, listed, ItemResult.listed] at member
  · rintro ⟨op, result, ⟨i, called, listed⟩, member⟩
    cases op with
    | search op =>
      obtain ⟨candidates, at_i⟩ := (searches i op).mp called
      refine ⟨i, op, candidates, at_i, ?_⟩
      cases result with
      | items found =>
        cases refreshes : op.refreshTtl with
        | false => simp [returnedBySearch, refreshes] at member
        | true => simpa [returnedBySearch, refreshes, listed, ItemResult.listed] using member
      | none => simp [returnedBySearch] at member
      | item found => simp [returnedBySearch] at member
      | namespaces found => simp [returnedBySearch] at member
    | get op => simp [returnedBySearch] at member
    | put op => simp [returnedBySearch] at member
    | listNamespaces op => simp [returnedBySearch] at member

end Returned

section Steps

variable {base : InMemoryStore} {estimate : PickleSize} {s s' : DiskBackedInMemStore} {now : Time}
  {history : List ItemEvent}

theorem Leases.reads {ks js : List ItemKey} (leases : Leases history s) (reads : Reads now ks s s')
    (same : ∀ k, k ∈ ks ↔ k ∈ js) : Leases (js.map (fun k => .returned k now) ++ history) s' := by
  intro k exists_k
  rw [reads.items] at exists_k
  obtain ⟨ttl, written, write, record⟩ := leases k exists_k
  refine ⟨ttl, written, (lastWrite_reads js).trans write, ?_⟩
  have refreshed := reads.refreshed k
  cases ttl with
  | none =>
    simp only at record
    simpa only [record] using refreshed
  | some m =>
    obtain ⟨use, expiresAt, latest, expires, at_k⟩ := record
    simp only [at_k] at refreshed
    obtain ⟨expiresAt', at_k', renewed⟩ := refreshed
    rw [latestUse_reads]
    by_cases read : k ∈ ks
    · rw [if_pos read] at renewed
      exact ⟨.returned k now, expiresAt', if_pos ((same k).mp read), renewed, at_k'⟩
    · rw [if_neg read] at renewed
      refine ⟨use, expiresAt', ?_, ?_, at_k'⟩
      · rw [if_neg (fun there => read ((same k).mpr there))]
        exact latest
      · rw [renewed]
        exact expires

theorem Leases.writes {puts : Dict ItemKey PutOp} {ops : List PutOp} (leases : Leases history s)
    (writes : Writes estimate now puts s s')
    (last : ∀ k, puts.get? k = ops.find? (fun op => op.itemKey = k)) :
    Leases (ops.map (fun op => .written op.itemKey op.ttl now) ++ history) s' := by
  intro k exists_k
  obtain ⟨found, missing⟩ := writes_found history k now ops
  cases put : puts.get? k with
  | none =>
    obtain ⟨item, _, kept, _⟩ := writes.others k put
    rw [item] at exists_k
    obtain ⟨ttl, written, write, record⟩ := leases k exists_k
    obtain ⟨sameWrite, sameUse⟩ := missing ((last k).symm.trans put)
    rw [sameWrite, sameUse, kept]
    exact ⟨ttl, written, write, record⟩
  | some op =>
    obtain ⟨item, _, leaves, _⟩ := writes.written k op put
    rw [item] at exists_k
    obtain ⟨write, use⟩ := found op ((last k).symm.trans put)
    refine ⟨op.ttl, now, write, ?_⟩
    cases at_k : s'.ttl.get? k with
    | none =>
      rw [at_k] at leaves
      have noTtl : op.ttl = none := leaves.resolve_left (fun deleted => by rw [deleted] at exists_k; cases exists_k)
      rw [noTtl]
    | some record =>
      rw [at_k] at leaves
      obtain ⟨_, ttl, expires⟩ := leaves
      rw [ttl]
      exact ⟨_, record.expiresAt, use, expires, rfl⟩

theorem Leases.sweeps {ks : List ItemKey} (leases : Leases history s) (sweeps : Sweeps ks s s') : Leases history s' := by
  intro k exists_k
  by_cases gone : k ∈ ks
  · rw [(sweeps.removed k gone).1] at exists_k
    cases exists_k
  · obtain ⟨item, _, record, _⟩ := sweeps.kept k gone
    rw [item] at exists_k
    rw [record]
    exact leases k exists_k

theorem finishWrite_ends {puts : Dict ItemKey PutOp} {reply : StoreReply} {found results : List ItemResult}
    (ends : Turn.Ends (resume base estimate) reply (finishWrite base estimate s found puts reply) s'
      (.ok (.results results))) :
    results = found ∧ ∃ s₁, s.write base estimate puts reply = (s₁, .ok ()) ∧ s' = { s₁ with operationLocked := false } := by
  unfold finishWrite at ends
  split at ends
  · simp [release] at ends
  · rename_i s₁ written
    simp only [release, Turn.Ends.finished_iff, Except.ok.injEq, ItemOutcome.results.injEq] at ends
    exact ⟨ends.2, s₁, written, ends.1⟩

theorem afterSearch_ends {puts : Dict ItemKey PutOp} {reply : StoreReply} {found results : List ItemResult}
    (ends : Turn.Ends (resume base estimate) reply (afterSearch base estimate s found puts reply) s'
      (.ok (.results results))) :
    results = found ∧ ∃ s₁, s.write base estimate puts reply = (s₁, .ok ()) ∧ s' = { s₁ with operationLocked := false } := by
  unfold afterSearch at ends
  split at ends
  · exact finishWrite_ends ends
  · rw [Turn.Ends.suspended_iff] at ends
    exact finishWrite_ends ends

/-- Run alone, `abatch` does what `batch` does, under the lock. -/
theorem abatch_steps {ops : List StoreOp} {reply : StoreReply} {results : List ItemResult}
    (ends : Turn.Ends (resume base estimate) reply (s, .suspended (.abatch ops)) s' (.ok (.results results))) :
    ∃ s₁ s₂ s₃ prepared, { s with operationLocked := true }.prepareOps base ops reply.readAt = (s₁, .ok prepared) ∧
      s₁.search base prepared reply = (s₂, .ok results) ∧
      s₂.write base estimate prepared.putOps reply = (s₃, .ok ()) ∧ s' = { s₃ with operationLocked := false } := by
  by_cases locked : s.operationLocked = true
  · exact absurd ends (Turn.Ends.not_of_loop (by simp [resume, locked]))
  · rw [Turn.Ends.suspended_iff] at ends
    simp only [resume, locked, Bool.false_eq_true, if_false] at ends
    split at ends
    · simp [release] at ends
    · rename_i s₁ prepared prepare
      split at ends
      · rename_i noSearch
        obtain ⟨rfl, s₂, written, after⟩ := afterSearch_ends ends
        refine ⟨s₁, s₁, s₂, prepared, prepare, ?_, written, after⟩
        rw [search, if_pos noSearch]
      · rw [Turn.Ends.suspended_iff] at ends
        simp only [resume] at ends
        split at ends
        · simp [release] at ends
        · rename_i s₂ found searched
          obtain ⟨rfl, s₃, written, after⟩ := afterSearch_ends ends
          exact ⟨s₁, s₂, s₃, prepared, prepare, searched, written, after⟩

section OneBatch

variable {s₁ s₂ : DiskBackedInMemStore} {ops : List StoreOp} {reply : StoreReply} {results : List ItemResult}
  {prepared : Prepared} (prepare : s.prepareOps base ops reply.readAt = (s₁, .ok prepared))
  (searched : s₁.search base prepared reply = (s₂, .ok results))
  (written : s₂.write base estimate prepared.putOps reply = (s', .ok ()))

include prepare searched written

theorem Leases.batch (leases : Leases history s) : Leases (batchEvents ops results reply ++ history) s' := by
  obtain ⟨gets, c, computed⟩ := prepareOps_reads prepare
  obtain ⟨searches, kept⟩ := search_reads searched
  obtain ⟨_, _, last, _⟩ := base.prepareOps_law computed
  have afterGets := leases.reads gets (fun k => returnedByGets_kept computed kept)
  have afterSearches := afterGets.reads searches (fun k => returnedBySearches_kept computed)
  have afterWrites := afterSearches.writes (write_writes written) last
  simpa only [batchEvents, List.append_assoc] using afterWrites

theorem Consistent.batch (consistent : Consistent estimate s) : Consistent estimate s' := by
  have afterGets := (prepareOps_reads prepare).1.consistent consistent
  have afterSearches := (search_reads searched).1.consistent afterGets
  exact (write_writes written).consistent afterSearches

end OneBatch

theorem leases_of_run (run : ItemRun base estimate history s) : Leases history s ∧ Consistent estimate s := by
  induction run with
  | start =>
    obtain ⟨consistent, contents⟩ := load_consistent estimate ⟨.empty, .empty⟩ .empty
    refine ⟨fun k exists_k => ?_, consistent⟩
    rw [contents] at exists_k
    cases exists_k
  | batch ops reply _ ran ih =>
    obtain ⟨s₁, s₂, prepared, prepare, searched, written⟩ := batch_steps ran
    exact ⟨ih.1.batch prepare searched written, ih.2.batch prepare searched written⟩
  | abatch ops reply _ ends ih =>
    obtain ⟨s₁, s₂, s₃, prepared, prepare, searched, written, rfl⟩ := abatch_steps ends
    have leases := Leases.batch prepare searched written ih.1
    exact ⟨leases, ((ih.2.locked true).batch prepare searched written).locked false⟩
  | sweep now _ ih =>
    exact ⟨ih.1.sweeps (sweepTtl_sweeps _ now).1, (sweepTtl_sweeps _ now).1.consistent ih.2⟩

/-- An item has expired just when its lease is over. -/
theorem Leases.mem_expired {k : ItemKey} {t : Time} (leases : Leases history s) (exists_k : (s.item? k).isSome) :
    k ∈ s.expired t ↔ LeaseOver history k t := by
  obtain ⟨ttl, written, write, record⟩ := leases k exists_k
  rw [DiskBackedInMemStore.mem_expired]
  cases ttl with
  | none =>
    simp only at record
    simp [record, LeaseOver, write]
  | some m =>
    obtain ⟨use, expiresAt, latest, expires, at_k⟩ := record
    obtain ⟨delta, minutes, added⟩ := bind_ok expires
    have sum : expiresAt = use.now + delta := by
      unfold addDelta at added
      split at added
      · cases added
        rfl
      · cases added
    constructor
    · rintro ⟨record, found, lapsed⟩
      rw [at_k] at found
      cases found
      exact ⟨m, written, use, delta, write, latest, minutes, sum ▸ lapsed⟩
    · rintro ⟨m', written', use', delta', write', latest', minutes', lapsed⟩
      rw [write] at write'
      rw [latest] at latest'
      cases write'
      cases latest'
      rw [minutes] at minutes'
      cases minutes'
      exact ⟨_, at_k, sum ▸ lapsed⟩

/-- The sweep removes an item of the store. -/
def Removes (s : DiskBackedInMemStore) (t : Time) (k : ItemKey) : Prop :=
  (s.item? k).isSome ∧ (s.sweepTtl t).1.item? k = none

instance (s : DiskBackedInMemStore) (t : Time) (k : ItemKey) : Decidable (Removes s t k) :=
  decidable_of_iff ((s.item? k).isSome ∧ ((s.sweepTtl t).1.item? k).isNone) (by simp [Removes])

theorem removes_iff_expired {t : Time} {k : ItemKey} : Removes s t k ↔ (s.item? k).isSome ∧ k ∈ s.expired t := by
  have sweeps := (sweepTtl_sweeps s t).1
  refine and_congr_right (fun exists_k => ⟨fun gone => ?_, fun lapsed => (sweeps.removed k lapsed).1⟩)
  by_contra fresh
  rw [(sweeps.kept k fresh).1] at gone
  rw [gone] at exists_k
  cases exists_k

/-- After every run of batches and sweeps a sweep removes just the items whose
lease is over, with all that belongs to them, keeps all the rest, and returns
the number of items it removes. -/
theorem sweep_removes_expired (run : ItemRun base estimate history s) (t : Time) :
    (∀ k, (s.item? k).isSome → (Removes s t k ↔ LeaseOver history k t)) ∧
    (∀ k, Removes s t k → (s.sweepTtl t).1.vectors? k = none ∧ (s.sweepTtl t).1.ttl.get? k = none ∧
      (s.sweepTtl t).1.sizeTracker.entries.get? k = none) ∧
    (∀ k, ¬ Removes s t k → (s.sweepTtl t).1.item? k = s.item? k ∧ (s.sweepTtl t).1.vectors? k = s.vectors? k ∧
      (s.sweepTtl t).1.ttl.get? k = s.ttl.get? k ∧
      (s.sweepTtl t).1.sizeTracker.entries.get? k = s.sizeTracker.entries.get? k) ∧
    (s.sweepTtl t).2 = (s.data.pairs.filter (fun k => Removes s t k)).length := by
  obtain ⟨leases, consistent⟩ := leases_of_run run
  obtain ⟨sweeps, count⟩ := sweepTtl_sweeps s t
  refine ⟨fun k exists_k => ?_, fun k removes => ?_, fun k stays => ?_, ?_⟩
  · rw [removes_iff_expired, leases.mem_expired exists_k]
    exact and_iff_right exists_k
  · exact (sweeps.removed k (removes_iff_expired.mp removes).2).2
  · refine sweeps.kept k (fun lapsed => stays (removes_iff_expired.mpr ⟨?_, lapsed⟩))
    obtain ⟨record, at_k, _⟩ := DiskBackedInMemStore.mem_expired.mp lapsed
    exact consistent.ttlOwned k record at_k
  · rw [count]
    refine List.Perm.length_eq ((List.perm_ext_iff_of_nodup ?_ ?_).mpr (fun k => ?_))
    · exact (Dict.nodup _).filter _
    · exact s.data.pairs_nodup.filter _
    · simp only [List.mem_filter, decide_eq_true_eq, removes_iff_expired]
      constructor
      · rintro ⟨lapsed, exists_k⟩
        exact ⟨Buckets.mem_pairs.mpr exists_k, exists_k, lapsed⟩
      · rintro ⟨_, exists_k, lapsed⟩
        exact ⟨lapsed, exists_k⟩

end Steps

/-- A note with a TTL of one minute, and another without. -/
def twoNotes : List StoreOp :=
  [.put (note "first" (some (.finite 1))), .put { note "second" none with key := "b" }]

def readNotes : List StoreOp :=
  [.get ⟨["notes"], "a", true⟩, .search ⟨["notes"], [], 10, 0, none, true⟩]

def storeWithNotes : DiskBackedInMemStore :=
  ((load countedSize ⟨.empty, .empty⟩ .empty).batch textIndex countedSize twoNotes
    (readingAt 0 [("first", [.finite 1]), ("second", [.finite 2])])).1

def storeAfterReading : DiskBackedInMemStore :=
  (storeWithNotes.batch textIndex countedSize readNotes (readingAt 50000000 [])).1

theorem ItemRun.batch_ok {base : InMemoryStore} {estimate : PickleSize} {history : List ItemEvent}
    {s : DiskBackedInMemStore} (run : ItemRun base estimate history s) (ops : List StoreOp) (reply : StoreReply)
    (ok : (s.batch base estimate ops reply).2.isOk = true) :
    ∃ history', ItemRun base estimate history' (s.batch base estimate ops reply).1 := by
  cases ran : s.batch base estimate ops reply with
  | mk after outcome =>
    rw [ran] at ok
    cases outcome with
    | error e => cases ok
    | ok results => exact ⟨_, run.batch ops reply ran⟩

theorem storeAfterReading_run : ∃ history, ItemRun textIndex countedSize history storeAfterReading := by
  obtain ⟨_, written⟩ := (@ItemRun.start textIndex countedSize).batch_ok twoNotes
    (readingAt 0 [("first", [.finite 1]), ("second", [.finite 2])]) (by decide +kernel)
  exact written.batch_ok readNotes (readingAt 50000000 []) (by decide +kernel)

theorem sweep_removes_expired_note :
    ∃ history, (Removes storeAfterReading 110000000 (["notes"], "a") ↔
        LeaseOver history (["notes"], "a") 110000000) ∧
      (storeAfterReading.sweepTtl 100000000).2 = 0 ∧ (storeAfterReading.sweepTtl 110000000).2 = 1 := by
  obtain ⟨history, run⟩ := storeAfterReading_run
  have stored : (storeAfterReading.item? (["notes"], "a")).isSome = true := by decide +kernel
  refine ⟨history, (sweep_removes_expired run 110000000).1 _ stored, ?_, ?_⟩
  · decide +kernel
  · decide +kernel

end DiskBackedInMemStore

end InmemRuntime
