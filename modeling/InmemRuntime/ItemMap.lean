import Mathlib.Data.Set.Card
import InmemRuntime.ItemSerial
import InmemRuntime.Lib.LeaseMap
import InmemRuntime.Lib.Outcomes

namespace InmemRuntime

/-- The values of the items under their keys, with TTLs in minutes. -/
abbrev ItemMap := LeaseMap ItemKey PyDict PyFloat Time

def PutOp.leasePut (op : PutOp) : LeasePut ItemKey PyDict PyFloat := (op.itemKey, op.value.map (·, op.ttl))

/-- The lease has an end, which is not after `now`. -/
def Lapsed (now : Time) (lease : PyFloat × Time) : Prop :=
  ∃ expiresAt, DiskBackedInMemStore.expiry lease.2 lease.1 = .ok expiresAt ∧ expiresAt ≤ now

/-- The result of a get shows the value under its key. -/
inductive ShowsValue : ItemResult → Option PyDict → Prop
  | missing : ShowsValue .none none
  | found (item : Item) : ShowsValue (.item item) (some item.value)

/-- The items that a search lists are in the map. -/
def Lists (m : ItemMap) (found : List SearchItem) : Prop :=
  ∀ item ∈ found, m.value? (item.ns, item.key) = some item.value

/-- How `InMemoryStore` reads: a get looks its key up, the candidates of a
search are stored items, and a search returns some of its candidates. -/
structure InMemoryStore.ReadsItems (base : InMemoryStore) : Prop where
  length : ∀ {c c' ops p}, base.prepareOps c ops = .ok (c', p) → p.results.length = ops.length
  gets : ∀ {c c' ops p}, base.prepareOps c ops = .ok (c', p) → ∀ (i : Nat) op, ops[i]? = some (.get op) →
    p.results[i]? = some (((c.item? (op.ns, op.key)).map .item).getD .none)
  candidates : ∀ {c c' ops p}, base.prepareOps c ops = .ok (c', p) → ∀ i op candidates,
    p.searchOps.get? i = some (op, candidates) → ∀ e ∈ candidates, ∃ k, c.item? k = some e.1
  searches : ∀ {searches queries results results'}, base.batchSearch searches queries results = .ok results' →
    ∀ i op candidates, searches.get? i = some (op, candidates) → i < results.length →
    ∃ found, results'[i]? = some (.items found) ∧ ∀ item ∈ found, ∃ e ∈ candidates, item.toItem = e.1

/-- What an operation means for the map. One that raises may have renewed leases
that its gets and searches read, and does nothing else. -/
inductive Does : LockedOp → StoreReply → Except PyError ItemOutcome → ItemMap → ItemMap → Prop
  | batch {ops reply results m} :
      (∀ (i : Nat) op, ops[i]? = some (.get op) →
        ∃ result, results[i]? = some result ∧ ShowsValue result (m.value? (op.ns, op.key))) →
      (∀ (i : Nat) op, ops[i]? = some (.search op) → ∃ found, results[i]? = some (.items found) ∧ Lists m found) →
      Does (.abatch ops) reply (.ok (.results results)) m
        (((m.renew reply.readAt {k | k ∈ (ops.zip results).flatMap returnedByGet}).renew reply.searchedAt
          {k | k ∈ (ops.zip results).flatMap returnedBySearch}).puts reply.writtenAt
          ((ops.filterMap StoreOp.put?).map PutOp.leasePut))
  | raised {ops reply e m} (ks js : Set ItemKey) : (∀ k ∈ ks, ∃ op, .get op ∈ ops ∧ op.refreshTtl = true ∧ k = (op.ns, op.key)) →
      (js.Nonempty → ∃ op, .search op ∈ ops ∧ op.refreshTtl = true) →
      Does (.abatch ops) reply (.error e) m ((m.renew reply.readAt ks).renew reply.searchedAt js)
  | swept {reply n m} : n = Set.ncard {k | m k ≠ none ∧ m.sweep (Lapsed reply.readAt) k = none} →
      Does .sweep reply (.ok (.deleted n)) m (m.sweep (Lapsed reply.readAt))

namespace DiskBackedInMemStore

/-- Each item is under its own key with the value of the map, and its record has
the minutes and the end of the lease. -/
structure Represents (s : DiskBackedInMemStore) (m : ItemMap) : Prop where
  items : ∀ k, Option.Rel (fun value (item : Item) => item.value = value ∧ (item.ns, item.key) = k) (m.value? k) (s.item? k)
  records : ∀ k, Option.Rel (fun lease (record : StoreTtlRecord) =>
    record.ttlMinutes = lease.1 ∧ expiry lease.2 lease.1 = .ok record.expiresAt) (m.lease? k) (s.ttl.get? k)

section Steps

variable {base : InMemoryStore} {estimate : PickleSize} {s s' : DiskBackedInMemStore} {m : ItemMap} {now : Time}
  {reply : StoreReply} {ops : List StoreOp}

theorem Represents.congr (represents : Represents s m) (items : ∀ k, s'.item? k = s.item? k) (ttl : s'.ttl = s.ttl) :
    Represents s' m :=
  ⟨fun k => items k ▸ represents.items k, fun k => ttl ▸ represents.records k⟩

theorem Represents.renewed {ks : List ItemKey} {js : Set ItemKey} (represents : Represents s m)
    (items : ∀ k, s'.item? k = s.item? k) (refreshed : Refreshed now ks s.ttl s'.ttl) (same : ∀ k, k ∈ ks ↔ k ∈ js) :
    Represents s' (m.renew now js) := by
  refine ⟨fun k => ?_, fun k => ?_⟩
  · rw [items, LeaseMap.renew_value?]
    exact represents.items k
  · have here := represents.records k
    have after := refreshed k
    have kept : (m.renew now js).lease? k = (m.lease? k).map (fun lease => if k ∈ ks then (lease.1, now) else lease) := by
      by_cases member : k ∈ ks
      · rw [LeaseMap.renew_lease?_of_mem ((same k).mp member)]
        simp only [member, if_true]
      · rw [LeaseMap.renew_lease?_of_not_mem (fun there => member ((same k).mpr there))]
        simp only [member, if_false, Option.map_id']
    rw [kept]
    cases lease : m.lease? k with
    | none =>
      rw [lease] at here
      rw [here.none_left] at after
      rw [Option.map_none, after]
      exact .none
    | some lease =>
      rw [lease] at here
      obtain ⟨record, at_k, minutes, expires⟩ := here.some_left
      rw [at_k] at after
      obtain ⟨expiresAt, at_k', renewed⟩ := after
      rw [Option.map_some, at_k']
      refine .some ?_
      by_cases member : k ∈ ks
      · rw [if_pos member] at renewed ⊢
        exact ⟨minutes, minutes ▸ renewed⟩
      · rw [if_neg member] at renewed ⊢
        exact ⟨minutes, renewed ▸ expires⟩

/-- The expired records are those of lapsed leases. -/
theorem Represents.mem_expired (represents : Represents s m) {k : ItemKey} :
    k ∈ s.expired now ↔ ∃ lease, m.lease? k = some lease ∧ Lapsed now lease := by
  rw [DiskBackedInMemStore.mem_expired]
  have here := represents.records k
  constructor
  · rintro ⟨record, at_k, lapsed⟩
    rw [at_k] at here
    obtain ⟨lease, leased, _, expires⟩ := here.some_right
    exact ⟨lease, leased, record.expiresAt, expires, lapsed⟩
  · rintro ⟨lease, leased, expiresAt, expires, lapsed⟩
    rw [leased] at here
    obtain ⟨record, at_k, _, expires'⟩ := here.some_left
    rw [expires] at expires'
    cases expires'
    exact ⟨record, at_k, lapsed⟩

theorem Represents.sweeps (represents : Represents s m) (sweeps : Sweeps (s.expired now) s s') :
    Represents s' (m.sweep (Lapsed now)) := by
  have same : ∀ k, k ∈ s.expired now ∧ m.sweep (Lapsed now) k = none ∨ k ∉ s.expired now ∧ m.sweep (Lapsed now) k = m k := by
    intro k
    by_cases lapsed : k ∈ s.expired now
    · obtain ⟨lease, leased, ended⟩ := represents.mem_expired.mp lapsed
      exact Or.inl ⟨lapsed, LeaseMap.sweep_of_lapsed leased ended⟩
    · refine Or.inr ⟨lapsed, LeaseMap.sweep_of_not (fun lease leased ended => ?_)⟩
      exact lapsed (represents.mem_expired.mpr ⟨lease, leased, ended⟩)
  refine ⟨fun k => ?_, fun k => ?_⟩
  · rcases same k with ⟨lapsed, gone⟩ | ⟨stays, kept⟩
    · rw [LeaseMap.value?, gone, (sweeps.removed k lapsed).1]
      exact .none
    · rw [LeaseMap.value?, kept, (sweeps.kept k stays).1]
      exact represents.items k
  · rcases same k with ⟨lapsed, gone⟩ | ⟨stays, kept⟩
    · rw [LeaseMap.lease?, gone, (sweeps.removed k lapsed).2.2.1]
      exact .none
    · rw [LeaseMap.lease?, kept, (sweeps.kept k stays).2.2.1]
      exact represents.records k

/-- A sweep removes the entries of the map whose lease has lapsed, and returns their number. -/
theorem sweep_does (represents : Represents s m) :
    Does .sweep reply (.ok (.deleted (s.sweepTtl reply.readAt).2)) m (m.sweep (Lapsed reply.readAt)) ∧
      Represents (s.sweepTtl reply.readAt).1 (m.sweep (Lapsed reply.readAt)) := by
  obtain ⟨sweeps, count⟩ := sweepTtl_sweeps s reply.readAt
  refine ⟨.swept ?_, represents.sweeps sweeps⟩
  have removed : {k | m k ≠ none ∧ m.sweep (Lapsed reply.readAt) k = none} = ↑(s.expired reply.readAt).toFinset := by
    ext k
    rw [Set.mem_ofPred_eq, LeaseMap.removed_iff, List.coe_toFinset, Set.mem_ofPred_eq, represents.mem_expired]
  have distinct : (s.expired reply.readAt).Nodup := Dict.nodup _
  have owned : (s.expired reply.readAt).filter (fun k => (s.item? k).isSome) = s.expired reply.readAt := by
    refine List.filter_eq_self.mpr (fun k member => ?_)
    obtain ⟨lease, leased, _⟩ := represents.mem_expired.mp member
    obtain ⟨entry, found, _⟩ := Option.bind_eq_some_iff.mp leased
    have here := represents.items k
    rw [LeaseMap.value?, found] at here
    obtain ⟨item, at_k, _⟩ := here.some_left
    rw [at_k]
    rfl
  rw [removed, Set.ncard_coe_finset, List.toFinset_card_of_nodup distinct, count, owned]

/-- The puts of a batch store their values. -/
theorem applyPutOps_values {puts : Dict ItemKey PutOp} {createdAt : Time}
    (run : s.applyPutOps base estimate puts now createdAt = (s', .ok ())) {k : ItemKey} {op : PutOp} {value : PyDict}
    (found : puts.get? k = some op) (stored : op.value = some value) :
    ∃ item : Item, s'.item? k = some item ∧ item.value = value ∧ (item.ns, item.key) = k := by
  unfold applyPutOps at run
  split at run
  · cases run
  · rename_i updates computed
    obtain ⟨sizeTracker, tracked, _⟩ := trackAll estimate
      { s with
        toStoreContents := base.applyPutOps s.toStoreContents puts createdAt
        ttl := updates.foldl setRecord s.ttl } puts.keys
    simp only [tracked] at run
    cases run
    rw [dropEmptyBuckets_item?]
    exact (base.applyPutOps_law s.toStoreContents puts createdAt k).2.2 op value found stored

theorem write_values {puts : Dict ItemKey PutOp} (run : s.write base estimate puts reply = (s', .ok ())) {k : ItemKey}
    {op : PutOp} {value : PyDict} (found : puts.get? k = some op) (stored : op.value = some value) :
    ∃ item : Item, s'.item? k = some item ∧ item.value = value ∧ (item.ns, item.key) = k := by
  unfold write at run
  split at run
  · exact applyPutOps_values run found stored
  · split at run
    · cases run
    · split at run
      · cases run
      · exact applyPutOps_values run found stored

theorem puts_leasePuts (puts : List PutOp) (k : ItemKey) :
    m.puts now (puts.map PutOp.leasePut) k = match puts.reverse.find? (fun op => op.itemKey = k) with
      | none => m k
      | some op => leasedFrom now op.leasePut.2 := by
  have same : (fun put : LeasePut ItemKey PyDict PyFloat => decide (put.1 = k)) ∘ PutOp.leasePut =
      fun op => decide (op.itemKey = k) := rfl
  rw [LeaseMap.puts_apply, ← List.map_reverse, List.find?_map, same]
  cases puts.reverse.find? (fun op => op.itemKey = k) <;> rfl

theorem Represents.written {puts : Dict ItemKey PutOp} {all : List PutOp} (represents : Represents s m)
    (run : s.write base estimate puts reply = (s', .ok ()))
    (last : ∀ k, puts.get? k = all.reverse.find? (fun op => op.itemKey = k)) :
    Represents s' (m.puts reply.writtenAt (all.map PutOp.leasePut)) := by
  have writes := write_writes run
  refine ⟨fun k => ?_, fun k => ?_⟩
  · rw [LeaseMap.value?, puts_leasePuts, ← last]
    cases put : puts.get? k with
    | none =>
      rw [(writes.others k put).1]
      exact represents.items k
    | some op =>
      cases stored : op.value with
      | none =>
        have gone := (writes.written k op put).1
        rw [stored, Option.isSome_none, Option.isSome_eq_false_iff, Option.isNone_iff_eq_none] at gone
        simp only [gone, PutOp.leasePut, stored, leasedFrom, Option.map_none]
        exact .none
      | some value =>
        obtain ⟨item, at_k, both⟩ := write_values run put stored
        simp only [at_k, PutOp.leasePut, stored, leasedFrom, Option.map_some]
        exact .some both
  · rw [LeaseMap.lease?, puts_leasePuts, ← last]
    cases put : puts.get? k with
    | none =>
      rw [(writes.others k put).2.2.1]
      exact represents.records k
    | some op =>
      have leaves := (writes.written k op put).2.2.1
      cases at_k : s'.ttl.get? k with
      | none =>
        rw [at_k] at leaves
        rcases leaves with deleted | endless
        · simp only [PutOp.leasePut, deleted, leasedFrom, Option.map_none, Option.bind_none]
          exact .none
        · cases stored : op.value with
          | none =>
            simp only [PutOp.leasePut, stored, leasedFrom, Option.map_none, Option.bind_none]
            exact .none
          | some value =>
            simp only [PutOp.leasePut, stored, endless, leasedFrom, Option.map_some, Option.map_none, Option.bind_some]
            exact .none
      | some record =>
        rw [at_k] at leaves
        obtain ⟨stored, ttl, expires⟩ := leaves
        obtain ⟨value, stored⟩ := Option.isSome_iff_exists.mp stored
        simp only [PutOp.leasePut, stored, ttl, leasedFrom, Option.map_some, Option.bind_some]
        exact .some ⟨rfl, expires⟩

/-- Renewing records changes no item, and renews some of them even if it raises. -/
theorem refreshAll_some (now : Time) (s : DiskBackedInMemStore) (ks : List ItemKey) :
    ∃ js, (∀ k ∈ js, k ∈ ks) ∧ (∀ k, (refreshAll now s ks).1.item? k = s.item? k) ∧
      Refreshed now js s.ttl (refreshAll now s ks).1.ttl := by
  induction ks generalizing s with
  | nil => exact ⟨[], fun _ member => member, fun _ => rfl, .refl now _⟩
  | cons k ks ih =>
    unfold refreshAll
    cases one : refreshTtl now s.ttl k with
    | error e => exact ⟨[], List.forall_mem_nil _, fun _ => rfl, Refreshed.refl now _⟩
    | ok ttl =>
      obtain ⟨js, some_of, items, refreshed⟩ := ih { s with ttl := ttl }
      refine ⟨k :: js, fun j member => ?_, items, (refreshTtl_refreshed one).append refreshed⟩
      rcases List.mem_cons.mp member with rfl | later
      · exact List.mem_cons_self
      · exact List.mem_cons_of_mem _ (some_of j later)

theorem get_of_refreshed {results : List ItemResult} {k : ItemKey} (member : k ∈ refreshedByGets ops results) :
    ∃ op, StoreOp.get op ∈ ops ∧ op.refreshTtl = true ∧ k = (op.ns, op.key) := by
  obtain ⟨⟨op, result⟩, zipped, refreshed⟩ := List.mem_filterMap.mp member
  cases op with
  | get op =>
    obtain ⟨both, same⟩ := Option.ite_none_right_eq_some.mp refreshed
    exact ⟨op, (List.of_mem_zip zipped).1, both.1, (Option.some.inj same).symm⟩
  | search op => cases refreshed
  | put op => cases refreshed
  | listNamespaces op => cases refreshed

theorem search_of_refreshed {searches : SearchOps} {results : List ItemResult} {k : ItemKey}
    (member : k ∈ refreshedBySearches searches results) :
    ∃ i op candidates, searches.get? i = some (op, candidates) ∧ op.refreshTtl = true := by
  obtain ⟨⟨i, op, candidates⟩, listed, inside⟩ := List.mem_flatMap.mp member
  refine ⟨i, op, candidates, Dict.mem_entries_iff.mp listed, ?_⟩
  by_contra unrefreshed
  rw [if_neg unrefreshed] at inside
  cases inside

theorem prepareOps_raises {e : PyError} (prepare : s.prepareOps base ops now = (s', .error e)) :
    ∃ ks, (∀ k ∈ ks, ∃ op, StoreOp.get op ∈ ops ∧ op.refreshTtl = true ∧ k = (op.ns, op.key)) ∧
      (∀ k, s'.item? k = s.item? k) ∧ Refreshed now ks s.ttl s'.ttl := by
  unfold prepareOps at prepare
  split at prepare
  · cases prepare
    exact ⟨[], List.forall_mem_nil _, fun _ => rfl, Refreshed.refl now _⟩
  · rename_i c prepared computed
    obtain ⟨ks, some_of, items, refreshed⟩ := refreshAll_some now { s with toStoreContents := c }
      (refreshedByGets ops prepared.results)
    obtain ⟨rfl, _⟩ := Prod.mk.inj prepare
    exact ⟨ks, fun k member => get_of_refreshed (some_of k member),
      fun k => (items k).trans ((base.prepareOps_law computed).1 k), refreshed⟩

theorem search_raises {prepared : Prepared} {e : PyError} (run : s.search base prepared reply = (s', .error e)) :
    ∃ ks, (∀ k ∈ ks, ∃ i op candidates, prepared.searchOps.get? i = some (op, candidates) ∧ op.refreshTtl = true) ∧
      (∀ k, s'.item? k = s.item? k) ∧ Refreshed reply.searchedAt ks s.ttl s'.ttl := by
  have nothing : ∃ ks : List ItemKey,
      (∀ k ∈ ks, ∃ i op candidates, prepared.searchOps.get? i = some (op, candidates) ∧ op.refreshTtl = true) ∧
        (∀ k, s.item? k = s.item? k) ∧ Refreshed reply.searchedAt ks s.ttl s.ttl :=
    ⟨[], List.forall_mem_nil _, fun _ => rfl, Refreshed.refl _ _⟩
  unfold search at run
  split at run
  · cases run
  · split at run
    · cases run
      exact nothing
    · unfold batchSearch at run
      split at run
      · cases run
        exact nothing
      · rename_i results computed
        obtain ⟨ks, some_of, items, refreshed⟩ := refreshAll_some reply.searchedAt s
          (refreshedBySearches prepared.searchOps results)
        obtain ⟨rfl, _⟩ := Prod.mk.inj run
        exact ⟨ks, fun k member => search_of_refreshed (some_of k member), items, refreshed⟩

theorem write_raises {puts : Dict ItemKey PutOp} {e : PyError} (run : s.write base estimate puts reply = (s', .error e)) :
    (∀ k, s'.item? k = s.item? k) ∧ s'.ttl = s.ttl := by
  have apply_raises {s : DiskBackedInMemStore} (run : s.applyPutOps base estimate puts reply.writtenAt reply.createdAt =
      (s', .error e)) : s' = s := by
    unfold applyPutOps at run
    split at run
    · cases run
      rfl
    · cases run
  unfold write at run
  split at run
  · obtain rfl := apply_raises run
    exact ⟨fun _ => rfl, rfl⟩
  · split at run
    · cases run
      exact ⟨fun _ => rfl, rfl⟩
    · split at run
      · cases run
        exact ⟨fun _ => rfl, rfl⟩
      · rename_i c inserted
        obtain rfl := apply_raises run
        exact ⟨(base.insertVectors_law inserted).1, rfl⟩

/-- A batch that raises has at most renewed leases. -/
theorem batch_raises {e : PyError} (represents : Represents s m) (run : s.batch base estimate ops reply = (s', .error e)) :
    ∃ m', Does (.abatch ops) reply (.error e) m m' ∧ Represents s' m' := by
  unfold batch at run
  split at run
  · rename_i prepare
    cases run
    obtain ⟨ks, gets, items, refreshed⟩ := prepareOps_raises prepare
    have renewed : Represents s' (m.renew reply.readAt {k | k ∈ ks}) := represents.renewed items refreshed (fun _ => Iff.rfl)
    refine ⟨_, .raised {k | k ∈ ks} ∅ gets (fun some_key => absurd some_key Set.not_nonempty_empty), ?_⟩
    rw [LeaseMap.renew_empty]
    exact renewed
  · rename_i s₁ prepared prepare
    obtain ⟨reads, c, computed⟩ := prepareOps_reads prepare
    obtain ⟨_, _, _, searches⟩ := base.prepareOps_law computed
    have read : Represents s₁ (m.renew reply.readAt {k | k ∈ refreshedByGets ops prepared.results}) :=
      represents.renewed reads.items reads.refreshed (fun _ => Iff.rfl)
    have refreshing {ks : List ItemKey} (each : ∀ k ∈ ks, ∃ i op candidates,
        prepared.searchOps.get? i = some (op, candidates) ∧ op.refreshTtl = true) (some_key : Set.Nonempty {k | k ∈ ks}) :
        ∃ op, StoreOp.search op ∈ ops ∧ op.refreshTtl = true := by
      obtain ⟨k, member⟩ := some_key
      obtain ⟨i, op, candidates, at_i, refreshes⟩ := each k member
      exact ⟨op, List.mem_of_getElem? ((searches i op).mpr ⟨candidates, at_i⟩), refreshes⟩
    split at run
    · rename_i searched
      cases run
      obtain ⟨ks, some_of, items, refreshed⟩ := search_raises searched
      exact ⟨_, .raised {k | k ∈ refreshedByGets ops prepared.results} {k | k ∈ ks} (fun k => get_of_refreshed)
        (refreshing some_of),
        read.renewed items refreshed (fun _ => Iff.rfl)⟩
    · rename_i s₂ results searched
      have sought := (search_reads searched).1
      split at run
      · rename_i written
        cases run
        obtain ⟨items, ttl⟩ := write_raises written
        refine ⟨_, .raised {k | k ∈ refreshedByGets ops prepared.results}
          {k | k ∈ refreshedBySearches prepared.searchOps results} (fun k => get_of_refreshed)
          (refreshing (fun k => search_of_refreshed)), ?_⟩
        exact (read.renewed sought.items sought.refreshed (fun _ => Iff.rfl)).congr items ttl
      · cases run

/-- Each get returns what is under its key, and each search items of the map. -/
theorem results_shown (reading : base.ReadsItems) (represents : Represents s m) {c : StoreContents} {prepared : Prepared}
    {results : List ItemResult} {s₁ s₂ : DiskBackedInMemStore}
    (computed : base.prepareOps s.toStoreContents ops = .ok (c, prepared))
    (searched : s₁.search base prepared reply = (s₂, .ok results)) :
    (∀ (i : Nat) op, ops[i]? = some (.get op) →
        ∃ result, results[i]? = some result ∧ ShowsValue result (m.value? (op.ns, op.key))) ∧
      ∀ (i : Nat) op, ops[i]? = some (.search op) → ∃ found, results[i]? = some (.items found) ∧ Lists m found := by
  obtain ⟨_, _, _, searches⟩ := base.prepareOps_law computed
  refine ⟨fun i op at_i => ?_, fun i op at_i => ?_⟩
  · have apart : prepared.searchOps.get? i = none := by
      by_contra listed
      obtain ⟨⟨op', candidates⟩, listed⟩ := Option.ne_none_iff_exists'.mp listed
      have isSearch := (searches i op').mpr ⟨candidates, listed⟩
      rw [at_i] at isSearch
      cases isSearch
    rw [(search_reads searched).2 i apart, reading.gets computed i op at_i]
    refine ⟨_, rfl, ?_⟩
    have here := represents.items (op.ns, op.key)
    change ShowsValue (((s.item? (op.ns, op.key)).map .item).getD .none) _
    cases value : m.value? (op.ns, op.key) with
    | none =>
      rw [value] at here
      rw [here.none_left]
      exact .missing
    | some value =>
      rw [value] at here
      obtain ⟨item, at_k, rfl, _⟩ := here.some_left
      rw [at_k]
      exact .found item
  · obtain ⟨candidates, listed⟩ := (searches i op).mp at_i
    unfold search at searched
    split at searched
    · rename_i empty
      have member := Dict.mem_entries_iff.mpr listed
      rw [List.isEmpty_iff.mp empty] at member
      cases member
    · split at searched
      · cases searched
      · have inside : i < prepared.results.length := by
          rw [reading.length computed]
          exact (List.getElem?_eq_some_iff.mp at_i).1
        obtain ⟨found, returned, from_candidates⟩ :=
          reading.searches (batchSearch_reads searched).2 i op candidates listed inside
        refine ⟨found, returned, fun item member => ?_⟩
        obtain ⟨e, candidate, same⟩ := from_candidates item member
        obtain ⟨k, at_k⟩ := reading.candidates computed i op candidates listed e candidate
        have here := represents.items k
        change s.item? k = some e.1 at at_k
        rw [at_k] at here
        obtain ⟨value, stored, rfl, rfl⟩ := here.some_right
        rw [same, stored]

/-- A batch that returns reads, searches and writes the map. -/
theorem batch_does (reading : base.ReadsItems) {results : List ItemResult} (represents : Represents s m)
    (run : s.batch base estimate ops reply = (s', .ok results)) :
    ∃ m', Does (.abatch ops) reply (.ok (.results results)) m m' ∧ Represents s' m' := by
  obtain ⟨s₁, s₂, prepared, prepare, searched, written⟩ := batch_steps run
  obtain ⟨reads, c, computed⟩ := prepareOps_reads prepare
  obtain ⟨sought, kept⟩ := search_reads searched
  obtain ⟨_, _, last, _⟩ := base.prepareOps_law computed
  obtain ⟨gets, searches⟩ := results_shown reading represents computed searched
  refine ⟨_, .batch gets searches, Represents.written ?_ written last⟩
  have read := represents.renewed reads.items reads.refreshed (fun _ => returnedByGets_kept computed kept)
  exact read.renewed sought.items sought.refreshed (fun _ => returnedBySearches_kept computed)

variable (base estimate reply) in
/-- Each operation at once does what it means for the map. -/
theorem atomically_does (reading : base.ReadsItems) (represents : Represents s m) (op : LockedOp) :
    ∃ m', Does op reply (s.atomically base estimate op reply).2 m m' ∧
      Represents (s.atomically base estimate op reply).1 m' := by
  cases op with
  | sweep => exact ⟨_, sweep_does represents⟩
  | abatch ops =>
    have locking : Represents { s with operationLocked := true } m := represents.congr (fun _ => rfl) rfl
    cases run : { s with operationLocked := true }.batch base estimate ops reply with
    | mk after outcome =>
      rw [atomically, run]
      cases outcome with
      | error e =>
        obtain ⟨m', does, after_m'⟩ := batch_raises locking run
        exact ⟨m', does, after_m'.congr (fun _ => rfl) rfl⟩
      | ok results =>
        obtain ⟨m', does, after_m'⟩ := batch_does reading locking run
        exact ⟨m', does, after_m'.congr (fun _ => rfl) rfl⟩

end Steps

section Refinement

variable {base : InMemoryStore} {estimate : PickleSize} {first s s' : DiskBackedInMemStore} {m₀ m : ItemMap}

variable (base estimate first m₀) in
/-- A store and its map after the same operations, one after the other. -/
inductive InStep : DiskBackedInMemStore → ItemMap → Prop
  | start : InStep first m₀
  | next {s m m'} (op : LockedOp) (reply : StoreReply) : InStep s m →
      Does op reply (s.atomically base estimate op reply).2 m m' → InStep (s.atomically base estimate op reply).1 m'

theorem inStep_of_oneByOne (reading : base.ReadsItems) (represents : Represents first m₀)
    (oneByOne : OneByOne base estimate (fun _ => True) first s) :
    ∃ m, InStep base estimate first m₀ s m ∧ Represents s m := by
  induction oneByOne with
  | start => exact ⟨m₀, .start, represents⟩
  | next call _ _ ih =>
    obtain ⟨m, inStep, here⟩ := ih
    obtain ⟨m', does, after_m'⟩ := atomically_does base estimate call.2 reading here call.1
    exact ⟨m', .next call.1 call.2 inStep does, after_m'⟩

/-- However asynchronous batches and sweeps interleave, the store is a map of
values with leases: each call that ends does to the map what its operation
means and returns what the map says, at its place in the order of the lock. -/
theorem abatch_refines (reading : base.ReadsItems) (represents : Represents first m₀)
    (unlocked : first.operationLocked = false) {l : EventLoop DiskBackedInMemStore ItemCall}
    (reach : (itemCalls base estimate).Reaches Locking ⟨first, []⟩ l) :
    (l.state.operationLocked = false → ∃ m, InStep base estimate first m₀ l.state m ∧ Represents l.state m) ∧
      ∀ k ∈ l.waiting, k.usesLock = true → ∀ reply s' outcome,
        resume base estimate l.state k reply = (s', .finished outcome) →
        ∃ before m op reply' m', InStep base estimate first m₀ before m ∧
          Turn.Leads (resume base estimate) (before, op.call) (l.state, k) ∧ Does op reply' outcome m m' ∧
          InStep base estimate first m₀ s' m' ∧ Represents s' m' := by
  have ordered := locking_ordered unlocked reach
  refine ⟨fun free => ?_, fun k waits uses reply s' outcome ended => ?_⟩
  · exact inStep_of_oneByOne reading represents (oneByOne_of_serially unlocked (ordered.serially free)).1
  · obtain ⟨before, call, replies, serially, new, picked, leads, ends⟩ :=
      ordered.ends_of_mem (itemCalls_mutex base estimate) waits uses ended
    obtain ⟨oneByOne, free⟩ := oneByOne_of_serially unlocked serially
    obtain ⟨op, reply', rfl, same⟩ := lone_endsOn free new picked ends
    obtain ⟨m, inStep, here⟩ := inStep_of_oneByOne reading represents oneByOne
    obtain ⟨m', does, after_m'⟩ := atomically_does base estimate reply' reading here op
    obtain ⟨rfl, rfl⟩ := Prod.mk.inj same
    exact ⟨before, m, op, reply', m', inStep, leads, does, .next op reply' inStep does, after_m'⟩

end Refinement

theorem ofField_readsItems (field : String) (passes : SearchOp → Item → Bool)
    (rank : SearchOp → Candidates → Embeddings → List SearchItem)
    (some_of : ∀ op candidates queries, ∀ item ∈ rank op candidates queries, ∃ e ∈ candidates, item.toItem = e.1) :
    (InMemoryStore.ofField field passes rank).ReadsItems where
  length {c c' ops p} prepare := by
    cases prepare
    exact List.length_map ..
  gets {c c' ops p} prepare i op at_i := by
    cases prepare
    rw [List.getElem?_map, at_i]
    rfl
  candidates {c c' ops p} prepare i op candidates listed e member := by
    cases prepare
    obtain ⟨⟨called, place⟩, _, searched⟩ := List.mem_filterMap.mp (Dict.mem_entries_iff.mpr listed)
    obtain ⟨_, rfl⟩ := InMemoryStore.searchAt?_eq_some.mp searched
    obtain ⟨⟨ns, bucket⟩, inside, member⟩ := List.mem_flatMap.mp member
    obtain ⟨⟨key, item⟩, stored, rfl⟩ := List.mem_map.mp member
    refine ⟨(ns, key), ?_⟩
    rw [StoreContents.item?, Buckets.find?, Dict.mem_entries_iff.mp inside, Option.bind_some]
    exact Dict.mem_entries_iff.mp (List.mem_filter.mp stored).1
  searches {searches queries results results'} searched i op candidates listed inside := by
    cases searched
    refine ⟨rank op candidates queries, ?_, some_of op candidates queries⟩
    rw [List.getElem?_mapIdx, List.getElem?_eq_getElem inside, Option.map_some, listed]

theorem represents_new (estimate : PickleSize) : Represents (load estimate ⟨.empty, .empty⟩ .empty) (fun _ => none) := by
  obtain ⟨consistent, contents⟩ := load_consistent estimate ⟨.empty, .empty⟩ .empty
  have missing : ∀ k, (load estimate ⟨.empty, .empty⟩ .empty).item? k = none := fun k => by rw [contents]; rfl
  refine ⟨fun k => ?_, fun k => ?_⟩
  · rw [missing]
    exact .none
  · cases at_k : (load estimate ⟨.empty, .empty⟩ .empty).ttl.get? k with
    | none => exact .none
    | some record =>
      have owned := consistent.ttlOwned k record at_k
      rw [missing] at owned
      cases owned

theorem textIndex_readsItems : textIndex.ReadsItems := by
  refine ofField_readsItems _ _ _ (fun op candidates queries item member => ?_)
  obtain ⟨e, taken, rfl⟩ := List.mem_map.mp member
  exact ⟨e, List.mem_of_mem_drop (List.mem_of_mem_take taken), rfl⟩

theorem abatch_refines_overlap :
    ∃ (l : EventLoop DiskBackedInMemStore ItemCall) (m : ItemMap), l.waiting.length = 1 ∧
      InStep textIndex countedSize (load countedSize ⟨.empty, .empty⟩ .empty) (fun _ => none) l.state m ∧
      (m.value? (["notes"], "b")).isSome = true ∧ (m.lease? (["notes"], "b")).isSome = false := by
  have reach := Coroutines.Reaches.performAllIf .start (Option.some_get sweepWhileEmbedding_performed).symm
  obtain ⟨m, inStep, represents⟩ :=
    (abatch_refines textIndex_readsItems (represents_new countedSize) rfl reach).1 (by decide +kernel)
  refine ⟨_, m, ?_, inStep, ?_, ?_⟩
  · decide +kernel
  · rw [(represents.items (["notes"], "b")).isSome_eq]
    decide +kernel
  · rw [(represents.records (["notes"], "b")).isSome_eq]
    decide +kernel

end DiskBackedInMemStore

end InmemRuntime
