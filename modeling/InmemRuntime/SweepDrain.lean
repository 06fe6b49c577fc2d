import InmemRuntime.SweepExact

namespace InmemRuntime

namespace Threads

/-- All threads that are due, in the order in which sweeps take them. -/
def dueList (s : Runtime) (now : Time) : List Expired := (s.threads.values.filterMap (dueNow s now)).mergeSort Expired.le

theorem dueItems_eq (s : Runtime) {limit : Option Int} {count : Option Nat} (now : Time)
    (readable : effectiveLimit s.config limit = .ok count) :
    dueItems s limit now = count.elim (dueList s now) (dueList s now).take := by
  rw [dueItems, readable]
  cases count <;> rfl

section Lists

variable {s : Runtime} {now : Time}

theorem mem_dueList {item : Expired} : item ∈ dueList s now ↔ ∃ thread ∈ s.threads.values, dueNow s now thread = some item := by
  rw [dueList, (List.mergeSort_perm _ _).mem_iff, List.mem_filterMap]

theorem dueList_sorted (s : Runtime) (now : Time) : (dueList s now).Pairwise (fun a b => a.le b = true) :=
  List.pairwise_mergeSort Expired.le_trans Expired.le_total _

theorem dueList_ids (distinct : s.threadIds.Nodup) (now : Time) : ((dueList s now).map Expired.threadId).Nodup :=
  ((List.mergeSort_perm _ _).map _).nodup_iff.mpr (distinct.sublist (filterMap_dueNow_ids s now _))

/-- A sorted list of items with distinct ids is determined by its items. -/
theorem sorted_unique {one other : List Expired} (distinct : (one.map Expired.threadId).Nodup)
    (distinct' : (other.map Expired.threadId).Nodup) (sorted : one.Pairwise (fun a b => a.le b = true))
    (sorted' : other.Pairwise (fun a b => a.le b = true)) (same : ∀ item, item ∈ one ↔ item ∈ other) : one = other := by
  have perm := (List.perm_ext_iff_of_nodup distinct.of_map distinct'.of_map).mpr same
  refine perm.eq_of_pairwise (fun a b inside inside' before after => ?_) sorted sorted'
  rw [Expired.le_iff, Expired.Before] at before after
  have bits : a.threadId.bits.toNat = b.threadId.bits.toNat := by
    rcases before with less | ⟨_, le⟩
    · rcases after with greater | ⟨same, _⟩
      · exact absurd greater (lt_asymm less)
      · exact absurd same.symm less.ne
    · rcases after with greater | ⟨_, ge⟩
      · exact absurd greater (by simp_all)
      · exact Nat.le_antisymm le ge
  have ids : a.threadId = b.threadId := by
    have bits' := BitVec.eq_of_toNat_eq bits
    cases one : a.threadId
    cases other : b.threadId
    rw [one, other] at bits'
    exact congrArg Uuid.mk bits'
  exact List.inj_on_of_nodup_map distinct inside ((same b).mpr inside') ids

/-- Of a sorted list the items that are due earlier come first. -/
theorem filter_prefix {items : List Expired} (sorted : items.Pairwise (fun a b => a.le b = true)) (now : Time) :
    items.filter (fun item => item.expiresAt ≤ now) <+: items := by
  induction items with
  | nil => exact List.prefix_rfl
  | cons item items ih =>
    obtain ⟨first, rest⟩ := List.pairwise_cons.mp sorted
    by_cases due : item.expiresAt ≤ now
    · rw [List.filter_cons_of_pos (by simpa using due)]
      exact List.cons_prefix_cons.mpr ⟨rfl, ih rest⟩
    · have none : (item :: items).filter (fun item => item.expiresAt ≤ now) = [] := by
        refine List.filter_eq_nil_iff.mpr (fun other member => ?_)
        rcases List.mem_cons.mp member with rfl | later
        · simpa using due
        · have before := first other later
          rw [Expired.le_iff, Expired.Before] at before
          have after : item.expiresAt ≤ other.expiresAt := before.elim le_of_lt (fun same => same.1.le)
          exact fun early => due (after.trans (by simpa using early))
      rw [none]
      exact List.nil_prefix

/-- Dropping the first items by their ids. -/
theorem filter_drop {first items : List Expired} (distinct : (items.map Expired.threadId).Nodup) (starts : first <+: items) :
    items.filter (fun item => item.threadId ∉ first.map Expired.threadId) = items.drop first.length := by
  obtain ⟨rest, rfl⟩ := starts
  rw [List.map_append, List.nodup_append] at distinct
  obtain ⟨_, _, apart⟩ := distinct
  rw [List.filter_append, List.drop_left, List.filter_eq_nil_iff.mpr (fun item member => ?_), List.nil_append,
    List.filter_eq_self.mpr (fun item member => ?_)]
  · have other : item.threadId ∉ first.map Expired.threadId :=
      fun inside => apart _ inside _ (List.mem_map_of_mem member) rfl
    simpa using other
  · simpa using ⟨item, member, rfl⟩

/-- What is due at a time is due later too. -/
theorem dueNow_earlier {now' : Time} (le : now ≤ now') (thread : Thread) :
    dueNow s now thread = (dueNow s now' thread).filter (fun item => item.expiresAt ≤ now) := by
  unfold dueNow
  split
  · rfl
  · split
    · split
      · rfl
      · rename_i config state _ _
        cases unboundedExpiry config thread.updatedAt with
        | none => rfl
        | some expiry =>
          by_cases due : expiry ≤ now
          · simp [Option.filter, due, due.trans le]
          · by_cases later : expiry ≤ now' <;> simp [Option.filter, due, later]
    · rfl

theorem dueList_earlier (distinct : s.threadIds.Nodup) {now' : Time} (le : now ≤ now') :
    dueList s now = (dueList s now').filter (fun item => item.expiresAt ≤ now) := by
  have ids := dueList_ids distinct now'
  refine sorted_unique (dueList_ids distinct now) (ids.sublist (List.filter_sublist.map _)) (dueList_sorted s now)
    ((dueList_sorted s now').filter _) (fun item => ?_)
  rw [mem_dueList, List.mem_filter, mem_dueList]
  constructor
  · rintro ⟨thread, member, due⟩
    rw [dueNow_earlier le, Option.filter_eq_some_iff] at due
    exact ⟨⟨thread, member, due.1⟩, due.2⟩
  · rintro ⟨⟨thread, member, due⟩, early⟩
    refine ⟨thread, member, ?_⟩
    rw [dueNow_earlier le, Option.filter_eq_some_iff]
    exact ⟨due, early⟩

end Lists

section Swept

variable {s s' : Runtime} {items : List Expired} {now : Time}

theorem Swept.mem_threads (swept : Swept items s s') {thread : Thread} :
    thread ∈ s'.threads.values ↔ thread ∈ s.threads.values ∧ thread.threadId ∉ deletedIds items := by
  rw [swept.threads, List.mem_filter, decide_eq_true_eq]

/-- The thread of a stored id that a sweep has taken and not deleted is marked. -/
theorem Swept.marked_of_mem (swept : Swept items s s') {threadId : Uuid} (taken : threadId ∈ items.map Expired.threadId)
    (kept : threadId ∉ deletedIds items) :
    ∃ item ∈ items, item.threadId = threadId ∧ item.isDelete = false ∧
      s'.threadTtls.get? threadId.str = some item.marked := by
  obtain ⟨item, member, rfl⟩ := List.mem_map.mp taken
  have isKeep : item.isDelete = false := by
    by_contra deletes
    exact kept (List.mem_map_of_mem (List.mem_filter.mpr ⟨member, by simpa using deletes⟩))
  exact ⟨item, member, rfl, isKeep, swept.marked item member isKeep⟩

theorem not_mem_texts {threadId : Uuid} (absent : threadId ∉ items.map Expired.threadId) :
    threadId.str ∉ items.map (fun item => item.threadId.str) := by
  rintro inside
  obtain ⟨item, member, same⟩ := List.mem_map.mp inside
  exact absent (List.mem_map.mpr ⟨item, member, Uuid.str_inj.mp same⟩)

/-- The policy that a thread has after a sweep that took it and did not delete it. -/
theorem Swept.policy_of_marked (swept : Swept items s s') {item : Expired} {thread : Thread}
    (due : dueNow s now thread = some item) (marked : s'.threadTtls.get? thread.threadId.str = some item.marked) :
    effectiveThreadTtl s'.config.threadTtl s'.threadTtls thread.threadId = .ok (some item.config, item.marked) := by
  have policy := (dueNow_iff.mp due).policy
  have stored := effectiveThreadTtl_state policy
  have minutes : item.marked.ttlMinutes = item.state.ttlMinutes := rfl
  have strategy : item.marked.strategy = item.state.strategy := rfl
  simp only [effectiveThreadTtl, stored] at policy
  simp only [effectiveThreadTtl, swept.config, marked, Option.getD_some, minutes, strategy]
  cases own : item.state.ttlMinutes with
  | some value =>
    rw [own] at policy
    simp only [Except.ok.injEq, Prod.mk.injEq, and_true] at policy
    dsimp only
    rw [policy]
  | none =>
    rw [own] at policy
    obtain ⟨config, normalized, same⟩ := bind_ok policy
    simp only [Except.ok.injEq, Prod.mk.injEq, and_true] at same
    dsimp only
    rw [normalized, same]
    rfl

/-- A thread that a sweep leaves is due after it if the sweep has not taken it. -/
theorem Swept.dueNow (swept : Swept items s s') {limitTime : Time}
    (due : ∀ item ∈ items, ∃ thread ∈ s.threads.values, Threads.dueNow s limitTime thread = some item)
    (distinct : s.threadIds.Nodup) {thread : Thread} (stays : thread ∈ s'.threads.values) :
    Threads.dueNow s' now thread =
      if thread.threadId ∈ items.map Expired.threadId then none else Threads.dueNow s now thread := by
  obtain ⟨stored, kept⟩ := swept.mem_threads.mp stays
  split
  · rename_i taken
    obtain ⟨item, member, ofThread, isKeep, marked⟩ := swept.marked_of_mem taken kept
    obtain ⟨thread', stored', dueItem⟩ := due item member
    obtain rfl : thread' = thread :=
      List.inj_on_of_nodup_map distinct stored' stored ((dueNow_threadId dueItem).symm.trans ofThread)
    have policy := swept.policy_of_marked dueItem marked
    have strategy : item.config.strategy = .keepLatest := by
      cases same : item.config.strategy with
      | keepLatest => rfl
      | delete => simp [Expired.isDelete, same] at isKeep
    have already : alreadySwept item.config item.marked thread'.updatedAt = true := by
      simp [alreadySwept, strategy, Expired.marked, (dueNow_iff.mp dueItem).updatedAt]
    unfold Threads.dueNow
    rw [policy]
    dsimp only
    rw [if_pos already, ite_self]
  · rename_i absent
    have active : thread.threadId ∈ activeThreadIds s'.toGlobalStore ↔ thread.threadId ∈ activeThreadIds s.toGlobalStore := by
      simp only [activeThreadIds, swept.runs, List.mem_map, List.mem_filter, decide_eq_true_eq]
      constructor
      · rintro ⟨run, ⟨⟨member, _⟩, isActive⟩, same⟩
        exact ⟨run, ⟨member, isActive⟩, same⟩
      · rintro ⟨run, ⟨member, isActive⟩, same⟩
        exact ⟨run, ⟨⟨member, same ▸ kept⟩, isActive⟩, same⟩
    have policy : effectiveThreadTtl s'.config.threadTtl s'.threadTtls thread.threadId =
        effectiveThreadTtl s.config.threadTtl s.threadTtls thread.threadId := by
      rw [effectiveThreadTtl, effectiveThreadTtl, swept.config, swept.others _ (not_mem_texts absent)]
    unfold Threads.dueNow
    rw [policy]
    simp only [active]

/-- What is due after a sweep is what was due and was not taken. -/
theorem Swept.dueList (swept : Swept items s s') {limitTime : Time} (distinct : s.threadIds.Nodup)
    (due : ∀ item ∈ items, ∃ thread ∈ s.threads.values, Threads.dueNow s limitTime thread = some item) (now : Time) :
    Threads.dueList s' now =
      (Threads.dueList s now).filter (fun item => item.threadId ∉ items.map Expired.threadId) := by
  have distinct' : s'.threadIds.Nodup := swept.threadIds ▸ distinct.filter _
  refine sorted_unique (dueList_ids distinct' now) ((dueList_ids distinct now).sublist (List.filter_sublist.map _))
    (dueList_sorted s' now) ((dueList_sorted s now).filter _) (fun item => ?_)
  rw [mem_dueList, List.mem_filter, mem_dueList]
  constructor
  · rintro ⟨thread, stays, isDue⟩
    rw [swept.dueNow due distinct stays] at isDue
    split at isDue
    · cases isDue
    · rename_i absent
      rw [dueNow_threadId isDue]
      exact ⟨⟨thread, (swept.mem_threads.mp stays).1, isDue⟩, by simpa using absent⟩
  · rintro ⟨⟨thread, stored, isDue⟩, absent⟩
    rw [dueNow_threadId isDue, decide_eq_true_eq] at absent
    have stays : thread ∈ s'.threads.values := by
      refine swept.mem_threads.mpr ⟨stored, fun deleted => absent ?_⟩
      obtain ⟨other, member, same⟩ := List.mem_map.mp deleted
      exact List.mem_map.mpr ⟨other, (List.mem_filter.mp member).1, same⟩
    refine ⟨thread, stays, ?_⟩
    rw [swept.dueNow due distinct stays, if_neg absent]
    exact isDue

/-- What a sweep needs to read the store, and what it leaves so. -/
structure Legible (s : Runtime) : Prop where
  distinct : s.threadIds.Nodup
  accepted : AcceptedTtls s
  fits : ∀ thread ∈ s.threads.values, ThreadExpiryFits s thread

/-- A marked thread keeps the TTL that it had been given. -/
theorem Swept.accepted (swept : Swept items s s') {limitTime : Time} (accepted : AcceptedTtls s)
    (due : ∀ item ∈ items, ∃ thread ∈ s.threads.values, Threads.dueNow s limitTime thread = some item) : AcceptedTtls s' := by
  refine ⟨swept.config ▸ accepted.policy, ?_⟩
  intro key state minutes at_key isOverride
  by_cases taken : key ∈ items.map (fun item => item.threadId.str)
  · obtain ⟨item, member, rfl⟩ := List.mem_map.mp taken
    by_cases deletes : item.isDelete = true
    · rw [swept.deleted item member deletes] at at_key
      cases at_key
    · rw [swept.marked item member (by simpa using deletes)] at at_key
      cases at_key
      obtain ⟨thread, _, dueItem⟩ := due item member
      have stored := effectiveThreadTtl_state (dueNow_iff.mp dueItem).policy
      change item.state.ttlMinutes = some minutes at isOverride
      change ∃ config strategy, normalizeTtlConfig (some config) = .ok (some ⟨strategy, minutes⟩) ∧
        item.state.strategy = some strategy
      cases old : s.threadTtls.get? thread.threadId.str with
      | none =>
        rw [old] at stored
        rw [← stored] at isOverride
        cases isOverride
      | some state =>
        rw [old, Option.getD_some] at stored
        subst stored
        exact accepted.overrides _ _ minutes old isOverride
  · rw [swept.others key taken] at at_key
    exact accepted.overrides key state minutes at_key isOverride

/-- The expiry of a marked thread is not computed any more. -/
theorem Swept.fits (swept : Swept items s s') {limitTime : Time} (distinct : s.threadIds.Nodup)
    (fits : ∀ thread ∈ s.threads.values, ThreadExpiryFits s thread)
    (due : ∀ item ∈ items, ∃ thread ∈ s.threads.values, Threads.dueNow s limitTime thread = some item) :
    ∀ thread ∈ s'.threads.values, ThreadExpiryFits s' thread := by
  intro thread stays
  obtain ⟨stored, kept⟩ := swept.mem_threads.mp stays
  by_cases taken : thread.threadId ∈ items.map Expired.threadId
  · obtain ⟨item, member, ofThread, isKeep, marked⟩ := swept.marked_of_mem taken kept
    obtain ⟨thread', stored', dueItem⟩ := due item member
    obtain rfl : thread' = thread :=
      List.inj_on_of_nodup_map distinct stored' stored ((dueNow_threadId dueItem).symm.trans ofThread)
    intro config state policy fresh
    rw [swept.policy_of_marked dueItem marked] at policy
    cases policy
    have strategy : item.config.strategy = .keepLatest := by
      cases same : item.config.strategy with
      | keepLatest => rfl
      | delete => simp [Expired.isDelete, same] at isKeep
    simp [alreadySwept, strategy, Expired.marked, (dueNow_iff.mp dueItem).updatedAt] at fresh
  · have policy : effectiveThreadTtl s'.config.threadTtl s'.threadTtls thread.threadId =
        effectiveThreadTtl s.config.threadTtl s.threadTtls thread.threadId := by
      rw [effectiveThreadTtl, effectiveThreadTtl, swept.config, swept.others _ (not_mem_texts taken)]
    intro config state
    rw [policy]
    exact fits thread stored config state

theorem Swept.legible (swept : Swept items s s') {limitTime : Time} (legible : Legible s)
    (due : ∀ item ∈ items, ∃ thread ∈ s.threads.values, Threads.dueNow s limitTime thread = some item) : Legible s' where
  distinct := swept.threadIds ▸ legible.distinct.filter _
  accepted := swept.accepted legible.accepted due
  fits := swept.fits legible.distinct legible.fits due

end Swept

/-- What sweeping the threads of a list leaves of the memory: each thread that is
kept is pruned as it is by itself, nothing is left of those that are deleted, and
the others are as they were. -/
structure SweptMemory (serde : Serde) (items : List Expired) (m m' : Memory) : Prop where
  pruned : ∀ item ∈ items, item.isDelete = false → PrunedAlone serde m m' item.threadId.str
  dropped : ∀ item ∈ items, item.isDelete = true → NoData m' item.threadId.str
  others : ∀ threadId, threadId ∉ items.map (fun item => item.threadId.str) → SameThread m m' threadId

theorem SweptMemory.refl (serde : Serde) (m : Memory) : SweptMemory serde [] m m where
  pruned _ member := absurd member List.not_mem_nil
  dropped _ member := absurd member List.not_mem_nil
  others threadId _ := .refl m threadId

theorem SweptExactly.memory {serde : Serde} {s s' : Runtime} {call : SweepCall} {items : List Expired}
    {outcome : SweepOutcome} (swept : SweptExactly serde s s' call items outcome) :
    SweptMemory serde items s.memory s'.memory :=
  ⟨swept.pruned, swept.dropped, swept.others⟩

/-- Sweeps over different threads, one after the other, leave what one over all of them does. -/
theorem SweptMemory.append {serde : Serde} {items later : List Expired} {m m₁ m' : Memory}
    (one : SweptMemory serde items m m₁) (two : SweptMemory serde later m₁ m')
    (apart : ∀ item ∈ items, item.threadId ∉ later.map Expired.threadId) : SweptMemory serde (items ++ later) m m' := by
  have still : ∀ item ∈ items, SameThread m₁ m' item.threadId.str :=
    fun item member => two.others _ (not_mem_texts (apart item member))
  have before : ∀ item ∈ later, SameThread m m₁ item.threadId.str := by
    intro item member
    refine one.others _ (not_mem_texts (fun inside => ?_))
    obtain ⟨other, first, same⟩ := List.mem_map.mp inside
    exact apart other first (same ▸ List.mem_map_of_mem member)
  constructor
  · intro item member isKeep
    rcases List.mem_append.mp member with first | second
    · exact (one.pruned item first isKeep).followed (still item first)
    · exact (two.pruned item second isKeep).of_sameThread (before item second)
  · intro item member isDelete
    rcases List.mem_append.mp member with first | second
    · exact (one.dropped item first isDelete).of_sameThread (still item first)
    · exact two.dropped item second isDelete
  · intro threadId outside
    rw [List.map_append, List.mem_append, not_or] at outside
    exact (one.others threadId outside.1).trans (two.others threadId outside.2)

section Sweeps

variable (base : BaseSaver) (serde : Serde) (fuel : Nat)

/-- Sweeps that run one after another, as `thread_ttl_sweep_loop` makes them, and nothing in between. -/
inductive SweepRun : Runtime → List (SweepCall × Reply) → List (Except PyError SweepOutcome) → Runtime → Prop
  | done (s) : SweepRun s [] [] s
  | sweep {s call reply s₁ outcome sweeps outcomes s'} :
      Turn.Ends (Sweep.resume base serde fuel) reply (Sweep.resume base serde fuel s (.called call) reply) s₁ outcome →
      SweepRun s₁ sweeps outcomes s' → SweepRun s ((call, reply) :: sweeps) (outcome :: outcomes) s'

end Sweeps

/-- The sweep may take at least so many threads, and its clock lies between the two times. -/
structure Timely (config : ApiConfig) (least : Nat) (first last : Time) (sweep : SweepCall × Reply) : Prop where
  answered : ∃ value, sweep.2.answer = .ok value
  limit : ∃ count, effectiveLimit config sweep.1.limit = .ok count ∧ ∀ limit, count = some limit → least ≤ limit
  after : first ≤ sweep.2.now
  before : sweep.2.now ≤ last

section Drain

variable {base : BaseSaver} {serde : Serde} {fuel : Nat} {s s' : Runtime} {call : SweepCall} {reply : Reply}
  {least : Nat} {first last : Time}

theorem dueItems_due (s : Runtime) (limit : Option Int) (now : Time) :
    ∀ item ∈ dueItems s limit now, ∃ thread ∈ s.threads.values, dueNow s now thread = some item := by
  intro item member
  obtain ⟨sorted, sublist, perm⟩ := dueItems_sublist s now limit
  exact List.mem_filterMap.mp (perm.subset (sublist.subset member))

/-- A timely sweep runs its loop over what is due. -/
theorem sweep_ends_iff (legible : Legible s) (positive : 1 ≤ least) (timely : Timely s.config least first last (call, reply))
    {outcome : Except PyError SweepOutcome} :
    Turn.Ends (Sweep.resume base serde fuel) reply (Sweep.resume base serde fuel s (.called call) reply) s' outcome ↔
      ∃ frame, (sweepWork call.batchSize (dueItems s call.limit reply.now)).foldlM (SweepWork.perform base serde fuel)
        (s, .first s call reply.now (dueItems s call.limit reply.now)) = some (s', frame) ∧
          outcome = .ok (frame.outcome s') := by
  obtain ⟨⟨value, answered⟩, ⟨count, readable, enough⟩, _, _⟩ := timely
  have late : ¬ call.limit.any (fun limit => limit ≤ 0) = true := by
    cases limited : call.limit with
    | none => simp
    | some limit =>
      rw [limited] at readable
      have small := enough limit.toNat (Except.ok.inj readable).symm
      simp only [Option.any_some, decide_eq_true_eq]
      omega
  rw [called_ends_iff answered, Sweep.start, if_neg late,
    selectExpired_of_fits reply.now legible.accepted legible.fits readable, attempt_ok]
  exact loop_ends_iff answered

/-- What one timely sweep does. The checkpoints are those of the built-in
checkpointer, where it is in use. -/
theorem sweep_takes (legible : Legible s) (positive : 1 ≤ least) (timely : Timely s.config least first last (call, reply))
    {outcome : Except PyError SweepOutcome}
    (ends : Turn.Ends (Sweep.resume base serde fuel) reply (Sweep.resume base serde fuel s (.called call) reply) s' outcome) :
    ∃ result, outcome = .ok result ∧ Swept (dueItems s call.limit reply.now) s s' ∧
      (s.config.useCustomCheckpointer = false →
        SweptMemory serde (dueItems s call.limit reply.now) s.memory s'.memory) ∧
      result.processed = (dueItems s call.limit reply.now).length ∧
      result.deleted = ((dueItems s call.limit reply.now).filter Expired.isDelete).length := by
  obtain ⟨frame, performed, result⟩ := (sweep_ends_iff legible positive timely).mp ends
  obtain ⟨apart, stored⟩ := dueItems_ids reply.now legible.distinct call.limit
  obtain ⟨swept, _, _, processed, deleted⟩ :=
    performAll_swept legible.distinct (by rwa [taken_sweepWork]) (by rwa [taken_sweepWork]) performed
  rw [taken_sweepWork] at swept processed deleted
  exact ⟨_, result, swept,
    fun builtin => (performAll_exactly builtin legible.distinct apart stored performed).memory,
    by simpa [SweepFrame.outcome, SweepFrame.first] using processed,
    by simpa [SweepFrame.outcome, SweepFrame.first] using deleted⟩

/-- What a timely sweep takes comes first of what is due at the end, and is as much as it may take. -/
theorem dueItems_prefix (legible : Legible s) (timely : Timely s.config least first last (call, reply)) :
    dueItems s call.limit reply.now <+: dueList s last ∧
      min least (dueList s first).length ≤ (dueItems s call.limit reply.now).length := by
  obtain ⟨_, ⟨count, readable, enough⟩, after, before⟩ := timely
  have starts : dueList s reply.now <+: dueList s last := by
    rw [dueList_earlier legible.distinct before]
    exact filter_prefix (dueList_sorted s last) _
  have grows : (dueList s first).length ≤ (dueList s reply.now).length := by
    rw [dueList_earlier legible.distinct after]
    exact List.length_filter_le _ _
  rw [dueItems_eq s reply.now readable]
  cases count with
  | none => exact ⟨starts, (Nat.min_le_right _ _).trans grows⟩
  | some limit =>
    refine ⟨(List.take_prefix _ _).trans starts, ?_⟩
    have room := enough limit rfl
    rw [Option.elim_some, List.length_take]
    omega

/-- Sweeps have taken the oldest of what was due, and of what was due at the first
time as much as they may, and have left what one sweep over these threads leaves. -/
structure Drained (serde : Serde) (s s' : Runtime) (first last : Time) (room : Nat)
    (outcomes : List (Except PyError SweepOutcome)) (items : List Expired) : Prop where
  oldest : items <+: dueList s last
  enough : min room (dueList s first).length ≤ items.length
  swept : Swept items s s'
  memory : s.config.useCustomCheckpointer = false → SweptMemory serde items s.memory s'.memory
  counted : ∃ results : List SweepOutcome, outcomes = results.map .ok ∧
    (results.map SweepOutcome.processed).sum = items.length ∧
    (results.map SweepOutcome.deleted).sum = (items.filter Expired.isDelete).length

theorem Drained.done (serde : Serde) (s : Runtime) (first last : Time) : Drained serde s s first last 0 [] [] where
  oldest := List.nil_prefix
  enough := by rw [Nat.zero_min]; exact Nat.zero_le _
  swept := .refl _ _ rfl rfl rfl rfl rfl
  memory _ := .refl serde s.memory
  counted := ⟨[], rfl, rfl, rfl⟩

theorem dueList_first (distinct : s.threadIds.Nodup) (le : first ≤ last) : dueList s first <+: dueList s last := by
  rw [dueList_earlier distinct le]
  exact filter_prefix (dueList_sorted s last) _

/-- A sweep and those after it. -/
theorem Drained.sweep {s₁ : Runtime} {room : Nat} {outcomes : List (Except PyError SweepOutcome)} {items : List Expired}
    (legible : Legible s) (timely : Timely s.config least first last (call, reply)) {result : SweepOutcome}
    (swept : Swept (dueItems s call.limit reply.now) s s₁)
    (memory : s.config.useCustomCheckpointer = false →
      SweptMemory serde (dueItems s call.limit reply.now) s.memory s₁.memory)
    (processed : result.processed = (dueItems s call.limit reply.now).length)
    (deleted : result.deleted = ((dueItems s call.limit reply.now).filter Expired.isDelete).length)
    (later : Drained serde s₁ s' first last room outcomes items) :
    Drained serde s s' first last (room + least) (.ok result :: outcomes) (dueItems s call.limit reply.now ++ items) := by
  obtain ⟨starts, much⟩ := dueItems_prefix legible timely
  have due := dueItems_due s call.limit reply.now
  have left := swept.dueList legible.distinct due
  generalize dueItems s call.limit reply.now = taken at starts much due left swept memory processed deleted ⊢
  have rest : dueList s₁ last = (dueList s last).drop taken.length := by
    rw [left, filter_drop (dueList_ids legible.distinct last) starts]
  have enough : (dueList s first).length ≤ taken.length + (dueList s₁ first).length := by
    rcases List.prefix_or_prefix_of_prefix starts (dueList_first legible.distinct (timely.after.trans timely.before)) with
      inside | all
    · rw [left, filter_drop (dueList_ids legible.distinct first) inside, List.length_drop]
      omega
    · exact all.length_le.trans (Nat.le_add_right _ _)
  have apart : ∀ item ∈ taken, item.threadId ∉ items.map Expired.threadId := by
    intro item member again
    obtain ⟨other, inside, same⟩ := List.mem_map.mp again
    have unseen := later.oldest.subset inside
    rw [left, List.mem_filter, decide_eq_true_eq] at unseen
    exact unseen.2 (same ▸ List.mem_map_of_mem member)
  refine ⟨?_, ?_, swept.trans later.swept apart,
    fun builtin => (memory builtin).append (later.memory (swept.config ▸ builtin)) apart, ?_⟩
  · have whole : dueList s last = taken ++ dueList s₁ last := by
      rw [rest]
      exact List.prefix_iff_eq_append.mp starts |>.symm
    rw [whole]
    exact (List.prefix_append_right_inj taken).mpr later.oldest
  · have before := later.enough
    rw [List.length_append]
    omega
  · obtain ⟨results, all, processed', deleted'⟩ := later.counted
    refine ⟨result :: results, by rw [all, List.map_cons], ?_, ?_⟩
    · rw [List.map_cons, List.sum_cons, processed, processed', List.length_append]
    · rw [List.map_cons, List.sum_cons, deleted, deleted', List.filter_append, List.length_append]

theorem drained_of_run {sweeps : List (SweepCall × Reply)} {outcomes : List (Except PyError SweepOutcome)}
    (run : SweepRun base serde fuel s sweeps outcomes s') (legible : Legible s) (positive : 1 ≤ least)
    (timely : ∀ sweep ∈ sweeps, Timely s.config least first last sweep) :
    ∃ items, Drained serde s s' first last (sweeps.length * least) outcomes items := by
  induction run with
  | done s =>
    rw [List.length_nil, Nat.zero_mul]
    exact ⟨[], .done serde s first last⟩
  | @sweep s call reply s₁ outcome sweeps outcomes s' ends run ih =>
    obtain ⟨now, others⟩ := List.forall_mem_cons.mp timely
    obtain ⟨result, rfl, swept, memory, processed, deleted⟩ := sweep_takes legible positive now ends
    obtain ⟨items, drained⟩ := ih (swept.legible legible (dueItems_due s call.limit reply.now)) (swept.config ▸ others)
    rw [List.length_cons, Nat.succ_mul]
    exact ⟨_, drained.sweep legible now swept memory processed deleted⟩

/-- The work of a sweep ends, and leaves no cycle of parents. -/
theorem performAll_ends (base : BaseSaver) (serde : Serde) (frame : SweepFrame) (ends : PrunesEnd s) (work : List SweepWork) :
    ∃ last, Fuel.Settles (fun fuel => work.foldlM (SweepWork.perform base serde fuel) (s, frame)) last ∧ PrunesEnd last.1 :=
  Fuel.exists_settles_foldlM (fun fuel at' step => SweepWork.perform base serde fuel at' step)
    (fun at' => PrunesEnd at'.1) work (s, frame) (fun at' ends step _ => perform_settles base serde at' ends step) ends

theorem sweeps_end {sweeps : List (SweepCall × Reply)} (legible : Legible s) (ends : PrunesEnd s) (positive : 1 ≤ least)
    (timely : ∀ sweep ∈ sweeps, Timely s.config least first last sweep) :
    ∃ enough, ∀ fuel, enough ≤ fuel → ∃ outcomes s', SweepRun base serde fuel s sweeps outcomes s' := by
  induction sweeps generalizing s with
  | nil => exact ⟨0, fun fuel _ => ⟨[], s, .done s⟩⟩
  | cons sweep sweeps ih =>
    obtain ⟨call, reply⟩ := sweep
    obtain ⟨now, others⟩ := List.forall_mem_cons.mp timely
    obtain ⟨⟨s₁, frame⟩, ⟨enough, settled⟩, ends₁⟩ := performAll_ends base serde
      (.first s call reply.now (dueItems s call.limit reply.now)) ends
      (sweepWork call.batchSize (dueItems s call.limit reply.now))
    have made (fuel : Nat) (le : enough ≤ fuel) := (sweep_ends_iff legible positive now).mpr ⟨frame, settled fuel le, rfl⟩
    obtain ⟨_, _, swept, _, _, _⟩ := sweep_takes legible positive now (made enough le_rfl)
    obtain ⟨more, runs⟩ := ih (swept.legible legible (dueItems_due s call.limit reply.now)) ends₁ (swept.config ▸ others)
    refine ⟨max enough more, fun fuel le => ?_⟩
    obtain ⟨outcomes, s', run⟩ := runs fuel (le_of_max_le_right le)
    exact ⟨_, s', .sweep (made fuel (le_of_max_le_left le)) run⟩

/-- Sweep after sweep takes the oldest threads that are due first, each of them once,
and after enough sweeps nothing is due that was due when they began. -/
theorem sweeps_drain {sweeps : List (SweepCall × Reply)} (base : BaseSaver) (serde : Serde) (legible : Legible s)
    (positive : 1 ≤ least) (timely : ∀ sweep ∈ sweeps, Timely s.config least first last sweep) :
    (PrunesEnd s → ∃ enough, ∀ fuel, enough ≤ fuel → ∃ outcomes s', SweepRun base serde fuel s sweeps outcomes s') ∧
      ∀ fuel outcomes s', SweepRun base serde fuel s sweeps outcomes s' →
        (∃ items, Drained serde s s' first last (sweeps.length * least) outcomes items) ∧
          ((dueList s first).length ≤ sweeps.length * least → dueList s' first = []) := by
  refine ⟨fun ends => sweeps_end legible ends positive timely, fun fuel outcomes s' run => ?_⟩
  obtain ⟨items, drained⟩ := drained_of_run run legible positive timely
  refine ⟨⟨items, drained⟩, fun few => ?_⟩
  have due : ∀ item ∈ items, ∃ thread ∈ s.threads.values, dueNow s last thread = some item :=
    fun item member => mem_dueList.mp (drained.oldest.subset member)
  rw [drained.swept.dueList legible.distinct due]
  refine List.filter_eq_nil_iff.mpr (fun item member => ?_)
  have within : dueList s first <+: items := by
    cases sweeps with
    | nil =>
      rw [List.length_nil, Nat.zero_mul, Nat.le_zero] at few
      rw [List.length_eq_zero_iff.mp few]
      exact List.nil_prefix
    | cons sweep sweeps =>
      obtain ⟨_, _, after, before⟩ := timely sweep List.mem_cons_self
      have enough := drained.enough
      rw [Nat.min_eq_right few] at enough
      exact List.prefix_of_prefix_length_le (dueList_first legible.distinct (after.trans before)) drained.oldest enough
  simpa using ⟨item, within.subset member, rfl⟩

end Drain

section Two

/-- A sweep that takes one thread. -/
def oneByOne : SweepCall × Reply := (⟨some 1, 100, true⟩, plainReply)

theorem twoExpired_legible : Legible (twoExpired none) := by
  refine ⟨by decide, ⟨⟨none, rfl⟩, fun key state minutes at_key given => ?_⟩, twoExpired_fits none⟩
  rw [← Dict.mem_entries_iff] at at_key
  have either : (key, state) = ((⟨1⟩ : Uuid).str, ⟨some .keepLatest, some (.finite 0), none⟩) ∨
      (key, state) = ((⟨2⟩ : Uuid).str, ⟨some .delete, some (.finite 0), none⟩) := by
    simpa using (show (key, state) ∈ [_, _] from at_key)
  rcases either with first | second
  · cases first
    cases given
    exact ⟨[("ttl", .int 0), ("strategy", .str "keep_latest")], _, by decide +kernel, rfl⟩
  · cases second
    cases given
    exact ⟨[("ttl", .int 0)], _, by decide +kernel, rfl⟩

/-- Two sweeps that take one thread each. -/
theorem sweeps_drain_two :
    ∃ fuel outcomes s', SweepRun plainBase stateSerde fuel (twoExpired none) [oneByOne, oneByOne] outcomes s' ∧
      dueList s' 0 = [] ∧ ∃ items, Drained stateSerde (twoExpired none) s' 0 0 2 outcomes items := by
  have timely : ∀ sweep ∈ [oneByOne, oneByOne], Timely (twoExpired none).config 1 0 0 sweep := by
    intro sweep member
    obtain rfl : sweep = oneByOne := by simpa using member
    exact ⟨⟨_, rfl⟩, ⟨some 1, rfl, fun limit same => (Option.some.inj same).le⟩, le_rfl, le_rfl⟩
  obtain ⟨ends, drains⟩ := sweeps_drain plainBase stateSerde twoExpired_legible le_rfl timely
  have acyclic : PrunesEnd (twoExpired none) := fun _ => Containers.AcyclicParents.of_growing_ids (by decide +kernel)
  obtain ⟨enough, runs⟩ := ends acyclic
  obtain ⟨outcomes, s', run⟩ := runs enough le_rfl
  obtain ⟨drained, all⟩ := drains enough outcomes s' run
  have two : (dueList (twoExpired none) 0).length ≤ 2 := by
    have readable : effectiveLimit (twoExpired none).config none = .ok (some 10000) := rfl
    have listed := dueItems_eq (twoExpired none) 0 readable
    rw [twoExpired_dueItems] at listed
    have length := congrArg List.length listed
    rw [Option.elim_some, List.length_take] at length
    change 2 = _ at length
    omega
  exact ⟨enough, outcomes, s', run, all two, drained⟩

end Two

end Threads

end InmemRuntime
