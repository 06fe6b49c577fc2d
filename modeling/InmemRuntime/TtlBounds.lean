import InmemRuntime.SweepRuns

namespace InmemRuntime

namespace Threads

/-- The minutes make a `timedelta`, and it can be added to `updated_at`. -/
def ExpiryFits (config : TtlConfig) (updatedAt : Time) : Prop :=
  ∃ minutes, config.ttlMinutes = .finite minutes ∧
    (-maxDays * microsPerDay ≤ minutesDelta minutes ∧ minutesDelta minutes < (maxDays + 1) * microsPerDay) ∧
    minTime ≤ updatedAt + minutesDelta minutes ∧ updatedAt + minutesDelta minutes ≤ maxTime

/-- The expiry without any bound: none for minutes that are not finite. -/
def unboundedExpiry (config : TtlConfig) (updatedAt : Time) : Option Int :=
  match config.ttlMinutes with
  | .finite minutes => some (updatedAt + minutesDelta minutes)
  | _ => none

theorem expiresAt_of_fits {config : TtlConfig} {updatedAt : Time} (fits : ExpiryFits config updatedAt) :
    ∃ expiry, unboundedExpiry config updatedAt = some expiry ∧ expiresAt config updatedAt = .ok expiry := by
  obtain ⟨minutes, finite, delta, sum⟩ := fits
  refine ⟨updatedAt + minutesDelta minutes, by simp [unboundedExpiry, finite], ?_⟩
  have constructed : timedeltaMinutes config.ttlMinutes = .ok (minutesDelta minutes) := by
    simp only [finite, timedeltaMinutes]
    exact if_pos delta
  simp only [expiresAt, constructed]
  exact if_pos sum

theorem fits_of_expiresAt {config : TtlConfig} {updatedAt expiry : Time}
    (computed : expiresAt config updatedAt = .ok expiry) : ExpiryFits config updatedAt := by
  obtain ⟨delta, constructed, added⟩ := bind_ok computed
  cases finite : config.ttlMinutes with
  | finite minutes =>
    simp only [finite, timedeltaMinutes] at constructed
    split at constructed
    · rename_i inside
      cases constructed
      simp only [addDelta] at added
      split at added
      · rename_i sum
        exact ⟨minutes, finite, inside, sum⟩
      · cases added
    · cases constructed
  | _ =>
    simp only [finite, timedeltaMinutes] at constructed
    cases constructed

/-- A TTL of up to a thousand million minutes fits, of a thread updated since 1970 and before 7990. -/
theorem fits_of_moderate {strategy : TtlStrategy} {minutes : Rat} {updatedAt : Time} (moderate : |minutes| ≤ 1000000000)
    (begun : 0 ≤ updatedAt) (early : updatedAt ≤ 189000000000000000) : ExpiryFits ⟨strategy, .finite minutes⟩ updatedAt := by
  have near := abs_le.mp (minutesDelta_near minutes)
  have within := abs_le.mp moderate
  have less : (minutesDelta minutes : Rat) ≤ (60000000000000001 : Int) := by
    push_cast
    linarith
  have more : ((-60000000000000001 : Int) : Rat) ≤ minutesDelta minutes := by
    push_cast
    linarith
  have less : minutesDelta minutes ≤ 60000000000000001 := by exact_mod_cast less
  have more : -60000000000000001 ≤ minutesDelta minutes := by exact_mod_cast more
  refine ⟨minutes, rfl, ?_, ?_⟩
  · rw [maxDays, microsPerDay]
    omega
  · rw [minTime, maxTime]
    constructor <;> linarith

/-- Every TTL policy in force was accepted by `_normalize_ttl_config`. -/
structure AcceptedTtls (s : Runtime) : Prop where
  policy : ∃ policy, normalizeTtlConfig s.config.threadTtl = .ok policy
  overrides : ∀ key state minutes, s.threadTtls.get? key = some state → state.ttlMinutes = some minutes →
    ∃ config strategy, normalizeTtlConfig (some config) = .ok (some ⟨strategy, minutes⟩) ∧
      state.strategy = some strategy

/-- The expiry of a thread that has a TTL and was not swept already can be computed. -/
def ThreadExpiryFits (s : Runtime) (thread : Thread) : Prop :=
  ∀ config state,
    effectiveThreadTtl s.config.threadTtl s.threadTtls thread.threadId = .ok (some config, state) →
      alreadySwept config state thread.updatedAt = false → ExpiryFits config thread.updatedAt

/-- A thread without active runs whose time has come, on an unbounded calendar. -/
def dueNow (s : Runtime) (now : Time) (thread : Thread) : Option Expired :=
  if thread.threadId ∈ activeThreadIds s.toGlobalStore then none
  else
    match effectiveThreadTtl s.config.threadTtl s.threadTtls thread.threadId with
    | .ok (some config, state) =>
      if alreadySwept config state thread.updatedAt then none
      else ((unboundedExpiry config thread.updatedAt).filter (fun expiry => expiry ≤ now)).map (fun expiry =>
        ⟨expiry, thread.threadId, config, state, thread.updatedAt⟩)
    | _ => none

/-- The threads that a sweep has to process, up to its limit. -/
def dueItems (s : Runtime) (limit : Option Int) (now : Time) : List Expired :=
  let due := (s.threads.values.filterMap (dueNow s now)).mergeSort Expired.le
  match effectiveLimit s.config limit with
  | .ok (some count) => due.take count
  | _ => due

/-- The thread is gone, or it is marked as swept. -/
def Processed (s' : Runtime) (item : Expired) : Prop :=
  match item.config.strategy with
  | .delete => item.threadId ∉ s'.threadIds
  | .keepLatest => item.threadId ∈ s'.threadIds ∧ s'.threadTtls.get? item.threadId.str = some item.marked

/-- A sweep that nothing interrupts raises nothing and processes every due
thread; it comes to its end unless a built-in prune does not. -/
structure SweepsDue (base : BaseSaver) (serde : Serde) (s : Runtime) (call : SweepCall) (reply : Reply) : Prop where
  processes : ∀ fuel s' outcome,
    Turn.Ends (Sweep.resume base serde fuel) reply (Sweep.resume base serde fuel s (.called call) reply) s' outcome →
      (∃ result, outcome = .ok result) ∧ ∀ item ∈ dueItems s call.limit reply.now, Processed s' item
  ends : PrunesEnd s → ∃ enough, ∀ fuel, enough ≤ fuel → ∃ s' outcome,
    Turn.Ends (Sweep.resume base serde fuel) reply (Sweep.resume base serde fuel s (.called call) reply) s' outcome

/-- A permitted read of a stored thread with its TTL raises nothing. -/
def GetsTtl (s : Runtime) : Prop :=
  ∀ threadId r reply filters, s.threads.find? (byId threadId) = some r → reply.answer = .ok filters →
    filtersAllow (s.threads.get r).metadata filters = .ok true →
      ∀ s' outcome, Turn.Ends Get.resume reply (Get.resume s (.called threadId true) reply) s' outcome →
        ∃ result, outcome = .ok result

section Reading

variable {s : Runtime} {now : Time}

theorem effectiveThreadTtl_ok (accepted : ∃ policy, normalizeTtlConfig s.config.threadTtl = .ok policy)
    (threadId : Uuid) : ∃ policy, effectiveThreadTtl s.config.threadTtl s.threadTtls threadId = .ok policy := by
  obtain ⟨policy, normalized⟩ := accepted
  simp only [effectiveThreadTtl]
  cases ((s.threadTtls.get? threadId.str).getD .empty).ttlMinutes with
  | some minutes => exact ⟨_, rfl⟩
  | none =>
    rw [normalized]
    exact ⟨_, rfl⟩

variable (now) in
/-- The loop body takes up what is due, unless the policy of the thread does not read. -/
theorem examine_of_policy {thread : Thread} (fits : ThreadExpiryFits s thread)
    (reads : thread.threadId ∉ activeThreadIds s.toGlobalStore →
      ∃ policy, effectiveThreadTtl s.config.threadTtl s.threadTtls thread.threadId = .ok policy) :
    examine s now thread = .ok (dueNow s now thread) := by
  simp only [examine, dueNow]
  by_cases active : thread.threadId ∈ activeThreadIds s.toGlobalStore
  · simp only [active, if_true]
  · obtain ⟨⟨config, state⟩, policy⟩ := reads active
    simp only [active, if_false, policy, ok_bind]
    cases config with
    | none => rfl
    | some config =>
      by_cases swept : alreadySwept config state thread.updatedAt = true
      · simp only [swept, if_true]
      · obtain ⟨expiry, unbounded, computed⟩ :=
          expiresAt_of_fits (fits config state policy (by simpa using swept))
        simp only [swept, Bool.false_eq_true, if_false, unbounded, computed, ok_bind]
        by_cases due : expiry ≤ now <;> simp [Option.filter, due]

theorem examineAll_of_each {threads : List Thread}
    (each : ∀ thread ∈ threads, examine s now thread = .ok (dueNow s now thread)) :
    examineAll s now threads = .ok (threads.filterMap (dueNow s now)) := by
  induction threads with
  | nil => rfl
  | cons thread threads ih =>
    obtain ⟨first, others⟩ := List.forall_mem_cons.mp each
    rw [examineAll, first, ih others, List.filterMap_cons]
    cases dueNow s now thread <;> rfl

theorem selectExpired_of_each (each : ∀ thread ∈ s.threads.values, examine s now thread = .ok (dueNow s now thread))
    {limit : Option Int} {count : Option Nat} (readable : effectiveLimit s.config limit = .ok count) :
    selectExpired s limit now = .ok (dueItems s limit now) := by
  simp only [selectExpired, dueItems, readable, examineAll_of_each each]
  cases count <;> rfl

variable (now) in
theorem selectExpired_of_fits (accepted : AcceptedTtls s)
    (fits : ∀ thread ∈ s.threads.values, ThreadExpiryFits s thread) {limit : Option Int} {count : Option Nat}
    (readable : effectiveLimit s.config limit = .ok count) :
    selectExpired s limit now = .ok (dueItems s limit now) :=
  selectExpired_of_each (fun thread member => examine_of_policy now (fits thread member)
    (fun _ => effectiveThreadTtl_ok accepted.policy thread.threadId)) readable

theorem dueNow_threadId {thread : Thread} {item : Expired} (due : dueNow s now thread = some item) :
    item.threadId = thread.threadId := by
  unfold dueNow at due
  split at due
  · cases due
  · split at due
    · split at due
      · cases due
      · obtain ⟨_, _, same⟩ := Option.map_eq_some_iff.mp due
        rw [← same]
    · cases due

variable (s now) in
theorem dueItems_sublist (limit : Option Int) :
    ∃ sorted : List Expired, (dueItems s limit now).Sublist sorted ∧
      sorted.Perm (s.threads.values.filterMap (dueNow s now)) := by
  refine ⟨_, ?_, List.mergeSort_perm _ Expired.le⟩
  simp only [dueItems]
  split
  · exact List.take_sublist _ _
  · exact List.Sublist.refl _

variable (s now) in
theorem filterMap_dueNow_ids (threads : List Thread) :
    ((threads.filterMap (dueNow s now)).map Expired.threadId).Sublist (threads.map Thread.threadId) := by
  induction threads with
  | nil => exact List.Sublist.refl _
  | cons thread threads ih =>
    rw [List.filterMap_cons]
    cases due : dueNow s now thread with
    | none => exact ih.cons _
    | some item =>
      rw [List.map_cons, List.map_cons, dueNow_threadId due]
      exact ih.cons_cons _

variable (now) in
/-- The due threads are stored, and none is listed twice. -/
theorem dueItems_ids (distinct : s.threadIds.Nodup) (limit : Option Int) :
    ((dueItems s limit now).map Expired.threadId).Nodup ∧
      ∀ item ∈ dueItems s limit now, item.threadId ∈ s.threadIds := by
  obtain ⟨sorted, sublist, perm⟩ := dueItems_sublist s now limit
  have ids := filterMap_dueNow_ids s now s.threads.values
  constructor
  · have inSorted : (sorted.map Expired.threadId).Nodup :=
      (perm.map Expired.threadId).nodup_iff.mpr (distinct.sublist ids)
    exact inSorted.sublist (sublist.map _)
  · intro item member
    exact ids.subset (List.mem_map_of_mem (perm.subset (sublist.subset member)))

end Reading

section Safety

variable {base : BaseSaver} {serde : Serde} {s : Runtime} {reply : Reply} {value : PyVal}

/-- A sweep up to where its loop starts, or to its early end. -/
theorem called_ends_iff (answered : reply.answer = .ok value) (fuel : Nat) (call : SweepCall) (s' : Runtime)
    (outcome : Except PyError SweepOutcome) :
    Turn.Ends (Sweep.resume base serde fuel) reply (Sweep.resume base serde fuel s (.called call) reply) s' outcome ↔
      Turn.Ends (Sweep.resume base serde fuel) reply (Sweep.start base serde fuel s call reply.now) s' outcome := by
  by_cases stats : call.wantsStats
  · simp only [Sweep.resume, stats, if_true, Turn.Ends.suspended_iff, answered, attempt_ok]
  · simp only [Sweep.resume, stats, Bool.false_eq_true, if_false]

theorem processed_of_swept {items : List Expired} {s' : Runtime} (distinct : (items.map Expired.threadId).Nodup)
    (stored : ∀ item ∈ items, item.threadId ∈ s.threadIds) (swept : Swept items s s') :
    ∀ item ∈ items, Processed s' item := by
  intro item member
  rw [Processed, swept.threadIds]
  cases strategy : item.config.strategy with
  | delete =>
    have gone : item.threadId ∈ deletedIds items :=
      List.mem_map_of_mem (List.mem_filter.mpr ⟨member, by simp [Expired.isDelete, strategy]⟩)
    simp [gone]
  | keepLatest =>
    have isKeep : item.isDelete = false := by simp [Expired.isDelete, strategy]
    have kept : item.threadId ∉ deletedIds items := by
      intro deleted
      obtain ⟨other, inDeleted, same⟩ := List.mem_map.mp deleted
      obtain ⟨listed, isDelete⟩ := List.mem_filter.mp inDeleted
      rw [List.inj_on_of_nodup_map distinct listed member same, isKeep] at isDelete
      cases isDelete
    exact ⟨List.mem_filter.mpr ⟨stored item member, by simpa using kept⟩, swept.marked item member isKeep⟩

theorem sweepsDue_of_fits (distinct : s.threadIds.Nodup) (accepted : AcceptedTtls s)
    (fits : ∀ thread ∈ s.threads.values, ThreadExpiryFits s thread)
    (readable : ∃ count, effectiveLimit s.config none = .ok count) (call : SweepCall)
    (answered : reply.answer = .ok value) : SweepsDue base serde s call reply := by
  have limits : ∃ count, effectiveLimit s.config call.limit = .ok count := by
    cases call.limit with
    | none => exact readable
    | some limit => exact ⟨_, rfl⟩
  obtain ⟨count, limited⟩ := limits
  have selected := selectExpired_of_fits reply.now accepted fits limited
  obtain ⟨apart, stored⟩ := dueItems_ids reply.now distinct call.limit
  by_cases early : call.limit.any (fun limit => limit ≤ 0) = true
  · have nothing : dueItems s call.limit reply.now = [] := by
      cases isLimit : call.limit with
      | none => simp [isLimit] at early
      | some limit =>
        have zero : limit.toNat = 0 := by simpa [isLimit] using early
        simp [dueItems, effectiveLimit, zero]
    constructor
    · intro fuel s' outcome ends
      rw [called_ends_iff answered] at ends
      simp only [Sweep.start, early, if_true, returned, Turn.Ends.finished_iff] at ends
      exact ⟨⟨_, ends.2⟩, by simp [nothing]⟩
    · intro _
      refine ⟨0, fun fuel _ => ?_⟩
      simp only [called_ends_iff answered, Sweep.start, early, if_true, returned, Turn.Ends.finished_iff]
      exact ⟨_, _, rfl, rfl⟩
  · constructor
    · intro fuel s' outcome ends
      rw [called_ends_iff answered] at ends
      simp only [Sweep.start, early, Bool.false_eq_true, if_false, selected, attempt_ok] at ends
      obtain ⟨last, performed, result⟩ := (loop_ends_iff answered).mp ends
      have swept := (performAll_swept distinct (by rwa [taken_sweepWork]) (by rwa [taken_sweepWork]) performed).1
      rw [taken_sweepWork] at swept
      exact ⟨⟨_, result⟩, processed_of_swept apart stored swept⟩
    · intro ends
      obtain ⟨last, enough, settled⟩ := performAll_settles base serde s
        (.first s call reply.now (dueItems s call.limit reply.now)) ends
        (sweepWork call.batchSize (dueItems s call.limit reply.now))
      refine ⟨enough, fun fuel le => ⟨last.1, .ok (last.2.outcome last.1), ?_⟩⟩
      rw [called_ends_iff answered]
      simp only [Sweep.start, early, Bool.false_eq_true, if_false, selected, attempt_ok]
      exact (loop_ends_iff answered).mpr ⟨last.2, settled fuel le, rfl⟩

/-- A permitted read of the record `r`, up to the policy. -/
theorem get_ends_iff {threadId : Uuid} {r : Nat} {filters : PyVal}
    (found : s.threads.find? (byId threadId) = some r) (answered : reply.answer = .ok filters)
    (allowed : filtersAllow (s.threads.get r).metadata filters = .ok true) {s' : Runtime}
    {outcome : Except PyError (Thread × Option TtlInfo)} :
    Turn.Ends Get.resume reply (Get.resume s (.called threadId true) reply) s' outcome ↔
      s' = { s with threads := s.threads.update r Thread.withStateUpdatedAt } ∧
        outcome = (do
          let (config, state) ← effectiveThreadTtl s.config.threadTtl s.threadTtls threadId
          match config with
          | none => .ok (Thread.withStateUpdatedAt (s.threads.get r), none)
          | some config =>
            let info ← threadTtlInfo (Thread.withStateUpdatedAt (s.threads.get r)) config state
            .ok (Thread.withStateUpdatedAt (s.threads.get r), some info)) := by
  simp only [Get.resume, Turn.Ends.suspended_iff, answered, attempt_ok, getWithFilters, found, allowed,
    if_true, Table.update_get_self]
  cases effectiveThreadTtl s.config.threadTtl s.threadTtls threadId with
  | error e => exact Turn.Ends.finished_iff
  | ok policy =>
    obtain ⟨config, state⟩ := policy
    cases config with
    | none => exact Turn.Ends.finished_iff
    | some config =>
      simp only [attempt_ok, ok_bind]
      cases threadTtlInfo (s.threads.get r).withStateUpdatedAt config state with
      | error e => exact Turn.Ends.finished_iff
      | ok info => exact Turn.Ends.finished_iff

theorem getsTtl_of_fits (accepted : AcceptedTtls s)
    (fits : ∀ thread ∈ s.threads.values, ThreadExpiryFits s thread) : GetsTtl s := by
  intro threadId r reply filters found answered allowed s' outcome ends
  obtain ⟨_, rfl⟩ := (get_ends_iff found answered allowed).mp ends
  obtain ⟨⟨config, state⟩, policy⟩ := effectiveThreadTtl_ok accepted.policy threadId
  rw [policy, ok_bind]
  cases config with
  | none => exact ⟨_, rfl⟩
  | some config =>
    have named : (s.threads.get r).threadId = threadId := threadId_of_find? found
    have fits := fits _ (Table.mem_values.mpr ⟨r, Table.find?_mem found, rfl⟩) config state (named ▸ policy)
    have unchanged : (s.threads.get r).withStateUpdatedAt.updatedAt = (s.threads.get r).updatedAt := rfl
    simp only [threadTtlInfo, unchanged]
    by_cases swept : alreadySwept config state (s.threads.get r).updatedAt = true
    · simp only [swept, if_true, ok_bind]
      exact ⟨_, rfl⟩
    · obtain ⟨expiry, _, computed⟩ := expiresAt_of_fits (fits (by simpa using swept))
      simp only [swept, Bool.false_eq_true, if_false, computed, ok_bind]
      exact ⟨_, rfl⟩

theorem fits_of_getsTtl (distinct : s.threadIds.Nodup) (gets : GetsTtl s) :
    ∀ thread ∈ s.threads.values, ThreadExpiryFits s thread := by
  intro thread member config state policy fresh
  obtain ⟨r, found, named⟩ := find?_of_mem distinct member
  subst named
  obtain ⟨result, returned⟩ := gets _ r plainReply .none found rfl rfl _ _
    ((get_ends_iff found rfl rfl).mpr ⟨rfl, rfl⟩)
  rw [policy, ok_bind] at returned
  obtain ⟨info, computed, _⟩ := bind_ok returned
  have unchanged : (s.threads.get r).withStateUpdatedAt.updatedAt = (s.threads.get r).updatedAt := rfl
  simp only [threadTtlInfo, unchanged, fresh, Bool.false_eq_true, if_false] at computed
  obtain ⟨expiry, fits, _⟩ := bind_ok computed
  exact fits_of_expiresAt fits

theorem readable_of_sweepsDue
    (sweeps : SweepsDue base serde s ⟨none, 100, false⟩ plainReply) :
    ∃ count, effectiveLimit s.config none = .ok count := by
  cases unreadable : effectiveLimit s.config none with
  | ok count => exact ⟨count, rfl⟩
  | error e =>
    have raises : Turn.Ends (Sweep.resume base serde 0) plainReply
        (Sweep.resume base serde 0 s (.called ⟨none, 100, false⟩) plainReply) s (.error e) := by
      have select : selectExpired s none plainReply.now = .error e := by
        simp only [selectExpired, unreadable]
        rfl
      simp only [Sweep.resume, Sweep.start, Option.any_none, Bool.false_eq_true, if_false, select]
      exact .finished _ _
    obtain ⟨⟨result, returned⟩, _⟩ := sweeps.processes 0 s _ raises
    cases returned

end Safety

/-- Under accepted policies, sweeps and reads raise nothing and process every
due thread exactly when each expiry that they compute fits a datetime and the
configured limit can be read. -/
theorem ttl_operations_safe_iff (base : BaseSaver) (serde : Serde) (s : Runtime)
    (distinct : s.threadIds.Nodup) (accepted : AcceptedTtls s) :
    ((∀ call reply value, reply.answer = .ok value → SweepsDue base serde s call reply) ∧ GetsTtl s) ↔
      (∃ count, effectiveLimit s.config none = .ok count) ∧
        ∀ thread ∈ s.threads.values, ThreadExpiryFits s thread := by
  constructor
  · rintro ⟨sweeps, gets⟩
    exact ⟨readable_of_sweepsDue (sweeps _ plainReply _ rfl), fits_of_getsTtl distinct gets⟩
  · rintro ⟨readable, fits⟩
    exact ⟨fun call reply value answered => sweepsDue_of_fits distinct accepted fits readable call answered,
      getsTtl_of_fits accepted fits⟩

/-- One thread, last changed in 2023, with a TTL of ten minutes and one of ten
thousand million minutes. -/
def threadWithTtl (minutes : Rat) : Runtime :=
  { storeOf [{ idleThread ⟨1⟩ with updatedAt := 1700000000000000 }] with
    threadTtls := .ofPairs [((⟨1⟩ : Uuid).str, ⟨some .delete, some (.finite minutes), none⟩)] }

theorem threadWithTtl_accepted {n : Int} (positive : 0 ≤ n) (small : |(n : Rat)| < PyFloat.overflowBound)
    (holds : binary64.Holds n) : AcceptedTtls (threadWithTtl n) where
  policy := ⟨none, rfl⟩
  overrides key state minutes stored given := by
    rw [← Dict.mem_entries_iff] at stored
    have only : (key, state) = ((⟨1⟩ : Uuid).str, ⟨some .delete, some (.finite n), none⟩) :=
      List.mem_singleton.mp stored
    cases only
    cases given
    exact ⟨_, _, normalizeTtlConfig_int positive small holds, rfl⟩

theorem threadWithTtl_fits {minutes : Rat} (fits : ExpiryFits ⟨.delete, .finite minutes⟩ 1700000000000000) :
    ∀ thread ∈ (threadWithTtl minutes).threads.values, ThreadExpiryFits (threadWithTtl minutes) thread := by
  intro thread member config state policy _
  have only : thread = { idleThread ⟨1⟩ with updatedAt := 1700000000000000 } := List.mem_singleton.mp member
  subst only
  have own : (threadWithTtl minutes).threadTtls.get? (⟨1⟩ : Uuid).str =
      some ⟨some .delete, some (.finite minutes), none⟩ := Dict.get?_set_self .empty _ _
  simp only [effectiveThreadTtl, idleThread, own, Option.getD_some] at policy
  cases policy
  exact fits

theorem tenMinutes_accepted : AcceptedTtls (threadWithTtl 10) := by
  exact_mod_cast threadWithTtl_accepted (n := 10) (by decide) (by decide +kernel) ⟨10, 0, by decide, by decide, by simp⟩

theorem tenMinutes_fits : ∀ thread ∈ (threadWithTtl 10).threads.values, ThreadExpiryFits (threadWithTtl 10) thread :=
  threadWithTtl_fits (fits_of_moderate (by decide +kernel) (by decide) (by decide))

theorem ttl_operations_safe_ten_minutes :
    (∀ call reply value, reply.answer = .ok value →
      SweepsDue plainBase deltaSerde (threadWithTtl 10) call reply) ∧ GetsTtl (threadWithTtl 10) :=
  (ttl_operations_safe_iff plainBase deltaSerde (threadWithTtl 10) (by decide)
    tenMinutes_accepted).mpr ⟨⟨some 10000, rfl⟩, tenMinutes_fits⟩

/-- A TTL of ten thousand million minutes is accepted and makes the sweep raise. -/
theorem ttl_operations_not_safe :
    ¬ ∀ (base : BaseSaver) (serde : Serde) (s : Runtime), s.threadIds.Nodup → AcceptedTtls s →
      (∀ call reply value, reply.answer = .ok value → SweepsDue base serde s call reply) ∧ GetsTtl s := by
  intro safe
  have accepted : AcceptedTtls (threadWithTtl 10000000000) := by
    exact_mod_cast threadWithTtl_accepted (n := 10000000000) (by decide) (by decide +kernel)
      ⟨10000000000, 0, by decide, by decide, by simp⟩
  have sweeps := (safe plainBase deltaSerde (threadWithTtl 10000000000) (by decide) accepted).1 ⟨none, 100, false⟩
    plainReply .none rfl
  have raises : selectExpired (threadWithTtl 10000000000) none 0 = .error .overflowError := by decide +kernel
  have ends : Turn.Ends (Sweep.resume plainBase deltaSerde 0) plainReply
      (Sweep.resume plainBase deltaSerde 0 (threadWithTtl 10000000000) (.called ⟨none, 100, false⟩) plainReply)
      (threadWithTtl 10000000000) (.error .overflowError) := by
    have now : plainReply.now = 0 := rfl
    simp only [Sweep.resume, Sweep.start, Option.any_none, Bool.false_eq_true, if_false, now, raises]
    exact .finished _ _
  obtain ⟨⟨result, returned⟩, _⟩ := sweeps.processes 0 _ _ ends
  cases returned

end Threads

end InmemRuntime
