import InmemRuntime.FailedCalls
import InmemRuntime.SweepDecisions
import InmemRuntime.TtlBounds

namespace InmemRuntime

namespace Threads

/-- `Threads.get` with the TTL reports an expiry that is not after `now`. -/
def ReportedExpired (now : Time) : Except PyError (Thread × Option TtlInfo) → Prop
  | .ok (_, some info) => ∃ expiry, info.expiresAt = some expiry ∧ expiry ≤ now
  | _ => False

section Agreement

variable {s : Runtime} {now : Time} {threadId : Uuid} {r : Nat}

theorem mem_activeThreadIds_iff : threadId ∈ activeThreadIds s.toGlobalStore ↔ ¬ Inactive s.toGlobalStore threadId := by
  simp only [activeThreadIds, List.mem_map, List.mem_filter, Inactive]
  constructor
  · rintro ⟨run, ⟨member, active⟩, same⟩ inactive
    rw [inactive run member same] at active
    cases active
  · intro some'
    by_contra none'
    exact some' (fun run member same => Bool.eq_false_iff.mpr (fun active => none' ⟨run, ⟨member, active⟩, same⟩))

/-- The loop body takes a record up when its thread is inactive and its policy says so. -/
theorem examine_some_iff {thread : Thread} :
    (∃ item, examine s now thread = .ok (some item)) ↔
      Inactive s.toGlobalStore thread.threadId ∧ StillExpired s now thread := by
  unfold examine StillExpired
  by_cases active : thread.threadId ∈ activeThreadIds s.toGlobalStore
  · have busy := mem_activeThreadIds_iff.mp active
    simp [active, busy]
  · have inactive : Inactive s.toGlobalStore thread.threadId := inactive_of_not_mem active
    simp only [if_neg active, inactive, true_and]
    cases policy : effectiveThreadTtl s.config.threadTtl s.threadTtls thread.threadId with
    | error e => simp [bind, Except.bind]
    | ok found =>
      obtain ⟨config, state⟩ := found
      cases config with
      | none => simp [ok_bind]
      | some config =>
        simp only [ok_bind]
        by_cases swept : alreadySwept config state thread.updatedAt = true
        · simp [swept]
        · cases computed : expiresAt config thread.updatedAt with
          | error e => simp [swept, computed, bind, Except.bind]
          | ok expiry => by_cases due : expiry ≤ now <;> simp [swept, computed, due, ok_bind]

/-- `Threads.get` of a thread that it may show. -/
theorem get_reports_iff {asked reply : Reply} {filters : PyVal} (found : s.threads.find? (byId threadId) = some r)
    (answer : reply.answer = .ok filters) (allowed : filtersAllow (s.threads.get r).metadata filters = .ok true) :
    (∃ s' outcome, Turn.EndsOn Get.resume [asked, reply] (s, .suspended (.called threadId true)) s' outcome ∧
        ReportedExpired now outcome) ↔ StillExpired s now (s.threads.get r) := by
  have named : (s.threads.get r).threadId = threadId := by simpa [byId] using Table.find?_passes found
  have visible : getWithFilters s threadId filters =
      ({ s with threads := s.threads.update r Thread.withStateUpdatedAt }, .ok (some r)) := by
    simp only [getWithFilters, found, allowed]
  have same : ((s.threads.update r Thread.withStateUpdatedAt).get r).updatedAt = (s.threads.get r).updatedAt := by
    rw [Table.update_get_self]
    rfl
  simp only [Turn.endsOn_suspended, Get.resume, answer, attempt_ok, visible, if_true, StillExpired, named]
  cases policy : effectiveThreadTtl s.config.threadTtl s.threadTtls threadId with
  | error e => simp [raised, ReportedExpired]
  | ok computed =>
    obtain ⟨config, state⟩ := computed
    cases config with
    | none => simp [returned, ReportedExpired]
    | some config =>
      simp only [attempt_ok, threadTtlInfo, same]
      by_cases swept : alreadySwept config state (s.threads.get r).updatedAt = true
      · simp [swept, returned, ReportedExpired]
      · cases expires : expiresAt config (s.threads.get r).updatedAt with
        | error e => simp [swept, expires, raised, ReportedExpired, bind, Except.bind]
        | ok expiry => simp [swept, expires, returned, ReportedExpired, ok_bind]

variable (now) in
/-- Nothing is raised over a record whose policy reads and whose expiry can be represented. -/
theorem examine_ok (policy : ∃ policy, normalizeTtlConfig s.config.threadTtl = .ok policy) {thread : Thread}
    (fits : ThreadExpiryFits s thread) : ∃ found, examine s now thread = .ok found := by
  obtain ⟨⟨config, state⟩, effective⟩ := effectiveThreadTtl_ok policy thread.threadId
  simp only [examine, effective, ok_bind]
  split
  · exact ⟨none, rfl⟩
  · cases config with
    | none => exact ⟨none, rfl⟩
    | some config =>
      by_cases swept : alreadySwept config state thread.updatedAt = true
      · exact ⟨none, by simp [swept]⟩
      · obtain ⟨expiry, _, computed⟩ := expiresAt_of_fits (fits config state effective (by simpa using swept))
        exact ⟨_, by simp only [swept, computed, ok_bind]; rfl⟩

/-- The loop collects what its body makes of each record. -/
theorem examineAll_ok {threads : List Thread} (each : ∀ thread ∈ threads, ∃ found, examine s now thread = .ok found) :
    ∃ expired, examineAll s now threads = .ok expired ∧
      ∀ item, item ∈ expired ↔ ∃ thread ∈ threads, examine s now thread = .ok (some item) := by
  induction threads with
  | nil => exact ⟨[], rfl, by simp⟩
  | cons thread threads ih =>
    obtain ⟨⟨found, first⟩, each⟩ := List.forall_mem_cons.mp each
    obtain ⟨rest, later, members⟩ := ih each
    refine ⟨found.toList ++ rest, by rw [examineAll, first, later]; rfl, fun item => ?_⟩
    rw [List.mem_append, members, Option.mem_toList, List.exists_mem_cons_iff, first]
    simp

end Agreement

/-- The sweep and the TTL that is shown decide alike: when all expiries can be
represented, the sweep takes up the record of a thread, before its limit,
exactly when the thread has no pending or running run and `Threads.get` shows
an expiry that has come. -/
theorem sweep_and_get_agree (s : Runtime) (now : Time)
    (policy : ∃ policy, normalizeTtlConfig s.config.threadTtl = .ok policy)
    (representable : ∀ thread ∈ s.threads.values, ThreadExpiryFits s thread) :
    ∃ expired, examineAll s now s.threads.values = .ok expired ∧
      ∀ threadId r asked reply filters, s.threads.find? (byId threadId) = some r → reply.answer = .ok filters →
        filtersAllow (s.threads.get r).metadata filters = .ok true →
        ((∃ item ∈ expired, examine s now (s.threads.get r) = .ok (some item)) ↔
          Inactive s.toGlobalStore threadId ∧ ∃ s' outcome,
            Turn.EndsOn Get.resume [asked, reply] (s, .suspended (.called threadId true)) s' outcome ∧
              ReportedExpired now outcome) := by
  obtain ⟨expired, collected, members⟩ :=
    examineAll_ok (fun thread member => examine_ok now policy (representable thread member))
  refine ⟨expired, collected, fun threadId r asked reply filters found answer allowed => ?_⟩
  have named : (s.threads.get r).threadId = threadId := by simpa [byId] using Table.find?_passes found
  rw [get_reports_iff found answer allowed, ← named, ← examine_some_iff]
  constructor
  · rintro ⟨item, _, examined⟩
    exact ⟨item, examined⟩
  · rintro ⟨item, examined⟩
    have stored : s.threads.get r ∈ s.threads.values := Table.mem_values.mpr ⟨r, Table.find?_mem found, rfl⟩
    exact ⟨item, (members item).mpr ⟨_, stored, examined⟩, examined⟩

/-- Ten minutes after the update of a thread with a TTL of ten minutes, the sweep collects it. -/
theorem sweep_and_get_agree_ten_minutes :
    ∃ expired, examineAll (threadWithTtl 10) 1700000600000000 (threadWithTtl 10).threads.values = .ok expired ∧
      ((∃ item ∈ expired,
          examine (threadWithTtl 10) 1700000600000000 ((threadWithTtl 10).threads.get 0) = .ok (some item)) ↔
        Inactive (threadWithTtl 10).toGlobalStore ⟨1⟩ ∧ ∃ s' outcome,
          Turn.EndsOn Get.resume [plainReply, plainReply] (threadWithTtl 10, .suspended (.called ⟨1⟩ true)) s' outcome ∧
            ReportedExpired 1700000600000000 outcome) := by
  obtain ⟨expired, collected, agree⟩ := sweep_and_get_agree (threadWithTtl 10) 1700000600000000 ⟨none, rfl⟩
    tenMinutes_fits
  exact ⟨expired, collected, agree ⟨1⟩ 0 plainReply plainReply .none rfl rfl rfl⟩

end Threads

end InmemRuntime
