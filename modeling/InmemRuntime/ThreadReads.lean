import InmemRuntime.RunsCancel

namespace InmemRuntime

/-- Reads with auth filters complete the records that they return, and write nothing else. -/
inductive Completed (s : Runtime) : Runtime → Prop
  | same : Completed s s
  | completes {s' : Runtime} (r : Nat) : Completed s s' →
      Completed s { s' with threads := s'.threads.update r Thread.withStateUpdatedAt }

namespace Completed

variable {s s' s'' : Runtime}

theorem trans (first : Completed s s') (second : Completed s' s'') : Completed s s'' := by
  induction second with
  | same => exact first
  | completes r _ ih => exact .completes r ih

theorem frame (completed : Completed s s') : ∃ threads, s' = { s with threads := threads } := by
  induction completed with
  | same => exact ⟨s.threads, rfl⟩
  | completes r _ ih =>
    obtain ⟨threads, rfl⟩ := ih
    exact ⟨_, rfl⟩

theorem runs (completed : Completed s s') : s'.runs = s.runs := by
  obtain ⟨threads, rfl⟩ := completed.frame
  rfl

theorem crons (completed : Completed s s') : s'.crons = s.crons := by
  obtain ⟨threads, rfl⟩ := completed.frame
  rfl

theorem streams (completed : Completed s s') : s'.streams = s.streams := by
  obtain ⟨threads, rfl⟩ := completed.frame
  rfl

/-- What a completion leaves alone in a record. -/
theorem threads {β : Type*} {f : Thread → β} (same : ∀ thread, f thread.withStateUpdatedAt = f thread)
    (completed : Completed s s') :
    s'.threads.rows = s.threads.rows ∧ ∀ r, f (s'.threads.get r) = f (s.threads.get r) := by
  induction completed with
  | same => exact ⟨rfl, fun _ => rfl⟩
  | completes i _ ih =>
    refine ⟨ih.1, fun r => ?_⟩
    rw [Table.update_get]
    split
    · rw [same, ih.2]
    · exact ih.2 r

end Completed

theorem Threads.getWithFilters_completed (s : Runtime) (threadId : Uuid) (filters : PyVal) :
    Completed s (Threads.getWithFilters s threadId filters).1 := by
  unfold getWithFilters
  split
  · exact .same
  · split
    · exact .same
    · exact .same
    · exact .completes _ .same

namespace Runs

theorem filterCandidates_completed (filters : PyVal) (s : Runtime) (candidates : List Nat) :
    Completed s (filterCandidates filters s candidates).1 := by
  induction candidates generalizing s with
  | nil => exact .same
  | cons r rest ih =>
    have first := Threads.getWithFilters_completed s (s.runs.get r).threadId filters
    unfold filterCandidates
    cases looked : Threads.getWithFilters s (s.runs.get r).threadId filters with
    | mk after found =>
      rw [looked] at first
      cases found with
      | error => exact first
      | ok found =>
        have later := ih after
        cases kept : filterCandidates filters after rest with
        | mk last outcome =>
          rw [kept] at later
          dsimp only
          rw [kept]
          cases outcome <;> exact first.trans later

theorem authorizedCandidates_completed (call : CancelCall) (filters : PyVal) (s : Runtime) (candidates : List Nat) :
    Completed s (authorizedCandidates call filters s candidates).1 := by
  unfold authorizedCandidates
  split
  · split
    · rename_i threadId _
      have read := Threads.getWithFilters_completed s threadId filters
      split
      · rename_i looked
        rwa [looked] at read
      · rename_i looked
        rwa [looked] at read
    · exact filterCandidates_completed filters s candidates
  · exact .same

end Runs

end InmemRuntime
