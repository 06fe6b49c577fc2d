import InmemRuntime.HeldIndices
import InmemRuntime.Lib.Twins
import InmemRuntime.Lib.Unwinding
import InmemRuntime.ReadCalls
import InmemRuntime.SharedMemory

namespace InmemRuntime

/-- The thread's id passes the test. -/
def Thread.passes (p : String → Bool) (thread : Thread) : Bool := p thread.threadId.str

/-- The run's thread passes the test. -/
def Run.passes (p : String → Bool) (run : Run) : Bool := p run.threadId.str

/-- The cron's thread passes the test, or it has none and the text `None` passes. -/
def Cron.passes (p : String → Bool) (cron : Cron) : Bool := p (cron.threadId.elim "None" Uuid.str)

/-- The threads whose ids pass the test are the same with their belongings, and so is
all that belongs to no thread; each store keeps what it had at first of the others. -/
structure Runtime.Agree (p : String → Bool) (first first' s s' : Runtime) : Prop where
  threads : Table.Agree (Thread.passes p) first.threads first'.threads s.threads s'.threads
  runs : Table.Agree (Run.passes p) first.runs first'.runs s.runs s'.runs
  crons : SharedPart (Cron.passes p) first.crons first'.crons s.crons s'.crons
  threadTtls : Dict.Agree p first.threadTtls first'.threadTtls s.threadTtls s'.threadTtls
  memory : Memory.Agree p first.memory first'.memory s.memory s'.memory
  assistants : s.assistants = s'.assistants
  retryCounter : s.retryCounter = s'.retryCounter
  streams : s.streams = s'.streams
  runLocked : s.runLocked = s'.runLocked
  config : s.config = s'.config

theorem Runtime.Agree.refl (p : String → Bool) (s : Runtime) : Runtime.Agree p s s s s where
  threads := ⟨rfl, rfl, rfl⟩
  runs := ⟨rfl, rfl, rfl⟩
  crons := ⟨rfl, rfl, rfl⟩
  threadTtls := ⟨rfl, rfl, rfl⟩
  memory := ⟨⟨rfl, rfl, rfl⟩, ⟨rfl, rfl, rfl⟩, ⟨rfl, rfl, rfl⟩, ⟨rfl, rfl, rfl⟩, rfl, rfl⟩
  assistants := rfl
  retryCounter := rfl
  streams := rfl
  runLocked := rfl
  config := rfl

/-- The filter lets no thread pass whose id fails the test. -/
def Runtime.Hides (filters : PyVal) (p : String → Bool) (s : Runtime) : Prop :=
  ∀ thread ∈ s.threads.values, p thread.threadId.str = false → filtersAllow thread.metadata filters = .ok false

section Stores

variable {p : String → Bool} {filters : PyVal} {first first' s s' : Runtime} {threadId : Uuid}

theorem Runtime.Agree.hides (agree : Runtime.Agree p first first' s s') (hides : first.Hides filters p) :
    s.Hides filters p := by
  intro thread member fails
  have kept : thread ∈ first.threads.values.filter (fun thread => !thread.passes p) :=
    agree.threads.kept ▸ List.mem_filter.mpr ⟨member, by simp [Thread.passes, fails]⟩
  exact hides thread (List.mem_filter.mp kept).1 fails

theorem Runtime.Agree.hides' (agree : Runtime.Agree p first first' s s') (hides : first'.Hides filters p) :
    s'.Hides filters p := by
  intro thread member fails
  have kept : thread ∈ first'.threads.values.filter (fun thread => !thread.passes p) :=
    agree.threads.kept' ▸ List.mem_filter.mpr ⟨member, by simp [Thread.passes, fails]⟩
  exact hides thread (List.mem_filter.mp kept).1 fails

/-- A thread that a search by a hidden id finds does not match. -/
theorem Runtime.Hides.refuses (hides : s.Hides filters p) (hidden : p threadId.str = false) {r : Nat}
    (found : s.threads.find? (Threads.byId threadId) = some r) :
    filtersAllow (s.threads.get r).metadata filters = .ok false := by
  refine hides _ (Table.mem_values.mpr ⟨r, Table.find?_mem found, rfl⟩) ?_
  rwa [threadId_of_find? found]

theorem byId_passes (shown : p threadId.str = true) (thread : Thread) (own : Threads.byId threadId thread = true) :
    thread.passes p = true := by
  rw [Thread.passes, of_decide_eq_true own]
  exact shown

@[simp] theorem passes_withStateUpdatedAt (thread : Thread) : thread.withStateUpdatedAt.passes p = thread.passes p := rfl

/-- A hidden thread is as if it were not there. -/
theorem getWithFilters_hidden (hides : s.Hides filters p) (hidden : p threadId.str = false) :
    Threads.getWithFilters s threadId filters = (s, .ok none) := by
  unfold Threads.getWithFilters
  cases found : s.threads.find? (Threads.byId threadId) with
  | none => rfl
  | some r => simp only [hides.refuses hidden found]

/-- A lookup changes no thread's metadata. -/
theorem Runtime.Hides.lookup (hides : s.Hides filters p) (threadId : Uuid) :
    (Threads.getWithFilters s threadId filters).1.Hides filters p := by
  unfold Threads.getWithFilters
  split
  · exact hides
  · split
    · exact hides
    · exact hides
    · intro thread member fails
      rcases Table.mem_update_values member with old | ⟨listed, rfl⟩
      · exact hides thread old fails
      · exact hides (s.threads.get _) (Table.mem_values.mpr ⟨_, listed, rfl⟩) fails

/-- An assignment to the same shown thread of both stores. -/
theorem Runtime.Agree.updateThread (agree : Runtime.Agree p first first' s s') {r r' : Nat} {f : Thread → Thread}
    (twins : Table.Twins (Thread.passes p) s.threads s'.threads r r') (same : ∀ thread, (f thread).passes p = thread.passes p) :
    Runtime.Agree p first first' { s with threads := s.threads.update r f } { s' with threads := s'.threads.update r' f } :=
  { agree with threads := agree.threads.update twins same }

theorem Runtime.Agree.withMemory (agree : Runtime.Agree p first first' s s') {m m' : Memory}
    (memory : Memory.Agree p first.memory first'.memory m m') :
    Runtime.Agree p first first' { s with memory := m } { s' with memory := m' } := { agree with memory := memory }

/-- A lookup by a filter that hides: with the same result, and with the same record
completed in both stores if there is one. -/
inductive Found (p : String → Bool) (first first' : Runtime) (threadId : Uuid) :
    Runtime × Except PyError (Option Nat) → Runtime × Except PyError (Option Nat) → Prop
  | error {t t' : Runtime} {e : PyError} : Runtime.Agree p first first' t t' →
      Found p first first' threadId (t, .error e) (t', .error e)
  | none {t t' : Runtime} : Runtime.Agree p first first' t t' → Found p first first' threadId (t, .ok none) (t', .ok none)
  | some {t t' : Runtime} {r r' : Nat} : Runtime.Agree p first first' t t' → p threadId.str = true →
      Table.Twins (Thread.passes p) t.threads t'.threads r r' → (t.threads.get r).threadId = threadId →
      Found p first first' threadId (t, .ok (some r)) (t', .ok (some r'))

theorem found_of_shown (agree : Runtime.Agree p first first' s s') (shown : p threadId.str = true) (filters : PyVal) :
    Found p first first' threadId (Threads.getWithFilters s threadId filters) (Threads.getWithFilters s' threadId filters) := by
  unfold Threads.getWithFilters
  rcases agree.threads.alike.find? (byId_passes shown) with ⟨none, none'⟩ | ⟨r, r', found, found', twins⟩
  · rw [none, none']
    exact .none agree
  · simp only [found, found', twins.get agree.threads.alike]
    cases filtersAllow (s'.threads.get r').metadata filters with
    | error e => exact .error agree
    | ok allowed =>
      cases allowed with
      | false => exact .none agree
      | true =>
        refine .some (agree.updateThread twins passes_withStateUpdatedAt) shown (twins.update passes_withStateUpdatedAt) ?_
        simp only [Table.update_get_self]
        exact threadId_of_find? found

theorem found_getWithFilters (agree : Runtime.Agree p first first' s s') (hides : first.Hides filters p)
    (hides' : first'.Hides filters p) (threadId : Uuid) :
    Found p first first' threadId (Threads.getWithFilters s threadId filters) (Threads.getWithFilters s' threadId filters) := by
  cases shown : p threadId.str with
  | true => exact found_of_shown agree shown filters
  | false =>
    rw [getWithFilters_hidden (agree.hides hides) shown, getWithFilters_hidden (agree.hides' hides') shown]
    exact .none agree

theorem getWithFilters_runs (s : Runtime) (threadId : Uuid) (filters : PyVal) :
    (Threads.getWithFilters s threadId filters).1.runs = s.runs := by
  unfold Threads.getWithFilters
  split
  · rfl
  · split <;> rfl

/-- What `put` and `patch` do with their `ttl` argument. -/
theorem applyTtl_agree {first first' ttls ttls' : ThreadTtls} (agree : Dict.Agree p first first' ttls ttls')
    (shown : p threadId.str = true) (ttl : Option PyDict) :
    (∃ e, applyTtl ttls threadId ttl = .error e ∧ applyTtl ttls' threadId ttl = .error e) ∨
      ∃ next next', applyTtl ttls threadId ttl = .ok next ∧ applyTtl ttls' threadId ttl = .ok next' ∧
        Dict.Agree p first first' next next' := by
  cases ttl with
  | none => exact .inr ⟨ttls, ttls', rfl, rfl, agree⟩
  | some ttl =>
    simp only [applyTtl, setThreadTtlOverride]
    cases normalizeTtlConfig (some ttl) with
    | error e => exact .inl ⟨e, rfl, rfl⟩
    | ok config =>
      cases config with
      | none => exact .inr ⟨_, _, rfl, rfl, agree.erase shown⟩
      | some config => exact .inr ⟨_, _, rfl, rfl, agree.set shown _⟩

end Stores

end InmemRuntime
