import InmemRuntime.Lib.LoneCall
import InmemRuntime.Runtime

namespace InmemRuntime

/-- `s'` is `s`, up to which objects the records of the threads are. -/
structure Runtime.Unchanged (s s' : Runtime) : Prop where
  threads : s'.threads.values = s.threads.values
  rest : s' = { s with threads := s'.threads }

theorem Runtime.Unchanged.refl (s : Runtime) : s.Unchanged s := ⟨rfl, rfl⟩

section Attempts

variable {σ κ β α ρ : Type} {resume : σ → κ → β → σ × Turn κ (Except PyError ρ)}
  {post : σ → Except PyError ρ → Prop} {replies : List β} {s : σ}

@[simp] theorem ensures_raised {e : PyError} : Turn.Ensures resume post replies (raised s e) ↔ post s (.error e) :=
  Turn.ensures_finished

@[simp] theorem ensures_returned {value : ρ} :
    Turn.Ensures resume post replies (returned s value) ↔ post s (.ok value) :=
  Turn.ensures_finished

@[simp] theorem ensures_attempt {x : Except PyError α} {next : α → σ × Turn κ (Except PyError ρ)} :
    Turn.Ensures resume post replies (attempt s x next) ↔
      (∀ e, x = .error e → post s (.error e)) ∧
        ∀ value, x = .ok value → Turn.Ensures resume post replies (next value) := by
  cases x <;> simp

end Attempts

/-- Where a sequence of two computations fails. -/
theorem bind_error_iff {α β : Type} {x : Except PyError α} {f : α → Except PyError β} :
    (∃ e, (x >>= f) = .error e) ↔ (∃ e, x = .error e) ∨ ∃ value, x = .ok value ∧ ∃ e, f value = .error e := by
  cases x with
  | error e => simp [bind, Except.bind]
  | ok value => simp [bind, Except.bind]

end InmemRuntime
