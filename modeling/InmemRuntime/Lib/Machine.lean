import Mathlib.Logic.Basic

namespace Machine

variable {σ τ ι κ ο ω : Type*}

/-- The answers to the inputs that are the user's own. -/
def answersTo (machine : σ → ι → σ × ο) (own : ι → Option κ) : σ → List ι → List ο
  | _, [] => []
  | s, input :: inputs =>
    let next := machine s input
    match own input with
    | some _ => next.2 :: answersTo machine own next.1 inputs
    | none => answersTo machine own next.1 inputs

/-- All the answers. -/
def answers (machine : σ → ι → σ × ο) : σ → List ι → List ο
  | _, [] => []
  | s, input :: inputs => (machine s input).2 :: answers machine (machine s input).1 inputs

/-- Every input meets a condition on the state that it finds. -/
def Meets (machine : σ → ι → σ × ο) (allowed : σ → ι → Prop) : σ → List ι → Prop
  | _, [] => True
  | s, input :: inputs => allowed s input ∧ Meets machine allowed (machine s input).1 inputs

theorem Meets.of_forall (machine : σ → ι → σ × ο) {allowed : σ → ι → Prop} (always : ∀ s input, allowed s input)
    (s : σ) (inputs : List ι) : Meets machine allowed s inputs := by
  induction inputs generalizing s with
  | nil => trivial
  | cons input inputs ih => exact ⟨always s input, ih _⟩

/-- A user of the shared machine is answered as on a machine of its own when a
relation between the two is kept by its own inputs, with answers that look
alike, and by the inputs of the others. -/
theorem answersTo_eq {shared : τ → ι → τ × ο} {alone : σ → κ → σ × ο} {own : ι → Option κ} {see : ο → ω}
    {allowed : τ → ι → Prop} {R : σ → τ → Prop}
    (follows : ∀ {s t input k}, R s t → allowed t input → own input = some k →
      R (alone s k).1 (shared t input).1 ∧ see (alone s k).2 = see (shared t input).2)
    (stays : ∀ {s t input}, R s t → own input = none → R s (shared t input).1)
    {s : σ} {t : τ} (start : R s t) {inputs : List ι} (meets : Meets shared allowed t inputs) :
    (answersTo shared own t inputs).map see = (answers alone s (inputs.filterMap own)).map see := by
  induction inputs generalizing s t with
  | nil => rfl
  | cons input inputs ih =>
    obtain ⟨first, later⟩ := meets
    cases mine : own input with
    | none =>
      simp only [answersTo, mine, List.filterMap_cons_none mine]
      exact ih (stays start mine) later
    | some k =>
      obtain ⟨kept, seen⟩ := follows start first mine
      simp only [answersTo, mine, List.filterMap_cons_some mine, answers, List.map_cons, seen]
      rw [ih kept later]

end Machine
