import Mathlib.Data.List.Induction

/-- The states that a sequence of calls reaches, each of which runs without
interruption and meets a condition on the state that it finds. -/
inductive Serial {σ ι : Type*} (step : σ → ι → σ) (allowed : σ → ι → Prop) (initial : σ) : σ → Prop
  | start : Serial step allowed initial initial
  | next {s} (call : ι) : Serial step allowed initial s → allowed s call → Serial step allowed initial (step s call)

namespace Serial

variable {σ ι : Type*} {step : σ → ι → σ} {allowed : σ → ι → Prop} {initial s : σ}

/-- What holds at first and is kept by every call holds in every state reached. -/
theorem invariant {P : σ → Prop} (reach : Serial step allowed initial s) (first : P initial)
    (kept : ∀ {s call}, P s → allowed s call → P (step s call)) : P s := by
  induction reach with
  | start => exact first
  | next call _ met ih => exact kept ih met

theorem weaken {weaker : σ → ι → Prop} (reach : Serial step allowed initial s)
    (weak : ∀ {s call}, allowed s call → weaker s call) : Serial step weaker initial s := by
  induction reach with
  | start => exact .start
  | next call _ met ih => exact .next call ih (weak met)

/-- Without a condition any list of calls can be made. -/
theorem foldl (reach : Serial step (fun _ _ => True) initial s) (calls : List ι) :
    Serial step (fun _ _ => True) initial (calls.foldl step s) := by
  induction calls generalizing s with
  | nil => exact reach
  | cons call calls ih => exact ih (reach.next call trivial)

/-- The calls of a list each meet a condition on those before it when the last one
does and the others do. -/
theorem forall_split_concat {met : List ι → ι → Prop} {calls : List ι} {last : ι} :
    (∀ before call after, calls ++ [last] = before ++ call :: after → met before call) ↔
      (∀ before call after, calls = before ++ call :: after → met before call) ∧ met calls last := by
  constructor
  · intro all
    refine ⟨fun before call after split => ?_, all calls last [] rfl⟩
    exact all before call (after ++ [last]) (by rw [split, List.append_assoc, List.cons_append])
  · rintro ⟨earlier, own⟩ before call after split
    rcases List.eq_nil_or_concat after with rfl | ⟨later, final, rfl⟩
    · obtain ⟨rfl, same⟩ := List.append_inj' split rfl
      cases same
      exact own
    · rw [List.concat_eq_append, ← List.cons_append, ← List.append_assoc] at split
      exact earlier before call later (List.append_inj_left' split rfl)

/-- What a call keeps just when it is allowed, and what never comes back, holds
after some calls just when each of them was allowed. -/
theorem foldl_iff {P Inv : σ → Prop} (kept : ∀ {s call}, Inv s → Inv (step s call))
    (keeps : ∀ {s call}, Inv s → (P (step s call) ↔ P s ∧ allowed s call)) (well : Inv initial) (first : P initial)
    (calls : List ι) :
    P (calls.foldl step initial) ↔
      ∀ before call after, calls = before ++ call :: after → allowed (before.foldl step initial) call := by
  suffices both : Inv (calls.foldl step initial) ∧ (P (calls.foldl step initial) ↔
      ∀ before call after, calls = before ++ call :: after → allowed (before.foldl step initial) call) from both.2
  induction calls using List.reverseRecOn with
  | nil => exact ⟨well, fun _ before call after split => by simp at split, fun _ => first⟩
  | append_singleton calls last ih =>
    obtain ⟨inside, ih⟩ := ih
    rw [List.foldl_append, List.foldl_cons, List.foldl_nil, forall_split_concat, ← ih]
    exact ⟨kept inside, keeps inside⟩

end Serial
