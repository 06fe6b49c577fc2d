import Mathlib.Data.Option.Basic

section Options

variable {α β γ : Type*} {R : α → β → Prop} {a : Option α} {b : Option β}

theorem Option.Rel.refl {R : α → α → Prop} (same : ∀ x, R x x) (a : Option α) : Option.Rel R a a := by
  cases a with
  | none => exact .none
  | some x => exact .some (same x)

theorem Option.Rel.getD (rel : Option.Rel R a b) {x : α} {y : β} (fallback : R x y) : R (a.getD x) (b.getD y) := by
  cases rel with
  | none => exact fallback
  | some related => exact related

theorem Option.Rel.isSome_eq (rel : Option.Rel R a b) : a.isSome = b.isSome := by
  cases rel with
  | none => rfl
  | some _ => rfl

theorem Option.Rel.some_left {x : α} (rel : Option.Rel R (Option.some x) b) : ∃ y, b = Option.some y ∧ R x y := by
  cases rel with
  | some related => exact ⟨_, rfl, related⟩

theorem Option.Rel.some_right {y : β} (rel : Option.Rel R a (Option.some y)) : ∃ x, a = Option.some x ∧ R x y := by
  cases rel with
  | some related => exact ⟨_, rfl, related⟩

theorem Option.Rel.none_left (rel : Option.Rel R Option.none b) : b = Option.none := by
  cases rel with
  | none => rfl

theorem Option.Rel.of_map {f : α → γ} {g : β → γ} (same : a.map f = b.map g) : Option.Rel (fun x y => f x = g y) a b := by
  cases a with
  | none =>
    obtain rfl : b = Option.none := Option.map_eq_none_iff.mp same.symm
    exact .none
  | some x =>
    obtain ⟨y, rfl, equal⟩ := Option.map_eq_some_iff.mp same.symm
    exact .some equal.symm

theorem Option.Rel.of_isSome (same : a.isSome = b.isSome) : Option.Rel (fun _ _ => True) a b := by
  cases a with
  | none =>
    obtain rfl : b = Option.none := by simpa using same
    exact .none
  | some x =>
    obtain ⟨y, rfl⟩ := Option.isSome_iff_exists.mp same.symm
    exact .some trivial

end Options

/-- Both end normally with related results, or both raise and leave related states. -/
inductive EndAlike {ε ε' α β : Type*} (E : ε → ε' → Prop) (R : α → β → Prop) : Except ε α → Except ε' β → Prop
  | error {e e'} : E e e' → EndAlike E R (.error e) (.error e')
  | ok {a b} : R a b → EndAlike E R (.ok a) (.ok b)

/-- Either way of ending leaves a state with the property. -/
inductive Leaves {ε α : Type*} (E : ε → Prop) (R : α → Prop) : Except ε α → Prop
  | error {e} : E e → Leaves E R (.error e)
  | ok {a} : R a → Leaves E R (.ok a)
