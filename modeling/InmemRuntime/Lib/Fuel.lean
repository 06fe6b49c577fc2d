import Mathlib.Order.Lattice
import Mathlib.Order.Nat

namespace Fuel

variable {α β : Type*}

/-- Every large enough fuel gives the same result. -/
def Settles (f : Nat → Option α) (a : α) : Prop := ∃ enough, ∀ fuel, enough ≤ fuel → f fuel = some a

theorem Settles.const (a : α) : Settles (fun _ => some a) a := ⟨0, fun _ _ => rfl⟩

theorem Settles.unique {f : Nat → Option α} {a b : α} (one : Settles f a) (two : Settles f b) :
    a = b := by
  obtain ⟨n, atN⟩ := one
  obtain ⟨m, atM⟩ := two
  exact Option.some.inj ((atN (max n m) (Nat.le_max_left n m)).symm.trans (atM (max n m) (Nat.le_max_right n m)))

/-- A result reached at some fuel is final when more fuel never changes a result. -/
theorem Settles.of_mono {f : Nat → Option α} {a : α} {fuel : Nat} (run : f fuel = some a)
    (mono : ∀ n m, n ≤ m → f n = some a → f m = some a) : Settles f a :=
  ⟨fuel, fun m le => mono fuel m le run⟩

theorem Settles.bind {f : Nat → Option α} {g : Nat → α → Option β} {a : α} {b : β}
    (first : Settles f a) (second : Settles (fun fuel => g fuel a) b) :
    Settles (fun fuel => (f fuel).bind (g fuel)) b := by
  obtain ⟨n, atN⟩ := first
  obtain ⟨m, atM⟩ := second
  refine ⟨max n m, fun fuel le => ?_⟩
  change (f fuel).bind (g fuel) = some b
  rw [atN fuel ((Nat.le_max_left n m).trans le), Option.bind_some]
  exact atM fuel ((Nat.le_max_right n m).trans le)

/-- A fold whose steps keep their results with more fuel keeps its own. -/
theorem foldlM_mono {f g : β → α → Option β} (steps : ∀ b a b', f b a = some b' → g b a = some b') {l : List α}
    {b b' : β} (run : l.foldlM f b = some b') : l.foldlM g b = some b' := by
  induction l generalizing b with
  | nil => exact run
  | cons a l ih =>
    obtain ⟨middle, first, rest⟩ := Option.bind_eq_some_iff.mp run
    exact Option.bind_eq_some_iff.mpr ⟨middle, steps _ _ _ first, ih rest⟩

/-- A fuel for each of finitely many items gives one for all of them. -/
theorem exists_common {P : Nat → α → Prop} (more : ∀ n m a, n ≤ m → P n a → P m a) {l : List α}
    (each : ∀ a ∈ l, ∃ n, P n a) : ∃ n, ∀ a ∈ l, P n a := by
  induction l with
  | nil => exact ⟨0, fun _ member => absurd member List.not_mem_nil⟩
  | cons a l ih =>
    obtain ⟨⟨n, first⟩, each⟩ := List.forall_mem_cons.mp each
    obtain ⟨m, rest⟩ := ih each
    exact ⟨max n m, List.forall_mem_cons.mpr ⟨more _ _ _ (Nat.le_max_left ..) first,
      fun b member => more _ _ _ (Nat.le_max_right ..) (rest b member)⟩⟩

/-- A fold settles when each of its steps does, under an invariant of the accumulator. -/
theorem exists_settles_foldlM (step : Nat → β → α → Option β) (invariant : β → Prop)
    (l : List α) (start : β) (settle : ∀ acc, invariant acc → ∀ x ∈ l,
      ∃ acc', Settles (fun fuel => step fuel acc x) acc' ∧ invariant acc')
    (initial : invariant start) :
    ∃ acc, Settles (fun fuel => l.foldlM (step fuel) start) acc ∧ invariant acc := by
  induction l generalizing start with
  | nil => exact ⟨start, .const start, initial⟩
  | cons x l ih =>
    obtain ⟨middle, first, kept⟩ := settle start initial x (List.mem_cons_self ..)
    obtain ⟨acc, rest, final⟩ := ih middle
      (fun acc kept y member => settle acc kept y (List.mem_cons_of_mem _ member)) kept
    exact ⟨acc, Settles.bind first rest, final⟩

end Fuel
