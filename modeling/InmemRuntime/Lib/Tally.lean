import InmemRuntime.Lib.Dict
import Mathlib.Algebra.Group.Basic
import Mathlib.Algebra.Group.Defs

namespace Tally

variable {τ κ ν M : Type*}

section Shifts

/-- From one weight to the next, `old` of the owner gives way to `new`. -/
def Shifts [AddCommMonoid M] (before after : (τ → Bool) → M) (t : τ) (old new : M) : Prop :=
  ∀ p, after p + (if p t then old else 0) = before p + (if p t then new else 0)

namespace Shifts

variable [AddCommMonoid M] {w w' w'' v v' : (τ → Bool) → M} {t : τ} {old new old' new' : M}

theorem refl (w : (τ → Bool) → M) (t : τ) : Shifts w w t 0 0 := fun _ => rfl

theorem trans (first : Shifts w w' t old new) (second : Shifts w' w'' t old' new') :
    Shifts w w'' t (old + old') (new + new') := by
  intro p
  have one := first p
  have two := second p
  by_cases selected : p t
  · simp only [selected, if_true] at one two ⊢
    calc w'' p + (old + old') = w'' p + old' + old := by rw [add_comm old, add_assoc]
      _ = w' p + new' + old := by rw [two]
      _ = w' p + old + new' := by rw [add_right_comm]
      _ = w p + (new + new') := by rw [one, add_assoc]
  · simp only [selected, Bool.false_eq_true, if_false, add_zero] at one two ⊢
    rw [two, one]

theorem add (left : Shifts w w' t old new) (right : Shifts v v' t old' new') :
    Shifts (fun p => w p + v p) (fun p => w' p + v' p) t (old + old') (new + new') := by
  intro p
  have one := left p
  have two := right p
  by_cases selected : p t
  · simp only [selected, if_true] at one two ⊢
    rw [add_add_add_comm, one, two, add_add_add_comm]
  · simp only [selected, Bool.false_eq_true, if_false, add_zero] at one two ⊢
    rw [one, two]

end Shifts

/-- A shift by whole weights is the shift by the parts that differ. -/
theorem Shifts.cancel [AddCancelCommMonoid M] {w w' : (τ → Bool) → M} {t : τ} {whole whole' old new : M}
    (shift : Shifts w w' t whole whole') (balance : whole' + old = whole + new) : Shifts w w' t old new := by
  intro p
  have atP := shift p
  by_cases selected : p t
  · simp only [selected, if_true] at atP ⊢
    have total : w' p + old + whole = w p + new + whole := by
      calc w' p + old + whole = w' p + whole + old := add_right_comm ..
        _ = w p + (whole' + old) := by rw [atP, add_assoc]
        _ = w p + new + whole := by rw [balance, add_comm whole, add_assoc]
    exact add_right_cancel total
  · simpa [selected] using atP

end Shifts

variable [AddCommMonoid M]

/-- What the items of the selected owners weigh. -/
def tally (owner : κ → τ) (size : κ → ν → M) (d : Dict κ ν) (p : τ → Bool) : M :=
  d.sum (fun k v => if p (owner k) then size k v else 0)

section Tally

variable {owner : κ → τ} {size : κ → ν → M} {t : τ}

variable (size) in
theorem tally_filter (d : Dict κ ν) (keep : κ → ν → Bool)
    (dropped : ∀ e ∈ d.entries, keep e.1 e.2 = false → owner e.1 = t) :
    Shifts (tally owner size d) (tally owner size (d.filter keep)) t
      ((d.filter (fun k v => !keep k v)).sum size) 0 := by
  intro p
  have parts := d.sum_filter_add_sum_filter_not keep (fun k v => if p (owner k) then size k v else 0)
  have out : (d.filter (fun k v => !keep k v)).sum (fun k v => if p (owner k) then size k v else 0) =
      if p t then (d.filter (fun k v => !keep k v)).sum size else 0 := by
    have same : ∀ e ∈ (d.filter (fun k v => !keep k v)).entries,
        (if p (owner e.1) then size e.1 e.2 else 0) = if p t then size e.1 e.2 else 0 := by
      intro e member
      obtain ⟨inside, failed⟩ := Dict.mem_filter_entries.mp member
      rw [dropped e inside (by simpa using failed)]
    unfold Dict.sum
    rw [List.map_congr_left same]
    cases p t with
    | true => rfl
    | false => simp
  rw [out] at parts
  simpa [tally] using parts

variable [DecidableEq κ]

theorem tally_setAll (d : Dict κ ν) {pairs : List (κ × ν)} (distinct : (pairs.map Prod.fst).Nodup)
    (owned : ∀ e ∈ pairs, owner e.1 = t) :
    Shifts (tally owner size d) (tally owner size (d.setAll pairs)) t
      (pairs.map (fun e => (d.get? e.1).elim 0 (size e.1))).sum
      (pairs.map (fun e => size e.1 e.2)).sum := by
  intro p
  have replaced := d.sum_setAll_add distinct (fun k v => if p (owner k) then size k v else 0)
  have old : pairs.map (fun e => (d.get? e.1).elim 0 (fun v => if p (owner e.1) then size e.1 v else 0)) =
      pairs.map (fun e => if p t then (d.get? e.1).elim 0 (size e.1) else 0) := by
    refine List.map_congr_left (fun e member => ?_)
    rw [owned e member]
    cases d.get? e.1 with
    | none => simp
    | some v => rfl
  have new : pairs.map (fun e => if p (owner e.1) then size e.1 e.2 else 0) =
      pairs.map (fun e => if p t then size e.1 e.2 else 0) :=
    List.map_congr_left (fun e member => by rw [owned e member])
  rw [old, new] at replaced
  cases selected : p t with
  | true => simpa [tally, selected] using replaced
  | false => simpa [tally, selected] using replaced

theorem tally_set (d : Dict κ ν) (k : κ) (v : ν) :
    Shifts (tally owner size d) (tally owner size (d.set k v)) (owner k)
      ((d.get? k).elim 0 (size k)) (size k v) := by
  have single : Shifts (tally owner size d) (tally owner size (d.setAll [(k, v)])) (owner k) _ _ :=
    tally_setAll d (by simp) (by simp)
  simpa using single

omit [DecidableEq κ] in
/-- The items of one owner, taken by themselves. -/
theorem tally_only [DecidableEq τ] (d : Dict κ ν) :
    tally owner size d (fun u => decide (u = t)) =
      ((d.entries.filter (fun e => decide (owner e.1 = t))).map (fun e => size e.1 e.2)).sum := by
  simp only [tally, Dict.sum, decide_eq_true_eq]
  induction d.entries with
  | nil => rfl
  | cons e entries ih =>
    by_cases mine : owner e.1 = t
    · simp [mine, ih]
    · simp [mine, ih]

omit [DecidableEq κ] in
theorem tally_only_eq_zero [DecidableEq τ] {d : Dict κ ν} (none_owned : ∀ e ∈ d.entries, owner e.1 ≠ t) :
    tally owner size d (fun u => decide (u = t)) = 0 := by
  have nothing : d.entries.filter (fun e => decide (owner e.1 = t)) = [] :=
    List.filter_eq_nil_iff.mpr (fun e member => by simpa using none_owned e member)
  rw [tally_only, nothing]
  rfl

/-- Pairs under new keys only add their weight. -/
theorem tally_setAll_new (d : Dict κ ν) {pairs : List (κ × ν)} (distinct : (pairs.map Prod.fst).Nodup)
    (owned : ∀ e ∈ pairs, owner e.1 = t) (new : ∀ e ∈ pairs, d.get? e.1 = none) :
    Shifts (tally owner size d) (tally owner size (d.setAll pairs)) t 0
      (pairs.map (fun e => size e.1 e.2)).sum := by
  have shift : Shifts (tally owner size d) (tally owner size (d.setAll pairs)) t _ _ :=
    tally_setAll d distinct owned
  have nothing : pairs.map (fun e => (d.get? e.1).elim 0 (size e.1)) = pairs.map (fun _ => 0) :=
    List.map_congr_left (fun e member => by rw [new e member]; rfl)
  have zero : (pairs.map (fun _ => (0 : M))).sum = 0 := by simp
  rwa [nothing, zero] at shift

/-- Copying the items of one owner to new keys of another adds their weight. -/
theorem tally_copy [DecidableEq τ] (d : Dict κ ν) {s : τ} (rename : κ → κ) (change : ν → ν)
    (injective : ∀ j k, owner j = s → owner k = s → rename j = rename k → j = k)
    (owned : ∀ k, owner (rename k) = t) (absent : ∀ k ∈ d.keys, owner k ≠ t)
    (same : ∀ e ∈ d.entries, owner e.1 = s → size (rename e.1) (change e.2) = size e.1 e.2) :
    Shifts (tally owner size d)
      (tally owner size (d.setAll ((d.entries.filter (fun e => decide (owner e.1 = s))).map
        (fun e => (rename e.1, change e.2))))) t 0 (tally owner size d (fun u => decide (u = s))) := by
  have ofOwner : ∀ e ∈ d.entries.filter (fun e => decide (owner e.1 = s)), e ∈ d.entries ∧ owner e.1 = s := by
    intro e member
    simpa using List.mem_filter.mp member
  have weight : tally owner size d (fun u => decide (u = s)) =
      (((d.entries.filter (fun e => decide (owner e.1 = s))).map (fun e => (rename e.1, change e.2))).map
        (fun e => size e.1 e.2)).sum := by
    rw [tally_only, List.map_map]
    refine congrArg List.sum (List.map_congr_left (fun e member => ?_))
    obtain ⟨inside, mine⟩ := ofOwner e member
    exact (same e inside mine).symm
  rw [weight]
  refine tally_setAll_new d ?_ ?_ ?_
  · have keys : (d.entries.filter (fun e => decide (owner e.1 = s))).map Prod.fst |>.Nodup :=
      d.nodup.sublist (List.filter_sublist.map _)
    have renamed := List.Nodup.map_on (f := rename) (fun j inJ k inK equal => ?_) keys
    · simpa [List.map_map, Function.comp_def] using renamed
    · obtain ⟨e, memberE, rfl⟩ := List.mem_map.mp inJ
      obtain ⟨f, memberF, rfl⟩ := List.mem_map.mp inK
      exact injective _ _ (ofOwner e memberE).2 (ofOwner f memberF).2 equal
  · intro e member
    obtain ⟨f, _, rfl⟩ := List.mem_map.mp member
    exact owned f.1
  · intro e member
    obtain ⟨f, _, rfl⟩ := List.mem_map.mp member
    rw [Dict.get?_eq_none_iff]
    exact fun present => absent _ present (owned f.1)

end Tally

end Tally
