import Mathlib.Data.List.Basic

namespace List

variable {α : Type*}

/-- The first `count` slices are the beginning of the list. -/
theorem flatten_slices (size : Nat) (l : List α) (count : Nat) :
    ((range count).map (fun i => (l.drop (size * i)).take size)).flatten = l.take (size * count) := by
  induction count with
  | zero => simp
  | succ count ih =>
    rw [range_succ, map_append, flatten_append, ih, Nat.mul_succ, take_add]
    simp

/-- The slices at all offsets below the length are the list. -/
theorem flatten_all_slices {size : Nat} (positive : 0 < size) (l : List α) :
    ((range ((l.length + size - 1) / size)).map (fun i => (l.drop (size * i)).take size)).flatten = l := by
  rw [flatten_slices, take_of_length_le]
  have whole := Nat.div_add_mod (l.length + size - 1) size
  have rest := Nat.mod_lt (l.length + size - 1) positive
  omega

end List
