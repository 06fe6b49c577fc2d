import Mathlib.Data.List.Nodup
import Mathlib.Data.List.Perm.Subperm
import InmemRuntime.PyVal

namespace InmemRuntime

namespace PyDict

def keys (d : PyDict) : List String := d.map Prod.fst

/-- No key of a dict has two items. -/
def Distinct (d : PyDict) : Prop := d.keys.Nodup

instance (d : PyDict) : Decidable d.Distinct := inferInstanceAs (Decidable d.keys.Nodup)

theorem mem_of_get? {d : PyDict} {key : String} {value : PyVal} (found : d.get? key = some value) :
    (key, value) ∈ d := by
  induction d with
  | nil => cases found
  | cons item d ih =>
    rw [get?_cons] at found
    by_cases here : key = item.1
    · rw [if_pos here] at found
      exact List.mem_cons.mpr (.inl (Prod.ext here (Option.some.inj found).symm))
    · rw [if_neg here] at found
      exact List.mem_cons_of_mem item (ih found)

theorem get?_of_mem {d : PyDict} {key : String} {value : PyVal} (distinct : d.Distinct)
    (member : (key, value) ∈ d) : d.get? key = some value := by
  induction d with
  | nil => cases member
  | cons item d ih =>
    have split := List.nodup_cons.mp distinct
    rw [get?_cons]
    rcases List.mem_cons.mp member with here | later
    · rw [← here, if_pos rfl]
    · have apart : key ≠ item.1 := by
        intro same
        exact split.1 (List.mem_map.mpr ⟨(key, value), later, same⟩)
      rw [if_neg apart]
      exact ih split.2 later

theorem mem_keys_of_get? {d : PyDict} {key : String} {value : PyVal} (found : d.get? key = some value) :
    key ∈ d.keys := List.mem_map.mpr ⟨(key, value), mem_of_get? found, rfl⟩

theorem exists_of_mem_keys {d : PyDict} {key : String} (member : key ∈ d.keys) : ∃ value, d.get? key = some value := by
  cases found : d.get? key with
  | some value => exact ⟨value, rfl⟩
  | none =>
    obtain ⟨item, listed, named⟩ := List.mem_map.mp member
    induction d with
    | nil => cases listed
    | cons first d ih =>
      rw [get?_cons] at found
      by_cases here : key = first.1
      · rw [if_pos here] at found
        cases found
      · rw [if_neg here] at found
        rcases List.mem_cons.mp listed with same | later
        · exact absurd (same ▸ named).symm here
        · exact ih (List.mem_map.mpr ⟨item, later, named⟩) found later

end PyDict

namespace PyVal

theorem pyEq_str {v : PyVal} {s : String} (same : v.pyEq (.str s) = true) : v = .str s := by
  cases v with
  | str t => rw [pyEq, beq_iff_eq] at same; rw [same]
  | _ => exact absurd same (by simp [pyEq, number?])

theorem pyEqItems_iff {xs ys : PyDict} :
    pyEqItems xs ys = true ↔ ∀ item ∈ xs, ∃ y, ys.get? item.1 = some y ∧ item.2.pyEq y = true := by
  induction xs with
  | nil => exact ⟨fun _ item member => absurd member List.not_mem_nil, fun _ => rfl⟩
  | cons item xs ih =>
    obtain ⟨key, x⟩ := item
    rw [pyEqItems, Bool.and_eq_true, ih, List.forall_mem_cons]
    refine and_congr_left (fun _ => ?_)
    change _ ↔ ∃ y, List.lookup key ys = some y ∧ x.pyEq y = true
    cases List.lookup key ys with
    | none => simp
    | some y => simp

theorem pyEq_dict {xs ys : PyDict} : (PyVal.dict xs).pyEq (.dict ys) = true ↔
    xs.length = ys.length ∧ ∀ item ∈ xs, ∃ y, ys.get? item.1 = some y ∧ item.2.pyEq y = true := by
  rw [pyEq, Bool.and_eq_true, beq_iff_eq, pyEqItems_iff]

/-- Equal dicts have the same keys. -/
theorem keys_perm_of_pyEq {xs ys : PyDict} (distinct : xs.Distinct) (same : (PyVal.dict xs).pyEq (.dict ys) = true) :
    xs.keys.Perm ys.keys := by
  obtain ⟨lengths, items⟩ := pyEq_dict.mp same
  have subset : xs.keys ⊆ ys.keys := by
    intro key member
    obtain ⟨item, listed, named⟩ := List.mem_map.mp member
    obtain ⟨y, found, _⟩ := items item listed
    exact named ▸ PyDict.mem_keys_of_get? found
  refine (distinct.subperm subset).perm_of_length_le (Nat.le_of_eq ?_)
  rw [PyDict.keys, PyDict.keys, List.length_map, List.length_map, lengths]

/-- Equal dicts have equal values under each key. -/
theorem get?_of_pyEq {xs ys : PyDict} (distinct : xs.Distinct) (same : (PyVal.dict xs).pyEq (.dict ys) = true)
    {key : String} {y : PyVal} (found : ys.get? key = some y) :
    ∃ x, xs.get? key = some x ∧ x.pyEq y = true := by
  have member := (keys_perm_of_pyEq distinct same).mem_iff.mpr (PyDict.mem_keys_of_get? found)
  obtain ⟨x, own⟩ := PyDict.exists_of_mem_keys member
  obtain ⟨y', other, equal⟩ := (pyEq_dict.mp same).2 (key, x) (PyDict.mem_of_get? own)
  cases Option.some.inj (found.symm.trans other)
  exact ⟨x, own, equal⟩

end PyVal

end InmemRuntime
