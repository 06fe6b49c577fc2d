import InmemRuntime.Lib.Dict
import Mathlib.Data.List.Forall2

namespace Dict

variable {κ ν ν' : Type*}

/-- The same keys in the same order, with related values. -/
def Rel (R : ν → ν' → Prop) (d : Dict κ ν) (d' : Dict κ ν') : Prop :=
  List.Forall₂ (fun e e' => e.1 = e'.1 ∧ R e.2 e'.2) d.entries d'.entries

namespace Rel

variable {R : ν → ν' → Prop} {d : Dict κ ν} {d' : Dict κ ν'}

theorem refl {R : ν → ν → Prop} (same : ∀ v, R v v) (d : Dict κ ν) : d.Rel R d :=
  List.forall₂_same.mpr (fun e _ => ⟨rfl, same e.2⟩)

theorem nil : Rel R (Dict.empty : Dict κ ν) (Dict.empty : Dict κ ν') := List.Forall₂.nil

theorem values (rel : d.Rel R d') : List.Forall₂ R (d.entries.map Prod.snd) (d'.entries.map Prod.snd) := by
  rw [List.forall₂_map_left_iff, List.forall₂_map_right_iff]
  exact rel.imp (fun _ _ both => both.2)

theorem keys_eq (rel : d.Rel R d') : d.keys = d'.keys := by
  rw [keys, keys, ← List.forall₂_eq_eq_eq, List.forall₂_map_left_iff, List.forall₂_map_right_iff]
  exact rel.imp (fun _ _ both => both.1)

theorem isEmpty_eq (rel : d.Rel R d') : d.entries.isEmpty = d'.entries.isEmpty := by
  cases d with | mk es nodup =>
  cases d' with | mk es' nodup' =>
  cases rel with
  | nil => rfl
  | cons _ _ => rfl

theorem filter_keys (rel : d.Rel R d') (p : κ → Bool) :
    (d.filter (fun k _ => p k)).Rel R (d'.filter (fun k _ => p k)) := by
  refine List.rel_filter (fun e e' both => ?_) rel
  simp only [both.1]

variable [DecidableEq κ]

theorem find {es : List (κ × ν)} {es' : List (κ × ν')}
    (rel : List.Forall₂ (fun e e' => e.1 = e'.1 ∧ R e.2 e'.2) es es') (k : κ) :
    Option.Rel R ((es.find? (fun e => e.1 = k)).map Prod.snd) ((es'.find? (fun e => e.1 = k)).map Prod.snd) := by
  induction rel with
  | nil => exact .none
  | @cons e e' es es' both rest ih =>
    by_cases here : e.1 = k
    · rw [List.find?_cons_of_pos (by simpa using here), List.find?_cons_of_pos (by simpa [← both.1] using here)]
      exact .some both.2
    · rw [List.find?_cons_of_neg (by simpa using here), List.find?_cons_of_neg (by simpa [← both.1] using here)]
      exact ih

theorem get? (rel : d.Rel R d') (k : κ) : Option.Rel R (d.get? k) (d'.get? k) := find rel k

theorem contains_eq (rel : d.Rel R d') (k : κ) : d.contains k = d'.contains k := by
  rw [contains, contains, rel.keys_eq]

theorem set (rel : d.Rel R d') (k : κ) {v : ν} {v' : ν'} (related : R v v') : (d.set k v).Rel R (d'.set k v') := by
  have sameKeys := rel.keys_eq
  unfold Rel Dict.set
  by_cases present : k ∈ d.keys
  · simp only [dif_pos present, dif_pos (sameKeys ▸ present)]
    rw [List.forall₂_map_left_iff, List.forall₂_map_right_iff]
    refine rel.imp (fun e e' both => ?_)
    by_cases here : e.1 = k
    · rw [if_pos here, if_pos (both.1 ▸ here)]
      exact ⟨rfl, related⟩
    · rw [if_neg here, if_neg (both.1 ▸ here)]
      exact both
  · simp only [dif_neg present, dif_neg (sameKeys ▸ present)]
    exact List.rel_append rel (.cons ⟨rfl, related⟩ .nil)

theorem setAll {R : ν → ν → Prop} {d d' : Dict κ ν} (rel : d.Rel R d') (same : ∀ v, R v v)
    (pairs : List (κ × ν)) : (d.setAll pairs).Rel R (d'.setAll pairs) := by
  induction pairs generalizing d d' with
  | nil => exact rel
  | cons e pairs ih => exact ih (rel.set e.1 (same e.2))

end Rel

end Dict
