import InmemRuntime.Lib.Dict

namespace Dict

variable {κ ν : Type*} {p : κ → Bool}

/-- The items whose keys pass a test. -/
def part (d : Dict κ ν) (p : κ → Bool) : Dict κ ν := d.filter (fun k _ => p k)

theorem part_filter (d : Dict κ ν) (p : κ → Bool) (q : κ → ν → Bool) : (d.filter q).part p = (d.part p).filter q :=
  eq_of_entries (by
    simp only [part, filter, List.filter_filter]
    exact List.filter_congr (fun e _ => Bool.and_comm _ _))

theorem part_filter_of_kept {d : Dict κ ν} {q : κ → ν → Bool} (kept : ∀ k v, p k = true → q k v = true) :
    (d.filter q).part p = d.part p := by
  rw [part_filter]
  refine filter_eq_self (fun k v member => kept k v ?_)
  exact (mem_filter_entries.mp member).2

theorem keys_part (d : Dict κ ν) (p : κ → Bool) : (d.part p).keys = d.keys.filter p := by
  rw [keys, keys, List.filter_map]
  rfl

section Keyed

variable [DecidableEq κ] {k : κ}

theorem get?_part (d : Dict κ ν) (passes : p k = true) : (d.part p).get? k = d.get? k := get?_filter_pass (fun _ => passes)

theorem get?_of_part {d d' : Dict κ ν} (same : d.part p = d'.part p) (passes : p k = true) : d.get? k = d'.get? k := by
  rw [← get?_part d passes, ← get?_part d' passes, same]

theorem set_entries_of_mem {d : Dict κ ν} (present : k ∈ d.keys) (v : ν) :
    (d.set k v).entries = d.entries.map (fun e => if e.1 = k then (k, v) else e) := by
  rw [set, dif_pos present]

theorem overwrite_filter (es : List (κ × ν)) (p : κ → Bool) (k : κ) (v : ν) :
    (es.map (fun e => if e.1 = k then (k, v) else e)).filter (fun e => p e.1) =
      (es.filter (fun e => p e.1)).map (fun e => if e.1 = k then (k, v) else e) := by
  rw [List.filter_map]
  congr 1
  refine List.filter_congr (fun e _ => ?_)
  simp only [Function.comp_apply]
  split
  · rename_i same
    rw [same]
  · rfl

theorem part_set (d : Dict κ ν) (passes : p k = true) (v : ν) : (d.set k v).part p = (d.part p).set k v := by
  have stored : k ∈ (d.part p).keys ↔ k ∈ d.keys := by
    rw [keys_part, List.mem_filter]
    exact and_iff_left passes
  refine eq_of_entries ?_
  by_cases present : k ∈ d.keys
  · rw [set_entries_of_mem (stored.mpr present)]
    simp only [part, filter, set_entries_of_mem present, overwrite_filter]
  · rw [set_entries_of_new (fun member => present (stored.mp member))]
    simp [part, filter, set_entries_of_new present, passes]

theorem part_set_of_not (d : Dict κ ν) (fails : p k = false) (v : ν) : (d.set k v).part p = d.part p := by
  refine eq_of_entries ?_
  by_cases present : k ∈ d.keys
  · simp only [part, filter, set_entries_of_mem present, overwrite_filter]
    refine (List.map_congr_left (fun e member => if_neg ?_)).trans (List.map_id _)
    rintro rfl
    have passes := (List.mem_filter.mp member).2
    rw [fails] at passes
    cases passes
  · simp [part, filter, set_entries_of_new present, fails]

theorem part_erase (d : Dict κ ν) (p : κ → Bool) (k : κ) : (d.erase k).part p = (d.part p).erase k := part_filter d p _

theorem part_erase_of_not (d : Dict κ ν) (fails : p k = false) : (d.erase k).part p = d.part p := by
  refine part_filter_of_kept (fun j _ passes => ?_)
  simp only [ne_eq, decide_not, Bool.not_eq_true', decide_eq_false_iff_not]
  rintro rfl
  rw [passes] at fails
  cases fails

end Keyed

/-- Dicts with the same part give the same to a narrower test. -/
theorem filter_eq_of_part {d d' : Dict κ ν} (same : d.part p = d'.part p) {q : κ → ν → Bool}
    (selects : ∀ k v, q k v = true → p k = true) : d.filter q = d'.filter q := by
  have within : ∀ e : Dict κ ν, e.filter q = (e.part p).filter q := by
    intro e
    refine eq_of_entries ?_
    simp only [Dict.filter, part, List.filter_filter]
    refine List.filter_congr (fun item _ => ?_)
    cases selected : q item.1 item.2 with
    | false => rfl
    | true => rw [selects _ _ selected, Bool.and_self]
  rw [within d, within d', same]

/-- The items whose keys pass the test are the same, and each dict holds the other
items that it had at first. -/
structure Agree (p : κ → Bool) (first first' d d' : Dict κ ν) : Prop where
  shown : d.part p = d'.part p
  kept : d.part (fun k => !p k) = first.part (fun k => !p k)
  kept' : d'.part (fun k => !p k) = first'.part (fun k => !p k)

namespace Agree

variable {first first' d d' : Dict κ ν}

theorem refl (same : first.part p = first'.part p) : Agree p first first' first first' := ⟨same, rfl, rfl⟩

theorem filter (agree : Agree p first first' d d') {q : κ → ν → Bool} (kept : ∀ k v, p k = false → q k v = true) :
    Agree p first first' (d.filter q) (d'.filter q) where
  shown := by rw [part_filter, part_filter, agree.shown]
  kept := by rw [part_filter_of_kept (fun k v fails => kept k v (by simpa using fails)), agree.kept]
  kept' := by rw [part_filter_of_kept (fun k v fails => kept k v (by simpa using fails)), agree.kept']

/-- What selects shown items only selects the same. -/
theorem filter_eq (agree : Agree p first first' d d') {q : κ → ν → Bool} (selects : ∀ k v, q k v = true → p k = true) :
    d.filter q = d'.filter q := filter_eq_of_part agree.shown selects

variable [DecidableEq κ] {k : κ}

theorem get? (agree : Agree p first first' d d') (passes : p k = true) : d.get? k = d'.get? k :=
  get?_of_part agree.shown passes

theorem set (agree : Agree p first first' d d') (passes : p k = true) (v : ν) :
    Agree p first first' (d.set k v) (d'.set k v) where
  shown := by rw [part_set d passes, part_set d' passes, agree.shown]
  kept := by rw [part_set_of_not d (by simpa using passes), agree.kept]
  kept' := by rw [part_set_of_not d' (by simpa using passes), agree.kept']

theorem erase (agree : Agree p first first' d d') (passes : p k = true) :
    Agree p first first' (d.erase k) (d'.erase k) where
  shown := by rw [part_erase, part_erase, agree.shown]
  kept := by rw [part_erase_of_not d (by simpa using passes), agree.kept]
  kept' := by rw [part_erase_of_not d' (by simpa using passes), agree.kept']

end Agree

end Dict
