import Mathlib.Algebra.BigOperators.Group.List.Basic
import Mathlib.Data.List.Nodup

/-- A dictionary as the list of its items in insertion order. No key occurs
twice, so a lookup, a deletion and a sum over the items see each key once. -/
structure Dict (κ : Type*) (ν : Type*) where
  entries : List (κ × ν)
  nodup : (entries.map Prod.fst).Nodup
deriving DecidableEq

namespace Dict

variable {κ ν M : Type*}

def empty : Dict κ ν := ⟨[], List.nodup_nil⟩

instance : Inhabited (Dict κ ν) := ⟨empty⟩

def keys (d : Dict κ ν) : List κ := d.entries.map Prod.fst

/-- Restriction to the items that pass a test, in the old order. -/
def filter (d : Dict κ ν) (p : κ → ν → Bool) : Dict κ ν :=
  ⟨d.entries.filter (fun e => p e.1 e.2), d.nodup.sublist (List.filter_sublist.map _)⟩

theorem mem_filter_entries {d : Dict κ ν} {p : κ → ν → Bool} {e : κ × ν} :
    e ∈ (d.filter p).entries ↔ e ∈ d.entries ∧ p e.1 e.2 = true :=
  List.mem_filter

theorem eq_of_entries {d d' : Dict κ ν} (same : d.entries = d'.entries) : d = d' := by
  cases d
  cases d'
  cases same
  rfl

theorem filter_eq_self {d : Dict κ ν} {p : κ → ν → Bool} (pass : ∀ k v, (k, v) ∈ d.entries → p k v = true) :
    d.filter p = d :=
  eq_of_entries (List.filter_eq_self.mpr (fun e member => pass e.1 e.2 member))

theorem filter_eq_empty {d : Dict κ ν} {p : κ → ν → Bool} (drop : ∀ k v, (k, v) ∈ d.entries → p k v = false) :
    d.filter p = empty :=
  eq_of_entries (List.filter_eq_nil_iff.mpr (fun e member => by simp [drop e.1 e.2 member]))

section Sums

variable [AddCommMonoid M]

/-- The sum of a quantity over the items. -/
def sum (d : Dict κ ν) (f : κ → ν → M) : M := (d.entries.map (fun e => f e.1 e.2)).sum

@[simp] theorem sum_empty (f : κ → ν → M) : (empty : Dict κ ν).sum f = 0 := rfl

theorem sum_filter_add_sum_filter_not (d : Dict κ ν) (p : κ → ν → Bool) (f : κ → ν → M) :
    (d.filter p).sum f + (d.filter (fun k v => !p k v)).sum f = d.sum f := by
  have parts := (List.filter_append_perm (fun e => p e.1 e.2) d.entries).map (fun e => f e.1 e.2)
  have total := parts.sum_eq
  rwa [List.map_append, List.sum_append] at total

end Sums

variable [DecidableEq κ]

def get? (d : Dict κ ν) (k : κ) : Option ν :=
  (d.entries.find? (fun e => e.1 = k)).map Prod.snd

def contains (d : Dict κ ν) (k : κ) : Bool := decide (k ∈ d.keys)

def erase (d : Dict κ ν) (k : κ) : Dict κ ν := d.filter (fun j _ => j ≠ k)

theorem overwrite_keys (es : List (κ × ν)) (k : κ) (v : ν) :
    (es.map (fun e => if e.1 = k then (k, v) else e)).map Prod.fst = es.map Prod.fst := by
  induction es with
  | nil => rfl
  | cons e es ih =>
    simp only [List.map_cons, ih, List.cons.injEq, and_true]
    split
    · rename_i same; exact same.symm
    · rfl

/-- Assignment `d[k] = v`: an existing key keeps its place, a new one goes last. -/
def set (d : Dict κ ν) (k : κ) (v : ν) : Dict κ ν :=
  if present : k ∈ d.keys then
    ⟨d.entries.map (fun e => if e.1 = k then (k, v) else e), by
      rw [overwrite_keys]; exact d.nodup⟩
  else
    ⟨d.entries ++ [(k, v)], by
      have fresh : k ∉ d.entries.map Prod.fst := present
      simp only [List.map_append, List.map_cons, List.map_nil]
      exact List.Nodup.append d.nodup (List.nodup_singleton k)
        (List.disjoint_singleton.mpr fresh)⟩

theorem mem_entries_iff {d : Dict κ ν} {k : κ} {v : ν} :
    (k, v) ∈ d.entries ↔ d.get? k = some v := by
  obtain ⟨es, distinct⟩ := d
  simp only [get?]
  induction es with
  | nil => simp
  | cons e es ih =>
    simp only [List.map_cons, List.nodup_cons] at distinct
    have rest := ih distinct.2
    by_cases same : e.1 = k
    · have absent : (k, v) ∉ es := by
        intro member
        exact distinct.1 (same ▸ List.mem_map_of_mem (f := Prod.fst) member)
      simp only [List.mem_cons, absent, or_false, List.find?_cons, same, decide_true,
        Option.map_some, Option.some.injEq]
      constructor
      · intro equal; rw [← equal]
      · intro value; rw [← same, ← value]
    · have other : (k, v) ≠ e := fun equal => same (by rw [← equal])
      simp only [List.mem_cons, other, false_or, List.find?_cons, same, decide_false]
      exact rest

theorem mem_keys_iff {d : Dict κ ν} {k : κ} : k ∈ d.keys ↔ ∃ v, d.get? k = some v := by
  simp only [keys, List.mem_map]
  constructor
  · rintro ⟨⟨j, v⟩, member, rfl⟩
    exact ⟨v, mem_entries_iff.mp member⟩
  · rintro ⟨v, found⟩
    exact ⟨(k, v), mem_entries_iff.mpr found, rfl⟩

theorem get?_eq_none_iff {d : Dict κ ν} {k : κ} : d.get? k = none ↔ k ∉ d.keys := by
  rw [mem_keys_iff, Option.eq_none_iff_forall_ne_some]
  push Not
  rfl

@[simp] theorem get?_empty (k : κ) : (empty : Dict κ ν).get? k = none := rfl

theorem get?_filter (d : Dict κ ν) (p : κ → ν → Bool) (k : κ) :
    (d.filter p).get? k = (d.get? k).filter (p k) := by
  apply Option.ext
  intro v
  rw [← mem_entries_iff, mem_filter_entries, mem_entries_iff, Option.filter_eq_some_iff]

theorem get?_filter_pass {d : Dict κ ν} {p : κ → ν → Bool} {k : κ} (pass : ∀ v, p k v = true) :
    (d.filter p).get? k = d.get? k := by
  rw [get?_filter]
  cases d.get? k <;> simp [Option.filter, pass]

theorem get?_filter_drop {d : Dict κ ν} {p : κ → ν → Bool} {k : κ} (drop : ∀ v, p k v = false) :
    (d.filter p).get? k = none := by
  rw [get?_filter]
  cases d.get? k <;> simp [Option.filter, drop]

@[simp] theorem get?_erase_self (d : Dict κ ν) (k : κ) : (d.erase k).get? k = none := by
  simp [erase, get?_filter]

theorem get?_erase_of_ne (d : Dict κ ν) {j k : κ} (other : j ≠ k) :
    (d.erase k).get? j = d.get? j :=
  get?_filter_pass (by simp [other])

theorem mem_set_entries {d : Dict κ ν} {k j : κ} {v w : ν} :
    (j, w) ∈ (d.set k v).entries ↔ (j = k ∧ w = v) ∨ (j ≠ k ∧ (j, w) ∈ d.entries) := by
  unfold set
  split
  · rename_i present
    obtain ⟨old, found⟩ := mem_keys_iff.mp present
    simp only [List.mem_map]
    constructor
    · rintro ⟨e, member, value⟩
      split at value
      · cases value; exact Or.inl ⟨rfl, rfl⟩
      · rename_i other; subst value; exact Or.inr ⟨other, member⟩
    · rintro (⟨rfl, rfl⟩ | ⟨other, member⟩)
      · exact ⟨(j, old), mem_entries_iff.mpr found, by simp⟩
      · exact ⟨(j, w), member, by simp [other]⟩
  · rename_i absent
    simp only [List.mem_append, List.mem_singleton, Prod.mk.injEq]
    constructor
    · rintro (member | new)
      · refine Or.inr ⟨?_, member⟩
        rintro rfl
        exact absent (List.mem_map_of_mem (f := Prod.fst) member)
      · exact Or.inl new
    · rintro (new | ⟨_, member⟩)
      · exact Or.inr new
      · exact Or.inl member

@[simp] theorem get?_set_self (d : Dict κ ν) (k : κ) (v : ν) : (d.set k v).get? k = some v :=
  mem_entries_iff.mp (mem_set_entries.mpr (Or.inl ⟨rfl, rfl⟩))

theorem get?_set_of_ne (d : Dict κ ν) {j k : κ} (v : ν) (other : j ≠ k) :
    (d.set k v).get? j = d.get? j := by
  apply Option.ext
  intro w
  rw [← mem_entries_iff, mem_set_entries, mem_entries_iff]
  simp [other]

theorem get?_set (d : Dict κ ν) (k j : κ) (v : ν) :
    (d.set k v).get? j = if j = k then some v else d.get? j := by
  split
  · rename_i same; rw [same, get?_set_self]
  · rename_i other; exact get?_set_of_ne d v other

/-- Storing what is stored changes nothing, the order included. -/
theorem set_eq_self {d : Dict κ ν} {k : κ} {v : ν} (stored : d.get? k = some v) : d.set k v = d := by
  have present : k ∈ d.keys := mem_keys_iff.mpr ⟨v, stored⟩
  refine eq_of_entries ?_
  simp only [set, present, dif_pos]
  refine (List.map_congr_left (fun e member => ?_)).trans (List.map_id d.entries)
  by_cases same : e.1 = k
  · have value : d.get? k = some e.2 := same ▸ mem_entries_iff.mp member
    cases stored.symm.trans value
    rw [if_pos same, ← same, id]
  · rw [if_neg same, id]

/-- `d.update(pairs)`: a later pair overwrites an earlier one of its key. -/
def setAll (d : Dict κ ν) (pairs : List (κ × ν)) : Dict κ ν := pairs.foldl (fun d e => d.set e.1 e.2) d

def ofPairs (pairs : List (κ × ν)) : Dict κ ν := empty.setAll pairs

@[simp] theorem setAll_nil (d : Dict κ ν) : d.setAll [] = d := rfl

@[simp] theorem setAll_cons (d : Dict κ ν) (e : κ × ν) (pairs : List (κ × ν)) :
    d.setAll (e :: pairs) = (d.set e.1 e.2).setAll pairs := rfl

theorem set_entries_of_new {d : Dict κ ν} {k : κ} (new : k ∉ d.keys) (v : ν) :
    (d.set k v).entries = d.entries ++ [(k, v)] := by
  simp [set, new]

/-- Pairs with new and distinct keys are appended. -/
theorem setAll_entries {d : Dict κ ν} {pairs : List (κ × ν)}
    (together : (d.keys ++ pairs.map Prod.fst).Nodup) : (d.setAll pairs).entries = d.entries ++ pairs := by
  induction pairs generalizing d with
  | nil => simp
  | cons e pairs ih =>
    have new : e.1 ∉ d.keys := by
      intro member
      exact (List.nodup_append.mp together).2.2 _ member _ (List.mem_cons_self ..) rfl
    have entries := set_entries_of_new new e.2
    rw [setAll_cons, ih, entries, List.append_assoc]
    · rfl
    · simpa [keys, entries] using together

theorem ofPairs_entries {pairs : List (κ × ν)} (distinct : (pairs.map Prod.fst).Nodup) :
    (ofPairs pairs).entries = pairs :=
  setAll_entries (d := empty) distinct

theorem get?_setAll_of_not_mem {d : Dict κ ν} {pairs : List (κ × ν)} {k : κ}
    (other : k ∉ pairs.map Prod.fst) : (d.setAll pairs).get? k = d.get? k := by
  induction pairs generalizing d with
  | nil => rfl
  | cons e pairs ih =>
    simp only [List.map_cons, List.mem_cons, not_or] at other
    rw [setAll_cons, ih other.2, get?_set_of_ne _ _ other.1]

theorem get?_setAll_of_mem {d : Dict κ ν} {pairs : List (κ × ν)} {k : κ} {v : ν}
    (distinct : (pairs.map Prod.fst).Nodup) (member : (k, v) ∈ pairs) :
    (d.setAll pairs).get? k = some v := by
  induction pairs generalizing d with
  | nil => cases member
  | cons e pairs ih =>
    simp only [List.map_cons, List.nodup_cons] at distinct
    rw [setAll_cons]
    rcases List.mem_cons.mp member with rfl | later
    · rw [get?_setAll_of_not_mem distinct.1, get?_set_self]
    · exact ih distinct.2 later

/-- The last pair of a key wins. -/
theorem get?_setAll (d : Dict κ ν) (pairs : List (κ × ν)) (k : κ) :
    (d.setAll pairs).get? k = ((pairs.reverse.find? (fun e => e.1 = k)).map Prod.snd).or (d.get? k) := by
  induction pairs generalizing d with
  | nil => rfl
  | cons e pairs ih =>
    rw [setAll_cons, ih, get?_set, List.reverse_cons, List.find?_append]
    cases pairs.reverse.find? (fun e => e.1 = k) with
    | some last => rfl
    | none =>
      by_cases same : k = e.1
      · simp [same]
      · simp [same, Ne.symm same]

theorem get?_ofPairs (pairs : List (κ × ν)) (k : κ) :
    (ofPairs pairs).get? k = (pairs.reverse.find? (fun e => e.1 = k)).map Prod.snd := by
  rw [ofPairs, get?_setAll]
  simp

/-- Pairs that all find a place of their own are the entries. -/
theorem ofPairs_entries_of_length {pairs : List (κ × ν)} (length : (ofPairs pairs).entries.length = pairs.length) :
    (ofPairs pairs).entries = pairs := by
  have named : (ofPairs pairs).keys ⊆ pairs.map Prod.fst := by
    intro k member
    obtain ⟨v, found⟩ := mem_keys_iff.mp member
    rw [get?_ofPairs] at found
    obtain ⟨e, first, _⟩ := Option.map_eq_some_iff.mp found
    have same : e.1 = k := by simpa using List.find?_some first
    exact same ▸ List.mem_map_of_mem (List.mem_reverse.mp (List.mem_of_find?_eq_some first))
  have all := (List.subperm_of_subset (ofPairs pairs).nodup named).perm_of_length_le
    (by simpa only [List.length_map] using Nat.le_of_eq length.symm)
  exact ofPairs_entries (all.nodup_iff.mp (ofPairs pairs).nodup)

section Copies

variable {d : Dict κ ν} {p : κ → Bool} {f : κ → κ} {g : ν → ν}

/-- Items copied to other keys: under a new key stands the image of the value
under the old one. -/
theorem get?_copied (inj : ∀ {j k}, p j = true → p k = true → f j = f k → j = k) {k : κ} (mine : p k = true)
    (absent : d.get? (f k) = none) :
    (d.setAll ((d.entries.filter (fun e => p e.1)).map (fun e => (f e.1, g e.2)))).get? (f k) = (d.get? k).map g := by
  have keys : ((d.entries.filter (fun e => p e.1)).map (fun e => (f e.1, g e.2))).map Prod.fst =
      ((d.entries.map Prod.fst).filter p).map f := by
    rw [List.filter_map, List.map_map, List.map_map]
    rfl
  cases stored : d.get? k with
  | some v =>
    have member : (f k, g v) ∈ (d.entries.filter (fun e => p e.1)).map (fun e => (f e.1, g e.2)) :=
      List.mem_map.mpr ⟨(k, v), List.mem_filter.mpr ⟨mem_entries_iff.mpr stored, mine⟩, rfl⟩
    refine get?_setAll_of_mem ?_ member
    rw [keys]
    refine List.Nodup.map_on ?_ (d.nodup.filter _)
    exact fun j inside k inside' same => inj (List.mem_filter.mp inside).2 (List.mem_filter.mp inside').2 same
  | none =>
    rw [get?_setAll_of_not_mem, absent, Option.map_none]
    rw [keys]
    intro member
    obtain ⟨j, inside, same⟩ := List.mem_map.mp member
    obtain ⟨listed, passes⟩ := List.mem_filter.mp inside
    rw [inj passes mine same] at listed
    exact get?_eq_none_iff.mp stored listed

theorem get?_copied_of_ne {k : κ} (other : ∀ j, f j ≠ k) :
    (d.setAll ((d.entries.filter (fun e => p e.1)).map (fun e => (f e.1, g e.2)))).get? k = d.get? k := by
  refine get?_setAll_of_not_mem ?_
  rw [List.map_map]
  intro member
  obtain ⟨e, -, same⟩ := List.mem_map.mp member
  exact other _ same

end Copies

section KeyedSums

variable [AddCommMonoid M]

/-- A dictionary whose keys all equal `k` has at most one item. -/
theorem sum_of_keys_eq {d : Dict κ ν} {k : κ} (only : ∀ j ∈ d.keys, j = k) (f : κ → ν → M) :
    d.sum f = (d.get? k).elim 0 (f k) := by
  obtain ⟨es, distinct⟩ := d
  rcases es with _ | ⟨⟨j, v⟩, _ | ⟨⟨j', v'⟩, es⟩⟩
  · rfl
  · have first : j = k := only j (by simp [keys])
    subst first
    simp [sum, get?]
  · have first : j = k := only j (by simp [keys])
    have second : j' = k := only j' (by simp [keys])
    simp [first, second] at distinct

/-- The items under one key are at most one item, so a deletion takes its
summand and nothing else out of the sum. -/
theorem sum_erase_add (d : Dict κ ν) (k : κ) (f : κ → ν → M) :
    (d.erase k).sum f + (d.get? k).elim 0 (f k) = d.sum f := by
  rw [← sum_filter_add_sum_filter_not d (fun j _ => j ≠ k) f, erase]
  congr 1
  have only : ∀ j ∈ (d.filter (fun j _ => !decide (j ≠ k))).keys, j = k := by
    intro j member
    obtain ⟨e, inside, rfl⟩ := List.mem_map.mp member
    simpa using (mem_filter_entries.mp inside).2
  rw [sum_of_keys_eq only, get?_filter]
  cases d.get? k <;> simp [Option.filter]

theorem erase_set (d : Dict κ ν) (k : κ) (v : ν) : (d.set k v).erase k = d.erase k := by
  refine eq_of_entries ?_
  simp only [erase, filter]
  unfold set
  split
  · rename_i present
    clear present
    simp only
    induction d.entries with
    | nil => rfl
    | cons e es ih =>
      by_cases same : e.1 = k
      · simpa [same] using ih
      · simpa [same] using ih
  · simp

/-- Assignment replaces the summand of its key. -/
theorem sum_set_add (d : Dict κ ν) (k : κ) (v : ν) (f : κ → ν → M) :
    (d.set k v).sum f + (d.get? k).elim 0 (f k) = d.sum f + f k v := by
  rw [← sum_erase_add (d.set k v) k f, erase_set, get?_set_self, Option.elim_some,
    add_right_comm, sum_erase_add]

/-- Overwriting distinct keys replaces their summands. -/
theorem sum_setAll_add (d : Dict κ ν) {pairs : List (κ × ν)} (distinct : (pairs.map Prod.fst).Nodup)
    (f : κ → ν → M) :
    (d.setAll pairs).sum f + (pairs.map (fun e => (d.get? e.1).elim 0 (f e.1))).sum =
      d.sum f + (pairs.map (fun e => f e.1 e.2)).sum := by
  induction pairs generalizing d with
  | nil => rfl
  | cons e pairs ih =>
    simp only [List.map_cons, List.nodup_cons] at distinct
    have later := ih (d.set e.1 e.2) distinct.2
    have same : pairs.map (fun e' => ((d.set e.1 e.2).get? e'.1).elim 0 (f e'.1)) =
        pairs.map (fun e' => (d.get? e'.1).elim 0 (f e'.1)) := by
      refine List.map_congr_left (fun e' member => ?_)
      have other : e'.1 ≠ e.1 := by
        intro equal
        exact distinct.1 (equal ▸ List.mem_map_of_mem member)
      rw [get?_set_of_ne _ _ other]
    rw [same] at later
    rw [setAll_cons, List.map_cons, List.sum_cons, List.map_cons, List.sum_cons, add_left_comm, later,
      add_comm, add_right_comm, sum_set_add, add_assoc]

end KeyedSums

end Dict
