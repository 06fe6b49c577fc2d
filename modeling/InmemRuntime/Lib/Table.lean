import Mathlib.Data.List.InsertIdx
import Mathlib.Data.List.Nodup

/-- A list of mutable records, as Python keeps them: the list holds references,
and a reference that has left the list can still be read and written. No record
stands in the list twice. -/
structure Table (α : Type*) where
  size : Nat
  cells : Nat → α
  rows : List Nat
  nodup : rows.Nodup
  bounded : ∀ r ∈ rows, r < size

namespace Table

variable {α : Type*}

def empty [Inhabited α] : Table α := ⟨0, fun _ => default, [], List.nodup_nil, by simp⟩

instance [Inhabited α] : Inhabited (Table α) := ⟨empty⟩

def get (t : Table α) (r : Nat) : α := t.cells r

/-- The records of the list, in order. -/
def values (t : Table α) : List α := t.rows.map t.get

/-- `list.append(v)`. The new record is `t.size`. -/
def append (t : Table α) (v : α) : Table α where
  size := t.size + 1
  cells := fun r => if r = t.size then v else t.cells r
  rows := t.rows ++ [t.size]
  nodup := by
    refine List.Nodup.append t.nodup (List.nodup_singleton _) ?_
    exact List.disjoint_singleton.mpr (fun old => Nat.lt_irrefl _ (t.bounded _ old))
  bounded := by
    intro r member
    rcases List.mem_append.mp member with old | new
    · exact Nat.lt_succ_of_lt (t.bounded r old)
    · rw [List.mem_singleton.mp new]
      exact Nat.lt_succ_self _

/-- An assignment to fields of one record, in the list or not. -/
def update (t : Table α) (r : Nat) (f : α → α) : Table α :=
  { t with cells := fun i => if i = r then f (t.cells i) else t.cells i }

/-- `list[i] = v` with a new record. -/
def replaceAt (t : Table α) (i : Nat) (v : α) : Table α where
  size := t.size + 1
  cells := fun r => if r = t.size then v else t.cells r
  rows := t.rows.set i t.size
  nodup := t.nodup.set (fun old => Nat.lt_irrefl _ (t.bounded _ old))
  bounded := by
    intro r member
    rcases List.mem_or_eq_of_mem_set member with old | new
    · exact Nat.lt_succ_of_lt (t.bounded r old)
    · rw [new]
      exact Nat.lt_succ_self _

/-- `list.pop(i)` -/
def pop (t : Table α) (i : Nat) : Table α where
  size := t.size
  cells := t.cells
  rows := t.rows.eraseIdx i
  nodup := t.nodup.sublist (List.eraseIdx_sublist _ _)
  bounded := fun r member => t.bounded r (List.mem_of_mem_eraseIdx member)

/-- `[x for x in list if p(x)]` -/
def keep (t : Table α) (p : α → Bool) : Table α where
  size := t.size
  cells := t.cells
  rows := t.rows.filter (fun r => p (t.get r))
  nodup := t.nodup.filter _
  bounded := fun r member => t.bounded r (List.mem_of_mem_filter member)

/-- The first record of the list that passes a test. -/
def find? (t : Table α) (p : α → Bool) : Option Nat := t.rows.find? (fun r => p (t.get r))

/-- The position of the first record that passes a test. -/
def findIdx? (t : Table α) (p : α → Bool) : Option Nat := t.rows.findIdx? (fun r => p (t.get r))

/-- The loop over `enumerate(list)` that stops at the first record that passes a test. -/
def locate? (t : Table α) (p : α → Bool) : Option (Nat × Nat) :=
  (t.findIdx? p).bind (fun i => t.rows[i]?.map (fun r => (i, r)))

/-- A reference some caller may hold. -/
def Holds (t : Table α) (r : Nat) : Prop := r < t.size

theorem holds_of_mem {t : Table α} {r : Nat} (member : r ∈ t.rows) : t.Holds r := t.bounded r member

theorem mem_values {t : Table α} {v : α} : v ∈ t.values ↔ ∃ r ∈ t.rows, t.get r = v := List.mem_map

@[simp] theorem values_length (t : Table α) : t.values.length = t.rows.length := List.length_map ..

theorem find?_mem {t : Table α} {p : α → Bool} {r : Nat} (found : t.find? p = some r) : r ∈ t.rows :=
  List.mem_of_find?_eq_some found

theorem find?_passes {t : Table α} {p : α → Bool} {r : Nat} (found : t.find? p = some r) :
    p (t.get r) = true := by
  simpa using List.find?_some found

theorem find?_eq_none {t : Table α} {p : α → Bool} :
    t.find? p = none ↔ ∀ v ∈ t.values, p v = false := by
  simp [find?, values]

/-- What stands at a position that a search returned. -/
theorem findIdx?_eq_some {t : Table α} {p : α → Bool} {i : Nat} (found : t.findIdx? p = some i) :
    ∃ r, t.rows[i]? = some r ∧ p (t.get r) = true := by
  obtain ⟨inside, passes, _⟩ := List.findIdx?_eq_some_iff_getElem.mp found
  exact ⟨t.rows[i], List.getElem?_eq_getElem inside, passes⟩

theorem locate?_eq_some {t : Table α} {p : α → Bool} {i r : Nat} (found : t.locate? p = some (i, r)) :
    t.rows[i]? = some r ∧ p (t.get r) = true := by
  obtain ⟨j, at_j, inside⟩ := Option.bind_eq_some_iff.mp found
  obtain ⟨r', at_r, pair⟩ := Option.map_eq_some_iff.mp inside
  cases pair
  obtain ⟨r'', at_r'', passes⟩ := findIdx?_eq_some at_j
  rw [at_r, Option.some.injEq] at at_r''
  exact ⟨at_r, at_r'' ▸ passes⟩

theorem values_getElem? (t : Table α) (i : Nat) : t.values[i]? = t.rows[i]?.map t.get := by
  simp [values]

@[simp] theorem append_rows (t : Table α) (v : α) : (t.append v).rows = t.rows ++ [t.size] := rfl

@[simp] theorem append_get_new (t : Table α) (v : α) : (t.append v).get t.size = v := by
  simp [get, append]

theorem append_get_old {t : Table α} {r : Nat} (held : t.Holds r) (v : α) :
    (t.append v).get r = t.get r := by
  have other : r ≠ t.size := Nat.ne_of_lt held
  simp [get, append, other]

@[simp] theorem append_values (t : Table α) (v : α) : (t.append v).values = t.values ++ [v] := by
  have old : t.rows.map (t.append v).get = t.rows.map t.get :=
    List.map_congr_left (fun r member => append_get_old (t.bounded r member) v)
  rw [values, append_rows, List.map_append, old, List.map_singleton, append_get_new, values]

@[simp] theorem update_rows (t : Table α) (r : Nat) (f : α → α) : (t.update r f).rows = t.rows := rfl

@[simp] theorem update_get_self (t : Table α) (r : Nat) (f : α → α) :
    (t.update r f).get r = f (t.get r) := by
  simp [get, update]

theorem update_get_of_ne (t : Table α) {i r : Nat} (other : i ≠ r) (f : α → α) :
    (t.update r f).get i = t.get i := by
  simp [get, update, other]

theorem update_get (t : Table α) (i r : Nat) (f : α → α) :
    (t.update r f).get i = if i = r then f (t.get i) else t.get i := rfl

/-- An assignment that leaves a quantity of the record alone leaves it alone in the whole list. -/
theorem update_find? (t : Table α) (r : Nat) {f : α → α} {p : α → Bool} (same : ∀ v, p (f v) = p v) :
    (t.update r f).find? p = t.find? p := by
  have agree : ∀ i, p ((t.update r f).get i) = p (t.get i) := by
    intro i
    by_cases here : i = r
    · subst here
      rw [update_get_self, same]
    · rw [update_get_of_ne t here]
  simp only [find?, update_rows, agree]

theorem update_values_map {β : Type*} (t : Table α) (r : Nat) {f : α → α} {g : α → β}
    (same : ∀ v, g (f v) = g v) : (t.update r f).values.map g = t.values.map g := by
  simp only [values, List.map_map, update_rows]
  refine List.map_congr_left (fun i _ => ?_)
  simp only [Function.comp_apply, update_get]
  split
  · exact same _
  · rfl

/-- A record of the list after an assignment is the one assigned to, or as it was. -/
theorem mem_update_values {t : Table α} {r : Nat} {f : α → α} {v : α} (member : v ∈ (t.update r f).values) :
    v ∈ t.values ∨ r ∈ t.rows ∧ v = f (t.get r) := by
  obtain ⟨i, inside, rfl⟩ := mem_values.mp member
  rw [update_get]
  split
  · rename_i here
    exact Or.inr ⟨here ▸ inside, by rw [here]⟩
  · exact Or.inl (mem_values.mpr ⟨i, inside, rfl⟩)

@[simp] theorem replaceAt_rows (t : Table α) (i : Nat) (v : α) :
    (t.replaceAt i v).rows = t.rows.set i t.size := rfl

theorem replaceAt_get_old {t : Table α} {r : Nat} (held : t.Holds r) (i : Nat) (v : α) :
    (t.replaceAt i v).get r = t.get r := by
  have other : r ≠ t.size := Nat.ne_of_lt held
  simp [get, replaceAt, other]

@[simp] theorem replaceAt_values (t : Table α) (i : Nat) (v : α) :
    (t.replaceAt i v).values = t.values.set i v := by
  have new : (t.replaceAt i v).get t.size = v := by simp [get, replaceAt]
  have old : t.rows.map (t.replaceAt i v).get = t.rows.map t.get :=
    List.map_congr_left (fun r member => replaceAt_get_old (t.bounded r member) i v)
  rw [values, replaceAt_rows, List.map_set, old, new, values]

@[simp] theorem pop_rows (t : Table α) (i : Nat) : (t.pop i).rows = t.rows.eraseIdx i := rfl

@[simp] theorem pop_get (t : Table α) (i r : Nat) : (t.pop i).get r = t.get r := rfl

@[simp] theorem pop_values (t : Table α) (i : Nat) : (t.pop i).values = t.values.eraseIdx i := by
  simp [values, List.eraseIdx_map, show (t.pop i).get = t.get from rfl]

@[simp] theorem keep_rows (t : Table α) (p : α → Bool) :
    (t.keep p).rows = t.rows.filter (fun r => p (t.get r)) := rfl

@[simp] theorem keep_get (t : Table α) (p : α → Bool) (r : Nat) : (t.keep p).get r = t.get r := rfl

@[simp] theorem keep_values (t : Table α) (p : α → Bool) : (t.keep p).values = t.values.filter p := by
  simp only [values, keep_rows, show (t.keep p).get = t.get from rfl, List.filter_map]
  rfl

section Each

variable {P : α → Prop}

def Each (P : α → Prop) (t : Table α) : Prop := ∀ v ∈ t.values, P v

theorem Each.append {t : Table α} (each : t.Each P) {v : α} (new : P v) : (t.append v).Each P := by
  intro w member
  rw [append_values] at member
  rcases List.mem_append.mp member with old | last
  · exact each w old
  · rw [List.mem_singleton.mp last]
    exact new

theorem Each.update {t : Table α} (each : t.Each P) {r : Nat} {f : α → α} (kept : ∀ v, P v → P (f v)) :
    (t.update r f).Each P := by
  intro w member
  rcases mem_update_values member with old | ⟨listed, rfl⟩
  · exact each w old
  · exact kept _ (each _ (mem_values.mpr ⟨r, listed, rfl⟩))

theorem Each.replaceAt {t : Table α} (each : t.Each P) {i : Nat} {v : α} (new : P v) : (t.replaceAt i v).Each P := by
  intro w member
  rw [replaceAt_values] at member
  rcases List.mem_or_eq_of_mem_set member with old | rfl
  · exact each w old
  · exact new

end Each

section Keys

variable {β : Type*} [DecidableEq β] (key : α → β)

theorem eraseIdx_eq_filter {l : List α} (distinct : (l.map key).Nodup) {i : Nat} {v : α}
    (at_i : l[i]? = some v) : l.eraseIdx i = l.filter (fun x => key x ≠ key v) := by
  induction l generalizing i with
  | nil => simp at at_i
  | cons x l ih =>
    simp only [List.map_cons, List.nodup_cons] at distinct
    cases i with
    | zero =>
      simp only [List.getElem?_cons_zero, Option.some.injEq] at at_i
      subst at_i
      have others : ∀ y ∈ l, key y ≠ key x := by
        intro y member same
        exact distinct.1 (same ▸ List.mem_map_of_mem member)
      simpa using (List.filter_eq_self.mpr (fun y member => by simpa using others y member)).symm
    | succ i =>
      rw [List.getElem?_cons_succ] at at_i
      have first : key x ≠ key v := by
        intro same
        exact distinct.1 (same ▸ List.mem_map_of_mem (List.mem_of_getElem? at_i))
      rw [List.eraseIdx_cons_succ, ih distinct.2 at_i, List.filter_cons_of_pos (by simpa using first)]

theorem set_eq_map {l : List α} (distinct : (l.map key).Nodup) {i : Nat} {v w : α}
    (at_i : l[i]? = some v) : l.set i w = l.map (fun x => if key x = key v then w else x) := by
  induction l generalizing i with
  | nil => simp at at_i
  | cons x l ih =>
    simp only [List.map_cons, List.nodup_cons] at distinct
    cases i with
    | zero =>
      simp only [List.getElem?_cons_zero, Option.some.injEq] at at_i
      subst at_i
      have others : l.map (fun y => if key y = key x then w else y) = l := by
        refine (List.map_congr_left (fun y member => if_neg ?_)).trans (List.map_id _)
        intro same
        exact distinct.1 (same ▸ List.mem_map_of_mem member)
      simp [others]
    | succ i =>
      rw [List.getElem?_cons_succ] at at_i
      have first : key x ≠ key v := by
        intro same
        exact distinct.1 (same ▸ List.mem_map_of_mem (List.mem_of_getElem? at_i))
      rw [List.set_cons_succ, ih distinct.2 at_i, List.map_cons, if_neg first]

/-- Popping the record of a key removes that record and no other. -/
theorem pop_values_eq_filter {t : Table α} (distinct : (t.values.map key).Nodup) {i : Nat} {v : α}
    (at_i : t.values[i]? = some v) :
    (t.pop i).values = t.values.filter (fun x => key x ≠ key v) := by
  rw [pop_values, eraseIdx_eq_filter key distinct at_i]

/-- Replacing the record of a key changes that record and no other. -/
theorem replaceAt_values_eq_map {t : Table α} (distinct : (t.values.map key).Nodup) {i : Nat} {v w : α}
    (at_i : t.values[i]? = some v) :
    (t.replaceAt i w).values = t.values.map (fun x => if key x = key v then w else x) := by
  rw [replaceAt_values, set_eq_map key distinct at_i]

end Keys

end Table
