import InmemRuntime.Lib.Table

namespace Table

variable {α : Type*}

/-- The records of the list take the values, in order. -/
def assign (t : Table α) (values : List α) : Table α :=
  { t with cells := fun r => if r ∈ t.rows then values.getD (t.rows.idxOf r) (t.cells r) else t.cells r }

@[simp] theorem assign_rows (t : Table α) (values : List α) : (t.assign values).rows = t.rows := rfl

@[simp] theorem assign_size (t : Table α) (values : List α) : (t.assign values).size = t.size := rfl

theorem assign_get_of_not_mem {t : Table α} {r : Nat} (unlisted : r ∉ t.rows) (values : List α) :
    (t.assign values).get r = t.get r := if_neg unlisted

theorem assign_values {t : Table α} {values : List α} (all : t.rows.length = values.length) :
    (t.assign values).values = values := by
  refine List.ext_getElem? (fun i => ?_)
  rw [values_getElem?, assign_rows]
  by_cases inside : i < t.rows.length
  · rw [List.getElem?_eq_getElem inside, List.getElem?_eq_getElem (all ▸ inside), Option.map_some]
    have position : t.rows.idxOf t.rows[i] = i := t.nodup.idxOf_getElem i inside
    have listed : t.rows[i] ∈ t.rows := List.getElem_mem inside
    have written : (t.assign values).get t.rows[i] = values.getD (t.rows.idxOf t.rows[i]) (t.cells t.rows[i]) :=
      if_pos listed
    rw [written, position, List.getD_eq_getElem?_getD, List.getElem?_eq_getElem (all ▸ inside), Option.getD_some]
  · rw [List.getElem?_eq_none (Nat.le_of_not_lt inside), List.getElem?_eq_none (all ▸ Nat.le_of_not_lt inside)]
    rfl

/-- `list.extend(values)` -/
def extend (t : Table α) (values : List α) : Table α := values.foldl append t

theorem extend_values (t : Table α) (values : List α) : (t.extend values).values = t.values ++ values := by
  induction values generalizing t with
  | nil => rw [List.append_nil]; rfl
  | cons v values ih =>
    have rest := ih (t.append v)
    rw [append_values, List.append_assoc] at rest
    exact rest

/-- The old records stay, and the list gets new ones at its end. -/
theorem extend_rows (t : Table α) (values : List α) :
    t.size ≤ (t.extend values).size ∧ (∃ added, (t.extend values).rows = t.rows ++ added) ∧
      ∀ r, t.Holds r → (t.extend values).get r = t.get r := by
  induction values generalizing t with
  | nil => exact ⟨Nat.le_refl _, ⟨[], (List.append_nil _).symm⟩, fun _ _ => rfl⟩
  | cons v values ih =>
    obtain ⟨size, ⟨added, rows⟩, old⟩ := ih (t.append v)
    refine ⟨Nat.le_trans (Nat.le_succ _) size, ⟨t.size :: added, ?_⟩, fun r held => ?_⟩
    · rw [append_rows, List.append_assoc] at rows
      exact rows
    · exact (old r (Nat.lt_succ_of_lt held)).trans (append_get_old held v)

end Table

/-- The list that is named now, and the list objects that were named before it,
in order. An iteration over an old one goes on with it. -/
structure NamedList (α : Type*) where
  current : Table α
  former : List (List Nat)
  bounded : ∀ rows ∈ former, ∀ r ∈ rows, r < current.size

/-- Where an iteration stands: in which list object, and after how many of its items. -/
structure Iteration where
  object : Nat
  index : Nat

namespace NamedList

variable {α β : Type*} {n : NamedList α} {values : List α} {it : Iteration}

def ofValues [Inhabited α] (values : List α) : NamedList α := ⟨Table.extend .empty values, [], by simp⟩

/-- The number of the list object that is named now. -/
def object (n : NamedList α) : Nat := n.former.length

def rowsOf (n : NamedList α) (object : Nat) : List Nat := n.former.getD object n.current.rows

/-- The items an iteration has still before it. -/
def ahead (n : NamedList α) (it : Iteration) : List Nat := (n.rowsOf it.object).drop it.index

def behind (n : NamedList α) (it : Iteration) : List Nat := (n.rowsOf it.object).take it.index

/-- Assignments to the records of the list, and appends to it. -/
def overwrite (n : NamedList α) (values : List α) : NamedList α where
  current := (n.current.assign (values.take n.current.rows.length)).extend (values.drop n.current.rows.length)
  former := n.former
  bounded rows member r inside :=
    Nat.lt_of_lt_of_le (n.bounded rows member r inside) (Table.extend_rows (n.current.assign _) _).1

/-- `name = [x for x in name if p(x)]` -/
def comprehend (n : NamedList α) (p : α → Bool) : NamedList α where
  current := n.current.keep p
  former := n.former ++ [n.current.rows]
  bounded := by
    intro rows member r inside
    rcases List.mem_append.mp member with old | last
    · exact n.bounded rows old r inside
    · rw [List.mem_singleton.mp last] at inside
      exact n.current.bounded r inside

/-- The loop up to the next item that passes a test. -/
def scan (p : Nat → Bool) : List Nat → Nat → Option (Nat × Nat)
  | [], _ => none
  | r :: rows, index => if p r then some (r, index + 1) else scan p rows (index + 1)

def next? (n : NamedList α) (p : α → Bool) (it : Iteration) : Option (Nat × Iteration) :=
  (scan (fun r => p (n.current.get r)) (n.ahead it) it.index).map (fun item => (item.1, ⟨it.object, item.2⟩))

theorem held_of_mem_rowsOf {object r : Nat} (member : r ∈ n.rowsOf object) : n.current.Holds r := by
  unfold rowsOf at member
  rw [List.getD_eq_getElem?_getD] at member
  cases stands : n.former[object]? with
  | none => exact n.current.bounded r (by simpa [stands] using member)
  | some rows => exact n.bounded rows (List.mem_of_getElem? stands) r (by simpa [stands] using member)

@[simp] theorem rowsOf_object (n : NamedList α) : n.rowsOf n.object = n.current.rows := by
  simp [rowsOf, object]

theorem overwrite_rows (n : NamedList α) (values : List α) :
    ∃ added, (n.overwrite values).current.rows = n.current.rows ++ added := by
  obtain ⟨_, rows, _⟩ := Table.extend_rows (n.current.assign (values.take n.current.rows.length))
    (values.drop n.current.rows.length)
  exact rows

theorem overwrite_values (enough : n.current.rows.length ≤ values.length) :
    (n.overwrite values).current.values = values := by
  have taken : n.current.rows.length = (values.take n.current.rows.length).length := by
    rw [List.length_take, Nat.min_eq_left enough]
  rw [overwrite, Table.extend_values, Table.assign_values taken, List.take_append_drop]

/-- A record outside the list is out of reach. -/
theorem overwrite_get_of_not_mem {r : Nat} (held : n.current.Holds r) (unlisted : r ∉ n.current.rows)
    (values : List α) : (n.overwrite values).current.get r = n.current.get r :=
  ((Table.extend_rows (n.current.assign _) _).2.2 r held).trans (Table.assign_get_of_not_mem unlisted _)

/-- A list object keeps its items; the current one may get more at its end. -/
theorem overwrite_rowsOf (n : NamedList α) (values : List α) (object : Nat) :
    ∃ added, (n.overwrite values).rowsOf object = n.rowsOf object ++ added ∧
      ∀ r ∈ added, r ∈ (n.overwrite values).current.rows := by
  obtain ⟨added, rows⟩ := n.overwrite_rows values
  have former : (n.overwrite values).former = n.former := rfl
  rw [rowsOf, rowsOf, former, List.getD_eq_getElem?_getD, List.getD_eq_getElem?_getD]
  cases n.former[object]? with
  | none => exact ⟨added, rows, fun r member => rows ▸ List.mem_append_right _ member⟩
  | some old => exact ⟨[], (List.append_nil _).symm, fun r member => absurd member List.not_mem_nil⟩

theorem comprehend_rowsOf {object : Nat} (known : object ≤ n.object) (p : α → Bool) :
    (n.comprehend p).rowsOf object = n.rowsOf object := by
  unfold rowsOf comprehend
  rw [List.getD_eq_getElem?_getD, List.getD_eq_getElem?_getD]
  rcases Nat.lt_or_eq_of_le known with before | last
  · rw [List.getElem?_append_left before]
    simp [List.getElem?_eq_getElem before]
  · simp [last, NamedList.object]

theorem scan_eq_some {p : Nat → Bool} {rows : List Nat} {index r after : Nat}
    (found : scan p rows index = some (r, after)) :
    ∃ skipped rest, rows = skipped ++ r :: rest ∧ after = index + skipped.length + 1 ∧ p r = true := by
  induction rows generalizing index with
  | nil => cases found
  | cons first rows ih =>
    unfold scan at found
    split at found
    · rename_i passes
      cases found
      exact ⟨[], rows, rfl, rfl, passes⟩
    · obtain ⟨skipped, rest, rfl, rfl, passes⟩ := ih found
      exact ⟨first :: skipped, rest, rfl, by simp only [List.length_cons]; omega, passes⟩

/-- What an iteration gives next lay ahead of it, passes the test, and is then
the last item behind it. -/
theorem next?_eq_some {p : α → Bool} {r : Nat} {it' : Iteration} (found : n.next? p it = some (r, it')) :
    p (n.current.get r) = true ∧ r ∈ n.ahead it ∧ it'.object = it.object ∧ (∀ r' ∈ n.ahead it', r' ∈ n.ahead it) ∧
      ∃ skipped, n.behind it' = n.behind it ++ (skipped ++ [r]) := by
  obtain ⟨⟨first, after⟩, scanned, same⟩ := Option.map_eq_some_iff.mp found
  cases same
  obtain ⟨skipped, rest, split, rfl, passes⟩ := scan_eq_some scanned
  have whole : n.rowsOf it.object = n.behind it ++ (skipped ++ first :: rest) := by
    rw [← split, behind, ahead, List.take_append_drop]
  have inside : (n.behind it).length = it.index := by
    have some_ahead : 0 < (n.ahead it).length := by
      rw [split, List.length_append, List.length_cons]
      omega
    rw [ahead, List.length_drop] at some_ahead
    rw [behind, List.length_take]
    omega
  have parts : n.rowsOf it.object = (n.behind it ++ (skipped ++ [first])) ++ rest := by
    rw [whole]; simp
  have length : (n.behind it ++ (skipped ++ [first])).length = it.index + skipped.length + 1 := by
    simp only [List.length_append, inside, List.length_singleton]
    omega
  refine ⟨passes, by rw [split]; simp, rfl, fun r' later => ?_, skipped, ?_⟩
  · have later : r' ∈ rest := by
      rw [ahead] at later
      simp only [parts, ← length, List.drop_left] at later
      exact later
    rw [split]
    simp [later]
  · rw [behind]
    simp only [parts, ← length, List.take_left]

theorem mem_ahead_overwrite {r : Nat} (later : r ∈ (n.overwrite values).ahead it) :
    r ∈ n.ahead it ∨ r ∈ (n.overwrite values).current.rows := by
  obtain ⟨added, rows, listed⟩ := n.overwrite_rowsOf values it.object
  rw [ahead, rows, List.drop_append, List.mem_append] at later
  exact later.imp id (fun new => listed r (List.mem_of_mem_drop new))

theorem held_of_mem_ahead {r : Nat} (later : r ∈ n.ahead it) : n.current.Holds r :=
  held_of_mem_rowsOf (List.mem_of_mem_drop later)

end NamedList
