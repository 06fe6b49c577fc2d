import Mathlib.Data.Rat.Defs

namespace InmemRuntime

/-- The JSON-like Python values that metadata, configs, kwargs and auth filters
are made of. A dict is the list of its items. -/
inductive PyVal where
  | none
  | bool (b : Bool)
  | int (n : Int)
  | float (q : Rat)
  | str (s : String)
  | list (xs : List PyVal)
  | dict (items : List (String × PyVal))
deriving Inhabited

/-- A dict at the top of a record (`thread["metadata"]`, `run["kwargs"]`). -/
abbrev PyDict := List (String × PyVal)

namespace PyDict

def get? (d : PyDict) (key : String) : Option PyVal := List.lookup key d

def hasKey (d : PyDict) (key : String) : Bool := (d.get? key).isSome

/-- `d[key] = value` -/
def set (d : PyDict) (key : String) (value : PyVal) : PyDict :=
  if d.hasKey key then d.map (fun item => if item.1 = key then (key, value) else item)
  else d ++ [(key, value)]

/-- `{**d, **e}` -/
def update (d e : PyDict) : PyDict := e.foldl (fun acc item => acc.set item.1 item.2) d

/-- `d.get(key, {})` for a key that holds a dict. -/
def getDict (d : PyDict) (key : String) : PyDict :=
  match d.get? key with
  | some (.dict items) => items
  | _ => []

theorem get?_append (d e : PyDict) (key : String) :
    PyDict.get? (d ++ e) key = (PyDict.get? d key).or (PyDict.get? e key) := by
  simp only [get?]
  induction d with
  | nil => rfl
  | cons item d ih =>
    obtain ⟨own, value⟩ := item
    by_cases here : key = own
    · simp [here]
    · have apart : (key == own) = false := by simpa using here
      simpa [List.lookup_cons, apart] using ih

theorem get?_cons (item : String × PyVal) (d : PyDict) (key : String) :
    PyDict.get? (item :: d) key = if key = item.1 then some item.2 else PyDict.get? d key := by
  obtain ⟨own, value⟩ := item
  by_cases here : key = own
  · simp [get?, here]
  · have apart : (key == own) = false := by simpa using here
    simp [get?, List.lookup_cons, apart, here]

theorem get?_map_set_self {d : PyDict} {key : String} (present : d.hasKey key = true) (value : PyVal) :
    PyDict.get? (d.map (fun item => if item.1 = key then (key, value) else item)) key = some value := by
  induction d with
  | nil => cases present
  | cons item d ih =>
    rw [List.map_cons, get?_cons]
    by_cases here : item.1 = key
    · simp [here]
    · rw [hasKey, get?_cons, if_neg (Ne.symm here)] at present
      simpa [here, Ne.symm here] using ih present

theorem get?_map_set_of_ne (d : PyDict) {key other : String} (apart : other ≠ key) (value : PyVal) :
    PyDict.get? (d.map (fun item => if item.1 = key then (key, value) else item)) other = PyDict.get? d other := by
  induction d with
  | nil => rfl
  | cons item d ih =>
    rw [List.map_cons, get?_cons, get?_cons, ih]
    by_cases here : item.1 = key
    · simp [here, apart]
    · simp [here]

@[simp] theorem get?_set_self (d : PyDict) (key : String) (value : PyVal) : (d.set key value).get? key = some value := by
  unfold set
  split
  · rename_i present
    exact get?_map_set_self present value
  · rename_i absent
    have none : PyDict.get? d key = .none := by simpa [hasKey] using absent
    rw [get?_append, none]
    simp [get?]

theorem get?_set_of_ne (d : PyDict) {key other : String} (apart : other ≠ key) (value : PyVal) :
    (d.set key value).get? other = d.get? other := by
  unfold set
  split
  · exact get?_map_set_of_ne d apart value
  · rw [get?_append, get?_cons, if_neg apart]
    exact Option.or_none

theorem set_ne_nil (d : PyDict) (key : String) (value : PyVal) : d.set key value ≠ [] := by
  intro empty
  have found := get?_set_self d key value
  rw [empty] at found
  cases found

end PyDict

namespace PyVal

/-- Numbers compare across `bool`, `int` and `float`. -/
def number? : PyVal → Option Rat
  | .bool b => some (if b then 1 else 0)
  | .int n => some n
  | .float q => some q
  | _ => Option.none

mutual

/-- Python's `==` -/
def pyEq : PyVal → PyVal → Bool
  | .none, .none => true
  | .str s, .str t => s == t
  | .list xs, .list ys => pyEqList xs ys
  | .dict xs, .dict ys => xs.length == ys.length && pyEqItems xs ys
  | x, y =>
    match x.number?, y.number? with
    | some p, some q => p == q
    | _, _ => false

def pyEqList : List PyVal → List PyVal → Bool
  | [], [] => true
  | x :: xs, y :: ys => pyEq x y && pyEqList xs ys
  | _, _ => false

/-- Every item of the left dict stands in the right one under its key. -/
def pyEqItems : List (String × PyVal) → List (String × PyVal) → Bool
  | [], _ => true
  | (key, x) :: xs, ys =>
    (match List.lookup key ys with
      | some y => pyEq x y
      | Option.none => false) && pyEqItems xs ys

end

/-- Python's truth value. -/
def truthy : PyVal → Bool
  | .none => false
  | .bool b => b
  | .int n => n ≠ 0
  | .float q => q ≠ 0
  | .str s => s ≠ ""
  | .list xs => !xs.isEmpty
  | .dict items => !items.isEmpty

end PyVal

end InmemRuntime
