import Mathlib.Data.Option.Basic
import Mathlib.Data.Set.Defs
import Mathlib.Logic.Function.Basic

/-- A value, and how long its lease is, if it has one, and since when it runs. -/
structure Leased (α δ τ : Type*) where
  value : α
  lease : Option (δ × τ)

abbrev LeaseMap (κ α δ τ : Type*) := κ → Option (Leased α δ τ)

/-- A put under a key: a value with or without a lease, or none for a removal. -/
abbrev LeasePut (κ α δ : Type*) := κ × Option (α × Option δ)

section Leases

variable {κ α δ τ : Type*}

def Leased.renewed (now : τ) (entry : Leased α δ τ) : Leased α δ τ :=
  { entry with lease := entry.lease.map (fun lease => (lease.1, now)) }

/-- What a put at `now` leaves under its key. -/
def leasedFrom (now : τ) (put : Option (α × Option δ)) : Option (Leased α δ τ) :=
  put.map (fun new => ⟨new.1, new.2.map (fun length => (length, now))⟩)

namespace LeaseMap

def value? (m : LeaseMap κ α δ τ) (k : κ) : Option α := (m k).map Leased.value

def lease? (m : LeaseMap κ α δ τ) (k : κ) : Option (δ × τ) := (m k).bind Leased.lease

open Classical in
/-- The leases of some keys run anew. -/
noncomputable def renew (now : τ) (ks : Set κ) (m : LeaseMap κ α δ τ) : LeaseMap κ α δ τ :=
  fun k => if k ∈ ks then (m k).map (Leased.renewed now) else m k

/-- Puts one after the other. -/
def puts [DecidableEq κ] (now : τ) (m : LeaseMap κ α δ τ) (all : List (LeasePut κ α δ)) : LeaseMap κ α δ τ :=
  all.foldl (fun m put => Function.update m put.1 (leasedFrom now put.2)) m

open Classical in
/-- The entries whose lease has lapsed go. -/
noncomputable def sweep (lapsed : δ × τ → Prop) (m : LeaseMap κ α δ τ) : LeaseMap κ α δ τ :=
  fun k => (m k).filter (fun entry => ∀ lease, entry.lease = some lease → ¬ lapsed lease)

variable {now : τ} {ks : Set κ} {m : LeaseMap κ α δ τ} {k : κ} {lapsed : δ × τ → Prop}

@[simp] theorem renew_value? : (m.renew now ks).value? k = m.value? k := by
  unfold value? renew
  split
  · rw [Option.map_map]
    rfl
  · rfl

theorem renew_lease?_of_mem (member : k ∈ ks) :
    (m.renew now ks).lease? k = (m.lease? k).map (fun lease => (lease.1, now)) := by
  unfold lease? renew
  rw [if_pos member]
  cases m k <;> rfl

theorem renew_lease?_of_not_mem (apart : k ∉ ks) : (m.renew now ks).lease? k = m.lease? k := by
  unfold lease? renew
  rw [if_neg apart]

theorem renew_empty : m.renew now ∅ = m := funext (fun _ => if_neg (fun member => member))

/-- The last put of a key decides. -/
theorem puts_apply [DecidableEq κ] (all : List (LeasePut κ α δ)) :
    m.puts now all k = match all.reverse.find? (fun put => put.1 = k) with
      | none => m k
      | some put => leasedFrom now put.2 := by
  induction all generalizing m with
  | nil => rfl
  | cons put all ih =>
    change LeaseMap.puts now (Function.update m put.1 (leasedFrom now put.2)) all k = _
    rw [ih, List.reverse_cons, List.find?_append]
    cases later : all.reverse.find? (fun put => put.1 = k) with
    | some last => rfl
    | none =>
      by_cases same : put.1 = k
      · subst same
        simp
      · simp [same, Function.update_of_ne (Ne.symm same)]

theorem sweep_of_lapsed {lease : δ × τ} (leased : m.lease? k = some lease) (ended : lapsed lease) :
    m.sweep lapsed k = none := by
  obtain ⟨entry, found, mine⟩ := Option.bind_eq_some_iff.mp leased
  rw [sweep, found, Option.filter_some, if_neg]
  simpa using ⟨lease.1, lease.2, mine, ended⟩

theorem sweep_of_not (stays : ∀ lease, m.lease? k = some lease → ¬ lapsed lease) : m.sweep lapsed k = m k := by
  unfold lease? at stays
  cases found : m k with
  | none => rw [sweep, found, Option.filter_none]
  | some entry =>
    rw [found, Option.bind_some] at stays
    rw [sweep, found, Option.filter_some, if_pos]
    simpa only [decide_eq_true_eq] using stays

/-- The entries that a sweep removes. -/
theorem removed_iff : m k ≠ none ∧ m.sweep lapsed k = none ↔ ∃ lease, m.lease? k = some lease ∧ lapsed lease := by
  constructor
  · rintro ⟨present, gone⟩
    by_contra none_lapsed
    rw [sweep_of_not (fun lease leased ended => none_lapsed ⟨lease, leased, ended⟩)] at gone
    exact present gone
  · rintro ⟨lease, leased, ended⟩
    refine ⟨fun missing => ?_, sweep_of_lapsed leased ended⟩
    rw [lease?, missing] at leased
    cases leased

end LeaseMap

end Leases
