import InmemRuntime.Lib.Dict
import Mathlib.Logic.Relation
import Mathlib.Order.Basic

namespace Dict

variable {κ ε : Type*} [DecidableEq κ]

/-- `a` is stored and its record names the parent `b`. -/
def ParentOf (parent : ε → Option κ) (d : Dict κ ε) (a b : κ) : Prop :=
  ∃ e, d.get? a = some e ∧ parent e = some b

def Acyclic (parent : ε → Option κ) (d : Dict κ ε) : Prop :=
  ∀ a, ¬ Relation.TransGen (ParentOf parent d) a a

/-- The records met from a start key along parent keys, up to an absent parent
or a key that is not stored. -/
inductive ParentChain (parent : ε → Option κ) (d : Dict κ ε) : Option κ → List (κ × ε) → Prop
  | root : ParentChain parent d none []
  | missing {a} : d.get? a = none → ParentChain parent d (some a) []
  | next {a e rest} : d.get? a = some e → ParentChain parent d (parent e) rest →
      ParentChain parent d (some a) ((a, e) :: rest)

/-- The record that many parents above a start key. -/
def ancestor (parent : ε → Option κ) (d : Dict κ ε) : Nat → Option κ → Option ε
  | 0, start => start.bind d.get?
  | n + 1, start => (start.bind d.get?).bind (fun e => ancestor parent d n (parent e))

variable {parent : ε → Option κ} {d : Dict κ ε}

theorem ParentChain.unique {start : Option κ} {chain chain' : List (κ × ε)}
    (one : ParentChain parent d start chain) (two : ParentChain parent d start chain') : chain = chain' := by
  induction one generalizing chain' with
  | root => cases two; rfl
  | missing absent =>
    cases two with
    | missing => rfl
    | next found => rw [absent] at found; cases found
  | next found _ ih =>
    cases two with
    | missing absent => rw [absent] at found; cases found
    | next found' rest => cases found.symm.trans found'; rw [ih rest]

/-- The keys already visited reach the current one, so without a cycle each
step visits a new key and the stored keys bound the number of steps. -/
theorem Acyclic.exists_chain_from (acyclic : Acyclic parent d) (room : Nat) :
    ∀ (visited : List κ) (start : Option κ), visited.Nodup → (∀ v ∈ visited, v ∈ d.keys) →
      (∀ v ∈ visited, ∀ a, start = some a → Relation.TransGen (ParentOf parent d) v a) →
      d.keys.length < room + visited.length → ∃ chain, ParentChain parent d start chain := by
  induction room with
  | zero =>
    intro visited _ distinct stored _ bound
    have fits := (List.subperm_of_subset distinct stored).length_le
    omega
  | succ room ih =>
    intro visited start distinct stored reach bound
    cases start with
    | none => exact ⟨[], .root⟩
    | some a =>
      cases found : d.get? a with
      | none => exact ⟨[], .missing found⟩
      | some e =>
        have fresh : a ∉ visited := fun seen => acyclic a (reach a seen a rfl)
        have stored' : ∀ v ∈ a :: visited, v ∈ d.keys := by
          intro v member
          rcases List.mem_cons.mp member with rfl | old
          · exact mem_keys_iff.mpr ⟨e, found⟩
          · exact stored v old
        have reach' : ∀ v ∈ a :: visited, ∀ b, parent e = some b →
            Relation.TransGen (ParentOf parent d) v b := by
          intro v member b named
          have edge : ParentOf parent d a b := ⟨e, found, named⟩
          rcases List.mem_cons.mp member with rfl | old
          · exact .single edge
          · exact (reach v old a rfl).tail edge
        obtain ⟨chain, walk⟩ := ih (a :: visited) (parent e)
          (List.nodup_cons.mpr ⟨fresh, distinct⟩) stored' reach'
          (by simp only [List.length_cons]; omega)
        exact ⟨(a, e) :: chain, .next found walk⟩

theorem Acyclic.exists_chain (acyclic : Acyclic parent d) (start : Option κ) :
    ∃ chain, ParentChain parent d start chain :=
  acyclic.exists_chain_from (d.keys.length + 1) [] start List.nodup_nil (by simp) (by simp)
    (by simp)

/-- Parents that are smaller than their children in some order form no cycle. -/
theorem Acyclic.of_lt {α : Type*} [Preorder α] (rank : κ → α)
    (smaller : ∀ item ∈ d.entries, ∀ b ∈ parent item.2, rank b < rank item.1) : Acyclic parent d := by
  have descends : ∀ a b, Relation.TransGen (ParentOf parent d) a b → rank b < rank a := by
    intro a b path
    induction path with
    | single edge =>
      obtain ⟨e, found, named⟩ := edge
      exact smaller _ (mem_entries_iff.mpr found) _ named
    | tail _ edge ih =>
      obtain ⟨e, found, named⟩ := edge
      exact (smaller _ (mem_entries_iff.mpr found) _ named).trans ih
  exact fun a cycle => lt_irrefl _ (descends a a cycle)

theorem acyclic_empty : Acyclic parent (.empty : Dict κ ε) := by
  intro a cycle
  obtain ⟨_, ⟨_, found, _⟩, _⟩ := Relation.TransGen.head'_iff.mp cycle
  cases found

/-- Deleting records keeps the rest acyclic. -/
theorem Acyclic.mono {d' : Dict κ ε} (acyclic : Acyclic parent d)
    (kept : ∀ a e, d'.get? a = some e → d.get? a = some e) : Acyclic parent d' := by
  intro a cycle
  have edges : ∀ x y, ParentOf parent d' x y → ParentOf parent d x y :=
    fun x y ⟨e, found, named⟩ => ⟨e, kept x e found, named⟩
  exact acyclic a (Relation.TransGen.mono edges a a cycle)

theorem Acyclic.filter (acyclic : Acyclic parent d) (p : κ → ε → Bool) :
    Acyclic parent (d.filter p) :=
  acyclic.mono (fun a e found => by
    rw [get?_filter, Option.filter_eq_some_iff] at found
    exact found.1)

theorem parentOf_set {a : κ} {e : ε} {x y : κ} :
    ParentOf parent (d.set a e) x y ↔ if x = a then parent e = some y else ParentOf parent d x y := by
  unfold ParentOf
  rw [get?_set]
  split <;> simp

/-- What does not lead to a key does not lead to it through its new record. -/
theorem leads_of_set {a p x : κ} {e : ε} (apart : ¬ Relation.ReflTransGen (ParentOf parent d) p a)
    (path : Relation.ReflTransGen (ParentOf parent (d.set a e)) p x) :
    Relation.ReflTransGen (ParentOf parent d) p x := by
  induction path with
  | refl => exact .refl
  | @tail y z _ edge ih =>
    have other : y ≠ a := fun same => apart (same ▸ ih)
    rw [parentOf_set, if_neg other] at edge
    exact ih.tail edge

/-- A path over a new record is one without it, or comes by it. -/
theorem path_of_set {a : κ} {e : ε} {x y : κ}
    (path : Relation.TransGen (ParentOf parent (d.set a e)) x y) :
    Relation.TransGen (ParentOf parent d) x y ∨
      Relation.ReflTransGen (ParentOf parent (d.set a e)) x a ∧
        Relation.TransGen (ParentOf parent (d.set a e)) a y := by
  induction path with
  | single edge =>
    by_cases here : x = a
    · subst here
      exact .inr ⟨.refl, .single edge⟩
    · rw [parentOf_set, if_neg here] at edge
      exact .inl (.single edge)
  | @tail y z before edge ih =>
    rcases ih with without | ⟨toKey, fromKey⟩
    · by_cases here : y = a
      · subst here
        exact .inr ⟨before.to_reflTransGen, .single edge⟩
      · rw [parentOf_set, if_neg here] at edge
        exact .inl (without.tail edge)
    · exact .inr ⟨toKey, fromKey.tail edge⟩

/-- A record may be added, or put in the place of another one, whose parent does
not lead to its key. -/
theorem Acyclic.set {a : κ} {e : ε} (acyclic : Acyclic parent d)
    (apart : ∀ p, parent e = some p → ¬ Relation.ReflTransGen (ParentOf parent d) p a) :
    Acyclic parent (d.set a e) := by
  have noReturn : ¬ Relation.TransGen (ParentOf parent (d.set a e)) a a := by
    intro cycle
    obtain ⟨p, edge, back⟩ := Relation.TransGen.head'_iff.mp cycle
    rw [parentOf_set, if_pos rfl] at edge
    exact apart p edge (leads_of_set (apart p edge) back)
  intro x cycle
  rcases path_of_set cycle with without | ⟨toKey, fromKey⟩
  · exact acyclic x without
  · exact noReturn (fromKey.trans_left toKey)

end Dict
