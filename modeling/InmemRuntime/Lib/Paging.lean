import Mathlib.Data.List.Basic
import Mathlib.Order.Lattice

section Filters

variable {α ε : Type}

/-- The records that a filter lets through. The first record it raises at ends the loop. -/
def keepOk (allows : α → Except ε Bool) : List α → Except ε (List α)
  | [] => .ok []
  | a :: l => do
    let allowed ← allows a
    let rest ← keepOk allows l
    .ok (if allowed then a :: rest else rest)

def countOk (allows : α → Except ε Bool) : List α → Except ε Nat
  | [] => .ok 0
  | a :: l => do
    let allowed ← allows a
    let rest ← countOk allows l
    .ok (if allowed then rest + 1 else rest)

/-- The filter lets the record through. -/
def Allowed (allows : α → Except ε Bool) (a : α) : Bool := (allows a).toOption = some true

variable {allows : α → Except ε Bool} {l : List α}

theorem keepOk_of_ok (decided : ∀ a ∈ l, ∃ allowed, allows a = .ok allowed) :
    keepOk allows l = .ok (l.filter (Allowed allows)) := by
  induction l with
  | nil => rfl
  | cons a l ih =>
    obtain ⟨⟨allowed, here⟩, rest⟩ := List.forall_mem_cons.mp decided
    have passes : Allowed allows a = allowed := by simp [Allowed, here, Except.toOption]
    rw [keepOk, here, ih rest, List.filter_cons, passes]
    rfl

theorem decided_of_keepOk {kept : List α} (filtered : keepOk allows l = .ok kept) :
    ∀ a ∈ l, ∃ allowed, allows a = .ok allowed := by
  induction l generalizing kept with
  | nil => exact fun a member => by cases member
  | cons a l ih =>
    rw [keepOk] at filtered
    rw [List.forall_mem_cons]
    cases here : allows a with
    | error e =>
      rw [here] at filtered
      cases filtered
    | ok allowed =>
      rw [here] at filtered
      cases rest : keepOk allows l with
      | error e =>
        rw [rest] at filtered
        cases filtered
      | ok kept => exact ⟨⟨allowed, rfl⟩, ih rest⟩

/-- A filter that raises nowhere keeps what it lets through. -/
theorem keepOk_eq_ok {kept : List α} (filtered : keepOk allows l = .ok kept) : kept = l.filter (Allowed allows) :=
  Except.ok.inj (filtered.symm.trans (keepOk_of_ok (decided_of_keepOk filtered)))

/-- Counting is keeping and taking the length. -/
theorem countOk_eq (allows : α → Except ε Bool) (l : List α) : countOk allows l = (keepOk allows l).map List.length := by
  induction l with
  | nil => rfl
  | cons a l ih =>
    rw [countOk, keepOk, ih]
    cases allows a with
    | error e => rfl
    | ok allowed =>
      cases keepOk allows l with
      | error e => rfl
      | ok kept => cases allowed <;> rfl

/-- A filter keeps the records with a property where it decides that property of each. -/
theorem keepOk_filter_iff {p : α → Bool} : keepOk allows l = .ok (l.filter p) ↔ ∀ a ∈ l, allows a = .ok (p a) := by
  constructor
  · intro filtered a member
    obtain ⟨allowed, here⟩ := decided_of_keepOk filtered a member
    have same : a ∈ l.filter p ↔ a ∈ l.filter (Allowed allows) := by rw [keepOk_eq_ok filtered]
    rw [List.mem_filter, List.mem_filter, and_iff_right member, and_iff_right member] at same
    have passes : Allowed allows a = allowed := by simp [Allowed, here, Except.toOption]
    rw [here, ← passes, Bool.eq_iff_iff.mpr same]
  · intro decides
    have agree : ∀ a ∈ l, Allowed allows a = p a := by
      intro a member
      simp [Allowed, decides a member, Except.toOption]
    rw [keepOk_of_ok (fun a member => ⟨p a, decides a member⟩), List.filter_congr agree]

/-- A filter that lets all records with a property through counts them where it
decides that property of each. -/
theorem countOk_filter_iff {p : α → Bool} (within : ∀ a, p a = true → allows a = .ok true) :
    countOk allows l = .ok (l.filter p).length ↔ ∀ a ∈ l, allows a = .ok (p a) := by
  rw [countOk_eq, ← keepOk_filter_iff]
  constructor
  · intro counted
    cases filtered : keepOk allows l with
    | error e =>
      rw [filtered] at counted
      cases counted
    | ok kept =>
      rw [filtered] at counted
      have fewer : (l.filter p).Sublist kept := by
        rw [keepOk_eq_ok filtered]
        refine List.monotone_filter_right l (fun a passes => ?_)
        simp [Allowed, within a passes, Except.toOption]
      rw [fewer.eq_of_length (Except.ok.inj counted).symm]
  · intro filtered
    rw [filtered]
    rfl

theorem keepOk_congr {allows' : α → Except ε Bool} (same : ∀ a ∈ l, allows a = allows' a) :
    keepOk allows l = keepOk allows' l := by
  induction l with
  | nil => rfl
  | cons a l ih =>
    obtain ⟨here, rest⟩ := List.forall_mem_cons.mp same
    rw [keepOk, keepOk, here, ih rest]

/-- What is not allowed need not be looked at. -/
theorem countOk_filter {p : α → Bool} (refused : ∀ a ∈ l, p a = false → allows a = .ok false) :
    countOk allows (l.filter p) = countOk allows l := by
  induction l with
  | nil => rfl
  | cons a l ih =>
    obtain ⟨own, others⟩ := List.forall_mem_cons.mp refused
    rw [List.filter_cons, countOk]
    split
    · rw [countOk, ih others]
    · rename_i fails
      rw [own (by simpa using fails), ih others]
      cases countOk allows l <;> rfl

theorem countOk_map {β : Type} (g : β → α) (l : List β) : countOk allows (l.map g) = countOk (fun b => allows (g b)) l := by
  induction l with
  | nil => rfl
  | cons b l ih => rw [List.map_cons, countOk, countOk, ih]

end Filters

section Sorts

variable {α : Type*}

/-- A sort of a list with `reverse`: in either direction equal records keep their order. -/
def sortedBy (le : α → α → Bool) (reverse : Bool) (l : List α) : List α :=
  l.mergeSort (fun a b => if reverse then le b a else le a b)

/-- No record comes after one that it should come before. -/
def Ordered (le : α → α → Bool) (reverse : Bool) (l : List α) : Prop :=
  l.Pairwise (fun a b => (if reverse then le b a else le a b) = true)

theorem sortedBy_perm (le : α → α → Bool) (reverse : Bool) (l : List α) : (sortedBy le reverse l).Perm l :=
  List.mergeSort_perm _ _

theorem sortedBy_ordered {le : α → α → Bool} (trans : ∀ a b c, le a b = true → le b c = true → le a c = true)
    (total : ∀ a b, (le a b || le b a) = true) (reverse : Bool) (l : List α) : Ordered le reverse (sortedBy le reverse l) := by
  refine List.pairwise_mergeSort ?_ ?_ l
  · intro a b c first second
    cases reverse with
    | false => exact trans a b c first second
    | true => exact trans c b a second first
  · intro a b
    cases reverse with
    | false => exact total a b
    | true => exact total b a

theorem sortedBy_key {β : Type*} [LinearOrder β] (key : α → β) {le : α → α → Bool}
    (same : ∀ a b, le a b = true ↔ key a ≤ key b) (reverse : Bool) (l : List α) : Ordered le reverse (sortedBy le reverse l) := by
  refine sortedBy_ordered (fun a b c first second => ?_) (fun a b => ?_) reverse l
  · rw [same] at first second ⊢
    exact le_trans first second
  · rw [Bool.or_eq_true, same, same]
    exact le_total (key a) (key b)

end Sorts

structure Page (α : Type*) where
  records : List α
  cursor : Option Nat
deriving DecidableEq

namespace Page

variable {α σ ε : Type*}

/-- `l[offset : offset + limit]`, and `offset + limit` if something is left. -/
def cut (l : List α) (limit offset : Nat) : Page α where
  records := (l.drop offset).take limit
  cursor := if l.length > offset + limit then some (offset + limit) else none

/-- The same page, where one record more than the limit is fetched to see if something is left. -/
def cutAhead (l : List α) (limit offset : Nat) : Page α :=
  let paginated := (l.drop offset).take (limit + 1)
  if paginated.length > limit then ⟨paginated.take limit, some (offset + limit)⟩ else ⟨paginated, none⟩

theorem cutAhead_eq (l : List α) (limit offset : Nat) : cutAhead l limit offset = cut l limit offset := by
  have more : ((l.drop offset).take (limit + 1)).length > limit ↔ l.length > offset + limit := by
    rw [List.length_take, List.length_drop]
    omega
  simp only [cutAhead, cut, more]
  split
  · rw [List.take_take, Nat.min_eq_left (Nat.le_succ limit)]
  · rename_i all
    rw [List.take_of_length_le, List.take_of_length_le]
    · rw [List.length_drop]
      omega
    · rw [List.length_drop]
      omega

/-- A reader that starts at an offset and follows the cursors until there is
none has read these records. The search may write to the state. -/
inductive Follows (search : σ → Nat → σ × Except ε (Page α)) : σ → Nat → List α → σ → Prop
  | last {s offset s' records} : search s offset = (s', .ok ⟨records, none⟩) → Follows search s offset records s'
  | next {s offset s' records cursor rest s''} : search s offset = (s', .ok ⟨records, some cursor⟩) →
      Follows search s' cursor rest s'' → Follows search s offset (records ++ rest) s''

variable {search : σ → Nat → σ × Except ε (Page α)}

/-- Where each search cuts its page from one list, the reader reads the list
from its offset on, whatever the limit. -/
theorem follows_cut {invariant : σ → Prop} {l : List α} {limit : Nat} (positive : 1 ≤ limit)
    (cuts : ∀ s offset, invariant s → ∃ s', search s offset = (s', .ok (cut l limit offset)) ∧ invariant s')
    {s : σ} (start : invariant s) (offset : Nat) :
    ∃ s', Follows search s offset (l.drop offset) s' ∧ invariant s' := by
  induction left : l.length - offset using Nat.strongRecOn generalizing s offset with
  | _ n ih =>
    obtain ⟨s', found, kept⟩ := cuts s offset start
    rw [cut] at found
    by_cases more : l.length > offset + limit
    · rw [if_pos more] at found
      obtain ⟨s'', rest, final⟩ := ih (l.length - (offset + limit)) (by omega) kept (offset + limit) rfl
      refine ⟨s'', ?_, final⟩
      have whole : l.drop offset = (l.drop offset).take limit ++ l.drop (offset + limit) := by
        rw [← List.drop_drop, List.take_append_drop]
      rw [whole]
      exact .next found rest
    · rw [if_neg more] at found
      have all : (l.drop offset).take limit = l.drop offset :=
        List.take_of_length_le (by rw [List.length_drop]; omega)
      rw [all] at found
      exact ⟨s', .last found, kept⟩

/-- Whatever the limit, a reader who follows the cursors from the start reads one
sequence, which has each of the records once and is in order. -/
def Listed (search : Nat → σ → Nat → σ × Except ε (Page α)) (s : σ) (records : List α) (ordered : List α → Prop) : Prop :=
  ∃ sequence, sequence.Perm records ∧ ordered sequence ∧
    ∀ limit, 1 ≤ limit → ∃ s', Follows (search limit) s 0 sequence s'

/-- A search that leaves the state as it is, and cuts its pages from a sorted list. -/
theorem listed_of_cut {search : Nat → σ → Nat → σ × Except ε (Page α)} {s : σ} {records sequence : List α}
    {ordered : List α → Prop} (each : sequence.Perm records) (sorted : ordered sequence)
    (cuts : ∀ limit offset, search limit s offset = (s, .ok (cut sequence limit offset))) :
    Listed search s records ordered := by
  refine ⟨sequence, each, sorted, fun limit positive => ?_⟩
  have stays : ∀ s' offset, s' = s →
      ∃ s'', search limit s' offset = (s'', .ok (cut sequence limit offset)) ∧ s'' = s := by
    rintro s' offset rfl
    exact ⟨s', cuts limit offset, rfl⟩
  obtain ⟨s', reads, _⟩ := follows_cut positive stays rfl 0
  exact ⟨s', reads⟩

end Page
