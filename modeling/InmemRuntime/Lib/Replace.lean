import Mathlib.Data.List.Infix
import Mathlib.Data.Nat.Find
import Mathlib.Algebra.BigOperators.Group.List.Basic
import Mathlib.Algebra.GroupWithZero.Nat

namespace Replace

variable {α : Type*} [DecidableEq α]

/-- The pass over a text; the counter says how many letters of a match are
still to be skipped. -/
def replaceFrom (old new : List α) : Nat → List α → List α
  | _, [] => []
  | 0, x :: xs =>
    if old <+: x :: xs then new ++ replaceFrom old new (old.length - 1) xs
    else x :: replaceFrom old new 0 xs
  | skip + 1, _ :: xs => replaceFrom old new skip xs

/-- `text.replace(old, new)` for a nonempty word `old`. -/
def replace (old new text : List α) : List α := replaceFrom old new 0 text

variable {old new : List α}

/-- A replacement by a word of the same weight keeps the weight of the text. -/
theorem sum_replaceFrom (nonempty : old ≠ []) (weight : α → Nat)
    (same : (new.map weight).sum = (old.map weight).sum) (text : List α) :
    ∀ skip, ((replaceFrom old new skip text).map weight).sum = ((text.drop skip).map weight).sum := by
  induction text with
  | nil => intro skip; cases skip <;> rfl
  | cons x xs ih =>
    intro skip
    cases skip with
    | succ skip => exact ih skip
    | zero =>
      simp only [replaceFrom]
      split
      · rename_i isMatch
        obtain ⟨rest, shape⟩ := isMatch
        obtain ⟨first, tail, rfl⟩ := List.exists_cons_of_ne_nil nonempty
        obtain ⟨rfl, rfl⟩ := List.cons.inj shape
        have dropped : (tail.append rest).drop tail.length = rest := List.drop_left
        rw [List.map_append, List.sum_append, ih, same, List.length_cons, Nat.add_sub_cancel, dropped]
        simp only [List.drop_zero, List.map_cons, List.sum_cons, List.append_eq,
          List.map_append, List.sum_append, Nat.add_assoc]
      · simp [ih]

theorem sum_replace (nonempty : old ≠ []) (weight : α → Nat)
    (same : (new.map weight).sum = (old.map weight).sum) (text : List α) :
    ((replace old new text).map weight).sum = (text.map weight).sum :=
  sum_replaceFrom nonempty weight same text 0

theorem length_replace (nonempty : old ≠ []) (same : new.length = old.length) (text : List α) :
    (replace old new text).length = text.length := by
  simpa using sum_replace nonempty (fun _ => 1) (by simpa using same) text

theorem replace_of_short {text : List α} (short : text.length < old.length) :
    replace old new text = text := by
  unfold replace
  induction text with
  | nil => rfl
  | cons x text ih =>
    have noMatch : ¬ old <+: x :: text := fun isMatch => absurd isMatch.length_le (by omega)
    rw [replaceFrom, if_neg noMatch, ih (Nat.lt_of_succ_lt short)]

/-- A word with a letter that the text lacks has no match. -/
theorem replace_of_missing (new : List α) {text : List α} {letter : α} (needed : letter ∈ old)
    (missing : letter ∉ text) : replace old new text = text := by
  unfold replace
  induction text with
  | nil => rfl
  | cons x text ih =>
    have noMatch : ¬ old <+: x :: text := fun isMatch => missing (isMatch.subset needed)
    rw [replaceFrom, if_neg noMatch, ih (fun member => missing (List.mem_cons_of_mem _ member))]

theorem replaceFrom_append_of_no_match (passed rest : List α)
    (clear : ∀ k < passed.length, ¬ old <+: passed.drop k ++ rest) :
    replaceFrom old new 0 (passed ++ rest) = passed ++ replaceFrom old new 0 rest := by
  induction passed with
  | nil => rfl
  | cons x xs ih =>
    have here : ¬ old <+: x :: (xs ++ rest) := by simpa using clear 0 (by simp)
    simp only [List.cons_append, replaceFrom, here, if_false]
    rw [ih (fun k hk => by simpa using clear (k + 1) (by simpa using hk))]

theorem replaceFrom_skip (passed rest : List α) :
    replaceFrom old new passed.length (passed ++ rest) = replaceFrom old new 0 rest := by
  induction passed with
  | nil => rfl
  | cons x passed ih => exact ih

/-- A match at the beginning is replaced. -/
theorem replace_match_append (nonempty : old ≠ []) (new rest : List α) :
    replace old new (old ++ rest) = new ++ replace old new rest := by
  obtain ⟨first, tail, rfl⟩ := List.exists_cons_of_ne_nil nonempty
  have isMatch : first :: tail <+: first :: (tail ++ rest) := List.prefix_append (first :: tail) rest
  rw [replace, List.cons_append, replaceFrom, if_pos isMatch, List.length_cons, Nat.add_sub_cancel,
    replaceFrom_skip, replace]

omit [DecidableEq α] in
theorem prefix_append_mark {mark : α} (outside : mark ∉ old) (front back : List α) :
    old <+: front ++ mark :: back ↔ old <+: front := by
  constructor
  · intro isPrefix
    rcases List.prefix_or_prefix_of_prefix isPrefix (List.prefix_append front (mark :: back)) with
      within | beyond
    · exact within
    · obtain ⟨more, rfl⟩ := beyond
      rw [List.prefix_append_right_inj] at isPrefix
      cases more with
      | nil => simp
      | cons x more =>
        obtain ⟨rfl, _⟩ := List.cons_prefix_cons.mp isPrefix
        exact absurd (by simp) outside
  · intro within
    exact within.trans (List.prefix_append ..)

/-- A letter that the word lacks cuts the text in two. -/
theorem replaceFrom_append_mark (nonempty : old ≠ []) {mark : α} (outside : mark ∉ old)
    (front back : List α) : ∀ skip ≤ front.length,
      replaceFrom old new skip (front ++ mark :: back) =
        replaceFrom old new skip front ++ mark :: replaceFrom old new 0 back := by
  induction front with
  | nil =>
    intro skip within
    obtain rfl := Nat.le_zero.mp within
    have noMatch : ¬ old <+: mark :: back := by
      have agree := prefix_append_mark outside [] back
      simpa [nonempty] using agree
    simp [replaceFrom, noMatch]
  | cons x front ih =>
    intro skip within
    cases skip with
    | succ skip => exact ih skip (Nat.le_of_succ_le_succ within)
    | zero =>
      have agree := prefix_append_mark outside (x :: front) back
      rw [List.cons_append] at agree
      simp only [List.cons_append, replaceFrom, agree]
      split
      · rename_i isMatch
        have fits : old.length ≤ front.length + 1 := isMatch.length_le
        rw [ih _ (by omega), List.append_assoc]
      · rw [ih 0 (Nat.zero_le _), List.cons_append]

theorem replace_append_mark (nonempty : old ≠ []) {mark : α} (outside : mark ∉ old)
    (front back : List α) :
    replace old new (front ++ mark :: back) = replace old new front ++ mark :: replace old new back :=
  replaceFrom_append_mark nonempty outside front back 0 (Nat.zero_le _)

/-- A run of letters that the word lacks is kept, and cuts the text in two. -/
theorem replace_append_marks (new : List α) (nonempty : old ≠ []) {marks : List α} (some_mark : marks ≠ [])
    (outside : ∀ mark ∈ marks, mark ∉ old) (front back : List α) :
    replace old new (front ++ marks ++ back) =
      replace old new front ++ marks ++ replace old new back := by
  induction marks generalizing front with
  | nil => exact absurd rfl some_mark
  | cons mark marks ih =>
    have first := outside mark (List.mem_cons_self ..)
    rw [List.append_assoc, List.cons_append, replace_append_mark nonempty first]
    cases marks with
    | nil => simp
    | cons next marks =>
      have rest := ih (by simp) (fun m member => outside m (List.mem_cons_of_mem _ member)) []
      simp only [List.nil_append] at rest
      rw [rest]
      simp [replace, replaceFrom]

theorem replace_marks_append (new : List α) (nonempty : old ≠ []) {marks : List α}
    (outside : ∀ mark ∈ marks, mark ∉ old) (back : List α) :
    replace old new (marks ++ back) = marks ++ replace old new back := by
  cases marks with
  | nil => rfl
  | cons mark marks => exact replace_append_marks new nonempty (by simp) outside [] back

theorem replace_append_marks_end (new : List α) (nonempty : old ≠ []) {marks : List α}
    (outside : ∀ mark ∈ marks, mark ∉ old) (front : List α) :
    replace old new (front ++ marks) = replace old new front ++ marks := by
  cases marks with
  | nil => simp
  | cons mark marks =>
    have cut := replace_append_marks new nonempty (by simp) outside front []
    simpa [replace, replaceFrom] using cut

theorem replace_intercalate (new : List α) (nonempty : old ≠ []) {marks : List α} (some_mark : marks ≠ [])
    (outside : ∀ mark ∈ marks, mark ∉ old) (parts : List (List α)) :
    replace old new (marks.intercalate parts) = marks.intercalate (parts.map (replace old new)) := by
  induction parts with
  | nil => rfl
  | cons part parts ih =>
    cases parts with
    | nil => simp
    | cons next parts =>
      rw [List.intercalate_cons_cons, replace_append_marks new nonempty some_mark outside, ih]
      simp only [List.map_cons, List.intercalate_cons_cons]

/-- A match of `old` in the encoded text starts inside the code of a letter. -/
def Straddles (encode : α → List α) (old text : List α) : Prop :=
  ∃ before x after, text = before ++ x :: after ∧
    ∃ k, 0 < k ∧ k < (encode x).length ∧ old <+: (encode x).drop k ++ after.flatMap encode

section Encoding

variable {encode : α → List α} {letter : α → Prop}

/-- Letters of words stand for themselves; any other letter does too, or its
code begins with something that is no letter of a word. -/
structure PlainLetters (encode : α → List α) (letter : α → Prop) : Prop where
  plain : ∀ x, letter x → encode x = [x]
  marked : ∀ x, encode x = [x] ∨ ∃ mark code, encode x = mark :: code ∧ ¬ letter mark

omit [DecidableEq α] in
theorem PlainLetters.prefix_iff (plain : PlainLetters encode letter) {word : List α}
    (letters : ∀ x ∈ word, letter x) (text : List α) :
    word <+: text.flatMap encode ↔ word <+: text := by
  induction word generalizing text with
  | nil => simp
  | cons a word ih =>
    have rest := fun text => ih (fun x member => letters x (List.mem_cons_of_mem _ member)) text
    have first : letter a := letters a (List.mem_cons_self ..)
    cases text with
    | nil => simp
    | cons x text =>
      rcases plain.marked x with self | ⟨mark, code, shape, other⟩
      · simp only [List.flatMap_cons, self, List.singleton_append, List.cons_prefix_cons, rest]
      · have differs : a ≠ mark := fun same => other (same ▸ first)
        have notSelf : a ≠ x := by
          rintro rfl
          rw [plain.plain a first] at shape
          exact differs (List.cons.inj shape).1
        simp [List.flatMap_cons, shape, List.cons_prefix_cons, differs, notSelf]

/-- Where no match straddles a code, replacing in the encoded text is encoding
the text after the replacement. -/
theorem PlainLetters.replace_flatMap (plain : PlainLetters encode letter) (nonempty : old ≠ [])
    (oldLetters : ∀ x ∈ old, letter x) (newLetters : ∀ x ∈ new, letter x) {text : List α}
    (clear : ¬ Straddles encode old text) :
    replace old new (text.flatMap encode) = (replace old new text).flatMap encode := by
  have newSelf : new.flatMap encode = new := by
    clear clear
    induction new with
    | nil => rfl
    | cons a new ih =>
      rw [List.flatMap_cons, plain.plain a (newLetters a (List.mem_cons_self ..)),
        ih (fun x member => newLetters x (List.mem_cons_of_mem _ member))]
      rfl
  suffices general : ∀ skip, (∀ x ∈ text.take skip, letter x) →
      replaceFrom old new skip (text.flatMap encode) =
        (replaceFrom old new skip text).flatMap encode from general 0 (by simp)
  induction text with
  | nil => intro skip _; cases skip <;> rfl
  | cons x text ih =>
    have clearTail : ¬ Straddles encode old text := by
      rintro ⟨before, y, after, rfl, straddle⟩
      exact clear ⟨x :: before, y, after, rfl, straddle⟩
    intro skip skipped
    cases skip with
    | succ skip =>
      have self := plain.plain x (skipped x (by simp))
      simp only [List.flatMap_cons, self, List.singleton_append, replaceFrom]
      exact ih clearTail skip (fun y member => skipped y (by simp [member]))
    | zero =>
      rcases plain.marked x with self | ⟨mark, code, shape, other⟩
      · have agree := plain.prefix_iff oldLetters (x :: text)
        simp only [List.flatMap_cons, self, List.singleton_append] at agree ⊢
        simp only [replaceFrom, agree]
        split
        · rename_i isMatch
          obtain ⟨first, tail, rfl⟩ := List.exists_cons_of_ne_nil nonempty
          have inMatch : ∀ y ∈ text.take tail.length, letter y := by
            intro y member
            obtain ⟨_, tailMatch⟩ := List.cons_prefix_cons.mp isMatch
            rw [← List.prefix_iff_eq_take.mp tailMatch] at member
            exact oldLetters y (List.mem_cons_of_mem _ member)
          rw [List.flatMap_append, newSelf, List.length_cons, Nat.add_sub_cancel,
            ih clearTail _ inMatch]
        · rw [List.flatMap_cons, self, ih clearTail 0 (by simp), List.singleton_append]
      · have noMatch : ¬ old <+: x :: text := by
          intro isMatch
          obtain ⟨first, tail, rfl⟩ := List.exists_cons_of_ne_nil nonempty
          obtain ⟨rfl, _⟩ := List.cons_prefix_cons.mp isMatch
          have isLetter := oldLetters first (List.mem_cons_self ..)
          rw [plain.plain first isLetter] at shape
          exact other ((List.cons.inj shape).1 ▸ isLetter)
        have passed : ∀ k < (encode x).length,
            ¬ old <+: (encode x).drop k ++ text.flatMap encode := by
          intro k within isMatch
          rcases Nat.eq_zero_or_pos k with rfl | inside
          · rw [List.drop_zero, shape] at isMatch
            obtain ⟨first, tail, rfl⟩ := List.exists_cons_of_ne_nil nonempty
            obtain ⟨rfl, _⟩ := List.cons_prefix_cons.mp isMatch
            exact other (oldLetters first (List.mem_cons_self ..))
          · exact clear ⟨[], x, text, rfl, k, inside, within, isMatch⟩
        simp only [List.flatMap_cons, replaceFrom, noMatch, if_false]
        rw [replaceFrom_append_of_no_match _ _ passed, ih clearTail 0 (by simp)]

omit [DecidableEq α] in
/-- The first letter in whose code a match begins. -/
theorem Straddles.first {text : List α} (straddles : Straddles encode old text) :
    ∃ before x after k, text = before ++ x :: after ∧ ¬ Straddles encode old before ∧ 0 < k ∧
      k < (encode x).length ∧ old <+: (encode x).drop k ++ after.flatMap encode := by
  obtain ⟨before, x, after, shape, k, inside, within, isMatch⟩ := straddles
  induction length : before.length using Nat.strong_induction_on generalizing before x after k with
  | _ n ih =>
    by_cases earlier : Straddles encode old before
    · obtain ⟨front, y, back, rfl, j, insideJ, withinJ, isMatchJ⟩ := earlier
      have shorter : front.length < n := by
        rw [← length, List.length_append, List.length_cons]
        omega
      refine ih front.length shorter front y (back ++ x :: after) (by simp [shape]) j insideJ withinJ ?_ rfl
      rw [List.flatMap_append, ← List.append_assoc]
      exact isMatchJ.trans (List.prefix_append ..)
    · exact ⟨before, x, after, k, shape, earlier, inside, within, isMatch⟩

/-- A match that straddles a code cuts the encoded text inside this code, and
the text itself at its letter. -/
theorem PlainLetters.replace_straddle (plain : PlainLetters encode letter) (nonempty : old ≠ [])
    (oldLetters : ∀ x ∈ old, letter x) (newLetters : ∀ x ∈ new, letter x) {text : List α}
    (straddles : Straddles encode old text) :
    ∃ before x after k rest, 0 < k ∧ k < (encode x).length ∧
      (encode x).drop k ++ after.flatMap encode = old ++ rest ∧
      replace old new text = replace old new before ++ x :: replace old new after ∧
      replace old new (text.flatMap encode) = (replace old new before).flatMap encode ++
        ((encode x).take k ++ (new ++ replace old new rest)) := by
  obtain ⟨before, x, after, k, rfl, clear, inside, within, isMatch⟩ := straddles.first
  have found : ∃ k, 0 < k ∧ k < (encode x).length ∧ old <+: (encode x).drop k ++ after.flatMap encode :=
    ⟨k, inside, within, isMatch⟩
  obtain ⟨inside, within, rest, shape⟩ := Nat.find_spec found
  have least := fun j => Nat.find_min found (m := j)
  generalize Nat.find found = k at inside within shape least
  rcases plain.marked x with self | ⟨mark, code, codeShape, other⟩
  · rw [self, List.length_singleton] at within
    omega
  have outside : x ∉ old := by
    intro member
    rw [plain.plain x (oldLetters x member)] at codeShape
    exact other ((List.cons.inj codeShape).1 ▸ oldLetters x member)
  have markOutside : mark ∉ old := fun member => other (oldLetters mark member)
  have passed : ∀ j < ((encode x).take k).length,
      ¬ old <+: ((encode x).take k).drop j ++ ((encode x).drop k ++ after.flatMap encode) := by
    intro j short isMatch
    rw [List.length_take] at short
    rw [← List.append_assoc, ← List.drop_append_of_le_length (by rw [List.length_take]; omega),
      List.take_append_drop] at isMatch
    rcases Nat.eq_zero_or_pos j with rfl | positive
    · obtain ⟨first, tail, rfl⟩ := List.exists_cons_of_ne_nil nonempty
      rw [List.drop_zero, codeShape] at isMatch
      obtain ⟨rfl, _⟩ := List.cons_prefix_cons.mp isMatch
      exact markOutside (List.mem_cons_self ..)
    · exact least j (by omega) ⟨positive, by omega, isMatch⟩
  refine ⟨before, x, after, k, rest, inside, within, shape.symm, replace_append_mark nonempty outside before after, ?_⟩
  have cut : replace old new _ = _ :=
    replace_append_mark nonempty markOutside (before.flatMap encode) (code ++ after.flatMap encode)
  have single : ∀ other ∈ [mark], other ∉ old := by simpa using markOutside
  have opened : replace old new (mark :: (code ++ after.flatMap encode)) =
      mark :: replace old new (code ++ after.flatMap encode) := replace_marks_append new nonempty single _
  have inner : replace old new (encode x ++ after.flatMap encode) =
      (encode x).take k ++ (new ++ replace old new rest) := by
    have split : replaceFrom old new 0 _ = _ := replaceFrom_append_of_no_match ((encode x).take k) _ passed
    rw [← List.append_assoc, List.take_append_drop] at split
    rw [replace, split, ← shape, ← replace, replace_match_append nonempty]
  rw [List.flatMap_append, List.flatMap_cons, ← inner, codeShape, List.cons_append, cut, opened,
    plain.replace_flatMap nonempty oldLetters newLetters clear]

end Encoding

end Replace
