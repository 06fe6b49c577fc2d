import Mathlib.Data.List.Nodup
import Mathlib.Data.BitVec
import Mathlib.Data.String.Basic
import Mathlib.Tactic.IntervalCases

namespace InmemRuntime

/-- A `uuid.UUID`: 128 bits. -/
structure Uuid where
  bits : BitVec 128
deriving DecidableEq, Inhabited

def hexDigit (n : Nat) : Char := if n < 10 then Char.ofNat (48 + n) else Char.ofNat (87 + n)

namespace Uuid

/-- The `i`-th of the 32 hexadecimal digits, from the left. -/
def digit (u : Uuid) (i : Nat) : Nat := u.bits.toNat / 16 ^ (31 - i) % 16

def hex (u : Uuid) (start len : Nat) : List Char :=
  (List.range len).map (fun i => hexDigit (u.digit (start + i)))

/-- The canonical text, in groups of 8, 4, 4, 4 and 12 digits. -/
def chars (u : Uuid) : List Char :=
  u.hex 0 8 ++ '-' :: (u.hex 8 4 ++ '-' :: (u.hex 12 4 ++ '-' :: (u.hex 16 4 ++ '-' :: u.hex 20 12)))

/-- `str(u)` -/
def str (u : Uuid) : String := String.ofList u.chars

end Uuid

/-- The characters a canonical UUID text is made of. -/
def isUuidChar (c : Char) : Bool := c = '-' || c.isDigit || ('a' ≤ c && c ≤ 'f')

theorem hexDigit_isUuidChar {n : Nat} (small : n < 16) : isUuidChar (hexDigit n) = true := by
  interval_cases n <;> decide

theorem hexDigit_injective {m n : Nat} (hm : m < 16) (hn : n < 16)
    (same : hexDigit m = hexDigit n) : m = n := by
  interval_cases m <;> interval_cases n <;> first | rfl | exact absurd same (by decide)

theorem hexDigit_lt {m n : Nat} (less : m < n) (small : n < 16) : hexDigit m < hexDigit n := by
  have all : ∀ n < 16, ∀ m < n, hexDigit m < hexDigit n := by decide
  exact all n small m less

namespace Uuid

theorem digit_lt (u : Uuid) (i : Nat) : u.digit i < 16 := Nat.mod_lt _ (by decide)

@[simp] theorem hex_length (u : Uuid) (start len : Nat) : (u.hex start len).length = len := by
  simp [hex]

theorem chars_length (u : Uuid) : u.chars.length = 36 := by
  simp [chars]

theorem hex_isUuidChar {u : Uuid} {start len : Nat} {c : Char} (member : c ∈ u.hex start len) :
    isUuidChar c = true := by
  obtain ⟨i, _, rfl⟩ := List.mem_map.mp member
  exact hexDigit_isUuidChar (u.digit_lt _)

theorem chars_isUuidChar {u : Uuid} {c : Char} (member : c ∈ u.chars) : isUuidChar c = true := by
  simp only [chars, List.mem_append, List.mem_cons] at member
  rcases member with h | rfl | h | rfl | h | rfl | h | rfl | h
  all_goals first | rfl | exact hex_isUuidChar h

theorem hex_digit_eq {u v : Uuid} {start len : Nat} (same : u.hex start len = v.hex start len)
    {i : Nat} (within : i < len) : u.digit (start + i) = v.digit (start + i) := by
  have at_i := congrArg (fun l => l[i]?) same
  simp only [hex, List.getElem?_map, List.getElem?_range within, Option.map_some,
    Option.some.injEq] at at_i
  exact hexDigit_injective (u.digit_lt _) (v.digit_lt _) at_i

/-- A number below `16 ^ d` is determined by its `d` hexadecimal digits. -/
theorem eq_of_digits_eq (d : Nat) : ∀ m n : Nat, m < 16 ^ d → n < 16 ^ d →
    (∀ k < d, m / 16 ^ k % 16 = n / 16 ^ k % 16) → m = n := by
  induction d with
  | zero => intro m n hm hn _; omega
  | succ d ih =>
    intro m n hm hn digits
    have low := digits 0 (Nat.succ_pos d)
    have high : m / 16 = n / 16 := by
      refine ih _ _ (by omega) (by omega) (fun k hk => ?_)
      have next := digits (k + 1) (by omega)
      simpa only [Nat.pow_succ', Nat.div_div_eq_div_mul] using next
    simp only [Nat.pow_zero, Nat.div_one] at low
    omega

theorem chars_injective {u v : Uuid} (same : u.chars = v.chars) : u = v := by
  simp only [chars] at same
  obtain ⟨first, same⟩ := List.append_inj same (by simp)
  obtain ⟨second, same⟩ := List.append_inj (List.cons.inj same).2 (by simp)
  obtain ⟨third, same⟩ := List.append_inj (List.cons.inj same).2 (by simp)
  obtain ⟨fourth, same⟩ := List.append_inj (List.cons.inj same).2 (by simp)
  have last := (List.cons.inj same).2
  have digits : ∀ i < 32, u.digit i = v.digit i := by
    intro i hi
    rcases lt_or_ge i 8 with h | h
    · simpa using hex_digit_eq first (i := i) h
    rcases lt_or_ge i 12 with h' | h'
    · simpa [show 8 + (i - 8) = i by omega] using hex_digit_eq second (i := i - 8) (by omega)
    rcases lt_or_ge i 16 with h'' | h''
    · simpa [show 12 + (i - 12) = i by omega] using hex_digit_eq third (i := i - 12) (by omega)
    rcases lt_or_ge i 20 with h₃ | h₃
    · simpa [show 16 + (i - 16) = i by omega] using hex_digit_eq fourth (i := i - 16) (by omega)
    · simpa [show 20 + (i - 20) = i by omega] using hex_digit_eq last (i := i - 20) (by omega)
  have value : u.bits.toNat = v.bits.toNat := by
    refine eq_of_digits_eq 32 _ _ ?_ ?_ (fun k hk => ?_)
    · exact lt_of_lt_of_le u.bits.isLt (by decide)
    · exact lt_of_lt_of_le v.bits.isLt (by decide)
    · simpa only [digit, show 31 - (31 - k) = k by omega] using digits (31 - k) (by omega)
  cases u
  cases v
  exact congrArg Uuid.mk (BitVec.eq_of_toNat_eq value)

@[simp] theorem str_toList (u : Uuid) : u.str.toList = u.chars := String.toList_ofList

/-- Two UUIDs are equal exactly when their texts are: the store compares
thread ids in both forms. -/
theorem str_inj {u v : Uuid} : u.str = v.str ↔ u = v := by
  constructor
  · intro same
    exact chars_injective (by rw [← str_toList, ← str_toList, same])
  · rintro rfl
    rfl

/-- Of two numbers the lesser has the lesser digit where they first differ. -/
theorem first_digit_lt (d : Nat) : ∀ m n : Nat, m < n → n < 16 ^ d →
    ∃ k < d, m / 16 ^ k % 16 < n / 16 ^ k % 16 ∧ ∀ j < d, k < j → m / 16 ^ j % 16 = n / 16 ^ j % 16 := by
  induction d with
  | zero => intro m n less bound; omega
  | succ d ih =>
    intro m n less bound
    have shift : ∀ x k : Nat, x / 16 ^ (k + 1) % 16 = x / 16 / 16 ^ k % 16 := fun x k => by
      rw [Nat.pow_succ', Nat.div_div_eq_div_mul]
    by_cases high : m / 16 = n / 16
    · refine ⟨0, d.succ_pos, ?_, fun j inside after => ?_⟩
      · simp only [Nat.pow_zero, Nat.div_one]
        omega
      · obtain ⟨k, rfl⟩ := Nat.exists_eq_succ_of_ne_zero after.ne'
        rw [shift, shift, high]
    · obtain ⟨k, inside, differs, same⟩ := ih (m / 16) (n / 16) (by omega) (by omega)
      refine ⟨k + 1, by omega, by rwa [shift, shift], fun j within after => ?_⟩
      obtain ⟨l, rfl⟩ := Nat.exists_eq_succ_of_ne_zero (Nat.ne_of_gt (Nat.zero_lt_of_lt after))
      rw [shift, shift]
      exact same l (by omega) (by omega)

/-- The digit that stands at a place of the text, but for the dashes. -/
def place (p : Nat) : Option Nat :=
  if p < 8 then some p
  else if p = 8 then none
  else if p < 13 then some (p - 1)
  else if p = 13 then none
  else if p < 18 then some (p - 2)
  else if p = 18 then none
  else if p < 23 then some (p - 3)
  else if p = 23 then none
  else some (p - 4)

theorem chars_eq (u : Uuid) : u.chars = (List.range 36).map (fun p => (place p).elim '-' (fun i => hexDigit (u.digit i))) :=
  rfl

theorem exists_place : ∀ i < 32, ∃ p < 36, place p = some i ∧ ∀ j < p, ∀ k, place j = some k → k < i := by
  decide

theorem str_lt {u v : Uuid} (less : u.bits.toNat < v.bits.toNat) : u.str < v.str := by
  obtain ⟨k, inside, differs, same⟩ := first_digit_lt 32 u.bits.toNat v.bits.toNat less
    (lt_of_lt_of_le v.bits.isLt (by decide))
  obtain ⟨p, within, at_p, before⟩ := exists_place (31 - k) (by omega)
  have other : ∀ w : Uuid, w.chars[p]? = some (hexDigit (w.digit (31 - k))) := fun w => by
    rw [chars_eq, List.getElem?_map, List.getElem?_range within, Option.map_some, at_p, Option.elim_some]
  have earlier : ∀ j < p, u.chars[j]? = v.chars[j]? := by
    intro j less
    rw [chars_eq, chars_eq, List.getElem?_map, List.getElem?_map, List.getElem?_range (less.trans within), Option.map_some,
      Option.map_some]
    cases at_j : place j with
    | none => rfl
    | some i =>
      have smaller := before j less i at_j
      rw [Option.elim_some, Option.elim_some, digit, digit, same (31 - i) (by omega) (by omega)]
  rw [String.lt_iff_toList_lt, str_toList, str_toList, List.lt_iff_exists]
  refine .inr ⟨p, by rw [chars_length]; exact within, by rw [chars_length]; exact within, fun j less => ?_, ?_⟩
  · exact Option.some.inj (by rw [← List.getElem?_eq_getElem, ← List.getElem?_eq_getElem, earlier j less])
  · have here : 31 - (31 - k) = k := by omega
    have lesser : hexDigit (u.digit (31 - k)) < hexDigit (v.digit (31 - k)) := by
      rw [digit, digit, here]
      exact hexDigit_lt differs (Nat.mod_lt _ (by decide))
    rw [(List.getElem?_eq_some_iff.mp (other u)).2, (List.getElem?_eq_some_iff.mp (other v)).2]
    exact lesser

/-- The texts are in the order of the ids. -/
theorem str_le_iff {u v : Uuid} : u.str ≤ v.str ↔ u.bits.toNat ≤ v.bits.toNat := by
  rcases lt_trichotomy u.bits.toNat v.bits.toNat with less | same | more
  · exact iff_of_true (str_lt less).le less.le
  · have equal : u = v := congrArg Uuid.mk (BitVec.eq_of_toNat_eq same)
    exact iff_of_true (equal ▸ le_rfl) same.le
  · exact iff_of_false (not_le.mpr (str_lt more)) (not_le.mpr more)

example : (Uuid.mk 0x00e9abcd12344321800000000000000f).str
    = "00e9abcd-1234-4321-8000-00000000000f" := by decide

end Uuid

end InmemRuntime
