import Mathlib.Data.Fintype.Basic
import Mathlib.Data.UInt

namespace Base64

/-- The letter of a value below 64. -/
def symbol (n : Nat) : Char :=
  if n < 26 then Char.ofNat (65 + n)
  else if n < 52 then Char.ofNat (71 + n)
  else if n < 62 then Char.ofNat (n - 4)
  else if n = 62 then '+' else '/'

def value? (c : Char) : Option Nat :=
  if 'A' ≤ c ∧ c ≤ 'Z' then some (c.toNat - 65)
  else if 'a' ≤ c ∧ c ≤ 'z' then some (c.toNat - 71)
  else if '0' ≤ c ∧ c ≤ '9' then some (c.toNat + 4)
  else if c = '+' then some 62
  else if c = '/' then some 63
  else none

def encode : List UInt8 → List Char
  | [] => []
  | [a] => [symbol (a.toNat / 4), symbol (a.toNat % 4 * 16), '=', '=']
  | [a, b] => [symbol (a.toNat / 4), symbol (a.toNat % 4 * 16 + b.toNat / 16),
      symbol (b.toNat % 16 * 4), '=']
  | a :: b :: c :: rest =>
    symbol (a.toNat / 4) :: symbol (a.toNat % 4 * 16 + b.toNat / 16) ::
      symbol (b.toNat % 16 * 4 + c.toNat / 64) :: symbol (c.toNat % 64) :: encode rest

/-- The decoder inside a group of four letters: how many it has met, the bits
left over from the last one, and the padding met since. -/
def decodeFrom : Nat → Nat → Nat → List Char → Option (List UInt8)
  | quad, _, _, [] => if quad = 0 then some [] else none
  | quad, left, pads, c :: rest =>
    if c = '=' then
      if 2 ≤ quad then
        if 4 ≤ quad + (pads + 1) then some [] else decodeFrom quad left (pads + 1) rest
      else decodeFrom quad left pads rest
    else
      match value? c with
      | none => decodeFrom quad left pads rest
      | some v =>
        match quad with
        | 0 => decodeFrom 1 v 0 rest
        | 1 => (decodeFrom 2 (v % 16) 0 rest).map (UInt8.ofNat (left * 4 + v / 16) :: ·)
        | 2 => (decodeFrom 3 (v % 4) 0 rest).map (UInt8.ofNat (left * 16 + v / 4) :: ·)
        | _ => (decodeFrom 0 0 0 rest).map (UInt8.ofNat (left * 64 + v) :: ·)

/-- A character outside the alphabet is skipped. -/
def decode (text : List Char) : Option (List UInt8) := decodeFrom 0 0 0 text

theorem value?_symbol {n : Nat} (small : n < 64) : value? (symbol n) = some n := by
  have all : ∀ i : Fin 64, value? (symbol i) = some i.val := by decide
  exact all ⟨n, small⟩

theorem symbol_ne_pad {n : Nat} (small : n < 64) : symbol n ≠ '=' := by
  have all : ∀ i : Fin 64, symbol i ≠ '=' := by decide
  exact all ⟨n, small⟩

theorem symbol_isAlphanum {n : Nat} (small : n < 64) :
    (symbol n).isAlphanum = true ∨ symbol n = '+' ∨ symbol n = '/' := by
  have all : ∀ i : Fin 64, (symbol i).isAlphanum = true ∨ symbol i = '+' ∨ symbol i = '/' := by decide
  exact all ⟨n, small⟩

section Letters

variable {n left pads : Nat} {rest : List Char}

@[simp] theorem decodeFrom_first (small : n < 64) :
    decodeFrom 0 left pads (symbol n :: rest) = decodeFrom 1 n 0 rest := by
  simp [decodeFrom, symbol_ne_pad small, value?_symbol small]

@[simp] theorem decodeFrom_second (small : n < 64) :
    decodeFrom 1 left pads (symbol n :: rest) =
      (decodeFrom 2 (n % 16) 0 rest).map (UInt8.ofNat (left * 4 + n / 16) :: ·) := by
  simp [decodeFrom, symbol_ne_pad small, value?_symbol small]

@[simp] theorem decodeFrom_third (small : n < 64) :
    decodeFrom 2 left pads (symbol n :: rest) =
      (decodeFrom 3 (n % 4) 0 rest).map (UInt8.ofNat (left * 16 + n / 4) :: ·) := by
  simp [decodeFrom, symbol_ne_pad small, value?_symbol small]

@[simp] theorem decodeFrom_fourth (small : n < 64) :
    decodeFrom 3 left pads (symbol n :: rest) =
      (decodeFrom 0 0 0 rest).map (UInt8.ofNat (left * 64 + n) :: ·) := by
  simp [decodeFrom, symbol_ne_pad small, value?_symbol small]

end Letters

theorem byte_eq {a : UInt8} {n : Nat} (same : n = a.toNat) : UInt8.ofNat n = a := by
  rw [same, UInt8.ofNat_toNat]

theorem decode_encode (bytes : List UInt8) : decode (encode bytes) = some bytes := by
  unfold decode
  induction bytes using encode.induct with
  | case1 => rfl
  | case2 a =>
    have ha := a.toNat_lt
    rw [encode, decodeFrom_first (by omega), decodeFrom_second (by omega)]
    have first : UInt8.ofNat (a.toNat / 4 * 4 + a.toNat % 4 * 16 / 16) = a := byte_eq (by omega)
    simp only [decodeFrom, first]
    rfl
  | case3 a b =>
    have ha := a.toNat_lt
    have hb := b.toNat_lt
    rw [encode, decodeFrom_first (by omega), decodeFrom_second (by omega), decodeFrom_third (by omega)]
    have first : UInt8.ofNat (a.toNat / 4 * 4 + (a.toNat % 4 * 16 + b.toNat / 16) / 16) = a :=
      byte_eq (by omega)
    have second : UInt8.ofNat ((a.toNat % 4 * 16 + b.toNat / 16) % 16 * 16 + b.toNat % 16 * 4 / 4) = b :=
      byte_eq (by omega)
    simp only [decodeFrom, first, second]
    rfl
  | case4 a b c rest ih =>
    have ha := a.toNat_lt
    have hb := b.toNat_lt
    have hc := c.toNat_lt
    rw [encode, decodeFrom_first (by omega), decodeFrom_second (by omega), decodeFrom_third (by omega),
      decodeFrom_fourth (by omega), ih]
    have first : UInt8.ofNat (a.toNat / 4 * 4 + (a.toNat % 4 * 16 + b.toNat / 16) / 16) = a :=
      byte_eq (by omega)
    have second : UInt8.ofNat ((a.toNat % 4 * 16 + b.toNat / 16) % 16 * 16 +
        (b.toNat % 16 * 4 + c.toNat / 64) / 4) = b := byte_eq (by omega)
    have third : UInt8.ofNat ((b.toNat % 16 * 4 + c.toNat / 64) % 4 * 64 + c.toNat % 64) = c :=
      byte_eq (by omega)
    rw [first, second, third]
    rfl

/-- The characters a base64 text is made of. -/
def isBase64Char (c : Char) : Bool := c.isAlphanum || c = '+' || c = '/' || c = '='

theorem symbol_isBase64Char {n : Nat} (small : n < 64) : isBase64Char (symbol n) = true := by
  rcases symbol_isAlphanum small with plain | plus | slash
  · simp [isBase64Char, plain]
  · simp [isBase64Char, plus]
  · simp [isBase64Char, slash]

theorem encode_isBase64Char (bytes : List UInt8) : ∀ c ∈ encode bytes, isBase64Char c = true := by
  have pad : isBase64Char '=' = true := rfl
  induction bytes using encode.induct with
  | case1 => simp [encode]
  | case2 a =>
    have ha := a.toNat_lt
    simp only [encode, List.forall_mem_cons, pad, true_and]
    exact ⟨symbol_isBase64Char (by omega), symbol_isBase64Char (by omega), by simp⟩
  | case3 a b =>
    have ha := a.toNat_lt
    have hb := b.toNat_lt
    simp only [encode, List.forall_mem_cons, pad, true_and]
    exact ⟨symbol_isBase64Char (by omega), symbol_isBase64Char (by omega),
      symbol_isBase64Char (by omega), by simp⟩
  | case4 a b c rest ih =>
    have ha := a.toNat_lt
    have hb := b.toNat_lt
    have hc := c.toNat_lt
    simp only [encode, List.forall_mem_cons]
    exact ⟨symbol_isBase64Char (by omega), symbol_isBase64Char (by omega),
      symbol_isBase64Char (by omega), symbol_isBase64Char (by omega), ih⟩

end Base64
