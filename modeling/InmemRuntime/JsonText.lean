import InmemRuntime.Uuid
import InmemRuntime.Lib.Replace

namespace InmemRuntime

/-- `'\\u{0:04x}'` for a code unit. -/
def unicodeEscape (n : Nat) : List Char :=
  ['\\', 'u', hexDigit (n / 4096 % 16), hexDigit (n / 256 % 16), hexDigit (n / 16 % 16), hexDigit (n % 16)]

/-- The UTF-16 code units of a character. -/
def utf16Units (c : Char) : List Nat :=
  if c.toNat < 0x10000 then [c.toNat]
  else [0xd800 + (c.toNat - 0x10000) / 1024, 0xdc00 + (c.toNat - 0x10000) % 1024]

/-- The letter after the backslash, for the characters that have a short escape. -/
def shortEscape? (c : Char) : Option Char :=
  if c = '"' ∨ c = '\\' then some c
  else if c = '\n' then some 'n'
  else if c = '\r' then some 'r'
  else if c = '\t' then some 't'
  else if c = '\x0c' then some 'f'
  else if c = '\x08' then some 'b'
  else none

/-- What `json.dumps` writes for one character: `ensure_ascii` leaves the
printable ASCII characters alone. -/
def escapeChar (c : Char) : List Char :=
  match shortEscape? c with
  | some letter => ['\\', letter]
  | none =>
    if 32 ≤ c.toNat ∧ c.toNat ≤ 126 then [c] else (utf16Units c).flatMap unicodeEscape

/-- The text between the quotes of a string literal. -/
def escapeString (s : String) : List Char := s.toList.flatMap escapeChar

def hexValue? (c : Char) : Option Nat :=
  if '0' ≤ c ∧ c ≤ '9' then some (c.toNat - 48)
  else if 'a' ≤ c ∧ c ≤ 'f' then some (c.toNat - 87)
  else if 'A' ≤ c ∧ c ≤ 'F' then some (c.toNat - 55)
  else none

def unescapeLetter? (c : Char) : Option Nat :=
  if c = '"' ∨ c = '\\' ∨ c = '/' then some c.toNat
  else if c = 'n' then some 10
  else if c = 'r' then some 13
  else if c = 't' then some 9
  else if c = 'f' then some 12
  else if c = 'b' then some 8
  else none

/-- Where the scanner of a literal stands: between characters, after a
backslash, or before the last digits of a `\u` escape. -/
inductive LiteralScan where
  | plain
  | escape
  | hex (more : Nat) (value : Nat)

/-- The code units of a literal; `none` is a `JSONDecodeError`. -/
def codeUnits : LiteralScan → List Char → Option (List Nat)
  | .plain, [] => some []
  | _, [] => none
  | .plain, c :: rest =>
    if c = '\\' then codeUnits .escape rest
    else if c = '"' ∨ c.toNat < 32 then none
    else (codeUnits .plain rest).map (c.toNat :: ·)
  | .escape, c :: rest =>
    if c = 'u' then codeUnits (.hex 3 0) rest
    else (unescapeLetter? c).bind (fun unit => (codeUnits .plain rest).map (unit :: ·))
  | .hex more value, c :: rest =>
    (hexValue? c).bind (fun digit =>
      match more with
      | 0 => (codeUnits .plain rest).map ((value * 16 + digit) :: ·)
      | more + 1 => codeUnits (.hex more (value * 16 + digit)) rest)

def isHighSurrogate (n : Nat) : Bool := 0xd800 ≤ n && n ≤ 0xdbff

def isLowSurrogate (n : Nat) : Bool := 0xdc00 ≤ n && n ≤ 0xdfff

/-- Surrogate pairs become one character. A surrogate without its partner has
no place in a `String`, so it counts as a failure to load. -/
def joinUnits : List Nat → Option (List Char)
  | [] => some []
  | [n] => if isHighSurrogate n || isLowSurrogate n then none else some [Char.ofNat n]
  | n :: m :: rest =>
    if isHighSurrogate n then
      if isLowSurrogate m then
        (joinUnits rest).map (Char.ofNat (0x10000 + (n - 0xd800) * 1024 + (m - 0xdc00)) :: ·)
      else none
    else if isLowSurrogate n then none
    else (joinUnits (m :: rest)).map (Char.ofNat n :: ·)

/-- What `json.loads` reads between the quotes. -/
def unescapeString (body : List Char) : Option String :=
  ((codeUnits .plain body).bind joinUnits).map String.ofList

theorem hexValue?_hexDigit {n : Nat} (small : n < 16) : hexValue? (hexDigit n) = some n := by
  interval_cases n <;> rfl

theorem codeUnits_unicodeEscape {n : Nat} (unit : n < 0x10000) (rest : List Char) :
    codeUnits .plain (unicodeEscape n ++ rest) = (codeUnits .plain rest).map (n :: ·) := by
  have digit : ∀ m, hexValue? (hexDigit (m % 16)) = some (m % 16) :=
    fun m => hexValue?_hexDigit (Nat.mod_lt _ (by decide))
  have value : (((0 * 16 + n / 4096 % 16) * 16 + n / 256 % 16) * 16 + n / 16 % 16) * 16 + n % 16 = n := by
    omega
  simp only [unicodeEscape, List.cons_append, List.nil_append, codeUnits, if_true, digit, Option.bind_some,
    value]

theorem codeUnits_flatMap_unicodeEscape {units : List Nat} (small : ∀ n ∈ units, n < 0x10000)
    (rest : List Char) :
    codeUnits .plain (units.flatMap unicodeEscape ++ rest) = (codeUnits .plain rest).map (units ++ ·) := by
  induction units with
  | nil => simp
  | cons n units ih =>
    obtain ⟨first, later⟩ := List.forall_mem_cons.mp small
    rw [List.flatMap_cons, List.append_assoc, codeUnits_unicodeEscape first, ih later, Option.map_map]
    rfl

theorem char_lt (c : Char) : c.toNat < 0x110000 := by
  have valid := c.valid
  simp only [UInt32.isValidChar, Nat.isValidChar] at valid
  change c.val.toNat < _
  omega

theorem utf16Units_lt (c : Char) : ∀ n ∈ utf16Units c, n < 0x10000 := by
  have bound := char_lt c
  intro n member
  unfold utf16Units at member
  split at member
  · simp only [List.mem_singleton] at member
    omega
  · simp only [List.mem_cons, List.not_mem_nil, or_false] at member
    omega

/-- A character with a short escape is read back from it. -/
theorem shortEscape?_inverse {c letter : Char} (short : shortEscape? c = some letter) :
    letter ≠ 'u' ∧ unescapeLetter? letter = some c.toNat ∧ utf16Units c = [c.toNat] := by
  unfold shortEscape? at short
  split_ifs at short with quoted newline ret tab feed back
  · obtain rfl := Option.some.inj short
    rcases quoted with rfl | rfl <;> decide
  · obtain rfl := Option.some.inj short
    subst newline
    decide
  · obtain rfl := Option.some.inj short
    subst ret
    decide
  · obtain rfl := Option.some.inj short
    subst tab
    decide
  · obtain rfl := Option.some.inj short
    subst feed
    decide
  · obtain rfl := Option.some.inj short
    subst back
    decide

theorem shortEscape?_none {c : Char} (none : shortEscape? c = none) : c ≠ '"' ∧ c ≠ '\\' := by
  unfold shortEscape? at none
  split_ifs at none with quoted
  exact not_or.mp quoted

theorem escapeChar_printable {c : Char} (printable : 32 ≤ c.toNat ∧ c.toNat ≤ 126) (notQuote : c ≠ '"')
    (notBackslash : c ≠ '\\') : escapeChar c = [c] := by
  have other : ∀ d : Char, d.toNat < 32 → c ≠ d := by
    rintro d control rfl
    omega
  have noShort : shortEscape? c = none := by
    simp [shortEscape?, notQuote, notBackslash, other '\n' (by decide), other '\r' (by decide),
      other '\t' (by decide), other '\x0c' (by decide), other '\x08' (by decide)]
  simp [escapeChar, noShort, printable]

theorem codeUnits_escapeChar (c : Char) (rest : List Char) :
    codeUnits .plain (escapeChar c ++ rest) = (codeUnits .plain rest).map (utf16Units c ++ ·) := by
  unfold escapeChar
  cases short : shortEscape? c with
  | some letter =>
    obtain ⟨notUnicode, letterValue, units⟩ := shortEscape?_inverse short
    simp [codeUnits, notUnicode, letterValue, units]
  | none =>
    obtain ⟨notQuote, notBackslash⟩ := shortEscape?_none short
    simp only
    split
    · rename_i printable
      have units : utf16Units c = [c.toNat] := by
        unfold utf16Units
        rw [if_pos (by omega)]
      have notControl : ¬ c.toNat < 32 := by omega
      simp [codeUnits, notQuote, notBackslash, notControl, units]
    · exact codeUnits_flatMap_unicodeEscape (utf16Units_lt c) rest

theorem not_surrogate (c : Char) : isHighSurrogate c.toNat = false ∧ isLowSurrogate c.toNat = false := by
  have valid := c.valid
  simp only [UInt32.isValidChar, Nat.isValidChar] at valid
  change _ ∨ _ at valid
  have value : c.toNat = c.val.toNat := rfl
  constructor
  · simp only [isHighSurrogate, Bool.and_eq_false_iff, decide_eq_false_iff_not]
    omega
  · simp only [isLowSurrogate, Bool.and_eq_false_iff, decide_eq_false_iff_not]
    omega

theorem joinUnits_utf16Units (c : Char) (rest : List Nat) :
    joinUnits (utf16Units c ++ rest) = (joinUnits rest).map (c :: ·) := by
  have bound := char_lt c
  unfold utf16Units
  split
  · obtain ⟨notHigh, notLow⟩ := not_surrogate c
    cases rest with
    | nil => simp [joinUnits, notHigh, notLow]
    | cons m rest => simp [joinUnits, notHigh, notLow]
  · rename_i wide
    have high : isHighSurrogate (0xd800 + (c.toNat - 0x10000) / 1024) = true := by
      simp only [isHighSurrogate, Bool.and_eq_true, decide_eq_true_eq]
      omega
    have low : isLowSurrogate (0xdc00 + (c.toNat - 0x10000) % 1024) = true := by
      simp only [isLowSurrogate, Bool.and_eq_true, decide_eq_true_eq]
      omega
    have value : 0x10000 + (0xd800 + (c.toNat - 0x10000) / 1024 - 0xd800) * 1024 +
        (0xdc00 + (c.toNat - 0x10000) % 1024 - 0xdc00) = c.toNat := by omega
    simp only [List.cons_append, List.nil_append, joinUnits, high, low, if_true, value, Char.ofNat_toNat]

theorem unescape_flatMap (chars : List Char) :
    (codeUnits .plain (chars.flatMap escapeChar)).bind joinUnits = some chars := by
  suffices units : codeUnits .plain (chars.flatMap escapeChar) = some (chars.flatMap utf16Units) by
    rw [units, Option.bind_some]
    clear units
    induction chars with
    | nil => rfl
    | cons c chars ih => rw [List.flatMap_cons, joinUnits_utf16Units, ih, Option.map_some]
  induction chars with
  | nil => rfl
  | cons c chars ih =>
    rw [List.flatMap_cons, codeUnits_escapeChar, ih, Option.map_some, List.flatMap_cons]

@[simp] theorem unescapeString_flatMap (chars : List Char) :
    unescapeString (chars.flatMap escapeChar) = some (String.ofList chars) := by
  rw [unescapeString, unescape_flatMap, Option.map_some]

theorem unescapeString_escapeString (s : String) : unescapeString (escapeString s) = some s := by
  rw [escapeString, unescapeString_flatMap, String.ofList_toList]

end InmemRuntime
