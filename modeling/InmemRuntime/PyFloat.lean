import InmemRuntime.Filters
import InmemRuntime.Lib.FloatFormat
import InmemRuntime.Lib.UnicodeText

namespace InmemRuntime

/-- A `float`: a finite one is its rational value. -/
inductive PyFloat where
  | finite (q : Rat)
  | infinite
  | negInfinite
  | nan
deriving DecidableEq

/-- The doubles that are finite, but for their greatest exponent. -/
def binary64 : FloatFormat := ⟨53, -1074, by decide⟩

/-- `_PyUnicode_TransformDecimalAndSpaceToASCII`, which `int` and `float` read a text through. -/
def asciiDigitsAndSpaces (text : List Char) : List Char :=
  if text.all (fun c => c.toNat < 128) then text
  else text.map (fun c =>
    if c.toNat < 127 then c
    else if UnicodeText.isSpace c then ' '
    else match UnicodeText.decimal? c with
      | some digit => Char.ofNat (48 + digit)
      | none => '?')

/-- `Py_ISSPACE` -/
def isAsciiSpace (c : Char) : Bool := c = ' ' || (9 ≤ c.toNat && c.toNat ≤ 13)

/-- The characters of a text of a number, without the space around them. -/
def numberText (s : String) : List Char :=
  (((asciiDigitsAndSpaces s.toList).dropWhile isAsciiSpace).reverse.dropWhile isAsciiSpace).reverse

namespace PyFloat

/-- `x < 0`, false of a NaN. -/
def isNegative : PyFloat → Bool
  | .finite q => q < 0
  | .negInfinite => true
  | _ => false

/-- The least magnitude that no longer rounds to a finite double. -/
def overflowBound : Rat := 2 ^ 1024 - 2 ^ 970

/-- The double nearest to a number, an infinity for one too large. -/
def ofRat (q : Rat) : PyFloat :=
  if overflowBound ≤ q then .infinite
  else if q ≤ -overflowBound then .negInfinite
  else .finite (binary64.nearest q)

/-- Digits with single underscores between them: their value, their number and what follows. -/
def scanDigits : Nat → Nat → List Char → Nat × Nat × List Char
  | acc, count, '_' :: c :: rest =>
    if 0 < count ∧ c.isDigit then scanDigits (acc * 10 + (c.toNat - 48)) (count + 1) rest
    else (acc, count, '_' :: c :: rest)
  | acc, count, c :: rest =>
    if c.isDigit then scanDigits (acc * 10 + (c.toNat - 48)) (count + 1) rest else (acc, count, c :: rest)
  | acc, count, [] => (acc, count, [])

def scanSign : List Char → Bool × List Char
  | '-' :: rest => (true, rest)
  | '+' :: rest => (false, rest)
  | rest => (false, rest)

/-- `e` and a signed number, up to the end of the text. -/
def scanExponent : List Char → Option Int
  | [] => some 0
  | c :: rest =>
    if c = 'e' ∨ c = 'E' then
      let (negative, digits) := scanSign rest
      match scanDigits 0 0 digits with
      | (value, count, []) => if count = 0 then none else some (if negative then -value else value)
      | _ => none
    else none

/-- Digits, a point and more digits, at least one in all, and an exponent. -/
def scanDecimal (text : List Char) : Option Rat :=
  let (whole, wholeDigits, rest) := scanDigits 0 0 text
  let (fraction, fractionDigits, rest) := match rest with
    | '.' :: rest => scanDigits 0 0 rest
    | rest => (0, 0, rest)
  if wholeDigits + fractionDigits = 0 then none
  else (scanExponent rest).map (fun e =>
    ((whole : Rat) + (fraction : Rat) / 10 ^ fractionDigits) * (10 : Rat) ^ e)

/-- `float(s)` for a string. -/
def ofString (s : String) : Option PyFloat :=
  let (negative, body) := scanSign (numberText s)
  let name := (String.ofList body).toLower
  if name = "inf" ∨ name = "infinity" then some (if negative then .negInfinite else .infinite)
  else if name = "nan" then some .nan
  else (scanDecimal body).map (fun q => ofRat (if negative then -q else q))

/-- A float of the code: a finite one is a double. -/
def IsDouble : PyFloat → Prop
  | .finite q => binary64.Holds q
  | _ => True

theorem ofRat_isDouble (q : Rat) : (ofRat q).IsDouble := by
  unfold ofRat
  split
  · trivial
  · split
    · trivial
    · exact FloatFormat.nearest_holds q

theorem ofString_isDouble {s : String} {x : PyFloat} (read : ofString s = some x) : x.IsDouble := by
  simp only [ofString] at read
  split at read
  · cases read
    split <;> trivial
  · split at read
    · cases read
      trivial
    · obtain ⟨q, _, rfl⟩ := Option.map_eq_some_iff.mp read
      exact ofRat_isDouble _

end PyFloat

/-- `float(value)`, with the two errors that the caller turns into a 422 as `none`. -/
def pyFloat? : PyVal → Except PyError (Option PyFloat)
  | .bool b => .ok (some (.finite (if b then 1 else 0)))
  | .int n =>
    if PyFloat.overflowBound ≤ |(n : Rat)| then .error .overflowError
    else .ok (some (.finite (binary64.nearest n)))
  | .float q => .ok (some (.finite q))
  | .str s => .ok (PyFloat.ofString s)
  | _ => .ok none

/-- An integer that a double can hold is read as itself. -/
theorem pyFloat?_int_of_holds {n : Int} (small : |(n : Rat)| < PyFloat.overflowBound) (holds : binary64.Holds n) :
    pyFloat? (.int n) = .ok (some (.finite n)) := by
  rw [pyFloat?, if_neg (not_le.mpr small), FloatFormat.nearest_of_holds holds]

theorem pyFloat?_isDouble {value : PyVal} {x : PyFloat} (double : ∀ q, value = .float q → binary64.Holds q)
    (read : pyFloat? value = .ok (some x)) : x.IsDouble := by
  cases value with
  | bool b =>
    cases read
    exact ⟨if b then 1 else 0, 0, by cases b <;> decide, by decide, by cases b <;> simp⟩
  | int n =>
    simp only [pyFloat?] at read
    split at read
    · cases read
    · cases read
      exact FloatFormat.nearest_holds _
  | float q =>
    cases read
    exact double q rfl
  | str s => exact PyFloat.ofString_isDouble (Except.ok.inj read)
  | _ => cases read

end InmemRuntime
