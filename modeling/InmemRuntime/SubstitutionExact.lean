import InmemRuntime.SaverRuns

namespace InmemRuntime

namespace Uuid

/-- Hyphens stand at four places of the text, and digits at all others. -/
theorem chars_hyphen_iff (u : Uuid) {i : Nat} (within : i < 36) :
    u.chars[i]? = some '-' ↔ i = 8 ∨ i = 13 ∨ i = 18 ∨ i = 23 := by
  have digits : ∀ m, ¬ hexDigit (u.digit m) = '-' := by
    intro m same
    have small := u.digit_lt m
    interval_cases u.digit m <;> exact absurd same (by decide)
  by_cases hyphen : i = 8 ∨ i = 13 ∨ i = 18 ∨ i = 23
  · rcases hyphen with rfl | rfl | rfl | rfl <;> simp [chars, hex, List.range_succ]
  · refine iff_of_false ?_ hyphen
    have digit : ∃ m, u.chars[i]? = some (hexDigit (u.digit m)) := by
      interval_cases i <;> first | exact ⟨_, rfl⟩ | omega
    obtain ⟨m, atDigit⟩ := digit
    rw [atDigit, Option.some.injEq]
    exact digits m

/-- An id overlaps itself in eight characters at most. -/
theorem overlap_short (u : Uuid) {d : Nat} (positive : 0 < d) (overlaps : u.chars.drop d <+: u.chars)
    (within : d < 36) : 28 ≤ d := by
  have shifted : ∀ i, d + i < 36 → (i = 8 ∨ i = 13 ∨ i = 18 ∨ i = 23) →
      d + i = 8 ∨ d + i = 13 ∨ d + i = 18 ∨ d + i = 23 := by
    intro i inside hyphen
    refine (u.chars_hyphen_iff inside).mp ?_
    obtain ⟨rest, shape⟩ := overlaps
    have same : (u.chars.drop d)[i]? = u.chars[i]? := by
      conv_rhs => rw [← shape]
      rw [List.getElem?_append_left (by rw [List.length_drop, chars_length]; omega)]
    rw [← List.getElem?_drop, same]
    exact (u.chars_hyphen_iff (by omega)).mpr hyphen
  by_contra long
  have first := shifted 8 (by omega) (by omega)
  have third := shifted 18
  have fourth := shifted 23
  omega

/-- The first characters are hexadecimal digits. -/
theorem chars_take_hex (u : Uuid) {j : Nat} (short : j ≤ 8) : ∀ c ∈ u.chars.take j, ∃ n < 16, c = hexDigit n := by
  intro c member
  have start : u.chars.take j = (u.hex 0 8).take j := by
    rw [chars, List.take_append_of_le_length (by rw [hex_length]; exact short)]
  rw [start] at member
  obtain ⟨i, _, rfl⟩ := List.mem_map.mp (List.mem_of_mem_take member)
  exact ⟨_, u.digit_lt _, rfl⟩

end Uuid

/-- The characters that a literal's text is read as. -/
def unescapeChars (body : List Char) : Option (List Char) := (codeUnits .plain body).bind joinUnits

section Read

theorem codeUnits_flatMap_append (chars rest : List Char) :
    codeUnits .plain (chars.flatMap escapeChar ++ rest) =
      (codeUnits .plain rest).map (chars.flatMap utf16Units ++ ·) := by
  induction chars with
  | nil => simp
  | cons c chars ih =>
    rw [List.flatMap_cons, List.append_assoc, codeUnits_escapeChar, ih, Option.map_map, List.flatMap_cons]
    congr 1
    funext units
    simp

theorem joinUnits_flatMap_append (chars : List Char) (rest : List Nat) :
    joinUnits (chars.flatMap utf16Units ++ rest) = (joinUnits rest).map (chars ++ ·) := by
  induction chars with
  | nil => simp
  | cons c chars ih =>
    rw [List.flatMap_cons, List.append_assoc, joinUnits_utf16Units, ih, Option.map_map]
    rfl

/-- Escaped characters are read as themselves, before any rest. -/
theorem unescapeChars_append (chars rest : List Char) :
    unescapeChars (chars.flatMap escapeChar ++ rest) = (unescapeChars rest).map (chars ++ ·) := by
  rw [unescapeChars, unescapeChars, codeUnits_flatMap_append]
  cases codeUnits .plain rest with
  | none => rfl
  | some units => exact joinUnits_flatMap_append chars units

theorem toNat_ofNat {n : Nat} (valid : n.isValidChar) : (Char.ofNat n).toNat = n := by
  rw [Char.ofNat, dif_pos valid]
  rfl

/-- A code unit that is read as the beginning of a narrow character is that character. -/
theorem joinUnits_narrow {n : Nat} {units : List Nat} {x : Char} {rest : List Char} (unit : n < 0x10000)
    (narrow : x.toNat < 0x10000) (read : joinUnits (n :: units) = some (x :: rest)) :
    n = x.toNat ∧ joinUnits units = some rest := by
  have lone : isHighSurrogate n = false → isLowSurrogate n = false → (Char.ofNat n).toNat = n := by
    intro notHigh notLow
    refine toNat_ofNat ?_
    simp only [isHighSurrogate, isLowSurrogate, Bool.and_eq_false_iff, decide_eq_false_iff_not] at notHigh notLow
    unfold Nat.isValidChar
    omega
  cases units with
  | nil =>
    rw [joinUnits] at read
    split at read
    · cases read
    · rename_i plain
      simp only [Bool.or_eq_true, not_or, Bool.not_eq_true] at plain
      cases Option.some.inj read
      exact ⟨(lone plain.1 plain.2).symm, rfl⟩
  | cons m units =>
    rw [joinUnits] at read
    split at read
    · rename_i high
      split at read
      · rename_i low
        obtain ⟨_, _, same⟩ := Option.map_eq_some_iff.mp read
        obtain ⟨rfl, rfl⟩ := List.cons.inj same
        simp only [isHighSurrogate, isLowSurrogate, Bool.and_eq_true, decide_eq_true_eq] at high low
        rw [toNat_ofNat (by unfold Nat.isValidChar; omega)] at narrow
        omega
      · cases read
    · rename_i notHigh
      split at read
      · cases read
      · rename_i notLow
        obtain ⟨others, joined, same⟩ := Option.map_eq_some_iff.mp read
        cases same
        exact ⟨(lone (by simpa using notHigh) (by simpa using notLow)).symm, joined⟩

/-- The second unit of a wide character is determined by the character. -/
theorem joinUnits_wide {high n : Nat} {units : List Nat} {x : Char} {rest : List Char}
    (isHigh : isHighSurrogate high = true) (read : joinUnits (high :: n :: units) = some (x :: rest)) :
    x.toNat = 0x10000 + (high - 0xd800) * 1024 + (n - 0xdc00) ∧ isLowSurrogate n = true ∧
      joinUnits units = some rest := by
  rw [joinUnits, if_pos isHigh] at read
  split at read
  · rename_i low
    obtain ⟨others, joined, same⟩ := Option.map_eq_some_iff.mp read
    obtain ⟨rfl, rfl⟩ := List.cons.inj same
    refine ⟨toNat_ofNat ?_, low, joined⟩
    simp only [isHighSurrogate, isLowSurrogate, Bool.and_eq_true, decide_eq_true_eq] at isHigh low
    unfold Nat.isValidChar
    omega
  · cases read

/-- Any four hexadecimal digits are those of a code unit. -/
theorem unicodeEscape_of_digits {digits : List Char} (four : digits.length = 4)
    (hex : ∀ c ∈ digits, ∃ n < 16, c = hexDigit n) : ∃ n < 0x10000, '\\' :: 'u' :: digits = unicodeEscape n := by
  obtain ⟨a, b, c, d, rfl⟩ : ∃ a b c d, digits = [a, b, c, d] := by
    match digits, four with
    | [a, b, c, d], _ => exact ⟨a, b, c, d, rfl⟩
  obtain ⟨a, smallA, rfl⟩ := hex a (by simp)
  obtain ⟨b, smallB, rfl⟩ := hex b (by simp)
  obtain ⟨c, smallC, rfl⟩ := hex c (by simp)
  obtain ⟨d, smallD, rfl⟩ := hex d (by simp)
  refine ⟨((a * 16 + b) * 16 + c) * 16 + d, by omega, ?_⟩
  have parts : ((((a * 16 + b) * 16 + c) * 16 + d) / 4096 % 16 = a) ∧
      ((((a * 16 + b) * 16 + c) * 16 + d) / 256 % 16 = b) ∧
      ((((a * 16 + b) * 16 + c) * 16 + d) / 16 % 16 = c) ∧ ((((a * 16 + b) * 16 + c) * 16 + d) % 16 = d) := by
    omega
  obtain ⟨first, second, third, fourth⟩ := parts
  rw [unicodeEscape, first, second, third, fourth]

end Read

section Cut

/-- How `json.dumps` writes a character. -/
theorem escapeChar_cases (c : Char) :
    escapeChar c = [c] ∨ (∃ letter, shortEscape? c = some letter ∧ escapeChar c = ['\\', letter]) ∨
      (c.toNat < 0x10000 ∧ escapeChar c = unicodeEscape c.toNat) ∨
      (0x10000 ≤ c.toNat ∧ escapeChar c = unicodeEscape (0xd800 + (c.toNat - 0x10000) / 1024) ++
        unicodeEscape (0xdc00 + (c.toNat - 0x10000) % 1024)) := by
  unfold escapeChar
  cases short : shortEscape? c with
  | some letter => exact .inr (.inl ⟨letter, rfl, rfl⟩)
  | none =>
    by_cases printable : 32 ≤ c.toNat ∧ c.toNat ≤ 126
    · exact .inl (if_pos printable)
    · simp only [if_neg printable]
      by_cases narrow : c.toNat < 0x10000
      · exact .inr (.inr (.inl ⟨narrow, by simp [utf16Units, narrow]⟩))
      · exact .inr (.inr (.inr ⟨by omega, by simp [utf16Units, narrow]⟩))

/-- What is cut off behind the last character that no id has. -/
theorem cut_after {code : List Char} {k i : Nat} (tail : ∀ c ∈ code.drop k, isUuidChar c = true) {c : Char}
    (atIndex : code[i]? = some c) (outside : isUuidChar c = false) : i < k := by
  by_contra before
  have inside : (code.drop k)[i - k]? = some c := by
    rw [List.getElem?_drop, Nat.add_sub_cancel' (Nat.le_of_not_lt before), atIndex]
  rw [tail c (List.mem_of_getElem? inside)] at outside
  cases outside

/-- At most four digits of an escape can belong to an id. -/
theorem escapeChar_tail_short {x : Char} {k : Nat} (inside : 0 < k)
    (tail : ∀ c ∈ (escapeChar x).drop k, isUuidChar c = true) : ((escapeChar x).drop k).length ≤ 4 := by
  rw [List.length_drop]
  rcases escapeChar_cases x with plain | ⟨letter, _, short⟩ | ⟨_, narrow⟩ | ⟨_, wide⟩
  · rw [plain, List.length_singleton]
    omega
  · rw [short, List.length_cons, List.length_singleton]
    omega
  · rw [narrow] at tail ⊢
    have behind : 1 < k := cut_after tail (c := 'u') rfl rfl
    simp only [unicodeEscape, List.length_cons, List.length_nil]
    omega
  · rw [wide] at tail ⊢
    have behind : 7 < k := cut_after tail (c := 'u') rfl rfl
    simp only [unicodeEscape, List.length_append, List.length_cons, List.length_nil]
    omega

/-- An escape whose last digits are exchanged is an escape. -/
theorem unicodeEscape_exchange {n k : Nat} {digits : List Char} (from_digits : 2 ≤ k)
    (length : digits.length = ((unicodeEscape n).drop k).length) (upTo : k ≤ 6)
    (hex : ∀ c ∈ digits, ∃ m < 16, c = hexDigit m) :
    ∃ m < 0x10000, (unicodeEscape n).take k ++ digits = unicodeEscape m := by
  obtain ⟨k, rfl⟩ := Nat.exists_eq_add_of_le' from_digits
  have shape : (unicodeEscape n).take (k + 2) ++ digits =
      '\\' :: 'u' :: (((unicodeEscape n).drop 2).take k ++ digits) := rfl
  rw [shape]
  refine unicodeEscape_of_digits ?_ ?_
  · rw [List.length_append, List.length_take, length, List.length_drop, List.length_drop]
    simp only [unicodeEscape, List.length_cons, List.length_nil]
    omega
  · intro c member
    rcases List.mem_append.mp member with kept | changed
    · have digit : ∀ c ∈ (unicodeEscape n).drop 2, ∃ m < 16, c = hexDigit m := by
        simp only [unicodeEscape, List.drop_succ_cons, List.drop_zero, List.forall_mem_cons]
        exact ⟨⟨_, Nat.mod_lt _ (by decide), rfl⟩, ⟨_, Nat.mod_lt _ (by decide), rfl⟩,
          ⟨_, Nat.mod_lt _ (by decide), rfl⟩, ⟨_, Nat.mod_lt _ (by decide), rfl⟩, by simp⟩
      exact digit c (List.mem_of_mem_take kept)
    · exact hex c changed

theorem unescapeChars_unicodeEscape {n : Nat} (unit : n < 0x10000) (rest : List Char) :
    unescapeChars (unicodeEscape n ++ rest) = (codeUnits .plain rest).bind (fun units => joinUnits (n :: units)) := by
  rw [unescapeChars, codeUnits_unicodeEscape unit]
  cases codeUnits .plain rest <;> rfl

/-- The letters of two short escapes are letters of ids. -/
theorem shortEscape?_uuidChar {x letter : Char} (short : shortEscape? x = some letter)
    (isLetter : isUuidChar letter = true) : x = '\x0c' ∧ letter = 'f' ∨ x = '\x08' ∧ letter = 'b' := by
  unfold shortEscape? at short
  split_ifs at short with quoted newline ret tab feed back
  all_goals cases Option.some.inj short
  · rcases quoted with rfl | rfl <;> cases isLetter
  · cases isLetter
  · cases isLetter
  · cases isLetter
  · exact .inl ⟨feed, rfl⟩
  · exact .inr ⟨back, rfl⟩

/-- A digit behind a backslash that is read as one of these two characters is its letter. -/
theorem unescapeChars_short {n : Nat} (small : n < 16) {x letter : Char} {text rest : List Char}
    (short : x = '\x0c' ∧ letter = 'f' ∨ x = '\x08' ∧ letter = 'b')
    (read : unescapeChars ('\\' :: hexDigit n :: text) = some (x :: rest)) :
    hexDigit n = letter ∧ unescapeChars text = some rest := by
  have letterOf : hexDigit n ≠ 'u' := by
    interval_cases n <;> decide
  rw [unescapeChars, codeUnits, if_pos rfl, codeUnits, if_neg letterOf] at read
  obtain ⟨units, scanned, joined⟩ := Option.bind_eq_some_iff.mp read
  obtain ⟨unit, isUnit, behind⟩ := Option.bind_eq_some_iff.mp scanned
  obtain ⟨others, later, rfl⟩ := Option.map_eq_some_iff.mp behind
  have known : unit = 12 ∧ hexDigit n = 'f' ∨ unit = 8 ∧ hexDigit n = 'b' := by
    interval_cases n <;> first | cases isUnit; decide | cases isUnit
  have bound : unit < 0x10000 := by omega
  have narrow : x.toNat < 0x10000 := by
    rcases short with ⟨rfl, _⟩ | ⟨rfl, _⟩ <;> decide
  obtain ⟨same, joined⟩ := joinUnits_narrow bound narrow joined
  refine ⟨?_, by rw [unescapeChars, later, Option.bind_some, joined]⟩
  rcases short with ⟨rfl, rfl⟩ | ⟨rfl, rfl⟩ <;> rcases known with ⟨rfl, digit⟩ | ⟨rfl, digit⟩
  · exact digit
  · cases same
  · cases same
  · exact digit

/-- An escape whose last digits are exchanged is read as its character only if
they are the same digits. -/
theorem escapeChar_exchange {x : Char} {k : Nat} {digits text rest : List Char} (inside : 0 < k)
    (within : k < (escapeChar x).length) (tail : ∀ c ∈ (escapeChar x).drop k, isUuidChar c = true)
    (length : digits.length = ((escapeChar x).drop k).length) (hex : ∀ c ∈ digits, ∃ n < 16, c = hexDigit n)
    (read : unescapeChars ((escapeChar x).take k ++ digits ++ text) = some (x :: rest)) :
    digits = (escapeChar x).drop k ∧ unescapeChars text = some rest := by
  rcases escapeChar_cases x with plain | ⟨letter, short, shape⟩ | ⟨narrow, shape⟩ | ⟨wide, shape⟩
  · rw [plain, List.length_singleton] at within
    omega
  · rw [shape] at within tail length read ⊢
    obtain rfl : k = 1 := by
      simp only [List.length_cons, List.length_nil] at within
      omega
    obtain ⟨digit, rfl⟩ := List.length_eq_one_iff.mp length
    obtain ⟨n, small, rfl⟩ := hex digit (List.mem_singleton_self _)
    have isLetter : isUuidChar letter = true := tail letter (List.mem_singleton_self _)
    obtain ⟨same, later⟩ := unescapeChars_short small (shortEscape?_uuidChar short isLetter) read
    exact ⟨congrArg (fun c => [c]) same, later⟩
  · rw [shape] at within tail length read ⊢
    have behind : 1 < k := cut_after tail (c := 'u') rfl rfl
    obtain ⟨n, unit, exchanged⟩ := unicodeEscape_exchange behind length (Nat.le_of_lt within) hex
    rw [exchanged, unescapeChars_unicodeEscape unit] at read
    obtain ⟨units, scanned, joined⟩ := Option.bind_eq_some_iff.mp read
    obtain ⟨rfl, after⟩ := joinUnits_narrow unit narrow joined
    refine ⟨List.append_cancel_left (exchanged.trans (List.take_append_drop k _).symm), ?_⟩
    rw [unescapeChars, scanned, Option.bind_some, after]
  · rw [shape] at within tail length read ⊢
    generalize highUnit : 0xd800 + (x.toNat - 0x10000) / 1024 = high at *
    generalize lowUnit : 0xdc00 + (x.toNat - 0x10000) % 1024 = low at *
    have behind : 7 < k := cut_after tail (c := 'u') rfl rfl
    have first : (unicodeEscape high).length = 6 := rfl
    have bound := char_lt x
    rw [List.drop_append, List.drop_of_length_le (by omega), List.nil_append, first] at length ⊢
    rw [List.take_append, List.take_of_length_le (by omega), first, List.append_assoc, List.append_assoc,
      ← List.append_assoc (List.take _ _)] at read
    rw [List.length_append, first] at within
    have upTo : k - 6 ≤ 6 := by
      have second : (unicodeEscape low).length = 6 := rfl
      omega
    obtain ⟨n, unit, exchanged⟩ := unicodeEscape_exchange (by omega) length upTo hex
    have firstUnit : high < 0x10000 := by omega
    rw [exchanged, unescapeChars_unicodeEscape firstUnit, codeUnits_unicodeEscape unit] at read
    obtain ⟨units, scanned, joined⟩ := Option.bind_eq_some_iff.mp read
    obtain ⟨others, later, rfl⟩ := Option.map_eq_some_iff.mp scanned
    have isHigh : isHighSurrogate high = true := by
      simp only [isHighSurrogate, Bool.and_eq_true, decide_eq_true_eq]
      omega
    obtain ⟨value, isLow, after⟩ := joinUnits_wide isHigh joined
    simp only [isLowSurrogate, Bool.and_eq_true, decide_eq_true_eq] at isLow
    obtain rfl : n = low := by omega
    refine ⟨List.append_cancel_left (exchanged.trans (List.take_append_drop (k - 6) _).symm), ?_⟩
    rw [unescapeChars, later, Option.bind_some, after]

end Cut

section Straddling

variable {new old : Uuid}

theorem eq_of_take_of_drop {d : Nat} (front : new.chars.take d = old.chars.take d)
    (back : new.chars.drop d = old.chars.drop d) : new = old :=
  Uuid.chars_injective (by rw [← List.take_append_drop d new.chars, front, back, List.take_append_drop])

/-- Where the end of an id is left in place for the end of another one that
begins alike, the two are the same: a whole match inside could only begin so late
that it overlaps the id in what the two have in common. -/
theorem eq_of_replaced_tail {j : Nat} (inside : 0 < j) (short : j ≤ 4) (front : new.chars.take j = old.chars.take j)
    {rest left : List Char}
    (same : Replace.replace old.chars new.chars (old.chars.drop j ++ rest) = new.chars.drop j ++ left) : new = old := by
  have lengths : (new.chars.drop j).length = (old.chars.drop j).length := by
    rw [List.length_drop, List.length_drop, new.chars_length, old.chars_length]
  by_cases clear : ∀ p < (old.chars.drop j).length, ¬ old.chars <+: (old.chars.drop j).drop p ++ rest
  · rw [Replace.replace, Replace.replaceFrom_append_of_no_match _ _ clear] at same
    exact eq_of_take_of_drop front (List.append_inj same lengths.symm).1.symm
  · simp only [not_forall, not_not] at clear
    have found : ∃ p, p < (old.chars.drop j).length ∧ old.chars <+: (old.chars.drop j).drop p ++ rest := by
      obtain ⟨p, within, isMatch⟩ := clear
      exact ⟨p, within, isMatch⟩
    obtain ⟨within, later, isMatch⟩ := Nat.find_spec found
    have least := fun q => Nat.find_min found (m := q)
    generalize Nat.find found = p at within isMatch least
    rw [List.length_drop, old.chars_length] at within
    have passed : ∀ q < ((old.chars.drop j).take p).length,
        ¬ old.chars <+: ((old.chars.drop j).take p).drop q ++ ((old.chars.drop j).drop p ++ rest) := by
      intro q before isMatch
      rw [List.length_take, List.length_drop, old.chars_length] at before
      rw [← List.append_assoc, ← List.drop_append_of_le_length (by
        rw [List.length_take, List.length_drop, old.chars_length]; omega), List.take_append_drop] at isMatch
      exact least q (by omega) ⟨by rw [List.length_drop, old.chars_length]; omega, isMatch⟩
    have overlaps : old.chars.drop (j + p) <+: old.chars := by
      rw [List.drop_drop] at isMatch
      refine List.prefix_of_prefix_length_le (List.prefix_append _ rest) ⟨later, isMatch⟩ ?_
      rw [List.length_drop]
      omega
    have late := old.overlap_short (by omega) overlaps (by omega)
    -- What the replacement leaves: a part of the old id, and then the new one.
    have cut : Replace.replaceFrom old.chars new.chars 0 _ = _ :=
      Replace.replaceFrom_append_of_no_match ((old.chars.drop j).take p) ((old.chars.drop j).drop p ++ rest) passed
    rw [← List.append_assoc, List.take_append_drop, ← Replace.replace, ← Replace.replace, same, ← isMatch,
      Replace.replace_match_append old.chars_ne_nil, ← List.take_append_drop p (new.chars.drop j),
      List.append_assoc] at cut
    obtain ⟨kept, next⟩ := List.append_inj cut (by
      rw [List.length_take, List.length_take, lengths])
    have frontD : new.chars.take (j + p) = old.chars.take (j + p) := by
      rw [List.take_add, List.take_add, front, kept]
    rw [List.drop_drop] at next
    have newOverlaps : new.chars.drop (j + p) <+: new.chars := by
      refine List.prefix_of_prefix_length_le ⟨left, next⟩ (List.prefix_append _ _) ?_
      rw [List.length_drop]
      omega
    refine eq_of_take_of_drop frontD ?_
    have ends : ∀ u : Uuid, u.chars.drop (j + p) <+: u.chars →
        u.chars.drop (j + p) = (u.chars.take (j + p)).take (36 - (j + p)) := by
      intro u isPrefix
      rw [List.take_take, Nat.min_eq_left (by omega)]
      have length : (u.chars.drop (j + p)).length = 36 - (j + p) := by
        rw [List.length_drop, u.chars_length]
      rw [← length]
      exact List.prefix_iff_eq_take.mp isPrefix
    rw [ends new newOverlaps, ends old overlaps, frontD]

theorem escapeChar_length_le (x : Char) : (escapeChar x).length ≤ 12 := by
  rcases escapeChar_cases x with shape | ⟨_, _, shape⟩ | ⟨_, shape⟩ | ⟨_, shape⟩
  all_goals rw [shape]; simp [unicodeEscape]

theorem escape_uuidChars {text : List Char} (letters : ∀ c ∈ text, isUuidChar c = true) :
    text.flatMap escapeChar = text := by
  induction text with
  | nil => rfl
  | cons c text ih =>
    obtain ⟨first, rest⟩ := List.forall_mem_cons.mp letters
    rw [List.flatMap_cons, escapeChar_uuidChar first, ih rest, List.singleton_append]

/-- The id that begins inside an escape is divided between its end and the characters after it. -/
theorem straddled_shape {x : Char} {k : Nat} {after rest : List Char}
    (shape : (escapeChar x).drop k ++ after.flatMap escapeChar = old.chars ++ rest) :
    (escapeChar x).drop k = old.chars.take ((escapeChar x).drop k).length ∧
      (∀ c ∈ (escapeChar x).drop k, isUuidChar c = true) ∧
      old.chars.drop ((escapeChar x).drop k).length <+: after := by
  have bound := escapeChar_length_le x
  have isStart : (escapeChar x).drop k <+: old.chars := by
    refine List.prefix_of_prefix_length_le ⟨_, shape⟩ (List.prefix_append _ rest) ?_
    rw [List.length_drop, old.chars_length]
    omega
  obtain ⟨back, divided⟩ := isStart
  rw [← divided, List.append_assoc] at shape
  have letters : ∀ c ∈ (escapeChar x).drop k ++ back, isUuidChar c = true := by
    rw [divided]
    exact fun c member => Uuid.chars_isUuidChar member
  refine ⟨by rw [← divided, List.take_left' rfl], fun c member => letters c (List.mem_append_left _ member), ?_⟩
  rw [← divided, List.drop_left' rfl, ← escapeChar_plainLetters.prefix_iff
    (fun c member => letters c (List.mem_append_right _ member)), List.append_cancel_left shape]
  exact List.prefix_append back rest

/-- A character whose escape was cut by the replacement is read as itself only
if the ids are the same. -/
theorem eq_of_straddled {x : Char} {k : Nat} {after rest text : List Char} (inside : 0 < k)
    (within : k < (escapeChar x).length)
    (shape : (escapeChar x).drop k ++ after.flatMap escapeChar = old.chars ++ rest)
    (read : unescapeChars ((escapeChar x).take k ++ (new.chars ++ text)) =
      some (x :: Replace.replace old.chars new.chars after)) : new = old := by
  obtain ⟨front, letters, after, rfl⟩ := straddled_shape shape
  have short := escapeChar_tail_short inside letters
  have length : ((escapeChar x).drop k).length = (escapeChar x).length - k := List.length_drop
  generalize ((escapeChar x).drop k).length = j at *
  have divided : new.chars ++ text = new.chars.take j ++ (new.chars.drop j ++ text) := by
    rw [← List.append_assoc, List.take_append_drop]
  rw [divided, ← List.append_assoc] at read
  obtain ⟨exchanged, later⟩ := escapeChar_exchange inside within letters
    (by rw [List.length_take, new.chars_length, List.length_drop]; omega) (new.chars_take_hex (by omega)) read
  have plain : new.chars.drop j = (new.chars.drop j).flatMap escapeChar :=
    (escape_uuidChars (fun c member => Uuid.chars_isUuidChar (List.mem_of_mem_drop member))).symm
  rw [plain, unescapeChars_append] at later
  obtain ⟨left, _, same⟩ := Option.map_eq_some_iff.mp later
  exact eq_of_replaced_tail (by omega) short (exchanged.trans front) same.symm

/-- A string in whose JSON text the id begins inside an escape is not read back
as its copy. -/
theorem unescapeString_straddled (other : new ≠ old) {s : String}
    (straddles : Replace.Straddles escapeChar old.chars s.toList) :
    unescapeString (Replace.replace old.chars new.chars (escapeString s)) ≠ some (substText new old s) := by
  intro read
  obtain ⟨before, x, after, k, rest, inside, within, shape, text, encoded⟩ :=
    escapeChar_plainLetters.replace_straddle old.chars_ne_nil (fun c member => Uuid.chars_isUuidChar member)
      (fun c (member : c ∈ new.chars) => Uuid.chars_isUuidChar member) straddles
  have chars : unescapeChars (Replace.replace old.chars new.chars (escapeString s)) =
      some (Replace.replace old.chars new.chars s.toList) := by
    obtain ⟨read, isRead, same⟩ := Option.map_eq_some_iff.mp read
    rw [unescapeChars, isRead, ← String.ofList_injective same]
  rw [escapeString, encoded, text, unescapeChars_append] at chars
  obtain ⟨behind, isRead, same⟩ := Option.map_eq_some_iff.mp chars
  cases List.append_cancel_left same
  exact other (eq_of_straddled inside within shape isRead)

theorem unescapeString_replaced_iff (other : new ≠ old) {s : String} :
    unescapeString (Replace.replace old.chars new.chars (escapeString s)) = some (substText new old s) ↔
      MatchesWhole old s :=
  ⟨fun read straddles => unescapeString_straddled other straddles read, unescapeString_replaced new⟩

end Straddling

mutual

/-- The strings and the keys of a value. -/
def Data.strings : Data → List String
  | .none => []
  | .str s => [s]
  | .bytes _ => []
  | .uuid _ => []
  | .list items => itemStrings items
  | .tuple items => itemStrings items
  | .dict items => memberStrings items

def itemStrings : List Data → List String
  | [] => []
  | item :: items => item.strings ++ itemStrings items

def memberStrings : List (PyId × Data) → List String
  | [] => []
  | (key, item) :: items => key.str :: (item.strings ++ memberStrings items)

end

section Shaped

variable (new old : Uuid)

mutual

/-- The values that are copied: dicts with string keys, tuples and lists over
strings, byte strings and `None`. The new keys stay distinct, and no dict has
the form that marks a byte string. -/
def Data.Shaped : Data → Prop
  | .none => True
  | .str _ => True
  | .bytes _ => True
  | .uuid _ => False
  | .list items => ShapedItems items
  | .tuple items => ShapedItems items
  | .dict items => ShapedMembers items ∧ (items.map (fun e => substKey new old e.1)).Nodup ∧
      ∀ e ∈ items, e.1 = .text "__type__" → e.2 ≠ .str "bytes"

def ShapedItems : List Data → Prop
  | [] => True
  | item :: items => item.Shaped ∧ ShapedItems items

def ShapedMembers : List (PyId × Data) → Prop
  | [] => True
  | (.text _, item) :: items => item.Shaped ∧ ShapedMembers items
  | (.uuid _, _) :: _ => False

end

end Shaped

section Values

variable {new old : Uuid}

mutual

theorem Data.Shaped.clean : ∀ d : Data, d.Shaped new old → (∀ s ∈ d.strings, MatchesWhole old s) → d.Clean new old
  | .none, _, _ => by simp [Data.Clean]
  | .str s, _, whole => by simpa only [Data.Clean] using whole s (by simp [Data.strings])
  | .bytes _, _, _ => by simp [Data.Clean]
  | .uuid _, shaped, _ => by simp [Data.Shaped] at shaped
  | .list items, shaped, whole => by
    simp only [Data.Shaped, Data.strings, Data.Clean] at shaped whole ⊢
    exact ShapedItems.clean items shaped whole
  | .tuple items, shaped, whole => by
    simp only [Data.Shaped, Data.strings, Data.Clean] at shaped whole ⊢
    exact ShapedItems.clean items shaped whole
  | .dict items, shaped, whole => by
    simp only [Data.Shaped, Data.strings, Data.Clean] at shaped whole ⊢
    exact ⟨ShapedMembers.clean items shaped.1 whole, shaped.2⟩

theorem ShapedItems.clean : ∀ items : List Data, ShapedItems new old items →
    (∀ s ∈ itemStrings items, MatchesWhole old s) → CleanItems new old items
  | [], _, _ => by simp [CleanItems]
  | item :: items, shaped, whole => by
    simp only [ShapedItems, itemStrings, CleanItems, List.forall_mem_append] at shaped whole ⊢
    exact ⟨Data.Shaped.clean item shaped.1 whole.1, ShapedItems.clean items shaped.2 whole.2⟩

theorem ShapedMembers.clean : ∀ items : List (PyId × Data), ShapedMembers new old items →
    (∀ s ∈ memberStrings items, MatchesWhole old s) → CleanMembers new old items
  | [], _, _ => by simp [CleanMembers]
  | (.uuid _, _) :: _, shaped, _ => by simp [ShapedMembers] at shaped
  | (.text key, item) :: items, shaped, whole => by
    simp only [ShapedMembers, memberStrings, CleanMembers, List.forall_mem_cons, List.forall_mem_append] at shaped whole ⊢
    exact ⟨whole.1, Data.Shaped.clean item shaped.1 whole.2.1, ShapedMembers.clean items shaped.2 whole.2.2⟩

end

/-- An object that is read as a dict with as many entries as it has members is
that dict, member by member. -/
theorem bytesDecoder_dict {pairs : List (String × Data)} {items : List (PyId × Data)}
    (read : bytesDecoder pairs = some (.dict items)) (length : items.length = pairs.length) :
    items = pairs.map (fun e => (.text e.1, e.2)) := by
  have entries : (Dict.ofPairs pairs).entries.map (fun e => (PyId.text e.1, e.2)) = items := by
    unfold bytesDecoder at read
    dsimp only at read
    split at read
    · split at read
      · obtain ⟨_, _, same⟩ := Option.map_eq_some_iff.mp read
        cases same
      · cases read
    · exact Data.dict.inj (Option.some.inj read)
  have all : (Dict.ofPairs pairs).entries = pairs :=
    Dict.ofPairs_entries_of_length (by rw [← length, ← entries, List.length_map])
  rw [← entries, all]

theorem dumpsMembers_length {items : List (PyId × Data)} {docs : List (List Char × JsonDoc)}
    (dumped : dumpsMembers new old items = some docs) : docs.length = items.length := by
  induction items generalizing docs with
  | nil =>
    cases Option.some.inj dumped
    rfl
  | cons e items ih =>
    obtain ⟨key, item⟩ := e
    obtain ⟨name, _, dumped⟩ := Option.bind_eq_some_iff.mp dumped
    obtain ⟨doc, _, dumped⟩ := Option.bind_eq_some_iff.mp dumped
    obtain ⟨docs', rest, same⟩ := Option.bind_eq_some_iff.mp dumped
    cases Option.some.inj same
    exact congrArg (· + 1) (ih rest)

theorem loadsMembers_length {f : List Char → List Char} {docs : List (List Char × JsonDoc)}
    {pairs : List (String × Data)} (loaded : loadsMembers (JsonDoc.mapMembers f docs) = some pairs) :
    pairs.length = docs.length := by
  induction docs generalizing pairs with
  | nil =>
    cases Option.some.inj loaded
    rfl
  | cons e docs ih =>
    obtain ⟨key, doc⟩ := e
    obtain ⟨name, _, loaded⟩ := Option.bind_eq_some_iff.mp loaded
    obtain ⟨value, _, loaded⟩ := Option.bind_eq_some_iff.mp loaded
    obtain ⟨pairs', rest, same⟩ := Option.bind_eq_some_iff.mp loaded
    cases Option.some.inj same
    exact congrArg (· + 1) (ih rest)

mutual

/-- A value that comes back as its structural copy has only whole matches. -/
theorem whole_of_loads (other : new ≠ old) : ∀ (d : Data) (doc : JsonDoc), d.Shaped new old →
    dumps new old d = some doc →
    loads (doc.mapBodies (Replace.replace old.chars new.chars)) = some (d.substitute new old) →
      ∀ s ∈ d.strings, MatchesWhole old s
  | .none, _, _, _, _ => by simp [Data.strings]
  | .str s, doc, _, dumped, loaded => by
    cases Option.some.inj dumped
    obtain ⟨text, read, same⟩ := Option.map_eq_some_iff.mp loaded
    cases same
    intro s' member
    rw [List.mem_singleton.mp member]
    exact (unescapeString_replaced_iff other).mp read
  | .bytes _, _, _, _, _ => by simp [Data.strings]
  | .uuid _, _, shaped, _, _ => by simp [Data.Shaped] at shaped
  | .list items, doc, shaped, dumped, loaded => by
    obtain ⟨docs, dumpedItems, rfl⟩ := Option.map_eq_some_iff.mp dumped
    obtain ⟨read, loadedItems, same⟩ := Option.map_eq_some_iff.mp loaded
    cases Data.list.inj same
    exact whole_of_loadsItems other items docs shaped dumpedItems loadedItems
  | .tuple items, doc, shaped, dumped, loaded => by
    obtain ⟨docs, dumpedItems, rfl⟩ := Option.map_eq_some_iff.mp dumped
    obtain ⟨read, loadedItems, same⟩ := Option.map_eq_some_iff.mp loaded
    cases Data.list.inj same
    exact whole_of_loadsItems other items docs shaped dumpedItems loadedItems
  | .dict items, doc, shaped, dumped, loaded => by
    obtain ⟨docs, dumpedItems, rfl⟩ := Option.map_eq_some_iff.mp dumped
    obtain ⟨pairs, loadedItems, read⟩ := Option.bind_eq_some_iff.mp loaded
    have length : (substituteMembers new old items).length = pairs.length := by
      rw [substituteMembers_eq_map, List.length_map, loadsMembers_length loadedItems, dumpsMembers_length dumpedItems]
    exact whole_of_loadsMembers other items docs pairs shaped.1 dumpedItems loadedItems (bytesDecoder_dict read length)

theorem whole_of_loadsItems (other : new ≠ old) : ∀ (items : List Data) (docs : List JsonDoc),
    ShapedItems new old items → dumpsItems new old items = some docs →
    loadsItems (JsonDoc.mapItems (Replace.replace old.chars new.chars) docs) = some (substituteItems new old items) →
      ∀ s ∈ itemStrings items, MatchesWhole old s
  | [], _, _, _, _ => by simp [itemStrings]
  | item :: items, docs, shaped, dumped, loaded => by
    obtain ⟨doc, first, dumped⟩ := Option.bind_eq_some_iff.mp dumped
    obtain ⟨docs', rest, same⟩ := Option.bind_eq_some_iff.mp dumped
    cases Option.some.inj same
    obtain ⟨value, firstRead, loaded⟩ := Option.bind_eq_some_iff.mp loaded
    obtain ⟨values, restRead, same⟩ := Option.bind_eq_some_iff.mp loaded
    obtain ⟨rfl, rfl⟩ := List.cons.inj (Option.some.inj same)
    rw [itemStrings, List.forall_mem_append]
    exact ⟨whole_of_loads other item doc shaped.1 first firstRead,
      whole_of_loadsItems other items docs' shaped.2 rest restRead⟩

theorem whole_of_loadsMembers (other : new ≠ old) : ∀ (items : List (PyId × Data))
    (docs : List (List Char × JsonDoc)) (pairs : List (String × Data)), ShapedMembers new old items →
    dumpsMembers new old items = some docs →
    loadsMembers (JsonDoc.mapMembers (Replace.replace old.chars new.chars) docs) = some pairs →
    substituteMembers new old items = pairs.map (fun e => (.text e.1, e.2)) →
      ∀ s ∈ memberStrings items, MatchesWhole old s
  | [], _, _, _, _, _, _ => by simp [memberStrings]
  | (.uuid _, _) :: _, _, _, shaped, _, _, _ => by simp [ShapedMembers] at shaped
  | (.text key, item) :: items, docs, pairs, shaped, dumped, loaded, copied => by
    obtain ⟨doc, first, dumped⟩ := Option.bind_eq_some_iff.mp dumped
    obtain ⟨docs', rest, same⟩ := Option.bind_eq_some_iff.mp dumped
    cases Option.some.inj same
    obtain ⟨text, keyRead, loaded⟩ := Option.bind_eq_some_iff.mp loaded
    obtain ⟨value, firstRead, loaded⟩ := Option.bind_eq_some_iff.mp loaded
    obtain ⟨values, restRead, same⟩ := Option.bind_eq_some_iff.mp loaded
    cases Option.some.inj same
    obtain ⟨head, copiedRest⟩ := List.cons.inj copied
    obtain ⟨sameKey, rfl⟩ := Prod.mk.inj head
    cases PyId.text.inj sameKey
    rw [memberStrings, List.forall_mem_cons, List.forall_mem_append]
    exact ⟨(unescapeString_replaced_iff other).mp keyRead, whole_of_loads other item doc shaped.1 first firstRead,
      whole_of_loadsMembers other items docs' values shaped.2 rest restRead copiedRest⟩

end

end Values

/-- `_replace_thread_id` is the structural substitution on just those values in
which no match of the id in the JSON text of a string or a key begins inside an
escape sequence. -/
theorem replaceThreadId_eq_substitute_iff {new old : Uuid} (other : new ≠ old) {data : Data}
    (shaped : data.Shaped new old) :
    replaceThreadId data new old = some (data.substitute new old) ↔ ∀ s ∈ data.strings, MatchesWhole old s := by
  constructor
  · intro replaced
    obtain ⟨doc, dumped, loaded⟩ := Option.bind_eq_some_iff.mp replaced
    exact whole_of_loads other data doc shaped dumped loaded
  · exact fun whole => replaceThreadId_of_clean (Data.Shaped.clean data shaped whole)

/-- A channel that names the source, beside its bytes. -/
def namingData : Data := .dict [(.text namingChannel, .tuple [.str "msgpack", .bytes copySource.encoded, .none])]

theorem replaceThreadId_eq_substitute_iff_naming :
    replaceThreadId namingData copyTarget copySource = some (namingData.substitute copyTarget copySource) := by
  have shaped : namingData.Shaped copyTarget copySource := by
    simp only [namingData, Data.Shaped, ShapedMembers, ShapedItems, and_true, true_and, List.map_cons, List.map_nil,
      List.nodup_singleton, List.forall_mem_singleton]
    exact fun marker => absurd (PyId.text.inj marker) (by decide)
  have plain : namingData.strings.all (fun s => s.toList.all (fun c => (escapeChar c).length == 1)) = true := by
    decide +kernel
  exact (replaceThreadId_eq_substitute_iff (by decide) shaped).mpr
    (fun s member => .of_plain (List.all_eq_true.mp plain s member))

/-- A string without the id, in whose JSON text the id stands. -/
theorem replaceThreadId_changes_escape : copyTarget ≠ copySource ∧
    (Data.str escapedChannel).substitute copyTarget copySource = .str escapedChannel ∧
    replaceThreadId (.str escapedChannel) copyTarget copySource =
      some (.str "Aabcd-1234-4321-8000-00000000000f") ∧
    ¬ ∀ data : Data, data.Shaped copyTarget copySource →
      replaceThreadId data copyTarget copySource = some (data.substitute copyTarget copySource) := by
  have copied : (Data.str escapedChannel).substitute copyTarget copySource = .str escapedChannel :=
    congrArg Data.str (by decide +kernel)
  have read : replaceThreadId (.str escapedChannel) copyTarget copySource =
      some (.str "Aabcd-1234-4321-8000-00000000000f") := by
    have text : unescapeString (Replace.replace copySource.chars copyTarget.chars (escapeString escapedChannel)) =
        some "Aabcd-1234-4321-8000-00000000000f" := by decide +kernel
    rw [replaceThreadId, dumps, Option.bind_some, JsonDoc.mapBodies, loads, text, Option.map_some]
  refine ⟨by decide, copied, read, fun always => ?_⟩
  have same := read.symm.trans ((always (.str escapedChannel) (by simp [Data.Shaped])).trans (congrArg some copied))
  have texts := Data.str.inj (Option.some.inj same)
  exact absurd texts (by decide)

end InmemRuntime
