import InmemRuntime.ReplaceThreadId
import Mathlib.Data.String.Basic

namespace InmemRuntime

section Substitute

variable (new old : Uuid)

/-- `s.replace(str(old), str(new))` -/
def substText (s : String) : String := String.ofList (Replace.replace old.chars new.chars s.toList)

def substKey : PyId → PyId
  | .text s => .text (substText new old s)
  | .uuid u => .uuid u

mutual

/-- The copy that keeps the structure: tuples become lists, and the id is
replaced in every string, key and byte string. -/
def Data.substitute : Data → Data
  | .none => .none
  | .str s => .str (substText new old s)
  | .bytes b => .bytes (Replace.replace old.encoded new.encoded b)
  | .uuid u => .uuid u
  | .list items => .list (substituteItems items)
  | .tuple items => .list (substituteItems items)
  | .dict items => .dict (substituteMembers items)

def substituteItems : List Data → List Data
  | [] => []
  | item :: items => item.substitute :: substituteItems items

def substituteMembers : List (PyId × Data) → List (PyId × Data)
  | [] => []
  | (key, item) :: items => (substKey new old key, item.substitute) :: substituteMembers items

end

end Substitute

/-- No match of the id in the JSON text of the string begins inside an escape
sequence. -/
def MatchesWhole (old : Uuid) (s : String) : Prop :=
  ¬ Replace.Straddles escapeChar old.chars s.toList

/-- Text that is written without escapes has only whole matches. -/
theorem MatchesWhole.of_plain {old : Uuid} {s : String}
    (plain : s.toList.all (fun c => (escapeChar c).length == 1) = true) : MatchesWhole old s := by
  rintro ⟨before, c, after, shape, k, inside, within, _⟩
  have single := List.all_eq_true.mp plain c (by rw [shape]; simp)
  simp only [beq_iff_eq] at single
  omega

section Clean

variable (new old : Uuid)

mutual

/-- The value survives the trip through JSON as its structural copy: it holds
no `uuid.UUID`, no match of the id begins inside an escape, the new keys stay
distinct, and no dict has the form that marks a byte string. -/
def Data.Clean : Data → Prop
  | .none => True
  | .str s => MatchesWhole old s
  | .bytes _ => True
  | .uuid _ => False
  | .list items => CleanItems items
  | .tuple items => CleanItems items
  | .dict items => CleanMembers items ∧ (items.map (fun e => substKey new old e.1)).Nodup ∧
      ∀ e ∈ items, e.1 = .text "__type__" → e.2 ≠ .str "bytes"

def CleanItems : List Data → Prop
  | [] => True
  | item :: items => item.Clean ∧ CleanItems items

def CleanMembers : List (PyId × Data) → Prop
  | [] => True
  | (.text key, item) :: items => MatchesWhole old key ∧ item.Clean ∧ CleanMembers items
  | (.uuid _, _) :: _ => False

end

end Clean

section Loads

variable {new old : Uuid}

theorem uuidChar_value {c : Char} (letter : isUuidChar c = true) :
    c.toNat = 45 ∨ (48 ≤ c.toNat ∧ c.toNat ≤ 57) ∨ (97 ≤ c.toNat ∧ c.toNat ≤ 102) := by
  simp only [isUuidChar, Char.isDigit, Bool.or_eq_true, Bool.and_eq_true, decide_eq_true_eq] at letter
  rcases letter with (rfl | digit) | ⟨low, high⟩
  · exact Or.inl rfl
  · exact Or.inr (Or.inl digit)
  · exact Or.inr (Or.inr ⟨low, high⟩)

theorem escapeChar_uuidChar {c : Char} (letter : isUuidChar c = true) : escapeChar c = [c] := by
  have value := uuidChar_value letter
  refine escapeChar_printable (by omega) ?_ ?_
  · rintro rfl
    cases letter
  · rintro rfl
    cases letter

theorem escapeChar_base64Char {c : Char} (letter : Base64.isBase64Char c = true) :
    escapeChar c = [c] := by
  have value : 43 ≤ c.toNat ∧ c.toNat ≤ 122 ∧ c.toNat ≠ 92 := by
    simp only [Base64.isBase64Char] at letter
    delta Char.isAlphanum Char.isAlpha Char.isUpper Char.isLower Char.isDigit at letter
    simp only [Bool.or_eq_true, Bool.and_eq_true, decide_eq_true_eq, UInt32.le_iff_toNat_le] at letter
    have toNat : c.toNat = c.val.toNat := rfl
    rcases letter with ((((upper | lower) | digit) | rfl) | rfl) | rfl
    all_goals first | decide | skip
    all_goals simp only [Char.reduceVal, UInt32.reduceToNat] at *
    all_goals omega
  refine escapeChar_printable (by omega) ?_ ?_
  · rintro rfl
    cases letter
  · rintro rfl
    cases letter

/-- The characters of the ids are written as themselves, and an escape begins
with a backslash. -/
theorem escapeChar_plainLetters :
    Replace.PlainLetters escapeChar (fun c => isUuidChar c = true) where
  plain _ letter := escapeChar_uuidChar letter
  marked c := by
    unfold escapeChar
    cases shortEscape? c with
    | some letter => exact Or.inr ⟨'\\', [letter], rfl, by decide⟩
    | none =>
      simp only
      split
      · exact Or.inl rfl
      · refine Or.inr ?_
        unfold utf16Units
        split
        · exact ⟨'\\', _, rfl, by decide⟩
        · exact ⟨'\\', _, rfl, by decide⟩

theorem unescapeString_replaced (new : Uuid) {s : String} (whole : MatchesWhole old s) :
    unescapeString (Replace.replace old.chars new.chars (escapeString s)) = some (substText new old s) := by
  rw [escapeString, escapeChar_plainLetters.replace_flatMap old.chars_ne_nil
    (fun c member => Uuid.chars_isUuidChar member) (fun c member => Uuid.chars_isUuidChar member) whole,
    unescapeString_flatMap]
  rfl

theorem escape_base64 (b : List UInt8) : (Base64.encode b).flatMap escapeChar = Base64.encode b := by
  have plain : ∀ text : List Char, (∀ c ∈ text, Base64.isBase64Char c = true) →
      text.flatMap escapeChar = text := by
    intro text letters
    induction text with
    | nil => rfl
    | cons c text ih =>
      obtain ⟨first, rest⟩ := List.forall_mem_cons.mp letters
      rw [List.flatMap_cons, escapeChar_base64Char first, ih rest, List.singleton_append]
  exact plain _ (Base64.encode_isBase64Char b)

theorem Uuid.hyphen_mem (u : Uuid) : '-' ∈ u.chars := by
  simp [Uuid.chars]

/-- The marker object is read back as the bytes, the id replaced in them. -/
theorem loads_encodeBytes (b : List UInt8) :
    loads ((encodeBytes new old b).mapBodies (Replace.replace old.chars new.chars)) =
      some (.bytes (Replace.replace old.encoded new.encoded b)) := by
  have short : ∀ text : List Char, text.length < 36 →
      Replace.replace old.chars new.chars text = text := fun text within =>
    Replace.replace_of_short (by rw [old.chars_length]; exact within)
  have noHyphen : ∀ b, '-' ∉ Base64.encode b := fun b member =>
    absurd (Base64.encode_isBase64Char b '-' member) (by decide)
  have typeKey := short (escapeString "__type__") (by decide)
  have typeValue := short (escapeString "bytes") (by decide)
  have valueKey := short (escapeString "value") (by decide)
  have value := fun b => Replace.replace_of_missing new.chars old.hyphen_mem (noHyphen b)
  have read := fun b => unescapeString_flatMap (Base64.encode b)
  simp only [escape_base64] at read
  simp only [encodeBytes, JsonDoc.mapBodies, JsonDoc.mapMembers, typeKey, typeValue, valueKey, value, loads,
    loadsMembers, unescapeString_escapeString, read]
  simp [bytesDecoder, Dict.ofPairs, Dict.setAll, Dict.set, Dict.keys, Dict.get?, Dict.empty, Base64.decode_encode]

theorem substText_toList (s : String) :
    (substText new old s).toList = Replace.replace old.chars new.chars s.toList :=
  String.toList_ofList

/-- The substitution makes no text that is too short to hold an id. -/
theorem eq_of_substText_short {s t : String} (short : t.toList.length < 36)
    (same : substText new old s = t) : s = t := by
  have length : s.toList.length = t.toList.length := by
    rw [← same, substText_toList, Replace.length_replace old.chars_ne_nil
      (new.chars_length.trans old.chars_length.symm)]
  have kept : Replace.replace old.chars new.chars s.toList = s.toList :=
    Replace.replace_of_short (by rw [old.chars_length]; omega)
  rw [← same, substText, kept, String.ofList_toList]

theorem Data.substitute_eq_str {d : Data} {t : String} (same : d.substitute new old = .str t) :
    ∃ s, d = .str s ∧ substText new old s = t := by
  cases d with
  | str s => exact ⟨s, rfl, Data.str.inj same⟩
  | none => cases same
  | bytes b => cases same
  | uuid u => cases same
  | list items => cases same
  | tuple items => cases same
  | dict items => cases same

theorem substituteMembers_eq_map (items : List (PyId × Data)) :
    substituteMembers new old items =
      items.map (fun e => (substKey new old e.1, e.2.substitute new old)) := by
  induction items with
  | nil => rfl
  | cons e items ih => rw [substituteMembers, ih, List.map_cons]

/-- Distinct keys keep their order, and a dict that is no marker stays a dict. -/
theorem bytesDecoder_plain {pairs : List (String × Data)} (distinct : (pairs.map Prod.fst).Nodup)
    (plain : ("__type__", Data.str "bytes") ∉ pairs) :
    bytesDecoder pairs = some (.dict (pairs.map (fun e => (.text e.1, e.2)))) := by
  have entries := Dict.ofPairs_entries distinct
  have unmarked : (Dict.ofPairs pairs).get? "__type__" ≠ some (.str "bytes") := by
    intro marked
    rw [← Dict.mem_entries_iff, entries] at marked
    exact plain marked
  unfold bytesDecoder
  simp only [entries]

theorem unmarked_of_clean {items : List (PyId × Data)} {pairs : List (String × Data)}
    (plain : ∀ e ∈ items, e.1 = .text "__type__" → e.2 ≠ .str "bytes")
    (same : substituteMembers new old items = pairs.map (fun e => (.text e.1, e.2))) :
    ("__type__", Data.str "bytes") ∉ pairs := by
  intro marked
  have member : ((.text "__type__", .str "bytes") : PyId × Data) ∈ substituteMembers new old items := by
    rw [same]
    exact List.mem_map.mpr ⟨_, marked, rfl⟩
  rw [substituteMembers_eq_map] at member
  obtain ⟨⟨key, item⟩, inside, equal⟩ := List.mem_map.mp member
  obtain ⟨sameKey, sameItem⟩ := Prod.mk.inj equal
  obtain ⟨s, rfl, value⟩ := Data.substitute_eq_str sameItem
  cases key with
  | uuid u => cases sameKey
  | text key =>
    have keyText := eq_of_substText_short (by decide) (PyId.text.inj sameKey)
    have valueText := eq_of_substText_short (by decide) value
    exact plain _ inside (by rw [keyText]) (by rw [valueText])

mutual

/-- A clean value comes back from the trip as its structural copy. -/
theorem loads_dumps : ∀ d : Data, d.Clean new old → ∃ doc, dumps new old d = some doc ∧
    loads (doc.mapBodies (Replace.replace old.chars new.chars)) = some (d.substitute new old)
  | .none, _ => ⟨.null, rfl, rfl⟩
  | .str s, whole => ⟨_, rfl, by
      rw [JsonDoc.mapBodies, loads, unescapeString_replaced new (by simpa only [Data.Clean] using whole),
        Data.substitute, Option.map_some]⟩
  | .bytes b, _ => ⟨_, rfl, loads_encodeBytes b⟩
  | .uuid _, impossible => by simp [Data.Clean] at impossible
  | .list items, clean => by
    obtain ⟨docs, dumped, loaded⟩ := loadsItems_dumpsItems items (by simpa only [Data.Clean] using clean)
    exact ⟨.array docs, by rw [dumps, dumped, Option.map_some],
      by rw [JsonDoc.mapBodies, loads, loaded, Data.substitute, Option.map_some]⟩
  | .tuple items, clean => by
    obtain ⟨docs, dumped, loaded⟩ := loadsItems_dumpsItems items (by simpa only [Data.Clean] using clean)
    exact ⟨.array docs, by rw [dumps, dumped, Option.map_some],
      by rw [JsonDoc.mapBodies, loads, loaded, Data.substitute, Option.map_some]⟩
  | .dict items, clean => by
    simp only [Data.Clean] at clean
    obtain ⟨cleanItems, distinct, plain⟩ := clean
    obtain ⟨docs, pairs, dumped, loaded, same⟩ := loadsMembers_dumpsMembers items cleanItems
    refine ⟨.object docs, by rw [dumps, dumped, Option.map_some], ?_⟩
    have keys : (items.map (fun e => substKey new old e.1)) = (pairs.map Prod.fst).map PyId.text := by
      have mapped := congrArg (List.map Prod.fst) same
      simpa [substituteMembers_eq_map, Function.comp_def] using mapped
    rw [keys] at distinct
    rw [JsonDoc.mapBodies, loads, loaded, Option.bind_some,
      bytesDecoder_plain (List.Nodup.of_map _ distinct) (unmarked_of_clean plain same), Data.substitute, same]

theorem loadsItems_dumpsItems : ∀ items : List Data, CleanItems new old items →
    ∃ docs, dumpsItems new old items = some docs ∧
      loadsItems (JsonDoc.mapItems (Replace.replace old.chars new.chars) docs) =
        some (substituteItems new old items)
  | [], _ => ⟨[], rfl, rfl⟩
  | item :: items, clean => by
    simp only [CleanItems] at clean
    obtain ⟨doc, dumped, loaded⟩ := loads_dumps item clean.1
    obtain ⟨docs, dumpedRest, loadedRest⟩ := loadsItems_dumpsItems items clean.2
    exact ⟨doc :: docs, by simp [dumpsItems, dumped, dumpedRest],
      by simp [JsonDoc.mapItems, loadsItems, loaded, loadedRest, substituteItems]⟩

theorem loadsMembers_dumpsMembers : ∀ items : List (PyId × Data), CleanMembers new old items →
    ∃ docs pairs, dumpsMembers new old items = some docs ∧
      loadsMembers (JsonDoc.mapMembers (Replace.replace old.chars new.chars) docs) = some pairs ∧
      substituteMembers new old items = pairs.map (fun e => (.text e.1, e.2))
  | [], _ => ⟨[], [], rfl, rfl, rfl⟩
  | (.uuid _, _) :: _, impossible => by simp [CleanMembers] at impossible
  | (.text key, item) :: items, clean => by
    simp only [CleanMembers] at clean
    obtain ⟨whole, cleanItem, cleanRest⟩ := clean
    obtain ⟨doc, dumped, loaded⟩ := loads_dumps item cleanItem
    obtain ⟨docs, pairs, dumpedRest, loadedRest, same⟩ := loadsMembers_dumpsMembers items cleanRest
    have read := unescapeString_replaced new whole
    exact ⟨(escapeString key, doc) :: docs, (substText new old key, item.substitute new old) :: pairs,
      by simp [dumpsMembers, dumpsKey, dumped, dumpedRest],
      by simp [JsonDoc.mapMembers, loadsMembers, read, loaded, loadedRest],
      by simp [substituteMembers, substKey, same]⟩

end

theorem replaceThreadId_of_clean {data : Data} (clean : data.Clean new old) :
    replaceThreadId data new old = some (data.substitute new old) := by
  obtain ⟨doc, dumped, loaded⟩ := loads_dumps data clean
  rw [replaceThreadId, dumped, Option.bind_some, loaded]

end Loads

end InmemRuntime
