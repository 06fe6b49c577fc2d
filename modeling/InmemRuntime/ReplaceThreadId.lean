import InmemRuntime.JsonText
import InmemRuntime.CheckpointSize
import InmemRuntime.Lib.Base64

namespace InmemRuntime

/-- The values that are copied from thread to thread: what the saver's
containers hold, seen as plain Python objects. -/
inductive Data where
  | none
  | str (s : String)
  | bytes (b : List UInt8)
  | uuid (u : Uuid)
  | list (items : List Data)
  | tuple (items : List Data)
  | dict (items : List (PyId × Data))
deriving Inhabited

/-- A JSON document. A literal or a key is the text between its quotes. -/
inductive JsonDoc where
  | null
  | string (body : List Char)
  | array (items : List JsonDoc)
  | object (members : List (List Char × JsonDoc))
deriving Inhabited

namespace JsonDoc

def newline (level : Nat) : List Char := '\n' :: List.replicate (2 * level) ' '

/-- The parts of an array or an object, one a line. -/
def bracketed (first last : Char) (level : Nat) : List (List Char) → List Char
  | [] => [first, last]
  | parts => first :: newline (level + 1) ++
      ((',' :: newline (level + 1)).intercalate parts ++ newline level ++ [last])

mutual

/-- The text that `json.dumps(…, indent=2)` lays out. -/
def text (level : Nat) : JsonDoc → List Char
  | .null => ['n', 'u', 'l', 'l']
  | .string body => '"' :: body ++ ['"']
  | .array items => bracketed '[' ']' level (itemTexts (level + 1) items)
  | .object members => bracketed '{' '}' level (memberTexts (level + 1) members)

def itemTexts (level : Nat) : List JsonDoc → List (List Char)
  | [] => []
  | item :: items => item.text level :: itemTexts level items

def memberTexts (level : Nat) : List (List Char × JsonDoc) → List (List Char)
  | [] => []
  | (key, item) :: members =>
    ('"' :: key ++ ['"', ':', ' '] ++ item.text level) :: memberTexts level members

end

mutual

/-- Apply a function to every literal and every key. -/
def mapBodies (f : List Char → List Char) : JsonDoc → JsonDoc
  | .null => .null
  | .string body => .string (f body)
  | .array items => .array (mapItems f items)
  | .object members => .object (mapMembers f members)

def mapItems (f : List Char → List Char) : List JsonDoc → List JsonDoc
  | [] => []
  | item :: items => item.mapBodies f :: mapItems f items

def mapMembers (f : List Char → List Char) : List (List Char × JsonDoc) → List (List Char × JsonDoc)
  | [] => []
  | (key, item) :: members => (f key, item.mapBodies f) :: mapMembers f members

end

end JsonDoc

/-- `str(thread_id).encode()` -/
def Uuid.encoded (u : Uuid) : List UInt8 := u.chars.map (fun c => c.toNat.toUInt8)

section Encoder

variable (new old : Uuid)

/-- What `BytesEncoder.default` makes of a byte string: the marker object, with
the thread id already replaced in the bytes. -/
def encodeBytes (b : List UInt8) : JsonDoc :=
  .object [(escapeString "__type__", .string (escapeString "bytes")),
    (escapeString "value", .string (Base64.encode (Replace.replace old.encoded new.encoded b)))]

/-- Only strings are keys of the objects; a `uuid.UUID` raises. -/
def dumpsKey : PyId → Option (List Char)
  | .text s => some (escapeString s)
  | .uuid _ => none

mutual

/-- `json.dumps(data, cls=BytesEncoder)`; `none` is its `TypeError`. -/
def dumps : Data → Option JsonDoc
  | .none => some .null
  | .str s => some (.string (escapeString s))
  | .bytes b => some (encodeBytes new old b)
  | .uuid _ => none
  | .list items => (dumpsItems items).map .array
  | .tuple items => (dumpsItems items).map .array
  | .dict items => (dumpsMembers items).map .object

def dumpsItems : List Data → Option (List JsonDoc)
  | [] => some []
  | item :: items => do some ((← dumps item) :: (← dumpsItems items))

def dumpsMembers : List (PyId × Data) → Option (List (List Char × JsonDoc))
  | [] => some []
  | (key, item) :: items => do some ((← dumpsKey key, ← dumps item) :: (← dumpsMembers items))

end

end Encoder

/-- `bytes_decoder`, called on every object that the loader has finished; of
two members under one key the later one stands. -/
def bytesDecoder (members : List (String × Data)) : Option Data :=
  let obj := Dict.ofPairs members
  match obj.get? "__type__" with
  | some (.str "bytes") =>
    match obj.get? "value" with
    | some (.str value) => (Base64.decode value.toList).map .bytes
    | _ => none
  | _ => some (.dict (obj.entries.map (fun e => (.text e.1, e.2))))

mutual

/-- `json.loads(…, object_hook=bytes_decoder)` -/
def loads : JsonDoc → Option Data
  | .null => some .none
  | .string body => (unescapeString body).map .str
  | .array items => (loadsItems items).map .list
  | .object members => (loadsMembers members).bind bytesDecoder

def loadsItems : List JsonDoc → Option (List Data)
  | [] => some []
  | item :: items => do some ((← loads item) :: (← loadsItems items))

def loadsMembers : List (List Char × JsonDoc) → Option (List (String × Data))
  | [] => some []
  | (key, item) :: members => do
    some ((← unescapeString key, ← loads item) :: (← loadsMembers members))

end

/-- `_replace_thread_id`. An id has no quotes, so a match in the text lies in
one literal or key; `JsonDoc.text_mapBodies` says that this is the replacement
in the whole text. -/
def replaceThreadId (data : Data) (new old : Uuid) : Option Data :=
  (dumps new old data).bind (fun doc => loads (doc.mapBodies (Replace.replace old.chars new.chars)))

namespace Uuid

theorem chars_ne_nil (u : Uuid) : u.chars ≠ [] := by
  have length := u.chars_length
  intro nil
  rw [nil] at length
  cases length

/-- No character outside the alphabet of the ids occurs in one. -/
theorem not_mem_chars {u : Uuid} {c : Char} (outside : isUuidChar c = false) : c ∉ u.chars := by
  intro member
  rw [chars_isUuidChar member] at outside
  cases outside

end Uuid

section Layout

variable {new old : Uuid}

theorem newline_outside (level : Nat) : ∀ c ∈ JsonDoc.newline level, c ∉ old.chars := by
  intro c member
  rcases List.mem_cons.mp member with rfl | blank
  · exact Uuid.not_mem_chars rfl
  · rw [List.eq_of_mem_replicate blank]
    exact Uuid.not_mem_chars rfl

theorem replace_bracketed {first last : Char} (outsideFirst : isUuidChar first = false)
    (outsideLast : isUuidChar last = false) (level : Nat) (parts : List (List Char)) :
    Replace.replace old.chars new.chars (JsonDoc.bracketed first last level parts) =
      JsonDoc.bracketed first last level (parts.map (Replace.replace old.chars new.chars)) := by
  have nonempty := old.chars_ne_nil
  have opening : ∀ c ∈ [first] ++ JsonDoc.newline (level + 1), c ∉ old.chars := by
    intro c member
    rcases List.mem_append.mp member with one | blank
    · rw [List.mem_singleton.mp one]
      exact Uuid.not_mem_chars outsideFirst
    · exact newline_outside _ c blank
  have closing : ∀ c ∈ JsonDoc.newline level ++ [last], c ∉ old.chars := by
    intro c member
    rcases List.mem_append.mp member with blank | one
    · exact newline_outside _ c blank
    · rw [List.mem_singleton.mp one]
      exact Uuid.not_mem_chars outsideLast
  have comma : ∀ c ∈ ',' :: JsonDoc.newline (level + 1), c ∉ old.chars :=
    List.forall_mem_cons.mpr ⟨Uuid.not_mem_chars rfl, newline_outside _⟩
  cases parts with
  | nil => exact Replace.replace_of_short (by
      have long := old.chars_length
      simp [JsonDoc.bracketed, long])
  | cons part parts =>
    have separated := Replace.replace_intercalate new.chars nonempty
      (List.cons_ne_nil _ _) comma (part :: parts)
    have opened := Replace.replace_marks_append new.chars nonempty opening
    have closed := Replace.replace_append_marks_end new.chars nonempty closing
    simp only [List.singleton_append] at opened closed
    rw [List.map_cons] at separated ⊢
    simp only [JsonDoc.bracketed, List.append_assoc, opened, closed, separated]

end Layout

mutual

/-- Replacing the id in the laid-out text replaces it in each literal and key. -/
theorem JsonDoc.text_mapBodies {new old : Uuid} (level : Nat) : ∀ doc : JsonDoc,
    Replace.replace old.chars new.chars (doc.text level) =
      (doc.mapBodies (Replace.replace old.chars new.chars)).text level
  | .null => Replace.replace_of_short (by rw [old.chars_length]; simp [JsonDoc.text])
  | .string body => by
    have quote : ∀ c ∈ ['"'], c ∉ old.chars := by
      simpa using Uuid.not_mem_chars (u := old) (c := '"') rfl
    have opened := Replace.replace_marks_append new.chars old.chars_ne_nil quote
    have closed := Replace.replace_append_marks_end new.chars old.chars_ne_nil quote
    simp only [List.singleton_append] at opened
    simp only [JsonDoc.text, JsonDoc.mapBodies, List.cons_append, opened, closed]
  | .array items => by
    rw [JsonDoc.text, replace_bracketed rfl rfl, JsonDoc.itemTexts_mapItems, JsonDoc.mapBodies, JsonDoc.text]
  | .object members => by
    rw [JsonDoc.text, replace_bracketed rfl rfl, JsonDoc.memberTexts_mapMembers, JsonDoc.mapBodies,
      JsonDoc.text]

theorem JsonDoc.itemTexts_mapItems {new old : Uuid} (level : Nat) : ∀ items : List JsonDoc,
    (JsonDoc.itemTexts level items).map (Replace.replace old.chars new.chars) =
      JsonDoc.itemTexts level (JsonDoc.mapItems (Replace.replace old.chars new.chars) items)
  | [] => rfl
  | item :: items => by
    rw [JsonDoc.itemTexts, List.map_cons, JsonDoc.text_mapBodies level item,
      JsonDoc.itemTexts_mapItems level items, JsonDoc.mapItems, JsonDoc.itemTexts]

theorem JsonDoc.memberTexts_mapMembers {new old : Uuid} (level : Nat) :
    ∀ members : List (List Char × JsonDoc),
    (JsonDoc.memberTexts level members).map (Replace.replace old.chars new.chars) =
      JsonDoc.memberTexts level (JsonDoc.mapMembers (Replace.replace old.chars new.chars) members)
  | [] => rfl
  | (key, item) :: members => by
    have quote : ∀ c ∈ ['"'], c ∉ old.chars := by
      simpa using Uuid.not_mem_chars (u := old) (c := '"') rfl
    have colon : ∀ c ∈ ['"', ':', ' '], c ∉ old.chars := by
      simp [Uuid.not_mem_chars (u := old) (c := '"') rfl, Uuid.not_mem_chars (u := old) (c := ':') rfl,
        Uuid.not_mem_chars (u := old) (c := ' ') rfl]
    have opened := Replace.replace_marks_append new.chars old.chars_ne_nil quote
    have middle := Replace.replace_append_marks new.chars old.chars_ne_nil (by simp) colon
    simp only [List.singleton_append] at opened
    rw [JsonDoc.memberTexts, List.map_cons, JsonDoc.memberTexts_mapMembers level members,
      JsonDoc.mapMembers, JsonDoc.memberTexts]
    simp only [List.cons_append, opened, middle, JsonDoc.text_mapBodies level item]

end

end InmemRuntime
