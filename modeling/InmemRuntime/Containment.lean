import InmemRuntime.PyEq

namespace InmemRuntime

mutual

def isJsonbContained (superset : PyDict) : List (String × PyVal) → Bool
  | [] => true
  | (key, value) :: rest =>
    (match superset.get? key with
      | none => false
      | some found => isValueContained found value) && isJsonbContained superset rest

/-- The comparison of `is_jsonb_contained` under one key: only a dict facing a
dict is descended into. -/
def isValueContained (found : PyVal) : PyVal → Bool
  | .dict wanted =>
    match found with
    | .dict inner => isJsonbContained inner wanted
    | other => other.pyEq (.dict wanted)
  | value => found.pyEq value

end

/-- The numbers of JSON: a boolean is none. -/
def jsonNumber? : PyVal → Option Rat
  | .int n => some n
  | .float q => some q
  | _ => none

/-- Equal scalars of one JSON type. -/
def scalarEq : PyVal → PyVal → Bool
  | .none, .none => true
  | .bool b, .bool c => b == c
  | .str s, .str t => s == t
  | x, y =>
    match jsonNumber? x, jsonNumber? y with
    | some p, some q => p == q
    | _, _ => false

mutual

/-- `superset @> subset` -/
def jsonContains (superset : PyVal) : PyVal → Bool
  | .dict wanted =>
    match superset with
    | .dict inner => containsItems inner wanted
    | _ => false
  | .list wanted =>
    match superset with
    | .list elements => containsElements elements wanted
    | _ => false
  | scalar => scalarEq superset scalar

/-- Each key is present with a containing value. -/
def containsItems (superset : PyDict) : List (String × PyVal) → Bool
  | [] => true
  | (key, value) :: rest =>
    (match superset.get? key with
      | none => false
      | some found => jsonContains found value) && containsItems superset rest

/-- Each element is contained in some element of the other array. -/
def containsElements (elements : List PyVal) : List PyVal → Bool
  | [] => true
  | value :: rest => elements.any (fun element => jsonContains element value) && containsElements elements rest

end

/-- Two objects face each other, so that their keys are compared. -/
def BothDicts (found value : PyVal) : Prop := ∃ inner wanted, found = .dict inner ∧ value = .dict wanted

/-- A key of the subset that the superset lacks, at the top or in objects that face each other. -/
inductive Lacks : PyDict → PyDict → Prop
  | here {superset subset key value} (listed : (key, value) ∈ subset) (absent : superset.get? key = none) :
      Lacks superset subset
  | inside {superset subset inner wanted key} (listed : (key, .dict wanted) ∈ subset)
      (found : superset.get? key = some (.dict inner)) (lacks : Lacks inner wanted) : Lacks superset subset

/-- Two values that face each other under one key, and are not both objects. -/
inductive Faces : PyDict → PyDict → PyVal → PyVal → Prop
  | here {superset subset key found value} (listed : (key, value) ∈ subset) (present : superset.get? key = some found)
      (leaf : ¬ BothDicts found value) : Faces superset subset found value
  | inside {superset subset inner wanted key found value} (listed : (key, .dict wanted) ∈ subset)
      (present : superset.get? key = some (.dict inner)) (faces : Faces inner wanted found value) :
      Faces superset subset found value

/-- A comparison of objects key by key, with a comparison of what faces each other. -/
structure KeyByKey (objects : PyDict → PyDict → Prop) (values : PyVal → PyVal → Prop) : Prop where
  objects_iff : ∀ {superset subset}, objects superset subset ↔
    ∀ item ∈ subset, ∃ found, superset.get? item.1 = some found ∧ values found item.2
  descends : ∀ {inner wanted}, values (.dict inner) (.dict wanted) ↔ objects inner wanted

theorem PyDict.sizeOf_item_lt {items wanted : PyDict} {key : String} (listed : (key, PyVal.dict wanted) ∈ items) :
    sizeOf wanted < sizeOf items := by
  have inList := List.sizeOf_lt_of_mem listed
  simp only [Prod.mk.sizeOf_spec, PyVal.dict.sizeOf_spec] at inList
  omega

/-- Such a comparison holds when no key is lacking and it holds of every two
values that face each other. -/
theorem KeyByKey.iff_faces {objects : PyDict → PyDict → Prop} {values : PyVal → PyVal → Prop}
    (walk : KeyByKey objects values) (superset subset : PyDict) :
    objects superset subset ↔
      ¬ Lacks superset subset ∧ ∀ found value, Faces superset subset found value → values found value := by
  rw [walk.objects_iff]
  constructor
  · intro holds
    refine ⟨fun lacks => ?_, fun found value faces => ?_⟩
    · cases lacks with
      | here listed absent =>
        obtain ⟨found, present, _⟩ := holds _ listed
        rw [absent] at present
        cases present
      | @inside _ _ inner wanted key listed found lacks =>
        obtain ⟨found', present, inside⟩ := holds _ listed
        cases Option.some.inj (found.symm.trans present)
        have smaller := PyDict.sizeOf_item_lt listed
        exact ((walk.iff_faces inner wanted).mp (walk.descends.mp inside)).1 lacks
    · cases faces with
      | here listed present leaf =>
        obtain ⟨found', present', inside⟩ := holds _ listed
        cases Option.some.inj (present.symm.trans present')
        exact inside
      | @inside _ _ inner wanted key _ _ listed present faces =>
        obtain ⟨found', present', inside⟩ := holds _ listed
        cases Option.some.inj (present.symm.trans present')
        have smaller := PyDict.sizeOf_item_lt listed
        exact ((walk.iff_faces inner wanted).mp (walk.descends.mp inside)).2 found value faces
  · rintro ⟨complete, leaves⟩ ⟨key, value⟩ listed
    cases present : superset.get? key with
    | none => exact absurd (.here listed present) complete
    | some found =>
      refine ⟨found, rfl, ?_⟩
      by_cases both : BothDicts found value
      · obtain ⟨inner, wanted, rfl, rfl⟩ := both
        have smaller := PyDict.sizeOf_item_lt listed
        refine walk.descends.mpr ((walk.iff_faces inner wanted).mpr ⟨fun lacks => ?_, fun found value faces => ?_⟩)
        · exact complete (.inside listed present lacks)
        · exact leaves found value (.inside listed present faces)
      · exact leaves found value (.here listed present both)
termination_by sizeOf subset

theorem isJsonbContained_iff (superset subset : PyDict) : isJsonbContained superset subset = true ↔
    ∀ item ∈ subset, ∃ found, superset.get? item.1 = some found ∧ isValueContained found item.2 = true := by
  induction subset with
  | nil => exact ⟨fun _ item member => absurd member List.not_mem_nil, fun _ => rfl⟩
  | cons item subset ih =>
    obtain ⟨key, value⟩ := item
    rw [isJsonbContained, Bool.and_eq_true, ih, List.forall_mem_cons]
    refine and_congr_left (fun _ => ?_)
    cases superset.get? key <;> simp

theorem containsItems_iff (superset subset : PyDict) : containsItems superset subset = true ↔
    ∀ item ∈ subset, ∃ found, superset.get? item.1 = some found ∧ jsonContains found item.2 = true := by
  induction subset with
  | nil => exact ⟨fun _ item member => absurd member List.not_mem_nil, fun _ => rfl⟩
  | cons item subset ih =>
    obtain ⟨key, value⟩ := item
    rw [containsItems, Bool.and_eq_true, ih, List.forall_mem_cons]
    refine and_congr_left (fun _ => ?_)
    cases superset.get? key <;> simp

theorem keyByKey_code : KeyByKey (fun superset subset => isJsonbContained superset subset = true)
    (fun found value => isValueContained found value = true) where
  objects_iff := isJsonbContained_iff _ _
  descends := Iff.rfl

theorem keyByKey_jsonb : KeyByKey (fun superset subset => containsItems superset subset = true)
    (fun found value => jsonContains found value = true) where
  objects_iff := containsItems_iff _ _
  descends := Iff.rfl

/-- What is not descended into is compared with `==`. -/
theorem isValueContained_leaf {found value : PyVal} (leaf : ¬ BothDicts found value) :
    isValueContained found value = found.pyEq value := by
  cases value with
  | dict wanted =>
    cases found with
    | dict inner => exact absurd ⟨inner, wanted, rfl, rfl⟩ leaf
    | _ => rfl
  | _ => rfl

theorem Faces.leaf {superset subset : PyDict} {found value : PyVal} (faces : Faces superset subset found value) :
    ¬ BothDicts found value := by
  induction faces with
  | here _ _ leaf => exact leaf
  | inside _ _ _ ih => exact ih

def EqualOnly (found value : PyVal) : Prop := found.pyEq value = true ∧ ¬ jsonContains found value = true

def ContainedOnly (found value : PyVal) : Prop := jsonContains found value = true ∧ ¬ found.pyEq value = true

/-- Every two values that face each other pass one of the two comparisons when
none fails both and none passes only the other. -/
theorem forall_iff_not_exists {faces equal contained : PyVal → PyVal → Prop} :
    (∀ found value, faces found value → equal found value) ↔
      ¬ (∃ found value, faces found value ∧ ¬ equal found value ∧ ¬ contained found value) ∧
      ¬ ∃ found value, faces found value ∧ contained found value ∧ ¬ equal found value := by
  constructor
  · intro all
    refine ⟨?_, ?_⟩
    · rintro ⟨found, value, met, differs, _⟩
      exact differs (all found value met)
    · rintro ⟨found, value, met, _, differs⟩
      exact differs (all found value met)
  · rintro ⟨noneNeither, noneOther⟩ found value met
    by_contra differs
    by_cases within : contained found value
    · exact noneOther ⟨found, value, met, within, differs⟩
    · exact noneNeither ⟨found, value, met, differs, within⟩

/-- Two comparisons of everything agree when something fails both, or when each
alone or neither alone fails somewhere. -/
theorem forall_agree_iff {faces equal contained : PyVal → PyVal → Prop} :
    ((∀ found value, faces found value → equal found value) ↔
      ∀ found value, faces found value → contained found value) ↔
      (∃ found value, faces found value ∧ ¬ equal found value ∧ ¬ contained found value) ∨
      ((∃ found value, faces found value ∧ equal found value ∧ ¬ contained found value) ↔
        ∃ found value, faces found value ∧ contained found value ∧ ¬ equal found value) := by
  have byEquality := @forall_iff_not_exists faces equal contained
  have byContainment := @forall_iff_not_exists faces contained equal
  have same : (∃ found value, faces found value ∧ ¬ contained found value ∧ ¬ equal found value) ↔
      ∃ found value, faces found value ∧ ¬ equal found value ∧ ¬ contained found value :=
    exists₂_congr (fun _ _ => and_congr_right (fun _ => and_comm))
  rw [byEquality, byContainment, same]
  by_cases neither : ∃ found value, faces found value ∧ ¬ equal found value ∧ ¬ contained found value
  · exact iff_of_true (iff_of_false (fun both => both.1 neither) (fun both => both.1 neither)) (.inl neither)
  · rw [and_iff_right neither, and_iff_right neither, or_iff_right neither, not_iff_not]
    exact iff_comm

theorem isJsonbContained_agrees_iff (superset subset : PyDict) :
    isJsonbContained superset subset = jsonContains (.dict superset) (.dict subset) ↔
      Lacks superset subset ∨
      (∃ found value, Faces superset subset found value ∧ ¬ found.pyEq value = true ∧
        ¬ jsonContains found value = true) ∨
      ((∃ found value, Faces superset subset found value ∧ EqualOnly found value) ↔
        ∃ found value, Faces superset subset found value ∧ ContainedOnly found value) := by
  have code : isJsonbContained superset subset = true ↔ ¬ Lacks superset subset ∧
      ∀ found value, Faces superset subset found value → found.pyEq value = true := by
    rw [keyByKey_code.iff_faces superset subset]
    refine and_congr_right (fun _ => forall₃_congr (fun found value faces => ?_))
    rw [isValueContained_leaf faces.leaf]
  have jsonb := keyByKey_jsonb.iff_faces superset subset
  change isJsonbContained superset subset = containsItems superset subset ↔ _
  rw [Bool.eq_iff_iff, code, jsonb]
  by_cases lacks : Lacks superset subset
  · exact iff_of_true (iff_of_false (fun both => both.1 lacks) (fun both => both.1 lacks)) (.inl lacks)
  · rw [and_iff_right lacks, and_iff_right lacks, or_iff_right lacks]
    exact forall_agree_iff

/-- An array that holds more than the other is contained in Postgres only. -/
theorem isJsonbContained_not_jsonb :
    ¬ ∀ superset subset : PyDict, isJsonbContained superset subset = jsonContains (.dict superset) (.dict subset) := by
  intro agrees
  have tags := agrees [("tags", .list [.str "a", .str "b"])] [("tags", .list [.str "a"])]
  cases tags

end InmemRuntime
