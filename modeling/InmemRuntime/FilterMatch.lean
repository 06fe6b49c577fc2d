import InmemRuntime.Filters

namespace InmemRuntime

theorem PyDict.sizeOf_get?_lt {items : PyDict} {key : String} {value : PyVal}
    (found : items.get? key = some value) : sizeOf value < sizeOf items := by
  induction items with
  | nil => cases found
  | cons item items ih =>
    obtain ⟨key', value'⟩ := item
    simp only [PyDict.get?, List.lookup_cons] at found ih
    split at found
    · cases found
      simp only [List.cons.sizeOf_spec, Prod.mk.sizeOf_spec]
      omega
    · have smaller := ih found
      simp only [List.cons.sizeOf_spec]
      omega

theorem PyDict.sizeOf_group_lt {items : PyDict} {key : String} {groups : List PyVal} {group : PyVal}
    (found : items.get? key = some (.list groups)) (member : group ∈ groups) :
    sizeOf group < sizeOf (PyVal.dict items) := by
  have inList := List.sizeOf_lt_of_mem member
  have inItems := PyDict.sizeOf_get?_lt found
  simp only [PyVal.list.sizeOf_spec, PyVal.dict.sizeOf_spec] at inItems ⊢
  omega

/-- What a filter means, over the meaning of one plain entry: some group of
`$or`, every group of `$and` and every entry beside them. -/
def FilterHolds (entry : String × PyVal → Prop) : PyVal → Prop
  | .dict items =>
    (∀ groups, (_found : PyDict.get? items "$or" = some (.list groups)) →
      ∃ group, ∃ _member : group ∈ groups, FilterHolds entry group) ∧
    (∀ groups, (_found : PyDict.get? items "$and" = some (.list groups)) →
      ∀ group, (_member : group ∈ groups) → FilterHolds entry group) ∧
    ∀ item ∈ items, item.1 ≠ "$or" → item.1 ≠ "$and" → entry item
  | _ => True
termination_by filters => sizeOf filters
decreasing_by
  · exact PyDict.sizeOf_group_lt _found _member
  · exact PyDict.sizeOf_group_lt _found _member

section Meaning

variable {entry : String × PyVal → Prop}

theorem FilterHolds.mono {entry' : String × PyVal → Prop} (weaker : ∀ item, entry item → entry' item)
    (filters : PyVal) (holds : FilterHolds entry filters) : FilterHolds entry' filters := by
  induction filters using FilterHolds.induct with
  | case1 items orGroups andGroups =>
    rw [FilterHolds] at holds ⊢
    obtain ⟨some', all, plain⟩ := holds
    refine ⟨fun groups found => ?_, fun groups found group member => ?_, fun item member noOr noAnd =>
      weaker item (plain item member noOr noAnd)⟩
    · obtain ⟨group, member, inside⟩ := some' groups found
      exact ⟨group, member, orGroups groups found group member inside⟩
    · exact andGroups groups found group member (all groups found group member)
  | case2 filters notDict => rw [FilterHolds] <;> trivial

theorem remainingFilters_get? (items : PyDict) (operator key : String) :
    PyDict.get? (remainingFilters items operator) key =
      if key = operator then none else items.get? key := by
  induction items with
  | nil => simp [remainingFilters, PyDict.get?]
  | cons item items ih =>
    obtain ⟨key', value⟩ := item
    simp only [remainingFilters, PyDict.get?, List.filter_cons] at ih ⊢
    by_cases dropped : key' = operator
    · subst key'
      by_cases same : key = operator
      · subst key
        simpa using fun _ _ _ other same => other same.symm
      · have differs : (key == operator) = false := by simpa using same
        simpa [same, List.lookup_cons, differs] using ih
    · by_cases same : key = key'
      · subst key
        simp [dropped]
      · have differs : (key == key') = false := by simpa using same
        simpa [dropped, List.lookup_cons, differs] using ih

theorem mem_remainingFilters {items : PyDict} {operator : String} {item : String × PyVal} :
    item ∈ remainingFilters items operator ↔ item ∈ items ∧ item.1 ≠ operator := by
  simp [remainingFilters]

theorem filterHolds_or {items : PyDict} {groups : List PyVal}
    (found : items.get? "$or" = some (.list groups)) :
    FilterHolds entry (.dict items) ↔
      (∃ group ∈ groups, FilterHolds entry group) ∧
        FilterHolds entry (.dict (remainingFilters items "$or")) := by
  rw [FilterHolds, FilterHolds]
  simp only [remainingFilters_get?, mem_remainingFilters, found, Option.some.injEq, PyVal.list.injEq,
    if_true, reduceCtorEq, false_imp_iff, implies_true, true_and, forall_eq', exists_prop,
    show ("$and" : String) ≠ "$or" by decide +kernel, if_false, and_imp]
  refine and_congr_right' (and_congr_right' ⟨fun plain item member noOr => ?_, fun plain item member noOr => ?_⟩)
  · exact fun _ noAnd => plain item member noOr noAnd
  · exact fun noAnd => plain item member noOr noOr noAnd

theorem filterHolds_and {items : PyDict} {groups : List PyVal} (noOr : items.get? "$or" = none)
    (found : items.get? "$and" = some (.list groups)) :
    FilterHolds entry (.dict items) ↔
      (∀ group ∈ groups, FilterHolds entry group) ∧
        FilterHolds entry (.dict (remainingFilters items "$and")) := by
  rw [FilterHolds, FilterHolds]
  simp only [remainingFilters_get?, mem_remainingFilters, found, noOr, Option.some.injEq,
    PyVal.list.injEq, if_true, reduceCtorEq, false_imp_iff, implies_true, true_and, forall_eq',
    show ("$or" : String) ≠ "$and" by decide +kernel, if_false, and_imp]
  refine and_congr_right' ⟨fun plain item member noAnd notOr _ => plain item member notOr noAnd,
    fun plain item member notOr noAnd => plain item member noAnd notOr noAnd⟩

theorem filterHolds_plain {items : PyDict} (noOr : items.get? "$or" = none)
    (noAnd : items.get? "$and" = none) :
    FilterHolds entry (.dict items) ↔ ∀ item ∈ items, entry item := by
  have absent : ∀ {key : String}, items.get? key = none → ∀ item ∈ items, item.1 ≠ key := by
    intro key missing item member same
    exact absurd missing (by simpa [PyDict.get?] using ⟨item.2, same ▸ member⟩)
  rw [FilterHolds]
  simp only [noOr, noAnd, reduceCtorEq, false_imp_iff, implies_true, true_and]
  exact ⟨fun plain item member => plain item member (absent noOr item member) (absent noAnd item member),
    fun plain item member _ _ => plain item member⟩

end Meaning

/-- The key is present with an equal value. -/
def PresentEqual (stored : Option PyVal) (value : PyVal) : Prop :=
  ∃ found, stored = some found ∧ found.pyEq value = true

/-- `value in elements`, of each element when the operand is a list. -/
def ElementsHold (elements : List PyVal) : PyVal → Prop
  | .list wanted => ∀ w ∈ wanted, ∃ element ∈ elements, w.pyEq element = true
  | value => ∃ element ∈ elements, value.pyEq element = true

def OperatorHolds (stored : Option PyVal) (operator : String × PyVal) : Prop :=
  operator.1 = "$eq" ∧ PresentEqual stored operator.2 ∨
    operator.1 = "$contains" ∧ ∃ elements, stored = some (.list elements) ∧ ElementsHold elements operator.2

/-- A plain entry, or an operator dict all of whose operators are known and hold. -/
def EntryHolds (metadata : PyDict) (item : String × PyVal) : Prop :=
  match item.2 with
  | .dict operators => ∀ operator ∈ operators, OperatorHolds (metadata.get? item.1) operator
  | value => PresentEqual (metadata.get? item.1) value

/-- The same with one operator read of an operator dict, and an unknown one passing. -/
def FirstOperatorHolds (metadata : PyDict) (item : String × PyVal) : Prop :=
  match item.2 with
  | .dict operators => ∀ operator ∈ operators.head?,
      operator.1 = "$eq" ∨ operator.1 = "$contains" → OperatorHolds (metadata.get? item.1) operator
  | value => PresentEqual (metadata.get? item.1) value

theorem EntryHolds.first {metadata : PyDict} {item : String × PyVal} (holds : EntryHolds metadata item) :
    FirstOperatorHolds metadata item := by
  obtain ⟨key, value⟩ := item
  cases value with
  | dict operators => exact fun operator head _ => holds operator (List.mem_of_mem_head? head)
  | _ => exact holds

theorem equalsOperand_iff {stored : Option PyVal} {operand : PyVal} :
    equalsOperand stored operand = true ↔ PresentEqual stored operand := by
  cases stored <;> simp [equalsOperand, PresentEqual]

theorem containsOperand_iff {stored : Option PyVal} {operand : PyVal} :
    containsOperand stored operand = true ↔
      ∃ elements, stored = some (.list elements) ∧ ElementsHold elements operand := by
  unfold containsOperand
  split
  · rename_i elements
    cases operand <;> simp [ElementsHold]
  · rename_i notList
    simp only [Bool.false_eq_true, false_iff, not_exists, not_and]
    exact fun elements isList => (notList elements isList).elim

section Reading

variable {metadata : PyDict} {matched : Bool}

theorem matchesEntry_iff {item : String × PyVal} (returned : matchesEntry metadata item = .ok matched) :
    matched = true ↔ FirstOperatorHolds metadata item := by
  obtain ⟨key, value⟩ := item
  unfold matchesEntry at returned
  split at returned
  · cases returned
  · rename_i op operand rest isDict
    simp only at isDict
    subst isDict
    have head : FirstOperatorHolds metadata (key, .dict ((op, operand) :: rest)) ↔
        (op = "$eq" ∨ op = "$contains" → OperatorHolds (metadata.get? key) (op, operand)) := by
      simp [FirstOperatorHolds]
    rw [head]
    split at returned
    · rename_i isEq
      cases returned
      simp [isEq, OperatorHolds, equalsOperand_iff]
    · rename_i notEq
      split at returned
      · rename_i isContains
        cases returned
        simp [isContains, OperatorHolds, containsOperand_iff]
      · rename_i notContains
        cases returned
        simp [notEq, notContains]
  · rename_i notEmpty notDict
    cases returned
    rw [equalsOperand_iff]
    cases value with
    | dict operators =>
      cases operators with
      | nil => exact (notEmpty rfl).elim
      | cons operator rest => exact (notDict operator.1 operator.2 rest rfl).elim
    | _ => rfl

theorem matchesEntries_iff {items : PyDict} (returned : matchesEntries metadata items = .ok matched) :
    matched = true ↔ ∀ item ∈ items, FirstOperatorHolds metadata item := by
  induction items with
  | nil => cases returned; simp
  | cons item items ih =>
    rw [matchesEntries] at returned
    obtain ⟨passes, entry, rest⟩ := bind_ok returned
    have first := matchesEntry_iff entry
    cases passes with
    | true =>
      rw [List.forall_mem_cons, ih rest]
      exact ⟨fun others => ⟨first.mp rfl, others⟩, fun all => all.2⟩
    | false =>
      cases rest
      simp only [Bool.false_eq_true, List.forall_mem_cons, false_iff, not_and]
      exact fun holds => absurd (first.mpr holds) (by decide)

section Groups

variable {test : PyVal → Except PyError Bool} {meaning : PyVal → Prop}

/-- A test that returned has told whether the filter holds. -/
def Decides (test : PyVal → Except PyError Bool) (meaning : PyVal → Prop) : Prop :=
  ∀ filters matched, test filters = .ok matched → (matched = true ↔ meaning filters)

theorem anyGroup_iff (decides : Decides test meaning) {groups : List PyVal}
    (returned : anyGroup test groups = .ok matched) : matched = true ↔ ∃ group ∈ groups, meaning group := by
  induction groups with
  | nil => cases returned; simp
  | cons group groups ih =>
    rw [anyGroup] at returned
    obtain ⟨passes, tested, rest⟩ := bind_ok returned
    have first := decides group passes tested
    simp only [List.mem_cons, exists_eq_or_imp]
    cases passes with
    | true => cases rest; simp [first.mp rfl]
    | false =>
      have fails : ¬ meaning group := fun holds => absurd (first.mpr holds) (by decide)
      simp only [fails, false_or]
      exact ih rest

theorem allGroups_iff (decides : Decides test meaning) {groups : List PyVal}
    (returned : allGroups test groups = .ok matched) : matched = true ↔ ∀ group ∈ groups, meaning group := by
  induction groups with
  | nil => cases returned; simp
  | cons group groups ih =>
    rw [allGroups] at returned
    obtain ⟨passes, tested, rest⟩ := bind_ok returned
    have first := decides group passes tested
    rw [List.forall_mem_cons]
    cases passes with
    | true =>
      simp only [first.mp rfl, true_and]
      exact ih rest
    | false =>
      cases rest
      have fails : ¬ meaning group := fun holds => absurd (first.mpr holds) (by decide)
      simp [fails]

theorem operatorGroups_ok {items : PyDict} {operator : String} {groups : List PyVal}
    (returned : operatorGroups items operator = .ok groups) : items.get? operator = some (.list groups) := by
  unfold operatorGroups at returned
  split at returned
  · rename_i found
    split at returned
    · cases returned; exact found
    · cases returned
  · cases returned

/-- The branch of one operator, given what combining its groups means. -/
theorem checkOperator_iff {entry : String × PyVal → Prop} (decides : Decides test (FilterHolds entry))
    {validate : PyVal → Except PyError Unit} {operator : String} {items : PyDict} {some' : List PyVal → Prop}
    {combine : (PyVal → Except PyError Bool) → List PyVal → Except PyError Bool}
    (combined : ∀ groups matched, combine test groups = .ok matched → (matched = true ↔ some' groups))
    (meaning : ∀ groups, items.get? operator = some (.list groups) →
      (FilterHolds entry (.dict items) ↔
        some' groups ∧ FilterHolds entry (.dict (remainingFilters items operator))))
    (returned : checkOperator validate test combine items operator = .ok matched) :
    matched = true ↔ FilterHolds entry (.dict items) := by
  rw [checkOperator] at returned
  obtain ⟨groups, listed, returned⟩ := bind_ok returned
  obtain ⟨_, _, returned⟩ := bind_ok returned
  obtain ⟨passes, tested, returned⟩ := bind_ok returned
  rw [meaning groups (operatorGroups_ok listed)]
  have grouped := combined groups passes tested
  cases passes with
  | false =>
    cases returned
    have fails : ¬ some' groups := fun holds => absurd (grouped.mpr holds) (by decide)
    simp [fails]
  | true =>
    simp only [grouped.mp rfl, true_and]
    simp only [if_true] at returned
    split at returned
    · rename_i none'
      cases returned
      rw [List.isEmpty_iff.mp none', filterHolds_plain rfl rfl]
      simp
    · exact decides _ _ returned

end Groups

theorem checkFilterMatchAt_iff (metadata : PyDict) (levels : Nat) :
    Decides (checkFilterMatchAt metadata levels) (FilterHolds (FirstOperatorHolds metadata)) := by
  induction levels with
  | zero => intro filters matched returned; cases returned
  | succ levels ih =>
    intro filters matched returned
    cases filters with
    | dict items =>
      simp only [checkFilterMatchAt] at returned
      split at returned
      · obtain ⟨hasOr, searchedOr, returned⟩ := bind_ok returned
        cases searchedOr
        split at returned
        · exact checkOperator_iff ih (fun _ _ => anyGroup_iff ih) (fun _ => filterHolds_or) returned
        · rename_i noOr
          obtain ⟨hasAnd, searchedAnd, returned⟩ := bind_ok returned
          cases searchedAnd
          have withoutOr : PyDict.get? items "$or" = none := by simpa [PyDict.hasKey] using noOr
          split at returned
          · exact checkOperator_iff ih (fun _ _ => allGroups_iff ih)
              (fun _ => filterHolds_and withoutOr) returned
          · rename_i noAnd
            have withoutAnd : PyDict.get? items "$and" = none := by simpa [PyDict.hasKey] using noAnd
            rw [filterHolds_plain withoutOr withoutAnd]
            exact matchesEntries_iff returned
      · rename_i falsy
        cases returned
        have empty : items = [] := by simpa [PyVal.truthy] using falsy
        rw [empty, filterHolds_plain rfl rfl]
        simp
    | _ =>
      -- what is not a dict either has no entries or ends the check with an error
      simp only [checkFilterMatchAt] at returned
      split at returned
      · obtain ⟨hasOr, _, returned⟩ := bind_ok returned
        split at returned
        · cases returned
        · obtain ⟨hasAnd, _, returned⟩ := bind_ok returned
          split at returned <;> cases returned
      · cases returned
        simp [FilterHolds]

end Reading

/-- The check returns whether the filter holds exactly when reading the first
operator of each operator dict only, and passing an unknown one, does not
make it hold. -/
theorem checkFilterMatch_exact_iff {metadata : PyDict} {filters : PyVal} {matched : Bool}
    (returned : checkFilterMatch metadata filters = .ok matched) :
    (matched = true ↔ FilterHolds (EntryHolds metadata) filters) ↔
      (FilterHolds (FirstOperatorHolds metadata) filters → FilterHolds (EntryHolds metadata) filters) := by
  have read := checkFilterMatchAt_iff metadata 3 filters matched returned
  have weaker : FilterHolds (EntryHolds metadata) filters → FilterHolds (FirstOperatorHolds metadata) filters :=
    FilterHolds.mono (fun _ => EntryHolds.first) filters
  rw [read]
  exact ⟨Iff.mp, fun exact' => ⟨exact', weaker⟩⟩

theorem checkFilterMatch_exact_owner :
    (true = true ↔ FilterHolds (EntryHolds [("owner", .str "alice")])
        (.dict [("owner", .dict [("$eq", .str "alice")])])) ↔
      (FilterHolds (FirstOperatorHolds [("owner", .str "alice")])
          (.dict [("owner", .dict [("$eq", .str "alice")])]) →
        FilterHolds (EntryHolds [("owner", .str "alice")])
          (.dict [("owner", .dict [("$eq", .str "alice")])])) :=
  checkFilterMatch_exact_iff rfl

/-- A thread without an owner passes a filter for one other than alice. -/
theorem checkFilterMatch_not_exact :
    ¬ ∀ (metadata : PyDict) (filters : PyVal) (matched : Bool),
      checkFilterMatch metadata filters = .ok matched →
        (matched = true ↔ FilterHolds (EntryHolds metadata) filters) := by
  intro exact'
  have holds := (exact' [] (.dict [("owner", .dict [("$ne", .str "alice")])]) true rfl).mp rfl
  rw [filterHolds_plain rfl rfl] at holds
  have known := holds _ (List.mem_singleton_self _) _ (List.mem_singleton_self _)
  simp [OperatorHolds] at known

/-- A property of the plain entries of a filter and of all its groups. -/
def EveryEntry (entry : String × PyVal → Prop) : PyVal → Prop
  | .dict items =>
    (∀ groups, (_found : PyDict.get? items "$or" = some (.list groups)) →
      ∀ group, (_member : group ∈ groups) → EveryEntry entry group) ∧
    (∀ groups, (_found : PyDict.get? items "$and" = some (.list groups)) →
      ∀ group, (_member : group ∈ groups) → EveryEntry entry group) ∧
    ∀ item ∈ items, item.1 ≠ "$or" → item.1 ≠ "$and" → entry item
  | _ => True
termination_by filters => sizeOf filters
decreasing_by
  · exact PyDict.sizeOf_group_lt _found _member
  · exact PyDict.sizeOf_group_lt _found _member

/-- An operator dict holds one operator, a known one. -/
def SingleOperator (item : String × PyVal) : Prop :=
  ∀ operators, item.2 = .dict operators →
    ∃ operator, operators = [operator] ∧ (operator.1 = "$eq" ∨ operator.1 = "$contains")

theorem SingleOperator.entryHolds {metadata : PyDict} {item : String × PyVal} (single : SingleOperator item)
    (first : FirstOperatorHolds metadata item) : EntryHolds metadata item := by
  obtain ⟨key, value⟩ := item
  cases value with
  | dict operators =>
    obtain ⟨operator, only, known⟩ := single operators rfl
    subst only
    intro operator' member
    rw [List.mem_singleton.mp member]
    exact first operator rfl known
  | _ => exact first

/-- A filter whose operator dicts each hold one known operator is read exactly. -/
theorem EveryEntry.holds {metadata : PyDict} (filters : PyVal) (single : EveryEntry SingleOperator filters)
    (first : FilterHolds (FirstOperatorHolds metadata) filters) :
    FilterHolds (EntryHolds metadata) filters := by
  induction filters using FilterHolds.induct with
  | case1 items orGroups andGroups =>
    rw [FilterHolds] at first ⊢
    rw [EveryEntry] at single
    obtain ⟨some', all, plain⟩ := first
    obtain ⟨singleOr, singleAnd, singlePlain⟩ := single
    refine ⟨fun groups found => ?_, fun groups found group member => ?_, fun item member noOr noAnd => ?_⟩
    · obtain ⟨group, member, inside⟩ := some' groups found
      exact ⟨group, member, orGroups groups found group member (singleOr groups found group member) inside⟩
    · exact andGroups groups found group member (singleAnd groups found group member)
        (all groups found group member)
    · exact (singlePlain item member noOr noAnd).entryHolds (plain item member noOr noAnd)
  | case2 filters notDict => rw [FilterHolds] <;> trivial

end InmemRuntime
