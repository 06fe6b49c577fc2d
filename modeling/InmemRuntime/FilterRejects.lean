import InmemRuntime.FilterMatch

namespace InmemRuntime

/-- Groups are read in turn, and the first that reads as `stop` decides. -/
inductive ReadsUntil (reads : PyVal → Bool → Prop) (stop : Bool) : List PyVal → Bool → Prop
  | ended : ReadsUntil reads stop [] !stop
  | stops {group groups} (read : reads group stop) : ReadsUntil reads stop (group :: groups) stop
  | next {group groups matched} (read : reads group !stop) (later : ReadsUntil reads stop groups matched) :
      ReadsUntil reads stop (group :: groups) matched

/-- Reading a filter, with no limit on the nesting: the groups of `$or`, then
those of `$and`, then the entries beside them. A reading that raises has no result. -/
inductive Reads (metadata : PyDict) : PyVal → Bool → Prop
  | falsy {filters} (empty : filters.truthy = false) : Reads metadata filters true
  | plain {items matched} (noOr : PyDict.hasKey items "$or" = false) (noAnd : PyDict.hasKey items "$and" = false)
      (entries : matchesEntries metadata items = .ok matched) : Reads metadata (.dict items) matched
  | or {items groups matched} (found : PyDict.get? items "$or" = some (.list groups))
      (some : ReadsUntil (Reads metadata) true groups true)
      (rest : Reads metadata (.dict (remainingFilters items "$or")) matched) : Reads metadata (.dict items) matched
  | orFails {items groups} (found : PyDict.get? items "$or" = some (.list groups))
      (none : ReadsUntil (Reads metadata) true groups false) : Reads metadata (.dict items) false
  | and {items groups matched} (noOr : PyDict.hasKey items "$or" = false)
      (found : PyDict.get? items "$and" = some (.list groups)) (all : ReadsUntil (Reads metadata) false groups true)
      (rest : Reads metadata (.dict (remainingFilters items "$and")) matched) : Reads metadata (.dict items) matched
  | andFails {items groups} (noOr : PyDict.hasKey items "$or" = false)
      (found : PyDict.get? items "$and" = some (.list groups))
      (one : ReadsUntil (Reads metadata) false groups false) : Reads metadata (.dict items) false

section Groups

variable {test : PyVal → Except PyError Bool} {reads : PyVal → Bool → Prop} {groups : List PyVal} {matched stop : Bool}

theorem loop_reads (tests : ∀ group ∈ groups, ∀ b, test group = .ok b ↔ reads group b)
    {loop : List PyVal → Except PyError Bool} (nil : loop [] = .ok !stop)
    (cons : ∀ group groups, loop (group :: groups) = test group >>= fun b => if b = stop then .ok stop else loop groups) :
    loop groups = .ok matched ↔ ReadsUntil reads stop groups matched := by
  induction groups with
  | nil =>
    rw [nil]
    constructor
    · intro returned
      cases returned
      exact .ended
    · intro read
      cases read
      rfl
  | cons group groups ih =>
    have first := tests group List.mem_cons_self
    have rest := ih (fun g member => tests g (List.mem_cons_of_mem _ member))
    rw [cons]
    constructor
    · intro returned
      obtain ⟨passes, tested, returned⟩ := bind_ok returned
      by_cases stops : passes = stop
      · rw [if_pos stops] at returned
        rw [← Except.ok.inj returned]
        exact .stops ((first stop).mp (stops ▸ tested))
      · rw [if_neg stops] at returned
        exact .next ((first (!stop)).mp (Bool.eq_not_of_ne stops ▸ tested)) (rest.mp returned)
    · intro read
      cases read with
      | stops read =>
        rw [(first matched).mpr read, ok_bind, if_pos rfl]
      | next read later =>
        rw [(first (!stop)).mpr read, ok_bind, if_neg (by cases stop <;> decide)]
        exact rest.mpr later

theorem anyGroup_reads (tests : ∀ group ∈ groups, ∀ b, test group = .ok b ↔ reads group b) :
    anyGroup test groups = .ok matched ↔ ReadsUntil reads true groups matched := loop_reads tests rfl (fun _ _ => rfl)

theorem allGroups_reads (tests : ∀ group ∈ groups, ∀ b, test group = .ok b ↔ reads group b) :
    allGroups test groups = .ok matched ↔ ReadsUntil reads false groups matched := by
  refine loop_reads tests rfl (fun group groups => ?_)
  rw [allGroups]
  congr 1
  funext b
  cases b <;> rfl

end Groups

/-- The errors about the structure of a filter. -/
inductive Structural : PyError → Prop
  | tooManyNested : Structural tooManyNested
  | invalidOperator (operator : String) : Structural (invalidOperator operator)

def Rejected {α : Type} (result : Except PyError α) : Prop := ∃ e, Structural e ∧ result = .error e

theorem not_rejected_ok {α : Type} (value : α) : ¬ Rejected (Except.ok value : Except PyError α) := by
  rintro ⟨e, _, raised⟩
  cases raised

theorem not_rejected_error {α : Type} {e : PyError} (other : ¬ Structural e) :
    ¬ Rejected (Except.error e : Except PyError α) := by
  rintro ⟨e', structural, raised⟩
  cases raised
  exact other structural

theorem rejected_bind {α β : Type} {first : Except PyError α} {next : α → Except PyError β} :
    Rejected (first >>= next) ↔ Rejected first ∨ ∃ value, first = .ok value ∧ Rejected (next value) := by
  cases first with
  | error e =>
    constructor
    · rintro ⟨e', structural, raised⟩
      cases raised
      exact .inl ⟨e, structural, rfl⟩
    · rintro (⟨e', structural, raised⟩ | ⟨value, returned, _⟩)
      · cases raised
        exact ⟨e, structural, rfl⟩
      · cases returned
  | ok value =>
    constructor
    · exact fun later => .inr ⟨value, rfl, later⟩
    · rintro (none | ⟨value', returned, later⟩)
      · exact absurd none (not_rejected_ok value)
      · cases returned
        exact later

section Validation

variable {items : PyDict} {operator : String} {levels : Nat}

theorem forM_ok {validate : PyVal → Except PyError Unit} {groups : List PyVal} (valid : groups.forM validate = .ok ()) :
    ∀ group ∈ groups, validate group = .ok () := by
  induction groups with
  | nil => exact fun group member => absurd member List.not_mem_nil
  | cons group groups ih =>
    obtain ⟨_, first, rest⟩ := bind_ok valid
    exact List.forall_mem_cons.mpr ⟨first, ih rest⟩

/-- An operator's groups, found and all valid. -/
structure GroupsValid (levels : Nat) (items : PyDict) (operator : String) (groups : List PyVal) : Prop where
  listed : operatorGroups items operator = .ok groups
  valid : groups.forM (validateFilterStructure levels) = .ok ()

namespace GroupsValid

variable {groups : List PyVal} (own : GroupsValid levels items operator groups)

include own

theorem found : items.get? operator = some (.list groups) := operatorGroups_ok own.listed

/-- No group is valid where the nesting is exhausted. -/
theorem exists_level : ∃ n, levels = n + 1 := by
  cases levels with
  | succ n => exact ⟨n, rfl⟩
  | zero =>
    have two : 2 ≤ groups.length := by
      have listed := own.listed
      simp only [operatorGroups, own.found] at listed
      by_contra short
      rw [if_neg short] at listed
      cases listed
    cases groups with
    | nil => cases two
    | cons group groups => cases forM_ok own.valid group List.mem_cons_self

/-- What stands beside the groups is checked whether it is empty or not. -/
theorem checkOperator_eq (metadata : PyDict) (combine : (PyVal → Except PyError Bool) → List PyVal → Except PyError Bool) :
    checkOperator (validateFilterStructure levels) (checkFilterMatchAt metadata levels) combine items operator =
      combine (checkFilterMatchAt metadata levels) groups >>= fun passes =>
        if passes then checkFilterMatchAt metadata levels (.dict (remainingFilters items operator)) else .ok false := by
  obtain ⟨n, level⟩ := own.exists_level
  rw [checkOperator, own.listed, ok_bind, own.valid, ok_bind]
  congr 1
  funext passes
  cases passes with
  | false => rfl
  | true =>
    rw [if_pos rfl]
    cases rest : remainingFilters items operator with
    | nil => rw [level]; rfl
    | cons item rest => rfl

theorem validateOperator_eq (present : items.hasKey operator = true) :
    validateOperator (validateFilterStructure levels) (.dict items) operator =
      validateFilterStructure levels (.dict (remainingFilters items operator)) := by
  obtain ⟨n, level⟩ := own.exists_level
  rw [validateOperator, PyVal.contains, ok_bind, if_pos present, own.listed, ok_bind, own.valid, ok_bind]
  cases rest : remainingFilters items operator with
  | nil => rw [level]; rfl
  | cons item rest => rfl

end GroupsValid

theorem validateOperator_absent {validate : PyVal → Except PyError Unit} (absent : items.hasKey operator = false) :
    validateOperator validate (.dict items) operator = .ok () := by
  rw [validateOperator, PyVal.contains, ok_bind, absent]
  rfl

theorem validateOperator_ok (valid : validateOperator (validateFilterStructure levels) (.dict items) operator = .ok ())
    (present : items.hasKey operator = true) :
    ∃ groups, GroupsValid levels items operator groups ∧
      validateFilterStructure levels (.dict (remainingFilters items operator)) = .ok () := by
  have whole := valid
  rw [validateOperator, PyVal.contains, ok_bind, if_pos present] at valid
  obtain ⟨groups, listed, valid⟩ := bind_ok valid
  obtain ⟨_, every, _⟩ := bind_ok valid
  have own : GroupsValid levels items operator groups := ⟨listed, every⟩
  exact ⟨groups, own, own.validateOperator_eq present ▸ whole⟩

theorem validate_dict (levels : Nat) (items : PyDict) :
    validateFilterStructure (levels + 1) (.dict items) =
      validateOperator (validateFilterStructure levels) (.dict items) "$or" >>= fun _ =>
        validateOperator (validateFilterStructure levels) (.dict items) "$and" := by
  cases items <;> rfl

theorem check_dict (metadata : PyDict) (levels : Nat) (items : PyDict) :
    checkFilterMatchAt metadata (levels + 1) (.dict items) =
      if items.hasKey "$or" then
        checkOperator (validateFilterStructure levels) (checkFilterMatchAt metadata levels) anyGroup items "$or"
      else if items.hasKey "$and" then
        checkOperator (validateFilterStructure levels) (checkFilterMatchAt metadata levels) allGroups items "$and"
      else matchesEntries metadata items := by
  cases items <;> rfl

theorem hasKey_remaining (items : PyDict) (operator key : String) :
    PyDict.hasKey (remainingFilters items operator) key = (key ≠ operator && items.hasKey key) := by
  rw [PyDict.hasKey, remainingFilters_get?]
  by_cases same : key = operator
  · rw [if_pos same, decide_eq_false (not_not_intro same)]
    rfl
  · rw [if_neg same, decide_eq_true same]
    rfl

end Validation

theorem matchesEntries_not_rejected (metadata items : PyDict) : ¬ Rejected (matchesEntries metadata items) := by
  induction items with
  | nil => exact not_rejected_ok true
  | cons item items ih =>
    rw [matchesEntries, rejected_bind]
    rintro (first | ⟨passes, _, later⟩)
    · revert first
      unfold matchesEntry
      split
      · exact not_rejected_error (by rintro ⟨⟩)
      · split
        · exact not_rejected_ok _
        · split <;> exact not_rejected_ok _
      · exact not_rejected_ok _
    · cases passes with
      | true => exact ih later
      | false => exact not_rejected_ok false later

theorem check_other (metadata : PyDict) (levels : Nat) {filters : PyVal} (other : ∀ items, filters ≠ .dict items) :
    checkFilterMatchAt metadata (levels + 1) filters =
      if filters.truthy then
        filters.contains "$or" >>= fun hasOr => if hasOr then .error .typeError else
          filters.contains "$and" >>= fun hasAnd => if hasAnd then .error .typeError else .error .attributeError
      else .ok true := by
  cases filters with
  | dict items => exact absurd rfl (other items)
  | _ => rfl

/-- What is not a dict ends the check without a structural error. -/
theorem check_other_not_rejected (metadata : PyDict) (levels : Nat) {filters : PyVal}
    (other : ∀ items, filters ≠ .dict items) : ¬ Rejected (checkFilterMatchAt metadata (levels + 1) filters) := by
  have searched : ∀ key, ¬ Rejected (filters.contains key) := by
    intro key
    cases filters with
    | dict items => exact absurd rfl (other items)
    | str s => exact not_rejected_ok _
    | list xs => exact not_rejected_ok _
    | _ => exact not_rejected_error (by rintro ⟨⟩)
  rw [check_other metadata levels other]
  split
  · rw [rejected_bind]
    rintro (search | ⟨hasOr, _, later⟩)
    · exact searched "$or" search
    · cases hasOr with
      | true => exact not_rejected_error (by rintro ⟨⟩) later
      | false =>
        rcases rejected_bind.mp later with search | ⟨hasAnd, _, last⟩
        · exact searched "$and" search
        · cases hasAnd <;> exact not_rejected_error (by rintro ⟨⟩) last
  · exact not_rejected_ok true

/-- The loops over groups raise what the reading of a group raises. -/
theorem loop_not_rejected {test : PyVal → Except PyError Bool} {groups : List PyVal}
    (tests : ∀ group ∈ groups, ¬ Rejected (test group)) :
    ¬ Rejected (anyGroup test groups) ∧ ¬ Rejected (allGroups test groups) := by
  induction groups with
  | nil => exact ⟨not_rejected_ok false, not_rejected_ok true⟩
  | cons group groups ih =>
    have first := tests group List.mem_cons_self
    have rest := ih (fun g member => tests g (List.mem_cons_of_mem _ member))
    rw [anyGroup, allGroups, rejected_bind, rejected_bind]
    refine ⟨?_, ?_⟩
    · rintro (here | ⟨passes, _, later⟩)
      · exact first here
      · cases passes with
        | true => exact not_rejected_ok true later
        | false => exact rest.1 later
    · rintro (here | ⟨passes, _, later⟩)
      · exact first here
      · cases passes with
        | true => exact rest.2 later
        | false => exact not_rejected_ok false later

/-- The branch of one operator, whose groups and what stands beside them match or not. -/
theorem GroupsValid.not_rejected {metadata : PyDict} {levels : Nat} {items : PyDict} {operator : String}
    {groups : List PyVal} (own : GroupsValid levels items operator groups)
    {combine : (PyVal → Except PyError Bool) → List PyVal → Except PyError Bool}
    (combined : ¬ Rejected (combine (checkFilterMatchAt metadata levels) groups))
    (beside : ¬ Rejected (checkFilterMatchAt metadata levels (.dict (remainingFilters items operator)))) :
    ¬ Rejected (checkOperator (validateFilterStructure levels) (checkFilterMatchAt metadata levels) combine items
      operator) := by
  rw [own.checkOperator_eq, rejected_bind]
  rintro (here | ⟨passes, _, later⟩)
  · exact combined here
  · cases passes with
    | true => exact beside later
    | false => exact not_rejected_ok false later

/-- A filter of valid structure matches or not, or the reading of an entry raises. -/
theorem check_valid_not_rejected (metadata : PyDict) {levels : Nat} {filters : PyVal}
    (valid : validateFilterStructure levels filters = .ok ()) :
    ¬ Rejected (checkFilterMatchAt metadata levels filters) := by
  induction levels generalizing filters with
  | zero => cases valid
  | succ levels ih =>
    cases filters with
    | dict items =>
      rw [validate_dict] at valid
      obtain ⟨_, validOr, validAnd⟩ := bind_ok valid
      have groupsPass : ∀ {operator groups}, GroupsValid levels items operator groups →
          ∀ group ∈ groups, ¬ Rejected (checkFilterMatchAt metadata levels group) :=
        fun own group member => ih (forM_ok own.valid group member)
      rw [check_dict]
      split
      · rename_i present
        obtain ⟨groups, own, beside⟩ := validateOperator_ok validOr present
        exact own.not_rejected (loop_not_rejected (groupsPass own)).1 (ih beside)
      · split
        · rename_i present
          obtain ⟨groups, own, beside⟩ := validateOperator_ok validAnd present
          exact own.not_rejected (loop_not_rejected (groupsPass own)).2 (ih beside)
        · exact matchesEntries_not_rejected metadata items
    | _ => exact check_other_not_rejected metadata levels (fun items same => by cases same)

/-- What is not a dict reads as a match when it is falsy, and else raises. -/
theorem check_other_iff (metadata : PyDict) (levels : Nat) {filters : PyVal} (other : ∀ items, filters ≠ .dict items)
    {matched : Bool} :
    checkFilterMatchAt metadata (levels + 1) filters = .ok matched ↔ Reads metadata filters matched := by
  rw [check_other metadata levels other]
  cases empty : filters.truthy with
  | false =>
    rw [if_neg Bool.false_ne_true]
    constructor
    · intro returned
      cases returned
      exact .falsy empty
    · intro read
      cases read with
      | falsy => rfl
      | _ => exact absurd rfl (other _)
  | true =>
    rw [if_pos rfl]
    constructor
    · intro returned
      obtain ⟨hasOr, _, returned⟩ := bind_ok returned
      cases hasOr with
      | true => cases returned
      | false =>
        obtain ⟨hasAnd, _, returned⟩ := bind_ok returned
        cases hasAnd <;> cases returned
    · intro read
      cases read with
      | falsy empty' => rw [empty] at empty'; cases empty'
      | _ => exact absurd rfl (other _)

theorem reads_plain_iff {metadata items : PyDict} (noOr : items.hasKey "$or" = false)
    (noAnd : items.hasKey "$and" = false) {matched : Bool} :
    Reads metadata (.dict items) matched ↔ matchesEntries metadata items = .ok matched := by
  constructor
  · intro read
    cases read with
    | falsy empty =>
      have none : items = [] := by simpa [PyVal.truthy] using empty
      rw [none]
      rfl
    | plain _ _ entries => exact entries
    | or found => rw [PyDict.hasKey, found] at noOr; cases noOr
    | orFails found => rw [PyDict.hasKey, found] at noOr; cases noOr
    | and _ found => rw [PyDict.hasKey, found] at noAnd; cases noAnd
    | andFails _ found => rw [PyDict.hasKey, found] at noAnd; cases noAnd
  · exact .plain noOr noAnd

theorem groups_unique {items : PyDict} {operator : String} {groups groups' : List PyVal}
    (found : items.get? operator = some (.list groups)) (found' : items.get? operator = some (.list groups')) :
    groups' = groups := by
  cases Option.some.inj (found'.symm.trans found)
  rfl

theorem reads_or_iff {metadata items : PyDict} {groups : List PyVal} (found : items.get? "$or" = some (.list groups))
    {matched : Bool} : Reads metadata (.dict items) matched ↔
      (ReadsUntil (Reads metadata) true groups true ∧
        Reads metadata (.dict (remainingFilters items "$or")) matched) ∨
      (ReadsUntil (Reads metadata) true groups false ∧ matched = false) := by
  have present : items.hasKey "$or" = true := by rw [PyDict.hasKey, found]; rfl
  constructor
  · intro read
    cases read with
    | falsy empty =>
      have none : items = [] := by simpa [PyVal.truthy] using empty
      rw [none] at present
      cases present
    | plain noOr => rw [present] at noOr; cases noOr
    | or found' some rest => exact .inl ⟨groups_unique found found' ▸ some, rest⟩
    | orFails found' none => exact .inr ⟨groups_unique found found' ▸ none, rfl⟩
    | and noOr => rw [present] at noOr; cases noOr
    | andFails noOr => rw [present] at noOr; cases noOr
  · rintro (⟨some, rest⟩ | ⟨none, rfl⟩)
    · exact .or found some rest
    · exact .orFails found none

theorem reads_and_iff {metadata items : PyDict} {groups : List PyVal} (noOr : items.hasKey "$or" = false)
    (found : items.get? "$and" = some (.list groups)) {matched : Bool} : Reads metadata (.dict items) matched ↔
      (ReadsUntil (Reads metadata) false groups true ∧
        Reads metadata (.dict (remainingFilters items "$and")) matched) ∨
      (ReadsUntil (Reads metadata) false groups false ∧ matched = false) := by
  have present : items.hasKey "$and" = true := by rw [PyDict.hasKey, found]; rfl
  have withoutOr : ∀ {groups'}, items.get? "$or" ≠ some (.list groups') := by
    intro groups' found'
    rw [PyDict.hasKey, found'] at noOr
    cases noOr
  constructor
  · intro read
    cases read with
    | falsy empty =>
      have none : items = [] := by simpa [PyVal.truthy] using empty
      rw [none] at present
      cases present
    | plain _ noAnd => rw [present] at noAnd; cases noAnd
    | or found' => exact absurd found' withoutOr
    | orFails found' => exact absurd found' withoutOr
    | and _ found' all rest => exact .inl ⟨groups_unique found found' ▸ all, rest⟩
    | andFails _ found' one => exact .inr ⟨groups_unique found found' ▸ one, rfl⟩
  · rintro (⟨all, rest⟩ | ⟨one, rfl⟩)
    · exact .and noOr found all rest
    · exact .andFails noOr found one

theorem GroupsValid.check_iff {metadata : PyDict} {levels : Nat} {items : PyDict} {operator : String}
    {groups : List PyVal} (own : GroupsValid levels items operator groups) {reads : Bool → Prop}
    {combine : (PyVal → Except PyError Bool) → List PyVal → Except PyError Bool}
    (combined : ∀ b, combine (checkFilterMatchAt metadata levels) groups = .ok b ↔ reads b) {matched : Bool}
    (beside : checkFilterMatchAt metadata levels (.dict (remainingFilters items operator)) = .ok matched ↔
      Reads metadata (.dict (remainingFilters items operator)) matched) :
    checkOperator (validateFilterStructure levels) (checkFilterMatchAt metadata levels) combine items operator =
      .ok matched ↔
        (reads true ∧ Reads metadata (.dict (remainingFilters items operator)) matched) ∨
          (reads false ∧ matched = false) := by
  rw [own.checkOperator_eq]
  constructor
  · intro returned
    obtain ⟨passes, tested, returned⟩ := bind_ok returned
    cases passes with
    | true => exact .inl ⟨(combined true).mp tested, beside.mp returned⟩
    | false => exact .inr ⟨(combined false).mp tested, (Except.ok.inj returned).symm⟩
  · rintro (⟨all, rest⟩ | ⟨one, same⟩)
    · rw [(combined true).mpr all]
      exact beside.mpr rest
    · rw [(combined false).mpr one, same]
      rfl

/-- The check of a valid filter returns what the filter is read as. -/
theorem check_valid_iff (metadata : PyDict) {levels : Nat} {filters : PyVal}
    (valid : validateFilterStructure levels filters = .ok ()) {matched : Bool} :
    checkFilterMatchAt metadata levels filters = .ok matched ↔ Reads metadata filters matched := by
  induction levels generalizing filters matched with
  | zero => cases valid
  | succ levels ih =>
    cases filters with
    | dict items =>
      rw [validate_dict] at valid
      obtain ⟨_, validOr, validAnd⟩ := bind_ok valid
      have groupsRead : ∀ {operator groups}, GroupsValid levels items operator groups →
          ∀ group ∈ groups, ∀ b, checkFilterMatchAt metadata levels group = .ok b ↔ Reads metadata group b :=
        fun own group member _ => ih (forM_ok own.valid group member)
      rw [check_dict]
      cases presentOr : PyDict.hasKey items "$or" with
      | true =>
        obtain ⟨groups, own, beside⟩ := validateOperator_ok validOr presentOr
        rw [if_pos rfl, reads_or_iff own.found]
        exact own.check_iff (fun _ => anyGroup_reads (groupsRead own)) (ih beside)
      | false =>
        rw [if_neg Bool.false_ne_true]
        cases presentAnd : PyDict.hasKey items "$and" with
        | true =>
          obtain ⟨groups, own, beside⟩ := validateOperator_ok validAnd presentAnd
          rw [if_pos rfl, reads_and_iff presentOr own.found]
          exact own.check_iff (fun _ => allGroups_reads (groupsRead own)) (ih beside)
        | false =>
          rw [if_neg Bool.false_ne_true]
          exact (reads_plain_iff presentOr presentAnd).symm
    | _ => exact check_other_iff metadata levels (fun items same => by cases same)

/-- `_check_filter_match` raises about the structure of the filter. -/
def Rejects (metadata : PyDict) (filters : PyVal) : Prop := Rejected (checkFilterMatch metadata filters)

/-- Where the groups of an operator are not there or not all valid, nothing after their validation is reached. -/
theorem rejected_iff_of_invalid (metadata : PyDict) {levels : Nat} {items : PyDict} {operator : String}
    (invalid : ¬ ∃ groups, GroupsValid levels items operator groups)
    (combine : (PyVal → Except PyError Bool) → List PyVal → Except PyError Bool) :
    Rejected (checkOperator (validateFilterStructure levels) (checkFilterMatchAt metadata levels) combine items
      operator) ↔
      Rejected (operatorGroups items operator >>= fun groups => groups.forM (validateFilterStructure levels)) := by
  rw [checkOperator, rejected_bind, rejected_bind]
  refine or_congr_right (exists_congr (fun groups => and_congr_right (fun listed => ?_)))
  rw [rejected_bind]
  refine or_iff_left ?_
  rintro ⟨_, valid, _⟩
  exact invalid ⟨groups, listed, valid⟩

theorem validateOperator_rejected_iff_of_invalid {levels : Nat} {items : PyDict} {operator : String}
    (present : items.hasKey operator = true) (invalid : ¬ ∃ groups, GroupsValid levels items operator groups) :
    Rejected (validateOperator (validateFilterStructure levels) (.dict items) operator) ↔
      Rejected (operatorGroups items operator >>= fun groups => groups.forM (validateFilterStructure levels)) := by
  rw [validateOperator, PyVal.contains, ok_bind, if_pos present, rejected_bind, rejected_bind]
  refine or_congr_right (exists_congr (fun groups => and_congr_right (fun listed => ?_)))
  rw [rejected_bind]
  refine or_iff_left ?_
  rintro ⟨_, valid, _⟩
  exact invalid ⟨groups, listed, valid⟩

/-- Without `$or`, the whole of a filter is validated before it is matched. -/
theorem rejected_iff_of_noOr (metadata : PyDict) (levels : Nat) {items : PyDict} (noOr : items.hasKey "$or" = false) :
    Rejected (checkFilterMatchAt metadata (levels + 1) (.dict items)) ↔
      Rejected (validateFilterStructure (levels + 1) (.dict items)) := by
  rw [check_dict, if_neg (noOr ▸ Bool.false_ne_true), validate_dict, validateOperator_absent noOr, ok_bind]
  cases present : items.hasKey "$and" with
  | false =>
    rw [validateOperator_absent present, if_neg Bool.false_ne_true]
    exact iff_of_false (matchesEntries_not_rejected metadata items) (not_rejected_ok ())
  | true =>
    rw [if_pos rfl]
    by_cases own : ∃ groups, GroupsValid levels items "$and" groups
    · obtain ⟨groups, own⟩ := own
      obtain ⟨n, rfl⟩ := own.exists_level
      have beside : validateFilterStructure (n + 1) (.dict (remainingFilters items "$and")) = .ok () := by
        rw [validate_dict, validateOperator_absent (by rw [hasKey_remaining, noOr, Bool.and_false]), ok_bind,
          validateOperator_absent (by rw [hasKey_remaining]; rfl)]
      rw [own.validateOperator_eq present, beside]
      have groupsPass := fun group member => check_valid_not_rejected metadata (forM_ok own.valid group member)
      exact iff_of_false (own.not_rejected (loop_not_rejected groupsPass).2 (check_valid_not_rejected metadata beside))
        (not_rejected_ok ())
    · rw [rejected_iff_of_invalid metadata own, validateOperator_rejected_iff_of_invalid present own]

/-- With valid groups under `$or`, what stands beside them is looked at only once a group has matched. -/
theorem GroupsValid.rejected_iff (metadata : PyDict) {levels : Nat} {items : PyDict} {groups : List PyVal}
    (own : GroupsValid levels items "$or" groups) :
    Rejected (checkFilterMatchAt metadata (levels + 1) (.dict items)) ↔
      ReadsUntil (Reads metadata) true groups true ∧
        Rejected (validateFilterStructure levels (.dict (remainingFilters items "$or"))) := by
  have present : items.hasKey "$or" = true := by rw [PyDict.hasKey, own.found]; rfl
  have groupsPass := fun group member => check_valid_not_rejected metadata (forM_ok own.valid group member)
  have groupsRead : ∀ group ∈ groups, ∀ b,
      checkFilterMatchAt metadata levels group = .ok b ↔ Reads metadata group b :=
    fun group member _ => check_valid_iff metadata (forM_ok own.valid group member)
  obtain ⟨n, rfl⟩ := own.exists_level
  rw [check_dict, if_pos present, own.checkOperator_eq, rejected_bind,
    or_iff_right (loop_not_rejected groupsPass).1, ← anyGroup_reads groupsRead,
    ← rejected_iff_of_noOr metadata n (hasKey_remaining items "$or" "$or")]
  constructor
  · rintro ⟨passes, tested, later⟩
    cases passes with
    | true => exact ⟨tested, later⟩
    | false => exact absurd later (not_rejected_ok false)
  · rintro ⟨tested, later⟩
    exact ⟨true, tested, later⟩

/-- The filter has valid groups under `$or` and a structural fault beside them,
which the matching of the groups can hide. -/
def HidesFault (filters : PyVal) (groups : List PyVal) : Prop :=
  ∃ items, filters = .dict items ∧ GroupsValid 2 items "$or" groups ∧
    Rejected (validateFilterStructure 2 (.dict (remainingFilters items "$or")))

theorem rejects_alike_iff (metadata metadata' : PyDict) (filters : PyVal) :
    (Rejects metadata filters ↔ Rejects metadata' filters) ↔
      ∀ groups, HidesFault filters groups →
        (ReadsUntil (Reads metadata) true groups true ↔ ReadsUntil (Reads metadata') true groups true) := by
  cases filters with
  | dict items =>
    by_cases own : ∃ groups, GroupsValid 2 items "$or" groups
    · obtain ⟨groups, own⟩ := own
      rw [Rejects, Rejects, checkFilterMatch, checkFilterMatch, own.rejected_iff, own.rejected_iff]
      constructor
      · rintro alike groups' ⟨items', same, own', fault⟩
        cases same
        cases Except.ok.inj (own.listed.symm.trans own'.listed)
        rwa [and_iff_left fault, and_iff_left fault] at alike
      · intro alike
        refine and_congr_left (fun fault => ?_)
        exact alike groups ⟨items, rfl, own, fault⟩
    · have same : Rejects metadata (.dict items) ↔ Rejects metadata' (.dict items) := by
        rw [Rejects, Rejects, checkFilterMatch, checkFilterMatch]
        cases present : PyDict.hasKey items "$or" with
        | false => rw [rejected_iff_of_noOr _ _ present, rejected_iff_of_noOr _ _ present]
        | true =>
          rw [check_dict, check_dict, if_pos present, if_pos present, rejected_iff_of_invalid _ own,
            rejected_iff_of_invalid _ own]
      refine iff_of_true same ?_
      rintro groups ⟨items', equal, valid, _⟩
      cases equal
      exact absurd ⟨groups, valid⟩ own
  | _ =>
    refine iff_of_true (iff_of_false ?_ ?_) ?_
    · exact check_other_not_rejected metadata 2 (fun items same => by cases same)
    · exact check_other_not_rejected metadata' 2 (fun items same => by cases same)
    · rintro groups ⟨items, same, _⟩
      cases same

/-- A filter with a malformed `$and` is rejected for alice and hides the fault from bob. -/
theorem rejection_depends_on_metadata :
    ¬ ∀ (metadata metadata' : PyDict) (filters : PyVal), Rejects metadata filters ↔ Rejects metadata' filters := by
  intro alike
  let group : PyVal := .dict [("owner", .str "alice")]
  have rejected : Rejects [("owner", .str "alice")] (.dict [("$or", .list [group, group]), ("$and", .str "bad")]) :=
    ⟨invalidOperator "$and", .invalidOperator "$and", rfl⟩
  have hidden := (alike [("owner", .str "alice")] [("owner", .str "bob")] _).mp rejected
  exact not_rejected_ok false hidden

end InmemRuntime
