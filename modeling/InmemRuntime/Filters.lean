import InmemRuntime.PyVal

namespace InmemRuntime

/-- What a call can raise. `foreign` comes from code the runtime calls: an auth
handler, a custom checkpointer. -/
inductive PyError where
  | http (statusCode : Nat) (detail : String)
  | indexError
  | keyError
  | typeError
  | attributeError
  | valueError (message : String)
  | overflowError
  | stopIteration
  | foreign (name : String)
deriving DecidableEq, Repr

theorem bind_ok {ε α β : Type} {first : Except ε α} {next : α → Except ε β} {result : β}
    (returned : first >>= next = .ok result) : ∃ value, first = .ok value ∧ next value = .ok result := by
  cases first with
  | error _ => cases returned
  | ok value => exact ⟨value, rfl, returned⟩

theorem ok_bind {ε α β : Type} (value : α) (next : α → Except ε β) :
    (Except.ok value >>= next) = next value := rfl

namespace PyVal

/-- `needle in text` -/
def isSubstring (needle text : String) : Bool :=
  text.toList.tails.any (fun rest => needle.toList.isPrefixOf rest)

/-- `key in value`: a dict looks at its keys, a string at its substrings, a
list at its elements, and nothing else can be searched. -/
def contains (value : PyVal) (key : String) : Except PyError Bool :=
  match value with
  | .dict items => .ok (PyDict.hasKey items key)
  | .str s => .ok (isSubstring key s)
  | .list xs => .ok (xs.any (pyEq (.str key)))
  | _ => .error .typeError

end PyVal

/-- `{k: v for k, v in filters.items() if k != operator}` -/
def remainingFilters (filters : PyDict) (operator : String) : PyDict :=
  filters.filter (fun item => item.1 ≠ operator)

def tooManyNested : PyError :=
  .http 500 ("Your auth handler returned a filter with too many nested operators. The maximum depth " ++
    "for nested operators is 2. Please simplify your filter.")

def invalidOperator (operator : String) : PyError :=
  .http 500 (s!"Your auth handler returned a filter with an invalid {operator} operator. The " ++
    s!"{operator} operator must be a list of at least 2 filter objects. Check the filter returned " ++
    "by your auth handler.")

/-- `filters[operator]`, checked to be a list of at least two groups. -/
def operatorGroups (filters : PyDict) (operator : String) : Except PyError (List PyVal) :=
  match filters.get? operator with
  | some (.list groups) => if 2 ≤ groups.length then .ok groups else .error (invalidOperator operator)
  | _ => .error (invalidOperator operator)

/-- One operator of `_validate_filter_structure`, with the validation of what
is nested one level deeper. -/
def validateOperator (validate : PyVal → Except PyError Unit) (filters : PyVal) (operator : String) :
    Except PyError Unit := do
  if ← filters.contains operator then
    match filters with
    | .dict items => do
      (← operatorGroups items operator).forM validate
      let remaining := remainingFilters items operator
      if remaining.isEmpty then .ok () else validate (.dict remaining)
    -- a string or a list holds the operator's text but has no item under it
    | _ => .error .typeError
  else .ok ()

/-- `_validate_filter_structure`, by the number of nesting levels still allowed. -/
def validateFilterStructure : Nat → PyVal → Except PyError Unit
  | 0, _ => .error tooManyNested
  | levels + 1, filters =>
    if filters.truthy then do
      validateOperator (validateFilterStructure levels) filters "$or"
      validateOperator (validateFilterStructure levels) filters "$and"
    else .ok ()

/-- `metadata[key]`, when present, contains the operand or each of its elements. -/
def containsOperand (stored : Option PyVal) (operand : PyVal) : Bool :=
  match stored with
  | some (.list elements) =>
    match operand with
    | .list wanted => wanted.all (fun w => elements.any (PyVal.pyEq w))
    | value => elements.any (PyVal.pyEq value)
  | _ => false

def equalsOperand (stored : Option PyVal) (operand : PyVal) : Bool :=
  match stored with
  | some value => value.pyEq operand
  | none => false

/-- One key of a filter without `$or` and `$and`. Of an operator dict only the
first operator counts, and an operator that is not known passes. -/
def matchesEntry (metadata : PyDict) (item : String × PyVal) : Except PyError Bool :=
  match item.2 with
  | .dict [] => .error .stopIteration
  | .dict ((op, operand) :: _) =>
    if op = "$eq" then .ok (equalsOperand (metadata.get? item.1) operand)
    else if op = "$contains" then .ok (containsOperand (metadata.get? item.1) operand)
    else .ok true
  | value => .ok (equalsOperand (metadata.get? item.1) value)

/-- The loop over `filters.items()`: the first entry that fails ends it. -/
def matchesEntries (metadata : PyDict) : PyDict → Except PyError Bool
  | [] => .ok true
  | item :: items => do
    if ← matchesEntry metadata item then matchesEntries metadata items else .ok false

/-- The first group that matches ends the loop. -/
def anyGroup (test : PyVal → Except PyError Bool) : List PyVal → Except PyError Bool
  | [] => .ok false
  | group :: groups => do if ← test group then .ok true else anyGroup test groups

def allGroups (test : PyVal → Except PyError Bool) : List PyVal → Except PyError Bool
  | [] => .ok true
  | group :: groups => do if ← test group then allGroups test groups else .ok false

/-- The branch of `_check_filter_match` for one operator: all groups are
validated first, then they are matched, then what stands beside the operator. -/
def checkOperator (validate : PyVal → Except PyError Unit) (test : PyVal → Except PyError Bool)
    (combine : (PyVal → Except PyError Bool) → List PyVal → Except PyError Bool)
    (filters : PyDict) (operator : String) : Except PyError Bool := do
  let groups ← operatorGroups filters operator
  groups.forM validate
  if ← combine test groups then
    let remaining := remainingFilters filters operator
    if remaining.isEmpty then .ok true else test (.dict remaining)
  else .ok false

/-- `_check_filter_match`, by the number of nesting levels still allowed. -/
def checkFilterMatchAt (metadata : PyDict) : Nat → PyVal → Except PyError Bool
  | 0, _ => .error tooManyNested
  | levels + 1, filters =>
    if filters.truthy then do
      if ← filters.contains "$or" then
        match filters with
        | .dict items =>
          checkOperator (validateFilterStructure levels) (checkFilterMatchAt metadata levels) anyGroup
            items "$or"
        | _ => .error .typeError
      else if ← filters.contains "$and" then
        match filters with
        | .dict items =>
          checkOperator (validateFilterStructure levels) (checkFilterMatchAt metadata levels) allGroups
            items "$and"
        | _ => .error .typeError
      else
        match filters with
        | .dict items => matchesEntries metadata items
        | _ => .error .attributeError
    else .ok true

/-- `_check_filter_match(metadata, filters)`: operators nest two levels deep. -/
def checkFilterMatch (metadata : PyDict) (filters : PyVal) : Except PyError Bool :=
  checkFilterMatchAt metadata 3 filters

/-- `not filters or _check_filter_match(metadata, filters)` -/
def filtersAllow (metadata : PyDict) (filters : PyVal) : Except PyError Bool :=
  if filters.truthy then checkFilterMatch metadata filters else .ok true

theorem filtersAllow_none (metadata : PyDict) : filtersAllow metadata .none = .ok true := rfl

end InmemRuntime
