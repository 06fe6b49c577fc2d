import InmemRuntime.PyEq

namespace InmemRuntime

/-- A record of the pickled `store["assistants"]`, with what `==` reads of it.
A file of an older version lacks the context. -/
structure SavedAssistant (ρ : Type) where
  metadata : PyDict
  context : Option PyVal
  others : ρ
  distinct : metadata.Distinct

namespace SavedAssistant

variable {ρ : Type}

/-- `a["metadata"].get("created_by") == "system"` -/
def createdBySystem (a : SavedAssistant ρ) : Bool := ((a.metadata.get? "created_by").getD .none).pyEq (.str "system")

/-- `if "context" not in a: a["context"] = {}` -/
def withContext (a : SavedAssistant ρ) : SavedAssistant ρ := { a with context := some (a.context.getD (.dict [])) }

/-- The item `context` of two records: in both or in neither, and equal. -/
def sameContext : Option PyVal → Option PyVal → Bool
  | none, none => true
  | some x, some y => x.pyEq y
  | _, _ => false

def pyEq [BEq ρ] (a b : SavedAssistant ρ) : Bool :=
  (PyVal.dict a.metadata).pyEq (.dict b.metadata) && sameContext a.context b.context && a.others == b.others

end SavedAssistant

namespace StartPool

variable {ρ : Type}

section Loop

variable [BEq ρ]

/-- Where `list.remove(a)` removes, for the record `a` at the index: the first
item that is `a` or equal to it. -/
def removedIndex (assistants : List (SavedAssistant ρ)) (index : Nat) (a : SavedAssistant ρ) : Nat :=
  ((assistants.take index).findIdx? (fun item => item.pyEq a)).getD index

/-- The body of the loop for the record `a` at the index. A record that has been
removed gets its context outside the list; where an equal one was removed in
its place, `a` still stands in the list, one place further to the front. -/
def visit (assistants : List (SavedAssistant ρ)) (index : Nat) (a : SavedAssistant ρ) : List (SavedAssistant ρ) :=
  if a.createdBySystem then
    let removed := removedIndex assistants index a
    if removed = index then assistants.eraseIdx index
    else (assistants.eraseIdx removed).modify (index - 1) SavedAssistant.withContext
  else assistants.modify index SavedAssistant.withContext

/-- `for a in GLOBAL_STORE["assistants"]`: the iterator counts its items, whatever
is removed meanwhile. -/
def cleanFrom : Nat → Nat → List (SavedAssistant ρ) → List (SavedAssistant ρ)
  | 0, _, assistants => assistants
  | fuel + 1, index, assistants =>
    match assistants[index]? with
    | none => assistants
    | some a => cleanFrom fuel (index + 1) (visit assistants index a)

/-- The clean-up of `start_pool`; no more items than the list has are visited. -/
def cleanUp (assistants : List (SavedAssistant ρ)) : List (SavedAssistant ρ) :=
  cleanFrom assistants.length 0 assistants

end Loop

open SavedAssistant

theorem createdBySystem_iff {a : SavedAssistant ρ} :
    a.createdBySystem = true ↔ a.metadata.get? "created_by" = some (.str "system") := by
  unfold createdBySystem
  constructor
  · intro system
    cases found : a.metadata.get? "created_by" with
    | none => rw [found] at system; cases system
    | some v =>
      rw [found, Option.getD_some] at system
      rw [PyVal.pyEq_str system]
  · intro found
    rw [found]
    rfl

@[simp] theorem withContext_createdBySystem (a : SavedAssistant ρ) :
    a.withContext.createdBySystem = a.createdBySystem := rfl

theorem createdBySystem_of_pyEq [BEq ρ] {item a : SavedAssistant ρ} (same : item.pyEq a = true)
    (system : a.createdBySystem = true) : item.createdBySystem = true := by
  rw [SavedAssistant.pyEq, Bool.and_eq_true, Bool.and_eq_true] at same
  obtain ⟨x, found, equal⟩ := PyVal.get?_of_pyEq item.distinct same.1.1 (createdBySystem_iff.mp system)
  rw [createdBySystem_iff, found, PyVal.pyEq_str equal]

/-- What stands in front once `a`, or an equal record, has been removed. -/
inductive Removed (before : List (SavedAssistant ρ)) (a : SavedAssistant ρ) : List (SavedAssistant ρ) → Prop
  | itself : Removed before a before
  | equal {front twin back} (twinSystem : twin.createdBySystem = true) (found : before = front ++ twin :: back) :
      Removed before a (front ++ back ++ [a.withContext])

/-- The loop, by what stands before the iterator's place and what from it on: the
record behind a removed one takes its place and is passed over. -/
inductive Cleans : List (SavedAssistant ρ) → List (SavedAssistant ρ) → List (SavedAssistant ρ) → Prop
  | done (before) : Cleans before [] before
  | keep {before a rest result} (own : a.createdBySystem = false)
      (later : Cleans (before ++ [a.withContext]) rest result) : Cleans before (a :: rest) result
  | last {before a before'} (system : a.createdBySystem = true) (removed : Removed before a before') :
      Cleans before [a] before'
  | skip {before a before' b rest result} (system : a.createdBySystem = true) (removed : Removed before a before')
      (later : Cleans (before' ++ [b]) rest result) : Cleans before (a :: b :: rest) result

theorem Removed.length_eq {before before' : List (SavedAssistant ρ)} {a : SavedAssistant ρ}
    (removed : Removed before a before') : before'.length = before.length := by
  cases removed with
  | itself => rfl
  | equal _ found => subst found; simp only [List.length_append, List.length_cons, List.length_nil]; omega

section Loop

variable {before rest : List (SavedAssistant ρ)} {a : SavedAssistant ρ}

theorem modify_middle (f : SavedAssistant ρ → SavedAssistant ρ) :
    (before ++ a :: rest).modify before.length f = before ++ f a :: rest := by
  have inside : before.length < (before ++ a :: rest).length := by
    rw [List.length_append, List.length_cons]
    omega
  rw [List.modify_eq_take_cons_drop inside, List.getElem_append_right (Nat.le_refl _), List.take_left,
    List.drop_append, List.drop_of_length_le (Nat.le_succ _)]
  simp

variable [BEq ρ]

theorem visit_keep (own : a.createdBySystem = false) :
    visit (before ++ a :: rest) before.length a = before ++ [a.withContext] ++ rest := by
  rw [visit, own, if_neg Bool.false_ne_true, modify_middle, List.append_assoc]
  rfl

theorem visit_removed (before rest : List (SavedAssistant ρ)) (system : a.createdBySystem = true) :
    ∃ before', Removed before a before' ∧ visit (before ++ a :: rest) before.length a = before' ++ rest := by
  unfold visit removedIndex
  rw [if_pos system, List.take_left]
  cases place : before.findIdx? (fun item => item.pyEq a) with
  | none =>
    refine ⟨before, .itself, ?_⟩
    rw [Option.getD_none, if_pos rfl, List.eraseIdx_append_of_length_le (Nat.le_refl _), Nat.sub_self]
    rfl
  | some j =>
    obtain ⟨inside, same, _⟩ := List.findIdx?_eq_some_iff_getElem.mp place
    have split : before = before.take j ++ before[j] :: before.drop (j + 1) := by
      rw [← List.drop_eq_getElem_cons inside, List.take_append_drop]
    have short : (before.eraseIdx j).length = before.length - 1 := List.length_eraseIdx_of_lt inside
    refine ⟨before.take j ++ before.drop (j + 1) ++ [a.withContext],
      .equal (createdBySystem_of_pyEq same system) split, ?_⟩
    rw [Option.getD_some, if_neg (Nat.ne_of_lt inside), List.eraseIdx_append_of_lt_length inside, ← short,
      modify_middle, List.eraseIdx_eq_take_drop_succ, List.append_assoc _ [a.withContext]]
    rfl

/-- The loop from the iterator's place on, with as much fuel as there are items left. -/
theorem cleanFrom_cleans : ∀ (fuel : Nat) (before rest : List (SavedAssistant ρ)), rest.length ≤ fuel →
    Cleans before rest (cleanFrom fuel before.length (before ++ rest))
  | 0, before, [], _ => by
    rw [List.append_nil]
    exact .done before
  | fuel + 1, before, [], _ => by
    rw [List.append_nil, cleanFrom, List.getElem?_eq_none (Nat.le_refl _)]
    exact .done before
  | fuel + 1, before, a :: rest, enough => by
    have place : (before ++ a :: rest)[before.length]? = some a := by simp
    have fewer : rest.length ≤ fuel := Nat.le_of_succ_le_succ enough
    rw [cleanFrom, place]
    change Cleans before (a :: rest) (cleanFrom fuel (before.length + 1) (visit (before ++ a :: rest) before.length a))
    cases system : a.createdBySystem with
    | false =>
      have later := cleanFrom_cleans fuel (before ++ [a.withContext]) rest fewer
      rw [visit_keep system]
      rw [List.length_append, List.length_singleton] at later
      exact .keep system later
    | true =>
      obtain ⟨before', removed, visited⟩ := visit_removed before rest system
      rw [visited, ← removed.length_eq]
      cases rest with
      | nil =>
        have done : cleanFrom fuel (before'.length + 1) (before' ++ []) = before' := by
          rw [List.append_nil]
          cases fuel with
          | zero => rfl
          | succ fuel => rw [cleanFrom, List.getElem?_eq_none (Nat.le_succ _)]
        rw [done]
        exact .last system removed
      | cons b rest =>
        have later := cleanFrom_cleans fuel (before' ++ [b]) rest (Nat.le_of_succ_le fewer)
        rw [List.length_append, List.length_singleton, List.append_assoc] at later
        exact .skip system removed later

end Loop

/-- A record that the clean-up should not leave as it is. -/
def unclean (a : SavedAssistant ρ) : Bool := a.createdBySystem || a.context.isNone

theorem unclean_withContext (a : SavedAssistant ρ) : unclean a.withContext = a.createdBySystem := Bool.or_false _

/-- The assistants of users, each with a context. -/
def ofUsers (assistants : List (SavedAssistant ρ)) : List (SavedAssistant ρ) :=
  (assistants.filter (fun a => !a.createdBySystem)).map withContext

section Left

variable {before before' rest result : List (SavedAssistant ρ)} {a : SavedAssistant ρ}

theorem ofUsers_append (l l' : List (SavedAssistant ρ)) : ofUsers (l ++ l') = ofUsers l ++ ofUsers l' := by
  rw [ofUsers, List.filter_append, List.map_append]
  rfl

theorem ofUsers_cons (a : SavedAssistant ρ) (l : List (SavedAssistant ρ)) :
    ofUsers (a :: l) = ofUsers [a] ++ ofUsers l := ofUsers_append [a] l

theorem ofUsers_system (system : a.createdBySystem = true) : ofUsers [a] = [] := by
  rw [ofUsers, List.filter_singleton, system]
  rfl

theorem ofUsers_user (own : a.createdBySystem = false) : ofUsers [a] = [a.withContext] := by
  rw [ofUsers, List.filter_singleton, own]
  rfl

theorem Removed.ofUsers_eq (removed : Removed before a before') (system : a.createdBySystem = true) :
    ofUsers before' = ofUsers before := by
  cases removed with
  | itself => rfl
  | @equal front twin back twinSystem found =>
    have systemToo : a.withContext.createdBySystem = true := system
    rw [found, ofUsers_append, ofUsers_append, ofUsers_append, ofUsers_cons twin, ofUsers_system twinSystem,
      ofUsers_system systemToo, List.append_nil, List.nil_append]

theorem Removed.countP_unclean (removed : Removed before a before') (system : a.createdBySystem = true) :
    before'.countP unclean = before.countP unclean := by
  cases removed with
  | itself => rfl
  | equal twinSystem found =>
    simp only [found, List.countP_append, List.countP_cons, List.countP_nil, unclean, system, twinSystem,
      withContext_createdBySystem, Bool.true_or]
    omega

/-- The assistants of users stay, in their order. -/
theorem Cleans.ofUsers_eq (cleans : Cleans before rest result) : ofUsers result = ofUsers before ++ ofUsers rest := by
  induction cleans with
  | done before => exact (List.append_nil _).symm
  | @keep before a rest result own later ih =>
    have ownToo : a.withContext.createdBySystem = false := own
    rw [ih, ofUsers_append, ofUsers_cons a, ofUsers_user own, ofUsers_user ownToo, List.append_assoc]
    rfl
  | last system removed => rw [removed.ofUsers_eq system, ofUsers_system system, List.append_nil]
  | @skip before a before' b rest result system removed later ih =>
    rw [ih, ofUsers_append, removed.ofUsers_eq system, ofUsers_cons a, ofUsers_system system, List.nil_append,
      ofUsers_cons b rest, List.append_assoc]

theorem unclean_append (l l' : List (SavedAssistant ρ)) :
    (l ++ l').countP unclean = 0 ↔ l.countP unclean = 0 ∧ l'.countP unclean = 0 := by
  rw [List.countP_append, Nat.add_eq_zero_iff]

theorem unclean_singleton (a : SavedAssistant ρ) : [a].countP unclean = 0 ↔ unclean a = false := by
  cases work : unclean a <;> simp [work]

/-- No record that the iterator passes over has work left. -/
def Passable (assistants : List (SavedAssistant ρ)) : Prop :=
  assistants.IsChain (fun a b => a.createdBySystem = true → unclean b = false)

theorem passable_user (own : a.createdBySystem = false) : Passable (a :: rest) ↔ Passable rest := by
  cases rest with
  | nil => exact ⟨fun _ => .nil, fun _ => .singleton a⟩
  | cons b rest =>
    refine List.isChain_cons_cons.trans (and_iff_right (fun system => ?_))
    rw [own] at system
    cases system

/-- A pass leaves nothing unclean exactly when what lies in front is clean and
what comes behind is passable. -/
theorem Cleans.clean_iff (cleans : Cleans before rest result) :
    result.countP unclean = 0 ↔ before.countP unclean = 0 ∧ Passable rest := by
  induction cleans with
  | done before => exact (and_iff_left List.IsChain.nil).symm
  | @keep before a rest result own later ih =>
    have filled : unclean a.withContext = false := (unclean_withContext a).trans own
    rw [ih, unclean_append, unclean_singleton, passable_user own]
    exact and_congr_left (fun _ => and_iff_left filled)
  | last system removed =>
    rw [removed.countP_unclean system]
    exact (and_iff_left (List.IsChain.singleton _)).symm
  | @skip before a before' b rest result system removed later ih =>
    rw [ih, unclean_append, unclean_singleton, removed.countP_unclean system, and_assoc]
    refine and_congr_right (fun _ => Iff.trans ?_ List.isChain_cons_cons.symm)
    rw [imp_iff_right system]
    refine and_congr_right (fun clean => (passable_user ?_).symm)
    exact (Bool.or_eq_false_iff.mp clean).1

end Left

/-- What the clean-up is for: no assistant of the system is left, the others are
there in their order, and each has a context. -/
structure CleanedUp (assistants result : List (SavedAssistant ρ)) : Prop where
  noSystem : ∀ a ∈ result, a.createdBySystem = false
  others : ofUsers result = ofUsers assistants
  context : ∀ a ∈ result, a.context.isSome = true

theorem cleanUp_cleans [BEq ρ] (assistants : List (SavedAssistant ρ)) : Cleans [] assistants (cleanUp assistants) :=
  cleanFrom_cleans assistants.length [] assistants (Nat.le_refl _)

theorem cleanedUp_iff [BEq ρ] (assistants : List (SavedAssistant ρ)) :
    CleanedUp assistants (cleanUp assistants) ↔
      assistants.IsChain (fun a b => a.createdBySystem = true → b.createdBySystem = false ∧ b.context.isSome = true) := by
  have cleans := cleanUp_cleans assistants
  have parts : ∀ b : SavedAssistant ρ, unclean b = false ↔ b.createdBySystem = false ∧ b.context.isSome = true := by
    intro b
    rw [unclean, Bool.or_eq_false_iff]
    cases b.context <;> simp
  have passable : Passable assistants ↔ (cleanUp assistants).countP unclean = 0 := by
    rw [cleans.clean_iff]
    exact (and_iff_right List.countP_nil).symm
  simp only [← parts]
  refine Iff.trans ?_ passable.symm
  rw [List.countP_eq_zero]
  constructor
  · intro cleaned a member
    rw [Bool.not_eq_true, parts]
    exact ⟨cleaned.noSystem a member, cleaned.context a member⟩
  · intro clean
    have both := fun a member => (parts a).mp (Bool.not_eq_true _ ▸ clean a member)
    exact ⟨fun a member => (both a member).1, cleans.ofUsers_eq, fun a member => (both a member).2⟩

/-- Of two neighbours that the system created, the second stays. -/
theorem cleanUp_keeps_system :
    ¬ ∀ assistants : List (SavedAssistant Nat), CleanedUp assistants (cleanUp assistants) := by
  intro cleaned
  let system (other : Nat) : SavedAssistant Nat := ⟨[("created_by", .str "system")], none, other, by decide⟩
  have kept : (cleanUp [system 0, system 1]) = [system 1] := by rfl
  have noSystem := (cleaned [system 0, system 1]).noSystem (system 1) (kept ▸ List.mem_cons_self)
  cases noSystem

end StartPool

end InmemRuntime
