import InmemRuntime.JointStatus
import InmemRuntime.SharedStores

namespace InmemRuntime

/-- The handler answers with the filters, and a fresh id passes the test. -/
def Answers (filters : PyVal) (p : String → Bool) (reply : Reply) : Prop :=
  reply.answer = .ok filters ∧ p reply.fresh.str = true

/-- What a call returns, if it does. -/
def ReturnsOnly {α : Type} (Q : α → Prop) (outcome : Except PyError α) : Prop := ∀ value, outcome = .ok value → Q value

/-- The call goes on alike in two stores that share some threads, under a filter that
hides the others, and returns only what `Q` says. -/
abbrev GoesAlike {κ α : Type} (lag : Prop) (filters : PyVal) (p : String → Bool) (first first' : Runtime)
    (resume : Runtime → κ → Reply → Runtime × Turn κ (Except PyError α)) (P : Runtime → Runtime → κ → κ → Prop)
    (task : κ → Prop) (Q : α → Prop) : Prop :=
  Turn.Unwinds resume (Answers filters p) lag (Runtime.Agree p first first') P task (ReturnsOnly Q)

/-- No task is gathered. -/
def noTask {κ : Type} : κ → Prop := fun _ => False

section Turns

variable {κ α β : Type} {filters : PyVal} {p : String → Bool} {first first' s s' : Runtime}
  {resume : Runtime → κ → Reply → Runtime × Turn κ (Except PyError α)} {P : Runtime → Runtime → κ → κ → Prop}
  {lag : Prop} {task : κ → Prop} {Q : α → Prop}

theorem related_raised (agree : Runtime.Agree p first first' s s') (e : PyError) :
    Turn.Related resume (Answers filters p) lag (Runtime.Agree p first first') P task (ReturnsOnly Q) (raised s e) (raised s' e) :=
  .finished agree (fun _ same => by cases same)

theorem related_returned (agree : Runtime.Agree p first first' s s') {value : α} (shown : Q value) :
    Turn.Related resume (Answers filters p) lag (Runtime.Agree p first first') P task (ReturnsOnly Q) (returned s value)
      (returned s' value) :=
  .finished agree (fun _ same => Except.ok.inj same ▸ shown)

/-- The same attempt in both stores. -/
theorem related_attempt (agree : Runtime.Agree p first first' s s') {x : Except PyError β}
    {next next' : β → Runtime × Turn κ (Except PyError α)}
    (goes : ∀ value, x = .ok value → Turn.Related resume (Answers filters p) lag (Runtime.Agree p first first') P task (ReturnsOnly Q)
      (next value) (next' value)) :
    Turn.Related resume (Answers filters p) lag (Runtime.Agree p first first') P task (ReturnsOnly Q) (attempt s x next)
      (attempt s' x next') := by
  cases x with
  | error e => exact related_raised agree e
  | ok value => exact goes value rfl

/-- The same branch in both stores. -/
theorem related_ite {c c' : Prop} [Decidable c] [Decidable c'] {one one' two two' : Runtime × Turn κ (Except PyError α)}
    (same : c ↔ c')
    (yes : c → Turn.Related resume (Answers filters p) lag (Runtime.Agree p first first') P task (ReturnsOnly Q) one one')
    (no : ¬ c → Turn.Related resume (Answers filters p) lag (Runtime.Agree p first first') P task (ReturnsOnly Q) two two') :
    Turn.Related resume (Answers filters p) lag (Runtime.Agree p first first') P task (ReturnsOnly Q) (if c then one else two)
      (if c' then one' else two') := by
  by_cases holds : c
  · rw [if_pos holds, if_pos (same.mp holds)]
    exact yes holds
  · rw [if_neg holds, if_neg (same.not.mp holds)]
    exact no holds

end Turns

namespace Threads

variable {filters : PyVal} {p : String → Bool} {first first' s s' : Runtime}

theorem effectiveThreadTtl_agree {threadId : Uuid} (agree : Runtime.Agree p first first' s s') (shown : p threadId.str = true)
    (globalTtl : Option PyDict) :
    effectiveThreadTtl globalTtl s.threadTtls threadId = effectiveThreadTtl globalTtl s'.threadTtls threadId := by
  unfold effectiveThreadTtl
  rw [agree.threadTtls.get? shown]

/-- `Threads.get` -/
theorem get_goesAlike (hides : first.Hides filters p) (hides' : first'.Hides filters p) :
    GoesAlike False filters p first first' Get.resume (fun _ _ point point' => point = point') noTask
      (fun found => found.1.passes p = true) where
  tasks _ none := none.elim
  points := by
    rintro s s' point _ reply agree rfl answers
    cases point with
    | called threadId includeTtl => exact .suspended agree rfl
    | authorizing threadId includeTtl =>
      rw [Get.resume, Get.resume, answers.1, attempt_ok, attempt_ok]
      have found := found_getWithFilters agree hides hides' threadId
      generalize getWithFilters s threadId filters = looked at found ⊢
      generalize getWithFilters s' threadId filters = looked' at found ⊢
      cases found with
      | error agree => exact related_raised agree _
      | none agree => exact related_raised agree _
      | @some t t' r r' agree shown twins own =>
        simp only [attempt_ok]
        have passes : (t.threads.get r).passes p = true := by rwa [Thread.passes, own]
        rw [← twins.get agree.threads.alike, effectiveThreadTtl_agree agree shown, agree.config]
        split
        · refine related_attempt agree (fun policy _ => ?_)
          split
          · exact related_returned agree passes
          · exact related_attempt agree (fun info _ => related_returned agree passes)
        · exact related_returned agree passes

/-- A hidden thread is not selected. -/
theorem allowsIn_hidden {f : ThreadFilter} {thread : Thread} (refused : filtersAllow thread.metadata f.filters = .ok false)
    (ids : Option (List Uuid)) : f.allowsIn ids thread = .ok false := by
  rw [ThreadFilter.allowsIn, ThreadFilter.allows, refused]
  split <;> rfl

theorem allowsIn_withStateUpdatedAt (f : ThreadFilter) (ids : Option (List Uuid)) (thread : Thread) :
    f.allowsIn ids thread.withStateUpdatedAt = f.allowsIn ids thread := rfl

section Select

variable {f : ThreadFilter} {ids : Option (List Uuid)} {t t' : Table Thread}

/-- One round of the loop of `search`, by what the filters say. -/
theorem selectThreads_cons (f : ThreadFilter) (ids : Option (List Uuid)) (t : Table Thread) (r : Nat) (rows : List Nat) :
    selectThreads f ids t (r :: rows) =
      match f.allowsIn ids (t.get r) with
      | .error e => (t, .error e)
      | .ok false => selectThreads f ids t rows
      | .ok true =>
        ((selectThreads f ids (t.update r Thread.withStateUpdatedAt) rows).1,
          (selectThreads f ids (t.update r Thread.withStateUpdatedAt) rows).2.map (fun rows => r :: rows)) := by
  rw [selectThreads, ThreadFilter.allowsIn]
  split
  · rfl
  · cases f.allows (t.get r) with
    | error e => rfl
    | ok allowed => cases allowed <;> rfl

/-- The loop passes over the hidden threads. -/
theorem selectThreads_shown {rows : List Nat}
    (refused : ∀ r ∈ rows, (t.get r).passes p = false → f.allowsIn ids (t.get r) = .ok false) :
    selectThreads f ids t rows = selectThreads f ids t (rows.filter (fun r => (t.get r).passes p)) := by
  induction rows generalizing t with
  | nil => rfl
  | cons r rows ih =>
    obtain ⟨own, others⟩ := List.forall_mem_cons.mp refused
    have later : ∀ i ∈ rows, ((t.update r Thread.withStateUpdatedAt).get i).passes p = false →
        f.allowsIn ids ((t.update r Thread.withStateUpdatedAt).get i) = .ok false := by
      intro i member fails
      rw [Table.update_get] at fails ⊢
      split at fails
      · rename_i here
        rw [if_pos here, allowsIn_withStateUpdatedAt]
        exact others i member fails
      · rename_i away
        rw [if_neg away]
        exact others i member fails
    have tests : rows.filter (fun i => ((t.update r Thread.withStateUpdatedAt).get i).passes p) =
        rows.filter (fun i => (t.get i).passes p) := by
      refine List.filter_congr (fun i _ => ?_)
      rw [Table.update_get]
      split <;> rfl
    cases passed : (t.get r).passes p with
    | true =>
      simp only [List.filter_cons, passed, if_true]
      rw [selectThreads_cons, selectThreads_cons, ih others, ih later, tests]
    | false =>
      simp only [List.filter_cons, passed, Bool.false_eq_true, if_false]
      rw [selectThreads_cons, own passed]
      exact ih others

/-- The rows that two loops select, or the error of both. -/
inductive SameRows {α : Type} (p : α → Bool) (t t' : Table α) :
    Except PyError (List Nat) → Except PyError (List Nat) → Prop
  | error (e) : SameRows p t t' (.error e) (.error e)
  | ok {rows rows'} : List.Forall₂ (Table.Twins p t t') rows rows' → SameRows p t t' (.ok rows) (.ok rows')

/-- The loop moves no record. -/
theorem selectThreads_rows (p : String → Bool) (f : ThreadFilter) (ids : Option (List Uuid)) (t : Table Thread) (rows : List Nat) :
    (selectThreads f ids t rows).1.shown (Thread.passes p) = t.shown (Thread.passes p) := by
  induction rows generalizing t with
  | nil => rfl
  | cons r rows ih =>
    rw [selectThreads_cons]
    split
    · rfl
    · exact ih t
    · exact (ih _).trans (Table.shown_update t r passes_withStateUpdatedAt)

theorem selectThreads_agree (f : ThreadFilter) (ids : Option (List Uuid)) {first first' u u' : Table Thread} (agree : Table.Agree (Thread.passes p) first first' t t')
    (same : t.shown (Thread.passes p) = u.shown (Thread.passes p)) (same' : t'.shown (Thread.passes p) = u'.shown (Thread.passes p))
    {rows rows' : List Nat} (paired : List.Forall₂ (Table.Twins (Thread.passes p) u u') rows rows') :
    Table.Agree (Thread.passes p) first first' (selectThreads f ids t rows).1 (selectThreads f ids t' rows').1 ∧
      SameRows (Thread.passes p) u u' (selectThreads f ids t rows).2 (selectThreads f ids t' rows').2 := by
  induction paired generalizing t t' with
  | nil => exact ⟨agree, .ok .nil⟩
  | @cons r r' rows rows' twins paired ih =>
    have here : Table.Twins (Thread.passes p) t t' r r' := twins.of_shown same same'
    rw [selectThreads_cons, selectThreads_cons, here.get agree.alike]
    cases f.allowsIn ids (t'.get r') with
    | error e => exact ⟨agree, .error e⟩
    | ok allowed =>
      cases allowed with
      | false => exact ih agree same same'
      | true =>
        obtain ⟨tables, selected⟩ := ih (agree.update here passes_withStateUpdatedAt)
          ((Table.shown_update t r passes_withStateUpdatedAt).trans same)
          ((Table.shown_update t' r' passes_withStateUpdatedAt).trans same')
        refine ⟨tables, ?_⟩
        dsimp only
        generalize (selectThreads f ids (t.update r Thread.withStateUpdatedAt) rows).2 = found at selected ⊢
        generalize (selectThreads f ids (t'.update r' Thread.withStateUpdatedAt) rows').2 = found' at selected ⊢
        cases selected with
        | error e => exact .error e
        | ok others => exact .ok (.cons twins others)

end Select

section Calls

variable (uuid : String → Except PyError Uuid) (upper : String → String)

theorem mem_sortThreads {sortBy sortOrder : Option String} {threads : List Thread} {thread : Thread}
    (member : thread ∈ sortThreads upper sortBy sortOrder threads) : thread ∈ threads := by
  unfold sortThreads at member
  split at member <;> exact (sortedBy_perm _ _ _).mem_iff.mp member

theorem searchWith_agree (agree : Runtime.Agree p first first' s s') (hides : first.Hides filters p)
    (hides' : first'.Hides filters p) (call : SearchCall) :
    Runtime.Agree p first first' (searchWith uuid upper s call filters).1 (searchWith uuid upper s' call filters).1 ∧
      (searchWith uuid upper s call filters).2 = (searchWith uuid upper s' call filters).2 ∧
      ReturnsOnly (fun page : Page Thread => ∀ thread ∈ page.records, thread.passes p = true)
        (searchWith uuid upper s call filters).2 := by
  unfold searchWith
  cases idSet uuid call.ids with
  | error e => exact ⟨agree, rfl, fun _ same => by cases same⟩
  | ok ids =>
    have refused : ∀ {u : Runtime}, u.Hides filters p → ∀ r ∈ u.threads.rows, (u.threads.get r).passes p = false →
        (call.filter filters).allowsIn ids (u.threads.get r) = .ok false := fun hidden r listed fails =>
      allowsIn_hidden (hidden _ (Table.mem_values.mpr ⟨r, listed, rfl⟩) fails) ids
    have skips : selectThreads (call.filter filters) ids s.threads s.threads.rows =
        selectThreads (call.filter filters) ids s.threads (s.threads.shown (Thread.passes p)) :=
      selectThreads_shown (refused (agree.hides hides))
    have skips' : selectThreads (call.filter filters) ids s'.threads s'.threads.rows =
        selectThreads (call.filter filters) ids s'.threads (s'.threads.shown (Thread.passes p)) :=
      selectThreads_shown (refused (agree.hides' hides'))
    obtain ⟨tables, selected⟩ := selectThreads_agree (call.filter filters) ids agree.threads rfl rfl agree.threads.alike.twins
    have rows := selectThreads_rows p (call.filter filters) ids s.threads (s.threads.shown (Thread.passes p))
    have rows' := selectThreads_rows p (call.filter filters) ids s'.threads (s'.threads.shown (Thread.passes p))
    dsimp only
    rw [skips, skips']
    generalize selectThreads (call.filter filters) ids s.threads (s.threads.shown (Thread.passes p)) = out at tables selected rows ⊢
    generalize selectThreads (call.filter filters) ids s'.threads (s'.threads.shown (Thread.passes p)) = out' at tables selected rows' ⊢
    obtain ⟨t, found⟩ := out
    obtain ⟨t', found'⟩ := out'
    dsimp only at tables selected rows rows' ⊢
    refine ⟨{ agree with threads := tables }, ?_⟩
    cases selected with
    | error e => exact ⟨rfl, fun _ same => by cases same⟩
    | @ok chosen chosen' paired =>
      have same : chosen.map t.get = chosen'.map t'.get :=
        Table.map_eq_of_forall₂ paired (fun twins => (twins.of_shown rows rows').get (Table.Agree.alike tables))
      refine ⟨by simp only [Except.map, same], fun page returns thread listed => ?_⟩
      cases returns
      have member := mem_sortThreads upper (List.mem_of_mem_drop (List.mem_of_mem_take listed))
      obtain ⟨r, inside, rfl⟩ := List.mem_map.mp member
      obtain ⟨r', twins⟩ := Table.exists_of_forall₂ paired inside
      exact (Table.mem_shown.mp (twins.of_shown rows rows').shown.1).2

/-- `Threads.search` -/
theorem search_goesAlike (hides : first.Hides filters p) (hides' : first'.Hides filters p) :
    GoesAlike False filters p first first' (Search.resume uuid upper) (fun _ _ point point' => point = point') noTask
      (fun page => ∀ thread ∈ page.records, thread.passes p = true) where
  tasks _ none := none.elim
  points := by
    rintro s s' point _ reply agree rfl answers
    cases point with
    | called call => exact .suspended agree rfl
    | authorizing call =>
      rw [Search.resume, Search.resume, answers.1, attempt_ok, attempt_ok]
      obtain ⟨after, same, only⟩ := searchWith_agree uuid upper agree hides hides' call
      dsimp only
      rw [← same]
      exact .finished after only

/-- `Threads.count` -/
theorem count_goesAlike (hides : first.Hides filters p) (hides' : first'.Hides filters p) :
    GoesAlike False filters p first first' Count.resume (fun _ _ point point' => point = point') noTask (fun _ => True) where
  tasks _ none := none.elim
  points := by
    rintro s s' point _ reply agree rfl answers
    cases point with
    | called call => exact .suspended agree rfl
    | authorizing call =>
      rw [Count.resume, Count.resume, answers.1, attempt_ok, attempt_ok]
      have counted : ∀ {u : Runtime}, u.Hides filters p → countThreads (call.filter filters) u.threads.values =
          countOk (call.filter filters).allows (u.threads.values.filter (Thread.passes p)) := by
        intro u hidden
        refine (countOk_filter (fun thread listed fails => ?_)).symm
        rw [ThreadFilter.allows, show (call.filter filters).filters = filters from rfl, hidden thread listed fails]
        rfl
      rw [counted (agree.hides hides), counted (agree.hides' hides'), agree.threads.shown]
      exact .finished agree (fun _ _ => trivial)

end Calls

end Threads

namespace Runs

variable {filters : PyVal} {p : String → Bool} {first first' s s' : Runtime} {runId threadId : Uuid} {reply : Reply}

theorem byIds_passes (shown : p threadId.str = true) (run : Run) (own : byIds runId threadId run = true) :
    run.passes p = true := by
  rw [Run.passes, (Threads.byIds_iff.mp own).2]
  exact shown

/-- A run of a hidden thread is as if it were not there. -/
theorem get_hidden (truthy : filters.truthy = true) (hides : s.Hides filters p) (hidden : p threadId.str = false)
    (answer : reply.answer = .ok filters) : Get.resume s (.authorizing runId threadId) reply = returned s [] := by
  rw [Get.resume, answer, attempt_ok]
  cases found : s.runs.find? (byIds runId threadId) with
  | none => rfl
  | some r =>
    have own : (s.runs.get r).threadId = threadId := (Threads.byIds_iff.mp (Table.find?_passes found)).2
    simp only [own, truthy, if_true, getWithFilters_hidden hides hidden, attempt_ok]

theorem get_goesAlike (truthy : filters.truthy = true) (hides : first.Hides filters p) (hides' : first'.Hides filters p) :
    GoesAlike False filters p first first' Get.resume (fun _ _ point point' => point = point') noTask
      (fun runs => ∀ run ∈ runs, run.passes p = true) where
  tasks _ none := none.elim
  points := by
    rintro s s' point _ reply agree rfl answers
    have nothing : ∀ run ∈ ([] : List Run), run.passes p = true := fun _ member => by cases member
    cases point with
    | called runId threadId => exact .suspended agree rfl
    | authorizing runId threadId =>
      cases shown : p threadId.str with
      | false =>
        rw [get_hidden truthy (agree.hides hides) shown answers.1, get_hidden truthy (agree.hides' hides') shown answers.1]
        exact related_returned agree nothing
      | true =>
        rw [Get.resume, Get.resume, answers.1, attempt_ok, attempt_ok]
        rcases agree.runs.alike.find? (byIds_passes shown) with ⟨none, none'⟩ | ⟨r, r', found, found', twins⟩
        · rw [none, none']
          exact related_returned agree nothing
        · simp only [found, found', truthy, if_true, twins.get agree.runs.alike]
          have looked := found_getWithFilters agree hides hides' (s'.runs.get r').threadId
          have runs := getWithFilters_runs s (s'.runs.get r').threadId filters
          have runs' := getWithFilters_runs s' (s'.runs.get r').threadId filters
          generalize Threads.getWithFilters s _ filters = out at looked runs ⊢
          generalize Threads.getWithFilters s' _ filters = out' at looked runs' ⊢
          cases looked with
          | error agree => exact related_raised agree _
          | none agree => exact related_returned agree nothing
          | some agree =>
            dsimp only at runs runs'
            have same : s.runs.get r = s'.runs.get r' := twins.get (runs ▸ runs' ▸ agree.runs.alike)
            simp only [attempt_ok, reduceCtorEq, if_false, runs, runs', same]
            refine related_returned agree (fun run member => ?_)
            rw [List.mem_singleton.mp member]
            exact (Table.mem_shown.mp twins.shown.2).2

section Select

variable {call : SearchCall}

/-- One round of the loop over a run of the thread, by what the lookup of the thread says. -/
theorem selectRuns_cons (truthy : filters.truthy = true) {r : Nat} (own : (s.runs.get r).threadId = call.threadId)
    (rows : List Nat) : selectRuns call filters s (r :: rows) =
      match Threads.getWithFilters s call.threadId filters with
      | (t, .error e) => (t, .error e)
      | (t, .ok thread) =>
        ((selectRuns call filters t rows).1, (selectRuns call filters t rows).2.map (fun others =>
          if thread.isSome && call.status.all (fun status =>
              ((selectRuns call filters t rows).1.runs.get r).status = some status)
          then r :: others else others)) := by
  rw [selectRuns, if_neg (not_not_intro own)]
  simp only [truthy, if_true]
  cases Threads.getWithFilters s call.threadId filters with
  | mk t found =>
    cases found with
    | error e => rfl
    | ok thread => rfl

theorem selectRuns_runs (truthy : filters.truthy = true) (call : SearchCall) (s : Runtime) (rows : List Nat) :
    (selectRuns call filters s rows).1.runs = s.runs := by
  induction rows generalizing s with
  | nil => rfl
  | cons r rows ih =>
    by_cases own : (s.runs.get r).threadId = call.threadId
    · have kept := getWithFilters_runs s call.threadId filters
      rw [selectRuns_cons truthy own]
      generalize Threads.getWithFilters s call.threadId filters = out at kept ⊢
      cases out with
      | mk t found =>
        cases found with
        | error e => exact kept
        | ok thread => exact (ih t).trans kept
    · rw [selectRuns, if_pos own]
      exact ih s

/-- The runs of a hidden thread are not selected. -/
theorem selectRuns_hidden (truthy : filters.truthy = true) (hides : s.Hides filters p) (hidden : p call.threadId.str = false)
    (rows : List Nat) : selectRuns call filters s rows = (s, .ok []) := by
  induction rows with
  | nil => rfl
  | cons r rows ih =>
    by_cases own : (s.runs.get r).threadId = call.threadId
    · rw [selectRuns_cons truthy own, getWithFilters_hidden hides hidden]
      simp only [ih, Except.map, Option.isSome_none, Bool.false_and, Bool.false_eq_true, if_false]
    · rw [selectRuns, if_pos own]
      exact ih

/-- The loop passes over the runs of other threads. -/
theorem selectRuns_own (truthy : filters.truthy = true) (s : Runtime) (rows : List Nat) : selectRuns call filters s rows =
    selectRuns call filters s (rows.filter (fun r => (s.runs.get r).threadId = call.threadId)) := by
  induction rows generalizing s with
  | nil => rfl
  | cons r rows ih =>
    by_cases own : (s.runs.get r).threadId = call.threadId
    · have kept := getWithFilters_runs s call.threadId filters
      rw [List.filter_cons_of_pos (by simpa using own), selectRuns_cons truthy own, selectRuns_cons truthy own]
      generalize Threads.getWithFilters s call.threadId filters = out at kept ⊢
      cases out with
      | mk t found =>
        have later := ih t
        rw [show t.runs = s.runs from kept] at later
        cases found with
        | error e => rfl
        | ok thread => simp only [later]
    · rw [List.filter_cons_of_neg (by simpa using own), selectRuns, if_pos own]
      exact ih s

theorem selectRuns_agree {runs runs' : Table Run} (truthy : filters.truthy = true) (hides : first.Hides filters p)
    (hides' : first'.Hides filters p) (call : SearchCall) (agree : Runtime.Agree p first first' s s') (same : s.runs = runs)
    (same' : s'.runs = runs')
    {rows rows' : List Nat} (paired : List.Forall₂ (Table.Twins (Run.passes p) runs runs') rows rows') :
    Runtime.Agree p first first' (selectRuns call filters s rows).1 (selectRuns call filters s' rows').1 ∧
      Threads.SameRows (Run.passes p) runs runs' (selectRuns call filters s rows).2 (selectRuns call filters s' rows').2 := by
  induction paired generalizing s s' with
  | nil => exact ⟨agree, .ok .nil⟩
  | @cons r r' rows rows' twins paired ih =>
    have record : s.runs.get r = s'.runs.get r' := (same ▸ same' ▸ twins).get agree.runs.alike
    by_cases own : (s'.runs.get r').threadId = call.threadId
    · rw [selectRuns_cons truthy (record ▸ own), selectRuns_cons truthy own]
      have looked := found_getWithFilters agree hides hides' call.threadId
      have kept := (getWithFilters_runs s call.threadId filters).trans same
      have kept' := (getWithFilters_runs s' call.threadId filters).trans same'
      generalize Threads.getWithFilters s call.threadId filters = out at looked kept ⊢
      generalize Threads.getWithFilters s' call.threadId filters = out' at looked kept' ⊢
      have select : ∀ {t t' : Runtime} {thread thread' : Option Nat}, Runtime.Agree p first first' t t' → t.runs = runs →
          t'.runs = runs' → thread.isSome = thread'.isSome →
          Runtime.Agree p first first' (selectRuns call filters t rows).1 (selectRuns call filters t' rows').1 ∧
            Threads.SameRows (Run.passes p) runs runs'
              ((selectRuns call filters t rows).2.map (fun others =>
                if thread.isSome && call.status.all (fun status =>
                  ((selectRuns call filters t rows).1.runs.get r).status = some status) then r :: others else others))
              ((selectRuns call filters t' rows').2.map (fun others =>
                if thread'.isSome && call.status.all (fun status =>
                  ((selectRuns call filters t' rows').1.runs.get r').status = some status) then r' :: others else others)) := by
        intro t t' thread thread' agree ofRuns ofRuns' both
        obtain ⟨after, selected⟩ := ih agree ofRuns ofRuns'
        have here : (selectRuns call filters t rows).1.runs.get r = (selectRuns call filters t' rows').1.runs.get r' := by
          rw [selectRuns_runs truthy, selectRuns_runs truthy, ofRuns, ofRuns', ← same, ← same', record]
        refine ⟨after, ?_⟩
        rw [here, both]
        generalize (selectRuns call filters t rows).2 = picked at selected ⊢
        generalize (selectRuns call filters t' rows').2 = picked' at selected ⊢
        cases selected with
        | error e => exact .error e
        | ok others =>
          simp only [Except.map]
          split
          · exact .ok (.cons twins others)
          · exact .ok others
      cases looked with
      | error agree => exact ⟨agree, .error _⟩
      | none agree => exact select agree kept kept' rfl
      | some agree => exact select agree kept kept' rfl
    · rw [selectRuns, selectRuns, if_pos own, if_pos (record ▸ own)]
      exact ih agree same same'

end Select

theorem mem_newestFirst {runs sorted : List Run} (ordered : newestFirst runs = .ok sorted) {run : Run} (member : run ∈ sorted) :
    run ∈ runs := by
  unfold newestFirst at ordered
  split at ordered
  · cases ordered
  · cases ordered
    exact (sortedBy_perm _ _ _).mem_iff.mp member

theorem search_goesAlike (truthy : filters.truthy = true) (hides : first.Hides filters p) (hides' : first'.Hides filters p) :
    GoesAlike False filters p first first' Search.resume (fun _ _ point point' => point = point') noTask
      (fun runs => ∀ run ∈ runs, run.passes p = true) where
  tasks _ none := none.elim
  points := by
    rintro s s' point _ reply agree rfl answers
    cases point with
    | called call => exact .suspended agree rfl
    | authorizing call =>
      rw [Search.resume, Search.resume, answers.1, attempt_ok, attempt_ok]
      cases shown : p call.threadId.str with
      | false =>
        rw [selectRuns_hidden truthy (agree.hides hides) shown, selectRuns_hidden truthy (agree.hides' hides') shown]
        dsimp only [attempt_ok, List.map_nil]
        refine related_attempt agree (fun runs ordered => related_returned agree (fun run member => ?_))
        cases mem_newestFirst ordered (List.mem_of_mem_drop (List.mem_of_mem_take member))
      | true =>
        have own : ∀ run : Run, decide (run.threadId = call.threadId) = true → run.passes p = true := by
          intro run same
          rw [Run.passes, of_decide_eq_true same]
          exact shown
        rw [selectRuns_own truthy s, selectRuns_own truthy s']
        have paired := agree.runs.alike.twins_filter own
        obtain ⟨after, selected⟩ := selectRuns_agree truthy hides hides' call agree rfl rfl paired
        have kept := selectRuns_runs truthy call s (s.runs.rows.filter (fun r => (s.runs.get r).threadId = call.threadId))
        have kept' := selectRuns_runs truthy call s' (s'.runs.rows.filter (fun r => (s'.runs.get r).threadId = call.threadId))
        generalize selectRuns call filters s _ = out at after selected kept ⊢
        generalize selectRuns call filters s' _ = out' at after selected kept' ⊢
        obtain ⟨t, picked⟩ := out
        obtain ⟨t', picked'⟩ := out'
        dsimp only at after selected kept kept' ⊢
        cases selected with
        | error e => exact related_raised after e
        | @ok rows rows' chosen =>
          have records : rows.map t.runs.get = rows'.map t'.runs.get :=
            Table.map_eq_of_forall₂ chosen (fun twins => (twins.of_shown (by rw [kept]) (by rw [kept'])).get after.runs.alike)
          rw [attempt_ok, attempt_ok, records]
          refine related_attempt after (fun runs ordered => related_returned after (fun run member => ?_))
          have listed := mem_newestFirst ordered (List.mem_of_mem_drop (List.mem_of_mem_take member))
          rw [← records] at listed
          obtain ⟨r, inside, rfl⟩ := List.mem_map.mp listed
          obtain ⟨r', twins⟩ := Table.exists_of_forall₂ chosen inside
          rw [kept]
          exact (Table.mem_shown.mp twins.shown.1).2

end Runs

end InmemRuntime
