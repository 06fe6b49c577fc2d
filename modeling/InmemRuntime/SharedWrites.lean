import InmemRuntime.SharedReads

namespace InmemRuntime

namespace Threads

variable {lag : Prop} {filters : PyVal} {p : String → Bool} {first first' s s' : Runtime}

theorem find?_hidden {threadId : Uuid} (hides : s.Hides filters p) (hidden : p threadId.str = false) :
    s.threads.find? (byId threadId) = none ∨
      ∃ r, s.threads.find? (byId threadId) = some r ∧ filtersAllow (s.threads.get r).metadata filters = .ok false := by
  cases found : s.threads.find? (byId threadId) with
  | none => exact .inl rfl
  | some r => exact .inr ⟨r, rfl, hides.refuses hidden found⟩

/-- The TTL of the thread that a call returns is set at its end. -/
theorem related_applyTtl {κ : Type} {resume : Runtime → κ → Reply → Runtime × Turn κ (Except PyError (List Thread))}
    {P : Runtime → Runtime → κ → κ → Prop} {task : κ → Prop} {threadId : Uuid} {thread : Thread}
    (agree : Runtime.Agree p first first' s s') (shown : p threadId.str = true) (ttl : Option PyDict)
    (passes : thread.passes p = true) :
    Turn.Related resume (Answers filters p) lag (Runtime.Agree p first first') P task
      (ReturnsOnly (fun threads => ∀ thread ∈ threads, thread.passes p = true))
      (attempt s (applyTtl s.threadTtls threadId ttl) (fun ttls => returned { s with threadTtls := ttls } [thread]))
      (attempt s' (applyTtl s'.threadTtls threadId ttl) (fun ttls => returned { s' with threadTtls := ttls } [thread])) := by
  rcases applyTtl_agree agree.threadTtls shown ttl with ⟨e, raise, raise'⟩ | ⟨ttls, ttls', set, set', kept⟩
  · rw [raise, raise']
    exact related_raised agree e
  · rw [set, set', attempt_ok, attempt_ok]
    have after : Runtime.Agree p first first' { s with threadTtls := ttls } { s' with threadTtls := ttls' } :=
      { agree with threadTtls := kept }
    refine related_returned after (fun other member => ?_)
    rwa [List.mem_singleton.mp member]

def Put.threadId : Put → Uuid
  | .called call | .authorizing call => call.threadId

/-- The id is one that both stores show, or one that a hidden thread of each has. -/
def Reserved (p : String → Bool) (s s' : Runtime) (threadId : Uuid) : Prop :=
  p threadId.str = true ∨
    s.threads.find? (byId threadId) ≠ none ∧ s'.threads.find? (byId threadId) ≠ none

/-- A call with the id of a hidden thread is told that the id is taken. -/
theorem put_hidden {call : PutCall} {reply : Reply} (hides : s.Hides filters p) (hidden : p call.threadId.str = false)
    (taken : s.threads.find? (byId call.threadId) ≠ none) (answer : reply.answer = .ok filters) :
    Put.resume s (.authorizing call) reply = raised s (alreadyExists call.threadId) := by
  rcases find?_hidden hides hidden with missing | ⟨r, found, refused⟩
  · exact absurd missing taken
  · rw [Put.resume, answer, attempt_ok, found]
    simp only [refused, attempt_ok, if_true]

/-- The record that `put` appends is the same in every store. -/
theorem create_spec (call : PutCall) (now : Time) : ∃ thread : Thread, thread.threadId = call.threadId ∧
    ∀ s, Put.create s call now =
      attempt { s with threads := s.threads.append thread } (applyTtl s.threadTtls call.threadId call.ttl) (fun ttls =>
        returned { s with threads := s.threads.append thread, threadTtls := ttls } [thread]) := by
  let thread : Thread :=
    { threadId := call.threadId, createdAt := now, updatedAt := now, stateUpdatedAt := some now,
      metadata := call.metadata.getD [], status := .idle, config := [], values := some .none,
      interrupts := none, error := none }
  exact ⟨thread, rfl, fun s => rfl⟩

theorem put_goesAlike (hides : first.Hides filters p) (hides' : first'.Hides filters p) :
    GoesAlike False filters p first first' Put.resume
      (fun s s' point point' => point = point' ∧ Reserved p s s' point.threadId) noTask
      (fun threads => ∀ thread ∈ threads, thread.passes p = true) where
  tasks _ none := none.elim
  points := by
    rintro s s' point _ reply agree ⟨rfl, reserved⟩ answers
    cases point with
    | called call => exact .suspended agree ⟨rfl, reserved⟩
    | authorizing call =>
      cases shown : p call.threadId.str with
      | false =>
        obtain ⟨taken, taken'⟩ := reserved.resolve_left (by rw [Put.threadId, shown]; exact Bool.false_ne_true)
        rw [put_hidden (agree.hides hides) shown taken answers.1, put_hidden (agree.hides' hides') shown taken' answers.1]
        exact related_raised agree _
      | true =>
        rw [Put.resume, Put.resume, answers.1, attempt_ok, attempt_ok]
        rcases agree.threads.alike.find? (byId_passes shown) with ⟨missing, missing'⟩ | ⟨r, r', found, found', twins⟩
        · rw [missing, missing']
          have appended : ∀ thread : Thread, thread.passes p = true → Runtime.Agree p first first'
              { s with threads := s.threads.append thread } { s' with threads := s'.threads.append thread } :=
            fun thread passes => { agree with threads := agree.threads.append passes }
          obtain ⟨thread, own, creates⟩ := create_spec call reply.now
          have passes : thread.passes p = true := by rw [Thread.passes, own, shown]
          dsimp only
          rw [creates, creates]
          exact related_applyTtl (appended thread passes) shown call.ttl passes
        · simp only [found, found', twins.get agree.threads.alike]
          refine related_attempt agree (fun allowed _ => ?_)
          split
          · exact related_raised agree _
          · split
            · exact related_raised agree _
            · refine related_returned agree (fun other member => ?_)
              rw [List.mem_singleton.mp member]
              exact (Table.mem_shown.mp twins.shown.2).2

/-- The position is that of a hidden thread. -/
def HiddenAt (p : String → Bool) (s : Runtime) (i : Nat) : Prop :=
  ∃ r, s.threads.rows[i]? = some r ∧ (s.threads.get r).passes p = false

/-- Where the same call waits in two stores. -/
inductive Patch.Alike (p : String → Bool) (s s' : Runtime) : Patch → Patch → Prop
  | called (call) : Alike p s s' (.called call) (.called call)
  | shown {call i i' r r'} : p call.threadId.str = true → s.threads.rows[i]? = some r → s'.threads.rows[i']? = some r' →
      Table.Twins (Thread.passes p) s.threads s'.threads r r' → Alike p s s' (.authorizing call i) (.authorizing call i')
  | hidden {call i i'} : HiddenAt p s i → HiddenAt p s' i' → Alike p s s' (.authorizing call i) (.authorizing call i')

theorem HiddenAt.refuses {i : Nat} (at_i : HiddenAt p s i) (hides : s.Hides filters p) :
    ∃ r, s.threads.rows[i]? = some r ∧ filtersAllow (s.threads.get r).metadata filters = .ok false := by
  obtain ⟨r, stands, fails⟩ := at_i
  exact ⟨r, stands, hides _ (Table.mem_values.mpr ⟨r, List.mem_of_getElem? stands, rfl⟩) fails⟩

/-- A call at a hidden thread changes nothing and returns nothing. -/
theorem patch_hidden {call : PatchCall} {i : Nat} (hides : s.Hides filters p) (at_i : HiddenAt p s i) :
    Turn.OnlyEnds Patch.resume (Answers filters p) s (.authorizing call i) (.ok []) := by
  intro reply answers
  obtain ⟨r, stands, refused⟩ := at_i.refuses hides
  rw [Patch.resume, answers.1, attempt_ok, stands]
  simp only [refused, attempt_ok, if_true]
  rfl

theorem findIdx?_hidden {threadId : Uuid} (hidden : p threadId.str = false) :
    s.threads.findIdx? (byId threadId) = none ∨ ∃ i, s.threads.findIdx? (byId threadId) = some i ∧ HiddenAt p s i := by
  cases found : s.threads.findIdx? (byId threadId) with
  | none => exact .inl rfl
  | some i =>
    obtain ⟨r, stands, own⟩ := Table.findIdx?_eq_some found
    refine .inr ⟨i, rfl, r, stands, ?_⟩
    rw [Thread.passes, of_decide_eq_true own]
    exact hidden

theorem patch_goesAlike (hides : first.Hides filters p) (hides' : first'.Hides filters p) :
    GoesAlike True filters p first first' Patch.resume (Patch.Alike p) noTask
      (fun threads => ∀ thread ∈ threads, thread.passes p = true) where
  tasks _ none := none.elim
  points := by
    intro s s' point point' reply agree alike answers
    have nothing : ReturnsOnly (fun threads => ∀ thread ∈ threads, thread.passes p = true) (.ok [] : Except PyError (List Thread)) := by
      rintro _ ⟨⟩ thread member
      cases member
    cases alike with
    | called call =>
      simp only [Patch.resume]
      cases shown : p call.threadId.str with
      | false =>
        rcases findIdx?_hidden (s := s) shown with missing | ⟨i, found, at_i⟩ <;>
          rcases findIdx?_hidden (s := s') shown with missing' | ⟨i', found', at_i'⟩
        · rw [missing, missing']
          exact .finished agree nothing
        · rw [missing, found']
          exact .late trivial agree nothing (patch_hidden (agree.hides' hides') at_i')
        · rw [found, missing']
          exact .early trivial agree nothing (patch_hidden (agree.hides hides) at_i)
        · rw [found, found']
          exact .suspended agree (.hidden at_i at_i')
      | true =>
        rw [← Table.locate?_fst, ← Table.locate?_fst]
        rcases agree.threads.alike.locate? (byId_passes shown) with ⟨missing, missing'⟩ | ⟨i, r, i', r', found, found', atI, atI', twins⟩
        · rw [missing, missing']
          exact .finished agree nothing
        · rw [found, found']
          exact .suspended agree (.shown shown atI atI' twins)
    | hidden at_i at_i' =>
      rw [patch_hidden (agree.hides hides) at_i reply answers, patch_hidden (agree.hides' hides') at_i' reply answers]
      exact .finished agree nothing
    | @shown call i i' r r' shown atI atI' twins =>
      rw [Patch.resume, Patch.resume, answers.1, attempt_ok, attempt_ok, atI, atI']
      simp only [twins.get agree.threads.alike]
      refine related_attempt agree (fun allowed _ => ?_)
      split
      · exact .finished agree nothing
      · have passes : (patched (s'.threads.get r') call.metadata reply.now).passes p = true :=
          (Table.mem_shown.mp twins.shown.2).2
        have replaced : ∀ thread : Thread, thread.passes p = true → Runtime.Agree p first first'
            { s with threads := s.threads.replaceAt i thread } { s' with threads := s'.threads.replaceAt i' thread } :=
          fun thread passes => { agree with threads := agree.threads.replaceAt atI atI' twins passes }
        exact related_applyTtl (replaced _ passes) shown call.ttl passes

/-- The search found nothing, or a hidden thread. -/
def UnfitAt (p : String → Bool) (s : Runtime) (found : Option (Nat × Nat)) : Prop :=
  ∀ i r, found = some (i, r) → r ∈ s.threads.rows ∧ (s.threads.get r).passes p = false

/-- Where the same call waits in two stores. -/
inductive Delete.Alike (p : String → Bool) (s s' : Runtime) : Delete → Delete → Prop
  | called (threadId) : Alike p s s' (.called threadId) (.called threadId)
  | shown {threadId i i' r r'} : p threadId.str = true → s.threads.rows[i]? = some r → s'.threads.rows[i']? = some r' →
      Table.Twins (Thread.passes p) s.threads s'.threads r r' →
      Alike p s s' (.authorizing threadId (some (i, r))) (.authorizing threadId (some (i', r')))
  | unfit {threadId found found'} : UnfitAt p s found → UnfitAt p s' found' →
      Alike p s s' (.authorizing threadId found) (.authorizing threadId found')
  | deleting {threadId i i' r r'} : p threadId.str = true → s.threads.rows[i]? = some r → s'.threads.rows[i']? = some r' →
      Table.Twins (Thread.passes p) s.threads s'.threads r r' →
      Alike p s s' (.deletingCheckpoints threadId i) (.deletingCheckpoints threadId i')

variable {base : BaseSaver}

/-- The search of a deletion comes to related points. -/
theorem locate_alike (agree : Runtime.Agree p first first' s s') (threadId : Uuid) :
    Delete.Alike p s s' (.authorizing threadId (s.threads.locate? (byId threadId)))
      (.authorizing threadId (s'.threads.locate? (byId threadId))) := by
  have unfit : ∀ u : Runtime, p threadId.str = false → UnfitAt p u (u.threads.locate? (byId threadId)) := by
    intro u hidden i r found
    obtain ⟨stands, own⟩ := Table.locate?_eq_some found
    refine ⟨List.mem_of_getElem? stands, ?_⟩
    rw [Thread.passes, of_decide_eq_true own]
    exact hidden
  cases shown : p threadId.str with
  | false => exact .unfit (unfit s shown) (unfit s' shown)
  | true =>
    rcases agree.threads.alike.locate? (byId_passes shown) with
      ⟨missing, missing'⟩ | ⟨i, r, i', r', found, found', atI, atI', twins⟩
    · rw [missing, missing']
      refine .unfit ?_ ?_ <;>
      · intro i r found
        cases found
    · rw [found, found']
      exact .shown shown atI atI' twins

/-- A hidden thread is as if it were not there. -/
theorem delete_unfit {threadId : Uuid} {found : Option (Nat × Nat)} {reply : Reply} (hides : s.Hides filters p)
    (unfit : UnfitAt p s found) (answer : reply.answer = .ok filters) :
    Delete.resume base s (.authorizing threadId found) reply = raised s (notFound threadId) := by
  rw [Delete.resume, answer, attempt_ok]
  cases found with
  | none => rfl
  | some pair =>
    obtain ⟨listed, fails⟩ := unfit pair.1 pair.2 rfl
    simp only [hides _ (Table.mem_values.mpr ⟨_, listed, rfl⟩) fails, attempt_ok, if_true]

theorem cascade_agree {threadId : Uuid} (agree : Runtime.Agree p first first' s s') (shown : p threadId.str = true) :
    Runtime.Agree p first first' (cascade s threadId) (cascade s' threadId) := by
  refine { agree with runs := agree.runs.keep (fun run fails => ?_), crons := agree.crons.filter (fun cron fails => ?_) }
  · rw [decide_eq_true_iff]
    rintro rfl
    rw [Run.passes, shown] at fails
    cases fails
  · rw [decide_eq_true_iff]
    intro own
    rw [Cron.passes, own, Option.elim_some, shown] at fails
    cases fails

theorem pop_related {threadId : Uuid} {i i' r r' : Nat} (agree : Runtime.Agree p first first' s s')
    (shown : p threadId.str = true) (atI : s.threads.rows[i]? = some r) (atI' : s'.threads.rows[i']? = some r')
    (twins : Table.Twins (Thread.passes p) s.threads s'.threads r r') :
    Turn.Related (Delete.resume base) (Answers filters p) lag (Runtime.Agree p first first') (Delete.Alike p) noTask
      (ReturnsOnly (fun ids => ∀ id ∈ ids, p id.str = true)) (Delete.pop s threadId i) (Delete.pop s' threadId i') := by
  simp only [Delete.pop, atI, atI', twins.get agree.threads.alike]
  have popped : Runtime.Agree p first first'
      { s with threads := s.threads.pop i, threadTtls := s.threadTtls.erase threadId.str }
      { s' with threads := s'.threads.pop i', threadTtls := s'.threadTtls.erase threadId.str } :=
    { agree with threads := agree.threads.pop atI atI' twins, threadTtls := agree.threadTtls.erase shown }
  refine related_returned popped (fun id member => ?_)
  rw [List.mem_singleton.mp member]
  exact (Table.mem_shown.mp twins.shown.2).2

theorem delete_goesAlike (hides : first.Hides filters p) (hides' : first'.Hides filters p) :
    GoesAlike False filters p first first' (Delete.resume base) (Delete.Alike p) noTask
      (fun ids => ∀ id ∈ ids, p id.str = true) where
  tasks _ none := none.elim
  points := by
    intro s s' point point' reply agree alike answers
    cases alike with
    | called threadId => exact .suspended agree (locate_alike agree threadId)
    | unfit unfit unfit' =>
      rw [delete_unfit (agree.hides hides) unfit answers.1, delete_unfit (agree.hides' hides') unfit' answers.1]
      exact related_raised agree _
    | @shown threadId i i' r r' shown atI atI' twins =>
      rw [Delete.resume, Delete.resume, answers.1, attempt_ok, attempt_ok]
      simp only [twins.get agree.threads.alike]
      refine related_attempt agree (fun allowed _ => ?_)
      have cascaded := cascade_agree agree shown
      split
      · exact related_raised agree _
      · refine related_ite (by rw [cascaded.config]) (fun _ => ?_) (fun _ => ?_)
        · exact .suspended cascaded (.deleting shown atI atI' twins)
        · exact pop_related (cascaded.withMemory (agree.memory.deleteThread base shown)) shown atI atI' twins
    | deleting shown atI atI' twins =>
      rw [Delete.resume, Delete.resume, answers.1, attempt_ok, attempt_ok]
      exact pop_related agree shown atI atI' twins

/-- The id of the copy is one that the stores show, and what the call keeps of its handler are the filters. -/
def Copy.Waits (filters : PyVal) (p : String → Bool) : Copy → Prop
  | .called _ => True
  | .authorizingRead _ newThreadId => p newThreadId.str = true
  | .authorizingCreate _ newThreadId readFilters => p newThreadId.str = true ∧ readFilters = filters
  | .copyingCheckpoints thread => thread.passes p = true

theorem copyTtl_agree {threadId newThreadId : Uuid} (agree : Runtime.Agree p first first' s s') (shown : p threadId.str = true)
    (new : p newThreadId.str = true) :
    Dict.Agree p first.threadTtls first'.threadTtls (copyTtl s.threadTtls threadId newThreadId)
      (copyTtl s'.threadTtls threadId newThreadId) := by
  unfold copyTtl
  rw [agree.threadTtls.get? shown]
  split
  · exact agree.threadTtls.set new _
  · exact agree.threadTtls

/-- A call on a hidden thread changes nothing and returns nothing. -/
theorem copy_hidden {threadId newThreadId : Uuid} {reply : Reply} (hides : s.Hides filters p) (hidden : p threadId.str = false)
    (answer : reply.answer = .ok filters) :
    Copy.resume s (.authorizingCreate threadId newThreadId filters) reply = returned s [] := by
  rw [Copy.resume, answer, attempt_ok]
  rcases find?_hidden hides hidden with missing | ⟨r, found, refused⟩
  · rw [missing]
  · simp only [found, refused, attempt_ok, if_true]

theorem create_related {original : Thread} {newThreadId : Uuid} {now : Time} (agree : Runtime.Agree p first first' s s')
    (source : original.passes p = true) (new : p newThreadId.str = true) :
    Turn.Related Copy.resume (Answers filters p) lag (Runtime.Agree p first first')
      (fun _ _ point point' => point = point' ∧ point.Waits filters p) noTask
      (ReturnsOnly (fun threads => ∀ thread ∈ threads, thread.passes p = true))
      (Copy.create s original newThreadId now) (Copy.create s' original newThreadId now) := by
  unfold Copy.create
  generalize stored : ({
    threadId := newThreadId, createdAt := now, updatedAt := now, stateUpdatedAt := some now,
    metadata := original.metadata, status := .idle, config := [], values := none, interrupts := none,
    error := none } : Thread) = thread
  have passes : thread.passes p = true := by
    rw [← stored]
    exact new
  have appended : Runtime.Agree p first first'
      { s with threads := s.threads.append thread, threadTtls := copyTtl s.threadTtls original.threadId newThreadId }
      { s' with threads := s'.threads.append thread, threadTtls := copyTtl s'.threadTtls original.threadId newThreadId } :=
    { agree with threads := agree.threads.append passes, threadTtls := copyTtl_agree agree source new }
  refine related_ite (by rw [appended.config]) (fun _ => ?_) (fun _ => ?_)
  · exact .suspended appended ⟨rfl, passes⟩
  · have copied : SameKind (Memory.Agree p first.memory first'.memory)
        (s.memory.copyThread original.threadId newThreadId) (s'.memory.copyThread original.threadId newThreadId) :=
      agree.memory.copyThread source new
    generalize s.memory.copyThread original.threadId newThreadId = one at copied ⊢
    generalize s'.memory.copyThread original.threadId newThreadId = two at copied ⊢
    cases copied with
    | error memory => exact related_raised (appended.withMemory memory) _
    | ok memory =>
      refine related_returned (appended.withMemory memory) (fun other member => ?_)
      rwa [List.mem_singleton.mp member]

theorem copy_goesAlike (hides : first.Hides filters p) (hides' : first'.Hides filters p) :
    GoesAlike False filters p first first' Copy.resume
      (fun _ _ point point' => point = point' ∧ point.Waits filters p) noTask
      (fun threads => ∀ thread ∈ threads, thread.passes p = true) where
  tasks _ none := none.elim
  points := by
    rintro s s' point _ reply agree ⟨rfl, waits⟩ answers
    have nothing : ∀ thread ∈ ([] : List Thread), thread.passes p = true := fun _ member => by cases member
    cases point with
    | called threadId => exact .suspended agree ⟨rfl, answers.2⟩
    | authorizingRead threadId newThreadId =>
      rw [Copy.resume, Copy.resume, answers.1, attempt_ok, attempt_ok]
      exact .suspended agree ⟨rfl, waits, rfl⟩
    | copyingCheckpoints thread =>
      rw [Copy.resume, Copy.resume, answers.1, attempt_ok, attempt_ok]
      refine related_returned agree (fun other member => ?_)
      rw [List.mem_singleton.mp member]
      exact waits
    | authorizingCreate threadId newThreadId readFilters =>
      obtain ⟨new, rfl⟩ := waits
      cases shown : p threadId.str with
      | false =>
        rw [copy_hidden (agree.hides hides) shown answers.1, copy_hidden (agree.hides' hides') shown answers.1]
        exact related_returned agree nothing
      | true =>
        rw [Copy.resume, Copy.resume, answers.1, attempt_ok, attempt_ok]
        rcases agree.threads.alike.find? (byId_passes shown) with ⟨missing, missing'⟩ | ⟨r, r', found, found', twins⟩
        · rw [missing, missing']
          exact related_returned agree nothing
        · simp only [found, found', twins.get agree.threads.alike]
          refine related_attempt agree (fun allowed _ => ?_)
          split
          · exact related_returned agree nothing
          · exact create_related agree (Table.mem_shown.mp twins.shown.2).2 new

section Prune

variable {uuid : String → Except PyError Uuid} {base : BaseSaver} {serde : Serde} {fuel : Nat}

/-- Where the same call waits in two stores. The checkpointer is given no hidden ids. -/
inductive Prune.Alike (filters : PyVal) (p : String → Bool) (s s' : Runtime) : Prune → Prune → Prop
  | called (call) : Alike filters p s s' (.called call) (.called call)
  | authorizing (call) : Alike filters p s s' (.authorizing call) (.authorizing call)
  | validating (call) : Alike filters p s s' (.validating call filters) (.validating call filters)
  | deleting {pruned deletion deletion' rest} : Delete.Alike p s s' deletion deletion' →
      Alike filters p s s' (.deleting pruned deletion rest) (.deleting pruned deletion' rest)
  | gettingCheckpointer {call existing existing'} :
      orderedIds call.threadIds existing = orderedIds call.threadIds existing' →
      (∀ id ∈ orderedIds call.threadIds existing, p id = true) →
      Alike filters p s s' (.gettingCheckpointer call existing) (.gettingCheckpointer call existing')
  | pruning {outcome rest} : (∀ id ∈ outcome.handed, p id = true) → (∀ batch ∈ rest, ∀ id ∈ batch, p id = true) →
      Alike filters p s s' (.pruning outcome rest) (.pruning outcome rest)
  | stuck : Alike filters p s s' .stuck .stuck

/-- The id is that of a thread which the stores show. -/
def ShownId (uuid : String → Except PyError Uuid) (p : String → Bool) (tid : IdArg) : Prop :=
  ∃ threadId, ensureUuid uuid tid = .ok threadId ∧ p threadId.str = true

/-- The checks go alike, and they all succeed for shown threads only. -/
theorem validate_agree (uuid : String → Except PyError Uuid) (hides : first.Hides filters p) (hides' : first'.Hides filters p)
    (agree : Runtime.Agree p first first' s s') (threadIds : List IdArg) :
    Runtime.Agree p first first' (Prune.validate uuid s filters threadIds).1 (Prune.validate uuid s' filters threadIds).1 ∧
      (Prune.validate uuid s filters threadIds).2 = (Prune.validate uuid s' filters threadIds).2 ∧
      ((Prune.validate uuid s filters threadIds).2 = .ok true → ∀ tid ∈ threadIds, ShownId uuid p tid) := by
  induction threadIds generalizing s s' with
  | nil => exact ⟨agree, rfl, fun _ tid member => by cases member⟩
  | cons tid rest ih =>
    simp only [Prune.validate]
    cases parsed : ensureUuid uuid tid with
    | error e =>
      obtain ⟨after, _, _⟩ := ih agree
      exact ⟨after, rfl, fun all => by cases all⟩
    | ok threadId =>
      have looked := found_getWithFilters agree hides hides' threadId
      dsimp only
      generalize getWithFilters s threadId filters = out at looked ⊢
      generalize getWithFilters s' threadId filters = out' at looked ⊢
      cases looked with
      | error agree =>
        obtain ⟨after, _, _⟩ := ih agree
        exact ⟨after, rfl, fun all => by cases all⟩
      | none agree =>
        obtain ⟨after, same, _⟩ := ih agree
        dsimp only
        rw [same]
        refine ⟨after, rfl, fun all => ?_⟩
        cases others : (Prune.validate uuid _ filters rest).2 with
        | error e =>
          rw [others] at all
          cases all
        | ok value =>
          rw [others] at all
          cases all
      | some agree shown =>
        obtain ⟨after, same, only⟩ := ih agree
        dsimp only
        rw [same] at only ⊢
        refine ⟨after, rfl, fun all => ?_⟩
        cases others : (Prune.validate uuid _ filters rest).2 with
        | error e =>
          rw [others] at all
          cases all
        | ok value =>
          rw [others] at all
          have passed : value = true := Except.ok.inj all
          rw [others, passed] at only
          exact List.forall_mem_cons.mpr ⟨⟨threadId, parsed, shown⟩, only rfl⟩

theorem mem_threadIds_agree (agree : Runtime.Agree p first first' s s') {threadId : Uuid} (shown : p threadId.str = true) :
    threadId ∈ s.threadIds ↔ threadId ∈ s'.threadIds := by
  have listed : ∀ u : Runtime, threadId ∈ u.threadIds ↔
      threadId ∈ (u.threads.values.filter (Thread.passes p)).map Thread.threadId := by
    intro u
    simp only [GlobalStore.threadIds, List.mem_map, List.mem_filter]
    refine exists_congr (fun thread => and_congr_left (fun own => (and_iff_left ?_).symm))
    rw [Thread.passes, own, shown]
  rw [listed s, listed s', agree.threads.shown]

/-- The ids that are handed over are the same, and those of shown threads. -/
theorem orderedIds_agree (canonical : ∀ u : Uuid, uuid u.str = .ok u) (agree : Runtime.Agree p first first' s s')
    {threadIds : List IdArg} (shown : ∀ tid ∈ threadIds, ShownId uuid p tid) :
    orderedIds threadIds (existingIds s.toGlobalStore threadIds) =
        orderedIds threadIds (existingIds s'.toGlobalStore threadIds) ∧
      ∀ id ∈ orderedIds threadIds (existingIds s.toGlobalStore threadIds), p id = true := by
  have passes : ∀ u : Uuid, u.str ∈ threadIds.map IdArg.str → p u.str = true := by
    intro u named
    obtain ⟨tid, listed, text⟩ := List.mem_map.mp named
    obtain ⟨threadId, parsed, passes⟩ := shown tid listed
    cases tid with
    | uuid v =>
      rw [← text]
      exact Except.ok.inj parsed ▸ passes
    | text t =>
      cases text
      exact Except.ok.inj ((canonical u).symm.trans parsed) ▸ passes
  refine ⟨List.filter_congr (fun id named => ?_), fun id ordered => ?_⟩
  · have stored : ∀ u : Runtime, id ∈ existingIds u.toGlobalStore threadIds ↔ ∃ v, v.str = id ∧ v ∈ u.threadIds := by
      intro u
      rw [existingIds, List.mem_filter, List.mem_map, decide_eq_true_iff]
      rw [and_iff_left named]
      exact exists_congr (fun v => and_comm)
    rw [decide_eq_decide, stored, stored]
    refine exists_congr (fun v => and_congr_right (fun text => ?_))
    exact mem_threadIds_agree agree (passes v (text ▸ named))
  · obtain ⟨named, v, _, text⟩ := mem_orderedIds.mp ordered
    rw [← text] at named ⊢
    exact passes v named

abbrev PruneRelated (filters : PyVal) (p : String → Bool) (first first' : Runtime)
    (uuid : String → Except PyError Uuid) (base : BaseSaver) (serde : Serde) (fuel : Nat) : PruneTurn → PruneTurn → Prop :=
  Turn.Related (Prune.resume uuid base serde fuel) (Answers filters p) False (Runtime.Agree p first first')
    (Prune.Alike filters p) noTask (ReturnsOnly (fun outcome => ∀ id ∈ outcome.handed, p id = true))

theorem deleteEach_related (agree : Runtime.Agree p first first' s s') (pruned : Nat) (rest : List IdArg) :
    PruneRelated filters p first first' uuid base serde fuel (Prune.deleteEach uuid s pruned rest)
      (Prune.deleteEach uuid s' pruned rest) := by
  cases rest with
  | nil => exact related_returned agree (fun id member => by cases member)
  | cons tid rest => exact related_attempt agree (fun threadId _ => .suspended agree (.deleting (locate_alike agree threadId)))

theorem afterDelete_related {pruned : Nat} {rest : List IdArg}
    {out out' : Runtime × Turn Delete (Except PyError (List Uuid))}
    (related : Turn.Related (Delete.resume base) (Answers filters p) False (Runtime.Agree p first first') (Delete.Alike p) noTask
      (ReturnsOnly (fun ids => ∀ id ∈ ids, p id.str = true)) out out') :
    PruneRelated filters p first first' uuid base serde fuel (Prune.afterDelete uuid pruned rest out)
      (Prune.afterDelete uuid pruned rest out') := by
  cases related with
  | late may => exact may.elim
  | early may => exact may.elim
  | suspended agree alike => exact .suspended agree (.deleting alike)
  | forked agree safe alike => exact .suspended agree (.deleting (alike _ _ agree))
  | @finished t t' outcome agree _ =>
    cases outcome with
    | ok ids => exact deleteEach_related agree _ rest
    | error e =>
      cases e with
      | http status detail => exact deleteEach_related agree _ rest
      | _ => exact related_raised agree _

theorem pruneEach_related {outcome : PruneOutcome} {batches : List (List String)} (agree : Runtime.Agree p first first' s s')
    (handed : ∀ id ∈ outcome.handed, p id = true) (shown : ∀ batch ∈ batches, ∀ id ∈ batch, p id = true) :
    PruneRelated filters p first first' uuid base serde fuel (Prune.pruneEach base serde fuel s outcome batches)
      (Prune.pruneEach base serde fuel s' outcome batches) := by
  induction batches generalizing s s' outcome with
  | nil => exact related_returned agree handed
  | cons batch rest ih =>
    obtain ⟨here, later⟩ := List.forall_mem_cons.mp shown
    have added : ∀ id ∈ (outcome.add batch).handed, p id = true := by
      intro id member
      rcases List.mem_append.mp member with old | new
      · exact handed id old
      · exact here id new
    simp only [Prune.pruneEach, prune_texts]
    refine related_ite (by rw [agree.config]) (fun _ => .suspended agree (.pruning added later)) (fun _ => ?_)
    have pruned : Option.Rel (Memory.Agree p first.memory first'.memory) (batch.foldlM (pruneThread serde fuel) s.memory)
        (batch.foldlM (pruneThread serde fuel) s'.memory) :=
      Memory.Agree.foldlM (fun id member memory => memory.pruneThread (here id member)) agree.memory
    generalize batch.foldlM (pruneThread serde fuel) s.memory = one at pruned ⊢
    generalize batch.foldlM (pruneThread serde fuel) s'.memory = two at pruned ⊢
    cases pruned with
    | none => exact .suspended agree .stuck
    | some memory => exact ih (agree.withMemory memory) added later

theorem start_related (canonical : ∀ u : Uuid, uuid u.str = .ok u) (agree : Runtime.Agree p first first' s s')
    {call : PruneCall} (shown : ∀ tid ∈ call.threadIds, ShownId uuid p tid) :
    PruneRelated filters p first first' uuid base serde fuel (Prune.start uuid s call) (Prune.start uuid s' call) := by
  unfold Prune.start
  cases call.strategy with
  | delete => exact deleteEach_related agree 0 call.threadIds
  | keepLatest =>
    obtain ⟨same, only⟩ := orderedIds_agree canonical agree shown
    exact .suspended agree (.gettingCheckpointer same only)
  | _ => exact related_raised agree _

theorem prune_goesAlike (canonical : ∀ u : Uuid, uuid u.str = .ok u) (truthy : filters.truthy = true)
    (hides : first.Hides filters p) (hides' : first'.Hides filters p) :
    GoesAlike False filters p first first' (Prune.resume uuid base serde fuel) (Prune.Alike filters p) noTask
      (fun outcome => ∀ id ∈ outcome.handed, p id = true) where
  tasks _ none := none.elim
  points := by
    intro s s' point point' reply agree alike answers
    cases alike with
    | called call =>
      refine related_ite Iff.rfl (fun _ => ?_) (fun _ => .suspended agree (.authorizing call))
      exact related_returned agree (fun id member => by cases member)
    | authorizing call =>
      rw [Prune.resume, Prune.resume, answers.1, attempt_ok, attempt_ok, if_pos truthy, if_pos truthy]
      exact .suspended agree (.validating call)
    | validating call =>
      obtain ⟨after, same, only⟩ := validate_agree uuid hides hides' agree call.threadIds
      rw [Prune.resume, Prune.resume]
      generalize Prune.validate uuid s filters call.threadIds = out at after same only ⊢
      generalize Prune.validate uuid s' filters call.threadIds = out' at after same ⊢
      obtain ⟨t, checked⟩ := out
      obtain ⟨t', checked'⟩ := out'
      dsimp only at after same only
      subst same
      cases checked with
      | error e => exact related_raised after e
      | ok all =>
        cases all with
        | false => exact related_raised after _
        | true => exact start_related canonical after (only rfl)
    | deleting alike =>
      exact afterDelete_related ((delete_goesAlike hides hides').points agree alike answers)
    | gettingCheckpointer same only =>
      rw [Prune.resume, Prune.resume, answers.1, attempt_ok, attempt_ok, ← same]
      refine pruneEach_related agree (fun id member => by cases member) (fun batch listed id member => only id ?_)
      have whole := List.mem_flatten.mpr ⟨batch, listed, member⟩
      rwa [flatten_idBatches] at whole
    | pruning handed shown =>
      rw [Prune.resume, Prune.resume, answers.1, attempt_ok, attempt_ok]
      exact pruneEach_related agree handed shown
    | stuck => exact .suspended agree .stuck

end Prune

end Threads

end InmemRuntime
