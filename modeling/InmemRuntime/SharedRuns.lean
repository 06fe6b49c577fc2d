import InmemRuntime.RunsCancel
import InmemRuntime.RunsPut
import InmemRuntime.SharedWrites

namespace InmemRuntime

namespace Runs

variable {filters : PyVal} {p : String → Bool} {first first' s s' : Runtime}

def Delete.threadId : Delete → Uuid
  | .called _ threadId | .authorizing _ threadId | .deletingCheckpoints _ threadId => threadId

/-- A call that deletes checkpoints does so for a thread which the stores show. -/
def Delete.Waits (p : String → Bool) : Delete → Prop
  | .deletingCheckpoints _ threadId => p threadId.str = true
  | _ => True

section Delete

variable {serde : Serde} {P : Runtime → Runtime → Delete → Delete → Prop} {task : Delete → Prop}

theorem remove_related {runId threadId : Uuid} (agree : Runtime.Agree p first first' s s') (shown : p threadId.str = true) :
    Turn.Related (Delete.resume serde) (Answers filters p) False (Runtime.Agree p first first') P task
      (ReturnsOnly (fun _ => True)) (Delete.remove s runId threadId) (Delete.remove s' runId threadId) := by
  unfold Delete.remove
  rw [← Table.locate?_fst, ← Table.locate?_fst]
  rcases agree.runs.alike.locate? (byIds_passes shown) with
    ⟨missing, missing'⟩ | ⟨i, r, i', r', found, found', atI, atI', twins⟩
  · rw [missing, missing']
    exact related_raised agree _
  · rw [found, found']
    have popped : Runtime.Agree p first first' { s with runs := s.runs.pop i } { s' with runs := s'.runs.pop i' } :=
      { agree with runs := agree.runs.pop atI atI' twins }
    exact related_returned popped trivial

theorem checkpoints_related {runId threadId : Uuid} (agree : Runtime.Agree p first first' s s') (shown : p threadId.str = true)
    (points : ∀ (t t' : Runtime) (k : Delete), p k.threadId.str = true → P t t' k k) :
    Turn.Related (Delete.resume serde) (Answers filters p) False (Runtime.Agree p first first') P task
      (ReturnsOnly (fun _ => True)) (Delete.checkpoints serde s runId threadId) (Delete.checkpoints serde s' runId threadId) :=
  related_ite (by rw [agree.config]) (fun _ => .suspended agree (points _ _ _ shown))
    (fun _ => remove_related (agree.withMemory (agree.memory.deleteRunCheckpoints shown)) shown)

/-- A deletion from a shown thread goes alike whatever its handler answers. -/
theorem delete_shown (agree : Runtime.Agree p first first' s s') {point : Delete} (shown : p point.threadId.str = true)
    (points : ∀ (t t' : Runtime) (k : Delete), p k.threadId.str = true → P t t' k k) (reply : Reply) :
    Turn.Related (Delete.resume serde) (Answers filters p) False (Runtime.Agree p first first') P task
      (ReturnsOnly (fun _ => True)) (Delete.resume serde s point reply) (Delete.resume serde s' point reply) := by
  cases point with
  | called runId threadId => exact .suspended agree (points _ _ _ shown)
  | deletingCheckpoints runId threadId => exact related_attempt agree (fun _ _ => remove_related agree shown)
  | authorizing runId threadId =>
    refine related_attempt agree (fun answer _ => related_ite Iff.rfl (fun _ => ?_) (fun _ => ?_))
    · have looked := found_of_shown agree shown answer
      dsimp only [Delete.threadId] at looked
      generalize Threads.getWithFilters s threadId answer = out at looked ⊢
      generalize Threads.getWithFilters s' threadId answer = out' at looked ⊢
      cases looked with
      | error agree => exact related_raised agree _
      | none agree => exact related_returned agree trivial
      | some agree => exact checkpoints_related agree shown points
    · exact checkpoints_related agree shown points

/-- A call on a hidden thread changes nothing and returns nothing. -/
theorem delete_hidden {runId threadId : Uuid} {reply : Reply} (truthy : filters.truthy = true) (hides : s.Hides filters p)
    (hidden : p threadId.str = false) (answer : reply.answer = .ok filters) :
    Delete.resume serde s (.authorizing runId threadId) reply = returned s [] := by
  rw [Delete.resume, answer, attempt_ok, if_pos truthy, getWithFilters_hidden hides hidden]
  rfl

theorem delete_goesAlike (truthy : filters.truthy = true) (hides : first.Hides filters p) (hides' : first'.Hides filters p) :
    GoesAlike False filters p first first' (Delete.resume serde)
      (fun _ _ point point' => point = point' ∧ point.Waits p) noTask (fun _ => True) where
  tasks _ none := none.elim
  points := by
    rintro s s' point _ reply agree ⟨rfl, waits⟩ answers
    have points : ∀ (_ _ : Runtime) (k : Delete), p k.threadId.str = true → k = k ∧ k.Waits p := by
      intro _ _ k shown
      cases k with
      | deletingCheckpoints => exact ⟨rfl, shown⟩
      | _ => exact ⟨rfl, trivial⟩
    cases shown : p point.threadId.str with
    | true => exact delete_shown agree shown points reply
    | false =>
      cases point with
      | called runId threadId => exact .suspended agree ⟨rfl, trivial⟩
      | deletingCheckpoints runId threadId => exact absurd (shown.symm.trans waits) Bool.false_ne_true
      | authorizing runId threadId =>
        have hidden : p threadId.str = false := shown
        rw [delete_hidden truthy (agree.hides hides) hidden answers.1,
          delete_hidden truthy (agree.hides' hides') hidden answers.1]
        exact related_returned agree trivial

end Delete

section Put

/-- The call brings no id, or one that both stores show; or it creates no thread, or a
hidden thread of each store has the id. -/
def PutCall.Fits (p : String → Bool) (s s' : Runtime) (call : PutCall) : Prop :=
  ∀ threadId, call.threadId = some threadId → call.ifNotExists = .reject ∨ Threads.Reserved p s s' threadId

/-- A hidden thread was found, or none where none may be created. -/
def Turned (p : String → Bool) (s : Runtime) (call : PutCall) (existing : Option Nat) : Prop :=
  (existing = none ∧ call.threadId ≠ none ∧ call.ifNotExists = .reject) ∨
    ∃ r ∈ s.threads.rows, existing = some r ∧ (s.threads.get r).passes p = false

/-- The same call with the thread that it found in each store. -/
inductive Placed (p : String → Bool) (s s' : Runtime) (call : PutCall) : Option Nat → Option Nat → Prop
  | found {r r'} : Table.Twins (Thread.passes p) s.threads s'.threads r r' → Placed p s s' call (some r) (some r')
  | missing : (∀ threadId, call.threadId = some threadId → p threadId.str = true) → Placed p s s' call none none
  | turned {existing existing'} : Turned p s call existing → Turned p s' call existing' → Placed p s s' call existing existing'

/-- Where the same call waits in two stores. -/
inductive Put.Alike (filters : PyVal) (p : String → Bool) (s s' : Runtime) : Put → Put → Prop
  | called {call} : call.Fits p s s' → Alike filters p s s' (.called call) (.called call)
  | authorizing {call assistant} : call.Fits p s s' →
      Alike filters p s s' (.authorizing call assistant) (.authorizing call assistant)
  | authorizingAssistant {call assistant existing existing'} : Placed p s s' call existing existing' →
      Alike filters p s s' (.authorizingAssistant call assistant existing filters)
        (.authorizingAssistant call assistant existing' filters)
  | creatingThread {call assistant thread} : thread.passes p = true →
      Alike filters p s s' (.creatingThread call assistant thread) (.creatingThread call assistant thread)

abbrev PutRelated (filters : PyVal) (p : String → Bool) (first first' : Runtime) : PutTurn → PutTurn → Prop :=
  Turn.Related Put.resume (Answers filters p) False (Runtime.Agree p first first') (Put.Alike filters p) noTask
    (ReturnsOnly (fun runs => ∀ run ∈ runs, run.passes p = true))

theorem placed (agree : Runtime.Agree p first first' s s') {call : PutCall} (fits : call.Fits p s s') :
    Placed p s s' call (existingThread s call) (existingThread s' call) := by
  unfold existingThread
  cases given : call.threadId with
  | none =>
    refine .missing (fun threadId same => ?_)
    rw [given] at same
    cases same
  | some threadId =>
    cases shown : p threadId.str with
    | true =>
      rcases agree.threads.alike.find? (byId_passes shown) with ⟨missing, missing'⟩ | ⟨r, r', found, found', twins⟩
      · rw [Option.bind_some, Option.bind_some, missing, missing']
        refine .missing (fun other same => ?_)
        rwa [← Option.some.inj (given.symm.trans same)]
      · rw [Option.bind_some, Option.bind_some, found, found']
        exact .found twins
    | false =>
      have turned : ∀ u : Runtime, call.ifNotExists = .reject ∨ u.threads.find? (Threads.byId threadId) ≠ none →
          Turned p u call ((some threadId).bind (fun threadId => u.threads.find? (Threads.byId threadId))) := by
        intro u kind
        rw [Option.bind_some]
        cases found : u.threads.find? (Threads.byId threadId) with
        | none =>
          refine .inl ⟨rfl, by rw [given]; exact Option.some_ne_none _, kind.resolve_right ?_⟩
          exact fun taken => taken found
        | some r =>
          refine .inr ⟨r, Table.find?_mem found, rfl, ?_⟩
          rw [Thread.passes, threadId_of_find? found, shown]
      rcases fits threadId given with reject | visible | ⟨taken, taken'⟩
      · exact .turned (turned s (.inl reject)) (turned s' (.inl reject))
      · exact absurd (shown.symm.trans visible) Bool.false_ne_true
      · exact .turned (turned s (.inr taken)) (turned s' (.inr taken'))

theorem place_turned {call : PutCall} {assistant : Assistant} {existing : Option Nat} {reply : Reply} (hides : s.Hides filters p)
    (turned : Turned p s call existing) : Put.place s call assistant existing filters reply = returned s [] := by
  rcases turned with ⟨rfl, given, reject⟩ | ⟨r, listed, rfl, fails⟩
  · rw [Put.place, if_neg]
    rintro (none | create)
    · exact given none
    · rw [reject] at create
      cases create
  · rw [Put.place, hides _ (Table.mem_values.mpr ⟨r, listed, rfl⟩) fails]
    rfl

theorem inflight_agree (agree : Runtime.Agree p first first' s s') {threadId : Uuid} (shown : p threadId.str = true) :
    s.runs.values.filter (inflight threadId) = s'.runs.values.filter (inflight threadId) ∧
      ∀ run ∈ s.runs.values.filter (inflight threadId), run.passes p = true := by
  have own : ∀ run : Run, inflight threadId run = true → run.passes p = true := by
    intro run active
    rw [Run.passes, of_decide_eq_true (Bool.and_eq_true_iff.mp active).1, shown]
  exact ⟨List.filter_eq_of_wider agree.runs.shown own, fun run member => own run (List.mem_filter.mp member).2⟩

theorem insert_related (agree : Runtime.Agree p first first' s s') (call : PutCall) (assistant : Assistant)
    {existing existing' : Option Nat} {threadId : Uuid} (same : existing.map s.threads.get = existing'.map s'.threads.get)
    (shown : p threadId.str = true) (now : Time) :
    PutRelated filters p first first' (Put.insert s call assistant existing threadId now)
      (Put.insert s' call assistant existing' threadId now) := by
  obtain ⟨inflights, only⟩ := inflight_agree agree shown
  unfold Put.insert
  dsimp only
  rw [← inflights, ← same]
  refine related_ite Iff.rfl (fun _ => related_returned agree only) (fun _ => related_attempt agree (fun createdAt _ => ?_))
  have passes : (newRun call assistant (existing.map s.threads.get) threadId createdAt now).passes p = true := shown
  generalize newRun call assistant (existing.map s.threads.get) threadId createdAt now = run at passes ⊢
  have appended : Runtime.Agree p first first' { s with runs := s.runs.append run } { s' with runs := s'.runs.append run } :=
    { agree with runs := agree.runs.append passes }
  exact related_returned appended (List.forall_mem_cons.mpr ⟨passes, only⟩)

@[simp] theorem markBusy_passes (call : PutCall) (assistant : Assistant) (now : Time) (thread : Thread) :
    (markBusy call assistant now thread).passes p = thread.passes p := by
  rw [Thread.passes, markBusy_threadId, Thread.passes]

theorem place_related (hides : first.Hides filters p) (hides' : first'.Hides filters p)
    (agree : Runtime.Agree p first first' s s') {call : PutCall} (assistant : Assistant) {existing existing' : Option Nat}
    (placed : Placed p s s' call existing existing') {reply : Reply} (fresh : p reply.fresh.str = true) :
    PutRelated filters p first first' (Put.place s call assistant existing filters reply)
      (Put.place s' call assistant existing' filters reply) := by
  cases placed with
  | turned turned turned' =>
    rw [place_turned (agree.hides hides) turned, place_turned (agree.hides' hides') turned']
    exact related_returned agree (fun run member => by cases member)
  | missing shown =>
    refine related_ite Iff.rfl (fun _ => .suspended agree (.creatingThread ?_)) (fun _ => ?_)
    · cases given : call.threadId with
      | none => exact fresh
      | some threadId => exact shown threadId given
    · exact related_returned agree (fun run member => by cases member)
  | @found r r' twins =>
    simp only [Put.place, twins.get agree.threads.alike]
    refine related_attempt agree (fun allowed _ => related_ite Iff.rfl (fun _ => ?_) (fun _ => ?_))
    · exact related_returned agree (fun run member => by cases member)
    · have marked := agree.updateThread twins (markBusy_passes call assistant reply.now)
      refine insert_related marked call assistant ?_ (Table.mem_shown.mp twins.shown.2).2 reply.now
      simp only [Option.map_some, Table.update_get_self, twins.get agree.threads.alike]

theorem put_goesAlike (hides : first.Hides filters p) (hides' : first'.Hides filters p) :
    GoesAlike False filters p first first' Put.resume (Put.Alike filters p) noTask
      (fun runs => ∀ run ∈ runs, run.passes p = true) where
  tasks _ none := none.elim
  points := by
    intro s s' point point' reply agree alike answers
    have nothing : ∀ run ∈ ([] : List Run), run.passes p = true := fun _ member => by cases member
    cases alike with
    | @called call fits =>
      rw [Put.resume, Put.resume, show assistantById s' call.assistantId = assistantById s call.assistantId by
        rw [assistantById, assistantById, agree.assistants]]
      cases assistantById s call.assistantId with
      | none => exact related_returned agree nothing
      | some assistant => exact .suspended agree (.authorizing fits)
    | @authorizing call assistant fits =>
      rw [Put.resume, Put.resume, answers.1, attempt_ok, attempt_ok]
      exact related_ite Iff.rfl (fun _ => place_related hides hides' agree assistant (placed agree fits) answers.2)
        (fun _ => .suspended agree (.authorizingAssistant (placed agree fits)))
    | @authorizingAssistant call assistant existing existing' placed =>
      rw [Put.resume, Put.resume, answers.1, attempt_ok, attempt_ok]
      refine related_attempt agree (fun allowed _ => related_ite Iff.rfl (fun _ => related_returned agree nothing) (fun _ => ?_))
      exact place_related hides hides' agree assistant placed answers.2
    | @creatingThread call assistant thread passes =>
      rw [Put.resume, Put.resume, answers.1, attempt_ok, attempt_ok]
      have appended : Runtime.Agree p first first' { s with threads := s.threads.append thread }
          { s' with threads := s'.threads.append thread } := { agree with threads := agree.threads.append passes }
      exact insert_related appended call assistant rfl passes reply.now

end Put

section Cancel

variable {serde : Serde}

/-- A task that touches shown threads only. -/
def Cancel.Safe (p : String → Bool) : Cancel → Prop
  | .putting _ _ _ => True
  | .deleting deletion => p deletion.threadId.str = true
  | _ => False

/-- Where the same call waits in two stores. -/
inductive Cancel.Alike (p : String → Bool) (s s' : Runtime) : Cancel → Cancel → Prop
  | called (call) : Alike p s s' (.called call) (.called call)
  | authorizing {call : CancelCall} : call.validate = .ok () → Alike p s s' (.authorizing call) (.authorizing call)
  | deferred {call eager eager' rest rest' tasks cancelable cancelable'} :
      Option.Rel (Table.Twins (Run.passes p) s.runs s'.runs) eager eager' →
      List.Forall₂ (Table.Twins (Run.passes p) s.runs s'.runs) rest rest' → (∀ k ∈ tasks, k.Safe p) →
      (cancelable = [] ↔ cancelable' = []) →
      Alike p s s' (.deferred call eager rest tasks cancelable) (.deferred call eager' rest' tasks cancelable')
  | gathering {call cancelable cancelable'} : Alike p s s' (.gathering call cancelable) (.gathering call cancelable')
  | reporting : Alike p s s' .reporting .reporting

abbrev CancelRelated (serde : Serde) (filters : PyVal) (p : String → Bool) (first first' : Runtime) :
    CancelTurn → CancelTurn → Prop :=
  Turn.Related (Cancel.resume serde) (Answers filters p) False (Runtime.Agree p first first') (Cancel.Alike p) (Cancel.Safe p)
    (ReturnsOnly (fun _ => True))

theorem filterCandidates_runs (s : Runtime) (rows : List Nat) : (filterCandidates filters s rows).1.runs = s.runs := by
  induction rows generalizing s with
  | nil => rfl
  | cons r rows ih =>
    rw [filterCandidates]
    have kept := getWithFilters_runs s (s.runs.get r).threadId filters
    generalize Threads.getWithFilters s (s.runs.get r).threadId filters = out at kept ⊢
    obtain ⟨t, found⟩ := out
    cases found with
    | error e => exact kept
    | ok found =>
      have later := (ih t).trans kept
      dsimp only
      generalize filterCandidates filters t rows = rest at later ⊢
      obtain ⟨u, picked⟩ := rest
      cases picked <;> exact later

/-- The runs of hidden threads are no candidates. -/
theorem filterCandidates_shown (hides : s.Hides filters p) (rows : List Nat) : filterCandidates filters s rows =
    filterCandidates filters s (rows.filter (fun r => (s.runs.get r).passes p)) := by
  induction rows generalizing s with
  | nil => rfl
  | cons r rows ih =>
    cases passes : (s.runs.get r).passes p with
    | false =>
      simp only [List.filter_cons, passes, Bool.false_eq_true, if_false]
      rw [filterCandidates, getWithFilters_hidden hides passes, ← ih hides]
      dsimp only
      generalize filterCandidates filters s rows = rest
      obtain ⟨t, picked⟩ := rest
      cases picked <;> rfl
    | true =>
      simp only [List.filter_cons, passes, if_true]
      rw [filterCandidates, filterCandidates]
      have kept := getWithFilters_runs s (s.runs.get r).threadId filters
      have hidden := hides.lookup (s.runs.get r).threadId
      generalize Threads.getWithFilters s (s.runs.get r).threadId filters = out at kept hidden ⊢
      obtain ⟨t, found⟩ := out
      have later := ih hidden
      dsimp only at kept later
      rw [kept] at later
      cases found with
      | error e => rfl
      | ok found => simp only [later]

theorem filterCandidates_agree {runs runs' : Table Run} (hides : first.Hides filters p) (hides' : first'.Hides filters p)
    (agree : Runtime.Agree p first first' s s') (same : s.runs = runs) (same' : s'.runs = runs')
    {rows rows' : List Nat} (paired : List.Forall₂ (Table.Twins (Run.passes p) runs runs') rows rows') :
    Runtime.Agree p first first' (filterCandidates filters s rows).1 (filterCandidates filters s' rows').1 ∧
      Threads.SameRows (Run.passes p) runs runs' (filterCandidates filters s rows).2 (filterCandidates filters s' rows').2 := by
  induction paired generalizing s s' with
  | nil => exact ⟨agree, .ok .nil⟩
  | @cons r r' rows rows' twins paired ih =>
    subst same same'
    rw [filterCandidates, filterCandidates, twins.get agree.runs.alike]
    have looked := found_getWithFilters agree hides hides' (s'.runs.get r').threadId
    have kept := getWithFilters_runs s (s'.runs.get r').threadId filters
    have kept' := getWithFilters_runs s' (s'.runs.get r').threadId filters
    generalize Threads.getWithFilters s (s'.runs.get r').threadId filters = out at looked kept ⊢
    generalize Threads.getWithFilters s' (s'.runs.get r').threadId filters = out' at looked kept' ⊢
    cases looked with
    | error agree => exact ⟨agree, .error _⟩
    | @none t t' agree =>
      obtain ⟨after, selected⟩ := ih agree kept kept'
      dsimp only
      generalize filterCandidates filters t rows = one at after selected ⊢
      generalize filterCandidates filters t' rows' = two at after selected ⊢
      obtain ⟨u, picked⟩ := one
      obtain ⟨u', picked'⟩ := two
      dsimp only at after selected
      cases selected with
      | error e => exact ⟨after, .error e⟩
      | ok others => exact ⟨after, .ok others⟩
    | @some t t' i i' agree =>
      obtain ⟨after, selected⟩ := ih agree kept kept'
      dsimp only
      generalize filterCandidates filters t rows = one at after selected ⊢
      generalize filterCandidates filters t' rows' = two at after selected ⊢
      obtain ⟨u, picked⟩ := one
      obtain ⟨u', picked'⟩ := two
      dsimp only at after selected
      cases selected with
      | error e => exact ⟨after, .error e⟩
      | ok others => exact ⟨after, .ok (.cons twins others)⟩

theorem idleThreadOf_agree (agree : Runtime.Agree p first first' s s') {threadId : Uuid} (shown : p threadId.str = true)
    (now : Time) : Runtime.Agree p first first' (idleThreadOf s threadId now) (idleThreadOf s' threadId now) := by
  unfold idleThreadOf
  rcases agree.threads.alike.find? (byId_passes shown) with ⟨missing, missing'⟩ | ⟨r, r', found, found', twins⟩
  · rw [missing, missing']
    exact agree
  · rw [found, found']
    exact agree.updateThread twins (fun thread => rfl)

theorem idleThreadOf_runs (s : Runtime) (threadId : Uuid) (now : Time) : (idleThreadOf s threadId now).runs = s.runs := by
  unfold idleThreadOf
  split <;> rfl

theorem markInterrupted_shown (s : Runtime) (r : Nat) (now : Time) :
    (markInterrupted s r now).runs.shown (Run.passes p) = s.runs.shown (Run.passes p) := by
  have same : (markInterrupted s r now).runs = s.runs.update r (withStatus .interrupted now) := by
    unfold markInterrupted interruptRun
    split
    · rw [idleThreadOf_runs]
    · rfl
  rw [same]
  exact Table.shown_update s.runs r (fun run => rfl)

theorem markInterrupted_agree (agree : Runtime.Agree p first first' s s') {r r' : Nat}
    (twins : Table.Twins (Run.passes p) s.runs s'.runs r r') (now : Time) :
    Runtime.Agree p first first' (markInterrupted s r now) (markInterrupted s' r' now) := by
  have interrupted : ∀ {t t' : Runtime}, Runtime.Agree p first first' t t' → Table.Twins (Run.passes p) t.runs t'.runs r r' →
      Runtime.Agree p first first' (interruptRun t r now) (interruptRun t' r' now) := fun agree twins =>
    { agree with runs := agree.runs.update twins (fun run => rfl) }
  have passes : (s'.runs.get r').passes p = true := (Table.mem_shown.mp twins.shown.2).2
  unfold markInterrupted
  rw [twins.get agree.runs.alike]
  split
  · refine interrupted (idleThreadOf_agree agree passes now) ?_
    rw [idleThreadOf_runs, idleThreadOf_runs]
    exact twins
  · exact interrupted agree twins

theorem afterLoop_related (call : CancelCall) (agree : Runtime.Agree p first first' s s') {tasks : List Cancel}
    (safe : ∀ k ∈ tasks, k.Safe p) {cancelable cancelable' : List Nat} (none : cancelable = [] ↔ cancelable' = []) :
    CancelRelated serde filters p first first' (Cancel.afterLoop call s tasks cancelable)
      (Cancel.afterLoop call s' tasks cancelable') := by
  refine related_ite none (fun _ => related_ite Iff.rfl (fun _ => related_returned agree trivial)
    (fun _ => related_raised agree _)) (fun _ => related_ite Iff.rfl (fun _ => .suspended agree .reporting) (fun _ => ?_))
  exact .forked agree safe (fun _ _ _ => .gathering)

theorem append_empty_iff {a b : List Nat} {x y : Nat} : a ++ [x] = [] ↔ b ++ [y] = [] := by simp

theorem loop_related {u u' : Table Run} (call : CancelCall) (now : Time) {rows rows' : List Nat}
    (paired : List.Forall₂ (Table.Twins (Run.passes p) u u') rows rows') (agree : Runtime.Agree p first first' s s')
    (same : s.runs.shown (Run.passes p) = u.shown (Run.passes p)) (same' : s'.runs.shown (Run.passes p) = u'.shown (Run.passes p))
    {tasks : List Cancel} (safe : ∀ k ∈ tasks, k.Safe p) {cancelable cancelable' : List Nat}
    (none : cancelable = [] ↔ cancelable' = []) :
    CancelRelated serde filters p first first' (Cancel.loop call now s rows tasks cancelable)
      (Cancel.loop call now s' rows' tasks cancelable') := by
  induction paired generalizing s s' tasks cancelable cancelable' with
  | nil => exact afterLoop_related call agree safe none
  | @cons r r' rows rows' twins paired ih =>
    have here := twins.of_shown same same'
    have others : List.Forall₂ (Table.Twins (Run.passes p) s.runs s'.runs) rows rows' :=
      paired.imp (fun _ _ twins => twins.of_shown same same')
    have signaled : Runtime.Agree p first first'
        { s with streams := (s'.streams.getQueues (s'.runs.get r').runId call.threadId).2 }
        { s' with streams := (s'.streams.getQueues (s'.runs.get r').runId call.threadId).2 } := { agree with streams := rfl }
    simp only [Cancel.loop, signal, here.get agree.runs.alike, agree.streams]
    have added : ∀ k ∈ tasks ++ [.putting (s'.runs.get r').runId call.threadId
        (controlMessage call.action (s'.runs.get r').runId)], k.Safe p := by
      intro k member
      rcases List.mem_append.mp member with old | new
      · exact safe k old
      · rw [List.mem_singleton.mp new]
        trivial
    refine related_ite Iff.rfl (fun _ => related_ite Iff.rfl (fun _ => ?_) (fun _ => ?_)) (fun _ => ?_)
    · exact ih (markInterrupted_agree signaled here now) ((markInterrupted_shown _ r now).trans same)
        ((markInterrupted_shown _ r' now).trans same') added append_empty_iff
    · exact .suspended signaled (.deferred (.some here) others added append_empty_iff)
    · exact .suspended signaled (.deferred .none others added none)

/-- A task goes on in both stores in the same way. -/
theorem task_same (serde : Serde) (agree : Runtime.Agree p first first' s s') {k : Cancel} (safe : k.Safe p) (reply : Reply) :
    Runtime.Agree p first first' (Cancel.resume serde s k reply).1 (Cancel.resume serde s' k reply).1 ∧
      (Cancel.resume serde s' k reply).2 = (Cancel.resume serde s k reply).2 ∧
      ∀ j ∈ (Cancel.resume serde s k reply).2.points, j.Safe p := by
  cases k with
  | putting runId threadId message =>
    refine ⟨{ agree with streams := ?_ }, rfl, fun j member => by cases member⟩
    exact congrArg (fun streams : StreamManager => streams.put runId threadId message false reply.now) agree.streams
  | deleting deletion =>
    have alike : ∀ (_ _ : Runtime) (k : Delete), p k.threadId.str = true → k = k ∧ p k.threadId.str = true :=
      fun _ _ _ shown => ⟨rfl, shown⟩
    have related : Turn.Related (Delete.resume serde) (Answers .none p) False (Runtime.Agree p first first')
        (fun _ _ k k' => k' = k ∧ p k.threadId.str = true) (fun k => p k.threadId.str = true) (ReturnsOnly (fun _ => True))
        (Delete.resume serde s deletion reply) (Delete.resume serde s' deletion reply) := delete_shown agree safe alike reply
    obtain ⟨after, same, points⟩ := related.same not_false
    refine ⟨after, congrArg (fun turn => turn.map Cancel.deleting (fun outcome => outcome.map (fun _ => ()))) same, ?_⟩
    intro j member
    have mapped : j ∈ (Delete.resume serde s deletion reply).2.points.map Cancel.deleting := by
      rw [← Turn.points_map]
      exact member
    obtain ⟨k, inside, rfl⟩ := List.mem_map.mp mapped
    exact points k inside
  | _ => exact safe.elim

/-- The runs that a call with a thread selects are on the thread. -/
theorem isRunMatch_own {call : CancelCall} (valid : call.validate = .ok ()) {threadId : Uuid} (given : call.threadId = some threadId)
    {statuses : List RunStatus} (listed : statusList call.status = .ok statuses) {run : Run}
    (selected : call.isRunMatch statuses run = true) : run.threadId = threadId := by
  have noAssistant : call.assistantId = none := by
    cases assistant : call.assistantId with
    | none => rfl
    | some assistantId => simp [CancelCall.validate, assistant, given] at valid
  have noStatus : call.status = none := by
    cases status : call.status with
    | none => rfl
    | some status' => simp [CancelCall.validate, noAssistant, status, given] at valid
  rw [noStatus] at listed
  cases listed
  simp only [CancelCall.isRunMatch, noAssistant, given, ne_eq, not_true_eq_false, if_false, Bool.and_eq_true,
    decide_eq_true_eq, Option.some.injEq] at selected
  exact selected.1

theorem candidates_related (truthy : filters.truthy = true) (hides : first.Hides filters p) (hides' : first'.Hides filters p)
    (agree : Runtime.Agree p first first' s s') {call : CancelCall} (valid : call.validate = .ok ())
    {statuses : List RunStatus} (listed : statusList call.status = .ok statuses) :
    Runtime.Agree p first first'
        (authorizedCandidates call filters s (s.runs.rows.filter (fun r => call.isRunMatch statuses (s.runs.get r)))).1
        (authorizedCandidates call filters s' (s'.runs.rows.filter (fun r => call.isRunMatch statuses (s'.runs.get r)))).1 ∧
      Threads.SameRows (Run.passes p) s.runs s'.runs
        (authorizedCandidates call filters s (s.runs.rows.filter (fun r => call.isRunMatch statuses (s.runs.get r)))).2
        (authorizedCandidates call filters s' (s'.runs.rows.filter (fun r => call.isRunMatch statuses (s'.runs.get r)))).2 := by
  unfold authorizedCandidates
  rw [if_pos truthy, if_pos truthy]
  cases given : call.threadId with
  | none =>
    have shownFirst : ∀ u : Runtime, (u.runs.rows.filter (fun r => call.isRunMatch statuses (u.runs.get r))).filter
        (fun r => (u.runs.get r).passes p) =
          u.runs.rows.filter (fun r => (u.runs.get r).passes p && call.isRunMatch statuses (u.runs.get r)) :=
      fun u => List.filter_filter
    have both : ∀ run : Run, (run.passes p && call.isRunMatch statuses run) = true → run.passes p = true :=
      fun run both => (Bool.and_eq_true_iff.mp both).1
    dsimp only
    rw [filterCandidates_shown (agree.hides hides), filterCandidates_shown (agree.hides' hides'), shownFirst, shownFirst]
    exact filterCandidates_agree hides hides' agree rfl rfl (agree.runs.alike.twins_filter both)
  | some threadId =>
    have looked := found_getWithFilters agree hides hides' threadId
    dsimp only
    generalize Threads.getWithFilters s threadId filters = out at looked ⊢
    generalize Threads.getWithFilters s' threadId filters = out' at looked ⊢
    cases looked with
    | error agree => exact ⟨agree, .error _⟩
    | none agree => exact ⟨agree, .ok .nil⟩
    | some after shown =>
      have own : ∀ run : Run, call.isRunMatch statuses run = true → run.passes p = true := by
        intro run selected
        rw [Run.passes, isRunMatch_own valid given listed selected, shown]
      exact ⟨after, .ok (agree.runs.alike.twins_filter own)⟩

theorem authorizedCandidates_runs (filters : PyVal) (call : CancelCall) (s : Runtime) (rows : List Nat) :
    (authorizedCandidates call filters s rows).1.runs = s.runs := by
  unfold authorizedCandidates
  split
  · split
    · rename_i threadId _
      have kept := getWithFilters_runs s threadId filters
      generalize Threads.getWithFilters s threadId filters = out at kept ⊢
      obtain ⟨t, found⟩ := out
      cases found <;> exact kept
    · exact filterCandidates_runs s rows
  · rfl

theorem cancel_goesAlike (truthy : filters.truthy = true) (hides : first.Hides filters p) (hides' : first'.Hides filters p) :
    GoesAlike False filters p first first' (Cancel.resume serde) (Cancel.Alike p) (Cancel.Safe p) (fun _ => True) where
  tasks agree safe reply := task_same serde agree safe reply
  points := by
    intro s s' point point' reply agree alike answers
    cases alike with
    | called call => exact related_attempt agree (fun _ valid => .suspended agree (.authorizing valid))
    | gathering => exact related_attempt agree (fun _ _ => .suspended agree .reporting)
    | reporting => exact related_attempt agree (fun _ _ => related_returned agree trivial)
    | @authorizing call valid =>
      rw [Cancel.resume, Cancel.resume, answers.1, attempt_ok, attempt_ok]
      refine related_attempt agree (fun statuses listed => ?_)
      have found := candidates_related truthy hides hides' agree valid listed
      have kept := authorizedCandidates_runs filters call s
        (s.runs.rows.filter (fun r => call.isRunMatch statuses (s.runs.get r)))
      have kept' := authorizedCandidates_runs filters call s'
        (s'.runs.rows.filter (fun r => call.isRunMatch statuses (s'.runs.get r)))
      dsimp only
      generalize authorizedCandidates call filters s _ = out at found kept ⊢
      generalize authorizedCandidates call filters s' _ = out' at found kept' ⊢
      obtain ⟨t, picked⟩ := out
      obtain ⟨t', picked'⟩ := out'
      obtain ⟨after, selected⟩ := found
      dsimp only at after selected kept kept' ⊢
      cases selected with
      | error e => exact related_raised after e
      | @ok rows rows' paired =>
        rw [attempt_ok, attempt_ok]
        refine related_ite ?_ (fun _ => related_ite Iff.rfl (fun _ => related_returned after trivial)
          (fun _ => related_raised after _)) (fun _ => ?_)
        · cases paired <;> simp
        · exact loop_related call reply.now paired after (by rw [kept]) (by rw [kept']) (fun k member => by cases member) Iff.rfl
    | @deferred call eager eager' rest rest' tasks cancelable cancelable' rows paired safe none =>
      rw [Cancel.resume, Cancel.resume, answers.1, attempt_ok, attempt_ok]
      have same : eagerDeletion s eager = eagerDeletion s' eager' ∧ ∀ k ∈ eagerDeletion s eager, k.Safe p := by
        cases rows with
        | none => exact ⟨rfl, fun k member => by cases member⟩
        | some twins =>
          have passes := (Table.mem_shown.mp twins.shown.1).2
          refine ⟨by simp only [eagerDeletion, Option.elim_some, twins.get agree.runs.alike], fun k member => ?_⟩
          rw [eagerDeletion, Option.elim_some] at member
          rw [List.mem_singleton.mp member]
          exact passes
      rw [← same.1]
      refine loop_related call reply.now paired agree rfl rfl (fun k member => ?_) none
      rcases List.mem_append.mp member with old | new
      · exact safe k old
      · exact same.2 k new

end Cancel

end Runs

end InmemRuntime
