import InmemRuntime.SharedRuns

namespace InmemRuntime

inductive FilteredCall where
  | getThread (point : Threads.Get)
  | searchThreads (point : Threads.Search)
  | countThreads (point : Threads.Count)
  | putThread (point : Threads.Put)
  | patchThread (point : Threads.Patch)
  | deleteThread (point : Threads.Delete)
  | pruneThreads (point : Threads.Prune)
  | copyThread (point : Threads.Copy)
  | putRun (point : Runs.Put)
  | getRun (point : Runs.Get)
  | searchRuns (point : Runs.Search)
  | deleteRun (point : Runs.Delete)
  | cancelRuns (point : Runs.Cancel)

/-- What the calls return. -/
inductive Returned where
  | thread (found : Thread × Option Threads.TtlInfo)
  | page (found : Page Thread)
  | number (count : Nat)
  | threads (found : List Thread)
  | threadIds (ids : List Uuid)
  | pruned (outcome : Threads.PruneOutcome)
  | runs (found : List Run)
  | runIds (ids : List Uuid)
  | nothing

/-- All that is returned belongs to threads whose ids pass the test. -/
def Returned.Shows (p : String → Bool) : Returned → Prop
  | .thread found => found.1.passes p = true
  | .page found => ∀ thread ∈ found.records, thread.passes p = true
  | .threads found => ∀ thread ∈ found, thread.passes p = true
  | .threadIds ids => ∀ id ∈ ids, p id.str = true
  | .pruned outcome => ∀ id ∈ outcome.handed, p id = true
  | .runs found => ∀ run ∈ found, run.passes p = true
  | .number _ | .runIds _ | .nothing => True

/-- One of the calls among them all. -/
def among {κ α : Type} (resume : Runtime → κ → Reply → Runtime × Turn κ (Except PyError α)) (f : κ → FilteredCall)
    (g : α → Returned) (s : Runtime) (point : κ) (reply : Reply) : Runtime × Turn FilteredCall (Except PyError Returned) :=
  ((resume s point reply).1, (resume s point reply).2.map f (Except.map g))

/-- The thread of an owner. -/
def owned (threadId : Uuid) (owner : String) : Thread := { idleThread threadId with metadata := [("owner", .str owner)] }

/-- The handler that lets an owner see the owner's threads. -/
def ownerReply (owner : String) : Reply := ⟨0, ⟨0⟩, .ok (.dict [("owner", .str owner)])⟩

namespace FilteredCall

section Resume

-- `uuid` is `UUID(text)` and `upper` is `str.upper`.
variable (uuid : String → Except PyError Uuid) (upper : String → String) (base : BaseSaver) (serde : Serde) (fuel : Nat)

def resume (s : Runtime) : FilteredCall → Reply → Runtime × Turn FilteredCall (Except PyError Returned)
  | .getThread point => among Threads.Get.resume .getThread .thread s point
  | .searchThreads point => among (Threads.Search.resume uuid upper) .searchThreads .page s point
  | .countThreads point => among Threads.Count.resume .countThreads .number s point
  | .putThread point => among Threads.Put.resume .putThread .threads s point
  | .patchThread point => among Threads.Patch.resume .patchThread .threads s point
  | .deleteThread point => among (Threads.Delete.resume base) .deleteThread .threadIds s point
  | .pruneThreads point => among (Threads.Prune.resume uuid base serde fuel) .pruneThreads .pruned s point
  | .copyThread point => among Threads.Copy.resume .copyThread .threads s point
  | .putRun point => among Runs.Put.resume .putRun .runs s point
  | .getRun point => among Runs.Get.resume .getRun .runs s point
  | .searchRuns point => among Runs.Search.resume .searchRuns .runs s point
  | .deleteRun point => among (Runs.Delete.resume serde) .deleteRun .runIds s point
  | .cancelRuns point => among (Runs.Cancel.resume serde) .cancelRuns (fun _ => .nothing) s point

end Resume

variable {filters : PyVal} {p : String → Bool} {first first' s s' : Runtime}

/-- A call as it is made. -/
inductive Made : FilteredCall → Prop
  | getThread (threadId includeTtl) : Made (.getThread (.called threadId includeTtl))
  | searchThreads (call) : Made (.searchThreads (.called call))
  | countThreads (call) : Made (.countThreads (.called call))
  | putThread (call) : Made (.putThread (.called call))
  | patchThread (call) : Made (.patchThread (.called call))
  | deleteThread (threadId) : Made (.deleteThread (.called threadId))
  | pruneThreads (call) : Made (.pruneThreads (.called call))
  | copyThread (threadId) : Made (.copyThread (.called threadId))
  | putRun (call) : Made (.putRun (.called call))
  | getRun (runId threadId) : Made (.getRun (.called runId threadId))
  | searchRuns (call) : Made (.searchRuns (.called call))
  | deleteRun (runId threadId) : Made (.deleteRun (.called runId threadId))
  | cancelRuns (call) : Made (.cancelRuns (.called call))

/-- An id under which the call may create a thread is one that both stores show, or
that hidden threads of both have. -/
def Fits (p : String → Bool) (s s' : Runtime) : FilteredCall → Prop
  | .putThread point => Threads.Reserved p s s' point.threadId
  | .putRun point => point.call.Fits p s s'
  | _ => True

/-- Where the same call waits in two stores. -/
inductive Alike (filters : PyVal) (p : String → Bool) (s s' : Runtime) : FilteredCall → FilteredCall → Prop
  | getThread {point} : Alike filters p s s' (.getThread point) (.getThread point)
  | searchThreads {point} : Alike filters p s s' (.searchThreads point) (.searchThreads point)
  | countThreads {point} : Alike filters p s s' (.countThreads point) (.countThreads point)
  | putThread {point} : Threads.Reserved p s s' point.threadId → Alike filters p s s' (.putThread point) (.putThread point)
  | patchThread {point point'} : Threads.Patch.Alike p s s' point point' →
      Alike filters p s s' (.patchThread point) (.patchThread point')
  | deleteThread {point point'} : Threads.Delete.Alike p s s' point point' →
      Alike filters p s s' (.deleteThread point) (.deleteThread point')
  | pruneThreads {point point'} : Threads.Prune.Alike filters p s s' point point' →
      Alike filters p s s' (.pruneThreads point) (.pruneThreads point')
  | copyThread {point} : point.Waits filters p → Alike filters p s s' (.copyThread point) (.copyThread point)
  | putRun {point point'} : Runs.Put.Alike filters p s s' point point' → Alike filters p s s' (.putRun point) (.putRun point')
  | getRun {point} : Alike filters p s s' (.getRun point) (.getRun point)
  | searchRuns {point} : Alike filters p s s' (.searchRuns point) (.searchRuns point)
  | deleteRun {point} : point.Waits p → Alike filters p s s' (.deleteRun point) (.deleteRun point)
  | cancelRuns {point point'} : Runs.Cancel.Alike p s s' point point' →
      Alike filters p s s' (.cancelRuns point) (.cancelRuns point')

/-- The tasks that are gathered. -/
def Safe (p : String → Bool) : FilteredCall → Prop
  | .cancelRuns point => point.Safe p
  | _ => False

theorem Made.alike {call : FilteredCall} (made : call.Made) (fits : call.Fits p s s') : Alike filters p s s' call call := by
  cases made with
  | getThread => exact .getThread
  | searchThreads => exact .searchThreads
  | countThreads => exact .countThreads
  | putThread => exact .putThread fits
  | patchThread => exact .patchThread (.called _)
  | deleteThread => exact .deleteThread (.called _)
  | pruneThreads => exact .pruneThreads (.called _)
  | copyThread => exact .copyThread trivial
  | putRun => exact .putRun (.called fits)
  | getRun => exact .getRun
  | searchRuns => exact .searchRuns
  | deleteRun => exact .deleteRun trivial
  | cancelRuns => exact .cancelRuns (.called _)

theorem returnsOnly_map {α β : Type} {Q : α → Prop} {Q' : β → Prop} {g : α → β} {outcome : Except PyError α}
    (only : ReturnsOnly Q outcome) (weaker : ∀ value, Q value → Q' (g value)) : ReturnsOnly Q' (outcome.map g) := by
  intro value same
  cases outcome with
  | error e => cases same
  | ok old =>
    cases same
    exact weaker old (only old rfl)

variable {uuid : String → Except PyError Uuid} {upper : String → String} {base : BaseSaver} {serde : Serde} {fuel : Nat}

/-- A call that goes on alike does so among them all. -/
theorem related_among {κ α : Type} {lag : Prop} {own : Runtime → κ → Reply → Runtime × Turn κ (Except PyError α)}
    {P : Runtime → Runtime → κ → κ → Prop} {task : κ → Prop} {Q : α → Prop} {f : κ → FilteredCall} {g : α → Returned}
    (goes : GoesAlike lag filters p first first' own P task Q) (agree : Runtime.Agree p first first' s s')
    {point point' : κ} (alike : P s s' point point') {reply : Reply} (answers : Answers filters p reply)
    (lifts : ∀ s point reply, resume uuid upper base serde fuel s (f point) reply = among own f g s point reply)
    (points : ∀ {t t' k k'}, P t t' k k' → Alike filters p t t' (f k) (f k')) (tasks : ∀ {k}, task k → Safe p (f k))
    (shows : ∀ value, Q value → (g value).Shows p) :
    Turn.Related (resume uuid upper base serde fuel) (Answers filters p) True (Runtime.Agree p first first')
      (Alike filters p) (Safe p) (ReturnsOnly (Returned.Shows p)) (resume uuid upper base serde fuel s (f point) reply)
      (resume uuid upper base serde fuel s' (f point') reply) := by
  rw [lifts, lifts]
  exact (goes.points agree alike answers).map lifts (fun _ => trivial) points tasks (fun only => returnsOnly_map only shows)

theorem goesAlike (canonical : ∀ u : Uuid, uuid u.str = .ok u) (truthy : filters.truthy = true)
    (hides : first.Hides filters p) (hides' : first'.Hides filters p) :
    GoesAlike True filters p first first' (resume uuid upper base serde fuel) (Alike filters p) (Safe p)
      (Returned.Shows p) where
  tasks {s s' k} agree safe reply := by
    cases k with
    | cancelRuns point =>
      obtain ⟨after, same, points⟩ := Runs.task_same serde agree safe reply
      have mapped := congrArg (fun turn : Turn Runs.Cancel (Except PyError Unit) =>
        turn.map FilteredCall.cancelRuns (Except.map (fun _ => Returned.nothing))) same
      refine ⟨after, mapped, fun j member => ?_⟩
      have inTask : j ∈ (Runs.Cancel.resume serde s point reply).2.points.map FilteredCall.cancelRuns := by
        rw [← Turn.points_map]
        exact member
      obtain ⟨k, inside, rfl⟩ := List.mem_map.mp inTask
      exact points k inside
    | _ => exact safe.elim
  points := by
    intro s s' point point' reply agree alike answers
    have no : ∀ {κ : Type} {f : κ → FilteredCall} {k : κ}, noTask k → Safe p (f k) := fun none => none.elim
    cases alike with
    | getThread =>
      exact related_among (Threads.get_goesAlike hides hides') agree rfl answers (fun _ _ _ => rfl)
        (fun same => same ▸ .getThread) no (fun _ shown => shown)
    | searchThreads =>
      exact related_among (Threads.search_goesAlike uuid upper hides hides') agree rfl answers (fun _ _ _ => rfl)
        (fun same => same ▸ .searchThreads) no (fun _ shown => shown)
    | countThreads =>
      exact related_among (Threads.count_goesAlike hides hides') agree rfl answers (fun _ _ _ => rfl)
        (fun same => same ▸ .countThreads) no (fun _ shown => shown)
    | putThread reserved =>
      exact related_among (Threads.put_goesAlike hides hides') agree ⟨rfl, reserved⟩ answers (fun _ _ _ => rfl)
        (fun same => same.1 ▸ .putThread same.2) no (fun _ shown => shown)
    | patchThread alike =>
      exact related_among (Threads.patch_goesAlike hides hides') agree alike answers (fun _ _ _ => rfl)
        .patchThread no (fun _ shown => shown)
    | deleteThread alike =>
      exact related_among (Threads.delete_goesAlike hides hides') agree alike answers (fun _ _ _ => rfl)
        .deleteThread no (fun _ shown => shown)
    | pruneThreads alike =>
      exact related_among (Threads.prune_goesAlike canonical truthy hides hides') agree alike answers (fun _ _ _ => rfl)
        .pruneThreads no (fun _ shown => shown)
    | copyThread waits =>
      exact related_among (Threads.copy_goesAlike hides hides') agree ⟨rfl, waits⟩ answers (fun _ _ _ => rfl)
        (fun same => same.1 ▸ .copyThread same.2) no (fun _ shown => shown)
    | putRun alike =>
      exact related_among (Runs.put_goesAlike hides hides') agree alike answers (fun _ _ _ => rfl)
        .putRun no (fun _ shown => shown)
    | getRun =>
      exact related_among (Runs.get_goesAlike truthy hides hides') agree rfl answers (fun _ _ _ => rfl)
        (fun same => same ▸ .getRun) no (fun _ shown => shown)
    | searchRuns =>
      exact related_among (Runs.search_goesAlike truthy hides hides') agree rfl answers (fun _ _ _ => rfl)
        (fun same => same ▸ .searchRuns) no (fun _ shown => shown)
    | deleteRun waits =>
      exact related_among (Runs.delete_goesAlike truthy hides hides') agree ⟨rfl, waits⟩ answers (fun _ _ _ => rfl)
        (fun same => same.1 ▸ .deleteRun same.2) no (fun _ _ => trivial)
    | cancelRuns alike =>
      exact related_among (Runs.cancel_goesAlike truthy hides hides') agree alike answers (fun _ _ _ => rfl)
        .cancelRuns (fun safe => safe) (fun _ _ => trivial)

/-- A call whose handler hides some threads neither returns nor changes anything of
theirs. In every store that differs in them alone it ends in the same way, and it
changes the rest as here. -/
theorem isolated (upper : String → String) (base : BaseSaver) (serde : Serde) (fuel : Nat)
    (canonical : ∀ u : Uuid, uuid u.str = .ok u) (truthy : filters.truthy = true)
    (agree : Runtime.Agree p first first' first first') (hides : first.Hides filters p) (hides' : first'.Hides filters p)
    {call : FilteredCall} (made : call.Made) (fits : call.Fits p first first') {replies : List Reply} {extra : Reply} {t : Runtime}
    {outcome : Except PyError Returned}
    (ends : Turn.EndsGathering (resume uuid upper base serde fuel) replies (first, .suspended call) t outcome)
    (answers : ∀ reply ∈ extra :: replies, Answers filters p reply) :
    ReturnsOnly (Returned.Shows p) outcome ∧ ∃ t', Runtime.Agree p first first' t t' ∧
      Turn.EndsGathering (resume uuid upper base serde fuel) (replies ++ [extra]) (first', .suspended call) t' outcome := by
  obtain ⟨last, later⟩ := List.forall_mem_cons.mp answers
  exact (goesAlike canonical truthy hides hides').ends ends later last (.suspended agree (made.alike fits))

section Tenants

def runOn (runId threadId : Uuid) (langsmithSessionName : String) : Run :=
  { runId := some runId, threadId := threadId, assistantId := ⟨7⟩, metadata := [], status := some .success, kwargs := []
    multitaskStrategy := "reject", createdAt := none, updatedAt := none, langsmithSessionName := some langsmithSessionName }

def cronOn (cronId threadId : Uuid) (schedule : String) : Cron :=
  { cronId := cronId, assistantId := ⟨7⟩, threadId := some threadId, userId := none, endTime := none, schedule := schedule
    timezone := none, payload := [], nextRunDate := 0, metadata := [], onRunCompleted := none, enabled := true
    createdAt := 0, updatedAt := 0 }

/-- A checkpoint and a pending write of thread 2. -/
def secondMemory (channel : String) : Memory :=
  let put := (⟨.empty, .cleared⟩ : Memory).put plainBase ⟨(⟨2⟩ : Uuid).str, some "", none, [], []⟩ ⟨.text "1", .empty⟩ []
    (.ofPairs [(channel, .text "1")])
  let written := put.bind (fun m =>
    m.putWrites plainBase ⟨(⟨2⟩ : Uuid).str, some "", some (.text "1"), [], []⟩ [(channel, .none)] "task" "")
  written.getD ⟨.empty, .cleared⟩

/-- The threads of two owners, each with a run and a cron, and the second with a TTL
and a checkpoint. Of the second the data are variable. -/
def tenants (owner data : String) : Runtime :=
  { storeOf [owned ⟨1⟩ "a", owned ⟨2⟩ owner] with
    runs := (Table.empty.append (runOn ⟨3⟩ ⟨1⟩ "a")).append (runOn ⟨4⟩ ⟨2⟩ data)
    crons := [cronOn ⟨5⟩ ⟨1⟩ "a", cronOn ⟨6⟩ ⟨2⟩ data]
    threadTtls := .ofPairs [((⟨2⟩ : Uuid).str, ⟨some .delete, some (.finite data.length), none⟩)]
    memory := secondMemory data }

/-- Of the first owner's calls the second thread is hidden. -/
theorem tenants_hides (data : String) {owner : String}
    (refused : filtersAllow (owned ⟨2⟩ owner).metadata (.dict [("owner", .str "a")]) = .ok false) :
    (tenants owner data).Hides (.dict [("owner", .str "a")]) (fun text => text ≠ (⟨2⟩ : Uuid).str) := by
  intro thread member hidden
  have either : thread = owned ⟨1⟩ "a" ∨ thread = owned ⟨2⟩ owner := by
    simpa using (show thread ∈ [owned ⟨1⟩ "a", owned ⟨2⟩ owner] from member)
  rcases either with rfl | rfl
  · exact absurd hidden (by decide)
  · exact refused

/-- The stores share the first owner's thread. -/
theorem tenants_agree : Runtime.Agree (fun text => text ≠ (⟨2⟩ : Uuid).str) (tenants "b" "x") (tenants "c" "yz")
    (tenants "b" "x") (tenants "c" "yz") where
  threads := ⟨rfl, rfl, rfl⟩
  runs := ⟨rfl, rfl, rfl⟩
  crons := ⟨rfl, rfl, rfl⟩
  threadTtls := ⟨rfl, rfl, rfl⟩
  memory := ⟨⟨by decide +kernel, rfl, rfl⟩, ⟨by decide +kernel, rfl, rfl⟩, ⟨by decide +kernel, rfl, rfl⟩,
    ⟨⟨by decide +kernel, rfl, rfl⟩, by omega, by omega⟩⟩
  assistants := rfl
  retryCounter := rfl
  streams := rfl
  runLocked := rfl
  config := rfl

end Tenants

/-- A deletion beside a thread whose content the stores do not share. -/
theorem isolated_delete : ∃ t t',
    Turn.EndsGathering (resume Threads.canonicalOnly id plainBase deltaSerde 0) [ownerReply "a", ownerReply "a"]
      (tenants "b" "x", .suspended (.deleteThread (.called ⟨1⟩))) t (.ok (.threadIds [⟨1⟩])) ∧
    Turn.EndsGathering (resume Threads.canonicalOnly id plainBase deltaSerde 0)
      [ownerReply "a", ownerReply "a", ownerReply "a"] (tenants "c" "yz", .suspended (.deleteThread (.called ⟨1⟩))) t'
      (.ok (.threadIds [⟨1⟩])) ∧
    Runtime.Agree (fun text => text ≠ (⟨2⟩ : Uuid).str) (tenants "b" "x") (tenants "c" "yz") t t' := by
  have ends : ∃ t, Turn.EndsGathering (resume Threads.canonicalOnly id plainBase deltaSerde 0) [ownerReply "a", ownerReply "a"]
      (tenants "b" "x", .suspended (.deleteThread (.called ⟨1⟩))) t (.ok (.threadIds [⟨1⟩])) :=
    ⟨_, .suspended (.suspended (.finished _ _ _))⟩
  obtain ⟨t, ends⟩ := ends
  have answers : ∀ reply ∈ [ownerReply "a", ownerReply "a", ownerReply "a"], Answers (.dict [("owner", .str "a")])
      (fun text => text ≠ (⟨2⟩ : Uuid).str) reply := by
    intro reply member
    have same : reply = ownerReply "a" := by simpa using member
    rw [same]
    exact ⟨rfl, by decide⟩
  obtain ⟨t', after, ends'⟩ := (isolated id plainBase deltaSerde 0 Threads.canonicalOnly_str rfl tenants_agree
    (tenants_hides "x" rfl) (tenants_hides "yz" rfl) (.deleteThread _) trivial ends answers).2
  exact ⟨t, t', ends, ends', after⟩

end FilteredCall

structure Belongings where
  records : List Thread
  runs : List Run
  crons : List Cron
  ttl : Option ThreadTtlState
  checkpoints : Option Namespaces
  writes : Dict WriteKey WriteGroup
  blobs : Dict BlobKey Typed
  sizes : Nat × Nat

def Runtime.belongings (s : Runtime) (threadId : Uuid) : Belongings where
  records := s.threads.values.filter (fun thread => thread.threadId = threadId)
  runs := s.runs.values.filter (fun run => run.threadId = threadId)
  crons := s.crons.filter (fun cron => cron.threadId = some threadId)
  ttl := s.threadTtls.get? threadId.str
  checkpoints := s.memory.storage.get? threadId.str
  writes := s.memory.writes.filter (fun key _ => key.thread = threadId.str)
  blobs := s.memory.blobs.filter (fun key _ => key.thread = threadId.str)
  sizes := s.memory.sizeState.thread threadId.str

theorem Runtime.Agree.belongings {p : String → Bool} {first first' t t' : Runtime} (agree : Runtime.Agree p first first' t t')
    {threadId : Uuid} (hidden : p threadId.str = false) : t.belongings threadId = first.belongings threadId := by
  have fails : ∀ text : String, text = threadId.str → (!p text) = true := by
    rintro _ rfl
    rw [hidden]
    rfl
  have ofThread : ∀ thread : Thread, decide (thread.threadId = threadId) = true → (!thread.passes p) = true :=
    fun thread own => fails _ (congrArg Uuid.str (of_decide_eq_true own))
  have ofRun : ∀ run : Run, decide (run.threadId = threadId) = true → (!run.passes p) = true :=
    fun run own => fails _ (congrArg Uuid.str (of_decide_eq_true own))
  have ofCron : ∀ cron : Cron, decide (cron.threadId = some threadId) = true → (!cron.passes p) = true := by
    intro cron own
    rw [Cron.passes, of_decide_eq_true own]
    exact fails _ rfl
  unfold Runtime.belongings
  congr 1
  · exact List.filter_eq_of_wider agree.threads.kept ofThread
  · exact List.filter_eq_of_wider agree.runs.kept ofRun
  · exact List.filter_eq_of_wider agree.crons.kept ofCron
  · exact Dict.get?_of_part agree.threadTtls.kept (fails _ rfl)
  · exact Dict.get?_of_part agree.memory.storage.kept (fails _ rfl)
  · exact Dict.filter_eq_of_part agree.memory.writes.kept (fun key _ own => fails _ (of_decide_eq_true own))
  · exact Dict.filter_eq_of_part agree.memory.blobs.kept (fun key _ own => fails _ (of_decide_eq_true own))
  · rw [CheckpointSizeState.thread, CheckpointSizeState.thread,
      Dict.get?_of_part agree.memory.sizeState.byThread.kept (fails _ rfl)]

def Thread.refused (filters : PyVal) (thread : Thread) : Bool :=
  match filtersAllow thread.metadata filters with
  | .ok false => true
  | _ => false

/-- The id is not that of a thread which the filter refuses. -/
def Runtime.visible (filters : PyVal) (s : Runtime) (text : String) : Bool :=
  !s.threads.values.any (fun thread => thread.threadId.str = text && thread.refused filters)

section Visible

variable {filters : PyVal} {s : Runtime}

theorem Thread.refused_iff {thread : Thread} : thread.refused filters = true ↔ filtersAllow thread.metadata filters = .ok false := by
  unfold Thread.refused
  split <;> simp_all

theorem Runtime.visible_eq_false {text : String} : s.visible filters text = false ↔
    ∃ thread ∈ s.threads.values, thread.threadId.str = text ∧ filtersAllow thread.metadata filters = .ok false := by
  simp [Runtime.visible, Thread.refused_iff]

theorem Runtime.visible_hides (distinct : s.threadIds.Nodup) : s.Hides filters (s.visible filters) := by
  intro thread member hidden
  obtain ⟨other, listed, text, refused⟩ := Runtime.visible_eq_false.mp hidden
  have same : other = thread := List.inj_on_of_nodup_map distinct listed member (Uuid.str_inj.mp text)
  rwa [← same]

theorem Runtime.visible_reserved (threadId : Uuid) : Threads.Reserved (s.visible filters) s s threadId := by
  cases visible : s.visible filters threadId.str with
  | true => exact .inl visible
  | false =>
    obtain ⟨thread, member, text, _⟩ := Runtime.visible_eq_false.mp visible
    have taken : s.threads.find? (Threads.byId threadId) ≠ none := by
      intro free
      have other := Table.find?_eq_none.mp free thread member
      rw [Threads.byId, Uuid.str_inj.mp text] at other
      simp at other
    exact .inr ⟨taken, taken⟩

theorem FilteredCall.fits_visible (call : FilteredCall) : call.Fits (s.visible filters) s s := by
  cases call with
  | putThread point => exact Runtime.visible_reserved _
  | putRun point => exact fun threadId _ => .inr (Runtime.visible_reserved threadId)
  | _ => trivial

end Visible

/-- A call agrees with itself on what the filter lets pass. -/
theorem FilteredCall.visible_after {uuid : String → Except PyError Uuid} {filters : PyVal} {s t : Runtime}
    {upper : String → String} {base : BaseSaver} {serde : Serde} {fuel : Nat} (canonical : ∀ u : Uuid, uuid u.str = .ok u)
    (truthy : filters.truthy = true) (distinct : s.threadIds.Nodup) {call : FilteredCall} (made : call.Made)
    {replies : List Reply} {outcome : Except PyError Returned}
    (ends : Turn.EndsGathering (resume uuid upper base serde fuel) replies (s, .suspended call) t outcome)
    (answers : ∀ reply ∈ replies, Answers filters (s.visible filters) reply) :
    ReturnsOnly (Returned.Shows (s.visible filters)) outcome ∧ ∃ t', Runtime.Agree (s.visible filters) s s t t' := by
  have hides : s.Hides filters (s.visible filters) := Runtime.visible_hides distinct
  obtain ⟨first, later, rfl, _⟩ := Turn.endsGathering_suspended.mp ends
  obtain ⟨only, t', after, _⟩ := (goesAlike canonical truthy hides hides).ends ends answers (answers first List.mem_cons_self)
    (.suspended (Runtime.Agree.refl _ s) (made.alike call.fits_visible))
  exact ⟨only, t', after⟩

/-- No thread that the filter refuses is returned, and nothing that belongs to it is
returned or changed. -/
theorem FilteredCall.untouched {uuid : String → Except PyError Uuid} {filters : PyVal} {s t : Runtime} (upper : String → String)
    (base : BaseSaver) (serde : Serde) (fuel : Nat) (canonical : ∀ u : Uuid, uuid u.str = .ok u) (truthy : filters.truthy = true)
    (distinct : s.threadIds.Nodup) {call : FilteredCall} (made : call.Made) {replies : List Reply}
    {outcome : Except PyError Returned}
    (ends : Turn.EndsGathering (resume uuid upper base serde fuel) replies (s, .suspended call) t outcome)
    (answers : ∀ reply ∈ replies, Answers filters (s.visible filters) reply) :
    ReturnsOnly (Returned.Shows (s.visible filters)) outcome ∧ ∀ thread ∈ s.threads.values,
      filtersAllow thread.metadata filters = .ok false → t.belongings thread.threadId = s.belongings thread.threadId := by
  obtain ⟨only, _, after⟩ := visible_after canonical truthy distinct made ends answers
  refine ⟨only, fun thread member refused => after.belongings ?_⟩
  exact Runtime.visible_eq_false.mpr ⟨thread, member, rfl, refused⟩

/-- An owner deletes a thread beside that of another. -/
theorem FilteredCall.untouched_delete : ∃ t,
    Turn.EndsGathering (resume Threads.canonicalOnly id plainBase deltaSerde 0) [ownerReply "a", ownerReply "a"]
      (tenants "b" "x", .suspended (.deleteThread (.called ⟨1⟩))) t (.ok (.threadIds [⟨1⟩])) ∧
    t.belongings ⟨2⟩ = (tenants "b" "x").belongings ⟨2⟩ ∧ (t.belongings ⟨2⟩).runs = [runOn ⟨4⟩ ⟨2⟩ "x"] ∧
    (t.belongings ⟨2⟩).checkpoints ≠ none := by
  have ends : ∃ t, Turn.EndsGathering (resume Threads.canonicalOnly id plainBase deltaSerde 0) [ownerReply "a", ownerReply "a"]
      (tenants "b" "x", .suspended (.deleteThread (.called ⟨1⟩))) t (.ok (.threadIds [⟨1⟩])) :=
    ⟨_, .suspended (.suspended (.finished _ _ _))⟩
  have answers : ∀ reply ∈ [ownerReply "a", ownerReply "a"], Answers (.dict [("owner", .str "a")])
      ((tenants "b" "x").visible (.dict [("owner", .str "a")])) reply := by
    intro reply member
    have same : reply = ownerReply "a" := by simpa using member
    rw [same]
    exact ⟨rfl, by decide⟩
  obtain ⟨t, ends⟩ := ends
  have kept := (untouched id plainBase deltaSerde 0 Threads.canonicalOnly_str rfl (by decide) (.deleteThread _) ends answers).2
    (owned ⟨2⟩ "b") (List.mem_of_getElem? (i := 1) rfl) rfl
  rw [show (owned ⟨2⟩ "b").threadId = ⟨2⟩ from rfl] at kept
  exact ⟨t, ends, kept, by rw [kept]; rfl, by rw [kept]; decide +kernel⟩

/-- No thread of this id is refused in either store. -/
def Runtime.visibleIn (filters : PyVal) (s s' : Runtime) (text : String) : Bool :=
  s.visible filters text && s'.visible filters text

/-- The stores differ only in threads that the filter refuses and in what belongs to them. -/
structure Runtime.DifferInRefused (filters : PyVal) (s s' : Runtime) : Prop where
  agree : Runtime.Agree (Runtime.visibleIn filters s s') s s' s s'
  hides : s.Hides filters (Runtime.visibleIn filters s s')
  hides' : s'.Hides filters (Runtime.visibleIn filters s s')

/-- Nothing of a thread that the filter refuses is returned or changed, and a store
that differs in such threads only gives the same result and goes on the same; but a
call that creates a thread under a given id shows whether the id is taken. -/
theorem FilteredCall.refused_apart {uuid : String → Except PyError Uuid} {filters : PyVal} {s t : Runtime}
    (upper : String → String) (base : BaseSaver) (serde : Serde) (fuel : Nat) (canonical : ∀ u : Uuid, uuid u.str = .ok u)
    (truthy : filters.truthy = true) (distinct : s.threadIds.Nodup) {call : FilteredCall} (made : call.Made)
    {replies : List Reply} {outcome : Except PyError Returned}
    (ends : Turn.EndsGathering (resume uuid upper base serde fuel) replies (s, .suspended call) t outcome)
    (answers : ∀ reply ∈ replies, Answers filters (s.visible filters) reply) :
    ReturnsOnly (Returned.Shows (s.visible filters)) outcome ∧
      (∀ thread ∈ s.threads.values, filtersAllow thread.metadata filters = .ok false →
        t.belongings thread.threadId = s.belongings thread.threadId) ∧
      ∀ s', Runtime.DifferInRefused filters s s' → call.Fits (Runtime.visibleIn filters s s') s s' → ∀ extra,
        (∀ reply ∈ extra :: replies, Answers filters (Runtime.visibleIn filters s s') reply) →
          ∃ t', Runtime.Agree (Runtime.visibleIn filters s s') s s' t t' ∧
            Turn.EndsGathering (resume uuid upper base serde fuel) (replies ++ [extra]) (s', .suspended call) t' outcome := by
  obtain ⟨only, _, after⟩ := visible_after canonical truthy distinct made ends answers
  refine ⟨only, fun thread member refused => after.belongings ?_, fun s' differ fits extra answers' => ?_⟩
  · exact Runtime.visible_eq_false.mpr ⟨thread, member, rfl, refused⟩
  · obtain ⟨last, others⟩ := List.forall_mem_cons.mp answers'
    exact ((goesAlike canonical truthy differ.hides differ.hides').ends ends others last
      (.suspended differ.agree (made.alike fits))).2

section Refused

/-- The owner's filter. -/
def ownerFilter : PyVal := .dict [("owner", .str "a")]

theorem tenants_visible (data : String) {owner : String}
    (refused : filtersAllow (owned ⟨2⟩ owner).metadata ownerFilter = .ok false) :
    (FilteredCall.tenants owner data).visible ownerFilter = fun text => text ≠ (⟨2⟩ : Uuid).str := by
  have first : (owned ⟨1⟩ "a").refused ownerFilter = false := rfl
  have second : (owned ⟨2⟩ owner).refused ownerFilter = true := Thread.refused_iff.mpr refused
  have values : (FilteredCall.tenants owner data).threads.values = [owned ⟨1⟩ "a", owned ⟨2⟩ owner] := rfl
  funext text
  rw [Runtime.visible, values]
  simp only [List.any_cons, List.any_nil, first, second, Bool.and_false, Bool.and_true, Bool.false_or, Bool.or_false,
    show (owned ⟨2⟩ owner).threadId = ⟨2⟩ from rfl]
  simp [eq_comm]

theorem tenants_differ :
    Runtime.DifferInRefused ownerFilter (FilteredCall.tenants "b" "x") (FilteredCall.tenants "c" "yz") := by
  have both : Runtime.visibleIn ownerFilter (FilteredCall.tenants "b" "x") (FilteredCall.tenants "c" "yz") =
      fun text => text ≠ (⟨2⟩ : Uuid).str := by
    funext text
    rw [Runtime.visibleIn, tenants_visible "x" rfl, tenants_visible "yz" rfl, Bool.and_self]
  constructor <;> rw [both]
  · exact FilteredCall.tenants_agree
  · exact FilteredCall.tenants_hides "x" rfl
  · exact FilteredCall.tenants_hides "yz" rfl

/-- An owner deletes a thread beside that of another, of whom the stores tell different things. -/
theorem FilteredCall.refused_apart_delete : ∃ t t',
    Turn.EndsGathering (resume Threads.canonicalOnly id plainBase deltaSerde 0) [ownerReply "a", ownerReply "a"]
      (tenants "b" "x", .suspended (.deleteThread (.called ⟨1⟩))) t (.ok (.threadIds [⟨1⟩])) ∧
    t.belongings ⟨2⟩ = (tenants "b" "x").belongings ⟨2⟩ ∧ (t.belongings ⟨2⟩).checkpoints ≠ none ∧
    Turn.EndsGathering (resume Threads.canonicalOnly id plainBase deltaSerde 0)
      ([ownerReply "a", ownerReply "a"] ++ [ownerReply "a"])
      (tenants "c" "yz", .suspended (.deleteThread (.called ⟨1⟩))) t' (.ok (.threadIds [⟨1⟩])) ∧
    Runtime.Agree (Runtime.visibleIn ownerFilter (tenants "b" "x") (tenants "c" "yz")) (tenants "b" "x") (tenants "c" "yz")
      t t' := by
  have ends : ∃ t, Turn.EndsGathering (resume Threads.canonicalOnly id plainBase deltaSerde 0) [ownerReply "a", ownerReply "a"]
      (tenants "b" "x", .suspended (.deleteThread (.called ⟨1⟩))) t (.ok (.threadIds [⟨1⟩])) :=
    ⟨_, .suspended (.suspended (.finished _ _ _))⟩
  have answers : ∀ reply ∈ [ownerReply "a", ownerReply "a"],
      Answers ownerFilter ((tenants "b" "x").visible ownerFilter) reply := by
    intro reply member
    obtain rfl : reply = ownerReply "a" := by simpa using member
    exact ⟨rfl, by decide⟩
  have answers' : ∀ reply ∈ [ownerReply "a", ownerReply "a", ownerReply "a"],
      Answers ownerFilter (Runtime.visibleIn ownerFilter (tenants "b" "x") (tenants "c" "yz")) reply := by
    intro reply member
    obtain rfl : reply = ownerReply "a" := by simpa using member
    exact ⟨rfl, by decide⟩
  obtain ⟨t, ends⟩ := ends
  obtain ⟨_, kept, alike⟩ := refused_apart id plainBase deltaSerde 0 Threads.canonicalOnly_str rfl (by decide)
    (.deleteThread _) ends answers
  have second := kept (owned ⟨2⟩ "b") (List.mem_of_getElem? (i := 1) rfl) rfl
  rw [show (owned ⟨2⟩ "b").threadId = ⟨2⟩ from rfl] at second
  obtain ⟨t', after, ends'⟩ := alike (tenants "c" "yz") tenants_differ trivial (ownerReply "a") answers'
  exact ⟨t, t', ends, second, by rw [second]; decide +kernel, ends', after⟩

/-- The two owners' threads with an assistant of the system, or the first one's alone. -/
def assisted (threads : List Thread) : Runtime :=
  { storeOf threads with assistants := [⟨⟨7⟩, "agent", [], [], [("created_by", .str "system")]⟩] }

/-- A run that brings thread 2, if it has to. -/
def runWithThread : Runs.PutCall :=
  { assistantId := ⟨7⟩, kwargs := [], threadId := some ⟨2⟩, userId := none, runId := some ⟨3⟩
    status := some .pending, metadata := none, preventInsertIfInflight := false
    multitaskStrategy := "reject", ifNotExists := .create, afterSeconds := 0, langsmithSessionName := none }

theorem assisted_differ :
    Runtime.DifferInRefused ownerFilter (assisted [owned ⟨1⟩ "a", owned ⟨2⟩ "b"]) (assisted [owned ⟨1⟩ "a"]) where
  agree :=
    { threads := ⟨rfl, rfl, rfl⟩
      runs := ⟨rfl, rfl, rfl⟩
      crons := ⟨rfl, rfl, rfl⟩
      threadTtls := ⟨rfl, rfl, rfl⟩
      memory := (Runtime.Agree.refl _ (assisted [])).memory
      assistants := rfl
      retryCounter := rfl
      streams := rfl
      runLocked := rfl
      config := rfl }
  hides thread member hidden := by
    have either : thread = owned ⟨1⟩ "a" ∨ thread = owned ⟨2⟩ "b" := by
      simpa using (show thread ∈ [owned ⟨1⟩ "a", owned ⟨2⟩ "b"] from member)
    rcases either with rfl | rfl
    · exact absurd hidden (by decide +kernel)
    · rfl
  hides' thread member hidden := by
    obtain rfl : thread = owned ⟨1⟩ "a" := by simpa using (show thread ∈ [owned ⟨1⟩ "a"] from member)
    exact absurd hidden (by decide +kernel)

/-- Two threads of one id, of which the first is shown. -/
def sameIds : Runtime :=
  { storeOf [owned ⟨1⟩ "a", owned ⟨1⟩ "b"] with runs := Table.empty.append (FilteredCall.runOn ⟨3⟩ ⟨1⟩ "b") }

/-- `Runs.put` creates a thread only if no refused one has its id; and of two threads
with one id a deletion takes what belongs to either. -/
theorem FilteredCall.refused_not_apart :
    (¬ ∀ (s s' : Runtime) (call : FilteredCall) (replies : List Reply) (t t' : Runtime)
        (outcome outcome' : Except PyError Returned), s.threadIds.Nodup → s'.threadIds.Nodup →
      Runtime.DifferInRefused ownerFilter s s' → call.Made → (∀ point, call ≠ .putThread point) →
        (∀ reply ∈ replies, Answers ownerFilter (Runtime.visibleIn ownerFilter s s') reply) →
          Turn.EndsGathering (resume Threads.canonicalOnly id plainBase deltaSerde 0) replies (s, .suspended call) t outcome →
            Turn.EndsGathering (resume Threads.canonicalOnly id plainBase deltaSerde 0) replies (s', .suspended call) t'
              outcome' → outcome' = outcome) ∧
      ¬ ∀ (s : Runtime) (call : FilteredCall) (replies : List Reply) (t : Runtime) (outcome : Except PyError Returned),
        call.Made → (∀ reply ∈ replies, Answers ownerFilter (s.visible ownerFilter) reply) →
          Turn.EndsGathering (resume Threads.canonicalOnly id plainBase deltaSerde 0) replies (s, .suspended call) t outcome →
            ∀ thread ∈ s.threads.values, filtersAllow thread.metadata ownerFilter = .ok false →
              t.belongings thread.threadId = s.belongings thread.threadId := by
  constructor
  · intro same
    have refused : ∃ t, Turn.EndsGathering (resume Threads.canonicalOnly id plainBase deltaSerde 0)
        [ownerReply "a", ownerReply "a", ownerReply "a"]
        (assisted [owned ⟨1⟩ "a", owned ⟨2⟩ "b"], .suspended (.putRun (.called runWithThread))) t (.ok (.runs [])) :=
      ⟨_, .suspended (.suspended (.finished _ _ _))⟩
    have created : ∃ t run, Turn.EndsGathering (resume Threads.canonicalOnly id plainBase deltaSerde 0)
        [ownerReply "a", ownerReply "a", ownerReply "a"]
        (assisted [owned ⟨1⟩ "a"], .suspended (.putRun (.called runWithThread))) t (.ok (.runs [run])) :=
      ⟨_, _, .suspended (.suspended (.suspended (.finished _ _ _)))⟩
    obtain ⟨t, refused⟩ := refused
    obtain ⟨t', run, created⟩ := created
    have answers : ∀ reply ∈ [ownerReply "a", ownerReply "a", ownerReply "a"], Answers ownerFilter
        (Runtime.visibleIn ownerFilter (assisted [owned ⟨1⟩ "a", owned ⟨2⟩ "b"]) (assisted [owned ⟨1⟩ "a"])) reply := by
      intro reply member
      obtain rfl : reply = ownerReply "a" := by simpa using member
      exact ⟨rfl, by decide +kernel⟩
    have equal := same _ _ _ _ _ _ _ _ (by decide) (by decide) assisted_differ (.putRun _) (by rintro point ⟨⟩) answers
      refused created
    cases equal
  · intro kept
    have ends : ∃ t, Turn.EndsGathering (resume Threads.canonicalOnly id plainBase deltaSerde 0)
        [ownerReply "a", ownerReply "a"] (sameIds, .suspended (.deleteThread (.called ⟨1⟩))) t (.ok (.threadIds [⟨1⟩])) ∧
        t.runs.values = [] :=
      ⟨_, .suspended (.suspended (.finished _ _ _)), rfl⟩
    obtain ⟨t, ends, gone⟩ := ends
    have answers : ∀ reply ∈ [ownerReply "a", ownerReply "a"], Answers ownerFilter (sameIds.visible ownerFilter) reply := by
      intro reply member
      obtain rfl : reply = ownerReply "a" := by simpa using member
      exact ⟨rfl, by decide +kernel⟩
    have same := congrArg Belongings.runs (kept _ _ _ _ _ (.deleteThread _) answers ends (owned ⟨1⟩ "b")
      (List.mem_of_getElem? (i := 1) rfl) rfl)
    rw [show (t.belongings (owned ⟨1⟩ "b").threadId).runs = t.runs.values.filter (fun run => run.threadId = ⟨1⟩) from rfl,
      gone] at same
    cases same

end Refused

end InmemRuntime
