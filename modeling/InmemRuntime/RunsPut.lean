import InmemRuntime.ThreadOps

namespace InmemRuntime

namespace Runs

/-- `_merge_jsonb`: a later object overwrites the keys of an earlier one. -/
def mergeJsonb (objects : List PyDict) : PyDict := objects.foldl PyDict.update []

/-- `_get_configurable` -/
def getConfigurable (config : PyDict) : PyDict := config.getDict "configurable"

/-- `a or b or …`: the first operand that is true, else the last one. -/
def firstTruthy : List PyVal → PyVal
  | [] => .none
  | [value] => value
  | value :: rest => if value.truthy then value else firstTruthy rest

inductive IfNotExists where
  | create
  | reject
deriving DecidableEq

/-- The arguments of `Runs.put`. -/
structure PutCall where
  assistantId : Uuid
  kwargs : PyDict
  threadId : Option Uuid
  userId : Option String
  runId : Option Uuid
  status : Option RunStatus
  metadata : Option PyDict
  preventInsertIfInflight : Bool
  multitaskStrategy : String
  ifNotExists : IfNotExists
  afterSeconds : Int
  langsmithSessionName : Option String

namespace PutCall

def config (call : PutCall) : PyDict := call.kwargs.getDict "config"

def metadataOrEmpty (call : PutCall) : PyDict := call.metadata.getD []

end PutCall

/-- Where a call of `Runs.put` waits. `existing` is `existing_thread`. -/
inductive Put where
  | called (call : PutCall)
  | authorizing (call : PutCall) (assistant : Assistant)
  | authorizingAssistant (call : PutCall) (assistant : Assistant) (existing : Option Nat) (filters : PyVal)
  | creatingThread (call : PutCall) (assistant : Assistant) (thread : Thread)

section Records

variable (call : PutCall) (assistant : Assistant)

/-- The thread record of a run that brings its own thread. -/
def newThread (threadId : Uuid) (now : Time) : Thread :=
  { threadId := threadId, createdAt := now, updatedAt := now, stateUpdatedAt := none
    metadata := PyDict.update (PyDict.update
      [("graph_id", .str assistant.graphId), ("assistant_id", .str assistant.assistantId.str)]
      (call.config.getDict "metadata")) call.metadataOrEmpty
    status := .busy
    config := mergeJsonb [assistant.config, call.config,
      [("configurable", .dict (mergeJsonb [getConfigurable assistant.config]))]]
    values := some .none, interrupts := none, error := none }

/-- The update of an existing thread, which a busy one does not get. -/
def markBusy (now : Time) (thread : Thread) : Thread :=
  if thread.status = .busy then thread
  else
    { thread with
      status := .busy
      metadata := mergeJsonb [thread.metadata,
        [("graph_id", .str assistant.graphId), ("assistant_id", .str assistant.assistantId.str)]]
      config := mergeJsonb [assistant.config, thread.config, call.config,
        [("configurable", .dict (mergeJsonb
          [getConfigurable assistant.config, getConfigurable thread.config]))]]
      updatedAt := now }

def strOrNone (id : Option Uuid) : String := id.elim "None" Uuid.str

/-- `existing` is the record of `existing_thread` when the run is made. -/
def runConfigurable (existing : Option Thread) (threadId : Uuid) : PyDict :=
  let existingConfigurable : PyDict := existing.elim [] (fun thread => getConfigurable thread.config)
  mergeJsonb [getConfigurable assistant.config, existingConfigurable, getConfigurable call.config,
    [("run_id", .str (strOrNone call.runId)), ("thread_id", .str threadId.str),
      ("graph_id", .str assistant.graphId), ("assistant_id", .str assistant.assistantId.str),
      ("user_id", firstTruthy
        [((getConfigurable call.config).get? "user_id").getD .none,
          (PyDict.get? existingConfigurable "user_id").getD .none,
          ((getConfigurable assistant.config).get? "user_id").getD .none,
          call.userId.elim .none .str])]]

def runMetadata (existing : Option Thread) : PyDict :=
  (mergeJsonb [assistant.metadata, existing.elim [] Thread.metadata, call.config.getDict "metadata",
    call.metadataOrEmpty]).set "assistant_id" (.str assistant.assistantId.str)

def newRun (existing : Option Thread) (threadId : Uuid) (createdAt now : Time) : Run :=
  { runId := call.runId, threadId := threadId, assistantId := assistant.assistantId
    metadata := runMetadata call assistant existing
    status := call.status
    kwargs := mergeJsonb [call.kwargs,
      [("config", .dict (mergeJsonb [assistant.config, call.config,
        [("configurable", .dict (runConfigurable call assistant existing threadId))],
        [("metadata", .dict (runMetadata call assistant existing))]])),
        ("context", .dict (mergeJsonb [assistant.context, call.kwargs.getDict "context"]))]]
    multitaskStrategy := call.multitaskStrategy
    createdAt := some createdAt, updatedAt := some now
    langsmithSessionName := call.langsmithSessionName }

end Records

/-- `run["thread_id"] == thread_id and run["status"] in ("pending", "running")` -/
def inflight (threadId : Uuid) (run : Run) : Bool := run.threadId = threadId && run.isActive

abbrev PutTurn := Runtime × Turn Put (Except PyError (List Run))

/-- The last part of `put`, from the search for inflight runs on. -/
def Put.insert (s : Runtime) (call : PutCall) (assistant : Assistant) (existing : Option Nat)
    (threadId : Uuid) (now : Time) : PutTurn :=
  let inflightRuns := s.runs.values.filter (inflight threadId)
  if call.preventInsertIfInflight ∧ inflightRuns ≠ [] then returned s inflightRuns
  else
    attempt s (addDelta now (call.afterSeconds * 1000000)) (fun createdAt =>
      let run := newRun call assistant (existing.map s.threads.get) threadId createdAt now
      returned { s with runs := s.runs.append run } (run :: inflightRuns))

/-- The middle part, once every handler has answered. The record at `existing`
was found by the id of the call. -/
def Put.place (s : Runtime) (call : PutCall) (assistant : Assistant) (existing : Option Nat)
    (filters : PyVal) (reply : Reply) : PutTurn :=
  match existing with
  | some r =>
    attempt s (filtersAllow (s.threads.get r).metadata filters) (fun allowed =>
      if allowed = false then returned s []
      else
        Put.insert { s with threads := s.threads.update r (markBusy call assistant reply.now) }
          call assistant (some r) (s.threads.get r).threadId reply.now)
  | none =>
    if call.threadId = none ∨ call.ifNotExists = .create then
      (s, .suspended (.creatingThread call assistant
        (newThread call assistant (call.threadId.getD reply.fresh) reply.now)))
    else returned s []

/-- `assistant.get("metadata", {}).get("created_by") == "system"` -/
def isSystemAssistant (assistant : Assistant) : Bool :=
  ((assistant.metadata.get? "created_by").getD .none).pyEq (.str "system")

def assistantById (s : Runtime) (assistantId : Uuid) : Option Assistant :=
  s.assistants.find? (fun assistant => assistant.assistantId = assistantId)

/-- The thread as it is after the handler. -/
def existingThread (s : Runtime) (call : PutCall) : Option Nat :=
  call.threadId.bind (fun threadId => s.threads.find? (Threads.byId threadId))

/-- `Runs.put`: two handlers may be awaited, and the log call before a new
thread is appended. -/
def Put.resume (s : Runtime) : Put → Reply → PutTurn
  | .called call, _ =>
    match assistantById s call.assistantId with
    | none => returned s []
    | some assistant => (s, .suspended (.authorizing call assistant))
  | .authorizing call assistant, reply =>
    attempt s reply.answer (fun filters =>
      if isSystemAssistant assistant then
        Put.place s call assistant (existingThread s call) filters reply
      else (s, .suspended (.authorizingAssistant call assistant (existingThread s call) filters)))
  | .authorizingAssistant call assistant existing filters, reply =>
    attempt s reply.answer (fun assistantFilters =>
      attempt s (filtersAllow assistant.metadata assistantFilters) (fun allowed =>
        if allowed = false then returned s [] else Put.place s call assistant existing filters reply))
  | .creatingThread call assistant thread, reply =>
    attempt s reply.answer (fun _ =>
      Put.insert { s with threads := s.threads.append thread } call assistant none thread.threadId reply.now)

@[simp] theorem markBusy_threadId (call : PutCall) (assistant : Assistant) (now : Time) (thread : Thread) :
    (markBusy call assistant now thread).threadId = thread.threadId := by
  unfold markBusy
  split <;> rfl

/-- Whether a turn of `put` goes on with a thread that it found before. -/
inductive Put.Extends (s : Runtime) (reply : Reply) : Put → Nat → Prop
  | found {call assistant r filters} : reply.answer = .ok filters → isSystemAssistant assistant = true →
      existingThread s call = some r → filtersAllow (s.threads.get r).metadata filters = .ok true →
      Extends s reply (.authorizing call assistant) r
  | held {call assistant r filters assistantFilters} : reply.answer = .ok assistantFilters →
      filtersAllow assistant.metadata assistantFilters = .ok true →
      filtersAllow (s.threads.get r).metadata filters = .ok true →
      Extends s reply (.authorizingAssistant call assistant (some r) filters) r

def Put.call : Put → PutCall
  | .called call | .authorizing call _ | .authorizingAssistant call _ _ _ | .creatingThread call _ _ => call

/-- The run list after the last part of `put`. -/
inductive Put.Inserted (s : Runtime) (call : PutCall) (threadId : Uuid) (reply : Reply) : Table Run → Prop
  | none : Inserted s call threadId reply s.runs
  | appended {assistant existing createdAt} :
      Inserted s call threadId reply
        (s.runs.append (newRun call assistant existing threadId createdAt reply.now))

theorem Put.inserted (s : Runtime) (call : PutCall) (assistant : Assistant) (existing : Option Nat)
    (threadId : Uuid) (reply : Reply) :
    ∃ runs outcome, Put.Inserted s call threadId reply runs ∧
      Put.insert s call assistant existing threadId reply.now = ({ s with runs := runs }, .finished outcome) := by
  rw [insert]
  dsimp only
  split
  · exact ⟨_, _, .none, rfl⟩
  · refine attempt_cases (motive := fun out => ∃ runs outcome, Put.Inserted s call threadId reply runs ∧
      out = ({ s with runs := runs }, .finished outcome)) (fun e _ => ?_) (fun createdAt _ => ?_)
    · exact ⟨_, _, .none, rfl⟩
    · exact ⟨_, _, .appended, rfl⟩

/-- What a turn of `put` can do. -/
inductive Put.Effect (s : Runtime) (reply : Reply) (p : Put) : PutTurn → Prop
  | unchanged (outcome) : Effect s reply p (s, .finished outcome)
  | suspended (q) : (∀ call assistant thread, q = .creatingThread call assistant thread →
      thread.threadId = call.threadId.getD reply.fresh) → Effect s reply p (s, .suspended q)
  | extended {r assistant runs outcome} : Extends s reply p r →
      Inserted s p.call (s.threads.get r).threadId reply runs →
      Effect s reply p
        ({ s with threads := s.threads.update r (markBusy p.call assistant reply.now), runs := runs },
          .finished outcome)
  | created {call assistant thread value runs outcome} : p = .creatingThread call assistant thread →
      reply.answer = .ok value → Inserted s call thread.threadId reply runs →
      Effect s reply p ({ s with threads := s.threads.append thread, runs := runs }, .finished outcome)

theorem Put.place_effect {s : Runtime} {reply : Reply} {p : Put} {call : PutCall} (assistant : Assistant)
    {existing : Option Nat} {filters : PyVal} (ofCall : p.call = call)
    (extends_ : ∀ r, existing = some r → filtersAllow (s.threads.get r).metadata filters = .ok true →
      Extends s reply p r) :
    Put.Effect s reply p (Put.place s call assistant existing filters reply) := by
  subst ofCall
  cases existing with
  | none =>
    rw [place]
    split
    · refine .suspended _ (fun call' assistant' thread same => ?_)
      cases same
      rfl
    · exact .unchanged _
  | some r =>
    rw [place]
    refine attempt_cases (fun e _ => .unchanged _) (fun allowed verdict => ?_)
    cases allowed with
    | false => exact .unchanged _
    | true =>
      simp only [Bool.true_eq_false, if_false]
      obtain ⟨runs, outcome, inserted, final⟩ := Put.inserted
        { s with threads := s.threads.update r (markBusy p.call assistant reply.now) } p.call assistant (some r)
        (s.threads.get r).threadId reply
      rw [final]
      refine .extended (extends_ r rfl verdict) ?_
      cases inserted with
      | none => exact .none
      | appended => exact .appended

theorem Put.effect (s : Runtime) (p : Put) (reply : Reply) : Put.Effect s reply p (Put.resume s p reply) := by
  cases p with
  | called call =>
    rw [resume]
    cases assistantById s call.assistantId with
    | none => exact .unchanged _
    | some assistant => exact .suspended _ (by simp)
  | authorizing call assistant =>
    rw [resume]
    refine attempt_cases (fun e _ => .unchanged _) (fun filters answer => ?_)
    split
    · rename_i system
      exact place_effect assistant rfl (fun r found verdict => .found answer system found verdict)
    · exact .suspended _ (by simp)
  | authorizingAssistant call assistant existing filters =>
    rw [resume]
    refine attempt_cases (fun e _ => .unchanged _) (fun assistantFilters answer => ?_)
    refine attempt_cases (fun e _ => .unchanged _) (fun allowed verdict => ?_)
    cases allowed with
    | false => exact .unchanged _
    | true =>
      simp only [Bool.true_eq_false, if_false]
      refine place_effect assistant rfl (fun r held passes => ?_)
      subst held
      exact .held answer verdict passes
  | creatingThread call assistant thread =>
    rw [resume]
    refine attempt_cases (fun e _ => .unchanged _) (fun value answer => ?_)
    obtain ⟨runs, outcome, inserted, final⟩ := Put.inserted
      { s with threads := s.threads.append thread } call assistant none thread.threadId reply
    rw [final]
    refine .created rfl answer ?_
    cases inserted with
    | none => exact .none
    | appended => exact .appended

end Runs

end InmemRuntime
