import InmemRuntime.PyEq
import InmemRuntime.RunsPut

namespace InmemRuntime

namespace PyDict

theorem get?_set (d : PyDict) (key key' : String) (value : PyVal) :
    (d.set key value).get? key' = if key' = key then some value else d.get? key' := by
  by_cases same : key' = key
  · rw [if_pos same, same, get?_set_self]
  · rw [if_neg same, get?_set_of_ne d same]

/-- Of a merge, the last item under a key counts. -/
theorem get?_update (d e : PyDict) (key : String) :
    (d.update e).get? key = (PyDict.get? e.reverse key).or (d.get? key) := by
  induction e generalizing d with
  | nil => rfl
  | cons item e ih =>
    have later := ih (d.set item.1 item.2)
    change ((d.set item.1 item.2).update e).get? key = _
    rw [later, List.reverse_cons, get?_append, Option.or_assoc, get?_set, get?_cons]
    by_cases here : key = item.1
    · rw [if_pos here, if_pos here]
      rfl
    · rw [if_neg here, if_neg here]
      rfl

/-- The dict has each of the items. -/
def Carries (d ids : PyDict) : Prop := ∀ id ∈ ids, d.get? id.1 = some id.2

/-- What is merged last stands. -/
theorem carries_update (d : PyDict) {e ids : PyDict} (distinct : e.Distinct) (among : ids ⊆ e) : (d.update e).Carries ids := by
  intro id member
  have reversed : PyDict.Distinct e.reverse := by
    rw [Distinct, keys, List.map_reverse]
    exact List.nodup_reverse.mpr distinct
  rw [get?_update, get?_of_mem reversed (List.mem_reverse.mpr (among member))]
  rfl

theorem getDict_of_get? {d items : PyDict} {key : String} (found : d.get? key = some (.dict items)) :
    d.getDict key = items := by
  rw [getDict, found]

end PyDict

namespace Runs

section Ids

variable (call : PutCall) (assistant : Assistant)

/-- The ids that the server assigns to a thread. -/
def threadIds : PyDict := [("graph_id", .str assistant.graphId), ("assistant_id", .str assistant.assistantId.str)]

/-- The ids that the server assigns to a run's configurable. -/
def runIds (run : Run) : PyDict :=
  [("run_id", .str (strOrNone run.runId)), ("thread_id", .str run.threadId.str), ("graph_id", .str assistant.graphId),
    ("assistant_id", .str assistant.assistantId.str)]

/-- The run is the assistant's, and its metadata and its config say so. -/
structure TrueRun (run : Run) : Prop where
  own : run.assistantId = assistant.assistantId
  metadata : run.metadata.Carries [("assistant_id", .str assistant.assistantId.str)]
  configMetadata : ((run.kwargs.getDict "config").getDict "metadata").Carries
    [("assistant_id", .str assistant.assistantId.str)]
  configurable : ((run.kwargs.getDict "config").getDict "configurable").Carries (runIds assistant run)

/-- Whatever is in the two metadata of the call under the names of the ids is true. -/
def KeepsIds : Prop :=
  ∀ id ∈ threadIds assistant, ∀ value,
    (mergeJsonb [call.config.getDict "metadata", call.metadataOrEmpty]).get? id.1 = some value → value = id.2

theorem get?_mergeJsonb_concat (objects : List PyDict) (last : PyDict) (key : String) :
    (mergeJsonb (objects ++ [last])).get? key = (PyDict.get? last.reverse key).or ((mergeJsonb objects).get? key) := by
  rw [mergeJsonb, List.foldl_append]
  exact PyDict.get?_update _ last key

theorem newRun_true (existing : Option Thread) (threadId : Uuid) (createdAt now : Time) :
    TrueRun assistant (newRun call assistant existing threadId createdAt now) := by
  have ownId : (runMetadata call assistant existing).Carries [("assistant_id", .str assistant.assistantId.str)] := by
    intro id member
    rw [List.mem_singleton.mp member, runMetadata, PyDict.get?_set_self]
  let config : PyDict := mergeJsonb [assistant.config, call.config,
    [("configurable", .dict (runConfigurable call assistant existing threadId))],
    [("metadata", .dict (runMetadata call assistant existing))]]
  have given : (newRun call assistant existing threadId createdAt now).kwargs.getDict "config" = config := by
    refine PyDict.getDict_of_get? ((get?_mergeJsonb_concat [call.kwargs] _ "config").trans ?_)
    simp [PyDict.get?_cons, config]
  have metadata : config.getDict "metadata" = runMetadata call assistant existing := by
    refine PyDict.getDict_of_get? ((get?_mergeJsonb_concat [assistant.config, call.config, _] _ "metadata").trans ?_)
    simp [PyDict.get?_cons]
  have configurable : config.getDict "configurable" = runConfigurable call assistant existing threadId := by
    refine PyDict.getDict_of_get? ((get?_mergeJsonb_concat [assistant.config, call.config, _] _ "configurable").trans ?_)
    have before := get?_mergeJsonb_concat [assistant.config, call.config]
      [("configurable", .dict (runConfigurable call assistant existing threadId))] "configurable"
    rw [List.cons_append, List.cons_append, List.nil_append] at before
    rw [before]
    simp [PyDict.get?_cons]
    rfl
  refine ⟨rfl, ownId, ?_, ?_⟩
  · rw [given, metadata]
    exact ownId
  · rw [given, configurable, runConfigurable, mergeJsonb]
    simp only [List.foldl_cons, List.foldl_nil]
    exact PyDict.carries_update _ (by simp [PyDict.Distinct, PyDict.keys]) (by simp [runIds, newRun])

theorem newThread_true_iff (threadId : Uuid) (now : Time) :
    (newThread call assistant threadId now).metadata.Carries (threadIds assistant) ↔ KeepsIds call assistant := by
  have ids : PyDict.Distinct (threadIds assistant) := by simp [PyDict.Distinct, PyDict.keys, threadIds]
  refine forall₂_congr (fun id member => ?_)
  have merged : ∀ key, (mergeJsonb [call.config.getDict "metadata", call.metadataOrEmpty]).get? key =
      (PyDict.get? call.metadataOrEmpty.reverse key).or (PyDict.get? (call.config.getDict "metadata").reverse key) := by
    intro key
    have both := get?_mergeJsonb_concat [call.config.getDict "metadata"] call.metadataOrEmpty key
    have first := get?_mergeJsonb_concat [] (call.config.getDict "metadata") key
    rw [List.nil_append] at first
    rw [List.cons_append, List.nil_append] at both
    rw [both, first]
    exact congrArg _ Option.or_none
  have own : (newThread call assistant threadId now).metadata.get? id.1 =
      ((mergeJsonb [call.config.getDict "metadata", call.metadataOrEmpty]).get? id.1).or (some id.2) := by
    rw [merged, ← PyDict.get?_of_mem ids member, Option.or_assoc]
    change ((PyDict.update (PyDict.update (threadIds assistant) _) _)).get? id.1 = _
    rw [PyDict.get?_update, PyDict.get?_update]
  rw [own]
  cases (mergeJsonb [call.config.getDict "metadata", call.metadataOrEmpty]).get? id.1 <;> simp

end Ids

/-- A call of `put` on its way, with the assistant that it found. Between its
turns the store may change as it will. -/
inductive Put.Underway (call : PutCall) (assistant : Assistant) : Put → Prop
  | found {s : Runtime} (listed : assistantById s call.assistantId = some assistant) :
      Underway call assistant (.authorizing call assistant)
  | resumed {s s' : Runtime} {p q : Put} {reply} (underway : Underway call assistant p)
      (turn : Put.resume s p reply = (s', .suspended q)) : Underway call assistant q

/-- Where a call under way can stand. -/
inductive Put.At (call : PutCall) (assistant : Assistant) : Put → Prop
  | authorizing : At call assistant (.authorizing call assistant)
  | authorizingAssistant {existing filters} : At call assistant (.authorizingAssistant call assistant existing filters)
  | creatingThread (threadId now) :
      At call assistant (.creatingThread call assistant (newThread call assistant threadId now))

/-- The thread that the run is put on: one that is there, or the one that the call makes. -/
inductive Put.OnThread (call : PutCall) (assistant : Assistant) (now : Time) (p : Put) (threads : Table Thread) :
    Table Thread → Prop
  | existing (r : Nat) : (∀ thread, p ≠ .creatingThread call assistant thread) →
      OnThread call assistant now p threads (threads.update r (markBusy call assistant now))
  | created {thread} : p = .creatingThread call assistant thread →
      OnThread call assistant now p threads (threads.append thread)

theorem append_ne {α : Type} (t : Table α) (v : α) : t ≠ t.append v := by
  intro same
  have sizes := congrArg Table.size same
  exact absurd sizes (Nat.ne_of_lt (Nat.lt_succ_self _))

/-- What a turn comes to: the call stands further on, or it has made a run, or neither. -/
structure Put.Turned (s : Runtime) (call : PutCall) (assistant : Assistant) (now : Time) (p : Put) (out : PutTurn) :
    Prop where
  suspends : ∀ s' q, out = (s', .suspended q) → At call assistant q
  makes : ∀ s' run others, out = (s', .finished (.ok (run :: others))) → s'.runs = s.runs.append run →
    OnThread call assistant now p s.threads s'.threads ∧
      ∃ existing threadId createdAt, run = newRun call assistant existing threadId createdAt now

section Turn

variable {s : Runtime} {call : PutCall} {assistant : Assistant} {p q : Put} {now : Time} {reply : Reply}

theorem Put.Turned.raised (e : PyError) : Turned s call assistant now p (raised s e) where
  suspends := by rintro s' q turn; cases turn
  makes := by rintro s' run others turn; cases turn

theorem Put.Turned.suspended (stands : At call assistant q) : Turned s call assistant now p (s, .suspended q) where
  suspends := by rintro s' q' turn; cases turn; exact stands
  makes := by rintro s' run others turn; cases turn

/-- What is returned without a new run is the inflight runs, or nothing. -/
theorem Put.Turned.returned {before : Runtime} (same : before.runs = s.runs) (runs : List Run) :
    Turned s call assistant now p (returned before runs) where
  suspends := by rintro s' q turn; cases turn
  makes := by
    intro s' run others turn made
    have final : before = s' := congrArg Prod.fst turn
    exact absurd ((final ▸ same).symm.trans made) (append_ne _ _)

theorem Put.Turned.insert {before : Runtime} {existing : Option Nat} {threadId : Uuid}
    (same : before.runs = s.runs) (onThread : OnThread call assistant now p s.threads before.threads) :
    Turned s call assistant now p (Put.insert before call assistant existing threadId now) := by
  rw [Put.insert]
  dsimp only
  split
  · exact .returned same _
  · refine attempt_cases (fun e _ => ⟨?_, ?_⟩) (fun createdAt _ => ⟨?_, ?_⟩)
    · rintro s' q turn
      cases turn
    · rintro s' run others turn
      cases turn
    · rintro s' q turn
      cases turn
    · rintro s' run others turn made
      cases turn
      exact ⟨onThread, _, _, createdAt, rfl⟩

theorem Put.Turned.place {existing : Option Nat} {filters : PyVal}
    (other : ∀ thread, p ≠ .creatingThread call assistant thread) :
    Turned s call assistant reply.now p (Put.place s call assistant existing filters reply) := by
  cases existing with
  | none =>
    rw [Put.place]
    split
    · exact .suspended (.creatingThread _ _)
    · exact .returned rfl []
  | some r =>
    rw [Put.place]
    refine attempt_cases (fun e _ => .raised e) (fun allowed _ => ?_)
    split
    · exact .returned rfl []
    · exact .insert rfl (.existing r other)

theorem Put.At.turned (stands : At call assistant p) :
    Turned s call assistant reply.now p (Put.resume s p reply) := by
  cases stands with
  | authorizing =>
    rw [resume]
    refine attempt_cases (fun e _ => .raised e) (fun filters _ => ?_)
    split
    · exact .place (fun thread same => by cases same)
    · exact .suspended .authorizingAssistant
  | authorizingAssistant =>
    rw [resume]
    refine attempt_cases (fun e _ => .raised e) (fun filters _ => ?_)
    refine attempt_cases (fun e _ => .raised e) (fun allowed _ => ?_)
    split
    · exact .returned rfl []
    · exact .place (fun thread same => by cases same)
  | creatingThread threadId now =>
    rw [resume]
    refine attempt_cases (fun e _ => .raised e) (fun value _ => ?_)
    exact .insert rfl (.created rfl)

/-- Where a call of `put` can wait. -/
def Put.Stands (p : Put) : Prop := (∃ call, p = .called call) ∨ ∃ call assistant, At call assistant p

theorem Put.Stands.points (stands : p.Stands) : ∀ q ∈ (Put.resume s p reply).2.points, q.Stands := by
  rcases stands with ⟨call, rfl⟩ | ⟨call, assistant, at_p⟩
  · rw [Put.resume]
    split
    · intro q member
      cases member
    · intro q member
      rw [List.mem_singleton.mp member]
      exact Or.inr ⟨_, _, .authorizing⟩
  · have turned : Turned s call assistant reply.now p (Put.resume s p reply) := at_p.turned
    have effect := Put.effect s p reply
    generalize Put.resume s p reply = turn at turned effect
    cases effect with
    | suspended q =>
      intro q' member
      rw [List.mem_singleton.mp member]
      exact Or.inr ⟨call, assistant, turned.suspends s q rfl⟩
    | _ =>
      intro q' member
      cases member

theorem Put.Underway.at (underway : Underway call assistant p) : At call assistant p := by
  induction underway with
  | found listed => exact .authorizing
  | resumed _ turn ih => exact ih.turned.suspends _ _ turn

theorem Put.Underway.assistantId (underway : Underway call assistant p) : assistant.assistantId = call.assistantId := by
  induction underway with
  | found listed =>
    have passes := List.find?_some listed
    exact of_decide_eq_true passes
  | resumed _ _ ih => exact ih

end Turn

/-- The thread is busy now, and was not there or not busy before. -/
def MadeBusy (s s' : Runtime) (r : Nat) : Prop :=
  s'.threads.Holds r ∧ (s'.threads.get r).status = .busy ∧ ¬ (s.threads.Holds r ∧ (s.threads.get r).status = .busy)

def ThreadsTrue (assistant : Assistant) (s s' : Runtime) : Prop :=
  ∀ r, MadeBusy s s' r → (s'.threads.get r).metadata.Carries (threadIds assistant)

section Claim

variable {s s' : Runtime} {call : PutCall} {assistant : Assistant} {p : Put} {reply : Reply} {run : Run}
  {others : List Run}

theorem markBusy_true {now : Time} {thread : Thread} (idle : thread.status ≠ .busy) :
    (markBusy call assistant now thread).metadata.Carries (threadIds assistant) := by
  rw [markBusy, if_neg idle]
  exact PyDict.carries_update _ (by simp [PyDict.Distinct, PyDict.keys]) (List.Subset.refl _)

theorem threadsTrue_of_existing {r : Nat} {now : Time}
    (placed : s'.threads = s.threads.update r (markBusy call assistant now)) : ThreadsTrue assistant s s' := by
  rintro r' ⟨held, busy, fresh⟩
  have heldBefore : s.threads.Holds r' := by rwa [placed] at held
  rw [placed, Table.update_get] at busy ⊢
  by_cases here : r' = r
  · subst here
    rw [if_pos rfl]
    exact markBusy_true (fun already => fresh ⟨heldBefore, already⟩)
  · rw [if_neg here] at busy
    exact absurd ⟨heldBefore, busy⟩ fresh

theorem threadsTrue_of_created {thread : Thread} (busy : thread.status = .busy)
    (placed : s'.threads = s.threads.append thread) :
    ThreadsTrue assistant s s' ↔ thread.metadata.Carries (threadIds assistant) := by
  have made : (s'.threads.get s.threads.size) = thread := by rw [placed, Table.append_get_new]
  constructor
  · intro true'
    refine made ▸ true' s.threads.size ⟨?_, made ▸ busy, fun before => Nat.lt_irrefl _ before.1⟩
    rw [placed]
    exact Nat.lt_succ_self _
  · rintro carries r ⟨held, busyNow, fresh⟩
    by_cases new : r = s.threads.size
    · rw [new, made]
      exact carries
    · rw [placed] at held busyNow
      have old : s.threads.Holds r := Nat.lt_of_le_of_ne (Nat.le_of_lt_succ held) new
      rw [Table.append_get_old old] at busyNow
      exact absurd ⟨old, busyNow⟩ fresh

/-- The turn of `put` that makes the run gives it the true ids in every case, and
the thread too, except that a call which makes the thread can give it others. -/
theorem put_ids_true_iff (underway : Put.Underway call assistant p)
    (turn : Put.resume s p reply = (s', .finished (.ok (run :: others)))) (made : s'.runs = s.runs.append run) :
    (TrueRun assistant run ∧ ThreadsTrue assistant s s') ↔
      ((∃ thread, p = .creatingThread call assistant thread) → KeepsIds call assistant) := by
  obtain ⟨onThread, existing, threadId, createdAt, rfl⟩ := underway.at.turned.makes s' run others turn made
  rw [and_iff_right (newRun_true call assistant existing threadId createdAt reply.now)]
  generalize placed : s'.threads = threads at onThread
  cases onThread with
  | existing r other =>
    refine iff_of_true (threadsTrue_of_existing placed) ?_
    rintro ⟨thread, same⟩
    exact absurd same (other thread)
  | @created thread stands =>
    have at' := underway.at
    rw [stands] at at'
    cases at' with
    | creatingThread threadId now =>
      rw [imp_iff_right ⟨_, stands⟩, threadsTrue_of_created rfl placed, newThread_true_iff]

end Claim

/-- An assistant of the system in a store of its own. -/
def systemAssistant : Assistant := ⟨⟨1⟩, "agent", [], [], [("created_by", .str "system")]⟩

def systemStore : Runtime := { (default : Runtime) with assistants := [systemAssistant] }

/-- A run on a thread of its own, with metadata that names a graph. -/
def callNaming (graphId : String) : PutCall :=
  { assistantId := ⟨1⟩, kwargs := [], threadId := none, userId := none, runId := some ⟨2⟩, status := some .pending
    metadata := some [("graph_id", .str graphId)], preventInsertIfInflight := false, multitaskStrategy := "reject"
    ifNotExists := .reject, afterSeconds := 0, langsmithSessionName := none }

/-- The call before its last turn. -/
def makingThread (graphId : String) : Put :=
  .creatingThread (callNaming graphId) systemAssistant (newThread (callNaming graphId) systemAssistant ⟨0⟩ 0)

theorem makingThread_underway (graphId : String) :
    Put.Underway (callNaming graphId) systemAssistant (makingThread graphId) := by
  have found : assistantById systemStore (callNaming graphId).assistantId = some systemAssistant := rfl
  have turn : Put.resume systemStore (.authorizing (callNaming graphId) systemAssistant) plainReply =
      (systemStore, .suspended (makingThread graphId)) := rfl
  exact .resumed (.found found) turn

/-- The run that the last turn makes. -/
def madeRun (graphId : String) : Run := newRun (callNaming graphId) systemAssistant none ⟨0⟩ 0 0

theorem makingThread_turn (graphId : String) :
    Put.resume systemStore (makingThread graphId) plainReply =
      ((Put.resume systemStore (makingThread graphId) plainReply).1, .finished (.ok [madeRun graphId])) := rfl

theorem put_ids_true_named :
    (TrueRun systemAssistant (madeRun "agent") ∧
      ThreadsTrue systemAssistant systemStore (Put.resume systemStore (makingThread "agent") plainReply).1) ↔
      ((∃ thread, makingThread "agent" = .creatingThread (callNaming "agent") systemAssistant thread) →
        KeepsIds (callNaming "agent") systemAssistant) :=
  put_ids_true_iff (makingThread_underway "agent") (makingThread_turn "agent") rfl

/-- The thread of a run whose caller names another graph carries that name. -/
theorem put_ids_forged :
    ¬ ∀ (s s' : Runtime) (call : PutCall) (assistant : Assistant) (p : Put) (reply : Reply) (run : Run) (others : List Run),
      Put.Underway call assistant p → Put.resume s p reply = (s', .finished (.ok (run :: others))) →
        s'.runs = s.runs.append run → TrueRun assistant run ∧ ThreadsTrue assistant s s' := by
  intro allTrue
  have threads := (allTrue _ _ _ _ _ _ _ _ (makingThread_underway "other") (makingThread_turn "other") rfl).2
  have carries := threads 0 ⟨Nat.one_pos, rfl, fun before => Nat.lt_irrefl 0 before.1⟩ _ List.mem_cons_self
  have named : "other" = "agent" := PyVal.str.inj (Option.some.inj carries)
  exact absurd named (by decide +kernel)

end Runs

end InmemRuntime
