import InmemRuntime.RunOps

namespace InmemRuntime

namespace Threads

/-- No two runs of the list have one id; a run may have none. -/
def DistinctRunIds (runs : Table Run) : Prop :=
  ∀ r ∈ runs.rows, ∀ r' ∈ runs.rows, ∀ runId, (runs.get r).runId = some runId → (runs.get r').runId = some runId → r = r'

/-- The lists are as before, and so are all records but the named run and thread. -/
structure OthersKept (s s' : Runtime) (run thread : Nat) : Prop where
  runRows : s'.runs.rows = s.runs.rows
  threadRows : s'.threads.rows = s.threads.rows
  runs : ∀ i, i ≠ run → s'.runs.get i = s.runs.get i
  threads : ∀ i, i ≠ thread → s'.threads.get i = s.threads.get i

/-- Two runtimes agree on what a worker reports of a run and its thread. -/
structure StatusesAgree (s s' : Runtime) (run thread : Nat) : Prop where
  runStatus : (s.runs.get run).status = (s'.runs.get run).status
  status : (s.threads.get thread).status = (s'.threads.get thread).status
  interrupts : (s.threads.get thread).interrupts = (s'.threads.get thread).interrupts
  error : (s.threads.get thread).error = (s'.threads.get thread).error
  values : (s.threads.get thread).values = (s'.threads.get thread).values

section Found

variable {s : Runtime} {runId threadId : Uuid} {run : Nat} {status : RunStatus}

theorem byIds_iff {run : Run} :
    Runs.byIds runId threadId run = true ↔ run.runId = some runId ∧ run.threadId = threadId := decide_eq_true_iff

/-- Where run ids are distinct, `Runs.set_status` finds the run that is looked up with its thread. -/
theorem find_runId (distinct : DistinctRunIds s.runs) (found : s.runs.find? (Runs.byIds runId threadId) = some run) :
    s.runs.find? (fun run => run.runId = some runId) = some run := by
  have own := (byIds_iff.mp (Table.find?_passes found)).1
  cases first : s.runs.find? (fun run => run.runId = some runId) with
  | none =>
    have missed := Table.find?_eq_none.mp first _ (Table.mem_values.mpr ⟨run, Table.find?_mem found, rfl⟩)
    exact absurd own (of_decide_eq_false missed)
  | some earlier =>
    have ownToo : (s.runs.get earlier).runId = some runId := by simpa using Table.find?_passes first
    rw [distinct earlier (Table.find?_mem first) run (Table.find?_mem found) runId ownToo own]

/-- A run that is given an active status makes its thread busy. -/
theorem active_of_status (found : s.runs.find? (Runs.byIds runId threadId) = some run) (now : Time)
    (active : status = .pending ∨ status = .running) :
    hasActiveRuns { s with runs := s.runs.update run (Runs.withStatus status now) } threadId = true := by
  have own := (byIds_iff.mp (Table.find?_passes found)).2
  have listed : run ∈ s.runs.rows := Table.find?_mem found
  refine List.any_eq_true.mpr ⟨Runs.withStatus status now (s.runs.get run), ?_, ?_⟩
  · exact Table.mem_values.mpr ⟨run, listed, Table.update_get_self _ _ _⟩
  · rw [activeOn, Bool.and_eq_true]
    refine ⟨decide_eq_true own, ?_⟩
    rcases active with rfl | rfl <;> rfl

/-- Whether a thread is busy does not hang on the time that the run was updated at. -/
theorem hasActiveRuns_withStatus (s : Runtime) (run : Nat) (status : RunStatus) (now now' : Time) (threadId : Uuid) :
    hasActiveRuns { s with runs := s.runs.update run (Runs.withStatus status now) } threadId =
      hasActiveRuns { s with runs := s.runs.update run (Runs.withStatus status now') } threadId := by
  rw [hasActiveRuns, hasActiveRuns, Table.values, Table.values, List.any_map, List.any_map]
  congr 1
  funext r
  change activeOn threadId ((s.runs.update run _).get r) = activeOn threadId ((s.runs.update run _).get r)
  rw [Table.update_get, Table.update_get]
  split <;> rfl

end Found

/-- The two base statuses differ for the exceptions that a user causes only. -/
theorem failed_of_ordinary {call : JointCall} (ordinary : ∀ e, call.exception = some e → e.kind = .other) :
    call.failed = call.exception.isSome := by
  unfold JointCall.failed
  cases given : call.exception with
  | none => rfl
  | some e => exact decide_eq_true (ordinary e given)

theorem othersKept_report (s : Runtime) (run thread : Nat) (f : Run → Run) (g : Thread → Thread) :
    OthersKept s { s with runs := s.runs.update run f, threads := s.threads.update thread g } run thread where
  runRows := rfl
  threadRows := rfl
  runs := fun _ other => Table.update_get_of_ne s.runs other f
  threads := fun _ other => Table.update_get_of_ne s.threads other g

/-- What the two ways of reporting come to. The clock is read at each operation. -/
structure ReportsAgree (s : Runtime) (call : JointCall) (status : RunStatus) (joint : Runtime) (run thread : Nat) :
    Prop where
  jointly : OthersKept s joint run thread
  inTurn : ∀ now now', ∃ s',
    setStatus (Runs.setStatus s call.runId status now) call.threadId call.checkpoint call.exception now' = (s', .ok ()) ∧
      OthersKept s s' run thread ∧ StatusesAgree joint s' run thread

section Reports

variable {s : Runtime} {call : JointCall} {status : RunStatus} {run thread : Nat}

theorem joint_raises (serde : Serde) (reply : Reply)
    (missing : s.threads.find? (byId call.threadId) = none ∨ s.runs.find? (Runs.byIds call.runId call.threadId) = none) :
    ∃ e, Joint.resume serde s (.called call) reply = raised s e := by
  rw [Joint.resume]
  rcases missing with noThread | noRun
  · rw [noThread]
    exact ⟨_, rfl⟩
  · cases s.threads.find? (byId call.threadId) with
    | none => exact ⟨_, rfl⟩
    | some thread =>
      simp only [noRun]
      exact ⟨_, rfl⟩

theorem joint_agrees (serde : Serde) (reply : Reply) (given : call.runStatus = .status status)
    (ordinary : ∀ e, call.exception = some e → e.kind = .other) (distinct : DistinctRunIds s.runs)
    (onThread : s.threads.find? (byId call.threadId) = some thread)
    (onRun : s.runs.find? (Runs.byIds call.runId call.threadId) = some run) :
    ∃ joint, Joint.resume serde s (.called call) reply = returned joint () ∧
      ReportsAgree s call status joint run thread := by
  simp only [Joint.resume, onThread, onRun, given]
  refine ⟨_, rfl, othersKept_report s run thread _ _, fun now now' => ?_⟩
  simp only [Runs.setStatus, find_runId distinct onRun, setStatus, onThread]
  refine ⟨_, rfl, othersKept_report s run thread _ _, ?_⟩
  have busy : (status = .pending ∨ status = .running ∨ hasActiveRuns
      { s with runs := s.runs.update run (Runs.withStatus status reply.now) } call.threadId = true) ↔
      hasActiveRuns { s with runs := s.runs.update run (Runs.withStatus status now) } call.threadId = true := by
    rw [hasActiveRuns_withStatus s run status reply.now now, ← or_assoc]
    exact or_iff_right_of_imp (active_of_status onRun now)
  simp only [Joint.finish, decide_eq_true_eq, busy, failed_of_ordinary ordinary]
  constructor <;> simp only [Table.update_get_self] <;> rfl

end Reports

/-- `set_joint_status` raises and changes nothing where the thread or the run is
missing, and otherwise agrees with the two operations in turn. -/
theorem joint_status_agrees (serde : Serde) (s : Runtime) (call : JointCall) (reply : Reply) :
    ((s.threads.find? (byId call.threadId) = none ∨ s.runs.find? (Runs.byIds call.runId call.threadId) = none) →
      ∃ e, Joint.resume serde s (.called call) reply = raised s e) ∧
    ∀ status run thread, call.runStatus = .status status → (∀ e, call.exception = some e → e.kind = .other) →
      DistinctRunIds s.runs → s.threads.find? (byId call.threadId) = some thread →
      s.runs.find? (Runs.byIds call.runId call.threadId) = some run →
      ∃ joint, Joint.resume serde s (.called call) reply = returned joint () ∧
        ReportsAgree s call status joint run thread := by
  refine ⟨joint_raises serde reply, ?_⟩
  intro status run thread given ordinary distinct onThread onRun
  exact joint_agrees serde reply given ordinary distinct onThread onRun

/-- A run on an idle thread, to be reported as failed. -/
def reportedStore : Runtime :=
  { storeOf [idleThread ⟨0⟩] with
    runs := Table.append .empty ⟨some ⟨1⟩, ⟨0⟩, ⟨2⟩, [], some .running, [], "reject", none, none, none⟩ }

def reportedFailure : JointCall :=
  ⟨⟨0⟩, ⟨1⟩, .status .error, "agent", some ⟨[.str "node"], .dict [], []⟩, some ⟨.other, .str "error"⟩⟩

theorem joint_status_agrees_failure :
    (∃ e, Joint.resume ⟨fun _ => default, fun _ => []⟩ (storeOf []) (.called reportedFailure) plainReply = raised (storeOf []) e) ∧
      ∃ joint, Joint.resume ⟨fun _ => default, fun _ => []⟩ reportedStore (.called reportedFailure) plainReply = returned joint () ∧
        ReportsAgree reportedStore reportedFailure .error joint 0 0 := by
  refine ⟨(joint_status_agrees ⟨fun _ => default, fun _ => []⟩ (storeOf []) reportedFailure plainReply).1 (.inl rfl), ?_⟩
  refine (joint_status_agrees ⟨fun _ => default, fun _ => []⟩ reportedStore reportedFailure plainReply).2 .error 0 0 rfl ?_ ?_ rfl rfl
  · intro e same
    cases same
    rfl
  · intro r listed r' listed' runId _ _
    rw [List.mem_singleton.mp listed, List.mem_singleton.mp listed']

end Threads

end InmemRuntime
