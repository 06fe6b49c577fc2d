import InmemRuntime.RunsNext
import InmemRuntime.RunsPut
import InmemRuntime.ThreadReads

namespace InmemRuntime

/-- What an operation other than `Runs.next` does to the run records: only those
in `written` get another status, only those in `removed` leave the list, and no
record starts to run. -/
structure RunsStep (written removed : Nat → Prop) (s s' : Runtime) : Prop where
  size : s.runs.size ≤ s'.runs.size
  threadId : ∀ r, s.runs.Holds r → (s'.runs.get r).threadId = (s.runs.get r).threadId
  createdKey : ∀ r, s.runs.Holds r →
    Runs.createdKey (s'.runs.get r) = Runs.createdKey (s.runs.get r)
  unwritten : ∀ r, s.runs.Holds r → ¬ written r → (s'.runs.get r).status = (s.runs.get r).status
  starts : ∀ r, s.runs.Holds r → (s'.runs.get r).isRunning = true → (s.runs.get r).isRunning = true
  old : ∀ r ∈ s'.runs.rows, s.runs.Holds r → r ∈ s.runs.rows
  kept : ∀ r ∈ s.runs.rows, ¬ removed r → r ∈ s'.runs.rows
  new : ∀ r ∈ s'.runs.rows, ¬ s.runs.Holds r → (s'.runs.get r).isRunning = false
  retryCounter : s'.retryCounter = s.retryCounter
  runLocked : s'.runLocked = s.runLocked

namespace RunsStep

variable {written removed : Nat → Prop} {s s' : Runtime}

/-- A list that has lost some of its records. -/
theorem of_rows {t : Table Run} (runs : s'.runs = t) (size : t.size = s.runs.size)
    (get : ∀ r, t.get r = s.runs.get r) (fewer : ∀ r ∈ t.rows, r ∈ s.runs.rows)
    (kept : ∀ r ∈ s.runs.rows, ¬ removed r → r ∈ t.rows)
    (retryCounter : s'.retryCounter = s.retryCounter) (runLocked : s'.runLocked = s.runLocked) :
    RunsStep written removed s s' where
  size := by rw [runs, size]
  threadId := by
    intro r _
    rw [runs, get]
  createdKey := by
    intro r _
    rw [runs, get]
  unwritten := by
    intro r _ _
    rw [runs, get]
  starts := by
    intro r _ running
    rwa [runs, get] at running
  old := by
    intro r member _
    exact fewer r (runs ▸ member)
  kept := by
    intro r member here
    rw [runs]
    exact kept r member here
  new := by
    intro r member absent
    rw [runs] at member
    exact absurd (s.runs.bounded r (fewer r member)) absent
  retryCounter := retryCounter
  runLocked := runLocked

/-- A step that does not touch the runs. -/
theorem of_same (runs : s'.runs = s.runs) (retryCounter : s'.retryCounter = s.retryCounter)
    (runLocked : s'.runLocked = s.runLocked) : RunsStep written removed s s' :=
  of_rows runs rfl (fun _ => rfl) (fun _ member => member) (fun _ member _ => member) retryCounter runLocked

theorem mono {written' removed' : Nat → Prop} (step : RunsStep written removed s s')
    (more : ∀ r, written r → written' r) (gone : ∀ r, removed r → removed' r) :
    RunsStep written' removed' s s' :=
  { step with
    unwritten := fun r held unwritten => step.unwritten r held (fun w => unwritten (more r w))
    kept := fun r member here => step.kept r member (fun g => here (gone r g)) }

theorem trans {written' removed' : Nat → Prop} {s'' : Runtime} (first : RunsStep written removed s s')
    (second : RunsStep written' removed' s' s'') :
    RunsStep (fun r => written r ∨ written' r) (fun r => removed r ∨ removed' r) s s'' where
  size := first.size.trans second.size
  threadId := by
    intro r held
    rw [second.threadId r (lt_of_lt_of_le held first.size), first.threadId r held]
  createdKey := by
    intro r held
    rw [second.createdKey r (lt_of_lt_of_le held first.size), first.createdKey r held]
  unwritten := by
    intro r held neither
    have later := second.unwritten r (lt_of_lt_of_le held first.size) (fun w => neither (Or.inr w))
    rw [later, first.unwritten r held (fun w => neither (Or.inl w))]
  starts := by
    intro r held running
    exact first.starts r held (second.starts r (lt_of_lt_of_le held first.size) running)
  old := by
    intro r member held
    exact first.old r (second.old r member (lt_of_lt_of_le held first.size)) held
  kept := by
    intro r member here
    exact second.kept r (first.kept r member (fun g => here (Or.inl g))) (fun g => here (Or.inr g))
  new := by
    intro r member absent
    by_cases later : s'.runs.Holds r
    · rw [Bool.eq_false_iff]
      intro running
      have before := first.new r (second.old r member later) absent
      rw [second.starts r later running] at before
      cases before
    · exact second.new r member later
  retryCounter := second.retryCounter.trans first.retryCounter
  runLocked := second.runLocked.trans first.runLocked

/-- An assignment of another status to one record. -/
theorem of_update {r : Nat} {f : Run → Run} (runs : s'.runs = s.runs.update r f)
    (threadId : ∀ run, (f run).threadId = run.threadId)
    (created : ∀ run, (f run).createdAt = run.createdAt) (stops : ∀ run, (f run).isRunning = false)
    (retryCounter : s'.retryCounter = s.retryCounter) (runLocked : s'.runLocked = s.runLocked) :
    RunsStep (fun i => i = r) (fun _ => False) s s' where
  size := by rw [runs]; exact le_rfl
  threadId := by
    intro i _
    rw [runs, Table.update_get]
    split
    · exact threadId _
    · rfl
  createdKey := by
    intro i _
    rw [runs, Table.update_get]
    split
    · rw [Runs.createdKey, created, Runs.createdKey]
    · rfl
  unwritten := by
    intro i _ other
    rw [runs, Table.update_get_of_ne _ other]
  starts := by
    intro i _ running
    rw [runs, Table.update_get] at running
    split at running
    · rw [stops] at running
      cases running
    · exact running
  old := by
    intro i member _
    rwa [runs] at member
  kept := by
    intro i member _
    rwa [runs]
  new := by
    intro i member absent
    rw [runs] at member
    exact absurd (s.runs.bounded i member) absent
  retryCounter := retryCounter
  runLocked := runLocked

theorem of_status {r : Nat} {status : RunStatus} {now : Time}
    (runs : s'.runs = s.runs.update r (Runs.withStatus status now)) (idle : status ≠ .running)
    (retryCounter : s'.retryCounter = s.retryCounter) (runLocked : s'.runLocked = s.runLocked) :
    RunsStep (fun i => i = r) removed s s' :=
  (of_update runs (fun _ => rfl) (fun _ => rfl)
    (fun _ => decide_eq_false (fun same => idle (Option.some.inj same))) retryCounter runLocked).mono
    (fun _ w => w) (fun _ g => g.elim)

/-- A new record that is not running. -/
theorem of_append {run : Run} (runs : s'.runs = s.runs.append run) (idle : run.isRunning = false)
    (retryCounter : s'.retryCounter = s.retryCounter) (runLocked : s'.runLocked = s.runLocked) :
    RunsStep written removed s s' where
  size := by rw [runs]; exact Nat.le_succ _
  threadId := by
    intro r held
    rw [runs, Table.append_get_old held]
  createdKey := by
    intro r held
    rw [runs, Table.append_get_old held]
  unwritten := by
    intro r held _
    rw [runs, Table.append_get_old held]
  starts := by
    intro r held running
    rwa [runs, Table.append_get_old held] at running
  old := by
    intro r member held
    rw [runs, Table.append_rows, List.mem_append, List.mem_singleton] at member
    exact member.resolve_right (Nat.ne_of_lt held)
  kept := by
    intro r member _
    rw [runs, Table.append_rows]
    exact List.mem_append_left _ member
  new := by
    intro r member absent
    rw [runs, Table.append_rows, List.mem_append, List.mem_singleton] at member
    rcases member with old | rfl
    · exact absurd (s.runs.bounded r old) absent
    · rw [runs, Table.append_get_new]
      exact idle
  retryCounter := retryCounter
  runLocked := runLocked

theorem refl (s : Runtime) : RunsStep written removed s s := of_same rfl rfl rfl

end RunsStep

section Steps

variable {written removed : Nat → Prop}

theorem runsPut_step (s : Runtime) {p : Runs.Put} (reply : Reply) (idle : p.call.status ≠ some .running) :
    RunsStep written removed s (Runs.Put.resume s p reply).1 := by
  have inserted : ∀ {s' : Runtime} {call threadId}, call.status ≠ some .running →
      Runs.Put.Inserted s call threadId reply s'.runs → s'.retryCounter = s.retryCounter →
      s'.runLocked = s.runLocked → RunsStep written removed s s' := by
    intro s' call threadId idle inserted retryCounter runLocked
    generalize runs : s'.runs = t at inserted
    cases inserted with
    | none => exact RunsStep.of_same runs retryCounter runLocked
    | appended => exact RunsStep.of_append runs (decide_eq_false idle) retryCounter runLocked
  have effect := Runs.Put.effect s p reply
  generalize Runs.Put.resume s p reply = out at effect ⊢
  cases effect with
  | unchanged | suspended => exact RunsStep.refl s
  | extended _ runs => exact inserted idle runs rfl rfl
  | created at_point _ runs =>
    subst at_point
    exact inserted idle runs rfl rfl

theorem Completed.runsStep {s s' : Runtime} (completed : Completed s s') : RunsStep written removed s s' := by
  obtain ⟨threads, rfl⟩ := completed.frame
  exact RunsStep.of_same rfl rfl rfl

/-- The record that a deletion of a run is after. -/
def Runs.Delete.Targets (s : Runtime) : Runs.Delete → Nat → Prop
  | .called _ _, _ => False
  | .authorizing runId threadId, r | .deletingCheckpoints runId threadId, r =>
    byIds runId threadId (s.runs.get r) = true

theorem remove_step (s : Runtime) (runId threadId : Uuid) :
    RunsStep written (fun r => Runs.byIds runId threadId (s.runs.get r) = true) s
      (Runs.Delete.remove s runId threadId).1 := by
  unfold Runs.Delete.remove
  cases found : s.runs.findIdx? (Runs.byIds runId threadId) with
  | none => exact RunsStep.refl s
  | some i =>
    obtain ⟨r, stands, passes⟩ := Table.findIdx?_eq_some found
    refine RunsStep.of_rows (t := s.runs.pop i) rfl rfl (fun _ => rfl)
      (fun _ member => List.mem_of_mem_eraseIdx member) ?_ rfl rfl
    intro a member other
    rw [Table.pop_rows, List.mem_eraseIdx_iff_getElem?]
    obtain ⟨j, at_j⟩ := List.mem_iff_getElem?.mp member
    refine ⟨j, ?_, at_j⟩
    rintro rfl
    rw [stands, Option.some.injEq] at at_j
    exact other (at_j ▸ passes)

theorem runsDelete_step (serde : Serde) (s : Runtime) (p : Runs.Delete) (reply : Reply) :
    RunsStep written (p.Targets s) s (Runs.Delete.resume serde s p reply).1 := by
  have checkpoints : ∀ {s' : Runtime} (runId threadId : Uuid),
      RunsStep written (fun r => Runs.byIds runId threadId (s'.runs.get r) = true) s'
        (Runs.Delete.checkpoints serde s' runId threadId).1 := by
    intro s' runId threadId
    unfold Runs.Delete.checkpoints
    split
    · exact RunsStep.refl s'
    · have memory : RunsStep written (fun r => Runs.byIds runId threadId (s'.runs.get r) = true) s'
          { s' with memory := s'.memory.deleteRunCheckpoints serde runId.str threadId.str } :=
        RunsStep.of_same rfl rfl rfl
      exact (memory.trans (remove_step _ runId threadId)).mono (fun _ w => w.elim id id) (fun _ g => g.elim id id)
  cases p with
  | called runId threadId => exact RunsStep.refl s
  | deletingCheckpoints runId threadId =>
    rw [Runs.Delete.resume]
    exact attempt_cases (fun e _ => RunsStep.refl s) (fun _ _ => remove_step s runId threadId)
  | authorizing runId threadId =>
    rw [Runs.Delete.resume]
    refine attempt_cases (fun e _ => RunsStep.refl s) (fun filters _ => ?_)
    split
    · have completed := Threads.getWithFilters_completed s threadId filters
      have read : RunsStep written (fun _ => False) s (Threads.getWithFilters s threadId filters).1 :=
        completed.runsStep
      have runs : (Threads.getWithFilters s threadId filters).1.runs = s.runs := completed.runs
      dsimp only
      refine attempt_cases (fun e _ => read.mono (fun _ w => w) (fun _ g => g.elim)) (fun thread _ => ?_)
      split
      · exact read.mono (fun _ w => w) (fun _ g => g.elim)
      · refine (read.trans (checkpoints runId threadId)).mono (fun _ w => w.elim id id) (fun r g => ?_)
        rw [runs] at g
        exact g.resolve_left id
    · exact checkpoints runId threadId

theorem setStatus_step (s : Runtime) (runId : Uuid) {status : RunStatus} (now : Time) (idle : status ≠ .running) :
    RunsStep (fun r => s.runs.find? (fun run => run.runId = some runId) = some r) removed s
      (Runs.setStatus s runId status now) := by
  unfold Runs.setStatus
  cases found : s.runs.find? (fun run => run.runId = some runId) with
  | none => exact RunsStep.refl s
  | some r =>
    have step : RunsStep (fun i => i = r) removed s
        { s with runs := s.runs.update r (Runs.withStatus status now) } := RunsStep.of_status rfl idle rfl rfl
    refine step.mono (fun i same => ?_) (fun _ g => g)
    rw [same]

/-- The record that `set_joint_status` reports on. -/
def Threads.Joint.Writes (s : Runtime) : Threads.Joint → Nat → Prop
  | .called call, r =>
    call.runStatus ≠ .rollback ∧ s.runs.find? (Runs.byIds call.runId call.threadId) = some r
  | .rollingBack _ _ _ _, _ => False

def Threads.Joint.Removes (s : Runtime) : Threads.Joint → Nat → Prop
  | .called _, _ => False
  | .rollingBack _ _ _ deletion, r => deletion.Targets s r

def Threads.Joint.call : Threads.Joint → Threads.JointCall
  | .called call | .rollingBack call _ _ _ => call

theorem afterDelete_step {s : Runtime} {call : Threads.JointCall} {thread : Nat} {now : Time}
    {turn : Runs.DeleteTurn} (step : RunsStep written removed s turn.1) :
    RunsStep written removed s (Threads.Joint.afterDelete call thread now turn).1 := by
  unfold Threads.Joint.afterDelete
  split
  · exact step
  · exact step
  · rename_i s' _ _ _
    have finished : RunsStep written removed s'
        (Threads.Joint.finish s' call thread now (Threads.hasActiveRuns s' call.threadId)) :=
      RunsStep.of_same rfl rfl rfl
    exact (step.trans finished).mono (fun _ w => w.elim id id) (fun _ g => g.elim id id)

theorem joint_step (serde : Serde) (s : Runtime) {p : Threads.Joint} (reply : Reply)
    (idle : p.call.runStatus ≠ .status .running) :
    RunsStep (p.Writes s) (p.Removes s) s (Threads.Joint.resume serde s p reply).1 := by
  cases p with
  | rollingBack call thread now deletion => exact afterDelete_step (runsDelete_step serde s deletion reply)
  | called call =>
    rw [Threads.Joint.resume]
    cases s.threads.find? (Threads.byId call.threadId) with
    | none => exact RunsStep.refl s
    | some thread =>
      dsimp only
      cases found : s.runs.find? (Runs.byIds call.runId call.threadId) with
      | none => exact RunsStep.refl s
      | some run =>
        dsimp only
        cases target : call.runStatus with
        | rollback =>
          exact afterDelete_step ((runsDelete_step serde s _ reply).mono (fun _ w => w) (fun _ g => g.elim))
        | status status =>
          have other : status ≠ .running := by
            rintro rfl
            exact idle target
          have step : RunsStep (fun i => i = run) (fun _ => False) s
              { s with runs := s.runs.update run (Runs.withStatus status reply.now) } :=
            RunsStep.of_status rfl other rfl rfl
          have finished : RunsStep (fun _ => False) (fun _ => False)
              { s with runs := s.runs.update run (Runs.withStatus status reply.now) }
              (Threads.Joint.finish { s with runs := s.runs.update run (Runs.withStatus status reply.now) } call
                thread reply.now (decide (status = .pending ∨ status = .running ∨ Threads.hasActiveRuns
                  { s with runs := s.runs.update run (Runs.withStatus status reply.now) } call.threadId))) :=
            RunsStep.of_same rfl rfl rfl
          refine (step.trans finished).mono (fun i w => ?_) (fun _ g => g.elim id id)
          rw [w.resolve_right id]
          exact ⟨by rw [target]; simp, found⟩

theorem threadsDelete_step (base : BaseSaver) (s : Runtime) (p : Threads.Delete) (reply : Reply) :
    RunsStep written (fun r => (s.runs.get r).threadId = p.target) s (Threads.Delete.resume base s p reply).1 := by
  have cascaded : ∀ threadId, RunsStep written (fun r => (s.runs.get r).threadId = threadId) s
      (Threads.cascade s threadId) := by
    intro threadId
    refine RunsStep.of_rows (t := s.runs.keep (fun run => run.threadId ≠ threadId)) rfl rfl (fun _ => rfl)
      (fun r member => List.mem_of_mem_filter member) (fun r member other => ?_) rfl rfl
    exact List.mem_filter.mpr ⟨member, by simpa using other⟩
  have popped : ∀ {s' : Runtime} {threadId i} {out : Runtime × Turn Threads.Delete (Except PyError (List Uuid))},
      Threads.Delete.Popped s' threadId i out → RunsStep (fun _ => False) (fun _ => False) s' out.1 := by
    intro s' threadId i out popped
    cases popped with
    | outside => exact RunsStep.refl s'
    | popped => exact RunsStep.of_same rfl rfl rfl
  have effect := Threads.Delete.effect base s p reply
  generalize Threads.Delete.resume base s p reply = out at effect ⊢
  cases effect with
  | located | refused | failed => exact RunsStep.refl s
  | cascaded => exact cascaded _
  | resumed _ pop => exact (popped pop).mono (fun _ w => w.elim) (fun _ g => g.elim)
  | @deleted threadId i matching out builtin authorized pop =>
    have memory : RunsStep written (fun _ => False) (Threads.cascade s threadId)
        { Threads.cascade s threadId with memory := s.memory.deleteThread base threadId.str } :=
      RunsStep.of_same rfl rfl rfl
    refine (((cascaded threadId).trans memory).trans (popped pop)).mono (fun _ w => ?_) (fun _ g => ?_)
    · exact (w.resolve_right id).elim id id
    · exact (g.resolve_right id).resolve_right id

end Steps

/-- The status that `Runs.next` writes. -/
def markRunning (run : Run) : Run := { run with status := some .running }

namespace Runs

theorem Next.handOut_runs (s : Runtime) (holding : Holding) (r : Nat) :
    (Next.handOut s holding r).1.runs = s.runs.update r markRunning := rfl

end Runs

end InmemRuntime
