import InmemRuntime.ThreadReads

namespace InmemRuntime

namespace Assistants

/-- Where a call of `Assistants.delete` waits: at its handler, inside the
deletion of a thread, at the log call after a thread that could not be deleted,
inside `Runs.cancel`. The last are the tasks that `Runs.cancel` gathers. -/
inductive Delete where
  | called (assistantId : Uuid) (deleteThreads : Bool)
  | authorizing (assistantId : Uuid) (deleteThreads : Bool)
  | deletingThread (assistantId : Uuid) (deletion : Threads.Delete) (rest : List Uuid)
  | skipping (assistantId : Uuid) (rest : List Uuid)
  | cancelling (assistantId : Uuid) (cancel : Runs.Cancel)
  | task (cancel : Runs.Cancel)

abbrev DeleteTurn := Runtime × Turn Delete (Except PyError (List Uuid))

def assistantNotFound (assistantId : Uuid) : PyError := .http 404 s!"Assistant with ID {assistantId.str} not found"

/-- `threads_to_delete` -/
def threadsToDelete (s : Runtime) (assistantId : Uuid) : List Uuid :=
  (s.threads.values.filter (fun thread =>
    ((thread.metadata.get? "assistant_id").getD .none).pyEq (.str assistantId.str))).map Thread.threadId

/-- `Runs.cancel(assistant_id=…, action="interrupt")` -/
def cancelCall (assistantId : Uuid) : Runs.CancelCall :=
  ⟨none, .interrupt, none, none, some assistantId⟩

/-- The call of `Threads.delete`, up to its handler. -/
def startDeletion (s : Runtime) (threadId : Uuid) : Threads.Delete :=
  .authorizing threadId (s.threads.locate? (Threads.byId threadId))

/-- The loop over the threads, and the call of `Runs.cancel` after it. -/
def Delete.proceed (s : Runtime) (assistantId : Uuid) : List Uuid → DeleteTurn
  | [] => (s, .suspended (.cancelling assistantId (.authorizing (cancelCall assistantId))))
  | threadId :: rest => (s, .suspended (.deletingThread assistantId (startDeletion s threadId) rest))

/-- What follows a turn of `Threads.delete`. An `HTTPException` is logged. -/
def Delete.ofThread (assistantId : Uuid) (rest : List Uuid)
    (out : Runtime × Turn Threads.Delete (Except PyError (List Uuid))) : DeleteTurn :=
  match out.2 with
  | .suspended p | .yielded _ p | .forked _ p => (out.1, .suspended (.deletingThread assistantId p rest))
  | .finished (.ok _) => Delete.proceed out.1 assistantId rest
  | .finished (.error (.http _ _)) => (out.1, .suspended (.skipping assistantId rest))
  | .finished (.error e) => raised out.1 e

/-- The assistant and its crons go. -/
def removeAssistant (s : Runtime) (assistantId : Uuid) : Runtime :=
  { s with
    assistants := s.assistants.filter (fun assistant => assistant.assistantId ≠ assistantId)
    crons := s.crons.filter (fun cron => cron.assistantId ≠ assistantId) }

/-- What follows a turn of `Runs.cancel`. -/
def Delete.ofCancel (assistantId : Uuid) (out : Runs.CancelTurn) : DeleteTurn :=
  match out.2 with
  | .suspended p | .yielded _ p => (out.1, .suspended (.cancelling assistantId p))
  | .forked tasks p => (out.1, .forked (tasks.map .task) (.cancelling assistantId p))
  | .finished (.ok _) => returned (removeAssistant out.1 assistantId) [assistantId]
  | .finished (.error e) => raised out.1 e

/-- `Assistants.delete` -/
def Delete.resume (base : BaseSaver) (serde : Serde) (s : Runtime) : Delete → Reply → DeleteTurn
  | .called assistantId deleteThreads, _ => (s, .suspended (.authorizing assistantId deleteThreads))
  | .authorizing assistantId deleteThreads, reply =>
    attempt s reply.answer (fun filters =>
      match s.assistants.find? (fun assistant => assistant.assistantId = assistantId) with
      | none => raised s (assistantNotFound assistantId)
      | some assistant =>
        attempt s (filtersAllow assistant.metadata filters) (fun allowed =>
          if allowed = false then raised s (assistantNotFound assistantId)
          else Delete.proceed s assistantId (if deleteThreads then threadsToDelete s assistantId else [])))
  | .deletingThread assistantId deletion rest, reply =>
    Delete.ofThread assistantId rest (Threads.Delete.resume base s deletion reply)
  | .skipping assistantId rest, reply => attempt s reply.answer (fun _ => Delete.proceed s assistantId rest)
  | .cancelling assistantId cancel, reply => Delete.ofCancel assistantId (Runs.Cancel.resume serde s cancel reply)
  | .task cancel, reply =>
    let (s, turn) := Runs.Cancel.resume serde s cancel reply
    (s, turn.map .task (fun outcome => outcome.map (fun _ => [])))

end Assistants

namespace Runs

variable {serde : Serde} {s : Runtime}

theorem Delete.remove_crons (s : Runtime) (runId threadId : Uuid) :
    (Delete.remove s runId threadId).1.crons = s.crons := by
  unfold remove
  split <;> rfl

theorem Delete.checkpoints_crons (s : Runtime) (runId threadId : Uuid) :
    (Delete.checkpoints serde s runId threadId).1.crons = s.crons := by
  unfold checkpoints
  split
  · rfl
  · exact remove_crons _ _ _

theorem Delete.resume_crons (s : Runtime) (p : Delete) (reply : Reply) :
    (Delete.resume serde s p reply).1.crons = s.crons := by
  cases p with
  | called => rfl
  | authorizing runId threadId =>
    rw [resume]
    refine attempt_cases (fun _ _ => rfl) (fun filters _ => ?_)
    split
    · have frame := (Threads.getWithFilters_completed s threadId filters).crons
      dsimp only
      refine attempt_cases (fun _ _ => frame) (fun found _ => ?_)
      split
      · exact frame
      · exact (checkpoints_crons _ _ _).trans frame
    · exact checkpoints_crons _ _ _
  | deletingCheckpoints runId threadId =>
    rw [resume]
    exact attempt_cases (fun _ _ => rfl) (fun _ _ => remove_crons _ _ _)

theorem markInterrupted_crons (s : Runtime) (r : Nat) (now : Time) : (markInterrupted s r now).crons = s.crons := by
  unfold markInterrupted interruptRun idleThreadOf
  split
  · split <;> rfl
  · rfl

theorem Cancel.loop_crons (call : CancelCall) (now : Time) (s : Runtime) (candidates : List Nat) (tasks : List Cancel)
    (cancelable : List Nat) : (Cancel.loop call now s candidates tasks cancelable).1.crons = s.crons := by
  induction candidates generalizing s tasks cancelable with
  | nil =>
    unfold Cancel.loop Cancel.afterLoop
    split
    · split <;> rfl
    · split <;> rfl
  | cons r rest ih =>
    unfold Cancel.loop
    dsimp only
    split
    · split
      · exact (ih _ _ _).trans (markInterrupted_crons _ _ _)
      · rfl
    · rfl

/-- `Runs.cancel` has nothing to do with crons. -/
theorem Cancel.resume_crons (s : Runtime) (p : Cancel) (reply : Reply) :
    (Cancel.resume serde s p reply).1.crons = s.crons := by
  cases p with
  | called call =>
    rw [resume]
    exact attempt_cases (fun _ _ => rfl) (fun _ _ => rfl)
  | authorizing call =>
    rw [resume]
    refine attempt_cases (fun _ _ => rfl) (fun filters _ => ?_)
    refine attempt_cases (fun _ _ => rfl) (fun statuses _ => ?_)
    have frame := (authorizedCandidates_completed call filters s
      (s.runs.rows.filter (fun r => call.isRunMatch statuses (s.runs.get r)))).crons
    dsimp only
    refine attempt_cases (fun _ _ => frame) (fun candidates _ => ?_)
    split
    · split <;> exact frame
    · exact (loop_crons _ _ _ _ _ _).trans frame
  | deferred =>
    rw [resume]
    exact attempt_cases (fun _ _ => rfl) (fun _ _ => loop_crons _ _ _ _ _ _)
  | gathering | reporting =>
    rw [resume]
    exact attempt_cases (fun _ _ => rfl) (fun _ _ => rfl)
  | putting => rfl
  | deleting deletion =>
    rw [resume]
    exact Delete.resume_crons s deletion reply

end Runs

end InmemRuntime
