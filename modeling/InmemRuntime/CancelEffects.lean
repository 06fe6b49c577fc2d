import InmemRuntime.RunEffects

namespace InmemRuntime

namespace Runs

/-- The candidates that a call is after, once it has its auth filters. -/
def CancelCall.select (call : CancelCall) (filters : PyVal) (s : Runtime) : Runtime × Except PyError (List Nat) :=
  match statusList call.status with
  | .error e => (s, .error e)
  | .ok statuses =>
    authorizedCandidates call filters s (s.runs.rows.filter (fun r => call.isRunMatch statuses (s.runs.get r)))

theorem CancelCall.select_completed (call : CancelCall) (filters : PyVal) (s : Runtime) :
    Completed s (call.select filters s).1 := by
  unfold select
  split
  · exact .same
  · exact authorizedCandidates_completed _ _ _ _

/-- What `cancel` does with its candidates. -/
def Cancel.start (call : CancelCall) (now : Time) (selected : Runtime × Except PyError (List Nat)) : CancelTurn :=
  attempt selected.1 selected.2 (fun candidates =>
    if candidates = [] then
      if call.assistantId.isSome then returned selected.1 ()
      else raised selected.1 (.http 404 "No runs found to cancel.")
    else Cancel.loop call now selected.1 candidates [] [])

theorem Cancel.resume_authorizing (serde : Serde) (s : Runtime) (call : CancelCall) (reply : Reply) :
    Cancel.resume serde s (.authorizing call) reply =
      attempt s reply.answer (fun filters => Cancel.start call reply.now (call.select filters s)) := by
  rw [resume]
  cases reply.answer with
  | error e => rfl
  | ok filters =>
    dsimp only [attempt_ok]
    unfold start CancelCall.select
    cases statusList call.status <;> rfl

/-- The loop sets the run to `interrupted`; otherwise it logs and waits. -/
def marksInPlace (call : CancelCall) (s : Runtime) (r : Nat) : Bool :=
  (s.runs.get r).isActive && ((signal call s r).2.2 ≠ [] || call.action ≠ .rollback)

/-- The candidates that the loop sets to `interrupted` before it waits. -/
def Cancel.marks (call : CancelCall) (now : Time) : Runtime → List Nat → List Nat
  | _, [] => []
  | s, r :: rest =>
    if marksInPlace call s r then r :: Cancel.marks call now (markInterrupted (signal call s r).1 r now) rest else []

/-- Those that a turn sets to `interrupted`. -/
def Cancel.marked (s : Runtime) (reply : Reply) : Cancel → List Nat
  | .authorizing call =>
    match reply.answer with
    | .error _ => []
    | .ok filters =>
      match call.select filters s with
      | (_, .error _) => []
      | (s', .ok candidates) => Cancel.marks call reply.now s' candidates
  | .deferred call _ rest _ _ =>
    match reply.answer with
    | .error _ => []
    | .ok _ => Cancel.marks call reply.now s rest
  | _ => []

/-- The runs that a deletion among the tasks is after. -/
def Cancel.Discards (s : Runtime) : Cancel → Nat → Prop
  | .deleting deletion, r => deletion.Targets s r
  | _, _ => False

theorem marksInPlace_eq (call : CancelCall) (s : Runtime) (r : Nat) : marksInPlace call s r = true ↔
    ((signal call s r).1.runs.get r).isActive = true ∧ ((signal call s r).2.2 ≠ [] ∨ call.action ≠ .rollback) := by
  have same : (signal call s r).1.runs = s.runs := rfl
  rw [marksInPlace, Bool.and_eq_true, Bool.or_eq_true, decide_eq_true_eq, decide_eq_true_eq, same]

section Steps

variable {written removed : Nat → Prop}

theorem markInterrupted_step (s : Runtime) (r : Nat) (now : Time) :
    RunsStep (fun i => i = r) removed s (markInterrupted s r now) := by
  unfold markInterrupted interruptRun idleThreadOf
  split
  · split
    · exact .of_status rfl (by decide) rfl rfl
    · exact .of_status rfl (by decide) rfl rfl
  · exact .of_status rfl (by decide) rfl rfl

theorem Cancel.afterLoop_same (call : CancelCall) (s : Runtime) (tasks : List Cancel) (cancelable : List Nat) :
    (Cancel.afterLoop call s tasks cancelable).1 = s := by
  unfold afterLoop
  split
  · split <;> rfl
  · split <;> rfl

theorem Cancel.loop_step (call : CancelCall) (now : Time) (s : Runtime) (rest : List Nat) (tasks : List Cancel)
    (cancelable : List Nat) :
    RunsStep (· ∈ Cancel.marks call now s rest) removed s (Cancel.loop call now s rest tasks cancelable).1 := by
  induction rest generalizing s tasks cancelable with
  | nil =>
    rw [loop, afterLoop_same]
    exact .refl s
  | cons r rest ih =>
    have signalled : RunsStep (fun _ => False) (fun _ => False) s (signal call s r).1 := .of_same rfl rfl rfl
    unfold loop marks
    dsimp only
    by_cases here : marksInPlace call s r = true
    · obtain ⟨active, marks⟩ := (marksInPlace_eq call s r).mp here
      rw [if_pos active, if_pos marks, if_pos here]
      have marked : RunsStep (fun i => i = r) (fun _ => False) s (markInterrupted (signal call s r).1 r now) :=
        (signalled.trans (markInterrupted_step _ r now)).mono (fun _ w => w.resolve_left id) (fun _ g => g.elim id id)
      refine (marked.trans (ih _ _ _)).mono (fun i w => ?_) (fun i g => g.resolve_left id)
      exact w.elim (fun same => same ▸ List.mem_cons_self) (List.mem_cons_of_mem r)
    · rw [if_neg here]
      have waits : RunsStep (· ∈ ([] : List Nat)) removed s (signal call s r).1 := .of_same rfl rfl rfl
      split
      · rename_i active
        rw [if_neg (fun marks => here ((marksInPlace_eq call s r).mpr ⟨active, marks⟩))]
        exact waits
      · exact waits

/-- A turn of `cancel` or of one of its tasks. -/
theorem cancel_step (serde : Serde) (s : Runtime) (p : Cancel) (reply : Reply) :
    RunsStep (· ∈ p.marked s reply) (p.Discards s) s (Cancel.resume serde s p reply).1 := by
  cases p with
  | called call =>
    rw [Cancel.resume]
    exact attempt_cases (fun _ _ => .refl s) (fun _ _ => .refl s)
  | authorizing call =>
    rw [Cancel.resume_authorizing]
    unfold Cancel.marked
    cases reply.answer with
    | error e => exact .refl s
    | ok filters =>
      have read := call.select_completed filters s
      dsimp only [attempt_ok]
      unfold Cancel.start
      cases selected : call.select filters s with
      | mk s' outcome =>
        rw [selected] at read
        cases outcome with
        | error e => exact read.runsStep
        | ok candidates =>
          dsimp only [attempt_ok]
          split
          · split <;> exact read.runsStep
          · have reads : RunsStep (fun _ => False) (fun _ => False) s s' := read.runsStep
            exact (reads.trans (Cancel.loop_step _ _ _ _ _ _)).mono
              (fun _ w => w.resolve_left id) (fun _ g => g.resolve_left id)
  | deferred call eager rest tasks cancelable =>
    rw [Cancel.resume]
    unfold Cancel.marked
    cases reply.answer with
    | error e => exact .refl s
    | ok value => exact Cancel.loop_step _ _ _ _ _ _
  | gathering | reporting =>
    rw [Cancel.resume]
    exact attempt_cases (fun _ _ => .refl s) (fun _ _ => .refl s)
  | putting => exact .of_same rfl rfl rfl
  | deleting deletion => exact runsDelete_step serde s deletion reply

end Steps

end Runs

end InmemRuntime
