import InmemRuntime.CancelEffects
import InmemRuntime.Lib.EventLoop
import InmemRuntime.NextTurns

namespace InmemRuntime

/-- The operations on runs. `since` is the number of status changes before the
snapshot of `pending_runs`. -/
inductive RunCall where
  | next (p : Runs.Next) (since : Nat)
  | runsPut (p : Runs.Put)
  | cancel (p : Runs.Cancel)
  | runsDelete (p : Runs.Delete)
  | setStatus (runId : Uuid) (status : RunStatus)
  | joint (p : Threads.Joint)
  | threadsDelete (p : Threads.Delete)

inductive RunOperation where
  | next
  | put
  | cancel
  | delete
  | setStatus
  | setJointStatus
  | deleteThread
deriving DecidableEq

abbrev RunResult := Except PyError (List Runs.HandOut)

/-- The store, and the history of its runs: those that were handed out, in
order, the records whose status changed, in order, and those that a worker
executes and has not reported on. -/
structure RunHistory where
  runtime : Runtime
  handedOut : List Runs.HandOut
  changed : List Nat
  executing : List Nat

/-- The records that get another status. -/
def statusChanges (s s' : Runtime) : List Nat :=
  (List.range s.runs.size).filter (fun r => (s'.runs.get r).status ≠ (s.runs.get r).status)

def isRunningIn (s : Runtime) (r : Nat) : Bool := r ∈ s.runs.rows && (s.runs.get r).isRunning

namespace RunHistory

/-- All running runs are being executed. -/
def load (s : Runtime) : RunHistory := ⟨s, [], [], s.runs.rows.filter (isRunningIn s)⟩

/-- The history after a turn. A worker's report, or the end of a thread, ends
the execution of the runs that are no longer running. -/
def record (h : RunHistory) (s : Runtime) (items : List Runs.HandOut) (reports : Bool) : RunHistory where
  runtime := s
  handedOut := h.handedOut ++ items
  changed := h.changed ++ statusChanges h.runtime s
  executing := (if reports then h.executing.filter (isRunningIn s) else h.executing) ++ items.map Runs.HandOut.ref

@[simp] theorem record_executing (h : RunHistory) (s : Runtime) : (h.record s [] false).executing = h.executing :=
  List.append_nil _

@[simp] theorem record_executing_report (h : RunHistory) (s : Runtime) :
    (h.record s [] true).executing = h.executing.filter (isRunningIn s) := List.append_nil _

/-- When the snapshot of a call was taken that is there after a turn from `p`. -/
def since (h : RunHistory) (p : Runs.Next) (before : Nat) : Nat := if p.held?.isSome then before else h.changed.length

end RunHistory

namespace RunCall

/-- `set_status`, `set_joint_status` and `Threads.delete`. -/
def reports : RunCall → Bool
  | .setStatus _ _ | .joint _ | .threadsDelete _ => true
  | _ => false

def operation : RunCall → RunOperation
  | .next _ _ => .next
  | .runsPut _ => .put
  | .cancel _ => .cancel
  | .runsDelete _ => .delete
  | .setStatus _ _ => .setStatus
  | .joint _ => .setJointStatus
  | .threadsDelete _ => .deleteThread

/-- A call that nobody has started. Only `Runs.next` writes `running`. -/
def isFresh : RunCall → Bool
  | .next (.called _) _ | .cancel (.called _) | .runsDelete (.called _ _) | .threadsDelete (.called _) => true
  | .runsPut (.called call) => call.status ≠ some .running
  | .setStatus _ status => status ≠ .running
  | .joint (.called call) => call.runStatus ≠ .status .running
  | _ => false

/-- A turn of a call. -/
def resume (base : BaseSaver) (serde : Serde) (s : Runtime) (reply : Reply) :
    RunCall → Runtime × Turn RunCall RunResult
  | .next p since => ((Runs.Next.resume s p reply).1, (Runs.Next.resume s p reply).2.map (.next · since) id)
  | .runsPut p =>
    ((Runs.Put.resume s p reply).1, (Runs.Put.resume s p reply).2.map .runsPut (fun o => o.map (fun _ => [])))
  | .cancel p =>
    ((Runs.Cancel.resume serde s p reply).1,
      (Runs.Cancel.resume serde s p reply).2.map .cancel (fun o => o.map (fun _ => [])))
  | .runsDelete p =>
    ((Runs.Delete.resume serde s p reply).1,
      (Runs.Delete.resume serde s p reply).2.map .runsDelete (fun o => o.map (fun _ => [])))
  | .setStatus runId status => (Runs.setStatus s runId status reply.now, .finished (.ok []))
  | .joint p =>
    ((Threads.Joint.resume serde s p reply).1,
      (Threads.Joint.resume serde s p reply).2.map .joint (fun o => o.map (fun _ => [])))
  | .threadsDelete p =>
    ((Threads.Delete.resume base s p reply).1,
      (Threads.Delete.resume base s p reply).2.map .threadsDelete (fun o => o.map (fun _ => [])))

/-- What the generator gives out in a turn. -/
def handsOut (s : Runtime) (reply : Reply) : RunCall → List Runs.HandOut
  | .next p _ => Runs.handedOutBy (Runs.Next.resume s p reply).2
  | _ => []

def stamp (h : RunHistory) : RunCall → RunCall
  | .next p since => .next p (h.since p since)
  | k => k

end RunCall

/-- The operations on runs, in any interleaving. -/
def runCalls (base : BaseSaver) (serde : Serde) : Coroutines RunHistory RunCall Reply RunResult where
  fresh := RunCall.isFresh
  resume h k reply :=
    (h.record ((k.stamp h).resume base serde h.runtime reply).1 (k.handsOut h.runtime reply) k.reports,
      ((k.stamp h).resume base serde h.runtime reply).2)

namespace RunCall

/-- The status that a call writes is not `running`. -/
def Idle : RunCall → Prop
  | .runsPut p => p.call.status ≠ some .running
  | .setStatus _ status => status ≠ .running
  | .joint p => p.call.runStatus ≠ .status .running
  | _ => True

/-- The records that get another status in a turn. -/
def Writes (s : Runtime) (reply : Reply) : RunCall → Nat → Prop
  | .cancel p, r => r ∈ p.marked s reply
  | .setStatus runId _, r => s.runs.find? (fun run => run.runId = some runId) = some r
  | .joint p, r => p.Writes s r
  | _, _ => False

/-- The records that leave the list in a turn. -/
def Removes (s : Runtime) : RunCall → Nat → Prop
  | .cancel p, r => p.Discards s r
  | .runsDelete p, r => p.Targets s r
  | .joint p, r => p.Removes s r
  | .threadsDelete p, r => (s.runs.get r).threadId = p.target
  | _, _ => False

theorem idle_of_isFresh {k : RunCall} (fresh : k.isFresh = true) : k.Idle := by
  cases k with
  | runsPut p =>
    cases p with
    | called call =>
      have idle : call.status ≠ some .running := by simpa [isFresh] using fresh
      exact idle
    | _ => cases fresh
  | setStatus runId status =>
    have idle : status ≠ .running := by simpa [isFresh] using fresh
    exact idle
  | joint p =>
    cases p with
    | called call =>
      have idle : call.runStatus ≠ .status .running := by simpa [isFresh] using fresh
      exact idle
    | _ => cases fresh
  | _ => trivial

end RunCall

theorem Runs.Put.place_call (s : Runtime) (call : PutCall) (assistant : Assistant) (existing : Option Nat)
    (filters : PyVal) (reply : Reply) :
    ∀ q ∈ (Put.place s call assistant existing filters reply).2.points, q.call = call := by
  intro q member
  unfold place at member
  cases existing with
  | none =>
    dsimp only at member
    split at member
    · rw [List.mem_singleton.mp member]
      rfl
    · cases member
  | some r =>
    dsimp only at member
    cases verdict : filtersAllow (s.threads.get r).metadata filters with
    | error e =>
      rw [verdict] at member
      cases member
    | ok allowed =>
      rw [verdict, attempt_ok] at member
      split at member
      · cases member
      · obtain ⟨runs, outcome, _, final⟩ := Put.inserted
          { s with threads := s.threads.update r (markBusy call assistant reply.now) } call assistant (some r)
          (s.threads.get r).threadId reply
        rw [final] at member
        cases member

theorem Runs.Put.resume_call (s : Runtime) (p : Put) (reply : Reply) :
    ∀ q ∈ (Put.resume s p reply).2.points, q.call = p.call := by
  have nothing {q : Put} : q ∈ ([] : List Put) → q.call = p.call := fun member => absurd member List.not_mem_nil
  cases p with
  | called call =>
    rw [resume]
    cases assistantById s call.assistantId with
    | none => exact fun q => nothing
    | some assistant => exact fun q member => List.mem_singleton.mp member ▸ rfl
  | authorizing call assistant =>
    rw [resume]
    refine attempt_cases (fun _ _ q => nothing) (fun filters _ => ?_)
    split
    · exact place_call _ _ _ _ _ _
    · exact fun q member => List.mem_singleton.mp member ▸ rfl
  | authorizingAssistant call assistant existing filters =>
    rw [resume]
    refine attempt_cases (fun _ _ q => nothing) (fun assistantFilters _ => ?_)
    refine attempt_cases (fun _ _ q => nothing) (fun allowed _ => ?_)
    split
    · exact fun q => nothing
    · exact place_call _ _ _ _ _ _
  | creatingThread call assistant thread =>
    rw [resume]
    refine attempt_cases (fun _ _ q => nothing) (fun _ _ => ?_)
    obtain ⟨runs, outcome, _, final⟩ := inserted { s with threads := s.threads.append thread } call assistant none
      thread.threadId reply
    rw [final]
    exact fun q => nothing

theorem Threads.Joint.resume_call (serde : Serde) (s : Runtime) (p : Joint) (reply : Reply) :
    ∀ q ∈ (Joint.resume serde s p reply).2.points, q.call = p.call := by
  have nothing {q : Joint} : q ∈ ([] : List Joint) → q.call = p.call := fun member => absurd member List.not_mem_nil
  have after {call : JointCall} (thread : Nat) (now : Time) (turn : Runs.DeleteTurn) :
      ∀ q ∈ (Joint.afterDelete call thread now turn).2.points, q.call = call := by
    unfold afterDelete
    split
    · exact fun q member => List.mem_singleton.mp member ▸ rfl
    · exact fun q member => absurd member List.not_mem_nil
    · exact fun q member => absurd member List.not_mem_nil
  cases p with
  | rollingBack call thread now deletion => exact after _ _ _
  | called call =>
    rw [resume]
    cases s.threads.find? (byId call.threadId) with
    | none => exact fun q => nothing
    | some thread =>
      dsimp only
      cases s.runs.find? (Runs.byIds call.runId call.threadId) with
      | none => exact fun q => nothing
      | some run =>
        dsimp only
        cases call.runStatus with
        | rollback => exact after _ _ _
        | status => exact fun q => nothing

namespace RunCall

variable {base : BaseSaver} {serde : Serde} {s : Runtime} {reply : Reply} {k : RunCall}

theorem mem_points_map {κ ρ : Type} {turn : Turn κ ρ} {f : κ → RunCall} {g : ρ → RunResult} {j : RunCall} :
    j ∈ (turn.map f g).points ↔ ∃ q ∈ turn.points, f q = j := by
  rw [Turn.points_map, List.mem_map]

/-- A call goes on as what it is, and does not come to write `running`. -/
theorem resume_points (idle : k.Idle) :
    ∀ j ∈ (k.resume base serde s reply).2.points, j.Idle ∧ j.operation = k.operation := by
  intro j member
  cases k with
  | setStatus => exact absurd member List.not_mem_nil
  | runsPut p =>
    obtain ⟨q, left, rfl⟩ := mem_points_map.mp member
    refine ⟨?_, rfl⟩
    show q.call.status ≠ some .running
    rw [Runs.Put.resume_call s p reply q left]
    exact idle
  | joint p =>
    obtain ⟨q, left, rfl⟩ := mem_points_map.mp member
    refine ⟨?_, rfl⟩
    show q.call.runStatus ≠ .status .running
    rw [Threads.Joint.resume_call serde s p reply q left]
    exact idle
  | next | cancel | runsDelete | threadsDelete =>
    obtain ⟨q, left, rfl⟩ := mem_points_map.mp member
    exact ⟨trivial, rfl⟩

/-- No operation but `Runs.next` starts a run. -/
theorem resume_step (idle : k.Idle) (other : k.operation ≠ .next) :
    RunsStep (k.Writes s reply) (k.Removes s) s (k.resume base serde s reply).1 := by
  cases k with
  | next => exact absurd rfl other
  | runsPut p => exact runsPut_step s reply idle
  | cancel p => exact Runs.cancel_step serde s p reply
  | runsDelete p => exact runsDelete_step serde s p reply
  | setStatus runId status => exact setStatus_step s runId reply.now idle
  | joint p => exact joint_step serde s reply idle
  | threadsDelete p => exact threadsDelete_step base s p reply

theorem turn_points {h : RunHistory} (idle : k.Idle) :
    ∀ j ∈ ((runCalls base serde).resume h k reply).2.points, j.Idle ∧ j.operation = k.operation := by
  have stamped : (k.stamp h).Idle ∧ (k.stamp h).operation = k.operation := by
    cases k with
    | next => exact ⟨trivial, rfl⟩
    | _ => exact ⟨idle, rfl⟩
  intro j member
  obtain ⟨idle', same⟩ := resume_points stamped.1 j member
  exact ⟨idle', same.trans stamped.2⟩

end RunCall

end InmemRuntime
