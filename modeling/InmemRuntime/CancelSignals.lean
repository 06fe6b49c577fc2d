import InmemRuntime.PruneHistory
import InmemRuntime.RunCalls

namespace InmemRuntime

/-- The operations on runs but for `Runs.delete`. -/
def executionCalls (base : BaseSaver) (serde : Serde) : Coroutines RunHistory RunCall Reply RunResult :=
  { runCalls base serde with fresh := fun k => k.isFresh && k.operation ≠ .delete }

/-- `cancel` comes upon no running run, and `next` hands out no run that has been deleted. -/
def SparesRunning (h : RunHistory) (_ : List RunCall) (k : RunCall) (reply : Reply) : Prop :=
  match k with
  | .cancel p =>
    (∀ r ∈ p.marked h.runtime reply, (h.runtime.runs.get r).isRunning = false) ∧
      ∀ r ∈ h.runtime.runs.rows, p.Discards h.runtime r → (h.runtime.runs.get r).isRunning = false
  | .next p _ =>
    ∀ holding, p.held? = some holding → ∀ r ∈ holding.remaining, Runs.Next.Free h.runtime r → r ∈ h.runtime.runs.rows
  | _ => True

/-- The runs whose workers have not reported are in the store and running. -/
def StillRunning (h : RunHistory) : Prop := ∀ r ∈ h.executing, isRunningIn h.runtime r = true

theorem isRunningIn_iff {s : Runtime} {r : Nat} :
    isRunningIn s r = true ↔ r ∈ s.runs.rows ∧ (s.runs.get r).isRunning = true := by
  rw [isRunningIn, Bool.and_eq_true, decide_eq_true_eq]

theorem stillRunning_load (s : Runtime) : StillRunning (.load s) :=
  fun _ member => (List.mem_filter.mp member).2

section Steps

variable {base : BaseSaver} {serde : Serde} {h : RunHistory} {k : RunCall} {reply : Reply} {others : List RunCall}

theorem hands_in_store {p : Runs.Next} {since : Nat} (spares : SparesRunning h others (.next p since) reply)
    {holding : Runs.Holding} {r : Nat} (goesOn : p.goesOn? h.runtime = some holding) (listed : r ∈ holding.remaining)
    (free : Runs.Next.Free h.runtime r) : r ∈ h.runtime.runs.rows := by
  cases p with
  | called | sleeping => cases goesOn
  | warning held | yielding held => exact spares holding goesOn r listed free
  | locking limit now =>
    simp only [Runs.Next.goesOn?, Option.ite_none_left_eq_some, Option.some.injEq] at goesOn
    obtain ⟨_, rfl⟩ := goesOn
    have pending : r ∈ Runs.pendingRuns h.runtime now := List.mem_of_mem_take (List.mem_of_mem_drop listed)
    rw [Runs.pendingRuns, List.mem_mergeSort] at pending
    exact (List.mem_filter.mp pending).1

/-- What is neither written nor removed goes on running. -/
theorem RunsStep.isRunningIn {written removed : Nat → Prop} {s s' : Runtime} (step : RunsStep written removed s s')
    {r : Nat} (running : isRunningIn s r = true) (unwritten : ¬ written r) (kept : ¬ removed r) :
    isRunningIn s' r = true := by
  obtain ⟨listed, running⟩ := isRunningIn_iff.mp running
  have same := step.unwritten r (s.runs.bounded r listed) unwritten
  refine isRunningIn_iff.mpr ⟨step.kept r listed kept, ?_⟩
  rw [Run.isRunning, same]
  exact running

theorem StillRunning.unreported (running : StillRunning h) {s' : Runtime} {written removed : Nat → Prop}
    (step : RunsStep written removed h.runtime s')
    (unwritten : ∀ r, written r → (h.runtime.runs.get r).isRunning = false)
    (kept : ∀ r ∈ h.runtime.runs.rows, removed r → (h.runtime.runs.get r).isRunning = false) :
    StillRunning (h.record s' [] false) := by
  intro r member
  rw [RunHistory.record_executing] at member
  have here := running r member
  obtain ⟨listed, executed⟩ := isRunningIn_iff.mp here
  refine step.isRunningIn here (fun w => ?_) (fun gone => ?_)
  · rw [unwritten r w] at executed
    cases executed
  · rw [kept r listed gone] at executed
    cases executed

theorem StillRunning.reported (s' : Runtime) : StillRunning (h.record s' [] true) := by
  intro r member
  rw [RunHistory.record_executing_report] at member
  exact (List.mem_filter.mp member).2

theorem StillRunning.next (running : StillRunning h) {p : Runs.Next} {since : Nat}
    (spares : SparesRunning h others (.next p since) reply) :
    StillRunning (h.record (Runs.Next.resume h.runtime p reply).1
      (Runs.handedOutBy (Runs.Next.resume h.runtime p reply).2) false) := by
  have hands := Runs.Next.resume_hands h.runtime p reply
  generalize Runs.Next.resume h.runtime p reply = out at hands ⊢
  cases hands with
  | nobody runs _ nobody =>
    intro r member
    rw [nobody, RunHistory.record_executing] at member
    have here := running r member
    rwa [isRunningIn, ← runs] at here
  | @hands holding before after s' r goesOn rest _ free runs _ =>
    intro i member
    have rows : s'.runs.rows = h.runtime.runs.rows := by rw [runs, Table.update_rows]
    refine isRunningIn_iff.mpr ?_
    show i ∈ s'.runs.rows ∧ (s'.runs.get i).isRunning = true
    rw [rows, runs, Table.update_get]
    rcases List.mem_append.mp member with old | new
    · obtain ⟨listed, executed⟩ := isRunningIn_iff.mp (running i old)
      refine ⟨listed, ?_⟩
      split
      · rfl
      · exact executed
    · have same : i = r := List.mem_singleton.mp new
      rw [same, if_pos rfl]
      have remains : r ∈ holding.remaining := rest ▸ List.mem_append_right _ List.mem_cons_self
      exact ⟨hands_in_store spares goesOn remains free, rfl⟩

theorem stillRunning_step (running : StillRunning h) (idle : k.Idle)
    (other : k.operation ≠ .delete) (spares : SparesRunning h others k reply) :
    StillRunning ((runCalls base serde).resume h k reply).1 := by
  cases k with
  | next p since => exact running.next spares
  | runsPut p =>
    have step : RunsStep _ _ h.runtime (RunCall.resume base serde h.runtime reply (.runsPut p)).1 :=
      RunCall.resume_step idle (fun same => by cases same)
    exact running.unreported step (fun _ w => w.elim) (fun _ _ g => g.elim)
  | cancel p =>
    have step : RunsStep _ _ h.runtime (RunCall.resume base serde h.runtime reply (.cancel p)).1 :=
      RunCall.resume_step idle (fun same => by cases same)
    exact running.unreported step spares.1 spares.2
  | runsDelete => exact absurd rfl other
  | setStatus | joint | threadsDelete => exact StillRunning.reported _

/-- Everyone waiting is no deletion by the user, and writes no `running`. -/
def Executes (_ : RunHistory) (k : RunCall) : Prop := k.Idle ∧ k.operation ≠ .delete

theorem stillRunning_of_reaches {s : Runtime} {l : EventLoop RunHistory RunCall}
    (reach : (executionCalls base serde).Reaches SparesRunning ⟨.load s, []⟩ l) : StillRunning l.state := by
  have annotated : Coroutines.Annotated StillRunning Executes l := by
    refine reach.annotated (fun _ fresh => ?_) (fun running executes others spares => ?_)
      ⟨stillRunning_load s, fun k member => absurd member List.not_mem_nil⟩
    · obtain ⟨fresh, other⟩ := Bool.and_eq_true_iff.mp fresh
      exact ⟨RunCall.idle_of_isFresh fresh, of_decide_eq_true other⟩
    · refine ⟨stillRunning_step running executes.1 executes.2 spares, fun p member => ?_, others⟩
      obtain ⟨idle, same⟩ := RunCall.turn_points executes.1 p member
      exact ⟨idle, same ▸ executes.2⟩
  exact annotated.state

/-- Unless `cancel` comes upon a running run, or a deleted run is handed out, a
run whose worker has not reported stays in the store with status `running`, and
no other run of its thread is handed out. -/
theorem cancel_only_signals {s : Runtime} {l : EventLoop RunHistory RunCall}
    (reach : (executionCalls base serde).Reaches SparesRunning ⟨.load s, []⟩ l) :
    (∀ r ∈ l.state.executing, isRunningIn l.state.runtime r = true) ∧
      ∀ p since, .next p since ∈ l.waiting → ∀ reply,
        ∀ item ∈ Runs.handedOutBy (Runs.Next.resume l.state.runtime p reply).2,
          ∀ r ∈ l.state.executing, (l.state.runtime.runs.get r).threadId ≠ item.run.threadId := by
  have running := stillRunning_of_reaches reach
  refine ⟨running, fun p since _ reply item handed r executed same => ?_⟩
  have hands := Runs.Next.resume_hands l.state.runtime p reply
  generalize Runs.Next.resume l.state.runtime p reply = out at hands handed
  cases hands with
  | nobody _ _ nobody =>
    rw [nobody] at handed
    cases handed
  | hands r' _ _ _ free _ _ =>
    rw [List.mem_singleton.mp handed] at same
    obtain ⟨listed, executed⟩ := isRunningIn_iff.mp (running r executed)
    have idle : Runs.hasRunning l.state.runtime (l.state.runtime.runs.get r').threadId = false := free.idle
    rw [Runs.hasRunning, List.any_eq_false] at idle
    refine idle _ (Table.mem_values.mpr ⟨r, listed, rfl⟩) ?_
    rw [Bool.and_eq_true, decide_eq_true_eq]
    exact ⟨same, executed⟩

end Steps

section TwoRuns

def threadRun (n : Nat) (status : RunStatus) : Run :=
  { (default : Run) with runId := some ⟨n⟩, status := some status, createdAt := some n }

/-- A run that is executed, and one that waits behind it. -/
def twoRuns : Runtime :=
  { (default : Runtime) with
    threads := Table.empty.append default
    runs := (Table.empty.append (threadRun 1 .running)).append (threadRun 2 .pending) }

def interruptOf (n : Nat) : Runs.CancelCall := ⟨some [⟨n⟩], .interrupt, some default, none, none⟩

def interrupting (n : Nat) : List (Coroutines.Move RunCall Reply) :=
  [.call (.cancel (.called (interruptOf n))), .turn 0 plainReply, .turn 0 plainReply]

/-- The run that is executed is set to `interrupted` by the call itself. -/
theorem cancel_ends_running :
    ¬ ∀ (base : BaseSaver) (serde : Serde) (s : Runtime) (l : EventLoop RunHistory RunCall),
      (executionCalls base serde).Reaches Coroutines.unrestricted ⟨.load s, []⟩ l →
        (∀ r ∈ l.state.executing, isRunningIn l.state.runtime r = true) ∧
          ∀ p since, .next p since ∈ l.waiting → ∀ reply,
            ∀ item ∈ Runs.handedOutBy (Runs.Next.resume l.state.runtime p reply).2,
              ∀ r ∈ l.state.executing, (l.state.runtime.runs.get r).threadId ≠ item.run.threadId := by
  intro all
  have performed : ((executionCalls plainBase deltaSerde).performAll ⟨.load twoRuns, []⟩
      (interrupting 1)).isSome = true := rfl
  have kept := (all plainBase deltaSerde twoRuns _
    (Coroutines.reaches_of_performAll (Option.some_get performed).symm)).1 0 List.mem_cons_self
  exact Bool.false_ne_true kept

/-- The run that waits is. -/
theorem cancel_only_signals_pending :
    ∃ l : EventLoop RunHistory RunCall, l.state.executing = [0] ∧ (l.state.runtime.runs.get 1).isPending = false ∧
      ∀ r ∈ l.state.executing, isRunningIn l.state.runtime r = true := by
  have begun : (executionCalls plainBase deltaSerde).Reaches SparesRunning ⟨.load twoRuns, []⟩
      ⟨.load twoRuns, [.cancel (.called (interruptOf 2))]⟩ := .call .start rfl
  have asked := begun.turn 0 plainReply rfl
    ⟨fun r member => absurd member List.not_mem_nil, fun _ _ discards => discards.elim⟩
  have cancelled := asked.turn 0 plainReply rfl ⟨fun r member => ?_, fun _ _ discards => discards.elim⟩
  · exact ⟨_, rfl, rfl, (cancel_only_signals cancelled).1⟩
  · have second : r = 1 := List.mem_singleton.mp member
    rw [second]
    decide

end TwoRuns

end InmemRuntime
