import InmemRuntime.CancelEffects
import InmemRuntime.NextTurns
import Mathlib.Data.List.Find

namespace InmemRuntime

/-- The thread is the first one of its id. -/
def IsFirst (s : Runtime) (t : Nat) : Prop := s.threads.find? (Threads.byId (s.threads.get t).threadId) = some t

/-- Every run is on a thread of the store, a thread with a pending or running run is
busy, and so is one that is not the first of its id. -/
structure ThreadsBusy (s : Runtime) : Prop where
  spare : ∀ t ∈ s.threads.rows, IsFirst s t ∨ (s.threads.get t).status = .busy
  housed : ∀ r ∈ s.runs.rows, ∃ t ∈ s.threads.rows, (s.threads.get t).threadId = (s.runs.get r).threadId
  busy : ∀ r ∈ s.runs.rows, (s.runs.get r).isActive = true → ∀ t ∈ s.threads.rows,
    (s.threads.get t).threadId = (s.runs.get r).threadId → (s.threads.get t).status = .busy

/-- No run of the thread is pending or running. -/
def NoActiveRuns (s : Runtime) (threadId : Uuid) : Prop :=
  ∀ r ∈ s.runs.rows, (s.runs.get r).threadId = threadId → (s.runs.get r).isActive = false

/-- A step on the threads and runs that there are: a thread is busy afterwards, or
is the first of its id and has no active runs, or its status is as it was and none of
its runs has become active. -/
structure KeepsBusy (s s' : Runtime) : Prop where
  rows : s'.threads.rows = s.threads.rows
  ids : ∀ t ∈ s.threads.rows, (s'.threads.get t).threadId = (s.threads.get t).threadId
  runs : ∀ r ∈ s'.runs.rows, r ∈ s.runs.rows ∧ (s'.runs.get r).threadId = (s.runs.get r).threadId
  statuses : ∀ t ∈ s.threads.rows, (s'.threads.get t).status = .busy ∨
    (IsFirst s t ∧ NoActiveRuns s' (s.threads.get t).threadId) ∨
    ((s'.threads.get t).status = (s.threads.get t).status ∧
      ∀ r ∈ s'.runs.rows, (s.runs.get r).threadId = (s.threads.get t).threadId → (s'.runs.get r).isActive = true →
        (s.runs.get r).isActive = true)

section Keeps

variable {s s' : Runtime}

theorem isFirst_of_find? {t : Nat} {threadId : Uuid} (found : s.threads.find? (Threads.byId threadId) = some t) :
    IsFirst s t ∧ (s.threads.get t).threadId = threadId := by
  have own : (s.threads.get t).threadId = threadId := by simpa [Threads.byId] using Table.find?_passes found
  exact ⟨by rw [IsFirst, own, found], own⟩

theorem IsFirst.listed {t : Nat} (first : IsFirst s t) : t ∈ s.threads.rows := Table.find?_mem first

theorem IsFirst.unique {t t' : Nat} (first : IsFirst s t) (first' : IsFirst s t')
    (same : (s.threads.get t').threadId = (s.threads.get t).threadId) : t' = t := by
  rw [IsFirst, same] at first'
  exact Option.some.inj (first'.symm.trans first)

theorem isFirst_congr (rows : s'.threads.rows = s.threads.rows)
    (ids : ∀ t ∈ s.threads.rows, (s'.threads.get t).threadId = (s.threads.get t).threadId) {t : Nat}
    (listed : t ∈ s.threads.rows) : IsFirst s' t ↔ IsFirst s t := by
  have agree : ∀ i ∈ s.threads.rows, Threads.byId (s.threads.get t).threadId (s'.threads.get i) =
      Threads.byId (s.threads.get t).threadId (s.threads.get i) := by
    intro i member
    rw [Threads.byId, Threads.byId, ids i member]
  rw [IsFirst, IsFirst, Table.find?, Table.find?, rows, ids t listed, List.find?_congr agree]

theorem KeepsBusy.isFirst (keeps : KeepsBusy s s') {t : Nat} (listed : t ∈ s.threads.rows) : IsFirst s' t ↔ IsFirst s t :=
  isFirst_congr keeps.rows keeps.ids listed

theorem KeepsBusy.busy (keeps : KeepsBusy s s') (before : ThreadsBusy s) : ThreadsBusy s' where
  spare t member := by
    rw [keeps.rows] at member
    rw [keeps.isFirst member]
    rcases keeps.statuses t member with busy | ⟨first, _⟩ | ⟨same, _⟩
    · exact Or.inr busy
    · exact Or.inl first
    · exact same ▸ before.spare t member
  housed r member := by
    obtain ⟨listed, thread⟩ := keeps.runs r member
    obtain ⟨t, here, own⟩ := before.housed r listed
    exact ⟨t, keeps.rows ▸ here, by rw [keeps.ids t here, own, thread]⟩
  busy r member active t here own := by
    rw [keeps.rows] at here
    obtain ⟨listed, thread⟩ := keeps.runs r member
    rw [keeps.ids t here] at own
    rcases keeps.statuses t here with busy | ⟨_, inactive⟩ | ⟨same, none⟩
    · exact busy
    · rw [inactive r member own.symm] at active
      cases active
    · rw [same]
      rw [thread] at own
      exact before.busy r listed (none r member own.symm active) t here own

/-- Reads and deletions: the threads keep their status, and runs at most go. -/
theorem KeepsBusy.of_fewer (rows : s'.threads.rows = s.threads.rows)
    (ids : ∀ t, (s'.threads.get t).threadId = (s.threads.get t).threadId)
    (statuses : ∀ t, (s'.threads.get t).status = (s.threads.get t).status)
    (fewer : ∀ r ∈ s'.runs.rows, r ∈ s.runs.rows) (get : ∀ r, s'.runs.get r = s.runs.get r) : KeepsBusy s s' where
  rows := rows
  ids t _ := ids t
  runs r member := ⟨fewer r member, by rw [get]⟩
  statuses t _ := Or.inr (Or.inr ⟨statuses t, fun r _ _ active => get r ▸ active⟩)

theorem KeepsBusy.refl (s : Runtime) : KeepsBusy s s :=
  .of_fewer rfl (fun _ => rfl) (fun _ => rfl) (fun _ member => member) (fun _ => rfl)

theorem Completed.keepsBusy (completed : Completed s s') : KeepsBusy s s' := by
  have ids := completed.threads (f := Thread.threadId) (fun _ => rfl)
  have statuses := completed.threads (f := Thread.status) (fun _ => rfl)
  refine .of_fewer ids.1 ids.2 statuses.2 (fun r member => ?_) (fun r => ?_)
  · rwa [completed.runs] at member
  · rw [completed.runs]

theorem KeepsBusy.trans {s'' : Runtime} (first : KeepsBusy s s') (second : KeepsBusy s' s'') : KeepsBusy s s'' where
  rows := second.rows.trans first.rows
  ids t member := (second.ids t (first.rows ▸ member)).trans (first.ids t member)
  runs r member := by
    obtain ⟨listed, thread⟩ := second.runs r member
    obtain ⟨listed', thread'⟩ := first.runs r listed
    exact ⟨listed', thread.trans thread'⟩
  statuses t member := by
    have own := first.ids t member
    rcases second.statuses t (first.rows ▸ member) with busy | ⟨foremost, inactive⟩ | ⟨same, none⟩
    · exact Or.inl busy
    · exact Or.inr (Or.inl ⟨(first.isFirst member).mp foremost, own ▸ inactive⟩)
    · have earlier : ∀ r ∈ s''.runs.rows, (s.runs.get r).threadId = (s.threads.get t).threadId →
          (s''.runs.get r).isActive = true → r ∈ s'.runs.rows ∧
            (s'.runs.get r).threadId = (s.runs.get r).threadId ∧ (s'.runs.get r).isActive = true := by
        intro r listed onThread active
        obtain ⟨before, _⟩ := second.runs r listed
        obtain ⟨_, thread⟩ := first.runs r before
        exact ⟨before, thread, none r listed (by rw [thread, own, onThread]) active⟩
      rcases first.statuses t member with busy | ⟨foremost, inactive⟩ | ⟨same', none'⟩
      · exact Or.inl (same.trans busy)
      · refine Or.inr (Or.inl ⟨foremost, fun r listed onThread => ?_⟩)
        by_contra active
        obtain ⟨before, later⟩ := second.runs r listed
        obtain ⟨_, thread⟩ := first.runs r before
        have onThread' : (s.runs.get r).threadId = (s.threads.get t).threadId := by rw [← thread, ← later, onThread]
        obtain ⟨_, _, ran⟩ := earlier r listed onThread' (Bool.eq_true_of_not_eq_false active)
        rw [inactive r before (thread.trans onThread')] at ran
        cases ran
      · refine Or.inr (Or.inr ⟨same.trans same', fun r listed onThread active => ?_⟩)
        obtain ⟨before, _, ran⟩ := earlier r listed onThread active
        exact none' r before onThread ran

end Keeps

section Operations

variable {s : Runtime} {reply : Reply}

theorem Runs.Next.resume_threads (s : Runtime) (p : Next) (reply : Reply) : (Next.resume s p reply).1.threads = s.threads := by
  have turns := resume_turns s p reply
  generalize Next.resume s p reply = out at turns ⊢
  cases turns with
  | waits | raises => rfl
  | @loops holding out locked _ stops =>
    generalize holding.remaining = rest at stops
    cases stops <;> rfl

/-- A run that is handed out was pending. -/
theorem next_keepsBusy (s : Runtime) (p : Runs.Next) (reply : Reply) : KeepsBusy s (Runs.Next.resume s p reply).1 := by
  have threads := Runs.Next.resume_threads s p reply
  have hands := Runs.Next.resume_hands s p reply
  generalize Runs.Next.resume s p reply = out at threads hands ⊢
  cases hands with
  | nobody runs =>
    refine .of_fewer ?_ (fun t => ?_) (fun t => ?_) (fun r member => ?_) (fun r => ?_)
    · rw [threads]
    · rw [threads]
    · rw [threads]
    · rwa [runs] at member
    · rw [runs]
  | @hands _ _ _ s' r _ _ _ free runs =>
    dsimp only at threads
    constructor
    · rw [threads]
    · exact fun t _ => by rw [threads]
    · intro i member
      rw [runs] at member ⊢
      refine ⟨member, ?_⟩
      rw [Table.update_get]
      split <;> rfl
    · refine fun t _ => Or.inr (Or.inr ⟨by rw [threads], fun i _ _ active => ?_⟩)
      rw [runs, Table.update_get] at active
      by_cases here : i = r
      · rw [here, Run.isActive, free.pending]
        rfl
      · rwa [if_neg here] at active

theorem remove_keepsBusy (s : Runtime) (runId threadId : Uuid) : KeepsBusy s (Runs.Delete.remove s runId threadId).1 := by
  unfold Runs.Delete.remove
  split
  · exact .refl s
  · exact .of_fewer rfl (fun _ => rfl) (fun _ => rfl) (fun _ member => List.mem_of_mem_eraseIdx member) (fun _ => rfl)

theorem checkpoints_keepsBusy (serde : Serde) (s : Runtime) (runId threadId : Uuid) :
    KeepsBusy s (Runs.Delete.checkpoints serde s runId threadId).1 := by
  unfold Runs.Delete.checkpoints
  split
  · exact .refl s
  · have memory : KeepsBusy s { s with memory := s.memory.deleteRunCheckpoints serde runId.str threadId.str } :=
      .of_fewer rfl (fun _ => rfl) (fun _ => rfl) (fun _ member => member) (fun _ => rfl)
    exact memory.trans (remove_keepsBusy _ runId threadId)

theorem delete_keepsBusy (serde : Serde) (s : Runtime) (p : Runs.Delete) (reply : Reply) :
    KeepsBusy s (Runs.Delete.resume serde s p reply).1 := by
  cases p with
  | called runId threadId => exact .refl s
  | deletingCheckpoints runId threadId =>
    rw [Runs.Delete.resume]
    exact attempt_cases (fun e _ => .refl s) (fun _ _ => remove_keepsBusy s runId threadId)
  | authorizing runId threadId =>
    rw [Runs.Delete.resume]
    refine attempt_cases (fun e _ => .refl s) (fun filters _ => ?_)
    split
    · have read := (Threads.getWithFilters_completed s threadId filters).keepsBusy
      dsimp only
      refine attempt_cases (fun e _ => read) (fun thread _ => ?_)
      split
      · exact read
      · exact read.trans (checkpoints_keepsBusy serde _ runId threadId)
    · exact checkpoints_keepsBusy serde s runId threadId

theorem inactive_of_hasActiveRuns {threadId : Uuid} (none : Threads.hasActiveRuns s threadId = false) : NoActiveRuns s threadId := by
  intro r member own
  rw [Threads.hasActiveRuns, List.any_eq_false] at none
  have idle := none _ (Table.mem_values.mpr ⟨r, member, rfl⟩)
  rw [Threads.activeOn, Bool.and_eq_true, decide_eq_true_eq, not_and] at idle
  exact Bool.eq_false_of_not_eq_true (idle own)

/-- A report that makes the thread busy, unless it has no active run. -/
theorem reported_keepsBusy {t : Nat} {f : Thread → Thread} (ids : ∀ thread, (f thread).threadId = thread.threadId)
    (statuses : (f (s.threads.get t)).status = .busy ∨ (IsFirst s t ∧ NoActiveRuns s (s.threads.get t).threadId)) :
    KeepsBusy s { s with threads := s.threads.update t f } where
  rows := rfl
  ids i _ := by
    rw [Table.update_get]
    split
    · exact ids _
    · rfl
  runs r member := ⟨member, rfl⟩
  statuses i _ := by
    by_cases here : i = t
    · rw [here, Table.update_get_self]
      exact statuses.imp_right Or.inl
    · rw [Table.update_get_of_ne _ here]
      exact Or.inr (Or.inr ⟨rfl, fun _ _ _ active => active⟩)

theorem setStatus_keepsBusy (s : Runtime) (threadId : Uuid) (checkpoint : Option CheckpointPayload)
    (exception : Option PyException) (now : Time) : KeepsBusy s (Threads.setStatus s threadId checkpoint exception now).1 := by
  unfold Threads.setStatus
  cases found : s.threads.find? (Threads.byId threadId) with
  | none => exact .refl s
  | some t =>
    refine reported_keepsBusy (fun _ => rfl) ?_
    cases active : Threads.hasActiveRuns s threadId with
    | true => exact Or.inl rfl
    | false =>
      obtain ⟨first, own⟩ := isFirst_of_find? found
      exact Or.inr ⟨first, own ▸ inactive_of_hasActiveRuns active⟩

theorem finish_keepsBusy {call : Threads.JointCall} {t : Nat} (first : IsFirst s t) (own : (s.threads.get t).threadId = call.threadId) (now : Time) :
    KeepsBusy s (Threads.Joint.finish s call t now (Threads.hasActiveRuns s call.threadId)) := by
  refine reported_keepsBusy (fun _ => rfl) ?_
  cases active : Threads.hasActiveRuns s call.threadId with
  | true => exact Or.inl rfl
  | false => exact Or.inr ⟨first, own ▸ inactive_of_hasActiveRuns active⟩

theorem afterDelete_keepsBusy {call : Threads.JointCall} {t : Nat} (now : Time) {turn : Runs.DeleteTurn}
    (keeps : KeepsBusy s turn.1) (first : IsFirst s t) (own : (s.threads.get t).threadId = call.threadId) :
    KeepsBusy s (Threads.Joint.afterDelete call t now turn).1 := by
  unfold Threads.Joint.afterDelete
  split
  · exact keeps
  · exact keeps
  · exact keeps.trans (finish_keepsBusy ((keeps.isFirst first.listed).mpr first) ((keeps.ids t first.listed).trans own) now)

/-- A run may become active; then its thread is set to busy in the same turn. -/
theorem bothReported_keepsBusy {threadId : Uuid} {t r : Nat} {f : Thread → Thread} {g : Run → Run}
    (before : ThreadsBusy s) (first : IsFirst s t) (own : (s.threads.get t).threadId = threadId) (onThread : (s.runs.get r).threadId = threadId)
    (ids : ∀ thread, (f thread).threadId = thread.threadId) (threadIds : ∀ run, (g run).threadId = run.threadId)
    (statuses : (f (s.threads.get t)).status = .busy ∨ NoActiveRuns { s with runs := s.runs.update r g } threadId) :
    KeepsBusy s { s with runs := s.runs.update r g, threads := s.threads.update t f } where
  rows := rfl
  ids i _ := by
    rw [Table.update_get]
    split
    · exact ids _
    · rfl
  runs i member := by
    refine ⟨member, ?_⟩
    rw [Table.update_get]
    split
    · exact threadIds _
    · rfl
  statuses i member := by
    by_cases here : i = t
    · rw [here, own, Table.update_get_self]
      exact statuses.imp_right (fun inactive => Or.inl ⟨first, inactive⟩)
    · rw [Table.update_get_of_ne _ here]
      rcases before.spare i member with foremost | busy
      · refine Or.inr (Or.inr ⟨rfl, fun j _ onOther active => ?_⟩)
        have other : j ≠ r := by
          rintro rfl
          exact here (first.unique foremost (onOther.symm.trans (onThread.trans own.symm)))
        rwa [Table.update_get_of_ne _ other] at active
      · exact Or.inl busy

theorem joint_status_keepsBusy {call : Threads.JointCall} {t r : Nat} (status : RunStatus) (now : Time)
    (before : ThreadsBusy s) (first : IsFirst s t) (own : (s.threads.get t).threadId = call.threadId)
    (onThread : (s.runs.get r).threadId = call.threadId) :
    KeepsBusy s (Threads.Joint.finish { s with runs := s.runs.update r (Runs.withStatus status now) } call t now
      (decide (status = .pending ∨ status = .running ∨
        Threads.hasActiveRuns { s with runs := s.runs.update r (Runs.withStatus status now) } call.threadId))) := by
  unfold Threads.Joint.finish
  refine bothReported_keepsBusy before first own onThread (fun _ => rfl) (fun _ => rfl) ?_
  cases active : Threads.hasActiveRuns { s with runs := s.runs.update r (Runs.withStatus status now) } call.threadId with
  | true =>
    left
    have busy : status = .pending ∨ status = .running ∨ true = true := Or.inr (Or.inr rfl)
    rw [decide_eq_true busy]
    rfl
  | false => exact Or.inr (inactive_of_hasActiveRuns active)

/-- Where a call of `set_joint_status` can wait. -/
def JointStands (s : Runtime) : Threads.Joint → Prop
  | .called _ => True
  | .rollingBack call t _ _ => IsFirst s t ∧ (s.threads.get t).threadId = call.threadId

theorem joint_keepsBusy (serde : Serde) (before : ThreadsBusy s) {p : Threads.Joint} (stands : JointStands s p) :
    KeepsBusy s (Threads.Joint.resume serde s p reply).1 := by
  cases p with
  | rollingBack call t now deletion =>
    exact afterDelete_keepsBusy now (delete_keepsBusy serde s deletion reply) stands.1 stands.2
  | called call =>
    rw [Threads.Joint.resume]
    cases found : s.threads.find? (Threads.byId call.threadId) with
    | none => exact .refl s
    | some t =>
      obtain ⟨first, own⟩ := isFirst_of_find? found
      dsimp only
      cases foundRun : s.runs.find? (Runs.byIds call.runId call.threadId) with
      | none => exact .refl s
      | some r =>
        have onThread : (s.runs.get r).threadId = call.threadId := by
          have passes := Table.find?_passes foundRun
          rw [Runs.byIds, decide_eq_true_eq] at passes
          exact passes.2
        dsimp only
        cases call.runStatus with
        | rollback => exact afterDelete_keepsBusy _ (delete_keepsBusy serde s _ reply) first own
        | status status =>
          exact joint_status_keepsBusy status reply.now before first own onThread

end Operations

/-- The runs in `marks` are interrupted, and the threads of the pending ones among
them are set to idle. -/
structure Interrupts (marks : List Nat) (s s' : Runtime) : Prop where
  rows : s'.threads.rows = s.threads.rows
  ids : ∀ t, (s'.threads.get t).threadId = (s.threads.get t).threadId
  statuses : ∀ t, (s'.threads.get t).status = (s.threads.get t).status ∨
    IsFirst s t ∧ ∃ r ∈ marks, (s.runs.get r).isPending = true ∧ (s.runs.get r).threadId = (s.threads.get t).threadId
  runRows : s'.runs.rows = s.runs.rows
  runThreads : ∀ r, (s'.runs.get r).threadId = (s.runs.get r).threadId
  marked : ∀ r ∈ marks, (s'.runs.get r).isActive = false
  unmarked : ∀ r, r ∉ marks → (s'.runs.get r).status = (s.runs.get r).status

theorem Interrupts.of_completed {s s' : Runtime} (completed : Completed s s') : Interrupts [] s s' where
  rows := (completed.threads (f := Thread.threadId) (fun _ => rfl)).1
  ids := (completed.threads (f := Thread.threadId) (fun _ => rfl)).2
  statuses t := Or.inl ((completed.threads (f := Thread.status) (fun _ => rfl)).2 t)
  runRows := by rw [completed.runs]
  runThreads r := by rw [completed.runs]
  marked r member := absurd member List.not_mem_nil
  unmarked r _ := by rw [completed.runs]

theorem Interrupts.trans {marks marks' : List Nat} {s s' s'' : Runtime} (first : Interrupts marks s s')
    (second : Interrupts marks' s' s'') : Interrupts (marks ++ marks') s s'' where
  rows := second.rows.trans first.rows
  ids t := (second.ids t).trans (first.ids t)
  statuses t := by
    rcases second.statuses t with same | ⟨foremost, r, member, pending, own⟩
    · rcases first.statuses t with same' | ⟨foremost, r, member, marked⟩
      · exact Or.inl (same.trans same')
      · exact Or.inr ⟨foremost, r, List.mem_append_left _ member, marked⟩
    · have other : r ∉ marks := by
        intro earlier
        have idle := first.marked r earlier
        rw [Run.isActive, pending] at idle
        cases idle
      have listed : t ∈ s.threads.rows := first.rows ▸ foremost.listed
      refine Or.inr ⟨(isFirst_congr first.rows (fun i _ => first.ids i) listed).mp foremost, r,
        List.mem_append_right _ member, ?_, ?_⟩
      · rwa [Run.isPending, first.unmarked r other] at pending
      · rw [← first.runThreads, own, first.ids]
  runRows := second.runRows.trans first.runRows
  runThreads r := (second.runThreads r).trans (first.runThreads r)
  marked r member := by
    by_cases later : r ∈ marks'
    · exact second.marked r later
    · have idle := first.marked r ((List.mem_append.mp member).resolve_right later)
      rwa [Run.isActive, Run.isPending, Run.isRunning, second.unmarked r later]
  unmarked r absent := by
    rw [List.mem_append, not_or] at absent
    rw [second.unmarked r absent.2, first.unmarked r absent.1]

theorem interruptRun_interrupts {s s' : Runtime} {r : Nat} (runs : s'.runs = s.runs)
    (rows : s'.threads.rows = s.threads.rows) (ids : ∀ t, (s'.threads.get t).threadId = (s.threads.get t).threadId)
    (statuses : ∀ t, (s'.threads.get t).status = (s.threads.get t).status ∨
      IsFirst s t ∧ (s.runs.get r).isPending = true ∧ (s.runs.get r).threadId = (s.threads.get t).threadId) (now : Time) :
    Interrupts [r] s (Runs.interruptRun s' r now) where
  rows := rows
  ids := ids
  statuses t := (statuses t).imp_right (fun ⟨first, idled⟩ => ⟨first, r, List.mem_singleton_self r, idled⟩)
  runRows := by
    change s'.runs.rows = _
    rw [runs]
  runThreads i := by
    change ((s'.runs.update r _).get i).threadId = _
    rw [runs, Table.update_get]
    split <;> rfl
  marked i member := by
    change ((s'.runs.update r _).get i).isActive = _
    rw [List.mem_singleton.mp member, Table.update_get_self]
    rfl
  unmarked i other := by
    change ((s'.runs.update r _).get i).status = _
    rw [Table.update_get_of_ne _ (fun same => other (List.mem_singleton.mpr same)), runs]

theorem markInterrupted_interrupts (s : Runtime) (r : Nat) (now : Time) : Interrupts [r] s (Runs.markInterrupted s r now) := by
  unfold Runs.markInterrupted Runs.idleThreadOf
  split
  · rename_i pending
    split
    · exact interruptRun_interrupts rfl rfl (fun _ => rfl) (fun _ => Or.inl rfl) now
    · rename_i t found
      obtain ⟨first, own⟩ := isFirst_of_find? found
      refine interruptRun_interrupts ?_ ?_ (fun i => ?_) (fun i => ?_) now
      · rfl
      · rfl
      · rw [Table.update_get]
        split <;> rfl
      · by_cases here : i = t
        · exact Or.inr ⟨here ▸ first, pending, by rw [here, own]⟩
        · exact Or.inl (by rw [Table.update_get_of_ne _ here])
  · exact interruptRun_interrupts rfl rfl (fun _ => rfl) (fun _ => Or.inl rfl) now

theorem signal_interrupts (call : Runs.CancelCall) (s : Runtime) (r : Nat) : Interrupts [] s (Runs.signal call s r).1 where
  rows := rfl
  ids _ := rfl
  statuses _ := Or.inl rfl
  runRows := rfl
  runThreads _ := rfl
  marked _ member := absurd member List.not_mem_nil
  unmarked _ _ := rfl

theorem loop_interrupts (call : Runs.CancelCall) (now : Time) (s : Runtime) (rest : List Nat) (tasks : List Runs.Cancel)
    (cancelable : List Nat) :
    Interrupts (Runs.Cancel.marks call now s rest) s (Runs.Cancel.loop call now s rest tasks cancelable).1 := by
  induction rest generalizing s tasks cancelable with
  | nil =>
    rw [Runs.Cancel.loop, Runs.Cancel.afterLoop_same]
    exact .of_completed .same
  | cons r rest ih =>
    have signalled := signal_interrupts call s r
    unfold Runs.Cancel.loop Runs.Cancel.marks
    dsimp only
    by_cases here : Runs.marksInPlace call s r = true
    · obtain ⟨active, marks⟩ := (Runs.marksInPlace_eq call s r).mp here
      rw [if_pos active, if_pos marks, if_pos here]
      exact (signalled.trans (markInterrupted_interrupts _ r now)).trans (ih _ _ _)
    · rw [if_neg here]
      split
      · rename_i active
        rw [if_neg (fun marks => here ((Runs.marksInPlace_eq call s r).mpr ⟨active, marks⟩))]
        exact signalled
      · exact signalled

/-- A turn of `cancel` that interrupts a pending run interrupts all pending and
running runs of its thread. -/
def InterruptsAll (s : Runtime) (p : Runs.Cancel) (reply : Reply) : Prop :=
  ∀ r ∈ p.marked s reply, (s.runs.get r).isPending = true → ∀ i ∈ s.runs.rows,
    (s.runs.get i).threadId = (s.runs.get r).threadId → (s.runs.get i).isActive = true → i ∈ p.marked s reply

theorem Interrupts.keepsBusy {marks : List Nat} {s s' : Runtime} (interrupts : Interrupts marks s s')
    (whole : ∀ r ∈ marks, (s.runs.get r).isPending = true → ∀ i ∈ s.runs.rows,
      (s.runs.get i).threadId = (s.runs.get r).threadId → (s.runs.get i).isActive = true → i ∈ marks) :
    KeepsBusy s s' where
  rows := interrupts.rows
  ids t _ := interrupts.ids t
  runs r member := ⟨interrupts.runRows ▸ member, interrupts.runThreads r⟩
  statuses t _ := by
    have before : ∀ i, (s'.runs.get i).isActive = true → i ∉ marks ∧ (s.runs.get i).isActive = true := by
      intro i active
      have unmarked : i ∉ marks := by
        intro member
        rw [interrupts.marked i member] at active
        cases active
      refine ⟨unmarked, ?_⟩
      rwa [Run.isActive, Run.isPending, Run.isRunning, interrupts.unmarked i unmarked] at active
    rcases interrupts.statuses t with same | ⟨first, r, member, pending, own⟩
    · exact Or.inr (Or.inr ⟨same, fun i _ _ active => (before i active).2⟩)
    · refine Or.inr (Or.inl ⟨first, fun i listed onThread => ?_⟩)
      by_contra active
      rw [Bool.not_eq_false] at active
      obtain ⟨unmarked, ran⟩ := before i active
      rw [interrupts.runRows] at listed
      rw [interrupts.runThreads, ← own] at onThread
      exact unmarked (whole r member pending i listed onThread ran)

/-- What a turn of `cancel` marks, it interrupts. -/
theorem cancel_interrupts (serde : Serde) (s : Runtime) (p : Runs.Cancel) (reply : Reply)
    (other : ∀ deletion, p ≠ .deleting deletion) :
    Interrupts (p.marked s reply) s (Runs.Cancel.resume serde s p reply).1 := by
  cases p with
  | deleting deletion => exact absurd rfl (other deletion)
  | called call =>
    rw [Runs.Cancel.resume]
    exact attempt_cases (fun _ _ => .of_completed .same) (fun _ _ => .of_completed .same)
  | authorizing call =>
    rw [Runs.Cancel.resume_authorizing]
    unfold Runs.Cancel.marked
    cases reply.answer with
    | error e => exact .of_completed .same
    | ok filters =>
      have read := call.select_completed filters s
      dsimp only [attempt_ok]
      unfold Runs.Cancel.start
      cases selected : call.select filters s with
      | mk s' outcome =>
        rw [selected] at read
        cases outcome with
        | error e => exact .of_completed read
        | ok candidates =>
          dsimp only [attempt_ok]
          split
          · rename_i nobody
            subst nobody
            split <;> exact .of_completed read
          · exact (Interrupts.of_completed read).trans (loop_interrupts call reply.now s' candidates [] [])
  | deferred call eager rest tasks cancelable =>
    rw [Runs.Cancel.resume]
    unfold Runs.Cancel.marked
    cases reply.answer with
    | error e => exact .of_completed .same
    | ok value => exact loop_interrupts _ _ _ _ _ _
  | gathering | reporting =>
    rw [Runs.Cancel.resume]
    exact attempt_cases (fun _ _ => .of_completed .same) (fun _ _ => .of_completed .same)
  | putting runId threadId message => exact ⟨rfl, fun _ => rfl, fun _ => Or.inl rfl, rfl, fun _ => rfl,
      fun _ member => absurd member List.not_mem_nil, fun _ _ => rfl⟩

theorem cancel_keepsBusy (serde : Serde) (s : Runtime) (p : Runs.Cancel) (reply : Reply) (whole : InterruptsAll s p reply) :
    KeepsBusy s (Runs.Cancel.resume serde s p reply).1 := by
  by_cases deletes : ∃ deletion, p = .deleting deletion
  · obtain ⟨deletion, rfl⟩ := deletes
    exact delete_keepsBusy serde s deletion reply
  · exact (cancel_interrupts serde s p reply (fun deletion same => deletes ⟨deletion, same⟩)).keepsBusy whole

end InmemRuntime
