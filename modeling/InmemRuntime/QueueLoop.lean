import InmemRuntime.NextTurns
import InmemRuntime.QueueTokens

namespace InmemRuntime

namespace RunQueue

/-- A turn writes no run, or marks one and puts it into the history. -/
inductive Marks (s s' : RunQueue) : Prop
  | keeps : s'.runtime.runs = s.runtime.runs → s'.marked = s.marked → Marks s s'
  | marks {item} : s'.runtime.runs = s.runtime.runs.update item.ref markRunning →
      s'.marked = s.marked ++ [item] → Marks s s'

section Marked

variable {config : QueueConfig} {s : RunQueue} {reply : QueueReply}

/-- The parts of the state that the head of the loop does not write. -/
def Untouched (s s' : RunQueue) : Prop := s'.runtime.runs = s.runtime.runs ∧ s'.marked = s.marked

theorem Untouched.marks {s' : RunQueue} (same : Untouched s s') : Marks s s' := .keeps same.1 same.2

theorem wait_untouched (s : RunQueue) : Untouched s (wait config s reply) := by
  unfold wait iterate
  split
  · exact ⟨rfl, rfl⟩
  · dsimp only
    split <;> exact ⟨rfl, rfl⟩

theorem top_untouched (s : RunQueue) : Untouched s (top config s reply) := by
  unfold top
  split
  · exact ⟨rfl, rfl⟩
  · exact wait_untouched s

theorem requeue_untouched (rest : List Nat) (index : Nat) (s : RunQueue) :
    Untouched s (requeue config reply rest index s) := by
  induction rest generalizing index s with
  | nil => exact wait_untouched { s with expiredRunners := [] }
  | cons runner rest ih =>
    unfold requeue
    split
    · exact ⟨rfl, rfl⟩
    · exact ih (index + 1) { s with runners := s.runners ++ [runner] }

theorem sweep_untouched (s : RunQueue) (duties : Duties) : Untouched s (sweep config s reply duties) := by
  unfold sweep
  split
  · exact top_untouched { s with lastSweep := some reply.time }
  · exact top_untouched s

theorem afterNext_marks {t : RunQueue} (history : t.marked = s.marked) (duties : Duties) {out : Runs.NextTurn}
    (marks : Runs.Next.Marks s.runtime out) : Marks s (afterNext config t reply duties out) := by
  cases marks with
  | waits same => exact .keeps same history
  | hands same => exact .marks same (congrArg (· ++ _) history)
  | @ends runtime result same =>
    unfold afterNext
    cases result with
    | error => exact .keeps same history
    | ok =>
      dsimp only
      unfold afterLoop
      split
      · exact .keeps same history
      · obtain ⟨unwritten, unmarked⟩ := sweep_untouched { t with runtime := runtime } duties
        exact .keeps (unwritten.trans same) (unmarked.trans history)

theorem advance_marks (config : QueueConfig) (s : RunQueue) (reply : QueueReply) :
    Marks s (advance config s reply) := by
  unfold advance
  cases s.point with
  | ended => exact .keeps rfl rfl
  | handling duties item generator =>
    dsimp only
    unfold handle
    split
    · exact .keeps rfl rfl
    · split
      · exact .keeps rfl rfl
      · exact afterNext_marks (by rfl) duties (Runs.Next.resume_marks s.runtime generator _)
  | fetching duties generator => exact afterNext_marks rfl duties (Runs.Next.resume_marks s.runtime generator _)
  | counting duties =>
    dsimp only
    unfold count
    split <;> exact .keeps rfl rfl
  | starting =>
    cases reply.answer with
    | error => exact .keeps rfl rfl
    | ok => exact (top_untouched s).marks
  | warning =>
    cases reply.answer with
    | error => exact .keeps rfl rfl
    | ok => exact (requeue_untouched s.expiredRunners 0 s).marks
  | requeueing index =>
    cases reply.answer with
    | error => exact .keeps rfl rfl
    | ok => exact (requeue_untouched (s.expiredRunners.drop index) index s).marks
  | waiting =>
    cases reply.answer with
    | error => exact .keeps rfl rfl
    | ok => exact (wait_untouched s).marks
  | logging =>
    cases reply.answer with
    | error => exact .keeps rfl rfl
    | ok => exact .keeps rfl rfl
  | reporting duties =>
    cases reply.answer with
    | error => exact .keeps rfl rfl
    | ok => exact (sweep_untouched s duties).marks

end Marked

/-- The awaits of an iteration, and what it does between them. -/
def inIteration : QueuePoint → Bool
  | .logging _ | .fetching _ _ | .handling _ _ _ | .counting _ | .reporting _ => true
  | _ => false

/-- No turn outside an iteration raises. -/
def Uninterrupted (s : RunQueue) : Move → Prop
  | .turn reply => inIteration s.point = false → ¬ Raises reply s.point
  | _ => True

/-- No turn raises. -/
def Calm (s : RunQueue) : Move → Prop
  | .turn reply => ¬ Raises reply s.point
  | _ => True

/-- What the scheduler keeps up: every token is somewhere, `get_nowait` finds
one, each marked run has its task, and the loop goes on. -/
structure Conserved (config : QueueConfig) (s : RunQueue) : Prop where
  tokens : s.point.awaits = true →
    (s.runners ++ s.expiredRunners ++ s.workers.map Worker.runner).Perm (List.range config.concurrency)
  found : ∀ duties item generator, s.point = .handling duties item generator → s.runners ≠ []
  staffed : s.point.awaits = true → (s.marked.map markedKey).Perm ((s.workers ++ s.finished).map startedKey)
  going : ¬ isEnded s.point

theorem Sound.conserved {config : QueueConfig} {s : RunQueue} (sound : Sound config s) : Conserved config s where
  tokens _ := by
    have none : s.expiredRunners = [] := sound.balanced.expired
    rw [none, List.append_nil]
    exact sound.balanced.tokens
  found duties item generator point := by
    have supplied := sound.supplied
    rw [point] at supplied
    exact List.ne_nil_of_length_pos (Nat.lt_of_lt_of_le (Nat.succ_pos _) supplied.2)
  staffed awaits := by
    have settled : inHand s.point = [] := by
      cases point : s.point with
      | handling | counting => rw [point] at awaits; cases awaits
      | _ => rfl
    have staffed := sound.balanced.staffed
    rw [settled, List.append_nil] at staffed
    exact staffed
  going ended := by
    have supplied := sound.supplied
    cases point : s.point with
    | ended => rw [point] at supplied; exact supplied.elim
    | _ => rw [point] at ended; exact ended.elim

theorem start_sound (config : QueueConfig) (runtime : Runtime) : Sound config (start config runtime) where
  balanced := {
    tokens := by
      show (List.range config.concurrency ++ []).Perm _
      rw [List.append_nil]
    expired := rfl
    staffed := .refl _ }
  supplied := trivial

theorem perform_sound {config : QueueConfig} {s s' : RunQueue} {m : Move} (sound : Sound config s) (calm : Calm s m)
    (performed : perform config s m = some s') : Sound config s' := by
  cases m with
  | turn reply =>
    cases performed
    exact advance_sound sound calm
  | complete index outcome =>
    simp only [perform] at performed
    split at performed
    · rename_i awaits
      obtain ⟨worker, stands, rfl⟩ := Option.map_eq_some_iff.mp performed
      exact cleanup_sound sound awaits stands outcome
    · cases performed
  | others runtime =>
    simp only [perform] at performed
    split at performed
    · cases performed
      exact ⟨sound.balanced, sound.supplied⟩
    · cases performed

theorem Reaches.sound {config : QueueConfig} {runtime : Runtime} {s : RunQueue}
    (run : Reaches config Calm (RunQueue.start config runtime) s) : Sound config s := by
  induction run with
  | start => exact start_sound config runtime
  | move m _ calm performed ih => exact perform_sound ih calm performed

/-- While no turn raises, the scheduler keeps its tokens and its marked runs
staffed and goes on; the turn that raises leaves the loop. -/
theorem queue_conserves_while_calm (config : QueueConfig) (runtime : Runtime) {s : RunQueue}
    (run : Reaches config Calm (start config runtime) s) :
    Conserved config s ∧ (∀ reply, Marks s (advance config s reply)) ∧
      ∀ reply, isEnded (advance config s reply).point ↔ Raises reply s.point := by
  have sound := run.sound
  refine ⟨sound.conserved, advance_marks config s, fun reply => ⟨fun ended => ?_, advance_ends sound.supplied⟩⟩
  by_contra calm
  exact (advance_sound sound calm).conserved.going ended

section OneJob

def oneJob : QueueConfig := ⟨1, 120, 60⟩

/-- A pending run of a graph, on the only thread. -/
def graphRun : Run :=
  { (default : Run) with
    runId := some default
    status := some .pending
    createdAt := some 3
    kwargs := [("config", .dict [("configurable", .dict [("graph_id", .str "agent")])])] }

def graphRuntime : Runtime :=
  { (default : Runtime) with threads := Table.empty.append default, runs := Table.empty.append graphRun }

def graphItem : Runs.HandOut := ⟨0, markRunning graphRun, 1⟩

/-- The scheduler after it has taken the run. -/
def graphHandling : RunQueue :=
  { start oneJob graphRuntime with
    runtime := (Runs.Next.proceed { graphRuntime with runLocked := true } ⟨[0], 0, 1⟩).1
    lastStats := some 5
    marked := [graphItem]
    point := .handling ⟨true, true⟩ graphItem (.yielding ⟨[0], 1, 1⟩) }

/-- Nothing raises, or `is_js_graph` does. -/
def schedulerReply (isJsGraph : Except PyError Bool) : QueueReply where
  now := 5
  fresh := default
  answer := .ok .none
  time := 5
  isJsGraph _ := isJsGraph
  stats := .ok ()

theorem graphRuntime_pendingRuns : Runs.pendingRuns graphRuntime 5 = [0] := by
  have due : graphRuntime.runs.rows.filter (fun r => Runs.isDue 5 (graphRuntime.runs.get r)) = [0] := by decide
  rw [Runs.pendingRuns, due]
  exact List.mergeSort_singleton _

theorem reaches_graphHandling {allowed : RunQueue → Move → Prop} (allows : ∀ s m, Calm s m → allowed s m) :
    Reaches oneJob allowed (start oneJob graphRuntime) graphHandling := by
  have calm : ∀ s : RunQueue,
      (Raises (schedulerReply (.ok false)) s.point → ∃ e, (schedulerReply (.ok false)).answer = .error e) →
      Calm s (.turn (schedulerReply (.ok false))) := by
    intro s answered raises
    obtain ⟨e, raised⟩ := answered raises
    cases raised
  have proceeds : Runs.Next.resume graphRuntime (.locking 1 5) (schedulerReply (.ok false)).toReply =
      Runs.Next.proceed { graphRuntime with runLocked := true } ⟨[0], 0, 1⟩ := by
    rw [← graphRuntime_pendingRuns]
    rfl
  have begun : Reaches oneJob allowed (start oneJob graphRuntime) (start oneJob graphRuntime) := .start
  have logging := begun.move _ (allows _ _ (calm _ id)) rfl
  have sleeping := logging.move _ (allows _ _ (calm _ id)) rfl
  have locking := sleeping.move _ (allows _ _ (calm _ id)) rfl
  refine locking.move _ (allows _ _ (calm _ id)) ?_
  exact congrArg (fun out => some (afterNext oneJob _ (schedulerReply (.ok false)) ⟨true, true⟩ out)) proceeds

/-- `is_js_graph` raises for the run in hand: its token is lost, it stays marked
without a task, and the loop is left. -/
theorem queue_ends_at_failure :
    ∃ s, Reaches oneJob Uninterrupted (start oneJob graphRuntime) s ∧ ¬ Conserved oneJob s ∧ isEnded s.point ∧
      s.runners ++ s.expiredRunners = [] ∧ s.marked = [graphItem] ∧ s.workers ++ s.finished = [] := by
  have taken : Reaches oneJob Uninterrupted (start oneJob graphRuntime) graphHandling := by
    refine reaches_graphHandling (fun s m calm => ?_)
    cases m with
    | turn => exact fun _ => calm
    | complete | others => trivial
  have failed := taken.move (.turn (schedulerReply (.error .typeError))) (fun outside => absurd outside (by decide)) rfl
  exact ⟨_, failed, fun conserved => conserved.going trivial, trivial, rfl, rfl, rfl⟩

/-- The run gets its task. -/
theorem queue_conserves_graph :
    Conserved oneJob graphHandling ∧ ¬ isEnded (advance oneJob graphHandling (schedulerReply (.ok false))).point := by
  have conserves := queue_conserves_while_calm oneJob graphRuntime (reaches_graphHandling (fun _ _ calm => calm))
  refine ⟨conserves.1, fun ended => ?_⟩
  obtain ⟨e, failed⟩ := (conserves.2.2 _).mp ended
  have named : (taskName (schedulerReply (.ok false)) graphItem).toBool = true := rfl
  rw [failed] at named
  cases named

end OneJob

end RunQueue

end InmemRuntime
