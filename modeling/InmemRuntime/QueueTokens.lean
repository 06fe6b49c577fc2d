import InmemRuntime.RunQueue

namespace InmemRuntime

namespace Runs

def Next.bound : Next → Nat
  | .called limit | .sleeping limit _ | .locking limit _ => limit
  | .warning holding | .yielding holding => holding.remaining.length

/-- The generator has been asked for its first item. -/
def Next.started : Next → Prop
  | .called _ => False
  | _ => True

/-- A turn that does not raise waits, ends, or gives out one run of those that are left. -/
inductive Next.Gives (bound : Nat) : Turn Next (Except PyError (List HandOut)) → Prop
  | waits {generator : Next} : generator.started → generator.bound ≤ bound → Gives bound (.suspended generator)
  | hands {item} {generator : Next} : generator.started → generator.bound + 1 ≤ bound →
      Gives bound (.yielded (.ok [item]) generator)
  | ends {items} : Gives bound (.finished (.ok items))

variable {s : Runtime} {reply : Reply}

theorem Next.Gives.mono {bound bound' : Nat} (le : bound ≤ bound') {turn : Turn Next (Except PyError (List HandOut))}
    (gives : Next.Gives bound turn) : Next.Gives bound' turn := by
  cases gives with
  | waits started within => exact .waits started (within.trans le)
  | hands started within => exact .hands started (within.trans le)
  | ends => exact .ends

theorem Next.loop_gives (holding : Holding) {position : Nat} {rest : List Nat}
    (here : rest = (holding.pendingRuns.take holding.limit).drop position) :
    Next.Gives rest.length (Next.loop holding position s rest).2 := by
  induction rest generalizing position with
  | nil => exact .ends
  | cons r rest ih =>
    have later : rest = (holding.pendingRuns.take holding.limit).drop (position + 1) := by
      rw [← List.drop_drop, ← here]
      rfl
    have left : Holding.remaining { holding with position := position + 1 } = rest := later.symm
    have skipped : Next.Gives (r :: rest).length (Next.loop holding (position + 1) s rest).2 :=
      (ih later).mono (Nat.le_succ _)
    unfold loop
    dsimp only
    split
    · exact skipped
    · split
      · exact .waits trivial (by rw [bound, left]; exact Nat.le_succ _)
      · split
        · exact skipped
        · exact .hands trivial (by rw [bound, left]; exact Nat.le_refl _)

theorem Next.proceed_gives (holding : Holding) : Next.Gives holding.remaining.length (Next.proceed s holding).2 :=
  loop_gives holding rfl

theorem Next.resume_gives (s : Runtime) (generator : Next) {answer : PyVal} (answered : reply.answer = .ok answer) :
    Next.Gives generator.bound (Next.resume s generator reply).2 := by
  cases generator with
  | called limit => exact .waits trivial (Nat.le_refl _)
  | sleeping limit now =>
    rw [resume, answered, attempt_ok]
    exact .waits trivial (Nat.le_refl _)
  | locking limit now =>
    rw [resume, answered, attempt_ok]
    split
    · exact .waits trivial (Nat.le_refl _)
    · refine (proceed_gives _).mono ?_
      rw [Holding.remaining, List.drop_zero]
      exact List.length_take_le _ _
  | warning holding | yielding holding =>
    rw [resume, answered, attempt_ok]
    exact proceed_gives holding

theorem Next.resume_raises {generator : Next} (started : generator.started) {e : PyError}
    (raised : reply.answer = .error e) : (Next.resume s generator reply).2 = .finished (.error e) := by
  cases generator with
  | called => exact started.elim
  | sleeping | locking | warning | yielding =>
    rw [resume, raised]
    rfl

end Runs

namespace RunQueue

/-- The tokens and the tasks. -/
structure Ledger where
  runners : List Nat
  expiredRunners : List Nat
  workers : List Worker
  marked : List Runs.HandOut
  finished : List Worker

def ledger (s : RunQueue) : Ledger := ⟨s.runners, s.expiredRunners, s.workers, s.marked, s.finished⟩

/-- A run's record and the attempt it is started for. -/
def markedKey (item : Runs.HandOut) : Nat × Nat := (item.ref, item.attempt)

def startedKey (worker : Worker) : Nat × Nat := (worker.run, worker.attempt)

/-- Every token is in the queue or with a task, and every marked run has its
task, but for those in hand. -/
structure Balanced (config : QueueConfig) (l : Ledger) (inHand : List (Nat × Nat)) : Prop where
  tokens : (l.runners ++ l.workers.map Worker.runner).Perm (List.range config.concurrency)
  expired : l.expiredRunners = []
  staffed : (l.marked.map markedKey).Perm ((l.workers ++ l.finished).map startedKey ++ inHand)

/-- The run that is marked and has no task yet. -/
def inHand : QueuePoint → List (Nat × Nat)
  | .handling _ item _ => [markedKey item]
  | _ => []

/-- The loop is not left, and what a generator may still give out has a token waiting for it. -/
def Supplied (runners : List Nat) : QueuePoint → Prop
  | .fetching _ generator => generator.started ∧ generator.bound ≤ runners.length
  | .handling _ _ generator => generator.started ∧ generator.bound + 1 ≤ runners.length
  | .ended _ => False
  | _ => True

structure Sound (config : QueueConfig) (s : RunQueue) : Prop where
  balanced : Balanced config s.ledger (inHand s.point)
  supplied : Supplied s.runners s.point

def isEnded : QueuePoint → Prop
  | .ended _ => True
  | _ => False

/-- The turn raises: at the await, in the body of the loop over the runs, or in `Runs.stats`. -/
def Raises (reply : QueueReply) : QueuePoint → Prop
  | .ended _ => False
  | .handling _ item _ => ∃ e, taskName reply item = .error e
  | .counting _ => ∃ e, reply.stats = .error e
  | _ => ∃ e, reply.answer = .error e

section Turns

variable {config : QueueConfig} {s : RunQueue} {reply : QueueReply}

theorem fetch_sound (balanced : Balanced config s.ledger []) (duties : Duties) : Sound config (fetch s reply duties) :=
  ⟨balanced, trivial, Nat.le_refl _⟩

theorem iterate_sound (balanced : Balanced config s.ledger []) : Sound config (iterate config s reply) := by
  unfold iterate
  dsimp only
  split
  · exact ⟨balanced, trivial⟩
  · exact fetch_sound balanced _

theorem wait_sound (balanced : Balanced config s.ledger []) : Sound config (wait config s reply) := by
  unfold wait
  split
  · exact ⟨balanced, trivial⟩
  · exact iterate_sound balanced

theorem top_sound (balanced : Balanced config s.ledger []) : Sound config (top config s reply) := by
  unfold top
  split
  · exact ⟨balanced, trivial⟩
  · exact wait_sound balanced

theorem requeue_sound (balanced : Balanced config s.ledger []) (index : Nat) :
    Sound config (requeue config reply [] index s) :=
  wait_sound ⟨balanced.tokens, rfl, balanced.staffed⟩

theorem sweep_sound (balanced : Balanced config s.ledger []) (duties : Duties) :
    Sound config (sweep config s reply duties) := by
  unfold sweep
  split
  · exact top_sound balanced
  · exact top_sound balanced

theorem afterLoop_sound (balanced : Balanced config s.ledger []) (duties : Duties) :
    Sound config (afterLoop config s reply duties) := by
  unfold afterLoop
  split
  · exact ⟨balanced, trivial⟩
  · exact sweep_sound balanced duties

theorem afterNext_sound (balanced : Balanced config s.ledger []) (duties : Duties) {out : Runs.NextTurn} {bound : Nat}
    (gives : Runs.Next.Gives bound out.2) (supply : bound ≤ s.runners.length) :
    Sound config (afterNext config s reply duties out) := by
  obtain ⟨runtime, turn⟩ := out
  cases gives with
  | waits started within => exact ⟨balanced, started, within.trans supply⟩
  | @hands item _ started within =>
    refine ⟨⟨balanced.tokens, balanced.expired, ?_⟩, started, within.trans supply⟩
    have staffed := balanced.staffed
    rw [List.append_nil] at staffed
    show ((s.marked ++ [item]).map markedKey).Perm _
    rw [List.map_append]
    exact staffed.append_right _
  | ends => exact afterLoop_sound (s := { s with runtime := runtime }) balanced duties

/-- The run in hand gets a task and a token. -/
theorem handle_sound {duties : Duties} {item : Runs.HandOut} {generator : Runs.Next} {name : String}
    (balanced : Balanced config s.ledger [markedKey item]) (supply : generator.bound + 1 ≤ s.runners.length)
    (named : taskName reply item = .ok name) : Sound config (handle config s reply duties item generator) := by
  unfold handle
  cases queue : s.runners with
  | nil =>
    rw [queue] at supply
    cases supply
  | cons runner rest =>
    dsimp only
    rw [named]
    rw [queue, List.length_cons] at supply
    have tokens : (runner :: rest ++ s.workers.map Worker.runner).Perm (List.range config.concurrency) :=
      queue ▸ balanced.tokens
    have staffed : (s.marked.map markedKey).Perm ((s.workers ++ s.finished).map startedKey ++ [markedKey item]) :=
      balanced.staffed
    have asked : ({ reply.toReply with answer := .ok .none } : Reply).answer = .ok .none := rfl
    have left : generator.bound ≤ rest.length := Nat.le_of_succ_le_succ supply
    refine afterNext_sound
      (s := { s with runners := rest, workers := s.workers ++ [⟨name, item.ref, item.attempt, runner⟩] })
      ⟨?_, balanced.expired, ?_⟩ duties (Runs.Next.resume_gives s.runtime generator asked) left
    · show (rest ++ (s.workers ++ [(⟨name, item.ref, item.attempt, runner⟩ : Worker)]).map Worker.runner).Perm _
      refine List.Perm.trans ?_ tokens
      rw [List.map_append, ← List.append_assoc]
      exact List.perm_append_singleton _ _
    · show (s.marked.map markedKey).Perm
        (((s.workers ++ [(⟨name, item.ref, item.attempt, runner⟩ : Worker)]) ++ s.finished).map startedKey ++ [])
      refine staffed.trans ?_
      rw [List.append_nil, List.append_assoc, List.map_append, List.map_append, List.map_append, List.append_assoc]
      exact (List.perm_append_comm).append_left _

/-- A turn that does not raise keeps the state sound. -/
theorem advance_sound (sound : Sound config s) (calm : ¬ Raises reply s.point) :
    Sound config (advance config s reply) := by
  obtain ⟨balanced, supplied⟩ := sound
  unfold advance
  cases point : s.point with
  | ended =>
    rw [point] at supplied
    exact supplied.elim
  | handling duties item generator =>
    rw [point] at balanced supplied calm
    cases named : taskName reply item with
    | error e => exact absurd ⟨e, named⟩ calm
    | ok name => exact handle_sound balanced supplied.2 named
  | fetching duties generator =>
    rw [point] at balanced supplied calm
    cases answer : reply.answer with
    | error e => exact absurd ⟨e, answer⟩ calm
    | ok value =>
      exact afterNext_sound balanced duties (Runs.Next.resume_gives s.runtime generator answer) supplied.2
  | counting duties =>
    rw [point] at balanced calm
    unfold count
    cases counted : reply.stats with
    | error e => exact absurd ⟨e, counted⟩ calm
    | ok => exact ⟨balanced, trivial⟩
  | starting =>
    rw [point] at balanced calm
    cases answer : reply.answer with
    | error e => exact absurd ⟨e, answer⟩ calm
    | ok => exact top_sound balanced
  | warning =>
    rw [point] at balanced calm
    have none : s.expiredRunners = [] := balanced.expired
    cases answer : reply.answer with
    | error e => exact absurd ⟨e, answer⟩ calm
    | ok =>
      dsimp only
      rw [none]
      exact requeue_sound balanced 0
  | requeueing index =>
    rw [point] at balanced calm
    have none : s.expiredRunners = [] := balanced.expired
    cases answer : reply.answer with
    | error e => exact absurd ⟨e, answer⟩ calm
    | ok =>
      dsimp only
      rw [none, List.drop_nil]
      exact requeue_sound balanced index
  | waiting =>
    rw [point] at balanced calm
    cases answer : reply.answer with
    | error e => exact absurd ⟨e, answer⟩ calm
    | ok => exact wait_sound balanced
  | logging duties =>
    rw [point] at balanced calm
    cases answer : reply.answer with
    | error e => exact absurd ⟨e, answer⟩ calm
    | ok => exact fetch_sound balanced duties
  | reporting duties =>
    rw [point] at balanced calm
    cases answer : reply.answer with
    | error e => exact absurd ⟨e, answer⟩ calm
    | ok => exact sweep_sound balanced duties

/-- A turn that raises leaves the loop. -/
theorem advance_ends (supplied : Supplied s.runners s.point) (raises : Raises reply s.point) :
    isEnded (advance config s reply).point := by
  unfold advance
  cases point : s.point with
  | ended =>
    rw [point] at raises
    exact raises.elim
  | handling duties item generator =>
    rw [point] at raises
    obtain ⟨e, named⟩ := raises
    unfold handle
    dsimp only
    split
    · trivial
    · rw [named]
      trivial
  | fetching duties generator =>
    rw [point] at supplied raises
    obtain ⟨e, answer⟩ := raises
    have raised := Runs.Next.resume_raises (s := s.runtime) supplied.1 answer
    show isEnded (afterNext config s reply duties (Runs.Next.resume s.runtime generator reply.toReply)).point
    unfold afterNext
    rw [raised]
    trivial
  | counting =>
    rw [point] at raises
    obtain ⟨e, counted⟩ := raises
    unfold count
    rw [counted]
    trivial
  | starting | warning | requeueing | waiting | logging | reporting =>
    rw [point] at raises
    obtain ⟨e, answer⟩ := raises
    rw [answer]
    trivial

/-- A task that is done gives its token back: the queue has room for it. -/
theorem cleanup_sound (sound : Sound config s) (awaits : s.point.awaits = true) {index : Nat} {worker : Worker}
    (stands : s.workers[index]? = some worker) (outcome : WorkerOutcome) :
    Sound config (cleanup config s outcome index worker) := by
  obtain ⟨⟨tokens, expired, staffed⟩, supplied⟩ := sound
  have split : s.workers.Perm (worker :: s.workers.eraseIdx index) := by
    obtain ⟨inside, rfl⟩ := List.getElem?_eq_some_iff.mp stands
    exact (List.getElem_cons_eraseIdx_perm inside).symm
  have room : isFull config s = false := by
    have all := tokens.length_eq
    have busy := split.length_eq
    rw [List.length_append, List.length_map, List.length_range] at all
    rw [List.length_cons] at busy
    have here : s.ledger.runners.length = s.runners.length := rfl
    have there : s.ledger.workers.length = s.workers.length := rfl
    simp only [isFull, Bool.and_eq_false_iff, decide_eq_false_iff_not]
    omega
  have settled : inHand s.point = [] := by
    cases point : s.point with
    | handling | counting => rw [point] at awaits; cases awaits
    | _ => rfl
  have tokens' : ((s.runners ++ [worker.runner]) ++ (s.workers.eraseIdx index).map Worker.runner).Perm
      (List.range config.concurrency) := by
    refine List.Perm.trans ?_ tokens
    rw [List.append_assoc]
    exact (split.map Worker.runner).symm.append_left _
  have staffed' : (s.marked.map markedKey).Perm
      ((s.workers.eraseIdx index ++ (s.finished ++ [worker])).map startedKey ++ inHand s.point) := by
    refine staffed.trans (List.Perm.append_right _ (List.Perm.map _ ?_))
    have moved : (worker :: s.workers.eraseIdx index ++ s.finished).Perm
        (s.workers.eraseIdx index ++ (s.finished ++ [worker])) := by
      rw [← List.append_assoc]
      exact (List.perm_append_singleton _ _).symm
    exact (split.append_right _).trans moved
  have supplied' : Supplied (s.runners ++ [worker.runner]) s.point := by
    cases point : s.point with
    | handling | counting => rw [point] at awaits; cases awaits
    | ended => rw [point] at supplied; exact supplied.elim
    | fetching duties generator =>
      rw [point] at supplied
      exact ⟨supplied.1, supplied.2.trans (List.length_append ▸ Nat.le_add_right _ _)⟩
    | _ => trivial
  have returned : isFull config { s with
      workers := s.workers.eraseIdx index, finished := s.finished ++ [worker] } = false := room
  unfold cleanup
  dsimp only
  rw [returned]
  split
  · exact ⟨⟨tokens', expired, staffed'⟩, supplied'⟩
  · exact ⟨⟨tokens', expired, staffed'⟩, supplied'⟩

end Turns

end RunQueue

end InmemRuntime
