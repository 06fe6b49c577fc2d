import InmemRuntime.NextWork
import InmemRuntime.PruneHistory
import InmemRuntime.RunCalls

namespace InmemRuntime

/-- No thread has two running runs in the store. -/
def SingleRunning (s : Runtime) : Prop :=
  ∀ r ∈ s.runs.rows, ∀ r' ∈ s.runs.rows, (s.runs.get r).isRunning = true → (s.runs.get r').isRunning = true →
    (s.runs.get r).threadId = (s.runs.get r').threadId → r = r'

instance (s : Runtime) : Decidable (SingleRunning s) :=
  inferInstanceAs (Decidable (∀ r ∈ s.runs.rows, ∀ r' ∈ s.runs.rows, _ → _ → _ → r = r'))

/-- How often the run was handed out, in the history and before it. -/
def timesHandedOut (before : Dict (Option Uuid) Nat) (h : RunHistory) (runId : Option Uuid) : Nat :=
  (before.get? runId).getD 0 + (h.handedOut.filter (fun item => item.run.runId = runId)).length

/-- The run is of the snapshot, its status has not changed since, and it is the
earliest of those of its thread. -/
structure IsEarliest (h : RunHistory) (snapshot : List Nat) (since r : Nat) : Prop where
  listed : r ∈ snapshot
  unchanged : r ∉ h.changed.drop since
  earliest : ∀ i ∈ snapshot, (h.runtime.runs.get i).threadId = (h.runtime.runs.get r).threadId →
    i ∉ h.changed.drop since → Runs.createdKey (h.runtime.runs.get r) ≤ Runs.createdKey (h.runtime.runs.get i)

/-- No run that has been passed over, and could be handed out now, is of the thread
of a later one that is still ahead; and what is ahead and could be handed out has
been pending all the time. -/
structure Blocked (h : RunHistory) (holding : Runs.Holding) (since : Nat) : Prop where
  passed : ∀ i ∈ holding.passed, Runs.Next.Free h.runtime i → i ∉ h.changed.drop since →
    ∀ j ∈ holding.remaining, (h.runtime.runs.get j).isPending = true →
      (h.runtime.runs.get i).threadId = (h.runtime.runs.get j).threadId →
      Runs.createdKey (h.runtime.runs.get j) ≤ Runs.createdKey (h.runtime.runs.get i)
  ahead : ∀ j ∈ holding.remaining, Runs.Next.Free h.runtime j → j ∉ h.changed.drop since

/-- So it is when a call of `next` goes on with its snapshot. -/
def PassedBlocked (h : RunHistory) (p : Runs.Next) (since : Nat) : Prop :=
  ∀ holding, p.held? = some holding → Blocked h holding since

/-- What every turn does to the records that there are. -/
structure RecordsStep (h h' : RunHistory) : Prop where
  size : h.runtime.runs.size ≤ h'.runtime.runs.size
  threadId : ∀ r, h.runtime.runs.Holds r → (h'.runtime.runs.get r).threadId = (h.runtime.runs.get r).threadId
  createdKey : ∀ r, h.runtime.runs.Holds r →
    Runs.createdKey (h'.runtime.runs.get r) = Runs.createdKey (h.runtime.runs.get r)
  changed : ∃ added, h'.changed = h.changed ++ added ∧
    ∀ r, h.runtime.runs.Holds r → r ∉ added → (h'.runtime.runs.get r).status = (h.runtime.runs.get r).status

theorem statusChanges_complete {s s' : Runtime} {r : Nat} (held : s.runs.Holds r) (other : r ∉ statusChanges s s') :
    (s'.runs.get r).status = (s.runs.get r).status := by
  by_contra differs
  exact other (List.mem_filter.mpr ⟨List.mem_range.mpr held, decide_eq_true differs⟩)

theorem RecordsStep.of_runsStep {h : RunHistory} {s' : Runtime} {written removed : Nat → Prop}
    (step : RunsStep written removed h.runtime s') (items : List Runs.HandOut) (reports : Bool) :
    RecordsStep h (h.record s' items reports) where
  size := step.size
  threadId := step.threadId
  createdKey := step.createdKey
  changed := ⟨_, rfl, fun _ held other => statusChanges_complete held other⟩

theorem RecordsStep.of_marks {h : RunHistory} {s' : Runtime} {r : Nat}
    (runs : s'.runs = h.runtime.runs ∨ s'.runs = h.runtime.runs.update r markRunning) (items : List Runs.HandOut)
    (reports : Bool) : RecordsStep h (h.record s' items reports) where
  size := by
    change h.runtime.runs.size ≤ s'.runs.size
    rcases runs with same | marked
    · rw [same]
    · rw [marked]
      exact le_rfl
  threadId i _ := by
    change (s'.runs.get i).threadId = _
    rcases runs with same | marked
    · rw [same]
    · rw [marked, Table.update_get]
      split <;> rfl
  createdKey i _ := by
    change Runs.createdKey (s'.runs.get i) = _
    rcases runs with same | marked
    · rw [same]
    · rw [marked, Table.update_get]
      split <;> rfl
  changed := ⟨_, rfl, fun _ held other => statusChanges_complete held other⟩

/-- A snapshot is in the order of creation, and what has not changed since is pending. -/
structure Snapshot (h : RunHistory) (snapshot : List Nat) (since : Nat) : Prop where
  past : since ≤ h.changed.length
  sorted : snapshot.Pairwise (fun i j =>
    Runs.createdKey (h.runtime.runs.get i) ≤ Runs.createdKey (h.runtime.runs.get j))
  held : ∀ i ∈ snapshot, h.runtime.runs.Holds i
  pending : ∀ i ∈ snapshot, i ∉ h.changed.drop since → (h.runtime.runs.get i).isPending = true

theorem Snapshot.step {h h' : RunHistory} {snapshot : List Nat} {since : Nat} (taken : Snapshot h snapshot since)
    (step : RecordsStep h h') : Snapshot h' snapshot since := by
  obtain ⟨added, changed, unchanged⟩ := step.changed
  constructor
  case past =>
    rw [changed, List.length_append]
    exact Nat.le_add_right_of_le taken.past
  case sorted =>
    refine taken.sorted.imp_of_mem (fun {i j} here there ordered => ?_)
    rwa [step.createdKey i (taken.held i here), step.createdKey j (taken.held j there)]
  case held => exact fun i member => Nat.lt_of_lt_of_le (taken.held i member) step.size
  case pending =>
    intro i member still
    rw [changed, List.drop_append_of_le_length taken.past, List.mem_append, not_or] at still
    have before := taken.pending i member still.1
    rwa [Run.isPending, unchanged i (taken.held i member) still.2]

/-- The snapshot that `next` takes. -/
theorem snapshot_taken (h : RunHistory) (now : Time) :
    Snapshot h (Runs.pendingRuns h.runtime now) h.changed.length where
  past := le_rfl
  sorted := by
    have transitive : ∀ a b c, decide (Runs.createdKey (h.runtime.runs.get a) ≤ Runs.createdKey (h.runtime.runs.get b)) = true →
        decide (Runs.createdKey (h.runtime.runs.get b) ≤ Runs.createdKey (h.runtime.runs.get c)) = true →
        decide (Runs.createdKey (h.runtime.runs.get a) ≤ Runs.createdKey (h.runtime.runs.get c)) = true :=
      fun a b c first second => decide_eq_true (Int.le_trans (of_decide_eq_true first) (of_decide_eq_true second))
    have sorted := List.pairwise_mergeSort transitive (fun a b => by simpa using Int.le_total _ _)
      (h.runtime.runs.rows.filter (fun r => Runs.isDue now (h.runtime.runs.get r)))
    exact sorted.imp (fun ordered => of_decide_eq_true ordered)
  held := fun i member => Table.holds_of_mem (Runs.mem_pendingRuns.mp member).1
  pending := fun i member _ => (Bool.and_eq_true_iff.mp (Runs.mem_pendingRuns.mp member).2).1

section Steps

variable {base : BaseSaver} {serde : Serde} {before : Dict (Option Uuid) Nat} {h : RunHistory} {k : RunCall} {reply : Reply}

theorem RunsStep.singleRunning {s s' : Runtime} {written removed : Nat → Prop} (step : RunsStep written removed s s')
    (single : SingleRunning s) : SingleRunning s' := by
  have old : ∀ r ∈ s'.runs.rows, (s'.runs.get r).isRunning = true →
      r ∈ s.runs.rows ∧ (s.runs.get r).isRunning = true ∧ (s'.runs.get r).threadId = (s.runs.get r).threadId := by
    intro r member running
    have held : s.runs.Holds r := by
      by_contra absent
      rw [step.new r member absent] at running
      cases running
    exact ⟨step.old r member held, step.starts r held running, step.threadId r held⟩
  intro r member r' member' running running' same
  obtain ⟨listed, ran, thread⟩ := old r member running
  obtain ⟨listed', ran', thread'⟩ := old r' member' running'
  exact single r listed r' listed' ran ran' (thread.symm.trans (same.trans thread'))

theorem idle_of_hasRunning {s : Runtime} {threadId : Uuid} (idle : Runs.hasRunning s threadId = false) {r : Nat}
    (listed : r ∈ s.runs.rows) (running : (s.runs.get r).isRunning = true) : (s.runs.get r).threadId ≠ threadId := by
  intro same
  rw [Runs.hasRunning, List.any_eq_false] at idle
  refine idle _ (Table.mem_values.mpr ⟨r, listed, rfl⟩) ?_
  rw [Bool.and_eq_true, decide_eq_true_eq]
  exact ⟨same, running⟩

/-- A run is handed out only while its thread has no running run. -/
theorem singleRunning_hands {s s' : Runtime} {r : Nat} (single : SingleRunning s) (free : Runs.Next.Free s r)
    (runs : s'.runs = s.runs.update r markRunning) : SingleRunning s' := by
  intro i member j member' running running' same
  rw [runs] at member member' running running' same
  rw [Table.update_rows] at member member'
  have apart : ∀ {a}, a ∈ s.runs.rows → a ≠ r → ((s.runs.update r markRunning).get a).isRunning = true →
      (s.runs.get a).isRunning = true ∧ (s.runs.get a).threadId ≠ (s.runs.get r).threadId := by
    intro a listed other ran
    rw [Table.update_get_of_ne _ other] at ran
    exact ⟨ran, idle_of_hasRunning free.idle listed ran⟩
  by_cases here : i = r
  · by_cases there : j = r
    · rw [here, there]
    · rw [here, Table.update_get_self, Table.update_get_of_ne _ there] at same
      exact absurd same.symm (apart member' there running').2
  · by_cases there : j = r
    · rw [there, Table.update_get_self, Table.update_get_of_ne _ here] at same
      exact absurd same (apart member here running).2
    · rw [Table.update_get_of_ne _ here, Table.update_get_of_ne _ there] at same
      exact single i member j member' (apart member here running).1 (apart member' there running').1 same

/-- One run at a time on a thread, and every hand-out counted. -/
structure Exclusive (before : Dict (Option Uuid) Nat) (h : RunHistory) : Prop where
  single : SingleRunning h.runtime
  counted : ∀ runId, (h.runtime.retryCounter.get? runId).getD 0 = timesHandedOut before h runId

/-- Where a call stands. -/
def Standing (h : RunHistory) : RunCall → Prop
  | .next p since => ∀ holding, p.held? = some holding → Snapshot h holding.pendingRuns since
  | k => k.Idle

theorem Standing.idle (stands : Standing h k) : k.Idle := by
  cases k with
  | next => trivial
  | _ => exact stands

theorem Standing.step {h' : RunHistory} (stands : Standing h k) (step : RecordsStep h h') : Standing h' k := by
  cases k with
  | next p since => exact fun holding held => (stands holding held).step step
  | _ => exact stands

/-- The snapshot with which a turn goes on. -/
theorem Standing.goesOn {p : Runs.Next} {since : Nat} (stands : Standing h (.next p since)) {holding : Runs.Holding}
    (goesOn : p.goesOn? h.runtime = some holding) : Snapshot h holding.pendingRuns (h.since p since) := by
  cases p with
  | called | sleeping => cases goesOn
  | warning held | yielding held => exact stands holding goesOn
  | locking limit now =>
    simp only [Runs.Next.goesOn?, Option.ite_none_left_eq_some, Option.some.injEq] at goesOn
    obtain ⟨_, rfl⟩ := goesOn
    exact snapshot_taken h now

/-- Each hand-out counts one up. -/
theorem counted_hands {s' : Runtime} {r : Nat}
    (counted : ∀ runId, (h.runtime.retryCounter.get? runId).getD 0 = timesHandedOut before h runId)
    (counter : s'.retryCounter = (Runs.increment h.runtime (h.runtime.runs.get r).runId).2.retryCounter)
    (runId : Option Uuid) : (s'.retryCounter.get? runId).getD 0 = timesHandedOut before
      (h.record s' [⟨r, markRunning (h.runtime.runs.get r), (Runs.increment h.runtime (h.runtime.runs.get r).runId).1⟩]
        false) runId := by
  have own : (markRunning (h.runtime.runs.get r)).runId = (h.runtime.runs.get r).runId := rfl
  have earlier := counted runId
  rw [timesHandedOut] at earlier
  rw [counter, timesHandedOut, RunHistory.record, List.filter_append, List.length_append, ← Nat.add_assoc, ← earlier]
  simp only [Runs.increment, Dict.get?_set]
  by_cases same : runId = (h.runtime.runs.get r).runId
  · rw [if_pos same, List.filter_cons_of_pos (by simp [own, same]), Option.getD_some, same]
    rfl
  · rw [if_neg same, List.filter_cons_of_neg (by simp [own, Ne.symm same])]
    rfl

theorem exclusive_next {p : Runs.Next} {since : Nat} (exclusive : Exclusive before h) (stands : Standing h (.next p since)) :
    Exclusive before ((runCalls base serde).resume h (.next p since) reply).1 ∧
      (∀ q ∈ ((runCalls base serde).resume h (.next p since) reply).2.points,
        Standing ((runCalls base serde).resume h (.next p since) reply).1 q) ∧
      RecordsStep h ((runCalls base serde).resume h (.next p since) reply).1 := by
  have goes : ((runCalls base serde).resume h (.next p since) reply) =
      (h.record (Runs.Next.resume h.runtime p reply).1 (Runs.handedOutBy (Runs.Next.resume h.runtime p reply).2) false,
        (Runs.Next.resume h.runtime p reply).2.map (.next · (h.since p since)) id) := rfl
  rw [goes]
  have hands := Runs.Next.resume_hands h.runtime p reply
  generalize Runs.Next.resume h.runtime p reply = out at hands ⊢
  cases hands with
  | nobody runs counter nobody points =>
    have step : RecordsStep h (h.record out.1 (Runs.handedOutBy out.2) false) := .of_marks (r := 0) (Or.inl runs) _ _
    refine ⟨⟨?_, ?_⟩, ?_, step⟩
    · intro r member r' member' running running' same
      have before := exclusive.single
      rw [SingleRunning, ← runs] at before
      exact before r member r' member' running running' same
    · intro runId
      rw [nobody]
      change (out.1.retryCounter.get? runId).getD 0 = timesHandedOut before (h.record out.1 [] false) runId
      rw [counter, exclusive.counted, timesHandedOut, timesHandedOut]
      simp [RunHistory.record]
    · intro j member
      rw [Turn.points_map] at member
      obtain ⟨q, left, rfl⟩ := List.mem_map.mp member
      intro held holds
      obtain ⟨holding, goesOn, same⟩ := points q left held holds
      rw [same]
      exact (stands.goesOn goesOn).step step
  | @hands holding _ _ s' r goesOn _ _ free runs counter =>
    have step : RecordsStep h (h.record s' [⟨r, markRunning (h.runtime.runs.get r), (Runs.increment h.runtime (h.runtime.runs.get r).runId).1⟩] false) :=
      .of_marks (Or.inr runs) _ _
    refine ⟨⟨singleRunning_hands exclusive.single free runs, ?_⟩, ?_, step⟩
    · intro runId
      exact counted_hands exclusive.counted counter runId
    · intro j member
      rw [List.mem_singleton.mp member]
      intro held holds
      cases holds
      exact (stands.goesOn goesOn).step step

theorem exclusive_other (other : k.operation ≠ .next) (exclusive : Exclusive before h) (stands : Standing h k) :
    Exclusive before ((runCalls base serde).resume h k reply).1 ∧
      (∀ q ∈ ((runCalls base serde).resume h k reply).2.points, Standing ((runCalls base serde).resume h k reply).1 q) ∧
      RecordsStep h ((runCalls base serde).resume h k reply).1 := by
  have step : RunsStep (k.Writes h.runtime reply) (k.Removes h.runtime) h.runtime (k.resume base serde h.runtime reply).1 :=
    RunCall.resume_step stands.idle other
  have goes : (runCalls base serde).resume h k reply =
      (h.record (k.resume base serde h.runtime reply).1 [] k.reports, (k.resume base serde h.runtime reply).2) := by
    cases k with
    | next => exact absurd rfl other
    | _ => rfl
  have points : ∀ q ∈ ((runCalls base serde).resume h k reply).2.points, q.Idle ∧ q.operation = k.operation :=
    RunCall.turn_points stands.idle
  rw [goes] at points ⊢
  refine ⟨⟨step.singleRunning exclusive.single, fun runId => ?_⟩, fun q member => ?_, .of_runsStep step _ _⟩
  · change ((k.resume base serde h.runtime reply).1.retryCounter.get? runId).getD 0 = _
    rw [step.retryCounter, exclusive.counted, timesHandedOut, timesHandedOut, RunHistory.record, List.append_nil]
  · obtain ⟨idle, same⟩ := points q member
    cases q with
    | next => exact absurd same.symm other
    | _ => exact idle

theorem exclusive_turn (exclusive : Exclusive before h) (stands : Standing h k) :
    Exclusive before ((runCalls base serde).resume h k reply).1 ∧
      (∀ q ∈ ((runCalls base serde).resume h k reply).2.points, Standing ((runCalls base serde).resume h k reply).1 q) ∧
      RecordsStep h ((runCalls base serde).resume h k reply).1 := by
  by_cases isNext : k.operation = .next
  · cases k with
    | next p since => exact exclusive_next exclusive stands
    | _ => cases isNext
  · exact exclusive_other isNext exclusive stands

theorem annotated_of_reaches {s : Runtime} (single : SingleRunning s) {l : EventLoop RunHistory RunCall}
    (reach : (runCalls base serde).Reaches Coroutines.unrestricted ⟨.load s, []⟩ l) :
    Coroutines.Annotated (Exclusive s.retryCounter) Standing l := by
  refine reach.annotated (fun {h k} _ fresh => ?_) (fun exclusive stands others _ => ?_)
    ⟨⟨single, fun runId => rfl⟩, fun k member => absurd member List.not_mem_nil⟩
  · have idle := RunCall.idle_of_isFresh fresh
    cases k with
    | next p since =>
      cases p with
      | called limit => exact fun holding held => by cases held
      | _ => cases fresh
    | _ => exact idle
  · obtain ⟨after, points, step⟩ := exclusive_turn exclusive stands
    exact ⟨after, points, fun j member => (others j member).step step⟩

/-- The condition, for the snapshot with which the turn goes on. -/
theorem PassedBlocked.goesOn {p : Runs.Next} {since : Nat} (blocked : PassedBlocked h p since) {holding : Runs.Holding}
    (goesOn : p.goesOn? h.runtime = some holding) : Blocked h holding (h.since p since) := by
  cases p with
  | called | sleeping => cases goesOn
  | warning held | yielding held => exact blocked holding goesOn
  | locking limit now =>
    simp only [Runs.Next.goesOn?, Option.ite_none_left_eq_some, Option.some.injEq] at goesOn
    obtain ⟨_, rfl⟩ := goesOn
    have unchanged : h.changed.drop (h.since (.locking limit now) since) = [] := List.drop_length
    refine ⟨fun i member => absurd member List.not_mem_nil, fun j _ _ => ?_⟩
    rw [unchanged]
    exact List.not_mem_nil

/-- What has been passed over in a turn is not the thread's any more, or not pending. -/
theorem isEarliest_of_passedBlocked {p : Runs.Next} {since : Nat} (stands : Standing h (.next p since))
    (blocked : PassedBlocked h p since) {holding : Runs.Holding} {front after : List Nat} {r : Nat}
    (goesOn : p.goesOn? h.runtime = some holding) (rest : holding.remaining = front ++ r :: after)
    (skips : ∀ i ∈ front, Runs.Next.Skips h.runtime i) (free : Runs.Next.Free h.runtime r) :
    IsEarliest h holding.pendingRuns (h.since p since) r := by
  have taken := stands.goesOn goesOn
  obtain ⟨after', split⟩ := holding.split rest
  have listed : r ∈ holding.pendingRuns := split ▸ List.mem_append_right _ List.mem_cons_self
  have blocked := blocked.goesOn goesOn
  have ahead : r ∈ holding.remaining := rest ▸ List.mem_append_right _ List.mem_cons_self
  refine ⟨listed, blocked.ahead r ahead free, fun i member same still => ?_⟩
  have pending := taken.pending i member still
  have ordered := taken.sorted
  rw [split] at member ordered
  rcases List.mem_append.mp member with earlier | later
  · rcases List.mem_append.mp earlier with before | here
    · have freeToo : Runs.Next.Free h.runtime i := ⟨pending, same ▸ free.thread, same ▸ free.idle⟩
      exact blocked.passed i before freeToo still r ahead free.pending same
    · rcases skips i here with idle | running
      · rw [pending] at idle
        cases idle
      · rw [same, free.idle] at running
        cases running
  · rcases List.mem_cons.mp later with rfl | behind
    · exact le_rfl
    · exact (List.pairwise_cons.mp (List.pairwise_append.mp ordered).2.1).1 i behind

/-- In every interleaving, no thread has two running runs, a run is handed out with
one more than the number of times it was handed out before, and it is the
earliest of its thread where what was passed over is blocked. -/
theorem next_hands_in_order {s : Runtime} (single : SingleRunning s) {l : EventLoop RunHistory RunCall}
    (reach : (runCalls base serde).Reaches Coroutines.unrestricted ⟨.load s, []⟩ l) :
    SingleRunning l.state.runtime ∧
      ∀ p since, .next p since ∈ l.waiting → ∀ reply, ∀ item ∈ Runs.handedOutBy (Runs.Next.resume l.state.runtime p reply).2,
        (PassedBlocked l.state p since → ∃ holding, p.goesOn? l.state.runtime = some holding ∧
          IsEarliest l.state holding.pendingRuns (l.state.since p since) item.ref) ∧
        item.attempt = timesHandedOut s.retryCounter l.state item.run.runId + 1 := by
  obtain ⟨exclusive, standing⟩ := annotated_of_reaches single reach
  refine ⟨exclusive.single, fun p since waits reply item handed => ?_⟩
  have hands := Runs.Next.resume_hands l.state.runtime p reply
  generalize Runs.Next.resume l.state.runtime p reply = out at hands handed
  cases hands with
  | nobody _ _ nobody =>
    rw [nobody] at handed
    cases handed
  | hands r goesOn rest skips free runs counter =>
    rw [List.mem_singleton.mp handed]
    refine ⟨fun blocked => ⟨_, goesOn, isEarliest_of_passedBlocked (standing _ waits) blocked goesOn rest skips free⟩, ?_⟩
    exact congrArg (· + 1) (exclusive.counted _)

end Steps

section Overtaken

def timedRun (n : Nat) (threadId : Uuid) (status : RunStatus) : Run :=
  { (default : Run) with runId := some ⟨n⟩, threadId := threadId, status := some status, createdAt := some n }

/-- Two runs wait behind a running run of their thread, and between them one on a free thread. -/
def overtakenStore : Runtime :=
  { (default : Runtime) with
    threads := (Table.empty.append { (default : Thread) with threadId := ⟨1⟩ }).append
      { (default : Thread) with threadId := ⟨2⟩ }
    runs := (((Table.empty.append (timedRun 0 ⟨1⟩ .running)).append (timedRun 1 ⟨1⟩ .pending)).append
      (timedRun 2 ⟨2⟩ .pending)).append (timedRun 3 ⟨1⟩ .pending) }

def atTen : Reply := ⟨10, ⟨0⟩, .ok .none⟩

theorem overtakenStore_pendingRuns : Runs.pendingRuns overtakenStore 10 = [1, 2, 3] := by
  have due : overtakenStore.runs.rows.filter (fun r => Runs.isDue 10 (overtakenStore.runs.get r)) = [1, 2, 3] := by decide
  rw [Runs.pendingRuns, due]
  exact List.mergeSort_of_pairwise (by decide)

/-- The turn that takes the snapshot hands out the run between them. -/
theorem overtakenStore_turn : Runs.Next.resume overtakenStore (.locking 3 10) atTen =
    Runs.Next.proceed { overtakenStore with runLocked := true } ⟨[1, 2, 3], 0, 3⟩ := by
  rw [Runs.Next.resume, ← overtakenStore_pendingRuns]
  rfl

/-- The history after it. -/
def betweenHanded : RunHistory :=
  (RunHistory.load overtakenStore).record
    (Runs.Next.proceed { overtakenStore with runLocked := true } ⟨[1, 2, 3], 0, 3⟩).1
    (Runs.handedOutBy (Runs.Next.proceed { overtakenStore with runLocked := true } ⟨[1, 2, 3], 0, 3⟩).2) false

def lockingLoop : EventLoop RunHistory RunCall := ⟨.load overtakenStore, [.next (.locking 3 10) 0]⟩

theorem lockingLoop_reached : (runCalls plainBase deltaSerde).Reaches Coroutines.unrestricted
    ⟨.load overtakenStore, []⟩ lockingLoop := by
  have performed : (runCalls plainBase deltaSerde).performAll ⟨.load overtakenStore, []⟩
      [.call (.next (.called 3) 0), .turn 0 atTen, .turn 0 atTen] = some lockingLoop := rfl
  exact Coroutines.reaches_of_performAll performed

theorem betweenHanded_reached : (runCalls plainBase deltaSerde).Reaches Coroutines.unrestricted
    ⟨.load overtakenStore, []⟩ ⟨betweenHanded, [.next (.yielding ⟨[1, 2, 3], 2, 3⟩) 0]⟩ := by
  have taken := lockingLoop_reached.turn 0 atTen rfl trivial
  have goes : (runCalls plainBase deltaSerde).resume (.load overtakenStore) (.next (.locking 3 10) 0) atTen =
      ((RunHistory.load overtakenStore).record (Runs.Next.resume overtakenStore (.locking 3 10) atTen).1
          (Runs.handedOutBy (Runs.Next.resume overtakenStore (.locking 3 10) atTen).2) false,
        (Runs.Next.resume overtakenStore (.locking 3 10) atTen).2.map (.next · 0) id) := rfl
  have turned : (runCalls plainBase deltaSerde).advance lockingLoop 0 (.next (.locking 3 10) 0) atTen =
      ⟨betweenHanded, [.next (.yielding ⟨[1, 2, 3], 2, 3⟩) 0]⟩ := by
    rw [Coroutines.advance, lockingLoop, goes, overtakenStore_turn]
    rfl
  exact turned ▸ taken

/-- Then the running run ends. -/
def runEnded : EventLoop RunHistory RunCall :=
  ⟨betweenHanded.record (Runs.setStatus betweenHanded.runtime ⟨0⟩ .success 10) [] true,
    [.next (.yielding ⟨[1, 2, 3], 2, 3⟩) 0]⟩

theorem runEnded_reached :
    (runCalls plainBase deltaSerde).Reaches Coroutines.unrestricted ⟨.load overtakenStore, []⟩ runEnded := by
  have asked : (runCalls plainBase deltaSerde).Reaches Coroutines.unrestricted ⟨.load overtakenStore, []⟩
      ⟨betweenHanded, [.next (.yielding ⟨[1, 2, 3], 2, 3⟩) 0, .setStatus ⟨0⟩ .success]⟩ :=
    betweenHanded_reached.call rfl
  exact asked.turn 1 atTen rfl trivial

theorem overtakenStore_single : SingleRunning overtakenStore := by decide

/-- The run between them is the earliest of its thread, and handed out for the first time. -/
theorem next_hands_in_order_between :
    ∃ item ∈ Runs.handedOutBy (Runs.Next.resume lockingLoop.state.runtime (.locking 3 10) atTen).2,
      (∃ holding, Runs.Next.goesOn? lockingLoop.state.runtime (.locking 3 10) = some holding ∧
        IsEarliest lockingLoop.state holding.pendingRuns 0 item.ref) ∧ item.attempt = 1 := by
  have handed : ⟨2, markRunning (timedRun 2 ⟨2⟩ .pending), 1⟩ ∈
      Runs.handedOutBy (Runs.Next.resume lockingLoop.state.runtime (.locking 3 10) atTen).2 := by
    rw [show lockingLoop.state.runtime = overtakenStore from rfl, overtakenStore_turn]
    exact List.mem_singleton_self _
  refine ⟨_, handed, ?_⟩
  obtain ⟨earliest, attempt⟩ := (next_hands_in_order overtakenStore_single lockingLoop_reached).2 (.locking 3 10) 0
    List.mem_cons_self atTen _ handed
  exact ⟨earliest (fun holding held => by cases held), attempt⟩

/-- The later one of the two overtakes the earlier one, which was passed over while
their thread had a running run. -/
theorem next_hands_out_of_order :
    ¬ ∀ (base : BaseSaver) (serde : Serde) (s : Runtime) (l : EventLoop RunHistory RunCall), SingleRunning s →
      (runCalls base serde).Reaches Coroutines.unrestricted ⟨.load s, []⟩ l →
        ∀ p since, .next p since ∈ l.waiting → ∀ reply,
          ∀ item ∈ Runs.handedOutBy (Runs.Next.resume l.state.runtime p reply).2,
            ∃ holding, p.goesOn? l.state.runtime = some holding ∧
              IsEarliest l.state holding.pendingRuns (l.state.since p since) item.ref := by
  intro inOrder
  have handed : Runs.handedOutBy (Runs.Next.resume runEnded.state.runtime (.yielding ⟨[1, 2, 3], 2, 3⟩) atTen).2 =
      [⟨3, markRunning (timedRun 3 ⟨1⟩ .pending), 1⟩] := rfl
  obtain ⟨holding, goesOn, earliest⟩ := inOrder plainBase deltaSerde overtakenStore runEnded overtakenStore_single
    runEnded_reached _ 0 List.mem_cons_self atTen _ (handed ▸ List.mem_cons_self)
  cases goesOn
  have first := earliest.earliest 1 (by decide) rfl (by decide)
  exact absurd first (by decide)

end Overtaken

end InmemRuntime
