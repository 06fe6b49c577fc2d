import InmemRuntime.Lib.Projection
import InmemRuntime.StoreSweeper

namespace InmemRuntime

namespace SweptStore

/-- The task at `i` exists and is not done. -/
def Live (s : SweptStore) (i : Nat) : Prop := ∃ task, s.sweepers[i]? = some task ∧ task.isLive = true

/-- A task that is over stays so. -/
structure Later (task task' : SweeperTask) : Prop where
  live : task'.isLive = true → task.isLive = true
  gone : task.isLive = false → task'.point = task.point

/-- No task is made and none is forgotten. -/
structure Tends (s s' : SweptStore) : Prop where
  registered : s'.ttlSweeperTask = s.ttlSweeperTask
  config : s'.ttlConfig = s.ttlConfig
  event : s.stopEvent = true → s'.stopEvent = true
  tasks : ∀ (i : Nat) task, s.sweepers[i]? = some task → ∃ task', s'.sweepers[i]? = some task' ∧ Later task task'
  length : s'.sweepers.length = s.sweepers.length

section Turns

variable {s s' : SweptStore} {i : Nat}

theorem Later.refl (task : SweeperTask) : Later task task := ⟨id, fun _ => rfl⟩

theorem later_notify (task : SweeperTask) : Later task task.notify := by
  obtain ⟨interval, point, requested⟩ := task
  cases point <;> exact ⟨fun _ => by simp_all [SweeperTask.notify, SweeperTask.isLive], fun gone => by cases gone <;> rfl⟩

theorem later_goTo {task : SweeperTask} (live : task.isLive = true) (point : SweeperPoint) : Later task (task.goTo point) :=
  ⟨fun _ => live, fun gone => by rw [live] at gone; cases gone⟩

theorem live_iff_of_liveTask : s.liveTask = some i ↔ s.ttlSweeperTask = some i ∧ s.Live i := by
  rw [liveTask, Option.filter_eq_some_iff, Live]
  cases s.sweepers[i]? <;> simp

theorem Tends.same (registered : s'.ttlSweeperTask = s.ttlSweeperTask) (config : s'.ttlConfig = s.ttlConfig)
    (event : s.stopEvent = true → s'.stopEvent = true) (tasks : s'.sweepers = s.sweepers) : Tends s s' :=
  ⟨registered, config, event, fun i task at_i => ⟨task, tasks ▸ at_i, .refl task⟩, by rw [tasks]⟩

theorem Tends.live (tends : Tends s s') (live : s'.Live i) : s.Live i := by
  obtain ⟨task', at_i, isLive⟩ := live
  obtain ⟨inside, _⟩ := List.getElem?_eq_some_iff.mp at_i
  rw [tends.length] at inside
  have old := List.getElem?_eq_getElem inside
  obtain ⟨task'', at_i', later⟩ := tends.tasks i _ old
  rw [Option.some.inj (at_i.symm.trans at_i')] at isLive
  exact ⟨_, old, later.live isLive⟩

/-- A turn that moves one task. -/
theorem tends_update {f : SweeperTask → SweeperTask} (later : ∀ task, s.sweepers[i]? = some task → Later task (f task))
    (store : DiskBackedInMemStore) : Tends s ({ s with store := store }.update i f) := by
  refine ⟨rfl, rfl, id, fun j task at_j => ?_, List.length_modify ..⟩
  rw [update, List.getElem?_modify, at_j, Option.map_eq_map, Option.map_some]
  refine ⟨_, rfl, ?_⟩
  split
  · rename_i same
    subst same
    exact later task at_j
  · exact .refl task

theorem later_cancel (task : SweeperTask) : Later task task.cancel := ⟨id, fun _ => rfl⟩

theorem tends_cancel (s : SweptStore) (i : Nat) : Tends s (s.update i SweeperTask.cancel) :=
  tends_update (fun task _ => later_cancel task) s.store

end Turns

section Loop

variable {base : InMemoryStore} {estimate : PickleSize} {s : SweptStore} {i : Nat} {task : SweeperTask}

theorem loopHead_eq (s : SweptStore) (i : Nat) :
    (s.loopHead i).1 = s.update i (SweeperTask.goTo (if s.stopEvent then .ended else .waiting false)) := by
  unfold loopHead
  split <;> rfl

/-- How a turn of a sweeper ends. -/
def OfLoop (i : Nat) (turn : Turn SweptCall (Except PyError SweptOutcome)) : Prop :=
  turn = .suspended (.loop i) ∨ turn = .finished (.ok .gone)

theorem OfLoop.points {turn : Turn SweptCall (Except PyError SweptOutcome)} (ofLoop : OfLoop i turn) :
    ∀ p ∈ turn.points, p = .loop i := by
  rcases ofLoop with rfl | rfl
  · exact List.forall_mem_singleton.mpr rfl
  · exact List.forall_mem_nil _

theorem loopHead_ofLoop (s : SweptStore) (i : Nat) : OfLoop i (s.loopHead i).2 := by
  unfold loopHead
  split
  · exact .inr rfl
  · exact .inl rfl

theorem tends_goTo (at_i : s.sweepers[i]? = some task) (live : task.isLive = true) (point : SweeperPoint)
    (store : DiskBackedInMemStore) : Tends s ({ s with store := store }.update i (SweeperTask.goTo point)) :=
  tends_update (fun task' at_i' => by
    rw [at_i] at at_i'
    obtain rfl := Option.some.inj at_i'
    exact later_goTo live point) store

/-- A turn of a sweeper that sweeps: no operation holds the lock, and the sweeper
goes on from the head of its loop. -/
structure Sweeping (s : SweptStore) (i : Nat) (now : Time) (out : SweptTurn) : Prop where
  live : s.Live i
  free : s.store.operationLocked = false
  head : out = { s with store := (s.store.sweepTtl now).1 }.loopHead i

theorem sweepOnce_cases (at_i : s.sweepers[i]? = some task) (live : task.isLive = true) (reply : SweptReply) :
    s.sweepOnce base estimate i reply = (s.update i (SweeperTask.goTo .sweeping), .suspended (.loop i)) ∨
      Sweeping s i reply.readAt (s.sweepOnce base estimate i reply) := by
  unfold sweepOnce
  rw [DiskBackedInMemStore.resume]
  cases locked : s.store.operationLocked with
  | true => exact .inl rfl
  | false => exact .inr ⟨⟨task, at_i, live⟩, locked, rfl⟩

variable (base estimate) in
/-- A turn of a sweeper leaves the store as it is, or it sweeps. -/
theorem sweepLoop_cases (s : SweptStore) (i : Nat) (reply : SweptReply) :
    (Tends s (s.sweepLoop base estimate i reply).1 ∧ (s.sweepLoop base estimate i reply).1.store = s.store ∧
        OfLoop i (s.sweepLoop base estimate i reply).2) ∨
      Sweeping s i reply.readAt (s.sweepLoop base estimate i reply) := by
  have stays (outcome) (gone : outcome = SweptOutcome.gone) : Tends s (returned s outcome : SweptTurn).1 ∧
      (returned s outcome : SweptTurn).1.store = s.store ∧ OfLoop i (returned s outcome : SweptTurn).2 :=
    ⟨.same rfl rfl id rfl, rfl, .inr (by rw [gone]; rfl)⟩
  unfold sweepLoop
  cases at_i : s.sweepers[i]? with
  | none => exact .inl (stays _ rfl)
  | some task =>
    have ends (live : task.isLive = true) (point : SweeperPoint) :
        Tends s (s.ends i point).1 ∧ (s.ends i point).1.store = s.store ∧ OfLoop i (s.ends i point).2 :=
      ⟨tends_goTo at_i live point s.store, rfl, .inr rfl⟩
    have sweeps (live : task.isLive = true) : _ ∨ Sweeping s i _ (s.sweepOnce base estimate i reply) :=
      sweepOnce_cases at_i live reply
    have locked (live : task.isLive = true) : Tends s (s.update i (SweeperTask.goTo .sweeping)) :=
      tends_goTo at_i live .sweeping s.store
    dsimp only
    cases at_point : task.point with
    | created =>
      have live : task.isLive = true := by rw [SweeperTask.isLive, at_point]; rfl
      dsimp only
      split
      · exact .inl (ends live _)
      · refine .inl ⟨?_, ?_, loopHead_ofLoop s i⟩
        · rw [loopHead_eq]
          exact tends_goTo at_i live _ s.store
        · rw [loopHead_eq, update]
    | waiting notified =>
      have live : task.isLive = true := by rw [SweeperTask.isLive, at_point]; rfl
      dsimp only
      split
      · exact .inl (ends live _)
      · split
        · rcases sweeps live with same | sweeping
          · rw [same]
            exact .inl ⟨locked live, rfl, .inl rfl⟩
          · exact .inr sweeping
        · split
          · exact .inl (ends live _)
          · exact .inl ⟨.same rfl rfl id rfl, rfl, .inl rfl⟩
    | sweeping =>
      have live : task.isLive = true := by rw [SweeperTask.isLive, at_point]; rfl
      dsimp only
      split
      · exact .inl (ends live _)
      · rcases sweeps live with same | sweeping
        · rw [same]
          exact .inl ⟨locked live, rfl, .inl rfl⟩
        · exact .inr sweeping
    | ended => exact .inl (stays _ rfl)
    | unbegun => exact .inl (stays _ rfl)

theorem Sweeping.tends {now : Time} {out : SweptTurn} (sweeping : Sweeping s i now out) : Tends s out.1 := by
  obtain ⟨⟨task, at_i, live⟩, _, rfl⟩ := sweeping
  rw [loopHead_eq]
  exact tends_goTo at_i live _ _

variable (base estimate) in
theorem sweepLoop_tends (s : SweptStore) (i : Nat) (reply : SweptReply) :
    Tends s (s.sweepLoop base estimate i reply).1 ∧ OfLoop i (s.sweepLoop base estimate i reply).2 := by
  rcases sweepLoop_cases base estimate s i reply with ⟨tends, _, ofLoop⟩ | sweeping
  · exact ⟨tends, ofLoop⟩
  · refine ⟨sweeping.tends, ?_⟩
    rw [sweeping.head]
    exact loopHead_ofLoop _ i

end Loop

/-- A call waits for the task at `i`, which is the registered one, unless it is over. -/
def Awaited (s : SweptStore) (i : Nat) : Prop :=
  ∃ task, s.sweepers[i]? = some task ∧
    (task.point = .unbegun ∨ s.ttlSweeperTask = some i ∨ s.ttlSweeperTask = none ∧ task.point = .ended)

structure OneSweeper (s : SweptStore) (waiting : List SweptCall) : Prop where
  registered : ∀ i, s.Live i → s.ttlSweeperTask = some i
  configured : ∀ i, s.Live i → s.ttlConfig.isSome = true
  awaited : ∀ i timeout expired, .stopping i timeout expired ∈ waiting → s.Awaited i

/-- The call waits for a task that has ended. -/
def waitsForEnded (s : SweptStore) : SweptCall → Bool
  | .stopping i _ _ => s.sweepers[i]?.map SweeperTask.point = some .ended
  | _ => false

/-- No sweeper is started between the end of one and the return of a `stop` that waits for it. -/
def Unhurried (s : SweptStore) (others : List SweptCall) (k : SweptCall) (_reply : SweptReply) : Prop :=
  k.isStart = true → ∀ p ∈ others, s.waitsForEnded p = false

section Invariant

variable {base : InMemoryStore} {estimate : PickleSize} {s s' : SweptStore} {i : Nat} {others waiting waiting' : List SweptCall}

theorem Tends.awaited (tends : Tends s s') (awaited : s.Awaited i) : s'.Awaited i := by
  obtain ⟨task, at_i, cases⟩ := awaited
  obtain ⟨task', at_i', later⟩ := tends.tasks i task at_i
  refine ⟨task', at_i', ?_⟩
  rw [tends.registered]
  rcases cases with unbegun | registered | ⟨none, ended⟩
  · exact .inl ((later.gone (by rw [SweeperTask.isLive, unbegun]; rfl)).trans unbegun)
  · exact .inr (.inl registered)
  · exact .inr (.inr ⟨none, (later.gone (by rw [SweeperTask.isLive, ended]; rfl)).trans ended⟩)

theorem OneSweeper.tends (one : OneSweeper s waiting) (tends : Tends s s')
    (stops : ∀ i timeout expired, .stopping i timeout expired ∈ waiting' → s.Awaited i) : OneSweeper s' waiting' where
  registered i live := tends.registered.trans (one.registered i (tends.live live))
  configured i live := tends.config ▸ one.configured i (tends.live live)
  awaited i timeout expired member := tends.awaited (stops i timeout expired member)

/-- A turn that makes no task and waits for none. -/
theorem OneSweeper.turn {k : SweptCall} {points : List SweptCall} (one : OneSweeper s (k :: others)) (tends : Tends s s')
    (stops : ∀ i timeout expired, .stopping i timeout expired ∉ points) : OneSweeper s' (points ++ others) := by
  refine one.tends tends (fun i timeout expired member => ?_)
  rcases List.mem_append.mp member with mine | other
  · exact absurd mine (stops i timeout expired)
  · exact one.awaited i timeout expired (List.mem_cons_of_mem _ other)

theorem OneSweeper.idle (one : OneSweeper s waiting) (idle : s.liveTask = none) : ∀ i, ¬ s.Live i := by
  intro i live
  have task := live_iff_of_liveTask.mpr ⟨one.registered i live, live⟩
  rw [idle] at task
  cases task

theorem OneSweeper.start {minutes : Option PyFloat} {reply : SweptReply} (one : OneSweeper s (.start minutes :: others))
    (unhurried : Unhurried s others (.start minutes) reply) :
    OneSweeper (s.startTtlSweeper minutes).1 ((s.startTtlSweeper minutes).2.points ++ others) := by
  have noStop (outcome) : ∀ i timeout expired, (SweptCall.stopping i timeout expired) ∉
      (Turn.finished outcome : Turn SweptCall (Except PyError SweptOutcome)).points := fun _ _ _ => List.not_mem_nil
  unfold startTtlSweeper
  cases s.ttlConfig with
  | none => exact one.turn (.same rfl rfl id rfl) (noStop _)
  | some config =>
    dsimp only
    cases idle : s.liveTask with
    | some i => exact one.turn (.same rfl rfl id rfl) (noStop _)
    | none =>
      have none := one.idle idle
      dsimp only
      split
      · -- the stop event is cleared before the interval is checked
        exact ⟨fun i live => absurd live (none i), fun i live => absurd live (none i),
          fun i timeout expired member => one.awaited i timeout expired (List.mem_cons_of_mem _ member)⟩
      · refine ⟨fun i live => ?_, fun _ _ => rfl, fun i timeout expired member => ?_⟩
        · obtain ⟨task, at_i, isLive⟩ := live
          rw [List.getElem?_append] at at_i
          split at at_i
          · exact absurd ⟨task, at_i, isLive⟩ (none i)
          · rename_i outside
            rw [List.getElem?_singleton] at at_i
            split at at_i
            · exact congrArg some (by omega)
            · cases at_i
        · simp only [Turn.points_forked, List.mem_append, List.mem_singleton, reduceCtorEq, or_false, false_or] at member
          obtain ⟨task, at_i, cases⟩ := one.awaited i timeout expired (List.mem_cons_of_mem _ member)
          have unended : task.point ≠ .ended := by
            have waits := unhurried rfl _ member
            rw [waitsForEnded, at_i, Option.map_some] at waits
            exact fun ended => of_decide_eq_false waits (congrArg some ended)
          refine ⟨task, ?_, .inl ?_⟩
          · rw [List.getElem?_append_left (List.getElem?_eq_some_iff.mp at_i).1]
            exact at_i
          · rcases cases with unbegun | registered | ⟨_, ended⟩
            · exact unbegun
            · by_contra begun
              refine none i ⟨task, at_i, ?_⟩
              rw [SweeperTask.isLive]
              simp [unended, begun]
            · exact absurd ended unended

theorem stop_tends (s : SweptStore) (timeout : Bool) : Tends s (s.stopTtlSweeper timeout).1 := by
  unfold stopTtlSweeper
  split
  · exact .same rfl rfl id rfl
  · refine ⟨rfl, rfl, fun _ => rfl, fun j task at_j => ⟨task.notify, ?_, later_notify task⟩, List.length_map ..⟩
    rw [List.getElem?_map, at_j, Option.map_some]

theorem close_tends (s : SweptStore) : Tends s s.close.1 := by
  unfold close
  split
  · exact .same rfl rfl id rfl
  · split <;> exact .same rfl rfl id rfl

theorem OneSweeper.stop (one : OneSweeper s (.stop timeout :: others)) :
    OneSweeper (s.stopTtlSweeper timeout).1 ((s.stopTtlSweeper timeout).2.points ++ others) := by
  refine one.tends (stop_tends s timeout) (fun j timeout' expired member => ?_)
  rcases List.mem_append.mp member with mine | other
  · rw [stopTtlSweeper] at mine
    cases there : s.liveTask with
    | none =>
      rw [there] at mine
      cases mine
    | some i =>
      rw [there] at mine
      cases List.mem_singleton.mp mine
      obtain ⟨registered, task, at_i, _⟩ := live_iff_of_liveTask.mp there
      exact ⟨task, at_i, .inr (.inl registered)⟩
  · exact one.awaited j timeout' expired (List.mem_cons_of_mem _ other)

/-- When a task has ended that a call waits for, no other is live. -/
theorem OneSweeper.ended (one : OneSweeper s waiting) {task : SweeperTask} (awaited : s.Awaited i)
    (at_i : s.sweepers[i]? = some task) (ended : task.point = .ended) :
    (∀ j, ¬ s.Live j) ∧ (s.ttlSweeperTask = some i ∨ s.ttlSweeperTask = none) := by
  have gone : ¬ s.Live i := by
    rintro ⟨task', at_i', live⟩
    rw [Option.some.inj (at_i'.symm.trans at_i), SweeperTask.isLive, ended] at live
    cases live
  obtain ⟨task', at_i', cases⟩ := awaited
  rw [Option.some.inj (at_i'.symm.trans at_i), ended] at cases
  rcases cases with unbegun | registered | ⟨none, _⟩
  · cases unbegun
  · refine ⟨fun j live => gone ?_, .inl registered⟩
    rw [Option.some.inj (registered.symm.trans (one.registered j live))]
    exact live
  · exact ⟨fun j live => absurd (none.symm.trans (one.registered j live)) (by simp), .inr none⟩

theorem OneSweeper.await {timeout expired timedOut : Bool} (one : OneSweeper s (.stopping i timeout expired :: others)) :
    OneSweeper (s.awaitTask i timeout expired timedOut).1 ((s.awaitTask i timeout expired timedOut).2.points ++ others) := by
  have mine := one.awaited i timeout expired List.mem_cons_self
  have waits (s' : SweptStore) (tends : Tends s s') (expired' : Bool) :
      OneSweeper s' (.stopping i timeout expired' :: others) := by
    refine one.tends tends (fun j timeout' expired'' member => ?_)
    rcases List.mem_cons.mp member with same | other
    · cases same
      exact mine
    · exact one.awaited j timeout' expired'' (List.mem_cons_of_mem _ other)
  unfold awaitTask
  obtain ⟨task, at_i, _⟩ := id mine
  rw [at_i, Option.map_some]
  split
  · rename_i ended
    have ended := Option.some.inj ended
    obtain ⟨none, registered⟩ := one.ended mine at_i ended
    refine ⟨fun j live => absurd live (none j), fun j live => absurd live (none j), fun j timeout' expired' member => ?_⟩
    obtain ⟨task', at_j, cases⟩ := one.awaited j timeout' expired' (List.mem_cons_of_mem _ member)
    refine ⟨task', at_j, ?_⟩
    rcases cases with unbegun | same | ⟨_, gone⟩
    · exact .inl unbegun
    · rcases registered with mine | none
      · have same : i = j := Option.some.inj (mine.symm.trans same)
        subst same
        rw [Option.some.inj (at_j.symm.trans at_i)]
        exact .inr (.inr ⟨rfl, ended⟩)
      · rw [none] at same
        cases same
    · exact .inr (.inr ⟨rfl, gone⟩)
  · split
    · exact one.turn (.same rfl rfl id rfl) (fun _ _ _ => List.not_mem_nil)
    · exact one.turn (.same rfl rfl id rfl) (fun _ _ _ => List.not_mem_nil)
  · split
    · exact waits _ (tends_cancel s i) true
    · exact waits s (.same rfl rfl id rfl) expired

theorem turn_oneSweeper {k : SweptCall} {reply : SweptReply} (one : OneSweeper s (k :: others))
    (unhurried : Unhurried s others k reply) :
    OneSweeper (resume base estimate s k reply).1 ((resume base estimate s k reply).2.points ++ others) := by
  cases k with
  | start minutes => exact one.start unhurried
  | started i => exact one.turn (.same rfl rfl id rfl) (fun _ _ _ => List.not_mem_nil)
  | stop timeout => exact one.stop
  | stopping i timeout expired => exact one.await
  | close =>
    refine one.turn (close_tends s) (fun i timeout expired member => ?_)
    rw [resume, close] at member
    split at member
    · cases member
    · split at member
      · cases member
      · cases List.mem_singleton.mp member
  | cancelling i => exact one.turn (tends_cancel s i) (fun _ _ _ => List.not_mem_nil)
  | loop i =>
    have turn := sweepLoop_tends base estimate s i reply
    refine one.turn turn.1 (fun j timeout expired member => ?_)
    cases turn.2.points _ member
  | item k =>
    refine one.turn (.same rfl rfl id rfl) (fun j timeout expired member => ?_)
    rw [resume, Turn.points_map] at member
    obtain ⟨_, _, same⟩ := List.mem_map.mp member
    cases same

theorem oneSweeper_init (store : DiskBackedInMemStore) (ttlConfig : Option StoreTtlConfig) : OneSweeper (init store ttlConfig) [] where
  registered i live := by
    obtain ⟨task, at_i, _⟩ := live
    cases at_i
  configured i live := by
    obtain ⟨task, at_i, _⟩ := live
    cases at_i
  awaited i timeout expired member := by cases member

theorem Reaches.oneSweeper {initial l : EventLoop SweptStore SweptCall}
    (reach : (sweptCalls base estimate).Reaches Unhurried initial l) (first : OneSweeper initial.state initial.waiting) :
    OneSweeper l.state l.waiting := by
  refine reach.invariant (P := OneSweeper) (fun same one => ⟨one.registered, one.configured,
    fun i timeout expired member => one.awaited i timeout expired (same.mem_iff.mpr member)⟩) (fun {s waiting k} one new => ?_)
    (fun one unhurried => turn_oneSweeper one unhurried) first
  refine ⟨one.registered, one.configured, fun i timeout expired member => ?_⟩
  rcases List.mem_cons.mp member with same | other
  · rw [← same] at new
    cases new
  · exact one.awaited i timeout expired other

/-- Only a `stop` returns that the sweeper has stopped. -/
theorem stop_of_stopped {k : SweptCall} {reply : SweptReply}
    (stopped : (resume base estimate s k reply).2 = .finished (.ok (.stopped true))) :
    (∃ timeout, k = .stop timeout) ∨ ∃ i timeout expired, k = .stopping i timeout expired := by
  cases k with
  | stop timeout => exact .inl ⟨timeout, rfl⟩
  | stopping i timeout expired => exact .inr ⟨i, timeout, expired, rfl⟩
  | start minutes =>
    rw [resume, startTtlSweeper] at stopped
    split at stopped
    · cases stopped
    · split at stopped
      · cases stopped
      · dsimp only at stopped
        split at stopped <;> cases stopped
  | started i => cases stopped
  | close =>
    rw [resume, close] at stopped
    split at stopped
    · cases stopped
    · split at stopped <;> cases stopped
  | cancelling i => cases stopped
  | loop i =>
    rw [resume] at stopped
    rcases (sweepLoop_tends base estimate s i reply).2 with waits | gone
    · rw [waits] at stopped
      cases stopped
    · rw [gone] at stopped
      cases stopped
  | item k =>
    rw [resume] at stopped
    dsimp only at stopped
    cases turn : (DiskBackedInMemStore.resume base estimate s.store k reply.toStoreReply).2 with
    | finished outcome =>
      rw [turn] at stopped
      cases outcome <;> cases stopped
    | suspended point => rw [turn] at stopped; cases stopped
    | yielded value point => rw [turn] at stopped; cases stopped
    | forked tasks point => rw [turn] at stopped; cases stopped

/-- In every interleaving at most one sweeper is live, the registered one, which
a further `start` returns; when `stop` returns that the sweeper has stopped, none
is live. -/
theorem one_sweeper {store : DiskBackedInMemStore} {ttlConfig : Option StoreTtlConfig} {l : EventLoop SweptStore SweptCall}
    (reach : (sweptCalls base estimate).Reaches Unhurried ⟨init store ttlConfig, []⟩ l) :
    (∀ i, l.state.Live i → l.state.ttlSweeperTask = some i) ∧
      (∀ i minutes, l.state.Live i → l.state.startTtlSweeper minutes = returned l.state (.task i)) ∧
      ∀ k reply, (k ∈ l.waiting ∨ k.isFresh = true) →
        (resume base estimate l.state k reply).2 = .finished (.ok (.stopped true)) →
        ∀ i, ¬ (resume base estimate l.state k reply).1.Live i := by
  have one := Reaches.oneSweeper reach (oneSweeper_init store ttlConfig)
  refine ⟨one.registered, fun i minutes live => ?_, fun k reply waits stopped => ?_⟩
  · obtain ⟨config, there⟩ := Option.isSome_iff_exists.mp (one.configured i live)
    rw [startTtlSweeper, there, live_iff_of_liveTask.mpr ⟨one.registered i live, live⟩]
  · rcases stop_of_stopped stopped with ⟨timeout, rfl⟩ | ⟨i, timeout, expired, rfl⟩
    · rw [resume, stopTtlSweeper] at stopped ⊢
      cases idle : l.state.liveTask with
      | none => exact one.idle idle
      | some i =>
        rw [idle] at stopped
        cases stopped
    · have mine := one.awaited i timeout expired (waits.resolve_right Bool.false_ne_true)
      obtain ⟨task, at_i, _⟩ := id mine
      rw [resume, awaitTask, at_i, Option.map_some] at stopped ⊢
      split at stopped
      · rename_i ended
        exact (one.ended mine at_i (Option.some.inj ended)).1
      · split at stopped <;> cases stopped
      · split at stopped <;> cases stopped

end Invariant

/-- The store as its operations see it. -/
abbrev plain (l : EventLoop SweptStore SweptCall) : EventLoop DiskBackedInMemStore ItemCall :=
  l.project SweptStore.store SweptCall.item?

/-- No `start` has a turn, and no call sweeps. -/
def Unstarted (_s : SweptStore) (_others : List SweptCall) (k : SweptCall) (_reply : SweptReply) : Prop :=
  k.isStart = false ∧ ∀ call, k.item? = some call → call.isSweep = false

/-- No operation sweeps. -/
def Unswept (_s : DiskBackedInMemStore) (_others : List ItemCall) (k : ItemCall) (_reply : StoreReply) : Prop := k.isSweep = false

section LastSweep

variable {base : InMemoryStore} {estimate : PickleSize} {s : SweptStore} {l l' : EventLoop SweptStore SweptCall}

variable (base estimate s) in
/-- Without a `start` no task becomes live and the stop event stays set. -/
theorem turn_winds {k : SweptCall} (reply : SweptReply) (unstarted : k.isStart = false) :
    (∀ i, (resume base estimate s k reply).1.Live i → s.Live i) ∧
      (s.stopEvent = true → (resume base estimate s k reply).1.stopEvent = true) := by
  have tends {s' : SweptStore} (tends : Tends s s') : (∀ i, s'.Live i → s.Live i) ∧ (s.stopEvent = true → s'.stopEvent = true) :=
    ⟨fun _ live => tends.live live, tends.event⟩
  cases k with
  | start minutes => cases unstarted
  | started i => exact ⟨fun _ live => live, id⟩
  | stop timeout => exact tends (stop_tends s timeout)
  | stopping i timeout expired =>
    rw [resume, awaitTask]
    split
    · exact ⟨fun _ live => live, id⟩
    · split <;> exact ⟨fun _ live => live, id⟩
    · split
      · exact tends (tends_cancel s i)
      · exact ⟨fun _ live => live, id⟩
  | close => exact tends (close_tends s)
  | cancelling i => exact tends (tends_cancel s i)
  | loop i => exact tends (sweepLoop_tends base estimate s i reply).1
  | item k => exact ⟨fun _ live => live, id⟩

variable (base estimate s) in
/-- A call that is no operation and no sweeper leaves the store as it is. -/
theorem turn_silent {k : SweptCall} (reply : SweptReply) (other : k.item? = none) (noLoop : ∀ i, k ≠ .loop i) :
    (resume base estimate s k reply).1.store = s.store ∧
      (resume base estimate s k reply).2.points.filterMap SweptCall.item? = [] := by
  cases k with
  | start minutes =>
    rw [resume, startTtlSweeper]
    split
    · exact ⟨rfl, rfl⟩
    · split
      · exact ⟨rfl, rfl⟩
      · dsimp only
        split <;> exact ⟨rfl, rfl⟩
  | started i => exact ⟨rfl, rfl⟩
  | stop timeout =>
    rw [resume, stopTtlSweeper]
    split <;> exact ⟨rfl, rfl⟩
  | stopping i timeout expired =>
    rw [resume, awaitTask]
    split
    · exact ⟨rfl, rfl⟩
    · split <;> exact ⟨rfl, rfl⟩
    · split <;> exact ⟨rfl, rfl⟩
  | close =>
    rw [resume, close]
    split
    · exact ⟨rfl, rfl⟩
    · split <;> exact ⟨rfl, rfl⟩
  | cancelling i => exact ⟨rfl, rfl⟩
  | loop i => exact absurd rfl (noLoop i)
  | item k => cases other

theorem OfLoop.items {i : Nat} {turn : Turn SweptCall (Except PyError SweptOutcome)} (ofLoop : OfLoop i turn) :
    turn.points.filterMap SweptCall.item? = [] :=
  List.filterMap_eq_nil_iff.mpr (fun p member => by rw [ofLoop.points p member]; rfl)

variable (base estimate) in
/-- The runs of the store's operations alone, none of which sweeps. -/
def Plainly (first : EventLoop DiskBackedInMemStore ItemCall) (l : EventLoop SweptStore SweptCall) : Prop :=
  (DiskBackedInMemStore.itemCalls base estimate).Reaches Unswept first (plain l)

/-- A turn that sweeps nothing is a turn of the operations or none. -/
theorem Plainly.turn {first : EventLoop DiskBackedInMemStore ItemCall} {k : SweptCall} {i : Nat} {reply : SweptReply}
    (plainly : Plainly base estimate first l) (at_i : l.waiting[i]? = some k)
    (unswept : ∀ call, k.item? = some call → call.isSweep = false)
    (same : ∀ j, k = .loop j → (resume base estimate l.state k reply).1.store = l.state.store) :
    Plainly base estimate first ((sweptCalls base estimate).advance l i k reply) := by
  have silent (other : k.item? = none) (state : (resume base estimate l.state k reply).1.store = l.state.store)
      (points : (resume base estimate l.state k reply).2.points.filterMap SweptCall.item? = []) :
      Plainly base estimate first ((sweptCalls base estimate).advance l i k reply) := by
    have stays : plain ((sweptCalls base estimate).advance l i k reply) = plain l := by
      rw [plain, Coroutines.project_silent at_i other points]
      exact congrArg (EventLoop.mk · _) state
    rw [Plainly, stays]
    exact plainly
  by_cases isLoop : ∃ j, k = .loop j
  · obtain ⟨j, rfl⟩ := isLoop
    exact silent rfl (same j rfl) (sweepLoop_tends base estimate l.state j reply).2.items
  · cases mine : k.item? with
    | none =>
      have turn := turn_silent base estimate l.state reply mine (fun j loop => isLoop ⟨j, loop⟩)
      exact silent mine turn.1 turn.2
    | some call =>
      have isItem : k = .item call := by
        cases k <;> cases mine
        rfl
      subst isItem
      have state : ((sweptCalls base estimate).resume l.state (.item call) reply).1.store =
        ((DiskBackedInMemStore.itemCalls base estimate).resume l.state.store call reply.toStoreReply).1 := rfl
      have points : ((sweptCalls base estimate).resume l.state (.item call) reply).2.points.filterMap SweptCall.item? =
          ((DiskBackedInMemStore.itemCalls base estimate).resume l.state.store call reply.toStoreReply).2.points := by
        change ((DiskBackedInMemStore.resume base estimate l.state.store call reply.toStoreReply).2.map _ _).points.filterMap _ = _
        rw [Turn.points_map, List.filterMap_map]
        exact List.filterMap_some
      exact Coroutines.Reaches.project_turn plainly at_i mine (fun _ => unswept call mine) state points

theorem Plainly.call {first : EventLoop DiskBackedInMemStore ItemCall} {k : SweptCall} (plainly : Plainly base estimate first l)
    (new : k.isFresh = true) : Plainly base estimate first ⟨l.state, l.waiting ++ [k]⟩ :=
  Coroutines.Reaches.project_call plainly (fun call mine => by
    cases k <;> cases mine
    exact new)

/-- What may have happened since the sweeper was told to stop: nothing to the
store but its operations, or one sweep, which ended the sweeper. -/
structure Winding (base : InMemoryStore) (estimate : PickleSize) (l l' : EventLoop SweptStore SweptCall) : Prop where
  live : ∀ i, l'.state.Live i → l.state.Live i
  told : l'.state.stopEvent = true ∨ ∀ i, ¬ l'.state.Live i
  swept : Plainly base estimate (plain l) l' ∨
    (∃ i, l.state.Live i) ∧ (∀ i, ¬ l'.state.Live i) ∧
      ∃ m now, (DiskBackedInMemStore.itemCalls base estimate).Reaches Unswept (plain l) m ∧
        m.state.operationLocked = false ∧ Plainly base estimate ⟨(m.state.sweepTtl now).1, m.waiting⟩ l'

/-- The sweep of a sweeper that is told to stop is its last one. -/
theorem Sweeping.last {i : Nat} {now : Time} {out : SweptTurn} (sweeping : Sweeping s i now out) {waiting : List SweptCall}
    (one : OneSweeper s waiting) (told : s.stopEvent = true) :
    (∀ j, ¬ out.1.Live j) ∧ out.1.store = (s.store.sweepTtl now).1 ∧ out.2.points = [] := by
  have tends := sweeping.tends
  obtain ⟨live, _, rfl⟩ := sweeping
  refine ⟨fun j isLive => ?_, ?_, ?_⟩
  · have same : i = j :=
      Option.some.inj ((one.registered i live).symm.trans (one.registered j (tends.live isLive)))
    subst same
    obtain ⟨task, at_i, _⟩ := live
    obtain ⟨task', at_i', isLive⟩ := isLive
    rw [loopHead_eq, update, List.getElem?_modify_eq, at_i, told] at at_i'
    cases at_i'
    cases isLive
  · rw [loopHead_eq, update]
  · rw [loopHead, if_pos told]
    rfl

theorem Winding.turn {k : SweptCall} {i : Nat} {reply : SweptReply} (winding : Winding base estimate l l')
    (one : OneSweeper l'.state l'.waiting) (at_i : l'.waiting[i]? = some k)
    (unstarted : k.isStart = false) (unswept : ∀ call, k.item? = some call → call.isSweep = false) :
    Winding base estimate l ((sweptCalls base estimate).advance l' i k reply) := by
  obtain ⟨live, event⟩ := turn_winds base estimate l'.state reply unstarted
  refine ⟨fun j isLive => winding.live j (live j isLive), ?_, ?_⟩
  · rcases winding.told with set | gone
    · exact .inl (event set)
    · exact .inr (fun j isLive => gone j (live j isLive))
  · by_cases sweeps : ∃ j, k = .loop j ∧ Sweeping l'.state j reply.readAt (l'.state.sweepLoop base estimate j reply)
    · obtain ⟨j, rfl, sweeping⟩ := sweeps
      rcases winding.told with set | gone
      · obtain ⟨none, store, points⟩ := sweeping.last one set
        rcases winding.swept with plainly | ⟨_, gone, _⟩
        · refine .inr ⟨⟨j, winding.live j sweeping.live⟩, none, _, reply.readAt, plainly, sweeping.free, ?_⟩
          have stays : plain ((sweptCalls base estimate).advance l' i (.loop j) reply) =
              ⟨(l'.state.store.sweepTtl reply.readAt).1, (plain l').waiting⟩ := by
            rw [plain, Coroutines.project_silent at_i rfl (congrArg (List.filterMap SweptCall.item?) points)]
            exact congrArg (EventLoop.mk · _) store
          rw [Plainly, stays]
          exact .start
        · exact absurd sweeping.live (gone j)
      · exact absurd sweeping.live (gone j)
    · have same : ∀ j, k = .loop j → (resume base estimate l'.state k reply).1.store = l'.state.store := by
        rintro j rfl
        rcases sweepLoop_cases base estimate l'.state j reply with ⟨_, same, _⟩ | sweeping
        · exact same
        · exact absurd ⟨j, rfl, sweeping⟩ sweeps
      rcases winding.swept with plainly | ⟨was, gone, m, now, before, free, after⟩
      · exact .inl (plainly.turn at_i unswept same)
      · exact .inr ⟨was, fun j isLive => gone j (live j isLive), m, now, before, free, after.turn at_i unswept same⟩

/-- Once the sweeper is told to stop, and until the next `start`, a run in which no
call sweeps is one of the store's operations alone, but for at most one sweep,
after which the sweeper is over. -/
theorem one_last_sweep {store : DiskBackedInMemStore} {ttlConfig : Option StoreTtlConfig}
    (reach : (sweptCalls base estimate).Reaches Unhurried ⟨init store ttlConfig, []⟩ l)
    (told : l.state.stopEvent = true ∨ ∀ i, ¬ l.state.Live i)
    (later : (sweptCalls base estimate).Reaches Unstarted l l') :
    Plainly base estimate (plain l) l' ∨
      (∃ i, l.state.Live i) ∧ (∀ i, ¬ l'.state.Live i) ∧
        ∃ m now, (DiskBackedInMemStore.itemCalls base estimate).Reaches Unswept (plain l) m ∧
          m.state.operationLocked = false ∧ Plainly base estimate ⟨(m.state.sweepTtl now).1, m.waiting⟩ l' := by
  have first := Reaches.oneSweeper reach (oneSweeper_init store ttlConfig)
  suffices winding : Winding base estimate l l' from winding.swept
  induction later with
  | start => exact ⟨fun _ live => live, told, .inl .start⟩
  | call _ new winding =>
    refine ⟨winding.live, winding.told, ?_⟩
    rcases winding.swept with plainly | ⟨was, gone, m, now, before, free, after⟩
    · exact .inl (plainly.call new)
    · exact .inr ⟨was, gone, m, now, before, free, after.call new⟩
  | turn i reply before at_i unstarted winding =>
    have unhurried := before.weaken (fun {s others k reply} (unstarted : Unstarted s others k reply) =>
      show Unhurried s others k reply from fun isStart => absurd (unstarted.1.symm.trans isStart) Bool.false_ne_true)
    exact winding.turn (Reaches.oneSweeper unhurried first) at_i unstarted.1 unstarted.2

end LastSweep

section Stopped

open DiskBackedInMemStore (textIndex countedSize note readingAt)

instance (s : SweptStore) (others : List SweptCall) (k : SweptCall) (reply : SweptReply) :
    Decidable (Unhurried s others k reply) :=
  inferInstanceAs (Decidable (_ → _))

def sweptReply (now : Time) (timedOut : Bool) : SweptReply := ⟨readingAt now [], timedOut⟩

def emptySwept : SweptStore := init (.load countedSize ⟨.empty, .empty⟩ .empty) (some ⟨none⟩)

/-- A sweeper is started and told to stop while it waits. -/
def startedAndStopped : List (Coroutines.Move SweptCall SweptReply) :=
  [.call (.start none), .turn 0 (sweptReply 0 false), .turn 0 (sweptReply 0 false), .turn 1 (sweptReply 0 false),
    .call (.stop false), .turn 1 (sweptReply 1 false)]

theorem startedAndStopped_performed :
    ((sweptCalls textIndex countedSize).performAllIf Unhurried ⟨emptySwept, []⟩ startedAndStopped).isSome = true := by
  decide +kernel

theorem startedAndStopped_ended :
    ((sweptCalls textIndex countedSize).performAllIf Unhurried ⟨emptySwept, []⟩
      (startedAndStopped ++ [.turn 0 (sweptReply 1 false)])).isSome = true := by
  decide +kernel

/-- The sweeper has ended, and `stop` returns that it has. -/
theorem one_sweeper_stopped :
    ∃ l : EventLoop SweptStore SweptCall, l.state.sweepers.length = 1 ∧ l.waiting.length = 1 ∧
      ∀ k ∈ l.waiting, ∀ i, ¬ (resume textIndex countedSize l.state k (sweptReply 1 false)).1.Live i := by
  have reach := Coroutines.Reaches.performAllIf .start (Option.some_get startedAndStopped_ended).symm
  obtain ⟨_, _, stopped⟩ := one_sweeper reach
  refine ⟨_, ?_, ?_, fun k waits => stopped k (sweptReply 1 false) (.inl waits) ?_⟩
  · decide +kernel
  · decide +kernel
  · rcases List.mem_singleton.mp waits with rfl
    rfl

-- a sweeper that is started before `stop` returns is forgotten, and the next `start` makes another
example :
    ((sweptCalls textIndex countedSize).performAll ⟨emptySwept, []⟩ (startedAndStopped ++
      [.turn 0 (sweptReply 1 false), .call (.start none), .turn 1 (sweptReply 1 false), .turn 0 (sweptReply 1 false),
        .call (.start none), .turn 2 (sweptReply 1 false)])).map
      (fun l => l.state.sweepers.countP SweeperTask.isLive) = some 2 := by
  decide +kernel

/-- The interval is over when the sweeper is told to stop. -/
theorem one_last_sweep_stopped :
    ∃ l l' : EventLoop SweptStore SweptCall, l.state.stopEvent = true ∧ l'.state.sweepers.length = 1 ∧
      (Plainly textIndex countedSize (plain l) l' ∨
        (∃ i, l.state.Live i) ∧ (∀ i, ¬ l'.state.Live i) ∧
          ∃ m now, (DiskBackedInMemStore.itemCalls textIndex countedSize).Reaches Unswept (plain l) m ∧
            m.state.operationLocked = false ∧ Plainly textIndex countedSize ⟨(m.state.sweepTtl now).1, m.waiting⟩ l') := by
  have reach := Coroutines.Reaches.performAllIf .start (Option.some_get startedAndStopped_performed).symm
  have told : (((sweptCalls textIndex countedSize).performAllIf Unhurried ⟨emptySwept, []⟩ startedAndStopped).get
      startedAndStopped_performed).state.stopEvent = true := by
    decide +kernel
  refine ⟨_, _, told, ?_, one_last_sweep reach (.inl told)
    (.turn 0 (sweptReply 300000000 true) .start (k := .loop 0) rfl ⟨rfl, fun _ item => by cases item⟩)⟩
  decide +kernel

end Stopped

end SweptStore

end InmemRuntime
