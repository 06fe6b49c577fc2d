import InmemRuntime.HeldIndices
import InmemRuntime.Lib.LoneCall
import InmemRuntime.RunEffects
import Mathlib.Data.Finset.Card

namespace InmemRuntime

namespace Runs

/-- The thread is there and has no running run. -/
def isRunnable (s : Runtime) (threadId : Uuid) : Bool :=
  (s.threads.find? (Threads.byId threadId)).isSome && !hasRunning s threadId

/-- The threads of the store with a due run and no running run. -/
def runnableThreads (s : Runtime) (now : Time) : Finset Uuid :=
  (s.threadIds.filter (fun threadId =>
    s.runs.values.any (fun run => run.threadId = threadId && isDue now run) && !hasRunning s threadId)).toFinset

def threadOf (s : Runtime) (r : Nat) : Uuid := (s.runs.get r).threadId

/-- The runnable threads of some runs. -/
def runnableOf (s : Runtime) (rest : List Nat) : Finset Uuid :=
  ((rest.map (threadOf s)).filter (isRunnable s)).toFinset

theorem mem_runnableOf {s : Runtime} {rest : List Nat} {threadId : Uuid} :
    threadId ∈ runnableOf s rest ↔ (∃ r ∈ rest, threadOf s r = threadId) ∧ isRunnable s threadId = true := by
  rw [runnableOf, List.mem_toFinset, List.mem_filter, List.mem_map]

theorem mem_pendingRuns {s : Runtime} {now : Time} {r : Nat} :
    r ∈ pendingRuns s now ↔ r ∈ s.runs.rows ∧ isDue now (s.runs.get r) = true := by
  rw [pendingRuns, List.mem_mergeSort, List.mem_filter]

theorem pendingRuns_nodup (s : Runtime) (now : Time) : (pendingRuns s now).Nodup :=
  (List.mergeSort_perm _ _).nodup_iff.mpr (s.runs.nodup.filter _)

theorem runnableThreads_eq (s : Runtime) (now : Time) : runnableThreads s now = runnableOf s (pendingRuns s now) := by
  ext threadId
  rw [mem_runnableOf, runnableThreads, List.mem_toFinset, List.mem_filter, isRunnable, Bool.and_eq_true,
    Bool.and_eq_true, List.any_eq_true]
  have there : threadId ∈ s.threadIds ↔ (s.threads.find? (Threads.byId threadId)).isSome = true := by
    rw [← Option.ne_none_iff_isSome, Ne, find?_eq_none_iff_threadIds, not_not]
  rw [there]
  constructor
  · rintro ⟨named, ⟨run, stored, due⟩, free⟩
    obtain ⟨r, listed, rfl⟩ := Table.mem_values.mp stored
    obtain ⟨ofThread, due⟩ := Bool.and_eq_true_iff.mp due
    exact ⟨⟨r, mem_pendingRuns.mpr ⟨listed, due⟩, of_decide_eq_true ofThread⟩, named, free⟩
  · rintro ⟨⟨r, pending, rfl⟩, named, free⟩
    obtain ⟨listed, due⟩ := mem_pendingRuns.mp pending
    exact ⟨named, ⟨_, Table.mem_values.mpr ⟨r, listed, rfl⟩, Bool.and_eq_true_iff.mpr ⟨decide_eq_true rfl, due⟩⟩, free⟩

/-- A reply that raises nothing. -/
def Answered (reply : Reply) : Prop := ∃ value, reply.answer = .ok value

/-- Alone, and with every await answered, the generator ends, and it hands out so many runs. -/
def HandsOut (turn : NextTurn) (count : Nat) : Prop :=
  (∃ handed s' outcome, Turn.Yields Next.resume Answered turn handed s' outcome) ∧
    ∀ handed s' outcome, Turn.Yields Next.resume Answered turn handed s' outcome → handed.length = count

theorem HandsOut.finished {s : Runtime} {outcome} : HandsOut (s, .finished outcome) 0 := by
  refine ⟨⟨_, _, _, .finished _ _⟩, ?_⟩
  rintro _ _ _ ⟨⟩
  rfl

theorem HandsOut.suspended {s : Runtime} {point : Next} {count : Nat}
    (later : ∀ reply, Answered reply → HandsOut (Next.resume s point reply) count) :
    HandsOut (s, .suspended point) count := by
  constructor
  · have heard : Answered ⟨0, default, .ok .none⟩ := ⟨_, rfl⟩
    obtain ⟨⟨handed, s', outcome, yields⟩, _⟩ := later _ heard
    exact ⟨handed, s', outcome, .suspended heard yields⟩
  · rintro handed s' outcome (_ | ⟨heard, yields⟩)
    exact (later _ heard).2 handed s' outcome yields

theorem HandsOut.yielded {s : Runtime} {value} {point : Next} {count : Nat}
    (later : ∀ reply, Answered reply → HandsOut (Next.resume s point reply) count) :
    HandsOut (s, .yielded value point) (count + 1) := by
  constructor
  · have heard : Answered ⟨0, default, .ok .none⟩ := ⟨_, rfl⟩
    obtain ⟨⟨handed, s', outcome, yields⟩, _⟩ := later _ heard
    exact ⟨value :: handed, s', outcome, .yielded heard yields⟩
  · rintro handed s' outcome (_ | _ | ⟨heard, yields⟩)
    rw [List.length_cons, (later _ heard).2 _ s' outcome yields]

theorem hasRunning_iff {s : Runtime} {threadId : Uuid} :
    hasRunning s threadId = true ↔ ∃ r ∈ s.runs.rows, threadOf s r = threadId ∧ (s.runs.get r).isRunning = true := by
  simp [hasRunning, Table.mem_values, threadOf]

section HandOut

variable {s : Runtime} (holding : Holding) {r : Nat}

theorem threadOf_handOut (i : Nat) : threadOf (Next.handOut s holding r).1 i = threadOf s i := by
  rw [threadOf, Next.handOut_runs, Table.update_get]
  split <;> rfl

/-- The thread of the run that is handed out is no longer runnable; the others are as before. -/
theorem hasRunning_handOut (listed : r ∈ s.runs.rows) (threadId : Uuid) :
    hasRunning (Next.handOut s holding r).1 threadId = true ↔ threadId = threadOf s r ∨ hasRunning s threadId = true := by
  simp only [hasRunning_iff, threadOf_handOut]
  have rows : (Next.handOut s holding r).1.runs.rows = s.runs.rows := rfl
  have get (i : Nat) : (Next.handOut s holding r).1.runs.get i =
      if i = r then markRunning (s.runs.get i) else s.runs.get i := by
    rw [Next.handOut_runs, Table.update_get]
  rw [rows]
  constructor
  · rintro ⟨i, member, rfl, running⟩
    by_cases here : i = r
    · exact .inl (by rw [here])
    · rw [get, if_neg here] at running
      exact .inr ⟨i, member, rfl, running⟩
  · rintro (rfl | ⟨i, member, rfl, running⟩)
    · exact ⟨r, listed, rfl, by rw [get, if_pos rfl]; rfl⟩
    · refine ⟨i, member, rfl, ?_⟩
      rw [get]
      split
      · rfl
      · exact running

theorem runnableOf_handOut (listed : r ∈ s.runs.rows) (runnable : isRunnable s (threadOf s r) = true) (rest : List Nat) :
    (runnableOf s (r :: rest)).card = (runnableOf (Next.handOut s holding r).1 rest).card + 1 := by
  have threads : (Next.handOut s holding r).1.threads = s.threads := rfl
  have after (threadId : Uuid) : isRunnable (Next.handOut s holding r).1 threadId = true ↔
      threadId ≠ threadOf s r ∧ isRunnable s threadId = true := by
    have marked := hasRunning_handOut holding listed threadId
    simp only [isRunnable, threads, Bool.and_eq_true, Bool.not_eq_true', ← Bool.not_eq_true, marked]
    tauto
  have split : runnableOf s (r :: rest) = insert (threadOf s r) (runnableOf (Next.handOut s holding r).1 rest) := by
    ext threadId
    rw [Finset.mem_insert, mem_runnableOf, mem_runnableOf, after]
    simp only [List.mem_cons, threadOf_handOut]
    constructor
    · rintro ⟨⟨i, rfl | later, rfl⟩, free⟩
      · exact .inl rfl
      · by_cases same : threadOf s i = threadOf s r
        · exact .inl same
        · exact .inr ⟨⟨i, later, rfl⟩, same, free⟩
    · rintro (rfl | ⟨⟨i, later, rfl⟩, _, free⟩)
      · exact ⟨⟨r, .inl rfl, rfl⟩, runnable⟩
      · exact ⟨⟨i, .inr later, rfl⟩, free⟩
  rw [split, Finset.card_insert_of_notMem]
  rw [mem_runnableOf, after]
  exact fun member => member.2.1 rfl

end HandOut

theorem runnableOf_skip {s : Runtime} {r : Nat} (blocked : isRunnable s (threadOf s r) = false) (rest : List Nat) :
    runnableOf s (r :: rest) = runnableOf s rest := by
  rw [runnableOf, List.map_cons, List.filter_cons_of_neg (Bool.eq_false_iff.mp blocked), runnableOf]

/-- The runs are still pending and in the store. -/
structure Untried (s : Runtime) (rest : List Nat) : Prop where
  nodup : rest.Nodup
  pending : ∀ r ∈ rest, r ∈ s.runs.rows ∧ (s.runs.get r).isPending = true

/-- The loop hands out one run for each runnable thread of the runs it goes through. -/
theorem Next.loop_handsOut {rest : List Nat} {s : Runtime} {holding : Holding} {position : Nat}
    (here : rest = (holding.pendingRuns.take holding.limit).drop position) (untried : Untried s rest) :
    HandsOut (Next.loop holding position s rest) (runnableOf s rest).card := by
  induction rest generalizing s holding position with
  | nil => exact HandsOut.finished
  | cons r rest ih =>
    have later : rest = (holding.pendingRuns.take holding.limit).drop (position + 1) := by
      rw [← List.drop_drop, ← here]
      rfl
    obtain ⟨listed, pending⟩ := untried.pending r List.mem_cons_self
    have left : Untried s rest :=
      ⟨(List.nodup_cons.mp untried.nodup).2, fun i member => untried.pending i (List.mem_cons_of_mem _ member)⟩
    have remaining : Holding.remaining { holding with position := position + 1 } = rest := later.symm
    unfold loop
    dsimp only
    rw [if_neg (by rw [pending]; exact Bool.noConfusion)]
    split
    · rename_i missing
      have blocked : isRunnable s (threadOf s r) = false := by
        rw [isRunnable, Bool.and_eq_false_iff]
        exact .inl (by rw [threadOf, ← Option.not_isNone, missing]; rfl)
      rw [runnableOf_skip blocked]
      refine .suspended ?_
      rintro reply ⟨value, answered⟩
      rw [resume, answered, attempt_ok, proceed, remaining]
      exact ih later left
    · rename_i found
      split
      · rename_i running
        have blocked : isRunnable s (threadOf s r) = false := by
          rw [isRunnable, Bool.and_eq_false_iff]
          exact .inr (by rw [threadOf, running]; rfl)
        rw [runnableOf_skip blocked]
        exact ih later left
      · rename_i idle
        have runnable : isRunnable s (threadOf s r) = true := by
          rw [isRunnable, Bool.and_eq_true]
          exact ⟨by rw [threadOf, ← Option.not_isNone, Bool.eq_false_iff.mpr found]; rfl,
            by rw [threadOf, Bool.eq_false_iff.mpr idle]; rfl⟩
        have away : r ∉ rest := (List.nodup_cons.mp untried.nodup).1
        have still : Untried (handOut s { holding with position := position + 1 } r).1 rest := by
          refine ⟨left.nodup, fun i member => ?_⟩
          obtain ⟨listed, pending⟩ := left.pending i member
          have other : i ≠ r := fun same => away (same ▸ member)
          refine ⟨listed, ?_⟩
          rw [Next.handOut_runs, Table.update_get_of_ne _ other]
          exact pending
        rw [runnableOf_handOut { holding with position := position + 1 } listed runnable]
        refine .yielded ?_
        rintro reply ⟨value, answered⟩
        rw [resume, answered, attempt_ok, proceed, remaining]
        exact ih later still

/-- Every runnable thread has a run before the limit, or the runs before the
limit are of that many runnable threads. -/
def Unobstructed (s : Runtime) (now : Time) (limit : Nat) : Prop :=
  (∀ threadId ∈ runnableThreads s now, ∃ r ∈ (pendingRuns s now).take limit, threadOf s r = threadId) ∨
    limit ≤ (pendingRuns s now).length ∧
      (∀ r ∈ (pendingRuns s now).take limit, threadOf s r ∈ runnableThreads s now) ∧
      (((pendingRuns s now).take limit).map (threadOf s)).Nodup

theorem runnableOf_mono {s : Runtime} {rest rest' : List Nat} (fewer : ∀ r ∈ rest, r ∈ rest') :
    runnableOf s rest ⊆ runnableOf s rest' := by
  intro threadId member
  obtain ⟨⟨r, inside, same⟩, runnable⟩ := mem_runnableOf.mp member
  exact mem_runnableOf.mpr ⟨⟨r, fewer r inside, same⟩, runnable⟩

theorem runnableOf_card_le (s : Runtime) (rest : List Nat) : (runnableOf s rest).card ≤ rest.length :=
  (List.toFinset_card_le _).trans ((List.length_filter_le _ _).trans (List.length_map ..).le)

/-- As many runnable threads as runs: each run is of another thread. -/
theorem runnableOf_card_eq_length {s : Runtime} {rest : List Nat} :
    (runnableOf s rest).card = rest.length ↔
      (∀ r ∈ rest, isRunnable s (threadOf s r) = true) ∧ (rest.map (threadOf s)).Nodup := by
  have length : (rest.map (threadOf s)).length = rest.length := List.length_map ..
  constructor
  · intro full
    have filtered : ((rest.map (threadOf s)).filter (isRunnable s)).length = (rest.map (threadOf s)).length := by
      refine le_antisymm (List.length_filter_le _ _) ?_
      rw [length, ← full]
      exact List.toFinset_card_le _
    have all := List.filter_sublist.eq_of_length filtered
    have undoubled : (rest.map (threadOf s)).dedup.length = (rest.map (threadOf s)).length := by
      rw [length, ← full, runnableOf, List.card_toFinset, all]
    refine ⟨fun r member => ?_, ?_⟩
    · exact List.filter_eq_self.mp all _ (List.mem_map_of_mem member)
    · rw [← (List.dedup_sublist _).eq_of_length undoubled]
      exact List.nodup_dedup _
  · rintro ⟨runnable, distinct⟩
    have all : (rest.map (threadOf s)).filter (isRunnable s) = rest.map (threadOf s) := by
      rw [List.filter_eq_self]
      intro threadId member
      obtain ⟨r, inside, rfl⟩ := List.mem_map.mp member
      exact runnable r inside
    rw [runnableOf, all, List.toFinset_card_of_nodup distinct, length]

theorem unobstructed_iff {s : Runtime} {now : Time} {limit : Nat} :
    (runnableOf s ((pendingRuns s now).take limit)).card = min limit (runnableThreads s now).card ↔
      Unobstructed s now limit := by
  have fewer : runnableOf s ((pendingRuns s now).take limit) ⊆ runnableThreads s now := by
    rw [runnableThreads_eq]
    exact runnableOf_mono (fun _ member => List.mem_of_mem_take member)
  have most := Finset.card_le_card fewer
  have within := runnableOf_card_le s ((pendingRuns s now).take limit)
  have taken : ((pendingRuns s now).take limit).length = min limit (pendingRuns s now).length := List.length_take
  have runnable {r : Nat} (member : r ∈ (pendingRuns s now).take limit) :
      threadOf s r ∈ runnableThreads s now ↔ isRunnable s (threadOf s r) = true := by
    rw [runnableThreads_eq, mem_runnableOf]
    exact and_iff_right ⟨r, List.mem_of_mem_take member, rfl⟩
  constructor
  · intro count
    by_cases few : (runnableThreads s now).card ≤ limit
    · left
      intro threadId member
      rw [min_eq_right few] at count
      rw [← Finset.eq_of_subset_of_card_le fewer count.ge] at member
      exact (mem_runnableOf.mp member).1
    · right
      have full : (runnableOf s ((pendingRuns s now).take limit)).card = ((pendingRuns s now).take limit).length := by
        omega
      obtain ⟨all, distinct⟩ := runnableOf_card_eq_length.mp full
      exact ⟨by omega, fun r member => (runnable member).mpr (all r member), distinct⟩
  · rintro (covered | ⟨enough, all, distinct⟩)
    · have same : runnableOf s ((pendingRuns s now).take limit) = runnableThreads s now := by
        refine Finset.Subset.antisymm fewer (fun threadId member => ?_)
        rw [runnableThreads_eq] at member
        exact mem_runnableOf.mpr ⟨covered threadId (runnableThreads_eq s now ▸ member), (mem_runnableOf.mp member).2⟩
      rw [same] at within ⊢
      omega
    · have full := runnableOf_card_eq_length.mpr ⟨fun r member => (runnable member).mp (all r member), distinct⟩
      omega

/-- What a call that runs alone hands out. -/
theorem next_handsOut {s : Runtime} (limit : Nat) (free : s.runLocked = false) (first : Reply) :
    HandsOut (Next.resume s (.called limit) first) (runnableOf s ((pendingRuns s first.now).take limit)).card := by
  refine .suspended ?_
  rintro reply ⟨value, answered⟩
  rw [Next.resume, answered, attempt_ok]
  refine .suspended ?_
  rintro reply' ⟨value', answered'⟩
  rw [Next.resume, answered', attempt_ok, free, if_neg Bool.false_ne_true]
  have untried : Untried { s with runLocked := true } ((pendingRuns s first.now).take limit) := by
    refine ⟨(pendingRuns_nodup s first.now).sublist (List.take_sublist _ _), fun r member => ?_⟩
    obtain ⟨listed, due⟩ := mem_pendingRuns.mp (List.mem_of_mem_take member)
    exact ⟨listed, (Bool.and_eq_true_iff.mp due).1⟩
  exact Next.loop_handsOut (by rw [Holding.remaining, List.drop_zero]) untried

theorem HandsOut.unique {turn : NextTurn} {count count' : Nat} (handsOut : HandsOut turn count)
    (handsOut' : HandsOut turn count') : count = count' := by
  obtain ⟨handed, s', outcome, yields⟩ := handsOut.1
  rw [← handsOut.2 _ _ _ yields, handsOut'.2 _ _ _ yields]

/-- A call that runs alone hands out as many runs as it could exactly when the
limit is not used up by runs that it skips. -/
theorem next_work_conserving_iff {s : Runtime} (limit : Nat) (free : s.runLocked = false) (first : Reply) :
    HandsOut (Next.resume s (.called limit) first) (min limit (runnableThreads s first.now).card) ↔
      Unobstructed s first.now limit := by
  rw [← unobstructed_iff]
  constructor
  · exact fun expected => (next_handsOut limit free first).unique expected
  · intro count
    rw [← count]
    exact next_handsOut limit free first

section Blocked

def queuedRun (threadId : Uuid) (status : RunStatus) (createdAt : Time) : Run :=
  { (default : Run) with threadId := threadId, status := some status, createdAt := some createdAt }

/-- A run waits behind a running run of its thread, and another one waits on a free thread. -/
def blockedFirst : Runtime :=
  { (default : Runtime) with
    threads := (Table.empty.append { (default : Thread) with threadId := ⟨1⟩ }).append
      { (default : Thread) with threadId := ⟨2⟩ }
    runs := ((Table.empty.append (queuedRun ⟨1⟩ .running 1)).append (queuedRun ⟨1⟩ .pending 2)).append
      (queuedRun ⟨2⟩ .pending 3) }

theorem blockedFirst_pendingRuns : pendingRuns blockedFirst 5 = [1, 2] := by
  have due : blockedFirst.runs.rows.filter (fun r => isDue 5 (blockedFirst.runs.get r)) = [1, 2] := by decide
  rw [pendingRuns, due]
  exact List.mergeSort_of_pairwise (by decide)

/-- With a limit of one, the blocked run keeps the other from being handed out. -/
theorem next_skips_runnable :
    ¬ ∀ (s : Runtime) (limit : Nat), 0 < limit → s.runLocked = false → ∀ first : Reply,
      HandsOut (Next.resume s (.called limit) first) (min limit (runnableThreads s first.now).card) := by
  intro all
  have expected := all blockedFirst 1 (by decide) rfl ⟨5, default, .ok .none⟩
  have count := (next_handsOut 1 rfl _).unique expected
  rw [blockedFirst_pendingRuns] at count
  revert count
  decide

/-- With a limit of two it is handed out. -/
theorem next_work_conserving_two :
    HandsOut (Next.resume blockedFirst (.called 2) ⟨5, default, .ok .none⟩) (min 2 1) := by
  have runnable : (runnableThreads blockedFirst 5).card = 1 := by decide
  have unobstructed : Unobstructed blockedFirst 5 2 := by
    left
    rw [blockedFirst_pendingRuns]
    decide
  rw [← runnable]
  exact (next_work_conserving_iff 2 rfl _).mpr unobstructed

end Blocked

end Runs

end InmemRuntime
