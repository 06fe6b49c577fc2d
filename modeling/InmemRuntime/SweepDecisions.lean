import InmemRuntime.SweepRuns

namespace InmemRuntime

open Threads

/-- What a sweep does to the store: it hands threads to the checkpointer's
prune, begins the deletion of a thread, takes the record of a thread out of
the list after a custom checkpointer's deletion, or marks a thread. -/
inductive SweepAct where
  | prune (threadIds : List Uuid)
  | remove (threadId : Uuid) (threadIdx : Nat)
  | pop (threadId : Uuid) (threadIdx : Nat)
  | mark (item : Expired)

/-- No run of the thread is pending or running. -/
def Inactive (s : GlobalStore) (threadId : Uuid) : Prop :=
  ∀ run ∈ s.runs.values, run.threadId = threadId → run.isActive = false

/-- The thread's present TTL and `updated_at` make it expired at `now`. -/
def StillExpired (s : Runtime) (now : Time) (thread : Thread) : Prop :=
  ∃ config state expiry,
    effectiveThreadTtl s.config.threadTtl s.threadTtls thread.threadId = .ok (some config, state) ∧
      alreadySwept config state thread.updatedAt = false ∧
      expiresAt config thread.updatedAt = .ok expiry ∧ expiry ≤ now

/-- What is promised of each act, in the store as it is at that moment: only
inactive threads are pruned or deleted, a deleted thread is still expired and
is the one that was meant, so that its own TTL record goes with it, and only
threads that exist are marked, under the override that they have. -/
def SweepAct.Safe (now : Time) (s : Runtime) : SweepAct → Prop
  | .prune threadIds => ∀ threadId ∈ threadIds, Inactive s.toGlobalStore threadId
  | .remove threadId threadIdx | .pop threadId threadIdx =>
    ∃ r, s.threads.rows[threadIdx]? = some r ∧ (s.threads.get r).threadId = threadId ∧
      Inactive s.toGlobalStore threadId ∧ StillExpired s now (s.threads.get r)
  | .mark item =>
    item.threadId ∈ s.threadIds ∧
      ((s.threadTtls.get? item.threadId.str).getD .empty).strategy = item.state.strategy ∧
      ((s.threadTtls.get? item.threadId.str).getD .empty).ttlMinutes = item.state.ttlMinutes

/-- What an act does to the store. With a custom checkpointer the record is
popped by an act of its own. -/
def SweepAct.apply (custom : Bool) (s : GlobalStore) : SweepAct → GlobalStore
  | .prune _ => s
  | .remove threadId threadIdx =>
    let runs := s.runs.keep (fun run => run.threadId ≠ threadId)
    let crons := s.crons.filter (fun cron => cron.threadId ≠ some threadId)
    if custom then { s with runs := runs, crons := crons }
    else
      { s with
        runs := runs
        crons := crons
        threads := s.threads.pop threadIdx
        threadTtls := s.threadTtls.erase threadId.str }
  | .pop threadId threadIdx =>
    { s with threads := s.threads.pop threadIdx, threadTtls := s.threadTtls.erase threadId.str }
  | .mark item => { s with threadTtls := s.threadTtls.set item.threadId.str item.marked }

namespace Threads

/-- What a piece of work does at once. -/
def SweepWork.acts (s : Runtime) (frame : SweepFrame) : SweepWork → List SweepAct
  | .prune threadIds => if frame.hasCheckpointer then [.prune threadIds] else []
  | .take item =>
    match item.config.strategy with
    | .delete => (s.threads.locate? (byId item.threadId)).toList.map (fun pair => .remove item.threadId pair.1)
    | .keepLatest => [.mark item]

section Acts

variable (base : BaseSaver) (serde : Serde) (fuel : Nat)

/-- What the loops do until they wait or end, each with the store and the clock of the sweep. -/
def Sweep.loopActs : List SweepWork → Runtime × SweepFrame → List (Runtime × Time × SweepAct)
  | [], _ => []
  | work :: rest, at' =>
    (work.acts at'.1 at'.2).map (fun act => (at'.1, at'.2.now, act)) ++
      Sum.elim (fun _ => []) (Sweep.loopActs rest) (Sweep.advance base serde fuel at'.1 at'.2 rest work)

def Sweep.startActs (s : Runtime) (call : SweepCall) (now : Time) : List (Runtime × Time × SweepAct) :=
  if call.limit.any (fun limit => limit ≤ 0) then []
  else
    match selectExpired s call.limit now with
    | .error _ => []
    | .ok selected =>
      Sweep.loopActs base serde fuel (sweepWork call.batchSize selected) (s, .first s call now selected)

/-- What a sweep does in one turn. -/
def Sweep.acts (s : Runtime) : Sweep → Reply → List (Runtime × Time × SweepAct)
  | .called call, reply => if call.wantsStats then [] else Sweep.startActs base serde fuel s call reply.now
  | .gettingFirst call, reply =>
    if reply.answer.isOk then Sweep.startActs base serde fuel s call reply.now else []
  | .gettingCheckpointer frame threadIds rest, reply =>
    if reply.answer.isOk then
      Sweep.loopActs base serde fuel (.prune threadIds :: rest) (s, { frame with hasCheckpointer := true })
    else []
  | .pruning frame rest, reply =>
    if reply.answer.isOk then Sweep.loopActs base serde fuel rest (s, frame) else []
  | .deleting frame deletion rest, reply =>
    (if reply.answer.isOk then deletion.aim.toList.map (fun aim => (s, frame.now, .pop aim.2 aim.1)) else []) ++
      Sum.elim (fun _ => []) (Sweep.loopActs base serde fuel rest)
        (Sweep.afterDelete frame rest (Delete.resume base s deletion reply))
  | .stuck, _ => []

end Acts

namespace SweepWork

def removals : SweepWork → List Uuid
  | .prune threadIds => threadIds
  | .take item => if item.isDelete then [item.threadId] else []

def deletions : SweepWork → List Uuid
  | .prune _ => []
  | .take item => if item.isDelete then [item.threadId] else []

def markings : SweepWork → List Uuid
  | .prune _ => []
  | .take item => if item.isDelete then [] else [item.threadId]

end SweepWork

namespace Sweep

def ahead : Sweep → List SweepWork
  | .gettingCheckpointer _ threadIds rest => .prune threadIds :: rest
  | .pruning _ rest | .deleting _ _ rest => rest
  | .called _ | .gettingFirst _ | .stuck => []

/-- The deletion under way: the position it will pop, and its thread. -/
def removing : Sweep → Option (Nat × Uuid)
  | .deleting _ deletion _ => deletion.aim
  | _ => none

/-- The threads that the sweep has still to prune or delete. -/
def removals (p : Sweep) : List Uuid := p.removing.toList.map Prod.snd ++ p.ahead.flatMap SweepWork.removals

/-- The threads that it has still to delete. -/
def deletions (p : Sweep) : List Uuid := p.removing.toList.map Prod.snd ++ p.ahead.flatMap SweepWork.deletions

/-- The threads that it has still to mark. -/
def markings (p : Sweep) : List Uuid := p.ahead.flatMap SweepWork.markings

end Sweep

/-- A thread that may be deleted: one record, inactive and expired. -/
structure Removable (s : Runtime) (now : Time) (threadId : Uuid) : Prop where
  inactive : Inactive s.toGlobalStore threadId
  unique : ∀ r ∈ s.threads.rows, ∀ r' ∈ s.threads.rows, (s.threads.get r).threadId = threadId →
    (s.threads.get r').threadId = threadId → r = r'
  expired : ∀ r ∈ s.threads.rows, (s.threads.get r).threadId = threadId → StillExpired s now (s.threads.get r)

/-- A piece of work whose decision is still right. -/
def SweepWork.Valid (s : Runtime) (now : Time) : SweepWork → Prop
  | .prune threadIds => ∀ threadId ∈ threadIds, Inactive s.toGlobalStore threadId
  | .take item =>
    match item.config.strategy with
    | .delete => Removable s now item.threadId
    | .keepLatest =>
      item.threadId ∈ s.threadIds ∧ (s.threadTtls.get? item.threadId.str).getD .empty = item.state

structure ValidWork (s : Runtime) (now : Time) (work : List SweepWork) : Prop where
  each : ∀ step ∈ work, step.Valid s now
  distinct : ((taken work).map Expired.threadId).Nodup

/-- A step of the store that leaves alone what pieces of work rely on. -/
structure Spared (s s' : Runtime) (removals deletions markings : List Uuid) : Prop where
  config : s'.config = s.config
  inactive : ∀ threadId ∈ removals, Inactive s.toGlobalStore threadId → Inactive s'.toGlobalStore threadId
  records : ∀ threadId ∈ deletions, ∀ r ∈ s'.threads.rows, (s'.threads.get r).threadId = threadId →
    r ∈ s.threads.rows ∧ s'.threads.get r = s.threads.get r ∧
      s'.threadTtls.get? threadId.str = s.threadTtls.get? threadId.str
  listed : ∀ threadId ∈ markings, threadId ∈ s.threadIds → threadId ∈ s'.threadIds
  overrides : ∀ threadId ∈ markings, s'.threadTtls.get? threadId.str = s.threadTtls.get? threadId.str

theorem effectiveThreadTtl_congr {globalTtl : Option PyDict} {ttls ttls' : ThreadTtls} {threadId : Uuid}
    (same : ttls'.get? threadId.str = ttls.get? threadId.str) :
    effectiveThreadTtl globalTtl ttls' threadId = effectiveThreadTtl globalTtl ttls threadId := by
  simp only [effectiveThreadTtl, same]

section Transfer

variable {s s' : Runtime} {now : Time} {removals deletions markings : List Uuid}

theorem Removable.spared {threadId : Uuid} (removable : Removable s now threadId)
    (spared : Spared s s' removals deletions markings) (active : threadId ∈ removals)
    (deleted : threadId ∈ deletions) : Removable s' now threadId where
  inactive := spared.inactive threadId active removable.inactive
  unique r inRows r' inRows' named named' := by
    obtain ⟨old, same, _⟩ := spared.records threadId deleted r inRows named
    obtain ⟨old', same', _⟩ := spared.records threadId deleted r' inRows' named'
    exact removable.unique r old r' old' (same ▸ named) (same' ▸ named')
  expired r inRows named := by
    obtain ⟨old, same, ttl⟩ := spared.records threadId deleted r inRows named
    obtain ⟨config, state, expiry, policy, fresh, computed, due⟩ := removable.expired r old (same ▸ named)
    rw [same] at named ⊢
    refine ⟨config, state, expiry, ?_, fresh, computed, due⟩
    rw [spared.config, effectiveThreadTtl_congr (named ▸ ttl)]
    exact policy

theorem SweepWork.Valid.spared {step : SweepWork} (valid : step.Valid s now)
    (spared : Spared s s' removals deletions markings) (active : ∀ id ∈ step.removals, id ∈ removals)
    (deleted : ∀ id ∈ step.deletions, id ∈ deletions) (marked : ∀ id ∈ step.markings, id ∈ markings) :
    step.Valid s' now := by
  cases step with
  | prune threadIds => exact fun threadId member => spared.inactive threadId (active threadId member) (valid threadId member)
  | take item =>
    simp only [Valid] at valid ⊢
    cases strategy : item.config.strategy with
    | delete =>
      have isDelete : item.isDelete = true := by simp [Expired.isDelete, strategy]
      simp only [strategy] at valid
      exact valid.spared spared (active _ (by simp [SweepWork.removals, isDelete]))
        (deleted _ (by simp [SweepWork.deletions, isDelete]))
    | keepLatest =>
      have isKeep : item.isDelete = false := by simp [Expired.isDelete, strategy]
      have mine := marked item.threadId (by simp [SweepWork.markings, isKeep])
      simp only [strategy] at valid
      exact ⟨spared.listed _ mine valid.1, by rw [spared.overrides _ mine]; exact valid.2⟩

theorem ValidWork.spared {work : List SweepWork} (valid : ValidWork s now work)
    (spared : Spared s s' removals deletions markings)
    (active : ∀ id ∈ work.flatMap SweepWork.removals, id ∈ removals)
    (deleted : ∀ id ∈ work.flatMap SweepWork.deletions, id ∈ deletions)
    (marked : ∀ id ∈ work.flatMap SweepWork.markings, id ∈ markings) : ValidWork s' now work where
  each step member := (valid.each step member).spared spared
    (fun id inside => active id (List.mem_flatMap.mpr ⟨step, member, inside⟩))
    (fun id inside => deleted id (List.mem_flatMap.mpr ⟨step, member, inside⟩))
    (fun id inside => marked id (List.mem_flatMap.mpr ⟨step, member, inside⟩))
  distinct := valid.distinct

theorem ValidWork.tail {step : SweepWork} {rest : List SweepWork} (valid : ValidWork s now (step :: rest)) :
    ValidWork s now rest where
  each step member := valid.each step (List.mem_cons_of_mem _ member)
  distinct := by
    cases step with
    | prune => exact valid.distinct
    | take item => exact (List.nodup_cons.mp valid.distinct).2

end Transfer

theorem deletions_subset {work : List SweepWork} {threadId : Uuid}
    (ahead : threadId ∈ work.flatMap SweepWork.deletions) : threadId ∈ (taken work).map Expired.threadId := by
  obtain ⟨step, member, inside⟩ := List.mem_flatMap.mp ahead
  cases step with
  | prune => cases inside
  | take item =>
    simp only [SweepWork.deletions] at inside
    split at inside
    · rw [List.mem_singleton.mp inside]
      exact List.mem_map_of_mem (List.mem_filterMap.mpr ⟨_, member, rfl⟩)
    · cases inside

theorem markings_subset {work : List SweepWork} {threadId : Uuid}
    (ahead : threadId ∈ work.flatMap SweepWork.markings) : threadId ∈ (taken work).map Expired.threadId := by
  obtain ⟨step, member, inside⟩ := List.mem_flatMap.mp ahead
  cases step with
  | prune => cases inside
  | take item =>
    simp only [SweepWork.markings] at inside
    split at inside
    · cases inside
    · rw [List.mem_singleton.mp inside]
      exact List.mem_map_of_mem (List.mem_filterMap.mpr ⟨_, member, rfl⟩)

section Own

variable {s : Runtime} {removals deletions markings : List Uuid}

theorem cascade_spared (s : Runtime) (memory : Memory) (threadId : Uuid) (removals deletions markings : List Uuid) :
    Spared s { cascade s threadId with memory := memory } removals deletions markings where
  config := rfl
  inactive other _ inactive run member named := by
    simp only [cascade, Table.keep_values, List.mem_filter] at member
    exact inactive run member.1 named
  records _ _ _ inRows _ := ⟨inRows, rfl, rfl⟩
  listed _ _ listed := listed
  overrides _ _ := rfl

theorem memory_spared (s : Runtime) (memory : Memory) (removals deletions markings : List Uuid) :
    Spared s { s with memory := memory } removals deletions markings where
  config := rfl
  inactive _ _ inactive := inactive
  records _ _ _ inRows _ := ⟨inRows, rfl, rfl⟩
  listed _ _ listed := listed
  overrides _ _ := rfl

variable (removals) in
/-- A record is popped. Where its thread has still to be deleted, it is the only one of the thread. -/
theorem pop_spared {threadId : Uuid} {threadIdx r : Nat} (stands : s.threads.rows[threadIdx]? = some r)
    (named : (s.threads.get r).threadId = threadId)
    (only : threadId ∈ deletions → ∀ r' ∈ s.threads.rows, (s.threads.get r').threadId = threadId → r' = r)
    (notMarking : threadId ∉ markings) :
    Spared s { s with threads := s.threads.pop threadIdx, threadTtls := s.threadTtls.erase threadId.str }
      removals deletions markings where
  config := rfl
  inactive _ _ inactive := inactive
  records other ahead r' inRows own := by
    have old : r' ∈ s.threads.rows := List.mem_of_mem_eraseIdx inRows
    by_cases same : other = threadId
    · subst same
      obtain ⟨i, different, at_i⟩ := List.mem_eraseIdx_iff_getElem?.mp inRows
      rw [only ahead r' old own, ← stands] at at_i
      have inside : threadIdx < s.threads.rows.length := (List.getElem?_eq_some_iff.mp stands).1
      exact absurd ((List.getElem?_inj inside s.threads.nodup).mp at_i.symm).symm different
    · have differs : other.str ≠ threadId.str := fun texts => same (Uuid.str_inj.mp texts)
      exact ⟨old, rfl, Dict.get?_erase_of_ne _ differs⟩
  listed other ahead listed := by
    obtain ⟨thread, inValues, own⟩ := List.mem_map.mp listed
    obtain ⟨r', inRows, rfl⟩ := Table.mem_values.mp inValues
    have elsewhere : r' ≠ r := by
      rintro rfl
      exact notMarking (named ▸ own ▸ ahead)
    have kept : r' ∈ (s.threads.pop threadIdx).rows := by
      obtain ⟨i, at_i⟩ := List.mem_iff_getElem?.mp inRows
      have other : i ≠ threadIdx := by
        rintro rfl
        rw [stands] at at_i
        exact elsewhere (Option.some.inj at_i).symm
      exact List.mem_eraseIdx_iff_getElem?.mpr ⟨i, other, at_i⟩
    exact List.mem_map.mpr ⟨_, Table.mem_values.mpr ⟨r', kept, rfl⟩, own⟩
  overrides other ahead := by
    have differs : other.str ≠ threadId.str := fun same => notMarking (Uuid.str_inj.mp same ▸ ahead)
    exact Dict.get?_erase_of_ne _ differs

theorem mark_spared (s : Runtime) {threadId : Uuid} (state : ThreadTtlState) (notDeletion : threadId ∉ deletions)
    (notMarking : threadId ∉ markings) :
    Spared s { s with threadTtls := s.threadTtls.set threadId.str state } removals deletions markings where
  config := rfl
  inactive _ _ inactive := inactive
  records other ahead _ inRows _ := by
    have differs : other.str ≠ threadId.str := fun same => notDeletion (Uuid.str_inj.mp same ▸ ahead)
    exact ⟨inRows, rfl, Dict.get?_set_of_ne _ _ differs⟩
  listed _ _ listed := listed
  overrides other ahead := by
    have differs : other.str ≠ threadId.str := fun same => notMarking (Uuid.str_inj.mp same ▸ ahead)
    exact Dict.get?_set_of_ne _ _ differs

end Own

/-- What a suspended sweep relies on. -/
def Sweep.Assertion (s : Runtime) : Sweep → Prop
  | .called _ | .gettingFirst _ | .stuck => True
  | .gettingCheckpointer frame threadIds rest => ValidWork s frame.now (.prune threadIds :: rest)
  | .pruning frame rest => ValidWork s frame.now rest
  | .deleting frame deletion rest =>
    ValidWork s frame.now rest ∧ ∃ threadId threadIdx r, deletion = .deletingCheckpoints threadId threadIdx ∧
      s.threads.rows[threadIdx]? = some r ∧ (s.threads.get r).threadId = threadId ∧
      Removable s frame.now threadId ∧ threadId ∉ (taken rest).map Expired.threadId

section Turns

variable {base : BaseSaver} {serde : Serde} {fuel : Nat} {s : Runtime} {frame : SweepFrame} {rest : List SweepWork}

variable (frame) in
theorem acts_safe {step : SweepWork} (valid : step.Valid s frame.now) :
    ∀ act ∈ step.acts s frame, act.Safe frame.now s := by
  intro act member
  cases step with
  | prune threadIds =>
    simp only [SweepWork.acts] at member
    split at member
    · rw [List.mem_singleton.mp member]
      exact valid
    · cases member
  | take item =>
    simp only [SweepWork.acts, SweepWork.Valid] at member valid
    cases strategy : item.config.strategy with
    | delete =>
      simp only [strategy, List.mem_map, Option.mem_toList] at member valid
      obtain ⟨pair, located, rfl⟩ := member
      obtain ⟨stands, named⟩ := Table.locate?_eq_some located
      have named : (s.threads.get pair.2).threadId = item.threadId := of_decide_eq_true named
      exact ⟨pair.2, stands, named, valid.inactive, valid.expired _ (List.mem_of_getElem? stands) named⟩
    | keepLatest =>
      simp only [strategy, List.mem_singleton] at member valid
      subst member
      exact ⟨valid.1, by rw [valid.2], by rw [valid.2]⟩

variable (base serde fuel) in
/-- After one piece of work the decisions about the rest are still right. -/
theorem advance_valid {step : SweepWork} (valid : ValidWork s frame.now (step :: rest)) :
    match Sweep.advance base serde fuel s frame rest step with
    | .inl turn => ∀ p ∈ turn.2.points, p.Assertion turn.1
    | .inr next => next.2.now = frame.now ∧ ValidWork next.1 frame.now rest := by
  cases step with
  | prune threadIds =>
    simp only [Sweep.advance]
    split
    · rename_i turn stopped
      split at stopped
      · simp only [Sweep.prune] at stopped
        split at stopped
        · cases stopped
          intro p member
          rw [List.mem_singleton.mp member]
          exact valid.tail
        · split at stopped
          · cases stopped
            intro p member
            rw [List.mem_singleton.mp member]
            trivial
          · cases stopped
            intro p member
            cases member
          · cases stopped
      · cases stopped
        intro p member
        rw [List.mem_singleton.mp member]
        exact valid
    · rename_i next went
      split at went
      · simp only [Sweep.prune] at went
        split at went
        · cases went
        · split at went
          · cases went
          · cases went
          · cases went
            exact ⟨rfl, valid.tail.spared (memory_spared s _ _ _ _) (fun _ h => h) (fun _ h => h) (fun _ h => h)⟩
      · cases went
  | take item =>
    have fresh : item.threadId ∉ (taken rest).map Expired.threadId := (List.nodup_cons.mp valid.distinct).1
    have notDeletion : item.threadId ∉ rest.flatMap SweepWork.deletions := fun ahead => fresh (deletions_subset ahead)
    have notMarking : item.threadId ∉ rest.flatMap SweepWork.markings := fun ahead => fresh (markings_subset ahead)
    have own := valid.each _ (List.mem_cons_self ..)
    simp only [Sweep.advance, SweepWork.Valid] at own ⊢
    cases strategy : item.config.strategy with
    | keepLatest =>
      exact ⟨rfl, valid.tail.spared (mark_spared s _ notDeletion notMarking) (fun _ h => h) (fun _ h => h)
        (fun _ h => h)⟩
    | delete =>
      simp only [strategy] at own
      simp only [sweep_delete]
      cases located : s.threads.locate? (byId item.threadId) with
      | none => exact ⟨rfl, valid.tail⟩
      | some pair =>
        obtain ⟨threadIdx, r⟩ := pair
        obtain ⟨stands, named⟩ := Table.locate?_eq_some located
        have named : (s.threads.get r).threadId = item.threadId := of_decide_eq_true named
        have cascaded := fun memory => cascade_spared s memory item.threadId
        by_cases custom : s.config.useCustomCheckpointer
        · simp only [custom, if_true, Sweep.afterDelete]
          intro p member
          rw [List.mem_singleton.mp member]
          have left := cascaded s.memory
          exact ⟨valid.tail.spared (left _ _ _) (fun _ h => h) (fun _ h => h) (fun _ h => h),
            item.threadId, threadIdx, r, rfl, stands, named,
            own.spared (left [item.threadId] [item.threadId] []) (by simp) (by simp), fresh⟩
        · simp only [custom, Bool.false_eq_true, if_false, Sweep.afterDelete]
          have first := valid.tail.spared (cascaded (s.memory.deleteThread base item.threadId.str) _ _ _)
            (fun _ h => h) (fun _ h => h) (fun _ h => h)
          have second := first.spared (pop_spared (rest.flatMap SweepWork.removals) stands named
            (fun ahead => absurd ahead notDeletion) notMarking) (fun _ h => h) (fun _ h => h) (fun _ h => h)
          refine ⟨trivial, ?_⟩
          simp only [deletedThread, custom, Bool.false_eq_true, if_false]
          exact second

/-- A run through the loops from right decisions: every act is safe, and what
the sweep relies on where it waits holds. -/
theorem loop_safe {work : List SweepWork} (at' : Runtime × SweepFrame) (valid : ValidWork at'.1 at'.2.now work) :
    (∀ act ∈ Sweep.loopActs base serde fuel work at', act.2.2.Safe act.2.1 act.1) ∧
      ∀ p ∈ (Sweep.loop base serde fuel work at').2.points, p.Assertion (Sweep.loop base serde fuel work at').1 := by
  induction work generalizing at' with
  | nil => exact ⟨by simp [Sweep.loopActs], by simp [Sweep.loop, returned]⟩
  | cons step rest ih =>
    obtain ⟨s, frame⟩ := at'
    have now := acts_safe frame (valid.each _ (List.mem_cons_self ..))
    have advanced := advance_valid base serde fuel valid
    simp only [Sweep.loopActs, Sweep.loop]
    cases result : Sweep.advance base serde fuel s frame rest step with
    | inl turn =>
      rw [result] at advanced
      refine ⟨fun act member => ?_, advanced⟩
      rw [Sum.elim_inl, List.append_nil] at member
      obtain ⟨own, mine, rfl⟩ := List.mem_map.mp member
      exact now own mine
    | inr next =>
      rw [result] at advanced
      obtain ⟨sameNow, stillValid⟩ := advanced
      obtain ⟨later, points⟩ := ih next (sameNow ▸ stillValid)
      refine ⟨fun act member => ?_, points⟩
      rcases List.mem_append.mp member with early | others
      · obtain ⟨own, mine, rfl⟩ := List.mem_map.mp early
        exact now own mine
      · exact later act others

end Turns

section Decisions

variable {s : Runtime} {now : Time}

theorem inactive_of_not_mem {threadId : Uuid} (absent : threadId ∉ activeThreadIds s.toGlobalStore) :
    Inactive s.toGlobalStore threadId := by
  intro run member named
  by_contra active
  refine absent (List.mem_map.mpr ⟨run, List.mem_filter.mpr ⟨member, ?_⟩, named⟩)
  simpa using active

theorem effectiveThreadTtl_state {globalTtl : Option PyDict} {ttls : ThreadTtls} {threadId : Uuid}
    {config : Option TtlConfig} {state : ThreadTtlState}
    (policy : effectiveThreadTtl globalTtl ttls threadId = .ok (config, state)) :
    (ttls.get? threadId.str).getD .empty = state := by
  simp only [effectiveThreadTtl] at policy
  split at policy
  · cases policy
    rfl
  · obtain ⟨_, _, same⟩ := bind_ok policy
    cases same
    rfl

/-- Why a thread is in the list of the expired ones. -/
structure Decided (s : Runtime) (now : Time) (thread : Thread) (item : Expired) : Prop where
  threadId : item.threadId = thread.threadId
  inactive : Inactive s.toGlobalStore thread.threadId
  state : (s.threadTtls.get? thread.threadId.str).getD .empty = item.state
  expired : StillExpired s now thread

theorem examine_decided {thread : Thread} {item : Expired} (examined : examine s now thread = .ok (some item)) :
    Decided s now thread item := by
  simp only [examine] at examined
  split at examined
  · cases examined
  · rename_i inactive
    obtain ⟨⟨config, state⟩, policy, examined⟩ := bind_ok examined
    cases config with
    | none => cases examined
    | some config =>
      dsimp only at examined
      split at examined
      · cases examined
      · rename_i fresh
        obtain ⟨expiry, computed, kept⟩ := bind_ok examined
        have due : expiry ≤ now := by
          by_contra late
          simp [late] at kept
        simp only [due, if_true, Except.ok.injEq, Option.some.injEq] at kept
        subst kept
        exact ⟨rfl, inactive_of_not_mem inactive, effectiveThreadTtl_state policy,
          config, state, expiry, policy, by simpa using fresh, computed, due⟩

theorem examineAll_decided {threads : List Thread} {items : List Expired}
    (examined : examineAll s now threads = .ok items) :
    (∀ item ∈ items, ∃ thread ∈ threads, Decided s now thread item) ∧
      (items.map Expired.threadId).Sublist (threads.map Thread.threadId) := by
  induction threads generalizing items with
  | nil =>
    cases examined
    exact ⟨by simp, List.Sublist.refl _⟩
  | cons thread threads ih =>
    rw [examineAll] at examined
    obtain ⟨first, one, examined⟩ := bind_ok examined
    obtain ⟨rest, others, examined⟩ := bind_ok examined
    cases examined
    obtain ⟨decided, ids⟩ := ih others
    cases first with
    | none =>
      refine ⟨fun item member => ?_, ids.cons _⟩
      obtain ⟨thread', listed, mine⟩ := decided item member
      exact ⟨thread', List.mem_cons_of_mem _ listed, mine⟩
    | some item =>
      have own := examine_decided one
      constructor
      · intro item' member
        rcases List.mem_cons.mp member with rfl | later
        · exact ⟨thread, List.mem_cons_self .., own⟩
        · obtain ⟨thread', listed, mine⟩ := decided item' later
          exact ⟨thread', List.mem_cons_of_mem _ listed, mine⟩
      · rw [List.map_cons]
        change List.Sublist (item.threadId :: _) _
        rw [own.threadId]
        exact ids.cons_cons _

theorem removable_of_decided (distinct : s.threadIds.Nodup) {thread : Thread} {item : Expired}
    (listed : thread ∈ s.threads.values) (decided : Decided s now thread item) :
    Removable s now thread.threadId := by
  have rows : (s.threads.rows.map (fun r => (s.threads.get r).threadId)).Nodup := by
    rwa [GlobalStore.threadIds, Table.values, List.map_map] at distinct
  obtain ⟨r₀, inRows₀, rfl⟩ := Table.mem_values.mp listed
  constructor
  · exact decided.inactive
  · intro r inRows r' inRows' named named'
    exact List.inj_on_of_nodup_map rows inRows inRows' (named.trans named'.symm)
  · intro r inRows named
    rw [List.inj_on_of_nodup_map rows inRows inRows₀ named]
    exact decided.expired

theorem mem_sweepWork {batchSize : Int} {items : List Expired} {step : SweepWork}
    (member : step ∈ sweepWork batchSize items) :
    (∃ item ∈ items, step = .take item) ∨
      ∃ threadIds, step = .prune threadIds ∧ threadIds ⊆ items.map Expired.threadId := by
  obtain ⟨batch, inBatches, inBatch⟩ := List.mem_flatMap.mp member
  have part : ∀ item ∈ batch, item ∈ items := by
    intro item inside
    have whole := flatten_batches (show 0 < (max 1 batchSize).toNat by omega) items
    rw [← whole]
    exact List.mem_flatten.mpr ⟨batch, inBatches, inside⟩
  rw [batchWork] at inBatch
  rcases List.mem_append.mp inBatch with prune | take
  · split at prune
    · cases prune
    · refine Or.inr ⟨_, List.mem_singleton.mp prune, fun threadId inside => ?_⟩
      obtain ⟨item, kept, rfl⟩ := List.mem_map.mp inside
      exact List.mem_map_of_mem (part item (List.mem_filter.mp kept).1)
  · obtain ⟨item, inside, rfl⟩ := List.mem_map.mp take
    exact Or.inl ⟨item, part item inside, rfl⟩

/-- What the sweep decides to do is right at that moment. -/
theorem selectExpired_valid (distinct : s.threadIds.Nodup) {limit : Option Int} {selected : List Expired}
    (chosen : selectExpired s limit now = .ok selected) (batchSize : Int) :
    ValidWork s now (sweepWork batchSize selected) := by
  obtain ⟨count, _, chosen⟩ := bind_ok chosen
  obtain ⟨items, examined, chosen⟩ := bind_ok chosen
  cases chosen
  obtain ⟨decided, ids⟩ := examineAll_decided examined
  have perm := List.mergeSort_perm items Expired.le
  have part : (count.elim (items.mergeSort Expired.le) (items.mergeSort Expired.le).take).Sublist
      (items.mergeSort Expired.le) := by
    cases count with
    | none => exact List.Sublist.refl _
    | some count => exact List.take_sublist _ _
  have found : ∀ item ∈ count.elim (items.mergeSort Expired.le) (items.mergeSort Expired.le).take,
      ∃ thread ∈ s.threads.values, Decided s now thread item :=
    fun item member => decided item (perm.subset (part.subset member))
  constructor
  · intro step member
    rcases mem_sweepWork member with ⟨item, inside, rfl⟩ | ⟨threadIds, rfl, inside⟩
    · obtain ⟨thread, listed, own⟩ := found item inside
      simp only [SweepWork.Valid, own.threadId]
      cases item.config.strategy with
      | delete => exact removable_of_decided distinct listed own
      | keepLatest => exact ⟨List.mem_map_of_mem listed, own.state⟩
    · intro threadId ahead
      obtain ⟨item, member', rfl⟩ := List.mem_map.mp (inside ahead)
      obtain ⟨thread, _, own⟩ := found item member'
      rw [own.threadId]
      exact own.inactive
  · rw [taken_sweepWork]
    have all : (items.map Expired.threadId).Nodup := distinct.sublist ids
    exact ((perm.map Expired.threadId).nodup_iff.mpr all).sublist (part.map _)

end Decisions

section SweepTurns

variable {base : BaseSaver} {serde : Serde} {fuel : Nat} {s : Runtime}

theorem start_safe (distinct : s.threadIds.Nodup) (call : SweepCall) (now : Time) :
    (∀ act ∈ Sweep.startActs base serde fuel s call now, act.2.2.Safe act.2.1 act.1) ∧
      ∀ p ∈ (Sweep.start base serde fuel s call now).2.points,
        p.Assertion (Sweep.start base serde fuel s call now).1 := by
  simp only [Sweep.startActs, Sweep.start]
  split
  · exact ⟨by simp, by simp [returned]⟩
  · cases chosen : selectExpired s call.limit now with
    | error e => exact ⟨by simp, by simp [raised]⟩
    | ok selected => exact loop_safe _ (selectExpired_valid distinct chosen call.batchSize)

/-- A deletion that failed is passed over or ends the sweep. -/
theorem afterDelete_failed (frame : SweepFrame) (rest : List SweepWork) (e : PyError) :
    Sweep.afterDelete frame rest (raised s e) = .inr (s, frame) ∨
      Sweep.afterDelete frame rest (raised s e) = .inl (raised s e) := by
  simp only [Sweep.afterDelete, raised]
  cases e with
  | http statusCode detail =>
    by_cases missing : statusCode = 404
    · subst missing
      exact Or.inl rfl
    · refine Or.inr ?_
      split
      · rename_i same
        cases same
      · rename_i same
        cases same
        exact absurd rfl missing
      · rename_i same
        cases same
        rfl
      all_goals rename_i same; cases same
  | _ => exact Or.inr rfl

/-- Where the sweep reads the list of the threads. -/
def Sweep.collects : Sweep → Bool
  | .called call => !call.wantsStats
  | .gettingFirst _ => true
  | _ => false

/-- A turn of the sweep from where what it relies on holds. -/
theorem sweep_turn_safe {p : Sweep} (holds : p.Assertion s) (distinct : p.collects → s.threadIds.Nodup)
    (reply : Reply) :
    (∀ act ∈ Sweep.acts base serde fuel s p reply, act.2.2.Safe act.2.1 act.1) ∧
      ∀ q ∈ (Sweep.resume base serde fuel s p reply).2.points,
        q.Assertion (Sweep.resume base serde fuel s p reply).1 := by
  cases p with
  | stuck => exact ⟨by simp [Sweep.acts], by simp [Sweep.resume, Sweep.Assertion]⟩
  | called call =>
    simp only [Sweep.acts, Sweep.resume]
    split
    · exact ⟨by simp, by simp [Sweep.Assertion]⟩
    · rename_i noStats
      exact start_safe (distinct (by simpa [Sweep.collects] using noStats)) call reply.now
  | gettingFirst call =>
    simp only [Sweep.acts, Sweep.resume]
    cases reply.answer with
    | error e => exact ⟨by simp [Except.isOk, Except.toBool], by simp [raised]⟩
    | ok value => exact start_safe (distinct rfl) call reply.now
  | gettingCheckpointer frame threadIds rest =>
    simp only [Sweep.acts, Sweep.resume]
    cases reply.answer with
    | error e => exact ⟨by simp [Except.isOk, Except.toBool], by simp [raised]⟩
    | ok value => exact loop_safe (s, { frame with hasCheckpointer := true }) holds
  | pruning frame rest =>
    simp only [Sweep.acts, Sweep.resume]
    cases reply.answer with
    | error e => exact ⟨by simp [Except.isOk, Except.toBool], by simp [raised]⟩
    | ok value => exact loop_safe (s, frame) holds
  | deleting frame deletion rest =>
    obtain ⟨valid, threadId, threadIdx, r, rfl, stands, named, removable, fresh⟩ := holds
    simp only [Sweep.acts, Sweep.resume, Delete.resume]
    cases reply.answer with
    | error e =>
      have noPop : Except.isOk (.error e : Except PyError PyVal) = false := rfl
      simp only [attempt_error, noPop, Bool.false_eq_true, if_false, List.nil_append]
      rcases afterDelete_failed (s := s) frame rest e with passed | ended
      · rw [passed]
        exact loop_safe (s, frame) valid
      · rw [ended]
        exact ⟨by simp, by simp [raised]⟩
    | ok value =>
      have notDeletion : threadId ∉ rest.flatMap SweepWork.deletions := fun ahead => fresh (deletions_subset ahead)
      have notMarking : threadId ∉ rest.flatMap SweepWork.markings := fun ahead => fresh (markings_subset ahead)
      have after := valid.spared (pop_spared (rest.flatMap SweepWork.removals) stands named
        (fun ahead => absurd ahead notDeletion) notMarking) (fun _ h => h) (fun _ h => h) (fun _ h => h)
      simp only [attempt_ok, delete_pop stands named, Sweep.afterDelete]
      obtain ⟨acts, points⟩ := loop_safe
        (_, { frame with processed := frame.processed + 1, deleted := frame.deleted + 1 }) after
      refine ⟨fun act member => ?_, points⟩
      rcases List.mem_append.mp member with own | others
      · have pop : act = (s, frame.now, .pop threadId threadIdx) := by
          simpa [Except.isOk, Except.toBool, Delete.aim] using own
        rw [pop]
        exact ⟨r, stands, named, removable.inactive, removable.expired r (List.mem_of_getElem? stands) named⟩
      · exact acts act others

end SweepTurns

def applyAll (custom : Bool) (s : GlobalStore) (acts : List (Runtime × Time × SweepAct)) : GlobalStore :=
  acts.foldl (fun s act => act.2.2.apply custom s) s

section Store

variable {base : BaseSaver} {serde : Serde} {fuel : Nat}

variable (base serde fuel) in
theorem advance_store (s : Runtime) (frame : SweepFrame) (rest : List SweepWork) (step : SweepWork) :
    let acted := applyAll s.config.useCustomCheckpointer s.toGlobalStore
      ((step.acts s frame).map (fun act => (s, frame.now, act)))
    match Sweep.advance base serde fuel s frame rest step with
    | .inl turn => turn.1.toGlobalStore = acted
    | .inr next => next.1.toGlobalStore = acted ∧ next.1.config = s.config := by
  cases step with
  | prune threadIds =>
    have acted : applyAll s.config.useCustomCheckpointer s.toGlobalStore
        ((SweepWork.acts s frame (.prune threadIds)).map (fun act => (s, frame.now, act))) = s.toGlobalStore := by
      simp only [SweepWork.acts]
      split <;> rfl
    simp only [acted, Sweep.advance, Sweep.prune]
    by_cases has : frame.hasCheckpointer
    · by_cases custom : s.config.useCustomCheckpointer
      · simp only [has, custom, if_true]
      · simp only [has, custom, if_true, Bool.false_eq_true, if_false, prune]
        cases (threadIds.map (fun id => PyId.text id.str)).foldlM
          (fun m id => pruneThread serde fuel m id.str) s.memory with
        | none => rfl
        | some memory => exact ⟨rfl, rfl⟩
    · simp only [has, Bool.false_eq_true, if_false]
  | take item =>
    simp only [Sweep.advance, SweepWork.acts]
    cases item.config.strategy with
    | keepLatest => exact ⟨rfl, rfl⟩
    | delete =>
      simp only [sweep_delete]
      cases s.threads.locate? (byId item.threadId) with
      | none => exact ⟨rfl, rfl⟩
      | some pair =>
        obtain ⟨threadIdx, r⟩ := pair
        by_cases custom : s.config.useCustomCheckpointer
        · simp only [custom, if_true, Sweep.afterDelete]
          rfl
        · simp only [custom, Bool.false_eq_true, if_false, Sweep.afterDelete, deletedThread]
          exact ⟨rfl, rfl⟩

theorem loop_store (work : List SweepWork) (at' : Runtime × SweepFrame) :
    (Sweep.loop base serde fuel work at').1.toGlobalStore =
      applyAll at'.1.config.useCustomCheckpointer at'.1.toGlobalStore (Sweep.loopActs base serde fuel work at') := by
  induction work generalizing at' with
  | nil => rfl
  | cons step rest ih =>
    have advanced := advance_store base serde fuel at'.1 at'.2 rest step
    simp only [Sweep.loop, Sweep.loopActs]
    cases result : Sweep.advance base serde fuel at'.1 at'.2 rest step with
    | inl turn =>
      rw [result] at advanced
      rw [Sum.elim_inl, Sum.elim_inl, List.append_nil]
      exact advanced
    | inr next =>
      rw [result] at advanced
      obtain ⟨store, config⟩ := advanced
      rw [Sum.elim_inr, Sum.elim_inr, ih next, store, config, applyAll, applyAll, applyAll, List.foldl_append]

theorem start_store (s : Runtime) (call : SweepCall) (now : Time) :
    (Sweep.start base serde fuel s call now).1.toGlobalStore =
      applyAll s.config.useCustomCheckpointer s.toGlobalStore (Sweep.startActs base serde fuel s call now) := by
  simp only [Sweep.start, Sweep.startActs]
  split
  · rfl
  · cases selectExpired s call.limit now with
    | error e => rfl
    | ok selected => exact loop_store _ _

theorem sweep_turn_store {s : Runtime} {p : Sweep} (holds : p.Assertion s) (reply : Reply) :
    (Sweep.resume base serde fuel s p reply).1.toGlobalStore =
      applyAll s.config.useCustomCheckpointer s.toGlobalStore (Sweep.acts base serde fuel s p reply) := by
  cases p with
  | stuck => rfl
  | called call =>
    simp only [Sweep.resume, Sweep.acts]
    split
    · rfl
    · exact start_store s call reply.now
  | gettingFirst call =>
    simp only [Sweep.resume, Sweep.acts]
    cases reply.answer with
    | error e => rfl
    | ok value => exact start_store s call reply.now
  | gettingCheckpointer frame threadIds rest =>
    simp only [Sweep.resume, Sweep.acts]
    cases reply.answer with
    | error e => rfl
    | ok value => exact loop_store _ _
  | pruning frame rest =>
    simp only [Sweep.resume, Sweep.acts]
    cases reply.answer with
    | error e => rfl
    | ok value => exact loop_store _ _
  | deleting frame deletion rest =>
    obtain ⟨_, threadId, threadIdx, r, rfl, stands, named, _⟩ := holds
    simp only [Sweep.resume, Sweep.acts, Delete.resume]
    cases reply.answer with
    | error e =>
      have noPop : Except.isOk (.error e : Except PyError PyVal) = false := rfl
      simp only [attempt_error, noPop, Bool.false_eq_true, if_false, List.nil_append]
      rcases afterDelete_failed (s := s) frame rest e with passed | ended
      · rw [passed]
        exact loop_store _ _
      · rw [ended]
        rfl
    | ok value =>
      simp only [attempt_ok, delete_pop stands named, Sweep.afterDelete, Sum.elim_inr]
      exact loop_store _ _

end Store

end Threads

end InmemRuntime
