import InmemRuntime.HeldIndices
import InmemRuntime.Lib.Slices
import InmemRuntime.PruneHistory
import InmemRuntime.ThreadSweep

namespace InmemRuntime

namespace Threads

section Alone

variable (base : BaseSaver) (serde : Serde) (fuel : Nat)

/-- The thread of an id and everything that goes with it, without the ones that
a custom checkpointer keeps. -/
def deletedThread (s : Runtime) (threadId : Uuid) (threadIdx : Nat) : Runtime :=
  { cascade s threadId with
    memory := if s.config.useCustomCheckpointer then s.memory else s.memory.deleteThread base threadId.str
    threads := s.threads.pop threadIdx
    threadTtls := s.threadTtls.erase threadId.str }

def SweepFrame.count (frame : SweepFrame) (deleted : Nat) : SweepFrame :=
  { frame with processed := frame.processed + 1, deleted := frame.deleted + deleted }

/-- One piece of the work, done without interruption. `none` means that the
prune does not end within the fuel. -/
def SweepWork.perform (at' : Runtime × SweepFrame) : SweepWork → Option (Runtime × SweepFrame)
  | .prune threadIds =>
    let frame := { at'.2 with hasCheckpointer := true }
    if at'.1.config.useCustomCheckpointer then some (at'.1, frame)
    else
      ((threadIds.map (fun id => PyId.text id.str)).foldlM
        (fun m id => pruneThread serde fuel m id.str) at'.1.memory).map
          (fun memory => ({ at'.1 with memory := memory }, frame))
  | .take item =>
    match item.config.strategy with
    | .delete =>
      match at'.1.threads.locate? (byId item.threadId) with
      | none => some at'
      | some (threadIdx, _) => some (deletedThread base at'.1 item.threadId threadIdx, at'.2.count 1)
    | .keepLatest =>
      some ({ at'.1 with threadTtls := at'.1.threadTtls.set item.threadId.str item.marked }, at'.2.count 0)

variable {base serde fuel} {reply : Reply} {value : PyVal}

theorem delete_pop {s : Runtime} {threadId : Uuid} {threadIdx r : Nat}
    (stands : s.threads.rows[threadIdx]? = some r) (named : (s.threads.get r).threadId = threadId) :
    Delete.pop s threadId threadIdx =
      ({ s with threads := s.threads.pop threadIdx, threadTtls := s.threadTtls.erase threadId.str },
        .finished (.ok [threadId])) := by
  simp only [Delete.pop, stands, returned, named]

/-- The deletion that the sweep makes, up to where it waits. -/
theorem sweep_delete (s : Runtime) (threadId : Uuid) :
    Sweep.delete base s threadId =
      match s.threads.locate? (byId threadId) with
      | none => (s, .finished (.error (notFound threadId)))
      | some (threadIdx, _) =>
        if s.config.useCustomCheckpointer then
          (cascade s threadId, .suspended (.deletingCheckpoints threadId threadIdx))
        else (deletedThread base s threadId threadIdx, .finished (.ok [threadId])) := by
  cases located : s.threads.locate? (byId threadId) with
  | none => simp [Sweep.delete, Delete.resume, located, plainReply, raised]
  | some pair =>
    obtain ⟨threadIdx, r⟩ := pair
    obtain ⟨stands, named⟩ := Table.locate?_eq_some located
    have named : (s.threads.get r).threadId = threadId := of_decide_eq_true named
    simp only [Sweep.delete, Delete.resume, located, plainReply, attempt_ok, filtersAllow_none,
      Bool.true_eq_false, if_false]
    by_cases custom : s.config.useCustomCheckpointer
    · simp [custom, cascade]
    · have popped := delete_pop (s := { cascade s threadId with
        memory := s.memory.deleteThread base threadId.str }) stands named
      simp only [cascade, custom, Bool.false_eq_true, if_false, deletedThread] at popped ⊢
      exact popped

/-- The deletion of one thread within a sweep, to its end. -/
theorem afterDelete_ends (answered : reply.answer = .ok value) {s s' : Runtime} {item : Expired}
    {frame : SweepFrame} {rest : List SweepWork} {outcome : Except PyError SweepOutcome} :
    Turn.Ends (Sweep.resume base serde fuel) reply
        (Sum.elim id (Sweep.loop base serde fuel rest)
          (Sweep.afterDelete frame rest (Sweep.delete base s item.threadId))) s' outcome ↔
      match s.threads.locate? (byId item.threadId) with
      | none => Turn.Ends (Sweep.resume base serde fuel) reply (Sweep.loop base serde fuel rest (s, frame)) s' outcome
      | some (threadIdx, _) =>
        Turn.Ends (Sweep.resume base serde fuel) reply
          (Sweep.loop base serde fuel rest (deletedThread base s item.threadId threadIdx, frame.count 1))
          s' outcome := by
  rw [sweep_delete]
  cases located : s.threads.locate? (byId item.threadId) with
  | none => rfl
  | some pair =>
    obtain ⟨threadIdx, r⟩ := pair
    obtain ⟨stands, named⟩ := Table.locate?_eq_some located
    have named : (s.threads.get r).threadId = item.threadId := of_decide_eq_true named
    by_cases custom : s.config.useCustomCheckpointer
    · have popped := delete_pop (s := cascade s item.threadId) stands named
      simp only [custom, if_true, Sweep.afterDelete, Sum.elim_inl, id_eq, Turn.Ends.suspended_iff, Sweep.resume,
        Delete.resume, answered, attempt_ok, popped]
      simp only [deletedThread, custom, if_true, SweepFrame.count, List.length_singleton, cascade, Sum.elim_inr]
    · simp only [custom, Bool.false_eq_true, if_false, Sweep.afterDelete, SweepFrame.count,
        List.length_singleton, Sum.elim_inr]

/-- What a sweep that is not interrupted does from the loop on: one piece of
work after the other. -/
theorem loop_ends_iff (answered : reply.answer = .ok value) {work : List SweepWork} {at' : Runtime × SweepFrame}
    {s' : Runtime} {outcome : Except PyError SweepOutcome} :
    Turn.Ends (Sweep.resume base serde fuel) reply (Sweep.loop base serde fuel work at') s' outcome ↔
      ∃ last, work.foldlM (SweepWork.perform base serde fuel) at' = some (s', last) ∧
        outcome = .ok (last.outcome s') := by
  induction work generalizing at' with
  | nil =>
    simp only [Sweep.loop, returned, Turn.Ends.finished_iff, List.foldlM_nil, Option.pure_def,
      Option.some.injEq]
    constructor
    · rintro ⟨rfl, same⟩
      exact ⟨at'.2, rfl, same⟩
    · rintro ⟨_, rfl, same⟩
      exact ⟨rfl, same⟩
  | cons first rest ih =>
    obtain ⟨s, frame⟩ := at'
    rw [List.foldlM_cons]
    cases first with
    | prune threadIds =>
      have pruned : ∀ frame : SweepFrame, frame.hasCheckpointer = true →
          (Turn.Ends (Sweep.resume base serde fuel) reply
            (Sweep.loop base serde fuel (.prune threadIds :: rest) (s, frame)) s' outcome ↔
          ∃ last, ((SweepWork.prune threadIds).perform base serde fuel (s, frame) >>= fun next =>
            rest.foldlM (SweepWork.perform base serde fuel) next) = some (s', last) ∧
            outcome = .ok (last.outcome s')) := by
        intro frame has
        have same : { frame with hasCheckpointer := true } = frame := by
          cases frame; cases has; rfl
        by_cases custom : s.config.useCustomCheckpointer
        · simp only [Sweep.loop, Sweep.advance, has, if_true, Sweep.prune, custom, Sum.elim_inl, id_eq,
            Turn.Ends.suspended_iff, Sweep.resume, answered, attempt_ok, SweepWork.perform, same]
          exact ih
        · simp only [Sweep.loop, Sweep.advance, has, if_true, Sweep.prune, custom, Bool.false_eq_true, if_false,
            SweepWork.perform, same, prune]
          cases (threadIds.map (fun id => PyId.text id.str)).foldlM
            (fun m id => pruneThread serde fuel m id.str) s.memory with
          | none =>
            have stuck : ¬ Turn.Ends (Sweep.resume base serde fuel) reply (s, .suspended .stuck) s' outcome :=
              Turn.Ends.not_of_loop rfl
            constructor
            · exact fun ends => absurd ends stuck
            · rintro ⟨_, never, _⟩
              cases never
          | some memory => exact ih
      by_cases has : frame.hasCheckpointer
      · exact pruned frame has
      · simp only [Sweep.loop, Sweep.advance, has, Bool.false_eq_true, if_false, Sum.elim_inl, id_eq,
          Turn.Ends.suspended_iff, Sweep.resume, answered, attempt_ok]
        exact pruned { frame with hasCheckpointer := true } rfl
    | take item =>
      cases strategy : item.config.strategy with
      | delete =>
        simp only [Sweep.loop, Sweep.advance, strategy, SweepWork.perform]
        rw [afterDelete_ends answered]
        cases s.threads.locate? (byId item.threadId) with
        | none => exact ih
        | some pair => exact ih
      | keepLatest =>
        simp only [Sweep.loop, Sweep.advance, strategy, SweepWork.perform, Sum.elim_inr]
        exact ih

end Alone

/-- The threads that a list of work takes. -/
def taken (work : List SweepWork) : List Expired :=
  work.filterMap (fun step => match step with
    | .take item => some item
    | .prune _ => none)

@[simp] theorem taken_nil : taken [] = [] := rfl

@[simp] theorem taken_prune (threadIds : List Uuid) (work : List SweepWork) :
    taken (.prune threadIds :: work) = taken work := rfl

@[simp] theorem taken_take (item : Expired) (work : List SweepWork) :
    taken (.take item :: work) = item :: taken work := rfl

theorem taken_append (first second : List SweepWork) :
    taken (first ++ second) = taken first ++ taken second := List.filterMap_append ..

theorem taken_map_take (items : List Expired) : taken (items.map .take) = items := by
  induction items with
  | nil => rfl
  | cons item items ih => rw [List.map_cons, taken_take, ih]

theorem taken_batchWork (batch : List Expired) : taken (batchWork batch) = batch := by
  simp only [batchWork, taken_append, taken_map_take]
  split <;> rfl

theorem taken_flatMap_batchWork (parts : List (List Expired)) :
    taken (parts.flatMap batchWork) = parts.flatten := by
  induction parts with
  | nil => rfl
  | cons part parts ih => rw [List.flatMap_cons, taken_append, taken_batchWork, ih, List.flatten_cons]

theorem flatten_batches {size : Nat} (positive : 0 < size) (items : List Expired) :
    (batches size items).flatten = items := List.flatten_all_slices positive items

/-- Cutting the list into batches neither drops nor repeats a thread. -/
theorem taken_sweepWork (batchSize : Int) (items : List Expired) : taken (sweepWork batchSize items) = items := by
  rw [sweepWork, taken_flatMap_batchWork, flatten_batches]
  omega

def Expired.isDelete (item : Expired) : Bool := item.config.strategy = .delete

def deletedIds (items : List Expired) : List Uuid := (items.filter Expired.isDelete).map Expired.threadId

/-- The store after the threads of a list are taken, in its parts other than
the checkpoints. -/
structure Swept (items : List Expired) (s s' : Runtime) : Prop where
  config : s'.config = s.config
  threads : s'.threads.values = s.threads.values.filter (fun thread => thread.threadId ∉ deletedIds items)
  runs : s'.runs.values = s.runs.values.filter (fun run => run.threadId ∉ deletedIds items)
  crons : s'.crons = s.crons.filter (fun cron => ∀ threadId ∈ deletedIds items, cron.threadId ≠ some threadId)
  deleted : ∀ item ∈ items, item.isDelete → s'.threadTtls.get? item.threadId.str = none
  marked : ∀ item ∈ items, item.isDelete = false → s'.threadTtls.get? item.threadId.str = some item.marked
  others : ∀ key, key ∉ items.map (fun item => item.threadId.str) →
    s'.threadTtls.get? key = s.threadTtls.get? key

theorem Swept.refl (s s' : Runtime) (config : s'.config = s.config) (threads : s'.threads = s.threads)
    (runs : s'.runs = s.runs) (crons : s'.crons = s.crons) (ttls : s'.threadTtls = s.threadTtls) :
    Swept [] s s' where
  config := config
  threads := by simp [threads, deletedIds]
  runs := by simp [runs, deletedIds]
  crons := by simp [crons, deletedIds]
  deleted := by simp
  marked := by simp
  others := by simp [ttls]

theorem Swept.trans {first second : List Expired} {s s' s'' : Runtime} (before : Swept first s s')
    (after : Swept second s' s'')
    (apart : ∀ item ∈ first, item.threadId ∉ second.map Expired.threadId) : Swept (first ++ second) s s'' := by
  have ids : deletedIds (first ++ second) = deletedIds first ++ deletedIds second := by
    simp [deletedIds]
  have untouched : ∀ item ∈ first, s''.threadTtls.get? item.threadId.str = s'.threadTtls.get? item.threadId.str := by
    intro item member
    refine after.others _ (fun touched => ?_)
    obtain ⟨item', member', same⟩ := List.mem_map.mp touched
    exact apart item member (List.mem_map.mpr ⟨item', member', Uuid.str_inj.mp same⟩)
  constructor
  · rw [after.config, before.config]
  · rw [after.threads, before.threads, List.filter_filter, ids]
    refine List.filter_congr (fun thread _ => ?_)
    simp [not_or, Bool.and_comm]
  · rw [after.runs, before.runs, List.filter_filter, ids]
    refine List.filter_congr (fun run _ => ?_)
    simp [not_or, Bool.and_comm]
  · rw [after.crons, before.crons, List.filter_filter, ids]
    refine List.filter_congr (fun cron _ => ?_)
    simp only [List.forall_mem_append, Bool.decide_and, Bool.and_comm]
  · intro item member isDelete
    rcases List.mem_append.mp member with early | late
    · rw [untouched item early, before.deleted item early isDelete]
    · exact after.deleted item late isDelete
  · intro item member isKeep
    rcases List.mem_append.mp member with early | late
    · rw [untouched item early, before.marked item early isKeep]
    · exact after.marked item late isKeep
  · intro key outside
    rw [List.map_append, List.mem_append, not_or] at outside
    rw [after.others key outside.2, before.others key outside.1]

theorem Swept.threadIds {items : List Expired} {s s' : Runtime} (swept : Swept items s s') :
    s'.threadIds = s.threadIds.filter (· ∉ deletedIds items) := by
  rw [GlobalStore.threadIds, GlobalStore.threadIds, swept.threads, List.filter_map]
  rfl

/-- The threads taken later are still stored. -/
theorem Swept.stored {item : Expired} {items : List Expired} {s s' : Runtime} (swept : Swept [item] s s')
    (apart : item.threadId ∉ items.map Expired.threadId) (stored : ∀ item' ∈ items, item'.threadId ∈ s.threadIds) :
    ∀ item' ∈ items, item'.threadId ∈ s'.threadIds := by
  intro item' member
  have other : item'.threadId ≠ item.threadId := fun same => apart (same ▸ List.mem_map_of_mem member)
  rw [swept.threadIds]
  refine List.mem_filter.mpr ⟨stored item' member, ?_⟩
  have notDeleted : item'.threadId ∉ deletedIds [item] := by
    intro deleted
    obtain ⟨item'', member'', same⟩ := List.mem_map.mp deleted
    rw [List.mem_singleton.mp (List.mem_filter.mp member'').1] at same
    exact other same.symm
  simpa using notDeleted

theorem exists_locate?_of_mem {s : Runtime} {threadId : Uuid} (member : threadId ∈ s.threadIds) :
    ∃ threadIdx r, s.threads.locate? (byId threadId) = some (threadIdx, r) := by
  cases located : s.threads.locate? (byId threadId) with
  | some pair => exact ⟨pair.1, pair.2, rfl⟩
  | none =>
    exfalso
    obtain ⟨thread, listed, named⟩ := List.mem_map.mp member
    obtain ⟨r, inRows, rfl⟩ := Table.mem_values.mp listed
    cases found : s.threads.findIdx? (byId threadId) with
    | none =>
      have fails := List.findIdx?_eq_none_iff.mp found r inRows
      simp [byId, named] at fails
    | some threadIdx =>
      obtain ⟨r', stands, _⟩ := Table.findIdx?_eq_some found
      simp [Table.locate?, found, stands] at located

section Work

variable {base : BaseSaver} {serde : Serde} {fuel : Nat} {s s' : Runtime} {frame frame' : SweepFrame}

theorem deletedThread_swept (distinct : s.threadIds.Nodup) {item : Expired} (isDelete : item.isDelete)
    {threadIdx r : Nat} (located : s.threads.locate? (byId item.threadId) = some (threadIdx, r)) :
    Swept [item] s (deletedThread base s item.threadId threadIdx) := by
  obtain ⟨stands, named⟩ := Table.locate?_eq_some located
  have named : (s.threads.get r).threadId = item.threadId := of_decide_eq_true named
  have at_i : s.threads.values[threadIdx]? = some (s.threads.get r) := by
    rw [Table.values_getElem?, stands]; rfl
  have ids : deletedIds [item] = [item.threadId] := by simp [deletedIds, isDelete]
  constructor
  · rfl
  · simp only [deletedThread, ids, List.mem_singleton]
    rw [Table.pop_values_eq_filter Thread.threadId distinct at_i, named]
  · simp [deletedThread, cascade, ids]
  · simp [deletedThread, cascade, ids]
  · intro item' member _
    rw [List.mem_singleton.mp member]
    simp [deletedThread]
  · intro item' member isKeep
    rw [List.mem_singleton.mp member, isDelete] at isKeep
    cases isKeep
  · intro key outside
    have other : key ≠ item.threadId.str := by simpa using outside
    simp [deletedThread, Dict.get?_erase_of_ne _ other]

/-- One thread of the list is taken. -/
theorem perform_take (distinct : s.threadIds.Nodup) {item : Expired} (stored : item.threadId ∈ s.threadIds)
    (performed : (SweepWork.take item).perform base serde fuel (s, frame) = some (s', frame')) :
    Swept [item] s s' ∧ frame' = frame.count (if item.isDelete then 1 else 0) := by
  simp only [SweepWork.perform] at performed
  cases strategy : item.config.strategy with
  | delete =>
    have isDelete : item.isDelete = true := by simp [Expired.isDelete, strategy]
    obtain ⟨threadIdx, r, located⟩ := exists_locate?_of_mem stored
    simp only [strategy, located, Option.some.injEq, Prod.mk.injEq] at performed
    obtain ⟨rfl, rfl⟩ := performed
    exact ⟨deletedThread_swept distinct isDelete located, by simp [isDelete]⟩
  | keepLatest =>
    have isKeep : item.isDelete = false := by simp [Expired.isDelete, strategy]
    simp only [strategy, Option.some.injEq, Prod.mk.injEq] at performed
    obtain ⟨rfl, rfl⟩ := performed
    have none' : deletedIds [item] = [] := by simp [deletedIds, isKeep]
    refine ⟨?_, by simp [isKeep]⟩
    constructor
    · rfl
    · simp [none']
    · simp [none']
    · simp [none']
    · intro item' member isDelete
      rw [List.mem_singleton.mp member, isKeep] at isDelete
      cases isDelete
    · intro item' member _
      rw [List.mem_singleton.mp member]
      simp
    · intro key outside
      have other : key ≠ item.threadId.str := by simpa using outside
      simp [Dict.get?_set_of_ne _ _ other]

theorem perform_prune {threadIds : List Uuid}
    (performed : (SweepWork.prune threadIds).perform base serde fuel (s, frame) = some (s', frame')) :
    Swept [] s s' ∧ frame' = { frame with hasCheckpointer := true } := by
  simp only [SweepWork.perform] at performed
  split at performed
  · cases performed
    exact ⟨.refl _ _ rfl rfl rfl rfl rfl, rfl⟩
  · obtain ⟨memory, _, same⟩ := Option.map_eq_some_iff.mp performed
    cases same
    exact ⟨.refl _ _ rfl rfl rfl rfl rfl, rfl⟩

/-- All the work of a sweep over threads that are stored and distinct. -/
theorem performAll_swept {work : List SweepWork} (distinct : s.threadIds.Nodup)
    (apart : ((taken work).map Expired.threadId).Nodup) (stored : ∀ item ∈ taken work, item.threadId ∈ s.threadIds)
    (performed : work.foldlM (SweepWork.perform base serde fuel) (s, frame) = some (s', frame')) :
    Swept (taken work) s s' ∧ frame'.call = frame.call ∧ frame'.before = frame.before ∧
      frame'.processed = frame.processed + (taken work).length ∧
      frame'.deleted = frame.deleted + ((taken work).filter Expired.isDelete).length := by
  induction work generalizing s frame with
  | nil =>
    cases performed
    exact ⟨.refl _ _ rfl rfl rfl rfl rfl, rfl, rfl, rfl, rfl⟩
  | cons first rest ih =>
    rw [List.foldlM_cons] at performed
    obtain ⟨⟨s₁, frame₁⟩, one, others⟩ := Option.bind_eq_some_iff.mp performed
    cases first with
    | prune threadIds =>
      obtain ⟨swept, rfl⟩ := perform_prune one
      have sameIds : s₁.threadIds = s.threadIds := by
        simp [GlobalStore.threadIds, swept.threads, deletedIds]
      obtain ⟨rest', call, before, processed, deleted⟩ :=
        ih (sameIds ▸ distinct) apart (sameIds ▸ stored) others
      exact ⟨swept.trans rest' (by simp), call, before, processed, deleted⟩
    | take item =>
      rw [taken_take] at apart stored ⊢
      rw [List.map_cons, List.nodup_cons] at apart
      obtain ⟨swept, rfl⟩ := perform_take distinct (stored item (List.mem_cons_self ..)) one
      have still := swept.stored apart.1 (fun item' member => stored item' (List.mem_cons_of_mem _ member))
      obtain ⟨rest', call, before, processed, deleted⟩ :=
        ih (swept.threadIds ▸ distinct.filter _) apart.2 still others
      have elsewhere : ∀ item' ∈ [item], item'.threadId ∉ (taken rest).map Expired.threadId := by
        intro item' member
        rw [List.mem_singleton.mp member]
        exact apart.1
      refine ⟨swept.trans rest' elsewhere, call, before, ?_, ?_⟩
      · simp only [processed, SweepFrame.count, List.length_cons]
        omega
      · rw [deleted, SweepFrame.count, List.filter_cons]
        cases item.isDelete
        · simp
        · simp only [if_true, List.length_cons]
          omega

end Work

/-- The built-in saver, when it is used, holds no checkpoint that is its own ancestor. -/
def PrunesEnd (s : Runtime) : Prop := s.config.useCustomCheckpointer = false → s.memory.AcyclicParents

theorem deleteThread_acyclic {base : BaseSaver} {m : Memory} (acyclic : m.AcyclicParents) (threadId : String) :
    (m.deleteThread base threadId).AcyclicParents := by
  intro t ns checkpoints stored
  refine acyclic t ns checkpoints ?_
  simp only [Memory.deleteThread, base.deleteThread_law, Containers.checkpoints?] at stored ⊢
  by_cases same : t = threadId
  · simp [same] at stored
  · rwa [Dict.get?_erase_of_ne _ same] at stored

theorem perform_settles (base : BaseSaver) (serde : Serde) (at' : Runtime × SweepFrame) (ends : PrunesEnd at'.1)
    (step : SweepWork) :
    ∃ next, Fuel.Settles (fun fuel => step.perform base serde fuel at') next ∧ PrunesEnd next.1 := by
  cases step with
  | prune threadIds =>
    by_cases custom : at'.1.config.useCustomCheckpointer
    · simp only [SweepWork.perform, custom, if_true]
      exact ⟨_, .const _, ends⟩
    · have acyclic := ends (by simpa using custom)
      obtain ⟨memory, enough, run⟩ :=
        pruneThreads_settle serde acyclic (threadIds.map (fun id => PyId.text id.str))
      simp only [SweepWork.perform, custom, Bool.false_eq_true, if_false]
      refine ⟨_, ⟨enough, fun fuel le => congrArg (Option.map _) (run fuel le)⟩, fun _ => ?_⟩
      exact pruneThreads_acyclic acyclic (run enough le_rfl)
  | take item =>
    simp only [SweepWork.perform]
    cases item.config.strategy with
    | keepLatest => exact ⟨_, .const _, ends⟩
    | delete =>
      cases at'.1.threads.locate? (byId item.threadId) with
      | none => exact ⟨_, .const _, ends⟩
      | some pair =>
        refine ⟨_, .const _, fun builtin => ?_⟩
        have builtin : at'.1.config.useCustomCheckpointer = false := builtin
        simp only [deletedThread, builtin, Bool.false_eq_true, if_false]
        exact deleteThread_acyclic (ends builtin) _

/-- Without cyclic parents the work of a sweep comes to its end. -/
theorem performAll_settles (base : BaseSaver) (serde : Serde) (s : Runtime) (frame : SweepFrame)
    (ends : PrunesEnd s) (work : List SweepWork) :
    ∃ last, Fuel.Settles (fun fuel => work.foldlM (SweepWork.perform base serde fuel) (s, frame)) last := by
  obtain ⟨last, settled, _⟩ := Fuel.exists_settles_foldlM
    (fun fuel at' step => SweepWork.perform base serde fuel at' step) (fun at' => PrunesEnd at'.1) work (s, frame)
    (fun at' ends step _ => perform_settles base serde at' ends step) ends
  exact ⟨last, settled⟩

end Threads

end InmemRuntime
