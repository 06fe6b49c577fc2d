import InmemRuntime.SweepMemory
import InmemRuntime.TtlAgreement
import Mathlib.Data.List.Perm.Basic

namespace InmemRuntime

namespace Threads

def SweepWork.steps : SweepWork → List MemoryStep
  | .prune threadIds => threadIds.map (fun threadId => .prune threadId.str)
  | .take item => if item.isDelete then [.drop item.threadId.str] else []

def pruneSteps (items : List Expired) : List MemoryStep :=
  (items.filter (fun item => !item.isDelete)).map (fun item => .prune item.threadId.str)

def dropSteps (items : List Expired) : List MemoryStep :=
  (items.filter Expired.isDelete).map (fun item => .drop item.threadId.str)

theorem isKeep_eq (item : Expired) : decide (item.config.strategy = .keepLatest) = !item.isDelete := by
  rw [Expired.isDelete]
  cases item.config.strategy <;> rfl

theorem steps_batchWork (batch : List Expired) : (batchWork batch).flatMap SweepWork.steps =
    pruneSteps batch ++ dropSteps batch := by
  have drops : (batch.map SweepWork.take).flatMap SweepWork.steps = dropSteps batch := by
    induction batch with
    | nil => rfl
    | cons item items ih =>
      rw [List.map_cons, List.flatMap_cons, ih, dropSteps, dropSteps, List.filter_cons, SweepWork.steps]
      split <;> rfl
  have prunes : (if ((batch.filter (fun item => item.config.strategy = .keepLatest)).map Expired.threadId).isEmpty then []
      else [SweepWork.prune ((batch.filter (fun item => item.config.strategy = .keepLatest)).map Expired.threadId)]).flatMap
        SweepWork.steps = pruneSteps batch := by
    simp only [isKeep_eq]
    split
    · rename_i empty
      rw [List.isEmpty_iff, List.map_eq_nil_iff] at empty
      rw [pruneSteps, empty]
      rfl
    · rw [List.flatMap_singleton, SweepWork.steps, List.map_map]
      rfl
  rw [batchWork, List.flatMap_append, drops, prunes]

/-- The batches change only the order of the steps. -/
theorem steps_sweepWork (batchSize : Int) (items : List Expired) :
    ((sweepWork batchSize items).flatMap SweepWork.steps).Perm (pruneSteps items ++ dropSteps items) := by
  have gathered : ∀ parts : List (List Expired), ((parts.flatMap batchWork).flatMap SweepWork.steps).Perm
      (pruneSteps parts.flatten ++ dropSteps parts.flatten) := by
    intro parts
    rw [List.flatMap_assoc, List.flatMap_congr (fun batch _ => steps_batchWork batch)]
    refine (List.flatMap_append_perm parts pruneSteps dropSteps).symm.trans (.of_eq ?_)
    congr 1
    · simp only [pruneSteps, List.filter_flatten, List.map_flatten, List.map_map, List.flatMap_def]
      rfl
    · simp only [dropSteps, List.filter_flatten, List.map_flatten, List.map_map, List.flatMap_def]
      rfl
  have whole := gathered (batches (max 1 batchSize).toNat items)
  rwa [flatten_batches (by omega)] at whole

/-- Each thread that is taken is touched once. -/
theorem steps_threads {items : List Expired} (apart : (items.map Expired.threadId).Nodup) (batchSize : Int) :
    (((sweepWork batchSize items).flatMap SweepWork.steps).map MemoryStep.threadId).Perm
      (items.map (fun item => item.threadId.str)) ∧
    (((sweepWork batchSize items).flatMap SweepWork.steps).map MemoryStep.threadId).Nodup := by
  have perm : (((sweepWork batchSize items).flatMap SweepWork.steps).map MemoryStep.threadId).Perm
      (items.map (fun item => item.threadId.str)) := by
    refine ((steps_sweepWork batchSize items).map _).trans ?_
    have texts : (pruneSteps items ++ dropSteps items).map MemoryStep.threadId =
        (items.filter (fun item => !item.isDelete) ++ items.filter Expired.isDelete).map (fun item => item.threadId.str) := by
      simp only [pruneSteps, dropSteps, List.map_append, List.map_map]
      rfl
    rw [texts]
    exact ((List.perm_append_comm).trans (List.filter_append_perm Expired.isDelete items)).map _
  refine ⟨perm, perm.nodup_iff.mpr ?_⟩
  have texts : items.map (fun item => item.threadId.str) = (items.map Expired.threadId).map Uuid.str := by
    rw [List.map_map]
    rfl
  rw [texts]
  exact apart.map (fun _ _ same => Uuid.str_inj.mp same)

theorem mem_steps_prune {items : List Expired} {batchSize : Int} {threadId : String} :
    .prune threadId ∈ (sweepWork batchSize items).flatMap SweepWork.steps ↔
      ∃ item ∈ items, item.isDelete = false ∧ item.threadId.str = threadId := by
  rw [(steps_sweepWork batchSize items).mem_iff, List.mem_append, pruneSteps, dropSteps]
  simp [and_assoc]

theorem mem_steps_drop {items : List Expired} {batchSize : Int} {threadId : String} :
    .drop threadId ∈ (sweepWork batchSize items).flatMap SweepWork.steps ↔
      ∃ item ∈ items, item.isDelete = true ∧ item.threadId.str = threadId := by
  rw [(steps_sweepWork batchSize items).mem_iff, List.mem_append, pruneSteps, dropSteps]
  simp [and_assoc]

/-- The work of a sweep on the built-in checkpointer. -/
theorem performAll_memory {base : BaseSaver} {serde : Serde} {fuel : Nat} {s : Runtime} {frame : SweepFrame}
    {work : List SweepWork} (builtin : s.config.useCustomCheckpointer = false) (distinct : s.threadIds.Nodup)
    (apart : ((taken work).map Expired.threadId).Nodup) (stored : ∀ item ∈ taken work, item.threadId ∈ s.threadIds) :
    (work.foldlM (SweepWork.perform base serde fuel) (s, frame)).map (fun at' => at'.1.memory) =
      (work.flatMap SweepWork.steps).foldlM (MemoryStep.perform base serde fuel) s.memory := by
  induction work generalizing s frame with
  | nil => rfl
  | cons first rest ih =>
    rw [List.foldlM_cons, List.flatMap_cons, List.foldlM_append]
    cases first with
    | prune threadIds =>
      have folded : (SweepWork.prune threadIds).steps.foldlM (MemoryStep.perform base serde fuel) s.memory =
          (threadIds.map (fun id => PyId.text id.str)).foldlM (fun m id => pruneThread serde fuel m id.str) s.memory := by
        rw [SweepWork.steps, List.foldlM_map, List.foldlM_map]
        rfl
      rw [folded]
      simp only [SweepWork.perform, builtin, Bool.false_eq_true, if_false]
      cases (threadIds.map (fun id => PyId.text id.str)).foldlM (fun m id => pruneThread serde fuel m id.str) s.memory with
      | none => rfl
      | some memory => exact ih builtin distinct apart stored
    | take item =>
      rw [taken_take, List.map_cons, List.nodup_cons] at apart
      rw [taken_take] at stored
      obtain ⟨own, others⟩ := List.forall_mem_cons.mp stored
      cases strategy : item.config.strategy with
      | keepLatest =>
        have isKeep : item.isDelete = false := by simp [Expired.isDelete, strategy]
        simp only [SweepWork.perform, SweepWork.steps, strategy, isKeep, Bool.false_eq_true, if_false]
        exact ih builtin distinct apart.2 others
      | delete =>
        have isDelete : item.isDelete = true := by simp [Expired.isDelete, strategy]
        obtain ⟨threadIdx, r, located⟩ := exists_locate?_of_mem own
        have swept : Swept [item] s (deletedThread base s item.threadId threadIdx) :=
          deletedThread_swept distinct isDelete located
        have still := swept.stored apart.1 others
        have left := @ih (deletedThread base s item.threadId threadIdx) (frame.count 1) builtin
          (swept.threadIds ▸ distinct.filter _) apart.2 still
        simp only [SweepWork.perform, SweepWork.steps, strategy, isDelete, if_true, located]
        refine left.trans ?_
        simp only [deletedThread, builtin, Bool.false_eq_true, if_false]
        rfl

/-- Why a thread is due: it has no active run, it has a TTL, the sweep has not taken
it at its present `updated_at`, and its time has come. -/
structure Due (s : Runtime) (now : Time) (thread : Thread) (item : Expired) : Prop where
  threadId : item.threadId = thread.threadId
  updatedAt : item.updatedAt = thread.updatedAt
  inactive : Inactive s.toGlobalStore thread.threadId
  policy : effectiveThreadTtl s.config.threadTtl s.threadTtls thread.threadId = .ok (some item.config, item.state)
  fresh : alreadySwept item.config item.state thread.updatedAt = false
  expiry : unboundedExpiry item.config thread.updatedAt = some item.expiresAt
  due : item.expiresAt ≤ now

/-- The order of the expiries, and of the ids where they are the same. -/
def Expired.Before (a b : Expired) : Prop :=
  a.expiresAt < b.expiresAt ∨ a.expiresAt = b.expiresAt ∧ a.threadId.bits.toNat ≤ b.threadId.bits.toNat

/-- The first of the threads that are due, up to the limit, in this order. -/
def FirstDue (s : Runtime) (limit : Option Int) (now : Time) (items : List Expired) : Prop :=
  ∃ all : List Expired, (∀ item, item ∈ all ↔ ∃ thread ∈ s.threads.values, Due s now thread item) ∧
    (all.map Expired.threadId).Nodup ∧ all.Pairwise Expired.Before ∧
    ∃ count, effectiveLimit s.config limit = .ok count ∧ items = count.elim all all.take

section Selection

variable {s : Runtime} {now : Time}

theorem dueNow_iff {thread : Thread} {item : Expired} : dueNow s now thread = some item ↔ Due s now thread item := by
  unfold dueNow
  by_cases active : thread.threadId ∈ activeThreadIds s.toGlobalStore
  · rw [if_pos active]
    constructor
    · intro none
      cases none
    · intro due
      exact absurd due.inactive (mem_activeThreadIds_iff.mp active)
  · rw [if_neg active]
    have inactive := inactive_of_not_mem active
    cases policy : effectiveThreadTtl s.config.threadTtl s.threadTtls thread.threadId with
    | error e =>
      refine ⟨fun none => (by cases none), fun due => ?_⟩
      cases policy.symm.trans due.policy
    | ok found =>
      obtain ⟨config, state⟩ := found
      cases config with
      | none =>
        refine ⟨fun none => (by cases none), fun due => ?_⟩
        cases policy.symm.trans due.policy
      | some config =>
        dsimp only
        by_cases swept : alreadySwept config state thread.updatedAt = true
        · rw [if_pos swept]
          refine ⟨fun none => (by cases none), fun due => ?_⟩
          cases policy.symm.trans due.policy
          cases swept.symm.trans due.fresh
        · rw [if_neg swept]
          constructor
          · intro made
            obtain ⟨expiry, computed, rfl⟩ := Option.map_eq_some_iff.mp made
            obtain ⟨computed, due⟩ := Option.filter_eq_some_iff.mp computed
            exact ⟨rfl, rfl, inactive, policy, by simpa using swept, computed, by simpa using due⟩
          · intro due
            have same := policy.symm.trans due.policy
            simp only [Except.ok.injEq, Prod.mk.injEq, Option.some.injEq] at same
            obtain ⟨rfl, rfl⟩ := same
            rw [due.expiry, Option.filter_some, if_pos (by simpa using due.due), Option.map_some, ← due.threadId,
              ← due.updatedAt]

theorem Expired.le_iff {a b : Expired} : a.le b = true ↔ a.Before b := by
  simp [Expired.le, Expired.Before, Uuid.str_le_iff]

theorem Expired.le_total (a b : Expired) : (a.le b || b.le a) = true := by
  rw [Bool.or_eq_true, Expired.le_iff, Expired.le_iff]
  rcases lt_trichotomy a.expiresAt b.expiresAt with before | same | after
  · exact .inl (.inl before)
  · exact (Nat.le_total a.threadId.bits.toNat b.threadId.bits.toNat).imp (fun le => .inr ⟨same, le⟩)
      (fun le => .inr ⟨same.symm, le⟩)
  · exact .inr (.inl after)

theorem Expired.le_trans (a b c : Expired) (first : a.le b = true) (second : b.le c = true) : a.le c = true := by
  rw [Expired.le_iff] at first second ⊢
  rcases first with before | ⟨same, le⟩
  · exact .inl (second.elim before.trans (fun both => both.1 ▸ before))
  · rcases second with before' | ⟨same', le'⟩
    · exact .inl (same ▸ before')
    · exact .inr ⟨same.trans same', le.trans le'⟩

/-- What the sweep has to process. -/
theorem dueItems_first (distinct : s.threadIds.Nodup) {limit : Option Int} {count : Option Nat}
    (readable : effectiveLimit s.config limit = .ok count) : FirstDue s limit now (dueItems s limit now) := by
  have perm := List.mergeSort_perm (s.threads.values.filterMap (dueNow s now)) Expired.le
  refine ⟨(s.threads.values.filterMap (dueNow s now)).mergeSort Expired.le, fun item => ?_, ?_,
    (List.pairwise_mergeSort Expired.le_trans Expired.le_total _).imp Expired.le_iff.mp, count, readable, ?_⟩
  · rw [perm.mem_iff, List.mem_filterMap]
    simp only [dueNow_iff]
  · exact (perm.map _).nodup_iff.mpr (distinct.sublist (filterMap_dueNow_ids s now _))
  · rw [dueItems, readable]
    cases count <;> rfl

end Selection

/-- The drop of a total, as the stats report it. -/
def ReportsDrop (reported : Option Nat) (before after : Int) : Prop :=
  ∃ drop : Nat, reported = some drop ∧ (drop : Int) = before - after

/-- The threads of a list are taken, the rest is as it was, and the counts and the
stats say so. -/
structure SweptExactly (serde : Serde) (s s' : Runtime) (call : SweepCall) (items : List Expired)
    (outcome : SweepOutcome) : Prop where
  store : Swept items s s'
  pruned : ∀ item ∈ items, item.isDelete = false → PrunedAlone serde s.memory s'.memory item.threadId.str
  dropped : ∀ item ∈ items, item.isDelete = true → NoData s'.memory item.threadId.str
  others : ∀ threadId, threadId ∉ items.map (fun item => item.threadId.str) → SameThread s.memory s'.memory threadId
  processed : outcome.processed = items.length
  deleted : outcome.deleted = (items.filter Expired.isDelete).length
  stats : call.wantsStats = true → ∃ stats, outcome.stats = some stats ∧
    ReportsDrop stats.deletedSizeBytes s.memory.sizeState.totalBytes s'.memory.sizeState.totalBytes ∧
    ReportsDrop stats.deletedItems s.memory.sizeState.totalCheckpoints s'.memory.sizeState.totalCheckpoints ∧
    stats.totalBeforeBytes = some s.memory.sizeState.totalBytes ∧ stats.sizeTrackingAvailable = true

/-- The sweep ends, whatever fuel it is given beyond what it needs, and has taken
exactly the first of the threads that are due. -/
def SweepsExactly (base : BaseSaver) (serde : Serde) (s : Runtime) (call : SweepCall) (reply : Reply) : Prop :=
  ∃ s' items outcome, FirstDue s call.limit reply.now items ∧ SweptExactly serde s s' call items outcome ∧
    ∃ enough, ∀ fuel, enough ≤ fuel → Turn.Ends (Sweep.resume base serde fuel) reply
      (Sweep.resume base serde fuel s (.called call) reply) s' (.ok outcome)

/-- The limit and the policies that the sweep reads can be read, unless its limit
lets it read none, and the walks up the parents in the threads to prune end. -/
structure Sweepable (serde : Serde) (s : Runtime) (call : SweepCall) (now : Time) : Prop where
  limit : ∃ count, effectiveLimit s.config call.limit = .ok count
  policies : (∃ limit, call.limit = some limit ∧ limit ≤ 0) ∨ ∀ thread ∈ s.threads.values,
    Inactive s.toGlobalStore thread.threadId →
      ∃ policy, effectiveThreadTtl s.config.threadTtl s.threadTtls thread.threadId = .ok policy
  walks : ∀ item ∈ dueItems s call.limit now, item.isDelete = false → ∀ ns, s.memory.WalkStops serde item.threadId.str ns

section Exact

variable {base : BaseSaver} {serde : Serde} {s s' : Runtime} {call : SweepCall} {reply : Reply} {value : PyVal}

/-- The sum of what is subtracted, with each id listed once. -/
theorem sum_ofPairs {ids : List String} (distinct : ids.Nodup) {f g : String → Nat} (falls : ∀ id, g id ≤ f id) :
    (((Dict.ofPairs (ids.map (fun id => (id, f id)))).sum (fun id count => count - g id) : Nat) : Int) =
      (ids.map (fun id => (f id : Int) - g id)).sum := by
  have keys : (ids.map (fun id => (id, f id))).map Prod.fst = ids := by
    rw [List.map_map]
    exact List.map_id ids
  have casts : ∀ l : List String, (((l.map (fun id => f id - g id)).sum : Nat) : Int) =
      (l.map (fun id => (f id : Int) - g id)).sum := by
    intro l
    induction l with
    | nil => rfl
    | cons id l ih =>
      have fall := falls id
      rw [List.map_cons, List.sum_cons, List.map_cons, List.sum_cons, ← ih]
      omega
  rw [Dict.sum, Dict.ofPairs_entries (by rwa [keys]), List.map_map]
  exact casts ids

/-- The stats of a sweep that has taken the threads of a list. -/
theorem reports_drop {items : List Expired} (apart : (items.map Expired.threadId).Nodup)
    (drop : SizeDrop (items.map (fun item => item.threadId.str)) s.memory.sizeState s'.memory.sizeState) :
    ReportsDrop ((SizesBefore.read s items).stats s').deletedSizeBytes s.memory.sizeState.totalBytes
        s'.memory.sizeState.totalBytes ∧
      ReportsDrop ((SizesBefore.read s items).stats s').deletedItems s.memory.sizeState.totalCheckpoints
        s'.memory.sizeState.totalCheckpoints := by
  have texts : items.map (fun item => item.threadId.str) = (items.map Expired.threadId).map Uuid.str := by
    rw [List.map_map]
    rfl
  have distinct : (items.map (fun item => item.threadId.str)).Nodup := by
    rw [texts]
    exact apart.map (fun _ _ same => Uuid.str_inj.mp same)
  refine ⟨⟨_, rfl, ?_⟩, ⟨_, rfl, ?_⟩⟩
  · rw [drop.bytes]
    exact sum_ofPairs distinct (fun id => (drop.falls id).1)
  · rw [drop.checkpoints]
    exact sum_ofPairs distinct (fun id => (drop.falls id).2)

/-- What the work on the items does, when it comes to its end. -/
theorem performAll_exactly {items : List Expired} {fuel : Nat} {now : Time} {last : SweepFrame}
    (builtin : s.config.useCustomCheckpointer = false) (distinct : s.threadIds.Nodup)
    (apart : (items.map Expired.threadId).Nodup) (stored : ∀ item ∈ items, item.threadId ∈ s.threadIds)
    (performed : (sweepWork call.batchSize items).foldlM (SweepWork.perform base serde fuel)
      (s, .first s call now items) = some (s', last)) :
    SweptExactly serde s s' call items (last.outcome s') := by
  obtain ⟨swept, calls, before, processed, deleted⟩ :=
    performAll_swept distinct (by rwa [taken_sweepWork]) (by rwa [taken_sweepWork]) performed
  have ran : some s'.memory =
      ((sweepWork call.batchSize items).flatMap SweepWork.steps).foldlM (MemoryStep.perform base serde fuel) s.memory := by
    rw [← performAll_memory builtin distinct (by rwa [taken_sweepWork]) (by rwa [taken_sweepWork]), performed]
    rfl
  obtain ⟨perm, once⟩ := steps_threads apart call.batchSize
  have memory := steps_swept once ran.symm
  rw [taken_sweepWork] at swept processed deleted
  refine ⟨swept, ?_, ?_, fun threadId outside => memory.others threadId (fun inside => outside (perm.mem_iff.mp inside)),
    by simpa [SweepFrame.outcome, SweepFrame.first] using processed,
    by simpa [SweepFrame.outcome, SweepFrame.first] using deleted, fun wants => ?_⟩
  · exact fun item member isKeep => memory.pruned _ (mem_steps_prune.mpr ⟨item, member, isKeep, rfl⟩)
  · exact fun item member isDelete => memory.dropped _ (mem_steps_drop.mpr ⟨item, member, isDelete, rfl⟩)
  · have drop := steps_sizeDrop (perm.nodup_iff.mp once)
      (fun step member => perm.mem_iff.mp (List.mem_map_of_mem member)) ran.symm
    have first : (SweepFrame.first s call now items).before = some (SizesBefore.read s items) := by
      simp only [SweepFrame.first, wants, builtin, Bool.not_false, Bool.and_self, if_true]
    have told : last.call.wantsStats = true := calls ▸ wants
    obtain ⟨bytes, checkpoints⟩ := reports_drop apart drop
    refine ⟨_, ?_, bytes, checkpoints, rfl, rfl⟩
    rw [SweepFrame.outcome, if_pos told, before, first]
    rfl

theorem sweepWork_nil (batchSize : Int) : sweepWork batchSize [] = [] := by
  have none : ((max 1 batchSize).toNat - 1) / (max 1 batchSize).toNat = 0 := Nat.div_eq_of_lt (by omega)
  rw [sweepWork, batches, List.length_nil, Nat.zero_add, none]
  rfl

/-- A sweep whose limit lets it process nothing. -/
theorem sweeps_nothing {limit : Int} (limited : call.limit = some limit) (none : limit ≤ 0)
    (answered : reply.answer = .ok value) (builtin : s.config.useCustomCheckpointer = false)
    (distinct : s.threadIds.Nodup) : SweepsExactly base serde s call reply := by
  have readable : effectiveLimit s.config call.limit = .ok (some 0) := by
    rw [limited, effectiveLimit, Int.toNat_of_nonpos none]
  have nothing : dueItems s call.limit reply.now = [] := by
    rw [dueItems, readable]
    rfl
  have performed : (sweepWork call.batchSize []).foldlM (SweepWork.perform base serde 0)
      (s, .first s call reply.now []) = some (s, .first s call reply.now []) := by
    rw [sweepWork_nil]
    rfl
  have apart : (([] : List Expired).map Expired.threadId).Nodup := List.nodup_nil
  have exactly := performAll_exactly builtin distinct apart (fun item member => absurd member List.not_mem_nil) performed
  refine ⟨s, [], _, nothing ▸ dueItems_first distinct readable, exactly, 0, fun fuel _ => ?_⟩
  rw [called_ends_iff answered, Sweep.start, if_pos (by simpa [limited] using none)]
  exact .finished _ _

theorem SweepWork.perform_mono {fuel fuel' : Nat} (le : fuel ≤ fuel') {at' next : Runtime × SweepFrame} {step : SweepWork}
    (performed : step.perform base serde fuel at' = some next) : step.perform base serde fuel' at' = some next := by
  cases step with
  | take item => exact performed
  | prune threadIds =>
    unfold SweepWork.perform at performed ⊢
    dsimp only at performed ⊢
    split at performed
    · rename_i custom
      rw [if_pos custom]
      exact performed
    · rename_i builtin
      obtain ⟨memory, run, same⟩ := Option.map_eq_some_iff.mp performed
      rw [if_neg builtin, Fuel.foldlM_mono (fun _ _ _ => pruneThread_mono le) run, Option.map_some, same]

/-- The work on the items comes to its end where the prunings do. -/
theorem work_ends_iff {items : List Expired} {frame : SweepFrame} (builtin : s.config.useCustomCheckpointer = false)
    (distinct : s.threadIds.Nodup) (apart : (items.map Expired.threadId).Nodup)
    (stored : ∀ item ∈ items, item.threadId ∈ s.threadIds) (batchSize : Int) :
    (∃ fuel next, (sweepWork batchSize items).foldlM (SweepWork.perform base serde fuel) (s, frame) = some next) ↔
      ∀ item ∈ items, item.isDelete = false → ∀ ns, s.memory.WalkStops serde item.threadId.str ns := by
  have fold : ∀ fuel, ((sweepWork batchSize items).foldlM (SweepWork.perform base serde fuel) (s, frame)).map
      (fun at' => at'.1.memory) =
        ((sweepWork batchSize items).flatMap SweepWork.steps).foldlM (MemoryStep.perform base serde fuel) s.memory :=
    fun fuel => performAll_memory builtin distinct (by rwa [taken_sweepWork]) (by rwa [taken_sweepWork])
  have steps : (∃ fuel memory, ((sweepWork batchSize items).flatMap SweepWork.steps).foldlM
      (MemoryStep.perform base serde fuel) s.memory = some memory) ↔ _ := steps_end_iff (steps_threads apart batchSize).2
  constructor
  · rintro ⟨fuel, next, performed⟩ item member isKeep
    have ran := fold fuel
    rw [performed, Option.map_some] at ran
    exact walksEnd_iff.mp (steps.mp ⟨fuel, _, ran.symm⟩ _ (mem_steps_prune.mpr ⟨item, member, isKeep, rfl⟩))
  · intro walks
    obtain ⟨fuel, memory, run⟩ := steps.mpr (fun threadId member => by
      obtain ⟨item, listed, isKeep, rfl⟩ := mem_steps_prune.mp member
      exact walksEnd_iff.mpr (walks item listed isKeep))
    rw [← fold] at run
    obtain ⟨next, performed, _⟩ := Option.map_eq_some_iff.mp run
    exact ⟨fuel, next, performed⟩

/-- The list was collected, so that the policies of the inactive threads were read. -/
theorem policy_of_examineAll {now : Time} {threads : List Thread} {items : List Expired}
    (examined : examineAll s now threads = .ok items) {thread : Thread} (member : thread ∈ threads)
    (inactive : thread.threadId ∉ activeThreadIds s.toGlobalStore) :
    ∃ policy, effectiveThreadTtl s.config.threadTtl s.threadTtls thread.threadId = .ok policy := by
  induction threads generalizing items with
  | nil => cases member
  | cons first rest ih =>
    rw [examineAll] at examined
    obtain ⟨found, one, examined⟩ := bind_ok examined
    obtain ⟨others, later, _⟩ := bind_ok examined
    rcases List.mem_cons.mp member with rfl | inRest
    · rw [examine, if_neg inactive] at one
      obtain ⟨policy, read, _⟩ := bind_ok one
      exact ⟨policy, read⟩
    · exact ih later inRest

/-- A sweep of the built-in checkpointer that nothing interrupts takes exactly the
threads that it has to just when it can read what it reads and its prunings end. -/
theorem sweep_exact_iff (base : BaseSaver) (serde : Serde) (call : SweepCall) (distinct : s.threadIds.Nodup)
    (fits : ∀ thread ∈ s.threads.values, ThreadExpiryFits s thread) (builtin : s.config.useCustomCheckpointer = false)
    (answered : reply.answer = .ok value) :
    SweepsExactly base serde s call reply ↔ Sweepable serde s call reply.now := by
  by_cases early : ∃ limit, call.limit = some limit ∧ limit ≤ 0
  · obtain ⟨limit, limited, none⟩ := early
    have readable : effectiveLimit s.config call.limit = .ok (some 0) := by
      rw [limited, effectiveLimit, Int.toNat_of_nonpos none]
    have nothing : dueItems s call.limit reply.now = [] := by
      rw [dueItems, readable]
      rfl
    refine ⟨fun _ => ⟨⟨_, readable⟩, .inl ⟨limit, limited, none⟩, fun item member => ?_⟩,
      fun _ => sweeps_nothing limited none answered builtin distinct⟩
    rw [nothing] at member
    cases member
  · have late : ¬ call.limit.any (fun limit => limit ≤ 0) = true := by
      cases limited : call.limit with
      | none => simp
      | some limit =>
        intro none
        exact early ⟨limit, limited, by simpa using none⟩
    obtain ⟨apart, stored⟩ := dueItems_ids reply.now distinct call.limit
    have selects : (∀ thread ∈ s.threads.values, Inactive s.toGlobalStore thread.threadId →
        ∃ policy, effectiveThreadTtl s.config.threadTtl s.threadTtls thread.threadId = .ok policy) →
        ∀ count, effectiveLimit s.config call.limit = .ok count →
          selectExpired s call.limit reply.now = .ok (dueItems s call.limit reply.now) :=
      fun policies count readable => selectExpired_of_each (fun thread member =>
        examine_of_policy reply.now (fits thread member) (fun absent => policies thread member (inactive_of_not_mem absent)))
        readable
    constructor
    · rintro ⟨s', items, outcome, ⟨_, _, _, _, count, readable, _⟩, _, enough, ends⟩
      have ran := ends enough le_rfl
      rw [called_ends_iff answered, Sweep.start, if_neg late] at ran
      cases selected : selectExpired s call.limit reply.now with
      | error e =>
        rw [selected, attempt_error] at ran
        cases (Turn.Ends.finished_iff.mp ran).2
      | ok found =>
        have policies : ∀ thread ∈ s.threads.values, Inactive s.toGlobalStore thread.threadId →
            ∃ policy, effectiveThreadTtl s.config.threadTtl s.threadTtls thread.threadId = .ok policy := by
          obtain ⟨_, _, collected⟩ := bind_ok selected
          obtain ⟨expired, examined, _⟩ := bind_ok collected
          intro thread member inactive
          exact policy_of_examineAll examined member (fun active => mem_activeThreadIds_iff.mp active inactive)
        rw [selects policies count readable, attempt_ok] at ran
        obtain ⟨last, performed, _⟩ := (loop_ends_iff answered).mp ran
        exact ⟨⟨count, readable⟩, .inr policies,
          (work_ends_iff builtin distinct apart stored call.batchSize).mp ⟨enough, _, performed⟩⟩
    · rintro ⟨⟨count, readable⟩, policies, walks⟩
      have selected := selects (policies.resolve_left early) count readable
      obtain ⟨enough, ⟨s', last⟩, performed⟩ : ∃ fuel next,
          (sweepWork call.batchSize (dueItems s call.limit reply.now)).foldlM (SweepWork.perform base serde fuel)
            (s, .first s call reply.now (dueItems s call.limit reply.now)) = some next :=
        (work_ends_iff builtin distinct apart stored call.batchSize).mpr walks
      refine ⟨s', _, _, dueItems_first distinct readable, performAll_exactly builtin distinct apart stored performed, enough,
        fun fuel le => ?_⟩
      rw [called_ends_iff answered, Sweep.start, if_neg late, selected, attempt_ok]
      exact (loop_ends_iff answered).mpr ⟨last, Fuel.foldlM_mono (fun _ _ _ => SweepWork.perform_mono le) performed, rfl⟩

end Exact

section Loop

/-- A thread to prune, with one checkpoint under the given parent, and one to delete. -/
def twoExpired (parent : Option PyId) : Runtime :=
  { storeOf [idleThread ⟨1⟩, idleThread ⟨2⟩] with
    memory := (emptyMemory.put plainBase { stateConfig parent with threadId := (⟨1⟩ : Uuid).str } stateCheckpoint []
      .empty).getD emptyMemory
    threadTtls := .ofPairs [((⟨1⟩ : Uuid).str, ⟨some .keepLatest, some (.finite 0), none⟩),
      ((⟨2⟩ : Uuid).str, ⟨some .delete, some (.finite 0), none⟩)] }

def twoItems : List Expired :=
  [⟨0, ⟨1⟩, ⟨.keepLatest, .finite 0⟩, ⟨some .keepLatest, some (.finite 0), none⟩, 0⟩,
    ⟨0, ⟨2⟩, ⟨.delete, .finite 0⟩, ⟨some .delete, some (.finite 0), none⟩, 0⟩]

def countedSweep : SweepCall := ⟨none, 100, true⟩

theorem twoExpired_policies (parent : Option PyId) : ∀ thread ∈ (twoExpired parent).threads.values, ∃ config state,
    effectiveThreadTtl (twoExpired parent).config.threadTtl (twoExpired parent).threadTtls thread.threadId =
      .ok (some config, state) ∧ ExpiryFits config thread.updatedAt := by
  intro thread member
  have fits : ∀ strategy, ExpiryFits ⟨strategy, .finite 0⟩ 0 :=
    fun strategy => ⟨0, rfl, by decide +kernel, by decide +kernel⟩
  have either : thread = idleThread ⟨1⟩ ∨ thread = idleThread ⟨2⟩ := by
    have listed : thread ∈ [idleThread ⟨1⟩, idleThread ⟨2⟩] := member
    simpa using listed
  rcases either with rfl | rfl
  · exact ⟨⟨.keepLatest, .finite 0⟩, ⟨some .keepLatest, some (.finite 0), none⟩, by rfl, fits _⟩
  · exact ⟨⟨.delete, .finite 0⟩, ⟨some .delete, some (.finite 0), none⟩, by rfl, fits _⟩

theorem twoExpired_fits (parent : Option PyId) :
    ∀ thread ∈ (twoExpired parent).threads.values, ThreadExpiryFits (twoExpired parent) thread := by
  intro thread member config state read _
  obtain ⟨_, _, policy, fits⟩ := twoExpired_policies parent thread member
  cases policy.symm.trans read
  exact fits

theorem twoExpired_dueItems (parent : Option PyId) : dueItems (twoExpired parent) none 0 = twoItems := by
  have due : (twoExpired parent).threads.values.filterMap (dueNow (twoExpired parent) 0) = twoItems := by
    have listed : (twoExpired parent).threads.values = [idleThread ⟨1⟩, idleThread ⟨2⟩] := rfl
    have first : dueNow (twoExpired parent) 0 (idleThread ⟨1⟩) = some twoItems[0] :=
      dueNow_iff.mpr ⟨rfl, rfl, List.forall_mem_nil _, rfl, rfl, by decide +kernel, le_rfl⟩
    have second : dueNow (twoExpired parent) 0 (idleThread ⟨2⟩) = some twoItems[1] :=
      dueNow_iff.mpr ⟨rfl, rfl, List.forall_mem_nil _, rfl, rfl, by decide +kernel, le_rfl⟩
    rw [listed, List.filterMap_cons_some first, List.filterMap_cons_some second]
    rfl
  have readable : effectiveLimit (twoExpired parent).config none = .ok (some 10000) := rfl
  have sorted : twoItems.Pairwise (fun a b => a.le b = true) :=
    List.pairwise_pair.mpr (Expired.le_iff.mpr (.inr ⟨rfl, by decide⟩))
  rw [dueItems, readable, due, List.mergeSort_of_pairwise sorted]
  rfl

theorem twoExpired_selected (parent : Option PyId) : selectExpired (twoExpired parent) none 0 = .ok twoItems := by
  rw [← twoExpired_dueItems parent]
  have readable : effectiveLimit (twoExpired parent).config none = .ok (some 10000) := rfl
  refine selectExpired_of_each (fun thread member => ?_) readable
  obtain ⟨_, _, policy, _⟩ := twoExpired_policies parent thread member
  exact examine_of_policy 0 (twoExpired_fits parent thread member) (fun _ => ⟨_, policy⟩)

theorem sweep_exact_iff_root : SweepsExactly plainBase stateSerde (twoExpired none) countedSweep plainReply := by
  refine (sweep_exact_iff plainBase stateSerde countedSweep (by decide) (twoExpired_fits none) rfl rfl).mpr
    ⟨⟨some 10000, rfl⟩, .inr (fun thread member _ => ?_), fun item member isKeep ns => ?_⟩
  · obtain ⟨_, _, policy, _⟩ := twoExpired_policies none thread member
    exact ⟨_, policy⟩
  · rw [show dueItems (twoExpired none) countedSweep.limit plainReply.now = twoItems from twoExpired_dueItems none] at member
    rcases List.mem_cons.mp member with rfl | second
    · have pruned : (pruneThread stateSerde 1 (twoExpired none).memory (⟨1⟩ : Uuid).str).isSome = true := by decide +kernel
      exact walksEnd_iff.mp ⟨1, _, (Option.some_get pruned).symm⟩ ns
    · cases List.mem_singleton.mp second
      cases isKeep

/-- A sweep that has to prune a checkpoint under itself never ends. -/
theorem sweep_not_exact :
    ¬ ∀ (base : BaseSaver) (serde : Serde) (s : Runtime) (call : SweepCall) (reply : Reply) (value : PyVal),
      s.threadIds.Nodup → (∀ thread ∈ s.threads.values, ThreadExpiryFits s thread) →
        s.config.useCustomCheckpointer = false → reply.answer = .ok value → SweepsExactly base serde s call reply := by
  intro exactly
  obtain ⟨s', items, outcome, _, _, enough, ends⟩ := exactly plainBase stateSerde (twoExpired (some (.text "1")))
    countedSweep plainReply .none (by decide) (twoExpired_fits _) rfl rfl
  have ran := ends enough le_rfl
  have started : Sweep.start plainBase stateSerde enough (twoExpired (some (.text "1"))) countedSweep plainReply.now =
      attempt (twoExpired (some (.text "1"))) (selectExpired (twoExpired (some (.text "1"))) none 0) (fun selected =>
        Sweep.loop plainBase stateSerde enough (sweepWork 100 selected)
          (twoExpired (some (.text "1")), .first (twoExpired (some (.text "1"))) countedSweep 0 selected)) := rfl
  rw [called_ends_iff rfl, started, twoExpired_selected, attempt_ok] at ran
  obtain ⟨last, performed, _⟩ := (loop_ends_iff rfl).mp ran
  have walks : ∀ item ∈ twoItems, item.isDelete = false → ∀ ns,
      (twoExpired (some (.text "1"))).memory.WalkStops stateSerde item.threadId.str ns :=
    (work_ends_iff rfl (by decide) (by decide) (by decide) 100).mp ⟨enough, _, performed⟩
  have stops := walks _ List.mem_cons_self rfl ""
  refine selfCheckpoints_not_walkStops rfl ⟨rfl, rfl⟩ (fun meets => ?_) stops
  cases meets.2

end Loop

end Threads

end InmemRuntime
