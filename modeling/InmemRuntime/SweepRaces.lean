import InmemRuntime.StoreRaces
import InmemRuntime.SweepDecisions

namespace InmemRuntime

open Threads

namespace Threads

theorem deletions_sub_removals (p : Sweep) : p.deletions ⊆ p.removals := by
  intro threadId ahead
  rcases List.mem_append.mp ahead with now | later
  · exact List.mem_append_left _ now
  · obtain ⟨step, member, inside⟩ := List.mem_flatMap.mp later
    refine List.mem_append_right _ (List.mem_flatMap.mpr ⟨step, member, ?_⟩)
    cases step with
    | prune => cases inside
    | take => exact inside

section Others

variable {s s' : Runtime} {p : Sweep}

/-- What a suspended sweep relies on is kept by a step that spares what it has
ahead and the position that it holds. -/
theorem Sweep.Assertion.spared (holds : p.Assertion s)
    (spared : Spared s s' p.removals p.deletions p.markings)
    (held : ∀ threadIdx threadId r, p.removing = some (threadIdx, threadId) →
      s.threads.rows[threadIdx]? = some r → (s.threads.get r).threadId = threadId →
        ∃ r', s'.threads.rows[threadIdx]? = some r' ∧ (s'.threads.get r').threadId = threadId) :
    p.Assertion s' := by
  cases p with
  | called | gettingFirst | stuck => trivial
  | gettingCheckpointer frame threadIds rest =>
    exact ValidWork.spared holds spared (fun _ h => h) (fun _ h => h) (fun _ h => h)
  | pruning frame rest => exact ValidWork.spared holds spared (fun _ h => h) (fun _ h => h) (fun _ h => h)
  | deleting frame deletion rest =>
    obtain ⟨valid, threadId, threadIdx, r, rfl, stands, named, removable, fresh⟩ := holds
    obtain ⟨r', stands', named'⟩ := held threadIdx threadId r rfl stands named
    have own : threadId ∈ (Sweep.deleting frame (.deletingCheckpoints threadId threadIdx) rest).deletions :=
      List.mem_append_left _ (List.mem_singleton_self _)
    exact ⟨valid.spared spared (fun _ h => List.mem_append_right _ h) (fun _ h => List.mem_append_right _ h)
        (fun _ h => h),
      threadId, threadIdx, r', rfl, stands', named',
      removable.spared spared (deletions_sub_removals _ own) own, fresh⟩

/-- A thread that a suspended sweep has still to delete has one record. -/
theorem Sweep.Assertion.unique (holds : p.Assertion s) {threadId : Uuid} (ahead : threadId ∈ p.deletions) :
    ∃ now, Removable s now threadId := by
  have ofWork : ∀ {now work}, ValidWork s now work → threadId ∈ work.flatMap SweepWork.deletions →
      ∃ now, Removable s now threadId := by
    intro now work valid inWork
    obtain ⟨step, member, inside⟩ := List.mem_flatMap.mp inWork
    have own := valid.each step member
    cases step with
    | prune => cases inside
    | take item =>
      simp only [SweepWork.deletions] at inside
      by_cases isDelete : item.isDelete = true
      · simp only [isDelete, if_true, List.mem_singleton] at inside
        simp only [SweepWork.Valid, of_decide_eq_true isDelete] at own
        exact ⟨now, inside ▸ own⟩
      · simp [isDelete] at inside
  cases p with
  | called | gettingFirst | stuck => cases ahead
  | gettingCheckpointer frame threadIds rest => exact ofWork holds ahead
  | pruning frame rest => exact ofWork holds ahead
  | deleting frame deletion rest =>
    obtain ⟨valid, threadId', threadIdx, r, rfl, _, _, removable, _⟩ := holds
    rcases List.mem_append.mp ahead with now | later
    · rw [List.mem_singleton.mp now]
      exact ⟨_, removable⟩
    · exact ofWork valid later

theorem Spared.refl (s : Runtime) (removals deletions markings : List Uuid) :
    Spared s s removals deletions markings :=
  memory_spared s s.memory _ _ _

end Others

end Threads

/-- A turn of `Runs.put` that adds to a thread: the thread it goes on with, or
the one it appends. -/
def Runs.Put.Reaches (s : Runtime) (reply : Reply) (q : Runs.Put) (threadId : Uuid) : Prop :=
  (∃ r, q.Extends s reply r ∧ (s.threads.get r).threadId = threadId) ∨
    ∃ call assistant thread, q = .creatingThread call assistant thread ∧ thread.threadId = threadId

/-- A turn of `Threads.patch` that writes a record. -/
inductive Threads.Patch.Writes (s : Runtime) (reply : Reply) : Patch → PatchCall → Nat → Prop
  | allowed {call threadIdx r filters} : reply.answer = .ok filters → s.threads.rows[threadIdx]? = some r →
      filtersAllow (s.threads.get r).metadata filters = .ok true →
      Writes s reply (.authorizing call threadIdx) call r

section Operations

variable {s : Runtime} {reply : Reply} {removals deletions markings : List Uuid}

variable (markings) in
theorem runsPut_spared {q : Runs.Put} (elsewhere : ∀ threadId, q.Reaches s reply threadId → threadId ∉ removals)
    (sub : deletions ⊆ removals) :
    Spared s (Runs.Put.resume s q reply).1 removals deletions markings ∧
      ∀ (i r : Nat), s.threads.rows[i]? = some r → ∃ r' : Nat, (Runs.Put.resume s q reply).1.threads.rows[i]? = some r' ∧
        ((Runs.Put.resume s q reply).1.threads.get r').threadId = (s.threads.get r).threadId := by
  have effect := Runs.Put.effect s q reply
  generalize Runs.Put.resume s q reply = out at effect ⊢
  have inactive : ∀ {call threadId runs}, Runs.Put.Inserted s call threadId reply runs → threadId ∉ removals →
      ∀ id ∈ removals, Inactive s.toGlobalStore id → ∀ run ∈ runs.values, run.threadId = id → run.isActive = false := by
    intro call threadId runs inserted apart id ahead inactive run member named
    cases inserted with
    | none => exact inactive run member named
    | appended =>
      rcases List.mem_append.mp (Table.append_values _ _ ▸ member) with old | new
      · exact inactive run old named
      · rw [List.mem_singleton.mp new] at named
        have same : threadId = id := named
        exact absurd (same ▸ ahead) apart
  cases effect with
  | unchanged | suspended => exact ⟨.refl s _ _ _, fun i r stands => ⟨r, stands, rfl⟩⟩
  | @extended r assistant runs outcome goesOn inserted =>
    have apart := elsewhere _ (Or.inl ⟨r, goesOn, rfl⟩)
    have ids : ∀ i, ((s.threads.update r (Runs.markBusy q.call assistant reply.now)).get i).threadId =
        (s.threads.get i).threadId := by
      intro i
      rw [Table.update_get]
      split <;> simp
    refine ⟨⟨rfl, inactive inserted apart, fun id ahead i inRows named => ?_, fun id _ listed => ?_,
      fun _ _ => rfl⟩, fun i r' stands => ⟨r', stands, ids r'⟩⟩
    · have other : i ≠ r := by
        rintro rfl
        exact apart (sub ((ids i ▸ named) ▸ ahead))
      exact ⟨inRows, Table.update_get_of_ne _ other _, rfl⟩
    · have same := Table.update_values_map s.threads r (f := Runs.markBusy q.call assistant reply.now)
        (g := Thread.threadId) (by simp)
      simpa only [GlobalStore.threadIds, same] using listed
  | @created call assistant thread value runs outcome creating answer inserted =>
    have apart := elsewhere thread.threadId (Or.inr ⟨call, assistant, thread, creating, rfl⟩)
    refine ⟨⟨rfl, inactive inserted apart, fun id ahead i inRows named => ?_, fun id _ listed => ?_,
      fun _ _ => rfl⟩, fun i r stands => ⟨r, ?_, ?_⟩⟩
    · rcases List.mem_append.mp inRows with old | new
      · exact ⟨old, Table.append_get_old (s.threads.bounded i old) _, rfl⟩
      · rw [List.mem_singleton.mp new, Table.append_get_new] at named
        exact absurd (sub (named ▸ ahead)) apart
    · rw [GlobalStore.threadIds, Table.append_values, List.map_append]
      exact List.mem_append_left _ listed
    · have inside := (List.getElem?_eq_some_iff.mp stands).1
      rw [Table.append_rows, List.getElem?_append_left inside]
      exact stands
    · rw [Table.append_get_old (s.threads.bounded r (List.mem_of_getElem? stands))]

theorem applyTtl_get? {ttls ttls' : ThreadTtls} {threadId : Uuid} {ttl : Option PyDict} {key : String}
    (applied : applyTtl ttls threadId ttl = .ok ttls') (elsewhere : key ≠ threadId.str ∨ ttl = none) :
    ttls'.get? key = ttls.get? key := by
  cases ttl with
  | none =>
    cases applied
    rfl
  | some ttl =>
    have other : key ≠ threadId.str := by simpa using elsewhere
    simp only [applyTtl, setThreadTtlOverride] at applied
    obtain ⟨config, _, applied⟩ := bind_ok applied
    cases config with
    | none =>
      cases applied
      exact Dict.get?_erase_of_ne _ other
    | some config =>
      cases applied
      exact Dict.get?_set_of_ne _ _ other

/-- A patch changes the TTL record of its own thread only, and only when it is given one. -/
theorem patch_ttls (s : Runtime) (call : PatchCall) (threadIdx : Nat) (reply : Reply) (key : String)
    (elsewhere : key ≠ call.threadId.str ∨ call.ttl = none) :
    (Patch.resume s (.authorizing call threadIdx) reply).1.threadTtls.get? key = s.threadTtls.get? key := by
  rw [Patch.resume]
  refine attempt_cases (motive := fun (out : Runtime × Turn Patch (Except PyError (List Thread))) =>
      out.1.threadTtls.get? key = s.threadTtls.get? key)
    (fun _ _ => rfl) (fun filters _ => ?_)
  cases s.threads.rows[threadIdx]? with
  | none => rfl
  | some r =>
    dsimp only
    refine attempt_cases (motive := fun (out : Runtime × Turn Patch (Except PyError (List Thread))) =>
      out.1.threadTtls.get? key = s.threadTtls.get? key)
      (fun _ _ => rfl) (fun allowed _ => ?_)
    cases allowed with
    | false => rfl
    | true =>
      exact attempt_cases (motive := fun (out : Runtime × Turn Patch (Except PyError (List Thread))) =>
      out.1.threadTtls.get? key = s.threadTtls.get? key)
        (fun _ _ => rfl) (fun ttls applied => applyTtl_get? applied elsewhere)

variable (removals) in
theorem patch_spared {q : Patch} (sub : ∀ call r, q.Writes s reply call r →
      (s.threads.get r).threadId ∉ deletions ∧
        (call.ttl ≠ none → call.threadId ∉ deletions ∧ call.threadId ∉ markings)) :
    Spared s (Patch.resume s q reply).1 removals deletions markings ∧
      ∀ (i r : Nat), s.threads.rows[i]? = some r → (s.threads.get r).threadId ∈ deletions →
        ∃ r' : Nat, (Patch.resume s q reply).1.threads.rows[i]? = some r' ∧
          ((Patch.resume s q reply).1.threads.get r').threadId = (s.threads.get r).threadId := by
  have effect := Patch.effect s q reply
  have ttls := patch_ttls s
  generalize result : Patch.resume s q reply = out at effect ⊢
  cases effect with
  | missing | suspended | failed | refused =>
    exact ⟨.refl s _ _ _, fun i r stands _ => ⟨r, stands, rfl⟩⟩
  | @replaced call threadIdx r filters outcome newTtls answer stands allowed =>
    obtain ⟨apart, ttlApart⟩ := sub call r (.allowed answer stands allowed)
    have kept : ∀ {id : Uuid}, (call.ttl ≠ none → id ≠ call.threadId) →
        newTtls.get? id.str = s.threadTtls.get? id.str := by
      intro id other
      have step := ttls call threadIdx reply id.str (by
        by_cases given : call.ttl = none
        · exact Or.inr given
        · exact Or.inl (fun texts => other given (Uuid.str_inj.mp texts)))
      rwa [result] at step
    have inside := (List.getElem?_eq_some_iff.mp stands).1
    refine ⟨⟨rfl, fun _ _ inactive => inactive, fun id ahead i inRows named => ?_, fun id _ listed => ?_,
      fun id ahead => kept (fun given same => (ttlApart given).2 (same ▸ ahead))⟩, fun i r' stands' ahead => ?_⟩
    · rcases List.mem_or_eq_of_mem_set inRows with old | new
      · have same := Table.replaceAt_get_old (s.threads.bounded i old) threadIdx
          (patched (s.threads.get r) call.metadata reply.now)
        exact ⟨old, same, kept (fun given equal => (ttlApart given).1 (equal ▸ ahead))⟩
      · subst new
        have written : (s.threads.get r).threadId = id := by simpa [Table.get, Table.replaceAt, patched] using named
        exact absurd (written ▸ ahead) apart
    · have unchanged : s.threadIds.set threadIdx (s.threads.get r).threadId = s.threadIds := by
        obtain ⟨inIds, own⟩ := List.getElem?_eq_some_iff.mp (threadIds_of_rows stands)
        rw [← own, List.set_getElem_self]
      have same : (s.threads.replaceAt threadIdx (patched (s.threads.get r) call.metadata reply.now)).values.map
          Thread.threadId = s.threadIds := by
        rw [Table.replaceAt_values, List.map_set]
        exact unchanged
      rw [GlobalStore.threadIds, same]
      exact listed
    · have other : i ≠ threadIdx := by
        rintro rfl
        rw [stands, Option.some.injEq] at stands'
        exact apart (stands' ▸ ahead)
      refine ⟨r', ?_, ?_⟩
      · rw [Table.replaceAt_rows, List.getElem?_set_ne other.symm]
        exact stands'
      · rw [Table.replaceAt_get_old (s.threads.bounded r' (List.mem_of_getElem? stands'))]

theorem delete_spared {base : BaseSaver} {q : Delete} {p : Sweep} (holds : p.Assertion s)
    (pops : ∀ i, q.PopsAt s reply i → ∀ r, s.threads.rows[i]? = some r →
      (s.threads.get r).threadId = q.target ∧ q.target ∉ p.markings ∧
        ∀ threadIdx threadId, p.removing = some (threadIdx, threadId) → threadIdx < i) :
    p.Assertion (Delete.resume base s q reply).1 := by
  have popped : ∀ {s₁ : Runtime} {threadId : Uuid} {i : Nat} {out}, Delete.Popped s₁ threadId i out →
      s₁.threads = s.threads → Spared s s₁ p.removals p.deletions p.markings → q.PopsAt s reply i →
      q.target = threadId → p.Assertion out.1 := by
    intro s₁ threadId i out popped sameThreads spared at_i target
    have first := holds.spared spared (fun threadIdx threadId r _ stands named =>
      ⟨r, sameThreads ▸ stands, sameThreads ▸ named⟩)
    cases popped with
    | outside => exact first
    | @popped r stands =>
      obtain ⟨named, notMarking, above⟩ := pops i at_i r (sameThreads ▸ stands)
      rw [target] at named notMarking
      refine first.spared (pop_spared _ stands (sameThreads ▸ named) (fun ahead r' inRows own => ?_) notMarking) ?_
      · obtain ⟨now, removable⟩ := first.unique ahead
        exact removable.unique r' inRows r (List.mem_of_getElem? stands) own (sameThreads ▸ named)
      · intro threadIdx threadId' r' removing stands' named'
        refine ⟨r', ?_, named'⟩
        rw [Table.pop_rows, List.getElem?_eraseIdx_of_lt (above threadIdx threadId' removing)]
        exact stands'
  have effect := Delete.effect base s q reply
  generalize Delete.resume base s q reply = out at effect ⊢
  cases effect with
  | located | refused | failed => exact holds
  | cascaded =>
    refine holds.spared (cascade_spared s s.memory _ _ _ _) (fun threadIdx threadId r _ stands named => ?_)
    exact ⟨r, stands, named⟩
  | deleted builtin authorized pop =>
    exact popped pop rfl (cascade_spared s _ _ _ _ _) (.authorized builtin authorized) rfl
  | resumed answer pop => exact popped pop rfl (.refl s _ _ _) (.resumed answer) rfl

end Operations

inductive TtlCall where
  | sweep (p : Sweep)
  | runsPut (p : Runs.Put)
  | patch (p : Patch)
  | delete (p : Delete)

inductive TtlResult where
  | swept (outcome : Except PyError SweepOutcome)
  | runs (outcome : Except PyError (List Run))
  | threads (outcome : Except PyError (List Thread))
  | deleted (outcome : Except PyError (List Uuid))

def ttlCalls (base : BaseSaver) (serde : Serde) (fuel : Nat) : Coroutines Runtime TtlCall Reply TtlResult where
  fresh
    | .sweep (.called _) | .runsPut (.called _) | .patch (.called _) | .delete (.called _) => true
    | _ => false
  resume s
    | .sweep p, reply =>
      ((Sweep.resume base serde fuel s p reply).1, (Sweep.resume base serde fuel s p reply).2.map .sweep .swept)
    | .runsPut p, reply =>
      ((Runs.Put.resume s p reply).1, (Runs.Put.resume s p reply).2.map .runsPut .runs)
    | .patch p, reply => ((Patch.resume s p reply).1, (Patch.resume s p reply).2.map .patch .threads)
    | .delete p, reply => ((Delete.resume base s p reply).1, (Delete.resume base s p reply).2.map .delete .deleted)

/-- A turn that leaves alone what the suspended sweep `p` has ahead. -/
def SparesSweep (s : Runtime) (reply : Reply) (p : Sweep) : TtlCall → Prop
  | .sweep _ => p.ahead = [] ∧ p.removing = none
  | .runsPut q => ∀ threadId, q.Reaches s reply threadId → threadId ∉ p.removals
  | .patch q => ∀ call r, q.Writes s reply call r →
      (s.threads.get r).threadId ∉ p.deletions ∧
        (call.ttl ≠ none → call.threadId ∉ p.deletions ∧ call.threadId ∉ p.markings)
  | .delete q => ∀ i, q.PopsAt s reply i → ∀ r, s.threads.rows[i]? = some r →
      (s.threads.get r).threadId = q.target ∧ q.target ∉ p.markings ∧
        ∀ threadIdx threadId, p.removing = some (threadIdx, threadId) → threadIdx < i

/-- Every suspended sweep is left alone, and a sweep collects the expired
threads from a list without repeated ids. -/
def SparesSweeps (s : Runtime) (others : List TtlCall) (k : TtlCall) (reply : Reply) : Prop :=
  (∀ p, .sweep p ∈ others → SparesSweep s reply p k) ∧ ∀ p, k = .sweep p → p.collects → s.threadIds.Nodup

def TtlCall.Assertion (s : Runtime) : TtlCall → Prop
  | .sweep p => p.Assertion s
  | _ => True

section Races

variable {base : BaseSaver} {serde : Serde} {fuel : Nat}

/-- A sweep that is not under way relies on nothing. -/
theorem assertion_of_idle {s s' : Runtime} {p : Sweep} (holds : p.Assertion s)
    (idle : p.ahead = [] ∧ p.removing = none) : p.Assertion s' := by
  cases p with
  | called | gettingFirst | stuck => trivial
  | gettingCheckpointer => cases idle.1
  | pruning frame rest =>
    have nothing : rest = [] := idle.1
    subst nothing
    exact ⟨by simp, by simp⟩
  | deleting frame deletion rest =>
    obtain ⟨_, threadId, threadIdx, _, rfl, _⟩ := holds
    cases idle.2

theorem other_keeps_assertion {s : Runtime} {p : Sweep} {k : TtlCall} {reply : Reply} (holds : p.Assertion s)
    (spares : SparesSweep s reply p k) : p.Assertion ((ttlCalls base serde fuel).resume s k reply).1 := by
  cases k with
  | sweep q => exact assertion_of_idle holds spares
  | delete q => exact delete_spared holds spares
  | runsPut q =>
    obtain ⟨spared, rows⟩ := runsPut_spared p.markings spares (deletions_sub_removals p)
    refine holds.spared spared (fun threadIdx threadId r _ stands named => ?_)
    obtain ⟨r', stands', same⟩ := rows threadIdx r stands
    exact ⟨r', stands', same.trans named⟩
  | patch q =>
    obtain ⟨spared, rows⟩ := patch_spared p.removals spares
    refine holds.spared spared (fun threadIdx threadId r removing stands named => ?_)
    have ahead : (s.threads.get r).threadId ∈ p.deletions := by
      rw [named, Sweep.deletions, removing]
      exact List.mem_append_left _ (List.mem_singleton_self _)
    obtain ⟨r', stands', same⟩ := rows threadIdx r stands ahead
    exact ⟨r', stands', same.trans named⟩

/-- In every interleaving that leaves the suspended sweeps alone, their decisions stay right. -/
theorem sweeps_hold {initial : Runtime} {l : EventLoop Runtime TtlCall}
    (reach : (ttlCalls base serde fuel).Reaches SparesSweeps ⟨initial, []⟩ l) :
    Coroutines.Annotated (fun _ => True) TtlCall.Assertion l := by
  refine reach.annotated ?_ ?_ ⟨trivial, by simp⟩
  · intro s k _ new
    cases k with
    | sweep p => cases p <;> first | exact trivial | cases new
    | _ => trivial
  · intro s others k reply _ holds rest met
    refine ⟨trivial, fun q left => ?_, fun j member => ?_⟩
    · cases k with
      | sweep p =>
        simp only [ttlCalls, Turn.points_map, List.mem_map] at left
        obtain ⟨p', left, rfl⟩ := left
        exact (sweep_turn_safe holds (met.2 p rfl) reply).2 p' left
      | runsPut p | patch p | delete p =>
        simp only [ttlCalls, Turn.points_map, List.mem_map] at left
        obtain ⟨p', left, rfl⟩ := left
        trivial
    · cases j with
      | sweep p => exact other_keeps_assertion (rest _ member) (met.1 p member)
      | _ => trivial

end Races

/-- In every interleaving of sweeps with `Runs.put`, `Threads.patch` and
`Threads.delete` that leaves the suspended sweeps alone, each turn of a sweep
changes the store by its acts only, and each act is safe at its moment. -/
theorem sweep_acts_safe (base : BaseSaver) (serde : Serde) (fuel : Nat) {initial : Runtime}
    {l : EventLoop Runtime TtlCall} (reach : (ttlCalls base serde fuel).Reaches SparesSweeps ⟨initial, []⟩ l)
    {i : Nat} {p : Sweep} (waits : l.waiting[i]? = some (.sweep p)) (reply : Reply)
    (met : SparesSweeps l.state (l.waiting.eraseIdx i) (.sweep p) reply) :
    (∀ act ∈ Sweep.acts base serde fuel l.state p reply, act.2.2.Safe act.2.1 act.1) ∧
      (Sweep.resume base serde fuel l.state p reply).1.toGlobalStore =
        applyAll l.state.config.useCustomCheckpointer l.state.toGlobalStore
          (Sweep.acts base serde fuel l.state p reply) := by
  have holds : p.Assertion l.state := (sweeps_hold reach).waiting _ (List.mem_of_getElem? waits)
  exact ⟨(sweep_turn_safe holds (met.2 p rfl) reply).1, sweep_turn_store holds reply⟩

section Stale

/-- Thread 1 keeps its latest checkpoint, at once. -/
def sweptThread : Runtime :=
  { oneThread with
    threadTtls := .ofPairs [((⟨1⟩ : Uuid).str, ⟨some .keepLatest, some (.finite 0), none⟩)] }

def sweptItem : Expired :=
  ⟨0, ⟨1⟩, ⟨.keepLatest, .finite 0⟩, ⟨some .keepLatest, some (.finite 0), none⟩, 0⟩

def wholeSweep : SweepCall := ⟨none, 100, false⟩

/-- The sweep awaits the checkpointer with thread 1 to be pruned. -/
def decidedSweep : Sweep :=
  .gettingCheckpointer (.first sweptThread wholeSweep 0 [sweptItem]) [⟨1⟩] [.take sweptItem]

theorem sweptThread_decided :
    Sweep.resume plainBase deltaSerde 0 sweptThread (.called wholeSweep) plainReply =
      (sweptThread, .suspended decidedSweep) := by
  have selected : selectExpired sweptThread none 0 = .ok [sweptItem] := by decide +kernel
  have reduced : Sweep.resume plainBase deltaSerde 0 sweptThread (.called wholeSweep) plainReply =
      attempt sweptThread (selectExpired sweptThread none 0) (fun selected =>
        Sweep.loop plainBase deltaSerde 0 (sweepWork 100 selected)
          (sweptThread, .first sweptThread wholeSweep 0 selected)) := rfl
  rw [reduced, selected]
  rfl

/-- A run is put on the thread while the sweep waits. -/
def putWhileSweeping : List (Coroutines.Move TtlCall Reply) :=
  [.call (.runsPut (.called plainPut)), .turn 1 plainReply, .turn 1 plainReply, .turn 1 plainReply]

theorem sweptThread_reaches {allowed : Runtime → List TtlCall → TtlCall → Reply → Prop}
    (met : allowed sweptThread [] (.sweep (.called wholeSweep)) plainReply) :
    (ttlCalls plainBase deltaSerde 0).Reaches allowed ⟨sweptThread, []⟩ ⟨sweptThread, [.sweep decidedSweep]⟩ := by
  have asked : (ttlCalls plainBase deltaSerde 0).Reaches allowed ⟨sweptThread, []⟩
      ⟨sweptThread, [.sweep (.called wholeSweep)]⟩ := .call .start rfl
  have decided := Coroutines.Reaches.turn 0 plainReply asked rfl met
  simpa [Coroutines.advance, ttlCalls, sweptThread_decided, Turn.map] using decided

/-- The sweep prunes a thread that has got a pending run since it was looked at. -/
theorem sweep_prunes_active_thread :
    ¬ ∀ (base : BaseSaver) (serde : Serde) (fuel : Nat) (initial : Runtime), initial.threadIds.Nodup →
      ∀ l : EventLoop Runtime TtlCall,
        (ttlCalls base serde fuel).Reaches Coroutines.unrestricted ⟨initial, []⟩ l →
          ∀ (i : Nat) (p : Sweep), l.waiting[i]? = some (.sweep p) → ∀ reply,
            ∀ act ∈ Sweep.acts base serde fuel l.state p reply, act.2.2.Safe act.2.1 act.1 := by
  intro safe
  have performed : ((ttlCalls plainBase deltaSerde 0).performAll ⟨sweptThread, [.sweep decidedSweep]⟩
      putWhileSweeping).isSome = true := rfl
  have reach := Coroutines.Reaches.performAll (sweptThread_reaches trivial) (Option.some_get performed).symm
  have pruned := safe plainBase deltaSerde 0 sweptThread (by decide) _ reach 0 decidedSweep rfl plainReply _
    (List.mem_cons_self ..)
  have idle := pruned ⟨1⟩ (List.mem_singleton_self _) _ (List.mem_of_getElem? (i := 0) rfl) rfl
  cases idle

/-- A run that brings its own thread. -/
def putElsewhere : Runs.PutCall := { plainPut with threadId := some ⟨2⟩, ifNotExists := .create }

/-- The sweep waits and the thread of the run is about to be appended. -/
def creatingElsewhere : EventLoop Runtime TtlCall :=
  ⟨sweptThread, [.sweep decidedSweep,
    .runsPut (.creatingThread putElsewhere userAssistant (Runs.newThread putElsewhere userAssistant ⟨2⟩ 0))]⟩

theorem creatingElsewhere_reached :
    (ttlCalls plainBase deltaSerde 0).Reaches SparesSweeps ⟨sweptThread, []⟩ creatingElsewhere := by
  have spares : ∀ {q}, (∀ r, ¬ q.Extends sweptThread plainReply r) →
      (∀ call assistant thread, q ≠ .creatingThread call assistant thread) →
        SparesSweeps sweptThread [.sweep decidedSweep] (.runsPut q) plainReply := by
    intro q extends_ creates
    refine ⟨fun p member => ?_, by rintro p ⟨⟩⟩
    cases List.mem_singleton.mp member
    rintro threadId (⟨r, found, _⟩ | ⟨call, assistant, thread, rfl, _⟩)
    · exact absurd found (extends_ r)
    · exact absurd rfl (creates call assistant thread)
  have decided : (ttlCalls plainBase deltaSerde 0).Reaches SparesSweeps _ _ :=
    sweptThread_reaches ⟨by simp, fun p _ _ => by decide⟩
  have asked := decided.call (k := .runsPut (.called putElsewhere)) rfl
  have found : (ttlCalls plainBase deltaSerde 0).Reaches SparesSweeps ⟨sweptThread, []⟩
      ⟨sweptThread, [.sweep decidedSweep, .runsPut (.authorizing putElsewhere userAssistant)]⟩ :=
    .turn 1 plainReply asked rfl (spares (by rintro r ⟨⟩) (by simp))
  have authorized : (ttlCalls plainBase deltaSerde 0).Reaches SparesSweeps ⟨sweptThread, []⟩
      ⟨sweptThread, [.sweep decidedSweep, .runsPut (.authorizingAssistant putElsewhere userAssistant none .none)]⟩ := by
    refine .turn 1 plainReply found rfl (spares ?_ (by simp))
    rintro r ⟨_, isSystem⟩
    exact absurd isSystem (by decide)
  exact .turn 1 plainReply authorized rfl (spares (by rintro r ⟨⟩) (by simp))

/-- A run is put on another thread while the sweep waits; then the sweep prunes
and marks its own. -/
theorem sweep_acts_safe_beside_put :
    ∃ l : EventLoop Runtime TtlCall, ∃ p, l.waiting = [.sweep p] ∧ l.state.runs.values.map Run.threadId = [⟨2⟩] ∧
      (Sweep.acts plainBase deltaSerde 0 l.state p plainReply).length = 2 ∧
      ∀ act ∈ Sweep.acts plainBase deltaSerde 0 l.state p plainReply, act.2.2.Safe act.2.1 act.1 := by
  have put := Coroutines.Reaches.turn 1 plainReply creatingElsewhere_reached rfl (by
    refine ⟨fun p member => ?_, by rintro p ⟨⟩⟩
    cases List.mem_singleton.mp member
    rintro threadId (⟨r, ⟨⟩, _⟩ | ⟨call, assistant, thread, ⟨⟩, rfl⟩)
    decide)
  have alone : ∀ s, s.threadIds.Nodup → SparesSweeps s [] (.sweep decidedSweep) plainReply :=
    fun s distinct => ⟨by simp, fun p _ _ => distinct⟩
  have safe := (sweep_acts_safe plainBase deltaSerde 0 put (i := 0) rfl plainReply (alone _ (by decide))).1
  exact ⟨_, _, by rfl, by rfl, by rfl, safe⟩

end Stale

end InmemRuntime
