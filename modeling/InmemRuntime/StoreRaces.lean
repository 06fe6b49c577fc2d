import InmemRuntime.CronsPut
import InmemRuntime.HeldIndices
import InmemRuntime.RunsPut

namespace InmemRuntime

/-- The operations that add threads, runs and crons, and the deletion of a thread. -/
inductive StoreCall where
  | runsPut (p : Runs.Put)
  | threadsPut (p : Threads.Put)
  | threadsCopy (p : Threads.Copy)
  | threadsDelete (p : Threads.Delete)
  | cronsPut (p : Crons.Put)

inductive StoreResult where
  | runs (outcome : Except PyError (List Run))
  | threads (outcome : Except PyError (List Thread))
  | deleted (outcome : Except PyError (List Uuid))
  | crons (outcome : Except PyError (List Cron))

/-- Thread ids are distinct, and every run and every cron with a thread names
one that is there. -/
structure WellFormed (s : GlobalStore) : Prop where
  distinct : s.threadIds.Nodup
  runs : ∀ run ∈ s.runs.values, run.threadId ∈ s.threadIds
  crons : ∀ cron ∈ s.crons, ∀ threadId, cron.threadId = some threadId → threadId ∈ s.threadIds

/-- No run and no cron of a thread is left. -/
structure Emptied (s : GlobalStore) (threadId : Uuid) : Prop where
  runs : ∀ run ∈ s.runs.values, run.threadId ≠ threadId
  crons : ∀ cron ∈ s.crons, cron.threadId ≠ some threadId

def StoreCall.aim : StoreCall → Option (Nat × Uuid)
  | .threadsDelete p => p.aim
  | _ => none

/-- The thread whose runs and crons a suspended deletion has removed already. -/
def StoreCall.emptied : StoreCall → Option Uuid
  | .threadsDelete (.deletingCheckpoints threadId _) => some threadId
  | _ => none

section Calls

variable (base : BaseSaver) (lib : CronLibrary)

def storeCalls : Coroutines Runtime StoreCall Reply StoreResult where
  fresh
    | .runsPut (.called _) | .threadsPut (.called _) | .threadsCopy (.called _)
    | .threadsDelete (.called _) | .cronsPut (.called _) => true
    | _ => false
  resume s
    | .runsPut p, reply => ((Runs.Put.resume s p reply).1, (Runs.Put.resume s p reply).2.map .runsPut .runs)
    | .threadsPut p, reply =>
      ((Threads.Put.resume s p reply).1, (Threads.Put.resume s p reply).2.map .threadsPut .threads)
    | .threadsCopy p, reply =>
      ((Threads.Copy.resume s p reply).1, (Threads.Copy.resume s p reply).2.map .threadsCopy .threads)
    | .threadsDelete p, reply =>
      ((Threads.Delete.resume base s p reply).1,
        (Threads.Delete.resume base s p reply).2.map .threadsDelete .deleted)
    | .cronsPut p, reply =>
      ((Crons.Put.resume lib s reply p).1, (Crons.Put.resume lib s reply p).2.map .cronsPut .crons)

/-- What a turn relies on after an await. -/
structure Undisturbed (s : Runtime) (others : List StoreCall) (k : StoreCall) (reply : Reply) : Prop where
  /-- A run goes to an existing thread that is still there and is not being deleted. -/
  extended : ∀ p r, k = .runsPut p → p.Extends s reply r →
    (s.threads.get r).threadId ∈ s.threadIds ∧
      ∀ j ∈ others, j.emptied ≠ some (s.threads.get r).threadId
  /-- A cron is bound to a thread that is not being deleted. -/
  bound : ∀ p threadId, k = .cronsPut p → Crons.Put.Binds lib s reply p threadId →
    ∀ j ∈ others, j.emptied ≠ some threadId
  /-- The thread a run brings has an id that nobody took meanwhile. -/
  created : ∀ call assistant thread value, k = .runsPut (.creatingThread call assistant thread) →
    reply.answer = .ok value → thread.threadId ∉ s.threadIds
  /-- So has a copy. -/
  copied : ∀ p threadId, k = .threadsCopy p → p.Appends s reply threadId → threadId ∉ s.threadIds
  /-- A deletion pops above every position that another one holds. -/
  popped : ∀ p i, k = .threadsDelete p → p.PopsAt s reply i →
    ∀ j ∈ others, ∀ held, j.aim = some held → held.1 < i

end Calls

/-- What holds of a suspended call: its position is right, and a thread it has
emptied stays empty. -/
structure Waits (s : Runtime) (k : StoreCall) : Prop where
  aimed : Aimed s k.aim
  emptied : ∀ threadId, k.emptied = some threadId → Emptied s.toGlobalStore threadId

/-- A turn that only adds. The ids it adds are new; its runs and crons name a
thread that is there and is not among those being deleted. -/
structure Grows (deleting : Uuid → Prop) (s s' : Runtime) : Prop where
  ids : IdsStep s s' none
  runs : ∀ run ∈ s'.runs.values, run ∈ s.runs.values ∨ run.threadId ∈ s'.threadIds ∧ ¬ deleting run.threadId
  crons : ∀ cron ∈ s'.crons, cron ∈ s.crons ∨
    ∀ threadId, cron.threadId = some threadId → threadId ∈ s'.threadIds ∧ ¬ deleting threadId

theorem IdsStep.kept {s s' : Runtime} (ids : IdsStep s s' none) {threadId : Uuid} (member : threadId ∈ s.threadIds) :
    threadId ∈ s'.threadIds := by
  cases ids with
  | same same => rwa [same]
  | appended _ appended =>
    rw [appended]
    exact List.mem_append_left _ member

section Grows

variable {deleting : Uuid → Prop} {s s' : Runtime}

theorem Grows.refl (s : Runtime) : Grows deleting s s :=
  ⟨.same rfl, fun _ member => Or.inl member, fun _ member => Or.inl member⟩

theorem Grows.wellFormed (grows : Grows deleting s s') (well : WellFormed s.toGlobalStore) :
    WellFormed s'.toGlobalStore where
  distinct := grows.ids.nodup well.distinct
  runs := by
    intro run member
    rcases grows.runs run member with old | new
    · exact grows.ids.kept (well.runs run old)
    · exact new.1
  crons := by
    intro cron member threadId named
    rcases grows.crons cron member with old | new
    · exact grows.ids.kept (well.crons cron old threadId named)
    · exact (new threadId named).1

theorem Grows.emptied (grows : Grows deleting s s') {threadId : Uuid} (gone : deleting threadId)
    (empty : Emptied s.toGlobalStore threadId) : Emptied s'.toGlobalStore threadId where
  runs := by
    intro run member same
    rcases grows.runs run member with old | new
    · exact empty.runs run old same
    · exact new.2 (same ▸ gone)
  crons := by
    intro cron member named
    rcases grows.crons cron member with old | new
    · exact empty.crons cron old named
    · exact (new threadId named).2 gone

theorem mem_inserted {call : Runs.PutCall} {threadId : Uuid} {reply : Reply} {runs : Table Run} {run : Run}
    (inserted : Runs.Put.Inserted s call threadId reply runs) (member : run ∈ runs.values) :
    run ∈ s.runs.values ∨ run.threadId = threadId := by
  cases inserted with
  | none => exact Or.inl member
  | appended =>
    rw [Table.append_values, List.mem_append, List.mem_singleton] at member
    rcases member with old | rfl
    · exact Or.inl old
    · exact Or.inr rfl

theorem grows_runsPut {p : Runs.Put} {reply : Reply}
    (extended : ∀ r, p.Extends s reply r → (s.threads.get r).threadId ∈ s.threadIds ∧
      ¬ deleting (s.threads.get r).threadId)
    (created : ∀ call assistant thread value, p = .creatingThread call assistant thread →
      reply.answer = .ok value → thread.threadId ∉ s.threadIds ∧ ¬ deleting thread.threadId) :
    Grows deleting s (Runs.Put.resume s p reply).1 := by
  have effect := Runs.Put.effect s p reply
  generalize Runs.Put.resume s p reply = out at effect ⊢
  cases effect with
  | unchanged | suspended => exact Grows.refl s
  | @extended r assistant runs outcome goes inserted =>
    obtain ⟨present, kept⟩ := extended r goes
    have same : GlobalStore.threadIds { s.toGlobalStore with
        threads := s.threads.update r (Runs.markBusy p.call assistant reply.now), runs := runs } = s.threadIds :=
      Table.update_values_map _ _ (Runs.markBusy_threadId _ _ _)
    refine ⟨.same same, fun run member => ?_, fun _ member => Or.inl member⟩
    rcases mem_inserted inserted member with old | named
    · exact Or.inl old
    · right
      rw [named]
      exact ⟨same ▸ present, kept⟩
  | @created call assistant thread value runs outcome at_point answer inserted =>
    obtain ⟨new, kept⟩ := created call assistant thread value at_point answer
    have ids : GlobalStore.threadIds { s.toGlobalStore with
        threads := s.threads.append thread, runs := runs } = s.threadIds ++ [thread.threadId] := by
      simp [GlobalStore.threadIds]
    refine ⟨.appended new ids, fun run member => ?_, fun _ member => Or.inl member⟩
    rcases mem_inserted inserted member with old | named
    · exact Or.inl old
    · right
      rw [named]
      exact ⟨ids ▸ List.mem_append_right _ (List.mem_singleton_self _), kept⟩

theorem grows_threadsPut (p : Threads.Put) (reply : Reply) :
    Grows deleting s (Threads.Put.resume s p reply).1 := by
  have ids := put_ids s p reply
  have effect := Threads.Put.effect s p reply
  generalize Threads.Put.resume s p reply = out at effect ids ⊢
  refine ⟨ids, ?_, ?_⟩
  · cases effect <;> exact fun _ member => Or.inl member
  · cases effect <;> exact fun _ member => Or.inl member

theorem grows_threadsCopy {p : Threads.Copy} {reply : Reply}
    (copied : ∀ threadId, p.Appends s reply threadId → threadId ∉ s.threadIds) :
    Grows deleting s (Threads.Copy.resume s p reply).1 := by
  have effect := Threads.Copy.effect s p reply
  generalize Threads.Copy.resume s p reply = out at effect ⊢
  cases effect with
  | unchanged => exact Grows.refl s
  | appended appends =>
    refine ⟨.appended (copied _ appends) (by simp [GlobalStore.threadIds]), ?_, ?_⟩
    · exact fun _ member => Or.inl member
    · exact fun _ member => Or.inl member

theorem grows_cronsPut {lib : CronLibrary} {p : Crons.Put} {reply : Reply}
    (bound : ∀ threadId, Crons.Put.Binds lib s reply p threadId → ¬ deleting threadId) :
    Grows deleting s (Crons.Put.resume lib s reply p).1 := by
  have effect := Crons.Put.effect lib s p reply
  generalize Crons.Put.resume lib s reply p = out at effect ⊢
  cases effect with
  | unchanged => exact Grows.refl s
  | @unbound cron outcome none =>
    refine ⟨.same rfl, fun _ member => Or.inl member, fun c member => ?_⟩
    rcases List.mem_append.mp member with old | new
    · exact Or.inl old
    · rw [List.mem_singleton.mp new, none]
      exact Or.inr (by simp)
  | @bound cron threadId outcome binds named =>
    refine ⟨.same rfl, fun _ member => Or.inl member, fun c member => ?_⟩
    rcases List.mem_append.mp member with old | new
    · exact Or.inl old
    · right
      intro id same
      rw [List.mem_singleton.mp new, named] at same
      cases same
      refine ⟨?_, bound _ binds⟩
      cases binds with
      | found _ found _ _ _ => exact mem_threadIds_of_find? found

end Grows

section Deletion

variable {s : Runtime} {threadId : Uuid}

theorem cascade_wellFormed (well : WellFormed s.toGlobalStore) (threadId : Uuid) :
    WellFormed (Threads.cascade s threadId).toGlobalStore where
  distinct := well.distinct
  runs := by
    intro run member
    rw [Threads.cascade, Table.keep_values] at member
    exact well.runs run (List.mem_of_mem_filter member)
  crons := fun cron member => well.crons cron (List.mem_of_mem_filter member)

theorem cascade_emptied (s : Runtime) (threadId : Uuid) :
    Emptied (Threads.cascade s threadId).toGlobalStore threadId where
  runs := by
    intro run member
    rw [Threads.cascade, Table.keep_values] at member
    simpa using (List.mem_filter.mp member).2
  crons := by
    intro cron member
    simpa using (List.mem_filter.mp member).2

theorem cascade_keeps_emptied {other : Uuid} (empty : Emptied s.toGlobalStore other) (threadId : Uuid) :
    Emptied (Threads.cascade s threadId).toGlobalStore other where
  runs := by
    intro run member
    rw [Threads.cascade, Table.keep_values] at member
    exact empty.runs run (List.mem_of_mem_filter member)
  crons := fun cron member => empty.crons cron (List.mem_of_mem_filter member)

/-- The record of an emptied thread can go. -/
theorem popped_wellFormed {i : Nat} {out : Runtime × Turn Threads.Delete (Except PyError (List Uuid))}
    (popped : Threads.Delete.Popped s threadId i out) (well : WellFormed s.toGlobalStore)
    (aimed : s.threadIds[i]? = some threadId) (empty : Emptied s.toGlobalStore threadId) :
    WellFormed out.1.toGlobalStore := by
  cases popped with
  | outside => exact well
  | @popped r stands =>
    obtain ⟨at_i, named⟩ := aimed_record aimed stands
    have values := Table.pop_values_eq_filter Thread.threadId well.distinct at_i
    have stays : ∀ id ∈ s.threadIds, id ≠ threadId →
        id ∈ ((s.threads.pop i).values.map Thread.threadId) := by
      intro id member other
      obtain ⟨thread, inside, rfl⟩ := List.mem_map.mp member
      rw [values, named]
      exact List.mem_map_of_mem (List.mem_filter.mpr ⟨inside, by simpa using other⟩)
    exact
      { distinct := by
          refine well.distinct.sublist ?_
          simp only [GlobalStore.threadIds, Table.pop_values]
          exact (List.eraseIdx_sublist _ _).map _
        runs := fun run member => stays _ (well.runs run member) (empty.runs run member)
        crons := fun cron member id named => stays _ (well.crons cron member id named)
          (fun same => empty.crons cron member (same ▸ named)) }

theorem popped_emptied {i : Nat} {out : Runtime × Turn Threads.Delete (Except PyError (List Uuid))}
    {other : Uuid} (popped : Threads.Delete.Popped s threadId i out) (empty : Emptied s.toGlobalStore other) :
    Emptied out.1.toGlobalStore other := by
  cases popped with
  | outside => exact empty
  | popped => exact ⟨empty.runs, empty.crons⟩

end Deletion

section Races

variable {base : BaseSaver} {lib : CronLibrary}

/-- The threads that some other suspended call is deleting. -/
def deletedBy (others : List StoreCall) (threadId : Uuid) : Prop := ∃ j ∈ others, j.emptied = some threadId

/-- A thread that is being deleted is still in the list. -/
theorem mem_of_waits {s : Runtime} {j : StoreCall} {threadId : Uuid} (waits : Waits s j)
    (emptied : j.emptied = some threadId) : threadId ∈ s.threadIds := by
  rcases j with _ | _ | _ | p | _
  case threadsDelete =>
    cases p with
    | called | authorizing => cases emptied
    | deletingCheckpoints id i =>
      cases emptied
      exact List.mem_of_getElem? (waits.aimed i threadId rfl)
  all_goals cases emptied

variable (base) in
/-- A turn of an adding operation. -/
theorem grows_turn {s : Runtime} {others : List StoreCall} {k : StoreCall} {reply : Reply}
    (rest : ∀ j ∈ others, Waits s j) (met : Undisturbed lib s others k reply)
    (adds : ∀ p, k ≠ .threadsDelete p) :
    Grows (deletedBy others) s ((storeCalls base lib).resume s k reply).1 := by
  cases k with
  | threadsDelete p => exact absurd rfl (adds p)
  | threadsPut p => exact grows_threadsPut p reply
  | threadsCopy p => exact grows_threadsCopy (fun threadId appends => met.copied p threadId rfl appends)
  | cronsPut p =>
    refine grows_cronsPut (fun threadId binds deleting => ?_)
    obtain ⟨j, member, emptied⟩ := deleting
    exact met.bound p threadId rfl binds j member emptied
  | runsPut p =>
    refine grows_runsPut (fun r goes => ?_) (fun call assistant thread value at_point answer => ?_)
    · obtain ⟨present, free⟩ := met.extended p r rfl goes
      refine ⟨present, fun deleting => ?_⟩
      obtain ⟨j, member, emptied⟩ := deleting
      exact free j member emptied
    · have new := met.created call assistant thread value (by rw [at_point]) answer
      refine ⟨new, fun deleting => ?_⟩
      obtain ⟨j, member, emptied⟩ := deleting
      exact new (mem_of_waits (rest j member) emptied)

/-- An adding call holds no position and has emptied no thread, wherever it is left. -/
theorem points_of_adding {s : Runtime} {k q : StoreCall} {reply : Reply} (adds : ∀ p, k ≠ .threadsDelete p)
    (left : q ∈ ((storeCalls base lib).resume s k reply).2.points) : q.aim = none ∧ q.emptied = none := by
  cases k with
  | threadsDelete p => exact absurd rfl (adds p)
  | _ =>
    simp only [storeCalls, Turn.points_map, List.mem_map] at left
    obtain ⟨p', _, rfl⟩ := left
    exact ⟨rfl, rfl⟩

theorem Waits.of_none {s : Runtime} {k : StoreCall} (holds : k.aim = none ∧ k.emptied = none) : Waits s k := by
  refine ⟨?_, ?_⟩
  · rw [holds.1]
    exact aimed_none s
  · intro threadId emptied
    rw [holds.2] at emptied
    cases emptied

/-- A turn of `delete` empties its thread before it pops the record. -/
theorem delete_wellFormed {s : Runtime} (well : WellFormed s.toGlobalStore) {p : Threads.Delete}
    (waits : Waits s (.threadsDelete p)) (reply : Reply) :
    WellFormed (Threads.Delete.resume base s p reply).1.toGlobalStore := by
  have effect := Threads.Delete.effect base s p reply
  generalize Threads.Delete.resume base s p reply = out at effect ⊢
  cases effect with
  | located | refused | failed => exact well
  | cascaded => exact cascade_wellFormed well _
  | @deleted threadId i matching out builtin authorized popped =>
    have emptied := cascade_emptied s threadId
    have kept := cascade_wellFormed well threadId
    exact popped_wellFormed popped ⟨kept.distinct, kept.runs, kept.crons⟩
      (waits.aimed i threadId rfl) ⟨emptied.runs, emptied.crons⟩
  | @resumed threadId i value out answer popped =>
    exact popped_wellFormed popped well (waits.aimed i threadId rfl) (waits.emptied threadId rfl)

theorem delete_keeps_emptied {s : Runtime} {other : Uuid} (empty : Emptied s.toGlobalStore other)
    (p : Threads.Delete) (reply : Reply) :
    Emptied (Threads.Delete.resume base s p reply).1.toGlobalStore other := by
  have effect := Threads.Delete.effect base s p reply
  generalize Threads.Delete.resume base s p reply = out at effect ⊢
  cases effect with
  | located | refused | failed => exact empty
  | cascaded => exact cascade_keeps_emptied empty _
  | @deleted threadId i matching out builtin authorized popped =>
    have kept := cascade_keeps_emptied empty threadId
    exact popped_emptied popped ⟨kept.runs, kept.crons⟩
  | resumed _ popped => exact popped_emptied popped empty

theorem delete_points_emptied {s : Runtime} {p q : Threads.Delete} {reply : Reply} {threadId : Uuid}
    (left : q ∈ (Threads.Delete.resume base s p reply).2.points)
    (emptied : (StoreCall.threadsDelete q).emptied = some threadId) :
    Emptied (Threads.Delete.resume base s p reply).1.toGlobalStore threadId := by
  have effect := Threads.Delete.effect base s p reply
  generalize Threads.Delete.resume base s p reply = out at effect left ⊢
  cases effect with
  | refused | failed => simp at left
  | deleted _ _ popped => cases popped <;> simp at left
  | resumed _ popped => cases popped <;> simp at left
  | located id =>
    simp only [Turn.points_suspended, List.mem_singleton] at left
    subst left
    cases emptied
  | cascaded =>
    simp only [Turn.points_suspended, List.mem_singleton] at left
    subst left
    cases emptied
    exact cascade_emptied s threadId

/-- One turn of any call keeps the store well formed and what every suspended
call relies on. -/
theorem undisturbed_turn {s : Runtime} {others : List StoreCall} {k : StoreCall} {reply : Reply}
    (well : WellFormed s.toGlobalStore) (waits : Waits s k) (rest : ∀ j ∈ others, Waits s j)
    (met : Undisturbed lib s others k reply) :
    WellFormed ((storeCalls base lib).resume s k reply).1.toGlobalStore ∧
      (∀ q ∈ ((storeCalls base lib).resume s k reply).2.points,
        Waits ((storeCalls base lib).resume s k reply).1 q) ∧
      ∀ j ∈ others, Waits ((storeCalls base lib).resume s k reply).1 j := by
  by_cases adds : ∀ p, k ≠ .threadsDelete p
  · have grows := grows_turn base rest met adds
    refine ⟨grows.wellFormed well, fun q left => Waits.of_none (points_of_adding adds left), ?_⟩
    intro j member
    refine ⟨(rest j member).aimed.step grows.ids (by simp), fun threadId emptied => ?_⟩
    exact grows.emptied ⟨j, member, emptied⟩ ((rest j member).emptied threadId emptied)
  · push Not at adds
    obtain ⟨p, rfl⟩ := adds
    refine ⟨delete_wellFormed well waits reply, fun q left => ?_, fun j member => ?_⟩
    · simp only [storeCalls, Turn.points_map, List.mem_map] at left
      obtain ⟨p', left, rfl⟩ := left
      exact ⟨delete_aimed waits.aimed left, fun threadId emptied => delete_points_emptied left emptied⟩
    · obtain ⟨popped, ids, position⟩ := delete_ids base s p reply
      refine ⟨(rest j member).aimed.step ids (fun i at_i held aim => ?_), fun threadId emptied => ?_⟩
      · exact met.popped p i rfl (position i at_i) j member held aim
      · exact delete_keeps_emptied ((rest j member).emptied threadId emptied) p reply

end Races

/-- From a well-formed store, in every interleaving whose turns find what they
rely on, every state is well formed, also while calls are suspended. -/
theorem store_well_formed (base : BaseSaver) (lib : CronLibrary) {initial : Runtime}
    (well : WellFormed initial.toGlobalStore) {l : EventLoop Runtime StoreCall}
    (reach : (storeCalls base lib).Reaches (Undisturbed lib) ⟨initial, []⟩ l) :
    WellFormed l.state.toGlobalStore := by
  have annotated : Coroutines.Annotated (fun s : Runtime => WellFormed s.toGlobalStore) Waits l := by
    refine reach.annotated (fun {s k} _ new => ?_) (fun well waits rest met => ?_) ⟨well, by simp⟩
    · refine Waits.of_none ?_
      cases k with
      | threadsDelete p => cases p <;> first | exact ⟨rfl, rfl⟩ | cases new
      | _ => exact ⟨rfl, rfl⟩
    · exact undisturbed_turn well waits rest met
  exact annotated.state

section Dangling

def plainCronLibrary : CronLibrary where
  isValid := fun _ => true
  nextCronDate := fun _ now _ => .ok now
  getAssistantId
    | .str s => .ok s
    | _ => .error .typeError
  systemAssistantIds := []

def userAssistant : Assistant := ⟨⟨7⟩, "agent", [], [], []⟩

def oneThread : Runtime := { storeOf [idleThread ⟨1⟩] with assistants := [userAssistant] }

theorem oneThread_wellFormed : WellFormed oneThread.toGlobalStore where
  distinct := by decide
  runs := by
    intro run member
    rw [show oneThread.runs.values = [] from rfl] at member
    cases member
  crons := by
    intro cron member
    rw [show oneThread.crons = [] from rfl] at member
    cases member

/-- A run on thread 1 with every optional argument left out. -/
def plainPut : Runs.PutCall :=
  { assistantId := ⟨7⟩, kwargs := [], threadId := some ⟨1⟩, userId := none, runId := some ⟨2⟩
    status := some .pending, metadata := none, preventInsertIfInflight := false
    multitaskStrategy := "reject", ifNotExists := .reject, afterSeconds := 0, langsmithSessionName := none }

/-- The thread is deleted while `Runs.put` awaits the assistant's handler. -/
def deleteWhileAuthorizing : List (Coroutines.Move StoreCall Reply) :=
  [.call (.runsPut (.called plainPut)), .turn 0 plainReply, .turn 0 plainReply,
    .call (.threadsDelete (.called ⟨1⟩)), .turn 1 plainReply, .turn 1 plainReply, .turn 0 plainReply]

/-- `Runs.put` adds a run to the thread record that it found before its last
await; when the thread has been deleted meanwhile, the run names no thread. -/
theorem run_left_without_thread :
    ¬ ∀ (base : BaseSaver) (lib : CronLibrary) (initial : Runtime), WellFormed initial.toGlobalStore →
      ∀ l : EventLoop Runtime StoreCall,
        (storeCalls base lib).Reaches Coroutines.unrestricted ⟨initial, []⟩ l → l.waiting = [] →
          WellFormed l.state.toGlobalStore := by
  intro wellFormed
  have performed : ((storeCalls plainBase plainCronLibrary).performAll ⟨oneThread, []⟩
      deleteWhileAuthorizing).isSome = true := rfl
  have finally_ := wellFormed plainBase plainCronLibrary oneThread oneThread_wellFormed _
    (Coroutines.reaches_of_performAll (Option.some_get performed).symm) rfl
  have dangling : (⟨1⟩ : Uuid) ∈ ([] : List Uuid) := finally_.runs _ (List.mem_of_getElem? (i := 0) rfl)
  cases dangling

/-- A turn that neither brings nor copies a thread goes undisturbed if this holds. -/
def stands (s : Runtime) (others : List StoreCall) : StoreCall → Bool
  | .runsPut (.called _) | .threadsPut _ | .threadsCopy (.called _) | .threadsCopy (.authorizingRead _ _) => true
  | .runsPut (.authorizing _ assistant) => !Runs.isSystemAssistant assistant
  | .runsPut (.authorizingAssistant _ _ existing _) => existing.all (fun r =>
      (s.threads.get r).threadId ∈ s.threadIds ∧ ∀ j ∈ others, j.emptied ≠ some (s.threads.get r).threadId)
  | .cronsPut (.authorizingThread _ _ threadId) => ∀ j ∈ others, j.emptied ≠ some threadId
  | .cronsPut _ => true
  | .threadsDelete p => p.aim.all (fun own => ∀ j ∈ others, j.aim.all (fun held => held.1 < own.1))
  | .runsPut (.creatingThread _ _ _) | .threadsCopy _ => false

theorem undisturbed_of_stands {lib : CronLibrary} {s : Runtime} {others : List StoreCall} {k : StoreCall} {reply : Reply}
    (stand : stands s others k = true) : Undisturbed lib s others k reply where
  extended := by
    rintro p r rfl extends_
    cases extends_ with
    | found _ isSystem => simp [stands, isSystem] at stand
    | held => simpa [stands] using stand
  bound := by
    rintro p threadId rfl ⟨⟩
    simpa [stands] using stand
  created := by
    rintro call assistant thread value rfl
    simp [stands] at stand
  copied := by
    rintro p threadId rfl ⟨⟩
    simp [stands] at stand
  popped := by
    rintro p i rfl popsAt j member held aimed
    obtain ⟨threadId, aim⟩ := popsAt.aim
    have below : p.aim.all (fun own => ∀ j ∈ others, j.aim.all (fun held => held.1 < own.1)) = true := stand
    rw [aim, Option.all_some, decide_eq_true_eq] at below
    simpa [aimed] using below j member

def twoThreads : Runtime :=
  { storeOf [idleThread ⟨1⟩, idleThread ⟨2⟩] with
    assistants := [userAssistant]
    config := { (default : ApiConfig) with useCustomCheckpointer := true } }

theorem twoThreads_wellFormed : WellFormed twoThreads.toGlobalStore where
  distinct := by decide
  runs := by
    intro run member
    cases show run ∈ [] from member
  crons := by
    intro cron member
    cases show cron ∈ [] from member

/-- A cron on thread 1. -/
def plainCron : Crons.PutCall :=
  { payload := some [("assistant_id", .str userAssistant.assistantId.str)], schedule := "* * * * *", cronId := some ⟨3⟩
    threadId := some ⟨1⟩, onRunCompleted := none, endTime := none, metadata := none, enabled := true, timezone := none
    userId := none }

/-- Thread 2 is deleted while thread 1 gets a run and a cron: its checkpoints are
awaited until these are there. -/
def deleteBesidePuts : List (Coroutines.Move StoreCall Reply) :=
  [.call (.runsPut (.called plainPut)), .turn 0 plainReply, .call (.threadsDelete (.called ⟨2⟩)), .turn 1 plainReply,
    .turn 0 plainReply, .call (.cronsPut (.called plainCron)), .turn 1 plainReply, .turn 2 plainReply, .turn 0 plainReply,
    .turn 1 plainReply, .turn 1 plainReply, .turn 1 plainReply, .turn 0 plainReply]

theorem deleteBesidePuts_performed :
    ((storeCalls plainBase plainCronLibrary).performAllIf (fun s others k _ => stands s others k = true) ⟨twoThreads, []⟩
      deleteBesidePuts).isSome = true := by
  decide +kernel

/-- A deletion overlaps a `Runs.put` and a `Crons.put` on the thread that stays. -/
theorem store_well_formed_deletion :
    ∃ l : EventLoop Runtime StoreCall, l.waiting = [] ∧ l.state.threadIds = [⟨1⟩] ∧
      l.state.runs.values.map Run.threadId = [⟨1⟩] ∧ l.state.crons.map Cron.threadId = [some ⟨1⟩] ∧
      WellFormed l.state.toGlobalStore := by
  have reach : (storeCalls plainBase plainCronLibrary).Reaches (Undisturbed plainCronLibrary) _ _ :=
    (Coroutines.Reaches.performAllIf .start (Option.some_get deleteBesidePuts_performed).symm).weaken undisturbed_of_stands
  exact ⟨_, by rfl, by rfl, by rfl, by rfl, store_well_formed plainBase plainCronLibrary twoThreads_wellFormed reach⟩

end Dangling

end InmemRuntime
