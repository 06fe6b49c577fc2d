import InmemRuntime.CronsNext
import InmemRuntime.PruneHistory

namespace InmemRuntime

/-- The crons keep their ids and their places, and new ones come after them. -/
def GrowsInPlace (s s' : Runtime) : Prop :=
  (∃ added, s'.crons.map Cron.cronId = s.crons.map Cron.cronId ++ added) ∧
    ((s.crons.map Cron.cronId).Nodup → (s'.crons.map Cron.cronId).Nodup)

theorem GrowsInPlace.of_same {s s' : Runtime} (same : s'.crons = s.crons) : GrowsInPlace s s' := by
  rw [GrowsInPlace, same]
  exact ⟨⟨[], (List.append_nil _).symm⟩, id⟩

theorem GrowsInPlace.of_ids {s s' : Runtime} (same : s'.crons.map Cron.cronId = s.crons.map Cron.cronId) :
    GrowsInPlace s s' := by
  rw [GrowsInPlace, same]
  exact ⟨⟨[], (List.append_nil _).symm⟩, id⟩

/-- A turn writes the crons where they are, or assigns the comprehension that it names. -/
def WritesCrons (keeps : Option (Cron → Bool)) (s s' : Runtime) : Prop :=
  keeps.elim (GrowsInPlace s s') (fun keeps => s'.crons = s.crons.filter keeps)

namespace Crons

variable {lib : CronLibrary} {s : Runtime} {reply : Reply}

theorem Put.insert_grows (frame : PutFrame) (assistant : Assistant) (threadId : Option Uuid) :
    GrowsInPlace s (Put.insert lib s frame reply assistant threadId).1 := by
  rw [insert]
  cases absent : s.crons.find? (byCronId frame.cronId) with
  | some existing =>
    dsimp only
    refine attempt_cases (fun _ _ => .of_same rfl) (fun allowed _ => ?_)
    split <;> exact .of_same rfl
  | none =>
    dsimp only
    refine attempt_cases (fun _ _ => .of_same rfl) (fun nextRunDate _ => ?_)
    refine ⟨⟨[frame.cronId], List.map_append ..⟩, fun distinct => ?_⟩
    have fresh : frame.cronId ∉ s.crons.map Cron.cronId := by
      intro member
      obtain ⟨cron, listed, same⟩ := List.mem_map.mp member
      have other := List.find?_eq_none.mp absent cron listed
      simp [byCronId, same] at other
    show ((s.crons ++ [newCron frame assistant threadId reply.now nextRunDate]).map Cron.cronId).Nodup
    rw [List.map_append]
    refine List.Nodup.append distinct (List.nodup_singleton _) (List.disjoint_singleton.mpr fresh)

theorem Put.checkAssistant_grows (frame : PutFrame) (assistantFilters : PyVal) :
    GrowsInPlace s (Put.checkAssistant lib s frame reply assistantFilters).1 := by
  rw [checkAssistant]
  split
  · exact .of_same rfl
  · refine attempt_cases (fun _ _ => .of_same rfl) (fun allowed _ => ?_)
    split
    · exact .of_same rfl
    · split
      · exact insert_grows _ _ _
      · exact .of_same rfl

theorem Put.resume_grows (p : Put) : GrowsInPlace s (Put.resume lib s reply p).1 := by
  cases p with
  | called call =>
    rw [resume]
    exact attempt_cases (fun _ _ => .of_same rfl) (fun _ _ => .of_same rfl)
  | authorizing frame =>
    rw [resume]
    refine attempt_cases (fun _ _ => .of_same rfl) (fun filters _ => ?_)
    split
    · exact .of_same rfl
    · split
      · exact .of_same rfl
      · refine attempt_cases (fun _ _ => .of_same rfl) (fun assistantId _ => ?_)
        dsimp only
        split
        · exact checkAssistant_grows _ _
        · exact .of_same rfl
  | authorizingAssistant frame =>
    rw [resume]
    exact attempt_cases (fun _ _ => .of_same rfl) (fun filters _ => checkAssistant_grows _ _)
  | authorizingThread frame assistant threadId =>
    rw [resume]
    refine attempt_cases (fun _ _ => .of_same rfl) (fun filters _ => ?_)
    split
    · exact .of_same rfl
    · refine attempt_cases (fun _ _ => .of_same rfl) (fun allowed _ => ?_)
      split
      · exact .of_same rfl
      · exact insert_grows _ _ _

theorem Update.resume_grows (p : Update) : GrowsInPlace s (Update.resume lib s reply p).1 := by
  have effect := Update.effect lib s reply p
  generalize Update.resume lib s reply p = out at effect ⊢
  cases effect with
  | called | refused => exact .of_same rfl
  | @written call => exact .of_ids (changeFirst_ids (fun cron => write_cronId call lib reply.now cron) _ _)

theorem allows_eq {metadata : PyDict} {filters : PyVal} {allowed : Bool} (verdict : filtersAllow metadata filters = .ok allowed) :
    allows metadata filters = allowed := by
  rw [allows, verdict]

/-- The list that replaces `store["crons"]` is what the test leaves of it. -/
theorem Delete.remaining_eq_filter {cronId : Uuid} {filters : PyVal} {crons rest : List Cron}
    (remains : Delete.remaining cronId filters crons = .ok rest) :
    rest = crons.filter (fun cron => !(byCronId cronId cron && allows cron.metadata filters)) := by
  induction crons generalizing rest with
  | nil =>
    cases remains
    rfl
  | cons cron crons ih =>
    rw [remaining] at remains
    obtain ⟨goes, tested, remains⟩ := bind_ok remains
    obtain ⟨tail, later, made⟩ := bind_ok remains
    cases made
    have test : (byCronId cronId cron && allows cron.metadata filters) = goes := by
      split at tested
      · rename_i named
        rw [named, Bool.true_and, allows_eq tested]
      · rename_i other
        cases tested
        rw [Bool.not_eq_true] at other
        rw [other, Bool.false_and]
    rw [List.filter_cons, test, ih later]
    cases goes <;> rfl

theorem Delete.resume_writes (p : Delete) : WritesCrons (p.keeps? s reply) s (Delete.resume s reply p).1 := by
  cases p with
  | called => exact .of_same rfl
  | authorizing cronId =>
    unfold keeps? resume
    cases reply.answer with
    | error => exact .of_same rfl
    | ok filters =>
      dsimp only [attempt_ok]
      cases remains : Delete.remaining cronId filters s.crons with
      | error => exact .of_same rfl
      | ok rest => exact remaining_eq_filter remains

end Crons

section Writers

variable {base : BaseSaver} {serde : Serde} {s : Runtime} {reply : Reply}

theorem Threads.Delete.pop_crons (s : Runtime) (threadId : Uuid) (threadIdx : Nat) :
    (Threads.Delete.pop s threadId threadIdx).1.crons = s.crons := by
  unfold pop
  split <;> rfl

theorem Threads.Delete.resume_writes (p : Threads.Delete) :
    WritesCrons (p.keeps? s reply) s (Threads.Delete.resume base s p reply).1 := by
  cases p with
  | called => exact .of_same rfl
  | deletingCheckpoints threadId threadIdx =>
    refine .of_same ?_
    rw [resume]
    exact attempt_cases (fun _ _ => rfl) (fun _ _ => pop_crons _ _ _)
  | authorizing threadId found =>
    cases found with
    | none =>
      refine .of_same ?_
      rw [resume]
      exact attempt_cases (fun _ _ => rfl) (fun _ _ => rfl)
    | some found =>
      obtain ⟨threadIdx, matching⟩ := found
      cases answer : reply.answer with
      | error =>
        simp only [keeps?, resume, answer, attempt_error]
        exact .of_same rfl
      | ok filters =>
        cases verdict : filtersAllow (s.threads.get matching).metadata filters with
        | error =>
          simp only [keeps?, resume, answer, allows, verdict, attempt_ok, attempt_error, Bool.false_eq_true, if_false]
          exact .of_same rfl
        | ok allowed =>
          simp only [keeps?, resume, answer, allows, verdict, attempt_ok]
          cases allowed with
          | false => exact .of_same rfl
          | true =>
            simp only [if_true, Bool.true_eq_false, if_false]
            show (ite _ _ _ : Runtime × Turn Threads.Delete (Except PyError (List Uuid))).1.crons = _
            split
            · rfl
            · exact pop_crons _ _ _

theorem Assistants.Delete.ofThread_crons (assistantId : Uuid) (rest : List Uuid)
    (out : Runtime × Turn Threads.Delete (Except PyError (List Uuid))) :
    (Assistants.Delete.ofThread assistantId rest out).1.crons = out.1.crons := by
  unfold ofThread
  split
  · rfl
  · rfl
  · rfl
  · unfold proceed
    split <;> rfl
  · rfl
  · rfl

theorem Assistants.Delete.resume_writes (p : Assistants.Delete) :
    WritesCrons (p.keeps? serde s reply) s (Assistants.Delete.resume base serde s p reply).1 := by
  cases p with
  | called => exact .of_same rfl
  | authorizing assistantId deleteThreads =>
    refine .of_same ?_
    rw [resume]
    refine attempt_cases (fun _ _ => rfl) (fun filters _ => ?_)
    split
    · rfl
    · refine attempt_cases (fun _ _ => rfl) (fun allowed _ => ?_)
      split
      · rfl
      · unfold proceed
        split <;> rfl
  | deletingThread assistantId deletion rest =>
    have inner : WritesCrons (deletion.keeps? s reply) s (Threads.Delete.resume base s deletion reply).1 :=
      Threads.Delete.resume_writes deletion
    rw [resume, keeps?]
    unfold WritesCrons GrowsInPlace at inner ⊢
    rwa [ofThread_crons]
  | skipping assistantId rest =>
    refine .of_same ?_
    rw [resume]
    refine attempt_cases (fun _ _ => rfl) (fun _ _ => ?_)
    unfold proceed
    split <;> rfl
  | cancelling assistantId cancel =>
    have frame : (Runs.Cancel.resume serde s cancel reply).1.crons = s.crons := Runs.Cancel.resume_crons s cancel reply
    rw [resume, keeps?, ofCancel]
    split
    · rename_i ended
      rw [ended]
      exact congrArg (List.filter _) frame
    · rename_i going
      split
      · exact .of_same frame
      · exact .of_same frame
      · exact .of_same frame
      · rename_i ended
        exact absurd ended (going _)
      · exact .of_same frame
  | task cancel => exact .of_same (Runs.Cancel.resume_crons s cancel reply)

theorem CronCall.resume_writes (lib : CronLibrary) (p : CronCall) :
    WritesCrons ((ScheduleCall.write p).keeps? serde s reply) s ((cronCalls base lib).resume s p reply).1 := by
  cases p with
  | put p => exact Crons.Put.resume_grows p
  | update p => exact Crons.Update.resume_grows p
  | setNextRunDate p =>
    have same : (Crons.SetNextRunDate.resume s p).1.crons.map Cron.cronId = s.crons.map Cron.cronId :=
      Crons.changeFirst_ids (by intro cron; rfl) _ _
    exact .of_ids same
  | delete p => exact Crons.Delete.resume_writes p
  | threadsDelete p => exact Threads.Delete.resume_writes p

end Writers

/-- The records are the crons of the runtime, and no list object that was ever
named has two of one id. -/
structure CronStore.Sound (σ : CronStore) : Prop where
  agrees : σ.runtime.crons = σ.crons.current.values
  distinct : ∀ object, ((σ.crons.rowsOf object).map (fun r => (σ.crons.current.get r).cronId)).Nodup

section Stores

variable {σ : CronStore} {s : Runtime} {keeps : Option (Cron → Bool)}

theorem CronStore.Sound.current (sound : σ.Sound) : (σ.runtime.crons.map Cron.cronId).Nodup := by
  have here := sound.distinct σ.crons.object
  rw [NamedList.rowsOf_object] at here
  rw [sound.agrees, Table.values, List.map_map]
  exact here

theorem CronStore.load_sound (distinct : (s.crons.map Cron.cronId).Nodup) : (CronStore.load s).Sound := by
  have values : (Table.extend Table.empty s.crons).values = s.crons := by
    rw [Table.extend_values]
    rfl
  refine ⟨values.symm, fun object => ?_⟩
  show (((Table.extend Table.empty s.crons).rows).map (fun r => ((Table.extend Table.empty s.crons).get r).cronId)).Nodup
  rw [← values, Table.values, List.map_map] at distinct
  exact distinct

variable (keeps) in
/-- A list object that was named keeps its items, except that the current one may grow. -/
theorem CronStore.store_rowsOf (s : Runtime) {object : Nat} (known : object ≤ σ.crons.object) :
    ∃ added, (σ.store keeps s).crons.rowsOf object = σ.crons.rowsOf object ++ added ∧
      ∀ r ∈ added, r ∈ (σ.store keeps s).crons.current.rows := by
  cases keeps with
  | none => exact NamedList.overwrite_rowsOf _ _ _
  | some keeps =>
    refine ⟨[], ?_, fun r member => absurd member List.not_mem_nil⟩
    rw [List.append_nil]
    exact NamedList.comprehend_rowsOf known keeps

theorem CronStore.store_object (keeps : Option (Cron → Bool)) (s : Runtime) :
    σ.crons.object ≤ (σ.store keeps s).crons.object := by
  cases keeps with
  | none => exact Nat.le_refl _
  | some keeps =>
    show σ.crons.former.length ≤ (σ.crons.former ++ [_]).length
    simp

theorem GrowsInPlace.values (sound : σ.Sound) (grows : GrowsInPlace σ.runtime s) :
    (σ.crons.overwrite s.crons).current.values = s.crons := by
  obtain ⟨⟨added, ids⟩, _⟩ := grows
  refine NamedList.overwrite_values ?_
  have length := congrArg List.length ids
  rw [List.length_map, List.length_append, List.length_map, sound.agrees, Table.values_length] at length
  omega

/-- A record keeps its id, in the list or not. -/
theorem CronStore.store_cronId (sound : σ.Sound) (writes : WritesCrons keeps σ.runtime s) {r : Nat}
    (held : σ.crons.current.Holds r) :
    ((σ.store keeps s).crons.current.get r).cronId = (σ.crons.current.get r).cronId := by
  cases keeps with
  | some keeps => rfl
  | none =>
    by_cases listed : r ∈ σ.crons.current.rows
    · have grows : GrowsInPlace σ.runtime s := writes
      have values := grows.values sound
      obtain ⟨⟨added, ids⟩, _⟩ := grows
      obtain ⟨new, rows⟩ := σ.crons.overwrite_rows s.crons
      have before : σ.crons.current.rows.map (fun r => ((σ.crons.overwrite s.crons).current.get r).cronId) =
          σ.crons.current.rows.map (fun r => (σ.crons.current.get r).cronId) := by
        rw [← values, sound.agrees, Table.values, Table.values, rows, List.map_map, List.map_map, List.map_append] at ids
        exact (List.append_inj ids (by simp)).1
      exact List.map_inj_left.mp before r listed
    · exact congrArg Cron.cronId (NamedList.overwrite_get_of_not_mem held listed s.crons)

theorem CronStore.store_sound (sound : σ.Sound) (writes : WritesCrons keeps σ.runtime s) :
    (σ.store keeps s).Sound := by
  have agrees : (σ.store keeps s).runtime.crons = (σ.store keeps s).crons.current.values := by
    cases keeps with
    | none => exact (GrowsInPlace.values sound writes).symm
    | some keeps =>
      have filtered : s.crons = σ.runtime.crons.filter keeps := writes
      show s.crons = (σ.crons.current.keep keeps).values
      rw [Table.keep_values, filtered, sound.agrees]
  have current : ((σ.store keeps s).crons.current.rows.map
      (fun r => ((σ.store keeps s).crons.current.get r).cronId)).Nodup := by
    have distinct : ((σ.store keeps s).runtime.crons.map Cron.cronId).Nodup := by
      cases keeps with
      | none => exact (show GrowsInPlace σ.runtime s from writes).2 sound.current
      | some keeps =>
        have filtered : s.crons = σ.runtime.crons.filter keeps := writes
        show (s.crons.map Cron.cronId).Nodup
        rw [filtered]
        exact sound.current.sublist (List.filter_sublist.map _)
    rw [agrees, Table.values, List.map_map] at distinct
    exact distinct
  refine ⟨agrees, fun object => ?_⟩
  by_cases former : object < (σ.store keeps s).crons.former.length
  · have known : object ≤ σ.crons.object := by
      cases keeps with
      | none => exact Nat.le_of_lt former
      | some keeps =>
        have former : object < (σ.crons.former ++ [σ.crons.current.rows]).length := former
        rw [List.length_append, List.length_singleton] at former
        exact Nat.le_of_lt_succ former
    have same : (σ.store keeps s).crons.rowsOf object = σ.crons.rowsOf object := by
      cases keeps with
      | none =>
        have former : object < σ.crons.former.length := former
        show σ.crons.former.getD object _ = σ.crons.former.getD object _
        rw [List.getD_eq_getElem?_getD, List.getD_eq_getElem?_getD, List.getElem?_eq_getElem former]
        rfl
      | some keeps => exact NamedList.comprehend_rowsOf known keeps
    have ids : (σ.crons.rowsOf object).map (fun r => ((σ.store keeps s).crons.current.get r).cronId) =
        (σ.crons.rowsOf object).map (fun r => (σ.crons.current.get r).cronId) :=
      List.map_congr_left (fun r member => CronStore.store_cronId sound writes (NamedList.held_of_mem_rowsOf member))
    rw [same, ids]
    exact sound.distinct object
  · have last : (σ.store keeps s).crons.rowsOf object = (σ.store keeps s).crons.current.rows := by
      rw [NamedList.rowsOf, List.getD_eq_getElem?_getD, List.getElem?_eq_none (Nat.le_of_not_lt former)]
      rfl
    rw [last]
    exact current

end Stores

namespace Crons

/-- Where a consumer stands: what it has received comes, in order, from what is
behind it in its list object. -/
def Next.Consumes (σ : CronStore) (received : List (Cron × Time)) : Next → Prop
  | .called => received = []
  | .iterating _ place => place.object ≤ σ.crons.object ∧
    (received.map (fun item => item.1.cronId)).Sublist
      ((σ.crons.behind place).map (fun r => (σ.crons.current.get r).cronId))

/-- What is still ahead of it is in the store, or will not be handed out. -/
def Next.Unspoiled (σ : CronStore) : Next → Prop
  | .called => True
  | .iterating now place => ∀ r ∈ σ.crons.ahead place,
    r ∈ σ.crons.current.rows ∨ isDue now (σ.crons.current.get r) = false

section Consumers

variable {σ : CronStore} {s : Runtime} {keeps : Option (Cron → Bool)} {received : List (Cron × Time)} {now : Time}
  {place : Iteration}

theorem Next.Consumes.store (sound : σ.Sound) (writes : WritesCrons keeps σ.runtime s) {generator : Next}
    (consumes : generator.Consumes σ received) : generator.Consumes (σ.store keeps s) received := by
  cases generator with
  | called => exact consumes
  | iterating now place =>
    obtain ⟨known, taken⟩ := consumes
    obtain ⟨added, rows, _⟩ := CronStore.store_rowsOf keeps s known
    refine ⟨known.trans (CronStore.store_object keeps s), taken.trans ?_⟩
    have ids : (σ.crons.behind place).map (fun r => ((σ.store keeps s).crons.current.get r).cronId) =
        (σ.crons.behind place).map (fun r => (σ.crons.current.get r).cronId) :=
      List.map_congr_left (fun r member => CronStore.store_cronId sound writes
        (NamedList.held_of_mem_rowsOf (List.mem_of_mem_take member)))
    have more : (σ.crons.behind place).Sublist ((σ.store keeps s).crons.behind place) := by
      rw [NamedList.behind, NamedList.behind, rows, List.take_append]
      exact List.sublist_append_left _ _
    rw [← ids]
    exact more.map _

theorem Next.Unspoiled.store {generator : Next} (consumes : generator.Consumes σ received)
    (unspoiled : generator.Unspoiled σ)
    (spared : ∀ test, keeps = some test → ∀ now place, generator = .iterating now place →
      ∀ r ∈ σ.crons.ahead place, r ∈ σ.crons.current.rows → isDue now (σ.crons.current.get r) = true →
        test (σ.crons.current.get r) = true) : generator.Unspoiled (σ.store keeps s) := by
  cases generator with
  | called => trivial
  | iterating now place =>
    intro r later
    cases keeps with
    | none =>
      rcases NamedList.mem_ahead_overwrite later with old | new
      · by_cases listed : r ∈ σ.crons.current.rows
        · obtain ⟨added, rows⟩ := σ.crons.overwrite_rows s.crons
          refine .inl ?_
          show r ∈ (σ.crons.overwrite s.crons).current.rows
          rw [rows]
          exact List.mem_append_left added listed
        · have same := NamedList.overwrite_get_of_not_mem (NamedList.held_of_mem_ahead old) listed s.crons
          exact .inr ((congrArg (isDue now) same).trans ((unspoiled r old).resolve_left listed))
      · exact .inl new
    | some test =>
      have old : r ∈ σ.crons.ahead place := by
        rw [NamedList.ahead, ← NamedList.comprehend_rowsOf consumes.1 test]
        exact later
      rcases unspoiled r old with listed | idle
      · cases due : isDue now (σ.crons.current.get r) with
        | false => exact .inr due
        | true => exact .inl (List.mem_filter.mpr ⟨listed, spared test rfl now place rfl r old listed due⟩)
      · exact .inr idle

/-- What one step of the loop hands out, and where it leaves the consumer. -/
theorem Next.step_yields {cron : Cron} {clock : Time} {generator : Next} (known : place.object ≤ σ.crons.object)
    (taken : (received.map (fun item => item.1.cronId)).Sublist
      ((σ.crons.behind place).map (fun r => (σ.crons.current.get r).cronId)))
    (yields : Next.step σ now place = .yielded (some (cron, clock)) generator) :
    clock = now ∧ isDue now cron = true ∧ generator.Consumes σ (received ++ [(cron, now)]) ∧
      (Unspoiled σ (.iterating now place) → generator.Unspoiled σ ∧ cron ∈ σ.crons.current.values) := by
  unfold step at yields
  split at yields
  · cases yields
  · rename_i r after found
    cases yields
    obtain ⟨due, here, object, later, skipped, behind⟩ := NamedList.next?_eq_some found
    refine ⟨rfl, due, ⟨object ▸ known, ?_⟩, fun unspoiled => ⟨fun r' member => unspoiled r' (later r' member), ?_⟩⟩
    · rw [behind, List.map_append, List.map_append, List.map_append]
      refine taken.append ?_
      rw [List.map_singleton, List.map_singleton]
      exact List.sublist_append_right _ _
    · refine List.mem_map_of_mem ((unspoiled r here).resolve_right ?_)
      rw [due]
      decide

/-- The same for a turn of the consumer, its first included. -/
theorem Next.resume_yields {generator generator' : Next} {reply : Reply} {cron : Cron} {clock : Time}
    (consumes : generator.Consumes σ received)
    (yields : generator.resume σ reply = .yielded (some (cron, clock)) generator') :
    isDue clock cron = true ∧ generator'.Consumes σ (received ++ [(cron, clock)]) ∧
      (generator.Unspoiled σ → generator'.Unspoiled σ ∧ cron ∈ σ.crons.current.values) := by
  cases generator with
  | called =>
    have nothing : received = [] := consumes
    have taken : (received.map (fun item => item.1.cronId)).Sublist
        ((σ.crons.behind ⟨σ.crons.object, 0⟩).map (fun r => (σ.crons.current.get r).cronId)) := by
      rw [nothing]
      exact List.nil_sublist _
    obtain ⟨rfl, due, after, whole⟩ := step_yields (Nat.le_refl _) taken yields
    refine ⟨due, after, fun _ => whole (fun r member => .inl ?_)⟩
    rw [NamedList.ahead, NamedList.rowsOf_object] at member
    exact member
  | iterating now place =>
    obtain ⟨rfl, due, after, rest⟩ := step_yields consumes.1 consumes.2 yields
    exact ⟨due, after, rest⟩

theorem Next.Consumes.distinct (sound : σ.Sound) {generator : Next} (consumes : generator.Consumes σ received) :
    (received.map (fun item => item.1.cronId)).Nodup := by
  cases generator with
  | called =>
    have nothing : received = [] := consumes
    rw [nothing]
    exact List.nodup_nil
  | iterating now place =>
    exact (sound.distinct place.object).sublist (consumes.2.trans ((List.take_sublist _ _).map _))

end Consumers

end Crons

/-- A deletion takes no cron away that a consumer in the loop has still ahead of
it and would be given. -/
def Spares (serde : Serde) (σ : CronStore) (others : List ScheduleCall) (k : ScheduleCall) (reply : Reply) : Prop :=
  ∀ test, k.keeps? serde σ.runtime reply = some test →
    ∀ now place received, .next (.iterating now place) received ∈ others → ∀ r ∈ σ.crons.ahead place,
      r ∈ σ.crons.current.rows → Crons.isDue now (σ.crons.current.get r) = true →
        test (σ.crons.current.get r) = true

/-- The cron is in the store, enabled, due at the reading of the clock and not past its end. -/
structure CronStore.Current (σ : CronStore) (now : Time) (cron : Cron) : Prop where
  stored : cron ∈ σ.runtime.crons
  enabled : cron.enabled = true
  due : cron.nextRunDate ≤ now
  going : ∀ endTime, cron.endTime = some endTime → now ≤ endTime

theorem Crons.isDue_iff {now : Time} {cron : Cron} : isDue now cron = true ↔
    cron.enabled = true ∧ cron.nextRunDate ≤ now ∧ ∀ endTime, cron.endTime = some endTime → now ≤ endTime := by
  unfold isDue
  cases cron.endTime <;> simp [and_assoc, and_comm]

section Runs

variable {base : BaseSaver} {lib : CronLibrary} {serde : Serde} {s : Runtime}

/-- What is known of a waiting call. -/
def ScheduleCall.Waits (guarded : Prop) (σ : CronStore) : ScheduleCall → Prop
  | .next generator received => generator.Consumes σ received ∧ (guarded → generator.Unspoiled σ)
  | _ => True

/-- What a writer's turn does to the other calls. -/
theorem ScheduleCall.Waits.store {guarded : Prop} {σ : CronStore} {others : List ScheduleCall} {k : ScheduleCall}
    {reply : Reply} {s' : Runtime} (sound : σ.Sound) (waits : ∀ j ∈ others, j.Waits guarded σ)
    (writes : WritesCrons (k.keeps? serde σ.runtime reply) σ.runtime s')
    (spares : guarded → Spares serde σ others k reply) :
    ∀ j ∈ others, j.Waits guarded (σ.store (k.keeps? serde σ.runtime reply) s') := by
  intro j member
  cases j with
  | next generator received =>
    obtain ⟨consumes, unspoiled⟩ := waits _ member
    refine ⟨consumes.store sound writes, fun holds => (unspoiled holds).store consumes ?_⟩
    rintro test keeps now place rfl r ahead listed due
    exact spares holds test keeps now place received member r ahead listed due
  | write | assistantsDelete => trivial

theorem waits_points_trivial {κ ρ : Type} {guarded : Prop} {σ : CronStore} (turn : Turn κ ρ) {f : κ → ScheduleCall}
    {g : ρ → ScheduleResult} (plain : ∀ p, (f p).Waits guarded σ) : ∀ q ∈ (turn.map f g).points, q.Waits guarded σ := by
  intro q member
  rw [Turn.points_map] at member
  obtain ⟨p, _, rfl⟩ := List.mem_map.mp member
  exact plain p

theorem schedule_annotated (guarded : Prop) (distinct : (s.crons.map Cron.cronId).Nodup)
    {l : EventLoop CronStore ScheduleCall}
    (reach : (scheduleCalls base lib serde).Reaches (fun σ others k reply => guarded → Spares serde σ others k reply)
      ⟨.load s, []⟩ l) : Coroutines.Annotated CronStore.Sound (ScheduleCall.Waits guarded) l := by
  refine reach.annotated (fun {σ k} _ new => ?_) (fun {σ others k reply} sound waits rest spares => ?_)
    ⟨CronStore.load_sound distinct, by simp⟩
  · cases k with
    | next generator received =>
      cases generator with
      | called =>
        cases received with
        | nil => exact ⟨rfl, fun _ => trivial⟩
        | cons => cases new
      | iterating => cases new
    | write | assistantsDelete => trivial
  · cases k with
    | next generator received =>
      refine ⟨sound, fun q member => ?_, rest⟩
      have member : q ∈ (Crons.Next.receive received (generator.resume σ reply)).points := member
      cases turn : generator.resume σ reply with
      | yielded item generator' =>
        rw [turn] at member
        cases item with
        | none => exact absurd member List.not_mem_nil
        | some item =>
          obtain ⟨_, after, whole⟩ := Crons.Next.resume_yields waits.1 turn
          rw [List.mem_singleton.mp member]
          exact ⟨after, fun holds => (whole (waits.2 holds)).1⟩
      | suspended | forked | finished =>
        rw [turn] at member
        exact absurd member List.not_mem_nil
    | write p =>
      have writes : WritesCrons ((ScheduleCall.write p).keeps? serde σ.runtime reply) σ.runtime
          ((cronCalls base lib).resume σ.runtime p reply).1 := CronCall.resume_writes lib p
      exact ⟨CronStore.store_sound sound writes, waits_points_trivial _ (fun _ => trivial),
        ScheduleCall.Waits.store sound rest writes spares⟩
    | assistantsDelete p =>
      have writes : WritesCrons (p.keeps? serde σ.runtime reply) σ.runtime
          (Assistants.Delete.resume base serde σ.runtime p reply).1 := Assistants.Delete.resume_writes p
      exact ⟨CronStore.store_sound sound writes, waits_points_trivial _ (fun _ => trivial),
        ScheduleCall.Waits.store (k := .assistantsDelete p) sound rest writes spares⟩

/-- No call of `Crons.next` hands a cron out twice, in any interleaving. While
no deletion takes a cron away that a consumer would still be given, every cron
is, when it is handed out, in the store, enabled, due and not past its end. -/
theorem next_yields_current (base : BaseSaver) (lib : CronLibrary) (serde : Serde)
    (distinct : (s.crons.map Cron.cronId).Nodup) :
    (∀ l, (scheduleCalls base lib serde).Reaches Coroutines.unrestricted ⟨.load s, []⟩ l →
      ∀ generator received, .next generator received ∈ l.waiting →
        (received.map (fun item => item.1.cronId)).Nodup) ∧
    ∀ l, (scheduleCalls base lib serde).Reaches (Spares serde) ⟨.load s, []⟩ l →
      ∀ generator received, .next generator received ∈ l.waiting → ∀ reply cron now generator',
        generator.resume l.state reply = .yielded (some (cron, now)) generator' → l.state.Current now cron := by
  constructor
  · intro l reach generator received member
    have known := schedule_annotated False distinct (reach.weaken (fun _ => False.elim))
    exact (known.waiting _ member).1.distinct known.state
  · intro l reach generator received member reply cron now generator' yields
    have known := schedule_annotated True distinct (reach.weaken (fun spares _ => spares))
    obtain ⟨consumes, unspoiled⟩ := known.waiting _ member
    obtain ⟨test, _, whole⟩ := Crons.Next.resume_yields consumes yields
    obtain ⟨enabled, due, going⟩ := Crons.isDue_iff.mp test
    exact ⟨known.state.agrees ▸ (whole (unspoiled trivial)).2, enabled, due, going⟩

end Runs

section TwoCrons

def dueCron (n : Nat) : Cron :=
  { cronId := ⟨n⟩, assistantId := ⟨9⟩, threadId := none, userId := none, endTime := none, schedule := "* * * * *"
    timezone := none, payload := [], nextRunDate := 0, metadata := [], onRunCompleted := none, enabled := true
    createdAt := 0, updatedAt := 0 }

def twoCrons : Runtime := { (default : Runtime) with crons := [dueCron 1, dueCron 2] }

/-- The consumer has the first cron when a cron is deleted. -/
def deleteBetween (n : Nat) : List (Coroutines.Move ScheduleCall Reply) :=
  [.call (.next .called []), .turn 0 plainReply, .call (.write (.delete (.called ⟨n⟩))), .turn 1 plainReply,
    .turn 1 plainReply]

/-- The second cron is deleted, and handed out after that. -/
theorem next_yields_deleted :
    ¬ ∀ (base : BaseSaver) (lib : CronLibrary) (serde : Serde) (s : Runtime), (s.crons.map Cron.cronId).Nodup →
      ∀ l, (scheduleCalls base lib serde).Reaches Coroutines.unrestricted ⟨.load s, []⟩ l →
        ∀ generator received, .next generator received ∈ l.waiting → ∀ reply cron now generator',
          generator.resume l.state reply = .yielded (some (cron, now)) generator' → l.state.Current now cron := by
  intro all
  have performed : ((scheduleCalls plainBase plainCronLibrary deltaSerde).performAll ⟨.load twoCrons, []⟩
      (deleteBetween 2)).isSome = true := rfl
  have current := all plainBase plainCronLibrary deltaSerde twoCrons (by decide) _
    (Coroutines.reaches_of_performAll (Option.some_get performed).symm) (.iterating 0 ⟨0, 1⟩) [(dueCron 1, 0)]
    List.mem_cons_self plainReply (dueCron 2) 0 (.iterating 0 ⟨0, 2⟩) rfl
  have only : dueCron 2 ∈ [dueCron 1] := current.stored
  have same := congrArg Cron.cronId (List.mem_singleton.mp only)
  revert same
  decide

/-- The first cron is deleted once it has been handed out. -/
theorem next_yields_current_second :
    ∃ l : EventLoop CronStore ScheduleCall, l.state.runtime.crons.map Cron.cronId = [⟨2⟩] ∧
      l.state.Current 0 (dueCron 2) := by
  have begun : (scheduleCalls plainBase plainCronLibrary deltaSerde).Reaches (Spares deltaSerde)
      ⟨.load twoCrons, []⟩ ⟨.load twoCrons, [.next .called []]⟩ := .call .start rfl
  have handed := begun.turn 0 plainReply rfl (fun test assigned => by cases assigned)
  have asked := (handed.call (k := .write (.delete (.called ⟨1⟩))) rfl).turn 1 plainReply rfl
    (fun test assigned => by cases assigned)
  have deleted := asked.turn 1 plainReply rfl (by
    intro test assigned now place received member r later listed due
    cases assigned
    cases List.mem_singleton.mp member
    have second : r = 1 := List.mem_singleton.mp later
    rw [second]
    decide)
  exact ⟨_, rfl, (next_yields_current plainBase plainCronLibrary deltaSerde (by decide)).2 _ deleted
    (.iterating 0 ⟨0, 1⟩) [(dueCron 1, 0)] List.mem_cons_self plainReply (dueCron 2) 0 (.iterating 0 ⟨0, 2⟩) rfl⟩

end TwoCrons

end InmemRuntime
