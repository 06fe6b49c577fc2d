import InmemRuntime.CronsUpdate
import InmemRuntime.StoreRaces

namespace InmemRuntime

/-- The operations that write the crons. -/
inductive CronCall where
  | put (p : Crons.Put)
  | update (p : Crons.Update)
  | setNextRunDate (p : Crons.SetNextRunDate)
  | delete (p : Crons.Delete)
  | threadsDelete (p : Threads.Delete)

inductive CronResult where
  | crons (outcome : Except PyError (List Cron))
  | dated (outcome : Except PyError Unit)
  | deleted (outcome : Except PyError (List Uuid))

def cronCalls (base : BaseSaver) (lib : CronLibrary) : Coroutines Runtime CronCall Reply CronResult where
  fresh
    | .put (.called _) | .update (.called _) | .setNextRunDate _ | .delete (.called _)
    | .threadsDelete (.called _) => true
    | _ => false
  resume s
    | .put p, reply => ((Crons.Put.resume lib s reply p).1, (Crons.Put.resume lib s reply p).2.map .put .crons)
    | .update p, reply =>
      ((Crons.Update.resume lib s reply p).1, (Crons.Update.resume lib s reply p).2.map .update .crons)
    | .setNextRunDate p, _ =>
      ((Crons.SetNextRunDate.resume s p).1, (Crons.SetNextRunDate.resume s p).2.map .setNextRunDate .dated)
    | .delete p, reply =>
      ((Crons.Delete.resume s reply p).1, (Crons.Delete.resume s reply p).2.map .delete .deleted)
    | .threadsDelete p, reply =>
      ((Threads.Delete.resume base s p reply).1,
        (Threads.Delete.resume base s p reply).2.map .threadsDelete .deleted)

namespace Crons

/-- `payload["config"]["configurable"]["cron_id"]` -/
def cronIdIn (payload : PyDict) : Option PyVal :=
  ((payload.getDict "config").getDict "configurable").get? "cron_id"

theorem getDict_set_self (d : PyDict) (key : String) (items : PyDict) : (d.set key (.dict items)).getDict key = items := by
  rw [PyDict.getDict, PyDict.get?_set_self]

theorem placeCronId_cronIdIn (payload config configurable : PyDict) (cronId : Uuid) :
    cronIdIn (placeCronId payload config configurable cronId) = some (.str cronId.str) := by
  rw [cronIdIn, placeCronId, getDict_set_self, getDict_set_self, PyDict.get?_set_self]

theorem placeCronId_assistantId (payload config configurable : PyDict) (cronId : Uuid) :
    (placeCronId payload config configurable cronId).get? "assistant_id" = payload.get? "assistant_id" :=
  PyDict.get?_set_of_ne _ (by decide) _

theorem set_assistantId_cronIdIn (payload : PyDict) (value : PyVal) :
    cronIdIn (payload.set "assistant_id" value) = cronIdIn payload := by
  have config : (payload.set "assistant_id" value).getDict "config" = payload.getDict "config" := by
    rw [PyDict.getDict, PyDict.get?_set_of_ne _ (by decide)]
    rfl
  rw [cronIdIn, config, cronIdIn]

theorem payloadWithCronId_cronIdIn {payload result : PyDict} {cronId : Uuid}
    (placed : payloadWithCronId payload cronId = .ok result) : cronIdIn result = some (.str cronId.str) := by
  obtain ⟨config, _, placed⟩ := bind_ok placed
  obtain ⟨configurable, _, placed⟩ := bind_ok placed
  cases placed
  exact placeCronId_cronIdIn _ _ _ _

/-- Whatever the new payload says, the merged one has the old assistant and the id of the cron. -/
theorem mergePayload_ids {existing payload merged : PyDict} {cronId : Uuid} {assistantId : PyVal}
    (stored : existing.get? "assistant_id" = some assistantId) (merges : mergePayload existing payload cronId = .ok merged) :
    cronIdIn merged = some (.str cronId.str) ∧ merged.get? "assistant_id" = some assistantId := by
  obtain ⟨config, _, merges⟩ := bind_ok merges
  obtain ⟨configurable, _, merges⟩ := bind_ok merges
  cases merges
  refine ⟨placeCronId_cronIdIn _ _ _ _, ?_⟩
  rw [placeCronId_assistantId, PyDict.get?_set_self, stored]
  rfl

/-- A cron as the scheduler relies on it: its payload names it and its
assistant, its schedule is valid, and a thread of the user's is kept. -/
structure Sound (lib : CronLibrary) (cron : Cron) : Prop where
  cronId : cronIdIn cron.payload = some (.str cron.cronId.str)
  assistantId : cron.payload.get? "assistant_id" = some (.str cron.assistantId.str)
  schedule : lib.isValid cron.schedule = true
  completed : ∀ threadId, cron.threadId = some threadId → cron.onRunCompleted = none

structure AllSound (lib : CronLibrary) (s : Runtime) : Prop where
  distinct : (s.crons.map Cron.cronId).Nodup
  sound : ∀ cron ∈ s.crons, Sound lib cron

theorem AllSound.sublist {lib : CronLibrary} {s s' : Runtime} (sound : AllSound lib s) (less : s'.crons.Sublist s.crons) :
    AllSound lib s' :=
  ⟨sound.distinct.sublist (less.map _), fun cron member => sound.sound cron (less.subset member)⟩

theorem AllSound.changeFirst {lib : CronLibrary} {s : Runtime} (sound : AllSound lib s) {cronId : Uuid} {f : Cron → Cron}
    (ids : ∀ cron, (f cron).cronId = cron.cronId)
    (kept : ∀ cron, s.crons.find? (byCronId cronId) = some cron → Sound lib cron → Sound lib (f cron)) :
    AllSound lib { s with crons := changeFirst cronId f s.crons } where
  distinct := by
    show ((Crons.changeFirst cronId f s.crons).map Cron.cronId).Nodup
    rw [changeFirst_ids ids]
    exact sound.distinct
  sound := by
    intro cron member
    rcases mem_changeFirst member with old | ⟨found, search, rfl⟩
    · exact sound.sound cron old
    · exact kept found search (sound.sound found (List.mem_of_find?_eq_some search))

/-- The frame once the schedule has passed and the assistant has been named. -/
structure PutFrame.Ready (lib : CronLibrary) (frame : PutFrame) : Prop where
  cronId : cronIdIn frame.payload = some (.str frame.cronId.str)
  assistantId : frame.payload.get? "assistant_id" = some (.str frame.assistantId)
  schedule : lib.isValid frame.call.schedule = true

def Put.Waits (lib : CronLibrary) : Put → Prop
  | .called _ => True
  | .authorizing frame => cronIdIn frame.payload = some (.str frame.cronId.str)
  | .authorizingAssistant frame => frame.Ready lib
  | .authorizingThread frame assistant _ => frame.Ready lib ∧ assistant.assistantId.str = frame.assistantId

/-- A turn that leaves sound crons and a call that is where it says. -/
def Put.Leaves (lib : CronLibrary) (out : PutTurn) : Prop := AllSound lib out.1 ∧ ∀ q ∈ out.2.points, q.Waits lib

section PutTurns

variable {lib : CronLibrary} {s : Runtime} {frame : PutFrame} {reply : Reply} {assistant : Assistant}

theorem Put.leaves_finished (sound : AllSound lib s) (outcome : Except PyError (List Cron)) :
    Put.Leaves lib (s, .finished outcome) :=
  ⟨sound, fun _ member => absurd member List.not_mem_nil⟩

theorem Put.leaves_suspended (sound : AllSound lib s) {q : Put} (waits : q.Waits lib) : Put.Leaves lib (s, .suspended q) :=
  ⟨sound, fun _ member => List.mem_singleton.mp member ▸ waits⟩

theorem newCron_sound (ready : frame.Ready lib) (named : assistant.assistantId.str = frame.assistantId)
    (threadId : Option Uuid) (now nextRunDate : Time) : Sound lib (newCron frame assistant threadId now nextRunDate) where
  cronId := ready.cronId
  assistantId := by
    show frame.payload.get? "assistant_id" = some (.str assistant.assistantId.str)
    rw [ready.assistantId, named]
  schedule := ready.schedule
  completed := by
    intro id bound
    have bound : threadId = some id := bound
    subst bound
    rfl

theorem Put.insert_leaves (sound : AllSound lib s) (ready : frame.Ready lib)
    (named : assistant.assistantId.str = frame.assistantId) (threadId : Option Uuid) :
    Put.Leaves lib (Put.insert lib s frame reply assistant threadId) := by
  rw [insert]
  cases absent : s.crons.find? (byCronId frame.cronId) with
  | some existing =>
    dsimp only
    refine attempt_cases (fun e _ => leaves_finished sound _) (fun allowed _ => ?_)
    split <;> exact leaves_finished sound _
  | none =>
    dsimp only
    refine attempt_cases (fun e _ => leaves_finished sound _) (fun nextRunDate _ => leaves_finished ⟨?_, ?_⟩ _)
    · rw [List.map_append, List.nodup_append]
      refine ⟨sound.distinct, List.nodup_singleton _, fun id old id' new same => ?_⟩
      obtain ⟨cron, member, rfl⟩ := List.mem_map.mp old
      have taken : cron.cronId = frame.cronId := same.trans (List.mem_singleton.mp new)
      exact List.find?_eq_none.mp absent cron member (by simpa [byCronId] using taken)
    · intro cron member
      rcases List.mem_append.mp member with old | new
      · exact sound.sound cron old
      · rw [List.mem_singleton.mp new]
        exact newCron_sound ready named _ _ _

theorem Put.checkAssistant_leaves (sound : AllSound lib s) (ready : frame.Ready lib) (assistantFilters : PyVal) :
    Put.Leaves lib (Put.checkAssistant lib s frame reply assistantFilters) := by
  rw [checkAssistant]
  cases found : s.assistants.find? (fun assistant => assistant.assistantId.str = frame.assistantId) with
  | none => exact leaves_finished sound _
  | some assistant =>
    have named : assistant.assistantId.str = frame.assistantId := by simpa using List.find?_some found
    dsimp only
    refine attempt_cases (fun e _ => leaves_finished sound _) (fun allowed _ => ?_)
    split
    · exact leaves_finished sound _
    · split
      · exact insert_leaves sound ready named none
      · exact leaves_suspended sound ⟨ready, named⟩

theorem Put.resume_leaves (sound : AllSound lib s) {p : Put} (waits : p.Waits lib) :
    Put.Leaves lib (Put.resume lib s reply p) := by
  cases p with
  | called call =>
    rw [resume]
    exact attempt_cases (fun e _ => leaves_finished sound _)
      (fun payload placed => leaves_suspended sound (payloadWithCronId_cronIdIn placed))
  | authorizing frame =>
    rw [resume]
    refine attempt_cases (fun e _ => leaves_finished sound _) (fun filters _ => ?_)
    split
    · exact leaves_finished sound _
    · rename_i valid
      split
      · exact leaves_finished sound _
      · refine attempt_cases (fun e _ => leaves_finished sound _) (fun assistantId _ => ?_)
        have cronId : cronIdIn frame.payload = some (.str frame.cronId.str) := waits
        have ready : PutFrame.Ready lib { frame with
            payload := frame.payload.set "assistant_id" (.str assistantId)
            assistantId := assistantId
            filters := filters } := by
          refine ⟨?_, PyDict.get?_set_self _ _ _, Bool.of_not_eq_false valid⟩
          show cronIdIn (frame.payload.set "assistant_id" _) = _
          rw [set_assistantId_cronIdIn, cronId]
        dsimp only
        split
        · exact checkAssistant_leaves sound ready _
        · exact leaves_suspended sound ready
  | authorizingAssistant frame =>
    rw [resume]
    exact attempt_cases (fun e _ => leaves_finished sound _) (fun filters _ => checkAssistant_leaves sound waits filters)
  | authorizingThread frame assistant threadId =>
    rw [resume]
    refine attempt_cases (fun e _ => leaves_finished sound _) (fun threadFilters _ => ?_)
    split
    · exact leaves_finished sound _
    · refine attempt_cases (fun e _ => leaves_finished sound _) (fun allowed _ => ?_)
      split
      · exact leaves_finished sound _
      · exact insert_leaves sound waits.1 waits.2 _

end PutTurns

section UpdateTurns

variable {lib : CronLibrary} {now : Time} {call : UpdateCall} {cron : Cron}

/-- `update` comes to write an `on_run_completed` that it is given. -/
def UpdateCall.Completes (call : UpdateCall) (lib : CronLibrary) (now : Time) (cron : Cron) : Prop :=
  call.onRunCompleted ≠ none ∧ (call.reschedule lib now cron).2 = .ok ()

/-- What another schedule or time zone leaves as it was. -/
structure Rescheduled (lib : CronLibrary) (cron cron' : Cron) : Prop where
  cronId : cron'.cronId = cron.cronId
  assistantId : cron'.assistantId = cron.assistantId
  threadId : cron'.threadId = cron.threadId
  payload : cron'.payload = cron.payload
  onRunCompleted : cron'.onRunCompleted = cron.onRunCompleted
  schedule : lib.isValid cron.schedule = true → lib.isValid cron'.schedule = true

theorem redate_rescheduled {cron cron' : Cron} (kept : Rescheduled lib cron cron') (next : Except PyError Time) :
    Rescheduled lib cron (redate cron' next).1 := by
  cases next with
  | error => exact kept
  | ok => exact ⟨kept.cronId, kept.assistantId, kept.threadId, kept.payload, kept.onRunCompleted, kept.schedule⟩

theorem reschedule_rescheduled (call : UpdateCall) (lib : CronLibrary) (now : Time) (cron : Cron) :
    Rescheduled lib cron (call.reschedule lib now cron).1 := by
  dsimp only [UpdateCall.reschedule]
  split
  · split
    · exact ⟨rfl, rfl, rfl, rfl, rfl, id⟩
    · rename_i valid
      refine redate_rescheduled ?_ _
      exact ⟨rfl, rfl, rfl, rfl, rfl, fun _ => Bool.of_not_eq_false valid⟩
  · refine redate_rescheduled ?_ _
    exact ⟨rfl, rfl, rfl, rfl, rfl, id⟩
  · exact ⟨rfl, rfl, rfl, rfl, rfl, id⟩

theorem Rescheduled.sound {cron' : Cron} (kept : Rescheduled lib cron cron') (sound : Sound lib cron) :
    Sound lib cron' where
  cronId := by rw [kept.payload, kept.cronId, sound.cronId]
  assistantId := by rw [kept.payload, kept.assistantId, sound.assistantId]
  schedule := kept.schedule sound.schedule
  completed := fun threadId bound => kept.onRunCompleted.trans (sound.completed threadId (kept.threadId ▸ bound))

theorem assign_sound (sound : Sound lib cron) (free : call.onRunCompleted ≠ none → cron.threadId = none) :
    Sound lib (call.assign cron) where
  cronId := sound.cronId
  assistantId := sound.assistantId
  schedule := sound.schedule
  completed := by
    intro threadId bound
    have bound : cron.threadId = some threadId := bound
    cases given : call.onRunCompleted with
    | none =>
      show call.onRunCompleted.or cron.onRunCompleted = none
      rw [given]
      exact sound.completed threadId bound
    | some choice =>
      rw [free (by rw [given]; exact Option.some_ne_none _)] at bound
      cases bound

theorem write_cronId (call : UpdateCall) (lib : CronLibrary) (now : Time) (cron : Cron) :
    (call.write lib now cron).1.cronId = cron.cronId := by
  have kept := (reschedule_rescheduled call lib now cron).cronId
  unfold UpdateCall.write
  split
  · rename_i failed
    rwa [failed] at kept
  · rename_i passed
    rw [passed] at kept
    dsimp only
    split
    · exact kept
    · split <;> exact kept

theorem write_completed {choice : String} (rescheduled : (call.reschedule lib now cron).2 = .ok ())
    (given : call.onRunCompleted = some choice) :
    (call.write lib now cron).1.threadId = cron.threadId ∧ (call.write lib now cron).1.onRunCompleted = some choice := by
  have kept := (reschedule_rescheduled call lib now cron).threadId
  unfold UpdateCall.write
  split
  · rename_i failed
    rw [failed] at rescheduled
    cases rescheduled
  · rename_i cron' passed
    rw [passed] at kept
    have written : (call.assign cron').onRunCompleted = some choice := by
      rw [UpdateCall.assign, given]
      rfl
    dsimp only
    split
    · exact ⟨kept, written⟩
    · split <;> exact ⟨kept, written⟩

theorem write_sound (sound : Sound lib cron) (found : cron.cronId = call.cronId)
    (free : call.Completes lib now cron → cron.threadId = none) : Sound lib (call.write lib now cron).1 := by
  have kept := reschedule_rescheduled call lib now cron
  have moved := kept.sound sound
  unfold UpdateCall.write
  split
  · rename_i failed
    rwa [failed] at moved
  · rename_i passed
    have assigned := assign_sound moved (fun given => kept.threadId.trans (free ⟨given, by rw [passed]⟩))
    have sameId := kept.cronId.trans found
    rw [passed] at assigned sameId
    dsimp only
    split
    · exact ⟨assigned.cronId, assigned.assistantId, assigned.schedule, assigned.completed⟩
    · split
      · exact assigned
      · rename_i merged merges
        obtain ⟨ofCron, ofAssistant⟩ := mergePayload_ids assigned.assistantId merges
        exact ⟨by rw [ofCron]; exact congrArg (fun id : Uuid => some (PyVal.str id.str)) sameId.symm, ofAssistant,
          assigned.schedule, assigned.completed⟩

end UpdateTurns

/-- An update that comes to write `on_run_completed` has found a cron without a thread. -/
def LeavesThreads (lib : CronLibrary) (s : Runtime) (_others : List CronCall) (k : CronCall) (reply : Reply) : Prop :=
  match k with
  | .update (.authorizing call) => ∀ filters cron, reply.answer = .ok filters →
      s.crons.find? (byCronId call.cronId) = some cron → filtersAllow cron.metadata filters = .ok true →
      call.Completes lib reply.now cron → cron.threadId = none
  | _ => True

def Waits (lib : CronLibrary) : CronCall → Prop
  | .put p => p.Waits lib
  | _ => True

section Runs

variable {base : BaseSaver} {lib : CronLibrary} {s : Runtime} {reply : Reply}

theorem update_sound (sound : AllSound lib s) {p : Update} (free : LeavesThreads lib s [] (.update p) reply) :
    AllSound lib (Update.resume lib s reply p).1 := by
  have effect := Update.effect lib s reply p
  generalize Update.resume lib s reply p = out at effect ⊢
  cases effect with
  | called | refused => exact sound
  | @written call filters cron outcome answer updates found allowed =>
    refine sound.changeFirst (fun cron => write_cronId call lib reply.now cron) (fun cron' search kept => ?_)
    cases Option.some.inj (search.symm.trans found)
    have ofId : cron.cronId = call.cronId := by simpa [byCronId] using List.find?_some search
    exact write_sound kept ofId (free filters cron answer found allowed)

theorem deletion_sublist (base : BaseSaver) (s : Runtime) (p : Threads.Delete) (reply : Reply) :
    (Threads.Delete.resume base s p reply).1.crons.Sublist s.crons := by
  have effect := Threads.Delete.effect base s p reply
  generalize Threads.Delete.resume base s p reply = out at effect ⊢
  cases effect with
  | located | refused | failed => exact .refl _
  | cascaded => exact List.filter_sublist
  | deleted _ _ popped => cases popped <;> exact List.filter_sublist
  | resumed _ popped => cases popped <;> exact .refl _

theorem remaining_sublist (s : Runtime) (reply : Reply) (p : Delete) :
    (Delete.resume s reply p).1.crons.Sublist s.crons := by
  cases p with
  | called => exact .refl _
  | authorizing cronId =>
    rw [Delete.resume]
    refine attempt_cases (fun e _ => .refl _) (fun filters _ => ?_)
    exact attempt_cases (fun e _ => .refl _) (fun rest remains => Delete.remaining_sublist remains)

/-- An update that completes with a choice of its own leaves the thread of its
cron to that choice. -/
theorem update_completes {call : UpdateCall} {filters : PyVal} {cron : Cron} (answer : reply.answer = .ok filters)
    (search : s.crons.find? (byCronId call.cronId) = some cron) (allowed : filtersAllow cron.metadata filters = .ok true)
    (completes : call.Completes lib reply.now cron) :
    ∃ cron' ∈ (Update.resume lib s reply (.authorizing call)).1.crons,
      cron'.threadId = cron.threadId ∧ cron'.onRunCompleted = call.onRunCompleted ∧ cron'.onRunCompleted ≠ none := by
  obtain ⟨given, rescheduled⟩ := completes
  obtain ⟨choice, given⟩ := Option.ne_none_iff_exists'.mp given
  have updates : call.hasUpdates = true := by simp [UpdateCall.hasUpdates, given]
  have state : (Update.resume lib s reply (.authorizing call)).1.crons =
      changeFirst call.cronId (fun cron => (call.write lib reply.now cron).1) s.crons := by
    simp only [Update.resume, answer, attempt_ok, updates, search, allowed, Bool.true_eq_false, if_false]
    exact attempt_cases (fun _ _ => rfl) (fun _ _ => rfl)
  obtain ⟨threadId, written⟩ := write_completed rescheduled given
  rw [state]
  exact ⟨_, changed_mem _ search, threadId, written.trans given.symm, by rw [written]; exact Option.some_ne_none _⟩

theorem update_sound_iff (sound : AllSound lib s) (p : Update) :
    AllSound lib (Update.resume lib s reply p).1 ↔ LeavesThreads lib s [] (.update p) reply := by
  refine ⟨fun kept => ?_, update_sound sound⟩
  cases p with
  | called => exact trivial
  | authorizing call =>
    intro filters cron answer search allowed completes
    obtain ⟨cron', member, sameThread, _, chosen⟩ := update_completes answer search allowed completes
    cases bound : cron.threadId with
    | none => rfl
    | some threadId => exact absurd ((kept.sound cron' member).completed threadId (sameThread.trans bound)) chosen

theorem waits_points {κ ρ : Type} {turn : Turn κ ρ} {f : κ → CronCall} {g : ρ → CronResult}
    (waits : ∀ p ∈ turn.points, Waits lib (f p)) : ∀ q ∈ (turn.map f g).points, Waits lib q := by
  intro q member
  rw [Turn.points_map] at member
  obtain ⟨p, inside, rfl⟩ := List.mem_map.mp member
  exact waits p inside

/-- While no update gives an `on_run_completed` to a cron of a thread, the crons
of every interleaving have distinct ids, and each is sound; and an update keeps
that exactly when it does not. -/
theorem crons_sound (base : BaseSaver) (lib : CronLibrary) {initial : Runtime} (none : initial.crons = [])
    {l : EventLoop Runtime CronCall}
    (reach : (cronCalls base lib).Reaches (LeavesThreads lib) ⟨initial, []⟩ l) :
    AllSound lib l.state ∧ ∀ p reply,
      AllSound lib (Update.resume lib l.state reply p).1 ↔ LeavesThreads lib l.state [] (.update p) reply := by
  have first : AllSound lib initial := by
    constructor
    · rw [none]
      exact List.nodup_nil
    · intro cron member
      rw [none] at member
      cases member
  have annotated : Coroutines.Annotated (AllSound lib) (fun _ k => Waits lib k) l := by
    refine reach.annotated (fun {s k} _ new => ?_) (fun {s others k reply} sound waits rest met => ?_) ⟨first, by simp⟩
    · cases k with
      | put p => cases p <;> first | exact trivial | cases new
      | _ => exact trivial
    · refine (fun kept => ⟨kept.1, kept.2, rest⟩ : _ ∧ _ → _ ∧ _ ∧ _) ?_
      cases k with
      | put p =>
        obtain ⟨kept, left⟩ := Put.resume_leaves sound waits
        exact ⟨kept, waits_points left⟩
      | update p => exact ⟨update_sound sound met, waits_points (fun _ _ => trivial)⟩
      | setNextRunDate p =>
        refine ⟨sound.changeFirst (fun _ => rfl) (fun cron _ kept => ?_), fun q member => absurd member List.not_mem_nil⟩
        exact ⟨kept.cronId, kept.assistantId, kept.schedule, kept.completed⟩
      | delete p => exact ⟨sound.sublist (remaining_sublist s reply p), waits_points (fun _ _ => trivial)⟩
      | threadsDelete p =>
        exact ⟨sound.sublist (deletion_sublist base s p reply), waits_points (fun _ _ => trivial)⟩
  exact ⟨annotated.state, fun p reply => update_sound_iff annotated.state p⟩

end Runs

section Completion

def boundPut : PutCall :=
  { payload := some [("assistant_id", .str userAssistant.assistantId.str)], schedule := "* * * * *"
    cronId := some ⟨3⟩, threadId := some ⟨1⟩, onRunCompleted := none, endTime := none, metadata := none
    enabled := true, timezone := none, userId := none }

def completionOf (onRunCompleted : Option String) (enabled : Option Bool) : UpdateCall :=
  ⟨⟨3⟩, none, none, false, enabled, onRunCompleted, none, none, none⟩

/-- `put` with its three handlers, and an update. -/
def putThenUpdate (update : UpdateCall) : List (Coroutines.Move CronCall Reply) :=
  [.call (.put (.called boundPut)), .turn 0 plainReply, .turn 0 plainReply, .turn 0 plainReply, .turn 0 plainReply,
    .call (.update (.called update)), .turn 0 plainReply, .turn 0 plainReply]

/-- The cron of a thread is told to delete the thread. -/
theorem update_deletes_thread :
    ¬ ∀ (base : BaseSaver) (lib : CronLibrary) (initial : Runtime), initial.crons = [] →
      ∀ l, (cronCalls base lib).Reaches Coroutines.unrestricted ⟨initial, []⟩ l → AllSound lib l.state := by
  intro all
  have performed : ((cronCalls plainBase plainCronLibrary).performAll ⟨oneThread, []⟩
      (putThenUpdate (completionOf (some "delete") none))).isSome = true := rfl
  have sound := all plainBase plainCronLibrary oneThread rfl _
    (Coroutines.reaches_of_performAll (Option.some_get performed).symm)
  cases (sound.sound _ (List.mem_of_getElem? (i := 0) rfl)).completed ⟨1⟩ rfl

/-- A cron of a thread is made and switched off. -/
theorem crons_sound_disabled :
    ∃ l : EventLoop Runtime CronCall, AllSound plainCronLibrary l.state ∧
      l.state.crons.map (fun cron => (cron.threadId, cron.enabled)) = [(some ⟨1⟩, false)] := by
  have begun : (cronCalls plainBase plainCronLibrary).Reaches (LeavesThreads plainCronLibrary) ⟨oneThread, []⟩
      ⟨oneThread, [.put (.called boundPut)]⟩ := .call .start rfl
  have ofPut : ∀ s others p, LeavesThreads plainCronLibrary s others (.put p) plainReply := fun _ _ _ => trivial
  have asks : ∀ s others, LeavesThreads plainCronLibrary s others
      (.update (.called (completionOf none (some false)))) plainReply := fun _ _ => trivial
  have switches : ∀ s others, LeavesThreads plainCronLibrary s others
      (.update (.authorizing (completionOf none (some false)))) plainReply :=
    fun _ _ _ _ _ _ _ completes => absurd rfl completes.1
  have authorized := (begun.turn 0 plainReply rfl (ofPut _ _ _)).turn 0 plainReply rfl (ofPut _ _ _)
  have made := (authorized.turn 0 plainReply rfl (ofPut _ _ _)).turn 0 plainReply rfl (ofPut _ _ _)
  have asked := (made.call (k := .update (.called (completionOf none (some false)))) rfl).turn 0 plainReply rfl (asks _ _)
  have updated := asked.turn 0 plainReply rfl (switches _ _)
  exact ⟨_, (crons_sound plainBase plainCronLibrary rfl updated).1, rfl⟩

end Completion

end Crons

end InmemRuntime
