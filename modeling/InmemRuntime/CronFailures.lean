import InmemRuntime.CronRuns
import InmemRuntime.FailedCalls

namespace InmemRuntime

namespace Crons

/-- No next date can be given: the schedule of the call is invalid, or
`next_cron_date` raises for it or for the new time zone. -/
def UpdateCall.Undatable (call : UpdateCall) (lib : CronLibrary) (now : Time) (cron : Cron) : Prop :=
  match call.schedule with
  | some schedule =>
    lib.isValid schedule = false ∨ ∃ e, lib.nextCronDate schedule now (call.timezone.or cron.timezone) = .error e
  | none => ∃ timezone, call.timezone = some timezone ∧ ∃ e, lib.nextCronDate cron.schedule now (some timezone) = .error e

/-- The time zone of the call is the cron's, and so is its schedule unless it is invalid. -/
structure UpdateCall.KeepsSchedule (call : UpdateCall) (lib : CronLibrary) (cron : Cron) : Prop where
  timezone : ∀ timezone, call.timezone = some timezone → cron.timezone = some timezone
  schedule : ∀ schedule, call.schedule = some schedule → lib.isValid schedule = true → cron.schedule = schedule

/-- What the call gives, the payload apart, is what the cron has, its next date included. -/
structure UpdateCall.KeepsFields (call : UpdateCall) (lib : CronLibrary) (now : Time) (cron : Cron) : Prop
    extends call.KeepsSchedule lib cron where
  nextRunDate : call.schedule.isSome ∨ call.timezone.isSome →
    lib.nextCronDate cron.schedule now cron.timezone = .ok cron.nextRunDate
  endTime : (if call.clearEndTime then none else call.endTime.or cron.endTime) = cron.endTime
  enabled : ∀ enabled, call.enabled = some enabled → cron.enabled = enabled
  onRunCompleted : ∀ choice, call.onRunCompleted = some choice → cron.onRunCompleted = some choice
  metadata : ∀ metadata, call.metadata = some metadata → PyDict.update cron.metadata metadata = cron.metadata

/-- Its config is no dict, or has a configurable that is none. -/
def Unmergeable (payload : PyDict) : Prop :=
  ∃ config : PyVal, (payload.get? "config").filter PyVal.truthy = some config ∧
    ∀ items : PyDict, config = .dict items →
      ∃ configurable : PyVal, (items.get? "configurable").filter PyVal.truthy = some configurable ∧
        ∀ items : PyDict, configurable ≠ .dict items

/-- What is written before a failure was there already. -/
structure UpdateCall.WritesNothingNew (call : UpdateCall) (lib : CronLibrary) (now : Time) (cron : Cron) : Prop where
  date : call.Undatable lib now cron → call.KeepsSchedule lib cron
  payload : ¬ call.Undatable lib now cron → ∀ payload, call.payload = some payload →
    Unmergeable (PyDict.update cron.payload payload) → call.KeepsFields lib now cron

section Payloads

theorem dictOr_error_iff {failure : PyError} {value : Option PyVal} :
    (∃ e, dictOr failure (value.filter PyVal.truthy) = .error e) ↔
      ∃ v, value.filter PyVal.truthy = some v ∧ ∀ items : PyDict, v ≠ .dict items := by
  cases taken : value.filter PyVal.truthy with
  | none => simp [dictOr]
  | some v =>
    have holds : v.truthy = true := (Option.filter_eq_some_iff.mp taken).2
    cases v <;> simp_all [dictOr, PyVal.truthy]

theorem dictOr_ok_iff {failure : PyError} {value : Option PyVal} {items : PyDict} :
    dictOr failure (value.filter PyVal.truthy) = .ok items ↔
      value.filter PyVal.truthy = some (.dict items) ∨ value.filter PyVal.truthy = none ∧ items = [] := by
  cases taken : value.filter PyVal.truthy with
  | none => simp [dictOr, eq_comm]
  | some v =>
    have holds : v.truthy = true := (Option.filter_eq_some_iff.mp taken).2
    cases v <;> simp_all [dictOr, PyVal.truthy]

theorem mergePayload_error_iff (existing payload : PyDict) (cronId : Uuid) :
    (∃ e, mergePayload existing payload cronId = .error e) ↔ Unmergeable (PyDict.update existing payload) := by
  unfold mergePayload
  generalize PyDict.update existing payload = merged
  generalize ((existing.get? "assistant_id").or (merged.get? "assistant_id")).getD .none = assistantId
  have apart : "config" ≠ "assistant_id" := by decide
  have never (d : PyDict) : ¬ ∃ e, (pure d : Except PyError PyDict) = .error e := fun ⟨_, raises⟩ => by cases raises
  simp only [PyDict.get?_set_of_ne _ apart, bind_error_iff, dictOr_error_iff, dictOr_ok_iff, never, and_false,
    exists_false, or_false, Unmergeable]
  constructor
  · rintro (⟨config, taken, noDict⟩ | ⟨items, taken | ⟨_, rfl⟩, configurable, inside, noDict⟩)
    · exact ⟨config, taken, fun items same => absurd same (noDict items)⟩
    · refine ⟨.dict items, taken, fun items' same => ?_⟩
      cases same
      exact ⟨configurable, inside, noDict⟩
    · cases inside
  · rintro ⟨config, taken, inner⟩
    by_cases isDict : ∃ items : PyDict, config = .dict items
    · obtain ⟨items, rfl⟩ := isDict
      exact Or.inr ⟨items, Or.inl taken, inner items rfl⟩
    · exact Or.inl ⟨config, taken, fun items same => isDict ⟨items, same⟩⟩

end Payloads

section Writes

variable {call : UpdateCall} {lib : CronLibrary} {now : Time} {cron : Cron}

theorem redate_error_iff {next : Except PyError Time} :
    (∃ e, (redate cron next).2 = .error e) ↔ ∃ e, next = .error e := by
  cases next <;> simp [redate]

theorem redate_of_error {next : Except PyError Time} (raises : ∃ e, next = .error e) : (redate cron next).1 = cron := by
  obtain ⟨e, rfl⟩ := raises
  rfl

theorem reschedule_error_iff :
    (∃ e, (call.reschedule lib now cron).2 = .error e) ↔ call.Undatable lib now cron := by
  unfold UpdateCall.reschedule UpdateCall.Undatable
  cases call.schedule with
  | none => cases call.timezone <;> simp [redate_error_iff]
  | some schedule =>
    by_cases valid : lib.isValid schedule = false
    · simp [valid]
    · simp [valid, redate_error_iff]

theorem withTimezone_eq_iff {given : Option String} :
    { cron with timezone := given.or cron.timezone } = cron ↔
      ∀ timezone, given = some timezone → cron.timezone = some timezone := by
  cases cron
  cases given <;> simp [eq_comm]

/-- A failed rescheduling leaves the time zone, and the schedule if it was valid. -/
theorem reschedule_failed (fails : call.Undatable lib now cron) :
    (call.reschedule lib now cron).1 = cron ↔ call.KeepsSchedule lib cron := by
  have reduced : call.KeepsSchedule lib cron ↔
      { cron with timezone := call.timezone.or cron.timezone } = cron ∧
        ∀ schedule, call.schedule = some schedule → lib.isValid schedule = true → cron.schedule = schedule := by
    rw [withTimezone_eq_iff]
    exact ⟨fun keeps => ⟨keeps.timezone, keeps.schedule⟩, fun keeps => ⟨keeps.1, keeps.2⟩⟩
  rw [reduced]
  unfold UpdateCall.Undatable at fails
  unfold UpdateCall.reschedule
  cases given : call.schedule with
  | none =>
    simp only [given] at fails
    obtain ⟨timezone, zone, raises⟩ := fails
    simp only [zone, redate_of_error raises]
    simp
  | some schedule =>
    simp only [given] at fails
    by_cases valid : lib.isValid schedule = true
    · have raises := fails.resolve_left (by simp [valid])
      simp only [valid, Bool.true_eq_false, if_false, redate_of_error raises]
      cases cron
      simp only [Cron.mk.injEq, Option.some.injEq, forall_eq', valid, forall_const, true_and, and_true]
      exact ⟨fun same => ⟨same.2, same.1.symm⟩, fun same => ⟨same.2.symm, same.1⟩⟩
    · simp [valid]

/-- What a rescheduling that goes through leaves: the time zone and schedule
given, and the date that follows from those stored. -/
theorem reschedule_passed (passes : ¬ call.Undatable lib now cron) :
    ∃ nextRunDate, (call.reschedule lib now cron).1 =
        { cron with
          timezone := call.timezone.or cron.timezone
          schedule := call.schedule.getD cron.schedule
          nextRunDate := nextRunDate } ∧
      if call.schedule.isSome ∨ call.timezone.isSome then
        lib.nextCronDate (call.schedule.getD cron.schedule) now (call.timezone.or cron.timezone) = .ok nextRunDate
      else nextRunDate = cron.nextRunDate := by
  unfold UpdateCall.Undatable at passes
  unfold UpdateCall.reschedule
  cases given : call.schedule with
  | none =>
    cases zone : call.timezone with
    | none => exact ⟨cron.nextRunDate, by simp, by simp⟩
    | some timezone =>
      simp only [given, zone, Option.some.injEq, exists_eq_left', not_exists] at passes
      cases dated : lib.nextCronDate cron.schedule now (some timezone) with
      | error e => exact absurd dated (passes e)
      | ok nextRunDate => exact ⟨nextRunDate, by simp [redate, dated], by simp [dated]⟩
  | some schedule =>
    simp only [given, not_or, not_exists] at passes
    cases dated : lib.nextCronDate schedule now (call.timezone.or cron.timezone) with
    | error e => exact absurd dated (passes.2 e)
    | ok nextRunDate => exact ⟨nextRunDate, by simp [redate, passes.1, dated], by simp [dated]⟩

theorem valid_of_datable {schedule : String} (passes : ¬ call.Undatable lib now cron)
    (given : call.schedule = some schedule) : lib.isValid schedule = true := by
  by_contra invalid
  refine passes ?_
  simp only [UpdateCall.Undatable, given]
  exact Or.inl (Bool.not_eq_true _ ▸ invalid)

/-- Everything before the payload leaves the cron as it was. -/
theorem assign_eq_iff (passes : ¬ call.Undatable lib now cron) :
    call.assign (call.reschedule lib now cron).1 = cron ↔ call.KeepsFields lib now cron := by
  obtain ⟨nextRunDate, stored, dated⟩ := reschedule_passed passes
  rw [stored]
  constructor
  · intro same
    have timezone : call.timezone.or cron.timezone = cron.timezone := congrArg Cron.timezone same
    have schedule : call.schedule.getD cron.schedule = cron.schedule := congrArg Cron.schedule same
    have date : nextRunDate = cron.nextRunDate := congrArg Cron.nextRunDate same
    have enabled : call.enabled.getD cron.enabled = cron.enabled := congrArg Cron.enabled same
    have choice : call.onRunCompleted.or cron.onRunCompleted = cron.onRunCompleted := congrArg Cron.onRunCompleted same
    have metadata : PyDict.update cron.metadata (call.metadata.getD []) = cron.metadata := congrArg Cron.metadata same
    refine ⟨⟨fun zone given => ?_, fun text given _ => ?_⟩, fun given => ?_, congrArg Cron.endTime same,
      fun value given => ?_, fun value given => ?_, fun value given => ?_⟩
    · rw [← timezone, given, Option.some_or]
    · rw [← schedule, given, Option.getD_some]
    · rw [if_pos given, schedule, timezone, date] at dated
      exact dated
    · rw [← enabled, given, Option.getD_some]
    · rw [← choice, given, Option.some_or]
    · rwa [given, Option.getD_some] at metadata
  · intro keeps
    have timezone : call.timezone.or cron.timezone = cron.timezone := by
      cases given : call.timezone with
      | none => rfl
      | some zone => exact (keeps.timezone zone given).symm
    have schedule : call.schedule.getD cron.schedule = cron.schedule := by
      cases given : call.schedule with
      | none => rfl
      | some text => exact (keeps.schedule text given (valid_of_datable passes given)).symm
    have date : nextRunDate = cron.nextRunDate := by
      split at dated
      · rename_i given
        rw [schedule, timezone, keeps.nextRunDate given] at dated
        exact (Except.ok.inj dated).symm
      · exact dated
    have enabled : call.enabled.getD cron.enabled = cron.enabled := by
      cases given : call.enabled with
      | none => rfl
      | some value => exact (keeps.enabled value given).symm
    have choice : call.onRunCompleted.or cron.onRunCompleted = cron.onRunCompleted := by
      cases given : call.onRunCompleted with
      | none => rfl
      | some value => exact (keeps.onRunCompleted value given).symm
    have metadata : PyDict.update cron.metadata (call.metadata.getD []) = cron.metadata := by
      cases given : call.metadata with
      | none => rfl
      | some value => exact keeps.metadata value given
    simp only [UpdateCall.assign, timezone, schedule, date, enabled, choice, metadata, keeps.endTime]

theorem write_undatable (fails : call.Undatable lib now cron) :
    ∃ e, call.write lib now cron = ((call.reschedule lib now cron).1, .error e) := by
  obtain ⟨e, raises⟩ := reschedule_error_iff.mpr fails
  refine ⟨e, ?_⟩
  unfold UpdateCall.write
  generalize call.reschedule lib now cron = rescheduled at raises ⊢
  obtain ⟨cron', result⟩ := rescheduled
  cases raises
  rfl

theorem write_datable (passes : ¬ call.Undatable lib now cron) :
    (∃ payload e, call.payload = some payload ∧ Unmergeable (PyDict.update cron.payload payload) ∧
      call.write lib now cron = (call.assign (call.reschedule lib now cron).1, .error e)) ∨
    (∀ payload, call.payload = some payload → ¬ Unmergeable (PyDict.update cron.payload payload)) ∧
      ∃ payload, call.write lib now cron =
        ({ call.assign (call.reschedule lib now cron).1 with payload := payload, updatedAt := now }, .ok ()) := by
  obtain ⟨_, stored, _⟩ := reschedule_passed passes
  have payload : (call.reschedule lib now cron).1.payload = cron.payload := by rw [stored]
  have result : (call.reschedule lib now cron).2 = .ok () := by
    cases raised : (call.reschedule lib now cron).2 with
    | error e => exact absurd (reschedule_error_iff.mp ⟨e, raised⟩) passes
    | ok _ => rfl
  unfold UpdateCall.write
  generalize call.reschedule lib now cron = rescheduled at payload result ⊢
  obtain ⟨cron', outcome⟩ := rescheduled
  simp only at payload result
  subst result
  have kept : (call.assign cron').payload = cron.payload := payload
  simp only [kept]
  cases given : call.payload with
  | none => exact Or.inr ⟨by simp, cron.payload, by simp⟩
  | some value =>
    have raises := mergePayload_error_iff cron.payload value call.cronId
    cases merge : mergePayload cron.payload value call.cronId with
    | error e => exact Or.inl ⟨value, e, rfl, raises.mp ⟨e, merge⟩, by simp [merge]⟩
    | ok merged =>
      refine Or.inr ⟨fun payload same unmergeable => ?_, merged, by simp [merge]⟩
      obtain rfl : value = payload := Option.some.inj same
      obtain ⟨e, failed⟩ := raises.mpr unmergeable
      rw [merge] at failed
      cases failed

/-- A write that fails leaves the cron as it was exactly when all that it
writes before it fails is there already. -/
theorem write_unchanged_iff :
    (∀ e, (call.write lib now cron).2 = .error e → (call.write lib now cron).1 = cron) ↔
      call.WritesNothingNew lib now cron := by
  by_cases fails : call.Undatable lib now cron
  · obtain ⟨e, written⟩ := write_undatable fails
    rw [written]
    constructor
    · exact fun unchanged => ⟨fun _ => (reschedule_failed fails).mp (unchanged e rfl), fun passes => absurd fails passes⟩
    · exact fun nothing _ _ => (reschedule_failed fails).mpr (nothing.date fails)
  · rcases write_datable fails with ⟨payload, e, given, unmergeable, written⟩ | ⟨mergeable, payload, written⟩
    · rw [written]
      constructor
      · exact fun unchanged =>
          ⟨fun dated => absurd dated fails, fun _ _ _ _ => (assign_eq_iff fails).mp (unchanged e rfl)⟩
      · exact fun nothing _ _ => (assign_eq_iff fails).mpr (nothing.payload fails payload given unmergeable)
    · rw [written]
      constructor
      · exact fun _ =>
          ⟨fun dated => absurd dated fails, fun _ payload given bad => absurd bad (mergeable payload given)⟩
      · exact fun _ e raised => by cases raised

/-- A write with a schedule or a time zone that goes through dates the cron by what it stores. -/
theorem write_dated (passes : (call.write lib now cron).2 = .ok ()) (given : call.schedule.isSome ∨ call.timezone.isSome) :
    lib.nextCronDate (call.write lib now cron).1.schedule now (call.write lib now cron).1.timezone =
      .ok (call.write lib now cron).1.nextRunDate := by
  by_cases fails : call.Undatable lib now cron
  · obtain ⟨e, written⟩ := write_undatable fails
    rw [written] at passes
    cases passes
  · rcases write_datable fails with ⟨_, e, _, _, written⟩ | ⟨_, payload, written⟩
    · rw [written] at passes
      cases passes
    · obtain ⟨nextRunDate, stored, dated⟩ := reschedule_passed fails
      rw [written, stored]
      rwa [if_pos given] at dated

end Writes

theorem changeFirst_eq_self_iff {cronId : Uuid} {f : Cron → Cron} {crons : List Cron} :
    changeFirst cronId f crons = crons ↔ ∀ cron, crons.find? (byCronId cronId) = some cron → f cron = cron := by
  induction crons with
  | nil => simp [changeFirst]
  | cons first crons ih =>
    unfold changeFirst
    by_cases here : byCronId cronId first = true
    · simp [here]
    · rw [if_neg here, List.find?_cons_of_neg here, List.cons.injEq, ih]
      simp

theorem changeFirst_find? {cronId : Uuid} {f : Cron → Cron} (same : ∀ cron, (f cron).cronId = cron.cronId)
    (crons : List Cron) :
    (changeFirst cronId f crons).find? (byCronId cronId) = (crons.find? (byCronId cronId)).map f := by
  induction crons with
  | nil => rfl
  | cons first crons ih =>
    unfold changeFirst
    by_cases here : byCronId cronId first = true
    · have changed : byCronId cronId (f first) = true := by
        simpa [byCronId, same] using here
      rw [if_pos here, List.find?_cons_of_pos changed, List.find?_cons_of_pos here, Option.map_some]
    · rw [if_neg here, List.find?_cons_of_neg here, List.find?_cons_of_neg here, ih]

/-- A raise leaves the store as it was, and a success with a schedule or a time
zone leaves the next date of what is stored. -/
def UpdateCall.AllOrNothing (call : UpdateCall) (lib : CronLibrary) (s : Runtime) (now : Time) (s' : Runtime) :
    Except PyError (List Cron) → Prop
  | .error _ => s' = s
  | .ok crons => ∃ cron, crons = [cron] ∧ s'.crons.find? (byCronId call.cronId) = some cron ∧
      (call.schedule.isSome ∨ call.timezone.isSome →
        lib.nextCronDate cron.schedule now cron.timezone = .ok cron.nextRunDate)

/-- The call comes to write to the cron that it has found. -/
def UpdateCall.Writes (call : UpdateCall) (s : Runtime) (reply : Reply) (cron : Cron) : Prop :=
  ∃ filters, reply.answer = .ok filters ∧ call.hasUpdates = true ∧
    s.crons.find? (byCronId call.cronId) = some cron ∧ filtersAllow cron.metadata filters = .ok true

/-- Without interleaving, an update changes nothing when it raises, and dates
the cron by what it stores when it does not, exactly when nothing new is
written before a failure. -/
theorem update_all_or_nothing_iff (lib : CronLibrary) (s : Runtime) (made reply : Reply) (call : UpdateCall) :
    Turn.Ensures (fun s p reply => Update.resume lib s reply p) (call.AllOrNothing lib s reply.now) [made, reply]
        (s, .suspended (.called call)) ↔
      ∀ cron, call.Writes s reply cron → call.WritesNothingNew lib reply.now cron := by
  rw [Turn.ensures_suspended]
  change Turn.Ensures _ _ [reply] (s, .suspended (Update.authorizing call)) ↔ _
  rw [Turn.ensures_suspended]
  simp only [Update.resume.eq_2, ensures_attempt, UpdateCall.AllOrNothing, implies_true, true_and]
  constructor
  · rintro ensured cron ⟨filters, answer, updates, found, allowed⟩
    have ends := ensured filters answer
    simp only [updates, found, Bool.true_eq_false, if_false, ensures_attempt] at ends
    have writes := ends.2 true allowed
    simp only [Bool.true_eq_false, if_false, ensures_attempt] at writes
    refine write_unchanged_iff.mp (fun e raises => ?_)
    have same : changeFirst call.cronId (fun cron => (call.write lib reply.now cron).1) s.crons = s.crons :=
      congrArg (fun s' : Runtime => s'.crons) (writes.1 e raises)
    exact changeFirst_eq_self_iff.mp same cron found
  · intro nothing filters answer
    split
    · exact ensures_raised.mpr rfl
    · rename_i updates
      cases found : s.crons.find? (byCronId call.cronId) with
      | none => exact ensures_raised.mpr rfl
      | some cron =>
        refine ensures_attempt.mpr ⟨fun e _ => rfl, fun allowed verdict => ?_⟩
        split
        · exact ensures_raised.mpr rfl
        · rename_i permitted
          have writes : call.Writes s reply cron :=
            ⟨filters, answer, Bool.of_not_eq_false updates, found, by rw [verdict, Bool.of_not_eq_false permitted]⟩
          refine ensures_attempt.mpr ⟨fun e raises => ?_, fun _ passes => ?_⟩
          · have same : changeFirst call.cronId (fun cron => (call.write lib reply.now cron).1) s.crons = s.crons := by
              refine changeFirst_eq_self_iff.mpr (fun cron' search => ?_)
              obtain rfl : cron = cron' := Option.some.inj (found.symm.trans search)
              exact write_unchanged_iff.mpr (nothing cron writes) e raises
            simp only [UpdateCall.AllOrNothing, same]
          · refine ensures_returned.mpr ⟨_, rfl, ?_, write_dated passes⟩
            rw [changeFirst_find? (fun cron => write_cronId call lib reply.now cron), found, Option.map_some]

/-- Every minute, in UTC only. -/
def minuteLibrary : CronLibrary where
  isValid schedule := schedule = "* * * * *"
  nextCronDate _ now timezone :=
    if timezone.getD "UTC" = "UTC" then .ok (now + 60000000) else .error (.valueError "unknown time zone")
  getAssistantId _ := .ok ""
  systemAssistantIds := []

def minuteCron : Cron :=
  { cronId := ⟨3⟩, assistantId := ⟨2⟩, threadId := none, userId := none, endTime := none, schedule := "* * * * *"
    timezone := none, payload := [], nextRunDate := 60000000, metadata := [], onRunCompleted := some "delete"
    enabled := true, createdAt := 0, updatedAt := 0 }

/-- Only a time zone is given. -/
def rezone (timezone : String) : UpdateCall :=
  ⟨⟨3⟩, none, none, false, none, none, none, none, some timezone⟩

/-- An unknown time zone is stored before its date fails. -/
theorem update_changes_on_raise :
    ¬ ∀ (lib : CronLibrary) (s : Runtime) (made reply : Reply) (call : UpdateCall),
      Turn.Ensures (fun s p reply => Update.resume lib s reply p) (call.AllOrNothing lib s reply.now) [made, reply]
        (s, .suspended (.called call)) := by
  intro all
  have ends : Turn.EndsOn (fun s p reply => Update.resume minuteLibrary s reply p) [plainReply, plainReply]
      ({ storeOf [] with crons := [minuteCron] }, .suspended (.called (rezone "Mars/Olympus")))
      { storeOf [] with crons := [{ minuteCron with timezone := some "Mars/Olympus" }] }
      (.error (.valueError "unknown time zone")) := .suspended (.suspended (.finished _ _ _))
  have same := congrArg (fun s : Runtime => s.crons.map Cron.timezone) (all _ _ _ _ _ _ _ ends)
  revert same
  decide

end Crons

end InmemRuntime
