import InmemRuntime.CronsPut

namespace InmemRuntime

namespace Crons

/-- The loop that stops at the first cron of an id. -/
def changeFirst (cronId : Uuid) (f : Cron → Cron) : List Cron → List Cron
  | [] => []
  | cron :: crons => if byCronId cronId cron then f cron :: crons else cron :: changeFirst cronId f crons

theorem changeFirst_ids {f : Cron → Cron} (same : ∀ cron, (f cron).cronId = cron.cronId) (cronId : Uuid)
    (crons : List Cron) : (changeFirst cronId f crons).map Cron.cronId = crons.map Cron.cronId := by
  induction crons with
  | nil => rfl
  | cons cron crons ih =>
    unfold changeFirst
    split
    · rw [List.map_cons, same, List.map_cons]
    · rw [List.map_cons, ih, List.map_cons]

theorem mem_changeFirst {cronId : Uuid} {f : Cron → Cron} {crons : List Cron} {cron : Cron}
    (member : cron ∈ changeFirst cronId f crons) :
    cron ∈ crons ∨ ∃ found, crons.find? (byCronId cronId) = some found ∧ cron = f found := by
  induction crons with
  | nil => exact Or.inl member
  | cons first crons ih =>
    unfold changeFirst at member
    by_cases here : byCronId cronId first = true
    · rw [if_pos here] at member
      rcases List.mem_cons.mp member with rfl | later
      · exact Or.inr ⟨first, List.find?_cons_of_pos here, rfl⟩
      · exact Or.inl (List.mem_cons_of_mem _ later)
    · rw [if_neg here] at member
      rcases List.mem_cons.mp member with rfl | later
      · exact Or.inl List.mem_cons_self
      · rcases ih later with old | ⟨found, search, changed⟩
        · exact Or.inl (List.mem_cons_of_mem _ old)
        · exact Or.inr ⟨found, by rw [List.find?_cons_of_neg here, search], changed⟩

theorem changed_mem {cronId : Uuid} (f : Cron → Cron) {crons : List Cron} {cron : Cron}
    (found : crons.find? (byCronId cronId) = some cron) : f cron ∈ changeFirst cronId f crons := by
  induction crons with
  | nil => cases found
  | cons first crons ih =>
    unfold changeFirst
    by_cases here : byCronId cronId first = true
    · rw [List.find?_cons_of_pos here] at found
      rw [if_pos here, Option.some.inj found]
      exact List.mem_cons_self
    · rw [List.find?_cons_of_neg here] at found
      rw [if_neg here]
      exact List.mem_cons_of_mem _ (ih found)

structure UpdateCall where
  cronId : Uuid
  schedule : Option String
  endTime : Option Time
  clearEndTime : Bool
  enabled : Option Bool
  onRunCompleted : Option String
  payload : Option PyDict
  metadata : Option PyDict
  timezone : Option String

def UpdateCall.hasUpdates (call : UpdateCall) : Bool :=
  call.clearEndTime || call.schedule.isSome || call.endTime.isSome || call.enabled.isSome ||
    call.onRunCompleted.isSome || call.payload.isSome || call.metadata.isSome || call.timezone.isSome

def cronNotFound (cronId : Uuid) : PyError := .http 404 s!"Cron '{cronId.str}' not found"

def redate (cron : Cron) : Except PyError Time → Cron × Except PyError Unit
  | .error e => (cron, .error e)
  | .ok nextRunDate => ({ cron with nextRunDate := nextRunDate }, .ok ())

/-- The time zone, the schedule and the date that follows from them. What has
been written when a call outside fails stays written. -/
def UpdateCall.reschedule (call : UpdateCall) (lib : CronLibrary) (now : Time) (cron : Cron) :
    Cron × Except PyError Unit :=
  let cron := { cron with timezone := call.timezone.or cron.timezone }
  match call.schedule, call.timezone with
  | some schedule, _ =>
    if lib.isValid schedule = false then (cron, .error (invalidSchedule schedule))
    else redate { cron with schedule := schedule } (lib.nextCronDate schedule now cron.timezone)
  | none, some timezone => redate cron (lib.nextCronDate cron.schedule now (some timezone))
  | none, none => (cron, .ok ())

/-- The fields that are written as they are given. -/
def UpdateCall.assign (call : UpdateCall) (cron : Cron) : Cron :=
  { cron with
    endTime := if call.clearEndTime then none else call.endTime.or cron.endTime
    enabled := call.enabled.getD cron.enabled
    onRunCompleted := call.onRunCompleted.or cron.onRunCompleted
    metadata := PyDict.update cron.metadata (call.metadata.getD []) }

/-- "Shallow merge payload, preserve assistant_id and config.configurable.cron_id" -/
def mergePayload (existing payload : PyDict) (cronId : Uuid) : Except PyError PyDict := do
  let merged := PyDict.update existing payload
  let assistantId := ((existing.get? "assistant_id").or (merged.get? "assistant_id")).getD .none
  let merged := merged.set "assistant_id" assistantId
  let config ← dictOr .attributeError ((merged.get? "config").filter PyVal.truthy)
  let configurable ← dictOr .typeError ((config.get? "configurable").filter PyVal.truthy)
  return placeCronId merged config configurable cronId

/-- What `update` does to the record that it has found. -/
def UpdateCall.write (call : UpdateCall) (lib : CronLibrary) (now : Time) (cron : Cron) : Cron × Except PyError Unit :=
  match call.reschedule lib now cron with
  | (cron, .error e) => (cron, .error e)
  | (cron, .ok ()) =>
    let cron := call.assign cron
    match call.payload with
    | none => ({ cron with updatedAt := now }, .ok ())
    | some payload =>
      match mergePayload cron.payload payload call.cronId with
      | .error e => (cron, .error e)
      | .ok merged => ({ cron with payload := merged, updatedAt := now }, .ok ())

inductive Update where
  | called (call : UpdateCall)
  | authorizing (call : UpdateCall)

def Update.resume (lib : CronLibrary) (s : Runtime) (reply : Reply) :
    Update → Runtime × Turn Update (Except PyError (List Cron))
  | .called call => (s, .suspended (.authorizing call))
  | .authorizing call =>
    attempt s reply.answer (fun filters =>
      if call.hasUpdates = false then raised s (.http 400 "No fields to update")
      else match s.crons.find? (byCronId call.cronId) with
        | none => raised s (cronNotFound call.cronId)
        | some cron =>
          attempt s (filtersAllow cron.metadata filters) (fun allowed =>
            if allowed = false then raised s (cronNotFound call.cronId)
            else
              let written := call.write lib reply.now cron
              let s := { s with
                crons := changeFirst call.cronId (fun cron => (call.write lib reply.now cron).1) s.crons }
              attempt s written.2 (fun _ => returned s [written.1])))

structure SetNextRunDate where
  cronId : Uuid
  nextRunDate : Time

def SetNextRunDate.resume (s : Runtime) (p : SetNextRunDate) : Runtime × Turn SetNextRunDate (Except PyError Unit) :=
  returned { s with
    crons := changeFirst p.cronId (fun cron => { cron with nextRunDate := p.nextRunDate }) s.crons } ()

inductive Delete where
  | called (cronId : Uuid)
  | authorizing (cronId : Uuid)

/-- The list that replaces `store["crons"]`. -/
def Delete.remaining (cronId : Uuid) (filters : PyVal) : List Cron → Except PyError (List Cron)
  | [] => .ok []
  | cron :: crons => do
    let goes ← (if byCronId cronId cron then filtersAllow cron.metadata filters else .ok false : Except PyError Bool)
    let rest ← Delete.remaining cronId filters crons
    .ok (if goes then rest else cron :: rest)

def Delete.resume (s : Runtime) (reply : Reply) : Delete → Runtime × Turn Delete (Except PyError (List Uuid))
  | .called cronId => (s, .suspended (.authorizing cronId))
  | .authorizing cronId =>
    attempt s reply.answer (fun filters =>
      attempt s (Delete.remaining cronId filters s.crons) (fun crons =>
        returned { s with crons := crons } (if crons.length < s.crons.length then [cronId] else [])))

theorem Delete.remaining_sublist {cronId : Uuid} {filters : PyVal} {crons rest : List Cron}
    (remains : Delete.remaining cronId filters crons = .ok rest) : rest.Sublist crons := by
  induction crons generalizing rest with
  | nil =>
    cases remains
    exact .refl _
  | cons cron crons ih =>
    rw [remaining] at remains
    obtain ⟨goes, _, remains⟩ := bind_ok remains
    obtain ⟨tail, later, made⟩ := bind_ok remains
    cases made
    have smaller := ih later
    split
    · exact smaller.trans (List.sublist_cons_self _ _)
    · exact smaller.cons_cons _

/-- What a turn of `update` can do to the crons. -/
inductive Update.Effect (lib : CronLibrary) (s : Runtime) (reply : Reply) :
    Update → Runtime × Turn Update (Except PyError (List Cron)) → Prop
  | called (call) : Effect lib s reply (.called call) (s, .suspended (.authorizing call))
  | refused (call e) : Effect lib s reply (.authorizing call) (s, .finished (.error e))
  | written {call filters cron outcome} : reply.answer = .ok filters → call.hasUpdates = true →
      s.crons.find? (byCronId call.cronId) = some cron → filtersAllow cron.metadata filters = .ok true →
      Effect lib s reply (.authorizing call)
        ({ s with crons := changeFirst call.cronId (fun cron => (call.write lib reply.now cron).1) s.crons },
          .finished outcome)

theorem Update.effect (lib : CronLibrary) (s : Runtime) (reply : Reply) (p : Update) :
    Update.Effect lib s reply p (Update.resume lib s reply p) := by
  cases p with
  | called call => exact .called call
  | authorizing call =>
    rw [resume]
    refine attempt_cases (fun e _ => .refused _ e) (fun filters answer => ?_)
    split
    · exact .refused _ _
    · rename_i some'
      cases found : s.crons.find? (byCronId call.cronId) with
      | none => exact .refused _ _
      | some cron =>
        dsimp only
        refine attempt_cases (fun e _ => .refused _ e) (fun allowed verdict => ?_)
        cases allowed with
        | false => exact .refused _ _
        | true =>
          rw [if_neg (by decide)]
          have updates : call.hasUpdates = true := Bool.of_not_eq_false some'
          exact attempt_cases (fun e _ => .written answer updates found verdict)
            (fun _ _ => .written answer updates found verdict)

end Crons

end InmemRuntime
