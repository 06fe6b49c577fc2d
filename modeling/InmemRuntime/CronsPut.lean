import InmemRuntime.ThreadOps

namespace InmemRuntime

/-- What `Crons.put` calls outside this package: croniter's validity test,
`next_cron_date`, `get_assistant_id` (its result as text) and the system assistants. -/
structure CronLibrary where
  isValid : String → Bool
  nextCronDate : String → Time → Option String → Except PyError Time
  getAssistantId : PyVal → Except PyError String
  systemAssistantIds : List String

namespace Crons

/-- The arguments of `Crons.put`, and the identity of the caller. -/
structure PutCall where
  payload : Option PyDict
  schedule : String
  cronId : Option Uuid
  threadId : Option Uuid
  onRunCompleted : Option String
  endTime : Option Time
  metadata : Option PyDict
  enabled : Bool
  timezone : Option String
  userId : Option String

/-- The arguments with the cron's id, the payload that carries it, and the
assistant and the filters once they are known. -/
structure PutFrame where
  call : PutCall
  cronId : Uuid
  payload : PyDict
  assistantId : String
  filters : PyVal

inductive Put where
  | called (call : PutCall)
  | authorizing (frame : PutFrame)
  | authorizingAssistant (frame : PutFrame)
  | authorizingThread (frame : PutFrame) (assistant : Assistant) (threadId : Uuid)

/-- A dict that is used under a key where it may be missing: a value of another
kind fails where it is used. -/
def dictOr (failure : PyError) : Option PyVal → Except PyError PyDict
  | none | some .none => .ok []
  | some (.dict items) => .ok items
  | some _ => .error failure

/-- `configurable["cron_id"] = str(cron_id)`, in its place in the payload. -/
def placeCronId (payload config configurable : PyDict) (cronId : Uuid) : PyDict :=
  payload.set "config" (.dict (config.set "configurable" (.dict (configurable.set "cron_id" (.str cronId.str)))))

def payloadWithCronId (payload : PyDict) (cronId : Uuid) : Except PyError PyDict := do
  let config ← dictOr .attributeError (payload.get? "config")
  let configurable ← dictOr .typeError (config.get? "configurable")
  return placeCronId payload config configurable cronId

def invalidSchedule (schedule : String) : PyError :=
  .http 422 (s!"Invalid cron schedule: '{schedule}'. Reason: Invalid cron schedule. " ++
    "Ensure the schedule uses the standard cron format (minute hour day_of_month month day_of_week). " ++
    "Example: '*/5 * * * *' for every 5 minutes.")

def assistantNotFound (assistantId : String) : PyError := .http 404 s!"Assistant '{assistantId}' not found"

def threadNotFound (threadId : Uuid) : PyError :=
  .http 404 (s!"Thread with ID '{threadId.str}' not found. Please verify the ID is correct and the thread " ++
    "hasn't been deleted or expired.")

def byCronId (cronId : Uuid) (cron : Cron) : Bool := cron.cronId = cronId

abbrev PutTurn := Runtime × Turn Put (Except PyError (List Cron))

section Stages

variable (lib : CronLibrary) (s : Runtime) (frame : PutFrame) (reply : Reply)

def newCron (assistant : Assistant) (threadId : Option Uuid) (now nextRunDate : Time) : Cron :=
  { cronId := frame.cronId, assistantId := assistant.assistantId, threadId := threadId
    userId := frame.call.userId, endTime := frame.call.endTime, schedule := frame.call.schedule
    timezone := frame.call.timezone, payload := frame.payload, nextRunDate := nextRunDate
    metadata := frame.call.metadata.getD []
    onRunCompleted := if threadId.isSome then none
      else some (match frame.call.onRunCompleted with
        | none | some "" => "delete"
        | some choice => choice)
    enabled := frame.call.enabled, createdAt := now, updatedAt := now }

/-- The last part: the cron exists already, or it is made. -/
def Put.insert (assistant : Assistant) (threadId : Option Uuid) : PutTurn :=
  match s.crons.find? (byCronId frame.cronId) with
  | some existing =>
    attempt s (filtersAllow existing.metadata frame.filters) (fun allowed =>
      if allowed = false then returned s [] else returned s [existing])
  | none =>
    attempt s (lib.nextCronDate frame.call.schedule reply.now frame.call.timezone) (fun nextRunDate =>
      let cron := newCron frame assistant threadId reply.now nextRunDate
      returned { s with crons := s.crons ++ [cron] } [cron])

/-- The check of the assistant, and of the thread if one is named. -/
def Put.checkAssistant (assistantFilters : PyVal) : PutTurn :=
  match s.assistants.find? (fun assistant => assistant.assistantId.str = frame.assistantId) with
  | none => raised s (assistantNotFound frame.assistantId)
  | some assistant =>
    attempt s (filtersAllow assistant.metadata assistantFilters) (fun allowed =>
      if allowed = false then raised s (assistantNotFound frame.assistantId)
      else match frame.call.threadId with
        | none => Put.insert lib s frame reply assistant none
        | some threadId => (s, .suspended (.authorizingThread frame assistant threadId)))

/-- `Crons.put`: up to three handlers are awaited. The thread is looked up
after the last of them. -/
def Put.resume : Put → PutTurn
  | .called call =>
    let cronId := call.cronId.getD reply.fresh
    attempt s (payloadWithCronId (call.payload.getD []) cronId) (fun payload =>
      (s, .suspended (.authorizing ⟨call, cronId, payload, "", .none⟩)))
  | .authorizing frame =>
    attempt s reply.answer (fun filters =>
      if lib.isValid frame.call.schedule = false then raised s (invalidSchedule frame.call.schedule)
      else match frame.payload.get? "assistant_id" with
        | none => raised s .keyError
        | some named =>
          attempt s (lib.getAssistantId named) (fun assistantId =>
            let frame := { frame with
              payload := frame.payload.set "assistant_id" (.str assistantId)
              assistantId := assistantId
              filters := filters }
            if lib.systemAssistantIds.contains assistantId then Put.checkAssistant lib s frame reply (.list [])
            else (s, .suspended (.authorizingAssistant frame))))
  | .authorizingAssistant frame =>
    attempt s reply.answer (fun assistantFilters => Put.checkAssistant lib s frame reply assistantFilters)
  | .authorizingThread frame assistant threadId =>
    attempt s reply.answer (fun threadFilters =>
      match s.threads.find? (Threads.byId threadId) with
      | none => raised s (threadNotFound threadId)
      | some r =>
        attempt s (filtersAllow (s.threads.get r).metadata threadFilters) (fun allowed =>
          if allowed = false then raised s (threadNotFound threadId)
          else Put.insert lib s frame reply assistant (some threadId)))

/-- Whether a turn of `put` adds a cron bound to a thread, which it has just found. -/
inductive Put.Binds : Put → Uuid → Prop
  | found {frame assistant threadId r threadFilters nextRunDate} : reply.answer = .ok threadFilters →
      s.threads.find? (Threads.byId threadId) = some r →
      filtersAllow (s.threads.get r).metadata threadFilters = .ok true →
      s.crons.find? (byCronId frame.cronId) = none →
      lib.nextCronDate frame.call.schedule reply.now frame.call.timezone = .ok nextRunDate →
      Binds (.authorizingThread frame assistant threadId) threadId

/-- What a turn of `put` can do. -/
inductive Put.Effect (p : Put) : PutTurn → Prop
  | unchanged (turn) : Effect p (s, turn)
  | unbound {cron outcome} : cron.threadId = none →
      Effect p ({ s with crons := s.crons ++ [cron] }, .finished outcome)
  | bound {cron threadId outcome} : Put.Binds lib s reply p threadId → cron.threadId = some threadId →
      Effect p ({ s with crons := s.crons ++ [cron] }, .finished outcome)

variable {lib s frame reply}

theorem Put.insert_effect {p : Put} {assistant : Assistant} {threadId : Option Uuid}
    (binds : ∀ id nextRunDate, threadId = some id → s.crons.find? (byCronId frame.cronId) = none →
      lib.nextCronDate frame.call.schedule reply.now frame.call.timezone = .ok nextRunDate →
      Put.Binds lib s reply p id) :
    Put.Effect lib s reply p (Put.insert lib s frame reply assistant threadId) := by
  rw [insert]
  cases absent : s.crons.find? (byCronId frame.cronId) with
  | some existing =>
    dsimp only
    refine attempt_cases (fun e _ => .unchanged _) (fun allowed _ => ?_)
    split <;> exact .unchanged _
  | none =>
    dsimp only
    refine attempt_cases (fun e _ => .unchanged _) (fun nextRunDate dated => ?_)
    cases threadId with
    | none => exact .unbound rfl
    | some id => exact .bound (binds id nextRunDate rfl absent dated) rfl

theorem Put.checkAssistant_effect {p : Put} (assistantFilters : PyVal) :
    Put.Effect lib s reply p (Put.checkAssistant lib s frame reply assistantFilters) := by
  rw [checkAssistant]
  cases s.assistants.find? (fun assistant => assistant.assistantId.str = frame.assistantId) with
  | none => exact .unchanged _
  | some assistant =>
    dsimp only
    refine attempt_cases (fun e _ => .unchanged _) (fun allowed _ => ?_)
    split
    · exact .unchanged _
    · cases frame.call.threadId with
      | none => exact insert_effect (by simp)
      | some threadId => exact .unchanged _

theorem Put.effect (lib : CronLibrary) (s : Runtime) (p : Put) (reply : Reply) :
    Put.Effect lib s reply p (Put.resume lib s reply p) := by
  cases p with
  | called call =>
    rw [resume]
    exact attempt_cases (fun e _ => .unchanged _) (fun payload _ => .unchanged _)
  | authorizing frame =>
    rw [resume]
    refine attempt_cases (fun e _ => .unchanged _) (fun filters _ => ?_)
    split
    · exact .unchanged _
    · cases frame.payload.get? "assistant_id" with
      | none => exact .unchanged _
      | some named =>
        dsimp only
        refine attempt_cases (fun e _ => .unchanged _) (fun assistantId _ => ?_)
        split
        · exact checkAssistant_effect _
        · exact .unchanged _
  | authorizingAssistant frame =>
    rw [resume]
    exact attempt_cases (fun e _ => .unchanged _) (fun assistantFilters _ => checkAssistant_effect _)
  | authorizingThread frame assistant threadId =>
    rw [resume]
    refine attempt_cases (fun e _ => .unchanged _) (fun threadFilters answer => ?_)
    cases found : s.threads.find? (Threads.byId threadId) with
    | none => exact .unchanged _
    | some r =>
      dsimp only
      refine attempt_cases (fun e _ => .unchanged _) (fun allowed verdict => ?_)
      cases allowed with
      | false => exact .unchanged _
      | true =>
        refine insert_effect (fun id nextRunDate same absent dated => ?_)
        cases same
        exact .found answer found verdict absent dated

end Stages

end Crons

end InmemRuntime
