import InmemRuntime.Assistants
import InmemRuntime.ThreadSearch

namespace InmemRuntime

/-- `sort_by.lower() if sort_by else None` -/
def loweredSort (lower : String → String) (sortBy : Option String) : Option String :=
  (sortBy.filter (fun name => name ≠ "")).map lower

namespace Assistants

structure AssistantFilter where
  graphId : Option String
  name : Option String
  metadata : PyDict

structure SearchCall extends AssistantFilter where
  limit : Nat
  offset : Nat
  sortBy : Option String
  sortOrder : Option String

inductive SortField where
  | assistantId
  | graphId
  | name
  | createdAt
  | updatedAt
deriving DecidableEq

def SortField.text : SortField → String
  | .assistantId => "assistant_id"
  | .graphId => "graph_id"
  | .name => "name"
  | .createdAt => "created_at"
  | .updatedAt => "updated_at"

def SortField.all : List SortField := [.assistantId, .graphId, .name, .createdAt, .updatedAt]

section Search

-- `lower` and `upper` are the methods of `str`.
variable (lower upper : String → String) (assertGraphExists : String → Except PyError Unit)

/-- `str(text).lower() if text else ""` -/
def textKey (text : String) : String := if text = "" then "" else lower text

/-- The order of two records by a field. -/
def SortField.le : SortField → AssistantRecord → AssistantRecord → Bool
  | .assistantId, a, b => a.assistantId.bits ≤ b.assistantId.bits
  | .graphId, a, b => textKey lower a.graphId ≤ textKey lower b.graphId
  | .name, a, b => textKey lower a.name ≤ textKey lower b.name
  | .createdAt, a, b => a.createdAt ≤ b.createdAt
  | .updatedAt, a, b => a.updatedAt ≤ b.updatedAt

/-- The field that `sort_by` names. -/
def SearchCall.field? (call : SearchCall) : Option SortField :=
  (loweredSort lower call.sortBy).bind (fun name => SortField.all.find? (fun field => field.text = name))

/-- The condition that `search` and `count` have alike. -/
def AssistantFilter.allows (f : AssistantFilter) (filters : PyVal) (assistant : AssistantRecord) : Except PyError Bool :=
  if !(f.graphId.all (fun graphId => graphId = "" || assistant.graphId = graphId)) then .ok false
  else if !(f.name.all (fun name => name = "" || PyVal.isSubstring (lower name) (lower assistant.name))) then .ok false
  else if !(f.metadata.isEmpty || isJsonbContained assistant.metadata f.metadata) then .ok false
  else filtersAllow assistant.metadata filters

def assertGraph (graphId : Option String) : Except PyError Unit := graphId.elim (.ok ()) assertGraphExists

def sortAssistants (call : SearchCall) (assistants : List AssistantRecord) : List AssistantRecord :=
  match call.field? lower with
  | some field => sortedBy (field.le lower) (isReverse upper call.sortOrder) assistants
  | none => sortedBy (SortField.createdAt.le lower) true assistants

/-- `Assistants.search` after the handler: the page that the iterator yields, and the cursor. -/
def searchWith (assistants : List AssistantRecord) (call : SearchCall) (filters : PyVal) :
    Except PyError (Page AssistantRecord) := do
  assertGraph assertGraphExists call.graphId
  let filtered ← keepOk (call.allows lower filters) assistants
  .ok (Page.cut (sortAssistants lower upper call filtered) call.limit call.offset)

/-- `Assistants.count` after the handler. -/
def countWith (assistants : List AssistantRecord) (f : AssistantFilter) (filters : PyVal) : Except PyError Nat := do
  assertGraph assertGraphExists f.graphId
  countOk (f.allows lower filters) assistants

end Search

end Assistants

namespace Crons

structure CronFilter where
  assistantId : Option Uuid
  threadId : Option Uuid
  metadata : PyDict

structure SearchCall extends CronFilter where
  enabled : Option Bool
  limit : Nat
  offset : Nat
  sortBy : Option String
  sortOrder : Option String

inductive SortField where
  | cronId
  | assistantId
  | threadId
  | nextRunDate
  | endTime
  | createdAt
  | updatedAt
deriving DecidableEq

def SortField.text : SortField → String
  | .cronId => "cron_id"
  | .assistantId => "assistant_id"
  | .threadId => "thread_id"
  | .nextRunDate => "next_run_date"
  | .endTime => "end_time"
  | .createdAt => "created_at"
  | .updatedAt => "updated_at"

def SortField.all : List SortField := [.cronId, .assistantId, .threadId, .nextRunDate, .endTime, .createdAt, .updatedAt]

section Search

variable (lower upper : String → String)

/-- The order of two records by a field. A date that is missing comes first. -/
def SortField.le : SortField → Cron → Cron → Bool
  | .cronId, a, b => lower a.cronId.str ≤ lower b.cronId.str
  | .assistantId, a, b => lower a.assistantId.str ≤ lower b.assistantId.str
  | .threadId, a, b => lower (Runs.strOrNone a.threadId) ≤ lower (Runs.strOrNone b.threadId)
  | .nextRunDate, a, b => a.nextRunDate ≤ b.nextRunDate
  | .endTime, a, b => a.endTime.getD minTime ≤ b.endTime.getD minTime
  | .createdAt, a, b => a.createdAt ≤ b.createdAt
  | .updatedAt, a, b => a.updatedAt ≤ b.updatedAt

def SearchCall.field? (call : SearchCall) : Option SortField :=
  (loweredSort lower call.sortBy).bind (fun name => SortField.all.find? (fun field => field.text = name))

/-- The first pass. `count` has no `enabled`. -/
def CronFilter.allows (f : CronFilter) (enabled : Option Bool) (filters : PyVal) (cron : Cron) : Except PyError Bool :=
  if !(f.assistantId.all (fun assistantId => cron.assistantId.str = assistantId.str)) then .ok false
  else if !(f.threadId.all (fun threadId => Runs.strOrNone cron.threadId = threadId.str)) then .ok false
  else if !(enabled.all (fun enabled => cron.enabled = enabled)) then .ok false
  else if !(f.metadata.isEmpty || isJsonbContained cron.metadata f.metadata) then .ok false
  else filtersAllow cron.metadata filters

/-- The second pass. Of threads with one id the dict has the last. -/
def allowsThread (threads : List Thread) (threadFilters : PyVal) (cron : Cron) : Except PyError Bool :=
  match cron.threadId with
  | none => .ok true
  | some threadId =>
    let matching := threads.reverse.find? (fun thread => thread.threadId.str = threadId.str)
    checkFilterMatch (matching.elim [] Thread.metadata) threadFilters

def filterCrons (s : Runtime) (f : CronFilter) (enabled : Option Bool) (filters threadFilters : PyVal) :
    Except PyError (List Cron) := do
  let filtered ← keepOk (f.allows enabled filters) s.crons
  if threadFilters.truthy then keepOk (allowsThread s.threads.values threadFilters) filtered else .ok filtered

def invalidSort (sortBy : String) : PyError :=
  .http 422 (s!"Invalid sort_by field: '{sortBy}'. Valid options are: cron_id, assistant_id, thread_id, " ++
    "next_run_date, end_time, created_at, updated_at")

def sortCrons (call : SearchCall) (crons : List Cron) : Except PyError (List Cron) :=
  match call.field? lower, loweredSort lower call.sortBy with
  | some field, _ => .ok (sortedBy (field.le lower) (isReverse upper call.sortOrder) crons)
  | none, none => .ok (sortedBy (SortField.createdAt.le lower) true crons)
  | none, some sortBy => .error (invalidSort sortBy)

/-- `Crons.search` after its two handlers. -/
def searchWith (s : Runtime) (call : SearchCall) (filters threadFilters : PyVal) : Except PyError (Page Cron) := do
  let filtered ← filterCrons s call.toCronFilter call.enabled filters threadFilters
  let sorted ← sortCrons lower upper call filtered
  .ok (Page.cutAhead sorted call.limit call.offset)

/-- `Crons.count` after its two handlers. -/
def countWith (s : Runtime) (f : CronFilter) (filters threadFilters : PyVal) : Except PyError Nat := do
  let filtered ← filterCrons s f none filters threadFilters
  .ok filtered.length

end Search

end Crons

end InmemRuntime
