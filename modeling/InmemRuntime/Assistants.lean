import InmemRuntime.Lib.Serial
import InmemRuntime.RunsPut

namespace InmemRuntime

/-- The six fields that an assistant and its versions share. -/
structure VersionedFields where
  graphId : String
  config : PyDict
  context : PyVal
  metadata : PyDict
  name : String
  description : Option String
deriving Inhabited

/-- A record of `store["assistants"]` with all its fields; the runs read of it
what `Assistant` has. -/
structure AssistantRecord extends VersionedFields where
  assistantId : Uuid
  version : Int
  createdAt : Time
  updatedAt : Time
deriving Inhabited

/-- A row of `store["assistant_versions"]`. -/
structure AssistantVersion extends VersionedFields where
  assistantId : Uuid
  version : Int
  createdAt : Time

/-- The two lists of the global store that the assistants are kept in. -/
structure AssistantTables where
  assistants : Table AssistantRecord
  versions : List AssistantVersion
deriving Inhabited

namespace Assistants

abbrev Outcome := AssistantTables × Except PyError (List AssistantRecord)

def noTables : AssistantTables := ⟨.empty, []⟩

def byId (assistantId : Uuid) (assistant : AssistantRecord) : Bool := assistant.assistantId = assistantId

def alreadyExists (assistantId : Uuid) : PyError := .http 409 s!"Assistant {assistantId.str} already exists"

def notFound (assistantId : Uuid) : PyError := .http 404 s!"Assistant {assistantId.str} not found"

def versionNotFound (assistantId : Uuid) (version : Int) : PyError :=
  .http 404 s!"Version {version} not found for assistant {assistantId.str}"

def cannotSpecifyBoth : PyError :=
  .http 400 ("Cannot specify both configurable and context. Prefer setting context alone. Context was introduced " ++
    "in LangGraph 0.6.0 and is the long term planned replacement for configurable.")

/-- `value or {}` -/
def orEmpty (value : PyVal) : PyVal := if value.truthy then value else .dict []

/-- `config.get("configurable")` -/
def configurable (config : PyDict) : PyVal := (config.get? "configurable").getD .none

/-- "Keep config and context up to date with one another": the arguments after
the check that not both are given. -/
def keepUpToDate (config : PyDict) (context : PyVal) : PyDict × PyVal :=
  if (configurable config).truthy then (config, configurable config)
  else if context.truthy then (config.set "configurable" context, context)
  else (config, context)

/-- What the operations end with where they find nothing they may work on. -/
def guarded (t : AssistantTables) (assistantId : Uuid) (filters : PyVal) (missing : PyError)
    (next : Nat → Outcome) : Outcome :=
  match t.assistants.find? (byId assistantId) with
  | none => (t, .error missing)
  | some r =>
    match filtersAllow (t.assistants.get r).metadata filters with
    | .error e => (t, .error e)
    | .ok false => (t, .error missing)
    | .ok true => next r

structure PutCall where
  assistantId : Uuid
  graphId : String
  config : PyDict
  context : PyVal
  metadata : Option PyDict
  ifExists : Threads.OnConflictBehavior
  name : String
  description : Option String

/-- The six fields that `put` stores. -/
def PutCall.fields (call : PutCall) : VersionedFields where
  graphId := call.graphId
  config := (keepUpToDate call.config call.context).1
  context := orEmpty (keepUpToDate call.config call.context).2
  metadata := call.metadata.getD []
  name := call.name
  description := call.description

def create (t : AssistantTables) (assistantId : Uuid) (fields : VersionedFields) (now : Time) : AssistantTables :=
  ⟨t.assistants.append { fields with assistantId := assistantId, version := 1, createdAt := now, updatedAt := now },
    t.versions ++ [{ fields with assistantId := assistantId, version := 1, createdAt := now }]⟩

structure PatchCall where
  assistantId : Uuid
  config : Option PyDict
  context : PyVal
  graphId : Option String
  metadata : Option PyDict
  name : Option String
  description : Option String

def PatchCall.configOrEmpty (call : PatchCall) : PyDict := call.config.getD []

/-- `context if context is not None else assistant.get("context", {})` -/
def orStored (context stored : PyVal) : PyVal :=
  match context with
  | .none => stored
  | given => given

/-- The six fields of `new_version_entry`. -/
def PatchCall.fields (call : PatchCall) (assistant : AssistantRecord) : VersionedFields where
  graphId := call.graphId.getD assistant.graphId
  config :=
    if (keepUpToDate call.configOrEmpty call.context).1 = [] then assistant.config
    else (keepUpToDate call.configOrEmpty call.context).1
  context := orStored (keepUpToDate call.configOrEmpty call.context).2 assistant.context
  metadata := PyDict.update assistant.metadata (call.metadata.getD [])
  name := call.name.getD assistant.name
  description := call.description.or assistant.description

/-- The version numbers in the rows of an assistant. -/
def versionsOf (t : AssistantTables) (assistantId : Uuid) : List Int :=
  (t.versions.filter (fun row => row.assistantId = assistantId)).map AssistantVersion.version

/-- `max(...) + 1 if conn.store["assistant_versions"] else 1` -/
def nextVersion (t : AssistantTables) (assistantId : Uuid) : Except PyError Int :=
  if t.versions = [] then .ok 1
  else match (versionsOf t assistantId).max? with
    | none => .error (.valueError "max() iterable argument is empty")
    | some newest => .ok (newest + 1)

/-- `assistant.update(...)` with the fields of a version. -/
def AssistantRecord.take (fields : VersionedFields) (version : Int) (now : Time) (assistant : AssistantRecord) :
    AssistantRecord :=
  { assistant with toVersionedFields := fields, version := version, updatedAt := now }

/-- What `set_latest` writes, of the six fields four. -/
def AssistantRecord.restore (row : AssistantVersion) (now : Time) (assistant : AssistantRecord) : AssistantRecord :=
  { assistant with
    config := row.config
    metadata := row.metadata
    version := row.version
    updatedAt := now
    name := row.name
    description := row.description }

section Operations

variable (assertGraphExists : String → Except PyError Unit) (t : AssistantTables)

/-- `Assistants.put` once the handler has answered with its filters. -/
def put (call : PutCall) (filters : PyVal) (now : Time) : Outcome :=
  if (configurable call.config).truthy ∧ call.context.truthy then (t, .error cannotSpecifyBoth)
  else match assertGraphExists call.graphId with
    | .error e => (t, .error e)
    | .ok () =>
      match t.assistants.find? (byId call.assistantId) with
      | some r =>
        match filtersAllow (t.assistants.get r).metadata filters with
        | .error e => (t, .error e)
        | .ok false => (t, .error (alreadyExists call.assistantId))
        | .ok true =>
          match call.ifExists with
          | .raise => (t, .error (alreadyExists call.assistantId))
          | .doNothing => (t, .ok [t.assistants.get r])
      | none =>
        let created := create t call.assistantId call.fields now
        (created, .ok [created.assistants.get t.assistants.size])

/-- The end of `patch`, on the record found. -/
def patchRecord (call : PatchCall) (r : Nat) (now : Time) : Outcome :=
  match nextVersion t call.assistantId with
  | .error e => (t, .error e)
  | .ok version =>
    let fields := call.fields (t.assistants.get r)
    let assistants := t.assistants.update r (AssistantRecord.take fields version now)
    (⟨assistants, t.versions ++
        [{ fields with assistantId := call.assistantId, version := version, createdAt := now }]⟩,
      .ok [assistants.get r])

/-- `Assistants.patch` -/
def patch (call : PatchCall) (filters : PyVal) (now : Time) : Outcome :=
  if (configurable call.configOrEmpty).truthy ∧ call.context.truthy then (t, .error cannotSpecifyBoth)
  else match call.graphId.elim (.ok ()) assertGraphExists with
    | .error e => (t, .error e)
    | .ok () => guarded t call.assistantId filters (notFound call.assistantId) (fun r => patchRecord t call r now)

/-- `Assistants.set_latest` -/
def setLatest (assistantId : Uuid) (version : Int) (filters : PyVal) (now : Time) : Outcome :=
  guarded t assistantId filters (notFound assistantId) (fun r =>
    match t.versions.find? (fun row => row.assistantId = assistantId && row.version = version) with
    | none => (t, .error (versionNotFound assistantId version))
    | some row =>
      let assistants := t.assistants.update r (AssistantRecord.restore row now)
      ({ t with assistants := assistants }, .ok [assistants.get r]))

/-- `Assistants.delete`: `cascade` is what the deletions of threads and
`Runs.cancel`, which touch neither list, end with. -/
def delete (assistantId : Uuid) (cascade : Except PyError Unit) (filters : PyVal) : Outcome :=
  guarded t assistantId filters (.http 404 s!"Assistant with ID {assistantId.str} not found") (fun _ =>
    match cascade with
    | .error e => (t, .error e)
    | .ok () =>
      (⟨t.assistants.keep (fun assistant => assistant.assistantId ≠ assistantId),
        t.versions.filter (fun row => row.assistantId ≠ assistantId)⟩, .ok []))

end Operations

/-- `a["metadata"].get("created_by") == "system"` -/
def isSystem (assistant : AssistantRecord) : Bool :=
  ((assistant.metadata.get? "created_by").getD .none).pyEq (.str "system")

/-- `GlobalStore.clear` -/
def clear (t : AssistantTables) : AssistantTables := ⟨t.assistants.keep isSystem, []⟩

/-- `list.remove(a)`. No other record equals `a`, as no two have one id. -/
def remove (assistants : Table AssistantRecord) (r : Nat) : Table AssistantRecord :=
  match assistants.rows.findIdx? (fun row => row = r) with
  | none => assistants
  | some i => assistants.pop i

/-- The loop of `start_pool` from position `i` on. A removal moves the list up
under the loop, which passes over the record that takes the place. -/
def removeSystem : Nat → Nat → Table AssistantRecord → Table AssistantRecord
  | 0, _, assistants => assistants
  | steps + 1, i, assistants =>
    match assistants.rows[i]? with
    | none => assistants
    | some r => removeSystem steps (i + 1) (if isSystem (assistants.get r) then remove assistants r else assistants)

/-- `start_pool` on what has been loaded. -/
def startPool (t : AssistantTables) : AssistantTables :=
  { t with assistants := removeSystem t.assistants.rows.length 0 t.assistants }

inductive Call where
  | put (call : PutCall)
  | patch (call : PatchCall)
  | setLatest (assistantId : Uuid) (version : Int)
  | delete (assistantId : Uuid) (cascade : Except PyError Unit)

/-- A call whose handler gives the answer of `reply`. -/
def Call.run (assertGraphExists : String → Except PyError Unit) (t : AssistantTables) (call : Call) (reply : Reply) :
    Outcome :=
  match reply.answer with
  | .error e => (t, .error e)
  | .ok filters =>
    match call with
    | .put call => Assistants.put assertGraphExists t call filters reply.now
    | .patch call => Assistants.patch assertGraphExists t call filters reply.now
    | .setLatest assistantId version => Assistants.setLatest t assistantId version filters reply.now
    | .delete assistantId cascade => Assistants.delete t assistantId cascade filters

/-- What a call can do to the tables. -/
inductive Effect (t : AssistantTables) (now : Time) : Call → Outcome → Prop
  | unchanged (call outcome) : Effect t now call (t, outcome)
  | created {call} : t.assistants.find? (byId call.assistantId) = none →
      Effect t now (.put call) (create t call.assistantId call.fields now,
        .ok [(create t call.assistantId call.fields now).assistants.get t.assistants.size])
  | patched {call r version} : t.assistants.find? (byId call.assistantId) = some r →
      nextVersion t call.assistantId = .ok version →
      Effect t now (.patch call)
        (⟨t.assistants.update r (AssistantRecord.take (call.fields (t.assistants.get r)) version now), t.versions ++
            [{ call.fields (t.assistants.get r) with
              assistantId := call.assistantId, version := version, createdAt := now }]⟩,
          .ok [(t.assistants.update r (AssistantRecord.take (call.fields (t.assistants.get r)) version now)).get r])
  | restored {assistantId version r row} : t.assistants.find? (byId assistantId) = some r →
      t.versions.find? (fun row => row.assistantId = assistantId && row.version = version) = some row →
      Effect t now (.setLatest assistantId version)
        ({ t with assistants := t.assistants.update r (AssistantRecord.restore row now) },
          .ok [(t.assistants.update r (AssistantRecord.restore row now)).get r])
  | deleted {assistantId cascade} :
      Effect t now (.delete assistantId cascade)
        (⟨t.assistants.keep (fun assistant => assistant.assistantId ≠ assistantId),
          t.versions.filter (fun row => row.assistantId ≠ assistantId)⟩, .ok [])

theorem guarded_cases {t : AssistantTables} {assistantId : Uuid} {filters : PyVal} {missing : PyError}
    {next : Nat → Outcome} {P : Outcome → Prop} (unchanged : ∀ outcome, P (t, outcome))
    (found : ∀ r, t.assistants.find? (byId assistantId) = some r → P (next r)) :
    P (guarded t assistantId filters missing next) := by
  unfold guarded
  cases search : t.assistants.find? (byId assistantId) with
  | none => exact unchanged _
  | some r =>
    dsimp only
    split
    · exact unchanged _
    · exact unchanged _
    · exact found r search

theorem Call.effect (assertGraphExists : String → Except PyError Unit) (t : AssistantTables) (call : Call)
    (reply : Reply) : Effect t reply.now call (call.run assertGraphExists t reply) := by
  unfold Call.run
  cases reply.answer with
  | error e => exact .unchanged _ _
  | ok filters =>
    cases call with
    | put call =>
      dsimp only [Assistants.put]
      split
      · exact .unchanged _ _
      · split
        · exact .unchanged _ _
        · split
          · split
            · exact .unchanged _ _
            · exact .unchanged _ _
            · split <;> exact .unchanged _ _
          · rename_i search
            exact .created search
    | patch call =>
      dsimp only [Assistants.patch]
      split
      · exact .unchanged _ _
      · split
        · exact .unchanged _ _
        · refine guarded_cases (fun outcome => .unchanged _ _) (fun r search => ?_)
          unfold patchRecord
          split
          · exact .unchanged _ _
          · rename_i version next
            exact .patched search next
    | setLatest assistantId version =>
      refine guarded_cases (fun outcome => .unchanged _ _) (fun r search => ?_)
      dsimp only
      split
      · exact .unchanged _ _
      · rename_i row found
        exact .restored search found
    | delete assistantId cascade =>
      refine guarded_cases (fun outcome => .unchanged _ _) (fun r search => ?_)
      cases cascade with
      | error e => exact .unchanged _ _
      | ok => exact .deleted

end Assistants

end InmemRuntime
