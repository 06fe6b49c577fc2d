import InmemRuntime.AssistantVersions

namespace InmemRuntime

namespace Assistants

/-- `config.get("configurable", {})` -/
def configurableOrEmpty (config : PyDict) : PyVal := (config.get? "configurable").getD (.dict [])

/-- Config and context are up to date with one another. -/
def Synced (fields : VersionedFields) : Prop := configurableOrEmpty fields.config = fields.context

def AllSynced (t : AssistantTables) : Prop :=
  (∀ assistant ∈ t.assistants.values, Synced assistant.toVersionedFields) ∧ ∀ row ∈ t.versions, Synced row.toVersionedFields

/-- A configurable or a context that is not empty is given. -/
def given (config : PyDict) (context : PyVal) : Bool := (configurable config).truthy || context.truthy

theorem keepUpToDate_given {config : PyDict} {context : PyVal} (some' : given config context = true) :
    configurableOrEmpty (keepUpToDate config context).1 = (keepUpToDate config context).2 ∧
      (keepUpToDate config context).2.truthy = true ∧ (keepUpToDate config context).1 ≠ [] := by
  unfold keepUpToDate
  by_cases inConfig : (configurable config).truthy = true
  · rw [if_pos inConfig]
    cases stored : config.get? "configurable" with
    | none =>
      rw [configurable, stored] at inConfig
      cases inConfig
    | some value =>
      refine ⟨by rw [configurableOrEmpty, configurable, stored]; rfl, inConfig, fun empty => ?_⟩
      have empty' : config = [] := empty
      rw [empty'] at stored
      cases stored
  · have inContext : context.truthy = true := by simpa [given, inConfig] using some'
    rw [if_neg inConfig, if_pos inContext]
    refine ⟨?_, inContext, PyDict.set_ne_nil _ _ _⟩
    show ((config.set "configurable" context).get? "configurable").getD _ = context
    rw [PyDict.get?_set_self]
    rfl

theorem keepUpToDate_not_given {config : PyDict} {context : PyVal} (none : given config context = false) :
    keepUpToDate config context = (config, context) := by
  obtain ⟨noConfig, noContext⟩ := Bool.or_eq_false_iff.mp none
  simp [keepUpToDate, noConfig, noContext]

/-- `put` is given one of the two, or a config without an entry, or with an empty one. -/
def PutCall.KeepsContext (call : PutCall) : Prop :=
  given call.config call.context = true ∨ configurableOrEmpty call.config = .dict []

/-- `patch` is given one of the two, or neither; else an empty one has to meet
what the assistant has. -/
def PatchCall.KeepsContext (call : PatchCall) (assistant : AssistantRecord) : Prop :=
  given call.configOrEmpty call.context = true ∨
    (call.configOrEmpty = [] ∧ (call.context = .none ∨ call.context = assistant.context)) ∨
    (call.configOrEmpty ≠ [] ∧ configurableOrEmpty call.configOrEmpty = orStored call.context assistant.context)

theorem PutCall.fields_synced (call : PutCall) : Synced call.fields ↔ call.KeepsContext := by
  unfold Synced KeepsContext PutCall.fields
  cases some' : given call.config call.context with
  | true =>
    obtain ⟨synced, truthy, _⟩ := keepUpToDate_given some'
    simp [orEmpty, truthy, synced]
  | false =>
    have noContext : call.context.truthy = false := (Bool.or_eq_false_iff.mp some').2
    simp [keepUpToDate_not_given some', orEmpty, noContext]

theorem PatchCall.fields_synced (call : PatchCall) {assistant : AssistantRecord} (synced : Synced assistant.toVersionedFields) :
    Synced (call.fields assistant) ↔ call.KeepsContext assistant := by
  unfold Synced KeepsContext PatchCall.fields
  cases some' : given call.configOrEmpty call.context with
  | true =>
    obtain ⟨fresh, truthy, nonempty⟩ := keepUpToDate_given some'
    have kept : orStored (keepUpToDate call.configOrEmpty call.context).2 assistant.context =
        (keepUpToDate call.configOrEmpty call.context).2 := by
      unfold orStored
      split
      · rename_i none
        rw [none] at truthy
        cases truthy
      · rfl
    simp [nonempty, kept, fresh]
  | false =>
    rw [keepUpToDate_not_given some']
    by_cases empty : call.configOrEmpty = []
    · have stored : configurableOrEmpty assistant.config = assistant.context := synced
      simp only [empty, if_true, stored, Bool.false_eq_true, false_or, true_and, ne_eq, not_true, false_and, or_false]
      cases call.context with
      | none => simp [orStored]
      | _ => simp [orStored, eq_comm]
    · simp [empty]

/-- The calls that keep config and context up to date with one another. -/
def KeepsContext (t : AssistantTables) (call : Call × Reply) : Prop :=
  match call.1 with
  | .put call => call.KeepsContext
  | .patch call => ∀ r, t.assistants.find? (byId call.assistantId) = some r → call.KeepsContext (t.assistants.get r)
  | .setLatest assistantId version => ∀ r, t.assistants.find? (byId assistantId) = some r →
      ∀ row ∈ t.versions, row.assistantId = assistantId → row.version = version →
        row.context = (t.assistants.get r).context
  | .delete _ _ => True

theorem AllSynced.effect {t : AssistantTables} {call : Call} {reply : Reply} {out : Outcome} (synced : AllSynced t)
    (effect : Effect t reply.now call out) (keeps : KeepsContext t (call, reply)) : AllSynced out.1 := by
  obtain ⟨assistants, versions⟩ := synced
  cases effect with
  | unchanged => exact ⟨assistants, versions⟩
  | @created put missing =>
    have fields : Synced put.fields := put.fields_synced.mpr keeps
    constructor
    · intro assistant member
      rw [create, Table.append_values] at member
      rcases List.mem_append.mp member with old | new
      · exact assistants assistant old
      · rw [List.mem_singleton.mp new]
        exact fields
    · intro row member
      rcases List.mem_append.mp member with old | new
      · exact versions row old
      · rw [List.mem_singleton.mp new]
        exact fields
  | @patched patch r version found next =>
    have fields : Synced (patch.fields (t.assistants.get r)) :=
      (patch.fields_synced (assistants _ (find?_byId found).1)).mpr (keeps r found)
    constructor
    · intro assistant member
      rcases Table.mem_update_values member with old | ⟨_, rfl⟩
      · exact assistants assistant old
      · exact fields
    · intro row member
      rcases List.mem_append.mp member with old | new
      · exact versions row old
      · rw [List.mem_singleton.mp new]
        exact fields
  | @restored assistantId version r row found ofVersion =>
    obtain ⟨inside, ofId, atVersion⟩ := find?_row ofVersion
    refine ⟨fun assistant member => ?_, versions⟩
    rcases Table.mem_update_values member with old | ⟨_, rfl⟩
    · exact assistants assistant old
    · have same : row.context = (t.assistants.get r).context := keeps r found row inside ofId atVersion
      show configurableOrEmpty row.config = (t.assistants.get r).context
      rw [← same]
      exact versions row inside
  | deleted =>
    refine ⟨fun assistant member => ?_, fun row member => versions row (List.mem_filter.mp member).1⟩
    rw [Table.keep_values] at member
    exact assistants assistant (List.mem_filter.mp member).1

/-- In a run of such calls every assistant and every version has the
configurable of its config as its context. -/
theorem configs_follow_contexts {assertGraphExists : String → Except PyError Unit} {t : AssistantTables}
    (reach : Serial (after assertGraphExists) KeepsContext noTables t) : AllSynced t := by
  refine reach.invariant (P := AllSynced) ⟨fun assistant member => absurd member List.not_mem_nil,
    fun row member => absurd member List.not_mem_nil⟩ (fun {t call} synced met => ?_)
  exact synced.effect (call.1.effect assertGraphExists t call.2) met

section Empty

def someContext : PyVal := .dict [("model", .str "small")]

/-- An empty context replaces the context, and leaves the config as it was. -/
theorem patch_empties_context :
    ¬ ∀ (assertGraphExists : String → Except PyError Unit) (t : AssistantTables),
      Serial (after assertGraphExists) (fun _ _ => True) noTables t → AllSynced t := by
  intro all
  have begun : Serial (after anyGraph) (fun _ _ => True) noTables noTables := .start
  have reach := (begun.next (putFirst [] someContext) trivial).next (patchFirst (.dict []) none none) trivial
  have synced := (all anyGraph _ reach).1 _ (List.mem_singleton_self _)
  have same : someContext = .dict [] := synced
  exact absurd (PyVal.dict.inj same) (by simp)

/-- Another context replaces both. -/
theorem configs_follow_contexts_replaced :
    ∃ t, AllSynced t ∧ t.versions.map (fun row => row.context) = [someContext, .dict [("model", .str "large")]] := by
  have begun : Serial (after anyGraph) KeepsContext noTables noTables := .start
  have made := begun.next (putFirst [] someContext) (Or.inl rfl)
  have replaced := made.next (patchFirst (.dict [("model", .str "large")]) none none) (fun r _ => Or.inl rfl)
  exact ⟨_, configs_follow_contexts replaced, rfl⟩

end Empty

end Assistants

end InmemRuntime
