import InmemRuntime.Assistants
import Mathlib.Data.List.MinMax

namespace InmemRuntime

namespace Assistants

section Rows

variable {t : AssistantTables}

def VersionsUnique (t : AssistantTables) : Prop := (t.versions.map (fun row => (row.assistantId, row.version))).Nodup

/-- Every assistant has the row of its current version, with its own six fields. -/
def HasOwnVersion (t : AssistantTables) : Prop :=
  ∀ assistant ∈ t.assistants.values, ∃ row ∈ t.versions, row.assistantId = assistant.assistantId ∧
    row.version = assistant.version ∧ row.toVersionedFields = assistant.toVersionedFields

/-- No row is left over from an assistant that is gone. -/
def RowsOwned (t : AssistantTables) : Prop :=
  ∀ row ∈ t.versions, ∃ assistant ∈ t.assistants.values, assistant.assistantId = row.assistantId

theorem VersionsUnique.row_eq (unique : VersionsUnique t) {row row' : AssistantVersion} (one : row ∈ t.versions)
    (other : row' ∈ t.versions) (sameId : row.assistantId = row'.assistantId) (sameVersion : row.version = row'.version) :
    row = row' :=
  List.inj_on_of_nodup_map unique one other (Prod.ext sameId sameVersion)

theorem VersionsUnique.append (unique : VersionsUnique t) {row : AssistantVersion}
    (fresh : ∀ old ∈ t.versions, old.assistantId = row.assistantId → old.version ≠ row.version)
    (assistants : Table AssistantRecord) : VersionsUnique ⟨assistants, t.versions ++ [row]⟩ := by
  rw [VersionsUnique, List.map_append, List.nodup_append]
  refine ⟨unique, List.nodup_singleton _, fun key old key' new same => ?_⟩
  obtain ⟨row', member, rfl⟩ := List.mem_map.mp old
  rw [List.mem_singleton.mp new] at same
  exact fresh row' member (Prod.mk.inj same).1 (Prod.mk.inj same).2

/-- The next version is greater than all that the assistant has. -/
theorem lt_nextVersion {assistantId : Uuid} {version : Int} (next : nextVersion t assistantId = .ok version)
    {row : AssistantVersion} (member : row ∈ t.versions) (own : row.assistantId = assistantId) : row.version < version := by
  unfold nextVersion at next
  split at next
  · rename_i none
    rw [none] at member
    cases member
  · split at next
    · cases next
    · rename_i newest isMax
      cases next
      have inside : row.version ∈ versionsOf t assistantId :=
        List.mem_map_of_mem (List.mem_filter.mpr ⟨member, by simpa using own⟩)
      have below := (List.max?_eq_some_iff.mp isMax).2 row.version inside
      omega

theorem find?_byId {assistantId : Uuid} {r : Nat} (found : t.assistants.find? (byId assistantId) = some r) :
    t.assistants.get r ∈ t.assistants.values ∧ (t.assistants.get r).assistantId = assistantId :=
  ⟨Table.mem_values.mpr ⟨r, Table.find?_mem found, rfl⟩, by simpa [byId] using Table.find?_passes found⟩

theorem find?_row {assistantId : Uuid} {version : Int} {row : AssistantVersion}
    (found : t.versions.find? (fun row => row.assistantId = assistantId && row.version = version) = some row) :
    row ∈ t.versions ∧ row.assistantId = assistantId ∧ row.version = version := by
  have passes := List.find?_some found
  simp only [Bool.and_eq_true, decide_eq_true_eq] at passes
  exact ⟨List.mem_of_find?_eq_some found, passes⟩

end Rows

/-- What `set_latest` leaves of the assistant's is what the row has. -/
def Agrees (row : AssistantVersion) (assistant : AssistantRecord) : Prop :=
  row.graphId = assistant.graphId ∧ row.context = assistant.context

/-- A rollback goes to a version with the graph and the context that the assistant has. -/
def RestoresAll (t : AssistantTables) (call : Call × Reply) : Prop :=
  match call.1 with
  | .setLatest assistantId version => ∀ r, t.assistants.find? (byId assistantId) = some r →
      ∀ row ∈ t.versions, row.assistantId = assistantId → row.version = version → Agrees row (t.assistants.get r)
  | _ => True

theorem restore_fields (row : AssistantVersion) (now : Time) (assistant : AssistantRecord) :
    (AssistantRecord.restore row now assistant).toVersionedFields = row.toVersionedFields ↔ Agrees row assistant := by
  constructor
  · intro same
    have graphId := congrArg VersionedFields.graphId same
    have context := congrArg VersionedFields.context same
    exact ⟨graphId.symm, context.symm⟩
  · rintro ⟨graphId, context⟩
    unfold AssistantRecord.restore
    rw [← graphId, ← context]

section Kept

variable {t : AssistantTables} {call : Call} {now : Time} {out : Outcome}

theorem RowsOwned.effect (owned : RowsOwned t) (effect : Effect t now call out) : RowsOwned out.1 := by
  cases effect with
  | unchanged => exact owned
  | created missing =>
    intro row member
    rw [create, Table.append_values]
    rcases List.mem_append.mp member with old | new
    · obtain ⟨assistant, inside, same⟩ := owned row old
      exact ⟨assistant, List.mem_append_left _ inside, same⟩
    · rw [List.mem_singleton.mp new]
      exact ⟨_, List.mem_append_right _ (List.mem_singleton_self _), rfl⟩
  | @patched patch r version found next =>
    intro row member
    have ids : (t.assistants.update r (AssistantRecord.take (patch.fields (t.assistants.get r)) version now)).values.map
        AssistantRecord.assistantId = t.assistants.values.map AssistantRecord.assistantId :=
      Table.update_values_map t.assistants r (fun _ => rfl)
    have known : row.assistantId ∈ t.assistants.values.map AssistantRecord.assistantId := by
      rcases List.mem_append.mp member with old | new
      · obtain ⟨assistant, inside, same⟩ := owned row old
        exact same ▸ List.mem_map_of_mem inside
      · rw [List.mem_singleton.mp new]
        exact (find?_byId found).2 ▸ List.mem_map_of_mem (find?_byId found).1
    rw [← ids] at known
    exact List.mem_map.mp known
  | @restored assistantId version r row found ofVersion =>
    intro row' member
    have ids : (t.assistants.update r (AssistantRecord.restore row now)).values.map AssistantRecord.assistantId =
        t.assistants.values.map AssistantRecord.assistantId := Table.update_values_map t.assistants r (fun _ => rfl)
    obtain ⟨assistant, inside, same⟩ := owned row' member
    have known := List.mem_map_of_mem inside (f := AssistantRecord.assistantId)
    rw [← ids, same] at known
    exact List.mem_map.mp known
  | deleted =>
    intro row member
    obtain ⟨old, apart⟩ := List.mem_filter.mp member
    obtain ⟨assistant, inside, same⟩ := owned row old
    rw [Table.keep_values]
    exact ⟨assistant, List.mem_filter.mpr ⟨inside, by simpa [same] using apart⟩, same⟩

theorem VersionsUnique.effect (unique : VersionsUnique t) (effect : Effect t now call out)
    (fresh : ∀ put, call = .put put → t.assistants.find? (byId put.assistantId) = none →
      ∀ row ∈ t.versions, row.assistantId = put.assistantId → row.version ≠ 1) : VersionsUnique out.1 := by
  cases effect with
  | unchanged => exact unique
  | @created put missing => exact unique.append (fresh put rfl missing) _
  | patched found next => exact unique.append (fun old member own => (lt_nextVersion next member own).ne) _
  | restored => exact unique
  | deleted => exact List.Nodup.sublist (List.filter_sublist.map _) unique

theorem HasOwnVersion.effect (own : HasOwnVersion t) (effect : Effect t now call out)
    (restores : ∀ reply, RestoresAll t (call, reply)) : HasOwnVersion out.1 := by
  cases effect with
  | unchanged => exact own
  | created missing =>
    intro assistant member
    rw [create, Table.append_values] at member
    rcases List.mem_append.mp member with old | new
    · obtain ⟨row, inside, same⟩ := own assistant old
      exact ⟨row, List.mem_append_left _ inside, same⟩
    · rw [List.mem_singleton.mp new]
      exact ⟨_, List.mem_append_right _ (List.mem_singleton_self _), rfl, rfl, rfl⟩
  | patched found next =>
    intro assistant member
    rcases Table.mem_update_values member with old | ⟨_, rfl⟩
    · obtain ⟨row, inside, same⟩ := own assistant old
      exact ⟨row, List.mem_append_left _ inside, same⟩
    · exact ⟨_, List.mem_append_right _ (List.mem_singleton_self _), (find?_byId found).2.symm, rfl, rfl⟩
  | @restored assistantId version r row found ofVersion =>
    obtain ⟨inside, ofId, atVersion⟩ := find?_row ofVersion
    have agrees : Agrees row (t.assistants.get r) := restores plainReply r found row inside ofId atVersion
    intro assistant member
    rcases Table.mem_update_values member with old | ⟨_, rfl⟩
    · exact own assistant old
    · exact ⟨row, inside, ofId.trans (find?_byId found).2.symm, rfl, ((restore_fields row now _).mpr agrees).symm⟩
  | deleted =>
    intro assistant member
    rw [Table.keep_values] at member
    obtain ⟨old, apart⟩ := List.mem_filter.mp member
    obtain ⟨row, inside, ofId, rest⟩ := own assistant old
    exact ⟨row, List.mem_filter.mpr ⟨inside, by simpa [ofId] using apart⟩, ofId, rest⟩

end Kept

section Runs

variable (assertGraphExists : String → Except PyError Unit)

/-- The tables after a call. -/
def after (t : AssistantTables) (call : Call × Reply) : AssistantTables := (call.1.run assertGraphExists t call.2).1

variable {assertGraphExists} {t : AssistantTables}

theorem fresh_of_owned (owned : RowsOwned t) {assistantId : Uuid} (missing : t.assistants.find? (byId assistantId) = none)
    {row : AssistantVersion} (member : row ∈ t.versions) : row.assistantId ≠ assistantId := by
  intro same
  obtain ⟨assistant, inside, ofRow⟩ := owned row member
  have other := Table.find?_eq_none.mp missing assistant inside
  simp [byId, ofRow, same] at other

/-- No row is left over, and so no row is there twice, whatever the calls are. -/
theorem rows_of_serial {allowed : AssistantTables → Call × Reply → Prop}
    (reach : Serial (after assertGraphExists) allowed noTables t) : RowsOwned t ∧ VersionsUnique t := by
  refine reach.invariant (P := fun t => RowsOwned t ∧ VersionsUnique t)
    ⟨fun row member => absurd member List.not_mem_nil, List.nodup_nil⟩ (fun {t call} holds _ => ?_)
  obtain ⟨owned, unique⟩ := holds
  have effect := call.1.effect assertGraphExists t call.2
  refine ⟨owned.effect effect, unique.effect effect (fun put ofPut missing row member own => ?_)⟩
  exact absurd own (fresh_of_owned owned missing member)

/-- Of the fields of a version a rollback brings back all, if the graph and the
context are those that the assistant has. -/
theorem setLatest_fields (unique : VersionsUnique t) {assistantId : Uuid} {version : Int} {reply : Reply} {r : Nat}
    (found : t.assistants.find? (byId assistantId) = some r) {row : AssistantVersion} (member : row ∈ t.versions)
    (ofId : row.assistantId = assistantId) (atVersion : row.version = version) {assistant : AssistantRecord}
    (returns : ((Call.setLatest assistantId version).run assertGraphExists t reply).2 = .ok [assistant]) :
    assistant.toVersionedFields = row.toVersionedFields ↔ Agrees row (t.assistants.get r) := by
  have search : t.versions.find? (fun row => row.assistantId = assistantId && row.version = version) = some row := by
    cases first : t.versions.find? (fun row => row.assistantId = assistantId && row.version = version) with
    | none =>
      have misses := List.find?_eq_none.mp first row member
      simp [ofId, atVersion] at misses
    | some row' =>
      obtain ⟨inside, ofId', atVersion'⟩ := find?_row first
      rw [unique.row_eq inside member (ofId'.trans ofId.symm) (atVersion'.trans atVersion.symm)]
  unfold Call.run at returns
  cases answer : reply.answer with
  | error e =>
    rw [answer] at returns
    cases returns
  | ok filters =>
    rw [answer] at returns
    simp only [setLatest, guarded, found, search] at returns
    split at returns
    · cases returns
    · cases returns
    · rw [Table.update_get_self] at returns
      obtain rfl := (List.cons.inj (Except.ok.inj returns)).1
      exact restore_fields row reply.now _

/-- While each rollback goes to a version with the graph and the context that
the assistant has, every assistant has its own version, and a rollback brings
back all six fields exactly then. -/
theorem assistants_have_own_version
    (reach : Serial (after assertGraphExists) RestoresAll noTables t) :
    HasOwnVersion t ∧ ∀ assistantId version reply r row assistant, t.assistants.find? (byId assistantId) = some r →
      row ∈ t.versions → row.assistantId = assistantId → row.version = version →
      ((Call.setLatest assistantId version).run assertGraphExists t reply).2 = .ok [assistant] →
        (assistant.toVersionedFields = row.toVersionedFields ↔ Agrees row (t.assistants.get r)) := by
  have unique := (rows_of_serial reach).2
  refine ⟨?_, fun _ _ _ _ _ _ found member ofId atVersion returns =>
    setLatest_fields unique found member ofId atVersion returns⟩
  refine reach.invariant (P := HasOwnVersion) (fun assistant member => absurd member List.not_mem_nil)
    (fun {t call} own met => ?_)
  exact own.effect (call.1.effect assertGraphExists t call.2) (fun reply => met)

end Runs

section Rollback

def anyGraph (_ : String) : Except PyError Unit := .ok ()

def putFirst (config : PyDict) (context : PyVal) : Call × Reply :=
  (.put ⟨⟨1⟩, "agent", config, context, none, .raise, "helper", none⟩, plainReply)

def patchFirst (context : PyVal) (graphId name : Option String) : Call × Reply :=
  (.patch ⟨⟨1⟩, none, context, graphId, none, name, none⟩, plainReply)

def rollback : Call × Reply := (.setLatest ⟨1⟩ 1, plainReply)

/-- The assistant of version 1 again, which still runs the graph of version 2. -/
theorem rollback_keeps_graph :
    ¬ ∀ (assertGraphExists : String → Except PyError Unit) (t : AssistantTables),
      Serial (after assertGraphExists) (fun _ _ => True) noTables t → HasOwnVersion t := by
  intro all
  have begun : Serial (after anyGraph) (fun _ _ => True) noTables noTables := .start
  have reach := ((begun.next (putFirst [] .none) trivial).next (patchFirst .none (some "other") none) trivial).next
    rollback trivial
  obtain ⟨row, member, _, current, same⟩ := all anyGraph _ reach _ (List.mem_singleton_self _)
  rcases List.mem_cons.mp member with rfl | later
  · exact absurd (congrArg VersionedFields.graphId same) (by decide)
  · rw [List.mem_singleton.mp later] at current
    exact absurd current (by decide)

/-- Back to a version that differs in the name only. -/
theorem assistants_have_own_version_renamed :
    ∃ t, HasOwnVersion t ∧ t.versions.length = 2 ∧ t.assistants.values.map (fun a => (a.version, a.name)) = [(1, "helper")] := by
  have begun : Serial (after anyGraph) RestoresAll noTables noTables := .start
  have made := begun.next (putFirst [] .none) trivial
  have renamed := made.next (patchFirst .none none (some "assistant")) trivial
  have restored := renamed.next rollback (fun r found row member _ atVersion => by
    cases found
    rcases List.mem_cons.mp member with rfl | later
    · exact ⟨rfl, rfl⟩
    · rw [List.mem_singleton.mp later] at atVersion
      exact absurd atVersion (by decide))
  exact ⟨_, (assistants_have_own_version restored).1, rfl, rfl⟩

end Rollback

end Assistants

end InmemRuntime
