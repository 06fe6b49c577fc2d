import InmemRuntime.AssistantVersions
import InmemRuntime.RecordSearch

namespace InmemRuntime

namespace Assistants

structure VersionsCall where
  assistantId : Uuid
  metadata : PyDict
  limit : Nat
  offset : Nat

/-- The rows of an assistant, in the order in which they were written. -/
def rowsOf (t : AssistantTables) (assistantId : Uuid) : List AssistantVersion :=
  t.versions.filter (fun row => row.assistantId = assistantId)

/-- The condition on the rows of the assistant. The filter is held against the metadata of the row. -/
def VersionsCall.allows (call : VersionsCall) (filters : PyVal) (row : AssistantVersion) : Except PyError Bool :=
  if !(call.metadata.isEmpty || isJsonbContained row.metadata call.metadata) then .ok false
  else filtersAllow row.metadata filters

/-- `Assistants.get_versions` once the handler has answered. -/
def getVersions (t : AssistantTables) (call : VersionsCall) (filters : PyVal) : Except PyError (List AssistantVersion) :=
  match t.assistants.find? (byId call.assistantId) with
  | none => .error (notFound call.assistantId)
  | some _ => do
    let versions ← keepOk (call.allows filters) (rowsOf t call.assistantId)
    .ok (((sortedBy (fun a b => a.version ≤ b.version) true versions).drop call.offset).take call.limit)

/-- Where a call waits: for its handler, or in `delete` for the deletions of threads
and for `Runs.cancel`, which touch neither table. -/
inductive AssistantCall where
  | put (call : PutCall)
  | patch (call : PatchCall)
  | setLatest (assistantId : Uuid) (version : Int)
  | delete (assistantId : Uuid)
  | cascading (assistantId : Uuid)

def AssistantCall.isFresh : AssistantCall → Bool
  | .cascading _ => false
  | _ => true

abbrev AssistantTurn := AssistantTables × Turn AssistantCall (Except PyError (List AssistantRecord))

/-- The assistant and its versions go, whoever has changed them in the meantime. -/
def removeAll (t : AssistantTables) (assistantId : Uuid) : AssistantTables :=
  ⟨t.assistants.keep (fun assistant => assistant.assistantId ≠ assistantId),
    t.versions.filter (fun row => row.assistantId ≠ assistantId)⟩

/-- `Assistants.delete` up to its cascade. -/
def startDelete (t : AssistantTables) (assistantId : Uuid) (filters : PyVal) : AssistantTurn :=
  match guarded t assistantId filters (.http 404 s!"Assistant with ID {assistantId.str} not found")
    (fun _ => (t, .ok [])) with
  | (t, .error e) => (t, .finished (.error e))
  | (t, .ok _) => (t, .suspended (.cascading assistantId))

section Turns

variable (assertGraphExists : String → Except PyError Unit)

/-- A call that runs to its end. -/
def Call.turn (t : AssistantTables) (call : Call) (reply : Reply) : AssistantTurn :=
  ((call.run assertGraphExists t reply).1, .finished (call.run assertGraphExists t reply).2)

def AssistantCall.resume (t : AssistantTables) : AssistantCall → Reply → AssistantTurn
  | .put call, reply => (Call.put call).turn assertGraphExists t reply
  | .patch call, reply => (Call.patch call).turn assertGraphExists t reply
  | .setLatest assistantId version, reply => (Call.setLatest assistantId version).turn assertGraphExists t reply
  | .delete assistantId, reply =>
    match reply.answer with
    | .error e => (t, .finished (.error e))
    | .ok filters => startDelete t assistantId filters
  | .cascading assistantId, reply =>
    match reply.answer with
    | .error e => (t, .finished (.error e))
    | .ok _ => (removeAll t assistantId, .finished (.ok []))

def assistantCalls : Coroutines AssistantTables AssistantCall Reply (Except PyError (List AssistantRecord)) where
  fresh := AssistantCall.isFresh
  resume := AssistantCall.resume assertGraphExists

end Turns

/-- 1, 2, ..., `n` -/
def countUp (n : Nat) : List Int := (List.range n).map (fun i : Nat => (i : Int) + 1)

/-- The rows of an assistant are numbered from 1 on in the order in which they were
written, and its version is one of the numbers. -/
structure Chronicle (t : AssistantTables) (assistantId : Uuid) : Prop where
  numbered : versionsOf t assistantId = countUp (rowsOf t assistantId).length
  current : ∀ assistant ∈ t.assistants.values, assistant.assistantId = assistantId →
    1 ≤ assistant.version ∧ assistant.version ≤ (rowsOf t assistantId).length

/-- What every turn keeps. -/
structure Chronicles (t : AssistantTables) : Prop where
  each : ∀ assistantId, Chronicle t assistantId
  owned : RowsOwned t

/-- No deletion of the assistant comes to its end. -/
def Keeping (assistantId : Uuid) (_ : AssistantTables) (_ : List AssistantCall) (k : AssistantCall) (reply : Reply) : Prop :=
  k = .cascading assistantId → ∀ value, reply.answer ≠ .ok value

section Numbers

theorem countUp_succ (n : Nat) : countUp (n + 1) = countUp n ++ [(n : Int) + 1] := by
  rw [countUp, List.range_succ, List.map_append]
  rfl

theorem countUp_sorted (n : Nat) : (countUp n).Pairwise (· < ·) := by
  rw [countUp, List.pairwise_map]
  exact List.pairwise_lt_range.imp (fun less => by omega)

theorem max?_countUp (n : Nat) : (countUp (n + 1)).max? = some ((n : Int) + 1) := by
  rw [List.max?_eq_some_iff]
  refine ⟨by rw [countUp_succ]; exact List.mem_append_right _ List.mem_cons_self, fun version member => ?_⟩
  obtain ⟨i, below, rfl⟩ := List.mem_map.mp member
  have less := List.mem_range.mp below
  omega

end Numbers

section Kept

variable {t : AssistantTables} {assistantId : Uuid} {now : Time} {call : Call} {out : Outcome}

theorem rowsOf_append_own (assistants : Table AssistantRecord) {row : AssistantVersion} (own : row.assistantId = assistantId) :
    rowsOf ⟨assistants, t.versions ++ [row]⟩ assistantId = rowsOf t assistantId ++ [row] := by
  simp [rowsOf, List.filter_append, own]

theorem rowsOf_append_other (assistants : Table AssistantRecord) {row : AssistantVersion} (other : row.assistantId ≠ assistantId) :
    rowsOf ⟨assistants, t.versions ++ [row]⟩ assistantId = rowsOf t assistantId := by
  simp [rowsOf, List.filter_append, other]

theorem rowsOf_removeAll (removed : Uuid) :
    rowsOf (removeAll t removed) assistantId = if assistantId = removed then [] else rowsOf t assistantId := by
  rw [rowsOf, removeAll, List.filter_filter]
  split
  · rename_i same
    exact List.filter_eq_nil_iff.mpr (fun row _ => by simp [same])
  · rename_i apart
    refine List.filter_congr (fun row _ => ?_)
    by_cases own : row.assistantId = assistantId
    · simp [own, apart]
    · simp [own]

/-- An assistant of the store has a row. -/
theorem Chronicle.rows_pos (chronicle : Chronicle t assistantId) {r : Nat}
    (found : t.assistants.find? (byId assistantId) = some r) : 1 ≤ (rowsOf t assistantId).length := by
  obtain ⟨inside, own⟩ := find?_byId found
  have within := chronicle.current _ inside own
  omega

theorem Chronicle.nextVersion (chronicle : Chronicle t assistantId) {r : Nat} {version : Int}
    (found : t.assistants.find? (byId assistantId) = some r) (next : nextVersion t assistantId = .ok version) :
    version = (rowsOf t assistantId).length + 1 := by
  have positive := chronicle.rows_pos found
  have stored : t.versions ≠ [] := by
    intro empty
    rw [rowsOf, empty] at positive
    cases positive
  obtain ⟨n, length⟩ : ∃ n, (rowsOf t assistantId).length = n + 1 := ⟨_, (Nat.sub_add_cancel positive).symm⟩
  rw [Assistants.nextVersion, if_neg stored, chronicle.numbered, length, max?_countUp] at next
  rw [length]
  exact (Except.ok.inj next).symm

/-- A row with the next number is written for an assistant, whose version it becomes. -/
theorem Chronicle.append (chronicle : Chronicle t assistantId) {assistants : Table AssistantRecord} {row : AssistantVersion}
    (numbered : row.assistantId = assistantId → row.version = (rowsOf t assistantId).length + 1)
    (kept : ∀ assistant ∈ assistants.values, assistant.assistantId = assistantId →
      assistant ∈ t.assistants.values ∨ (row.assistantId = assistantId ∧ assistant.version = row.version)) :
    Chronicle ⟨assistants, t.versions ++ [row]⟩ assistantId := by
  by_cases own : row.assistantId = assistantId
  · have rows := rowsOf_append_own (t := t) assistants own
    refine ⟨?_, fun assistant member ofId => ?_⟩
    · change (rowsOf ⟨assistants, t.versions ++ [row]⟩ assistantId).map AssistantVersion.version = _
      rw [rows, List.map_append, List.length_append, List.length_singleton, countUp_succ]
      change versionsOf t assistantId ++ [row.version] = _
      rw [chronicle.numbered, numbered own]
    · rw [rows, List.length_append, List.length_singleton]
      rcases kept assistant member ofId with old | ⟨_, latest⟩
      · have within := chronicle.current assistant old ofId
        omega
      · rw [latest, numbered own]
        omega
  · have rows := rowsOf_append_other (t := t) assistants own
    refine ⟨?_, fun assistant member ofId => ?_⟩
    · change (rowsOf ⟨assistants, t.versions ++ [row]⟩ assistantId).map AssistantVersion.version = _
      rw [rows]
      exact chronicle.numbered
    · rw [rows]
      rcases kept assistant member ofId with old | ⟨new, _⟩
      · exact chronicle.current assistant old ofId
      · exact absurd new own

theorem Chronicle.effect (chronicles : Chronicles t) (apart : ∀ id cascade, call ≠ .delete id cascade)
    (effect : Effect t now call out) (assistantId : Uuid) : Chronicle out.1 assistantId := by
  have chronicle := chronicles.each assistantId
  cases effect with
  | unchanged => exact chronicle
  | @created put missing =>
    refine chronicle.append (fun own => ?_) (fun assistant member ofId => ?_)
    · have unused : rowsOf t assistantId = [] := by
        refine List.filter_eq_nil_iff.mpr (fun row member => ?_)
        obtain ⟨assistant, inside, same⟩ := chronicles.owned row member
        have other := Table.find?_eq_none.mp missing assistant inside
        change put.assistantId = assistantId at own
        simpa [byId, own, same] using other
      rw [unused]
      rfl
    · rw [Table.append_values] at member
      rcases List.mem_append.mp member with old | new
      · exact .inl old
      · rw [List.mem_singleton.mp new] at ofId ⊢
        exact .inr ⟨ofId, rfl⟩
  | @patched patch r version found next =>
    refine chronicle.append (fun own => ?_) (fun assistant member ofId => ?_)
    · change patch.assistantId = assistantId at own
      subst own
      exact chronicle.nextVersion found next
    · rcases Table.mem_update_values member with old | ⟨_, rfl⟩
      · exact .inl old
      · exact .inr ⟨(find?_byId found).2.symm.trans ofId, rfl⟩
  | @restored ofId version r row found ofVersion =>
    refine ⟨chronicle.numbered, fun assistant member own => ?_⟩
    rcases Table.mem_update_values member with old | ⟨_, rfl⟩
    · exact chronicle.current assistant old own
    · obtain ⟨inside, rowId, rowVersion⟩ := find?_row ofVersion
      have same : row.assistantId = assistantId := rowId.trans ((find?_byId found).2.symm.trans own)
      have known : row.version ∈ versionsOf t assistantId :=
        List.mem_map_of_mem (List.mem_filter.mpr ⟨inside, by simpa using same⟩)
      rw [chronicle.numbered] at known
      obtain ⟨i, below, atRow⟩ := List.mem_map.mp known
      have less := List.mem_range.mp below
      change 1 ≤ row.version ∧ row.version ≤ _
      change _ ∧ row.version ≤ ((rowsOf t assistantId).length : Int)
      omega
  | deleted => exact absurd rfl (apart _ _)

theorem Chronicles.removeAll (chronicles : Chronicles t) (removed : Uuid) : Chronicles (removeAll t removed) := by
  refine ⟨fun assistantId => ?_, fun row member => ?_⟩
  · have chronicle := chronicles.each assistantId
    have rows : rowsOf (Assistants.removeAll t removed) assistantId =
        if assistantId = removed then [] else rowsOf t assistantId := rowsOf_removeAll removed
    refine ⟨?_, fun assistant member own => ?_⟩
    · change (rowsOf (Assistants.removeAll t removed) assistantId).map AssistantVersion.version = _
      rw [rows]
      split
      · rfl
      · exact chronicle.numbered
    · rw [Assistants.removeAll, Table.keep_values] at member
      obtain ⟨old, other⟩ := List.mem_filter.mp member
      rw [rows, if_neg (fun same => by simp [own, same] at other)]
      exact chronicle.current assistant old own
  · obtain ⟨old, apart⟩ := List.mem_filter.mp member
    obtain ⟨assistant, inside, same⟩ := chronicles.owned row old
    rw [Assistants.removeAll, Table.keep_values]
    exact ⟨assistant, List.mem_filter.mpr ⟨inside, by simpa [same] using apart⟩, same⟩

/-- A call that deletes nothing only adds rows. -/
theorem rowsOf_effect (effect : Effect t now call out) (apart : ∀ id cascade, call ≠ .delete id cascade)
    (assistantId : Uuid) : rowsOf t assistantId <+: rowsOf out.1 assistantId := by
  have adds (assistants : Table AssistantRecord) (row : AssistantVersion) :
      rowsOf t assistantId <+: rowsOf ⟨assistants, t.versions ++ [row]⟩ assistantId := by
    change rowsOf t assistantId <+: (t.versions ++ [row]).filter _
    rw [List.filter_append]
    exact List.prefix_append _ _
  cases effect with
  | unchanged => exact List.prefix_rfl
  | created => exact adds _ _
  | patched => exact adds _ _
  | restored => exact List.prefix_rfl
  | deleted => exact absurd rfl (apart _ _)

end Kept

/-- What a turn can do: it runs a call that deletes nothing, it looks whether an
assistant can be deleted, or it deletes one. -/
inductive TurnEffect (t : AssistantTables) (reply : Reply) : AssistantCall → AssistantTables → Prop
  | runs {k out} (call : Call) : (∀ id cascade, call ≠ .delete id cascade) → Effect t reply.now call out →
      TurnEffect t reply k out.1
  | looks {k} : TurnEffect t reply k t
  | removes {removed value} : reply.answer = .ok value → TurnEffect t reply (.cascading removed) (removeAll t removed)

section Interleavings

variable {assertGraphExists : String → Except PyError Unit} {t : AssistantTables} {k : AssistantCall} {reply : Reply}
  {others : List AssistantCall} {assistantId : Uuid}

theorem startDelete_same (removed : Uuid) (filters : PyVal) : (startDelete t removed filters).1 = t := by
  have unchanged : (guarded t removed filters (.http 404 s!"Assistant with ID {removed.str} not found")
      (fun _ => (t, .ok []))).1 = t :=
    guarded_cases (P := fun out => out.1 = t) (fun _ => rfl) (fun _ _ => rfl)
  unfold startDelete
  split
  · rename_i out
    rw [out] at unchanged
    exact unchanged
  · rename_i out
    rw [out] at unchanged
    exact unchanged

theorem turn_effect (t : AssistantTables) (k : AssistantCall) (reply : Reply) :
    TurnEffect t reply k ((assistantCalls assertGraphExists).resume t k reply).1 := by
  cases k with
  | put call => exact .runs _ (fun _ _ same => by cases same) (Call.effect assertGraphExists t (.put call) reply)
  | patch call => exact .runs _ (fun _ _ same => by cases same) (Call.effect assertGraphExists t (.patch call) reply)
  | setLatest id version =>
    exact .runs _ (fun _ _ same => by cases same) (Call.effect assertGraphExists t (.setLatest id version) reply)
  | delete removed =>
    change TurnEffect t reply (.delete removed) (AssistantCall.resume assertGraphExists t (.delete removed) reply).1
    rw [AssistantCall.resume]
    cases reply.answer with
    | error e => exact .looks
    | ok filters =>
      dsimp only
      rw [startDelete_same]
      exact .looks
  | cascading removed =>
    change TurnEffect t reply (.cascading removed) (AssistantCall.resume assertGraphExists t (.cascading removed) reply).1
    rw [AssistantCall.resume]
    cases answer : reply.answer with
    | error e => exact .looks
    | ok value => exact .removes answer

theorem Chronicles.turn {t' : AssistantTables} (chronicles : Chronicles t) (effect : TurnEffect t reply k t') :
    Chronicles t' := by
  cases effect with
  | runs call apart effect => exact ⟨Chronicle.effect chronicles apart effect, chronicles.owned.effect effect⟩
  | looks => exact chronicles
  | removes => exact chronicles.removeAll _

theorem rowsOf_turn {t' : AssistantTables} (effect : TurnEffect t reply k t') (keeping : Keeping assistantId t others k reply) :
    rowsOf t assistantId <+: rowsOf t' assistantId := by
  cases effect with
  | runs call apart effect => exact rowsOf_effect effect apart assistantId
  | looks => exact List.prefix_rfl
  | @removes removed value answer =>
    have other : assistantId ≠ removed := by
      rintro rfl
      exact keeping rfl value answer
    rw [rowsOf_removeAll, if_neg other]

theorem chronicles_of_reaches {allowed : AssistantTables → List AssistantCall → AssistantCall → Reply → Prop}
    {l : EventLoop AssistantTables AssistantCall}
    (reach : (assistantCalls assertGraphExists).Reaches allowed ⟨noTables, []⟩ l) : Chronicles l.state := by
  refine reach.invariant (P := fun t _ => Chronicles t) (fun _ held => held) (fun held _ => held)
    (fun held _ => held.turn (turn_effect _ _ _)) ?_
  exact ⟨fun _ => ⟨rfl, fun _ member => absurd member List.not_mem_nil⟩, fun _ member => absurd member List.not_mem_nil⟩

/-- The rows that a list of versions starts with are the last ones that it was given. -/
theorem getVersions_newest (chronicle : Chronicle t assistantId) {r : Nat}
    (found : t.assistants.find? (byId assistantId) = some r) {call : VersionsCall} (same : call.assistantId = assistantId)
    {filters : PyVal} {versions : List AssistantVersion}
    (allowed : keepOk (call.allows filters) (rowsOf t assistantId) = .ok versions) :
    getVersions t call filters = .ok ((versions.reverse.drop call.offset).take call.limit) := by
  have increasing : (rowsOf t assistantId).Pairwise (fun a b => a.version < b.version) := by
    have numbers := countUp_sorted (rowsOf t assistantId).length
    rw [← chronicle.numbered] at numbers
    exact List.pairwise_map.mp numbers
  have kept : versions.Pairwise (fun a b => a.version < b.version) := by
    rw [keepOk_eq_ok allowed]
    exact increasing.filter _
  have sorted : sortedBy (fun a b : AssistantVersion => decide (a.version ≤ b.version)) true versions = versions.reverse := by
    have unequal : (versions.map AssistantVersion.version).Nodup := List.pairwise_map.mpr (kept.imp ne_of_lt)
    have ordered : Ordered (fun a b : AssistantVersion => decide (a.version ≤ b.version)) true versions.reverse :=
      List.pairwise_reverse.mpr (kept.imp (fun less => by simpa using less.le))
    refine List.Perm.eq_of_pairwise (fun a b inside inside' first second => ?_)
      (sortedBy_key AssistantVersion.version (fun _ _ => decide_eq_true_iff) true versions) ordered
      ((sortedBy_perm _ _ _).trans versions.reverse_perm.symm)
    have below : b.version ≤ a.version := by simpa using first
    have above : a.version ≤ b.version := by simpa using second
    exact List.inj_on_of_nodup_map unequal ((sortedBy_perm _ _ _).mem_iff.mp inside) (List.mem_reverse.mp inside')
      (le_antisymm above below)
  rw [getVersions, same, found]
  dsimp only
  rw [allowed]
  change Except.ok _ = _
  rw [sorted]

/-- Version numbers are given out one after another, and until an assistant is
deleted its rows stay as they were written, in every interleaving.
`get_versions` lists them from the newest on. -/
theorem versions_append_only {allowed : AssistantTables → List AssistantCall → AssistantCall → Reply → Prop}
    {l l' : EventLoop AssistantTables AssistantCall}
    (begun : (assistantCalls assertGraphExists).Reaches allowed ⟨noTables, []⟩ l)
    (later : (assistantCalls assertGraphExists).Reaches (Keeping assistantId) l l') :
    Chronicle l'.state assistantId ∧ rowsOf l.state assistantId <+: rowsOf l'.state assistantId ∧
      ∀ r call filters versions, l'.state.assistants.find? (byId assistantId) = some r → call.assistantId = assistantId →
        keepOk (VersionsCall.allows call filters) (rowsOf l'.state assistantId) = .ok versions →
        getVersions l'.state call filters = .ok ((versions.reverse.drop call.offset).take call.limit) := by
  have kept : Chronicles l'.state ∧ rowsOf l.state assistantId <+: rowsOf l'.state assistantId := by
    refine later.invariant (P := fun t _ => Chronicles t ∧ rowsOf l.state assistantId <+: rowsOf t assistantId)
      (fun _ held => held) (fun held _ => held) (fun {t others k reply} held keeping => ?_)
      ⟨chronicles_of_reaches begun, List.prefix_rfl⟩
    have effect : TurnEffect t reply k ((assistantCalls assertGraphExists).resume t k reply).1 := turn_effect t k reply
    exact ⟨held.1.turn effect, held.2.trans (rowsOf_turn effect keeping)⟩
  have chronicle := kept.1.each assistantId
  exact ⟨chronicle, kept.2, fun _ _ _ _ found same allowed => getVersions_newest chronicle found same allowed⟩

end Interleavings

section Listed

def putOne : AssistantCall := .put ⟨⟨1⟩, "agent", [], .none, none, .raise, "helper", none⟩

def renameOne : AssistantCall := .patch ⟨⟨1⟩, none, .none, none, none, some "assistant", none⟩

def writtenOne : EventLoop AssistantTables AssistantCall :=
  (assistantCalls anyGraph).advance ⟨noTables, [putOne]⟩ 0 putOne plainReply

/-- A version is written while a deletion waits for its cascade. -/
theorem versions_append_only_patched :
    ∃ t : AssistantTables, versionsOf t ⟨1⟩ = [1, 2] ∧ Chronicle t ⟨1⟩ ∧
      (getVersions t ⟨⟨1⟩, [], 10, 0⟩ .none).map (List.map AssistantVersion.version) = .ok [2, 1] := by
  have asked : (assistantCalls anyGraph).Reaches Coroutines.unrestricted ⟨noTables, []⟩ ⟨noTables, [putOne]⟩ :=
    .call .start rfl
  have begun : (assistantCalls anyGraph).Reaches Coroutines.unrestricted ⟨noTables, []⟩ writtenOne :=
    asked.turn 0 plainReply rfl trivial
  have apart {t : AssistantTables} {others : List AssistantCall} {k : AssistantCall} (other : ∀ id, k ≠ .cascading id) :
      Keeping ⟨1⟩ t others k plainReply := fun same => absurd same (other _)
  have both : (assistantCalls anyGraph).Reaches (Keeping ⟨1⟩) writtenOne ⟨writtenOne.state, [.delete ⟨1⟩, renameOne]⟩ :=
    .call (.call .start rfl) rfl
  have deleting := both.turn 0 plainReply rfl (apart (fun _ same => by cases same))
  have later := deleting.turn 1 plainReply rfl (apart (fun _ same => by cases same))
  obtain ⟨chronicle, _, listed⟩ := versions_append_only begun later
  have newest := listed 0 ⟨⟨1⟩, [], 10, 0⟩ .none _ rfl rfl rfl
  exact ⟨_, rfl, chronicle, congrArg (Except.map (List.map AssistantVersion.version)) newest⟩

end Listed

end Assistants

end InmemRuntime
