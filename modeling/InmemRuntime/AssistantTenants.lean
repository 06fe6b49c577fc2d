import InmemRuntime.AssistantHistory
import InmemRuntime.SearchPages
import Mathlib.Data.List.Find

namespace InmemRuntime

namespace Assistants

/-- `Assistants.get` once the handler has answered. -/
def get (t : AssistantTables) (assistantId : Uuid) (filters : PyVal) : Except PyError (List AssistantRecord) :=
  keepOk (fun assistant => if byId assistantId assistant then filtersAllow assistant.metadata filters else .ok false)
    t.assistants.values

/-- The assistant that a call is about. -/
def AssistantCall.target : AssistantCall → Uuid
  | .put call => call.assistantId
  | .patch call => call.assistantId
  | .setLatest assistantId _ => assistantId
  | .delete assistantId => assistantId
  | .cascading assistantId => assistantId

/-- The call may make an assistant. -/
def AssistantCall.isPut : AssistantCall → Bool
  | .put _ => true
  | _ => false

/-- The filter of a call about the assistant refuses it. -/
def Refusing (a : AssistantRecord) (_ : AssistantTables) (_ : List AssistantCall) (k : AssistantCall) (reply : Reply) : Prop :=
  k.isFresh = true → k.target = a.assistantId →
    ∀ filters, reply.answer = .ok filters → filtersAllow a.metadata filters = .ok false

/-- The assistant is the one of its id. -/
def Recorded (a : AssistantRecord) (t : AssistantTables) : Prop :=
  ∃ r, t.assistants.find? (byId a.assistantId) = some r ∧ t.assistants.get r = a

/-- No deletion of the assistant waits for its cascade. -/
structure Stands (a : AssistantRecord) (rows : List AssistantVersion) (t : AssistantTables) (waiting : List AssistantCall) :
    Prop where
  record : Recorded a t
  rows : rowsOf t a.assistantId = rows
  uncascaded : .cascading a.assistantId ∉ waiting

section Refusals

variable {assertGraphExists : String → Except PyError Unit} {t : AssistantTables} {a : AssistantRecord}
  {rows : List AssistantVersion} {waiting others : List AssistantCall} {k : AssistantCall} {reply : Reply}

theorem guarded_refused {r : Nat} (found : t.assistants.find? (byId a.assistantId) = some r) (same : t.assistants.get r = a)
    {filters : PyVal} (refused : filtersAllow a.metadata filters = .ok false) (missing : PyError) (next : Nat → Outcome) :
    guarded t a.assistantId filters missing next = (t, .error missing) := by
  rw [guarded, found]
  dsimp only
  rw [same, refused]

theorem guarded_missing {assistantId : Uuid} (missing : t.assistants.find? (byId assistantId) = none) (filters : PyVal)
    (e : PyError) (next : Nat → Outcome) : guarded t assistantId filters e next = (t, .error e) := by
  rw [guarded, missing]

theorem find?_removeAll (t : AssistantTables) (assistantId : Uuid) :
    (removeAll t assistantId).assistants.find? (byId assistantId) = none := by
  refine Table.find?_eq_none.mpr (fun assistant member => ?_)
  rw [removeAll, Table.keep_values] at member
  simpa [byId] using (List.mem_filter.mp member).2

variable (assertGraphExists) in
/-- A refused call ends with an error and changes nothing; but for `put` it ends
as if the assistant and its versions were not there. -/
theorem refused_turn (found : Recorded a t)
    (fresh : k.isFresh = true) (about : k.target = a.assistantId)
    (refused : ∀ filters, reply.answer = .ok filters → filtersAllow a.metadata filters = .ok false) :
    (∃ e, k.resume assertGraphExists t reply = (t, .finished (.error e))) ∧
      (k.isPut = false → (k.resume assertGraphExists t reply).2 =
        (k.resume assertGraphExists (removeAll t a.assistantId) reply).2) := by
  obtain ⟨r, found, same⟩ := found
  have gone := find?_removeAll t a.assistantId
  cases k with
  | put call =>
    change call.assistantId = a.assistantId at about
    refine ⟨?_, fun other => by cases other⟩
    rw [AssistantCall.resume, Call.turn, Call.run]
    cases answer : reply.answer with
    | error e => exact ⟨e, rfl⟩
    | ok filters =>
      dsimp only
      rw [Assistants.put]
      split
      · exact ⟨_, rfl⟩
      · split
        · exact ⟨_, rfl⟩
        · rw [about, found]
          dsimp only
          rw [same, refused filters answer]
          exact ⟨_, rfl⟩
  | patch call =>
    change call.assistantId = a.assistantId at about
    rw [AssistantCall.resume, AssistantCall.resume, Call.turn, Call.turn, Call.run, Call.run]
    cases answer : reply.answer with
    | error e => exact ⟨⟨e, rfl⟩, fun _ => rfl⟩
    | ok filters =>
      dsimp only
      rw [Assistants.patch, Assistants.patch, about, guarded_refused found same (refused filters answer),
        guarded_missing gone]
      split
      · exact ⟨⟨_, rfl⟩, fun _ => rfl⟩
      · split <;> exact ⟨⟨_, rfl⟩, fun _ => rfl⟩
  | setLatest assistantId version =>
    change assistantId = a.assistantId at about
    subst about
    rw [AssistantCall.resume, AssistantCall.resume, Call.turn, Call.turn, Call.run, Call.run]
    cases answer : reply.answer with
    | error e => exact ⟨⟨e, rfl⟩, fun _ => rfl⟩
    | ok filters =>
      dsimp only
      rw [Assistants.setLatest, Assistants.setLatest, guarded_refused found same (refused filters answer), guarded_missing gone]
      exact ⟨⟨_, rfl⟩, fun _ => rfl⟩
  | delete assistantId =>
    change assistantId = a.assistantId at about
    subst about
    rw [AssistantCall.resume, AssistantCall.resume]
    cases answer : reply.answer with
    | error e => exact ⟨⟨e, rfl⟩, fun _ => rfl⟩
    | ok filters =>
      dsimp only
      rw [startDelete, startDelete, guarded_refused found same (refused filters answer), guarded_missing gone]
      exact ⟨⟨_, rfl⟩, fun _ => rfl⟩
  | cascading assistantId => cases fresh

/-- The record of an id under which `find?` finds another is not touched. -/
theorem get_other {r r' : Nat} {assistantId : Uuid} (found : t.assistants.find? (byId a.assistantId) = some r)
    (other : t.assistants.find? (byId assistantId) = some r') (apart : assistantId ≠ a.assistantId) : r ≠ r' := by
  rintro rfl
  exact apart ((find?_byId other).2.symm.trans (find?_byId found).2)

theorem Recorded.append (recorded : Recorded a t) (assistant : AssistantRecord) (versions : List AssistantVersion) :
    Recorded a ⟨t.assistants.append assistant, versions⟩ := by
  obtain ⟨r, found, same⟩ := recorded
  refine ⟨r, ?_, (Table.append_get_old (Table.holds_of_mem (Table.find?_mem found)) assistant).trans same⟩
  have old : t.assistants.rows.find? (fun i => byId a.assistantId ((t.assistants.append assistant).get i)) = some r := by
    rw [← found]
    exact List.find?_congr (fun i member => by rw [Table.append_get_old (Table.holds_of_mem member)])
  change (t.assistants.append assistant).find? _ = _
  rw [Table.find?, Table.append_rows, List.find?_append, old, Option.some_or]

theorem Recorded.update (recorded : Recorded a t) {r' : Nat} {assistantId : Uuid}
    (other : t.assistants.find? (byId assistantId) = some r') (apart : assistantId ≠ a.assistantId)
    (f : AssistantRecord → AssistantRecord) (sameId : ∀ v, (f v).assistantId = v.assistantId) (versions : List AssistantVersion) :
    Recorded a ⟨t.assistants.update r' f, versions⟩ := by
  obtain ⟨r, found, same⟩ := recorded
  refine ⟨r, ?_, ?_⟩
  · change (t.assistants.update r' f).find? _ = _
    rw [Table.update_find? _ _ (fun v => by rw [byId, byId, sameId])]
    exact found
  · exact (Table.update_get_of_ne _ (get_other found other apart) f).trans same

theorem Recorded.removeAll (recorded : Recorded a t) {assistantId : Uuid} (apart : assistantId ≠ a.assistantId) :
    Recorded a (removeAll t assistantId) := by
  obtain ⟨r, found, same⟩ := recorded
  refine ⟨r, ?_, same⟩
  rw [← found]
  change (t.assistants.rows.filter _).find? (fun i => byId a.assistantId (t.assistants.get i)) = t.assistants.rows.find? _
  rw [List.find?_filter]
  refine List.find?_congr (fun i _ => ?_)
  by_cases own : (t.assistants.get i).assistantId = a.assistantId
  · simp [byId, own, Ne.symm apart]
  · simp [byId, own]

/-- The assistant and its rows are as they were. -/
def Spares (a : AssistantRecord) (t t' : AssistantTables) : Prop :=
  (Recorded a t → Recorded a t') ∧ rowsOf t' a.assistantId = rowsOf t a.assistantId

theorem Spares.refl (a : AssistantRecord) (t : AssistantTables) : Spares a t t := ⟨id, rfl⟩

variable (assertGraphExists) in
/-- A call about another assistant. -/
theorem spares_other (apart : k.target ≠ a.assistantId) (reply : Reply) :
    Spares a t (k.resume assertGraphExists t reply).1 := by
  cases k with
  | put call =>
    change Spares a t (Call.run assertGraphExists t (.put call) reply).1
    have effect := Call.effect assertGraphExists t (.put call) reply
    generalize Call.run assertGraphExists t (.put call) reply = out at effect ⊢
    cases effect with
    | unchanged => exact .refl a t
    | created => exact ⟨fun recorded => recorded.append _ _, rowsOf_append_other _ apart⟩
  | patch call =>
    change Spares a t (Call.run assertGraphExists t (.patch call) reply).1
    have effect := Call.effect assertGraphExists t (.patch call) reply
    generalize Call.run assertGraphExists t (.patch call) reply = out at effect ⊢
    cases effect with
    | unchanged => exact .refl a t
    | patched found =>
      exact ⟨fun recorded => recorded.update found apart (AssistantRecord.take _ _ _) (fun _ => rfl) _,
        rowsOf_append_other _ apart⟩
  | setLatest assistantId version =>
    change Spares a t (Call.run assertGraphExists t (.setLatest assistantId version) reply).1
    have effect := Call.effect assertGraphExists t (.setLatest assistantId version) reply
    generalize Call.run assertGraphExists t (.setLatest assistantId version) reply = out at effect ⊢
    cases effect with
    | unchanged => exact .refl a t
    | restored found =>
      exact ⟨fun recorded => recorded.update found apart (AssistantRecord.restore _ _) (fun _ => rfl) _, rfl⟩
  | delete assistantId =>
    rw [AssistantCall.resume]
    split
    · exact .refl a t
    · rw [startDelete_same]
      exact .refl a t
  | cascading assistantId =>
    change assistantId ≠ a.assistantId at apart
    rw [AssistantCall.resume]
    split
    · exact .refl a t
    · refine ⟨fun recorded => recorded.removeAll apart, ?_⟩
      rw [rowsOf_removeAll, if_neg (Ne.symm apart)]

/-- A turn that leaves a call waiting leaves it to delete the assistant that it is about. -/
theorem cascading_of_points {p : AssistantCall} (waits : p ∈ (k.resume assertGraphExists t reply).2.points) :
    p = .cascading k.target := by
  cases k with
  | put call => cases waits
  | patch call => cases waits
  | setLatest assistantId version => cases waits
  | delete assistantId =>
    rw [AssistantCall.resume] at waits
    split at waits
    · cases waits
    · rw [startDelete] at waits
      split at waits
      · cases waits
      · exact List.mem_singleton.mp waits
  | cascading assistantId =>
    rw [AssistantCall.resume] at waits
    split at waits <;> cases waits

theorem Stands.turn (stands : Stands a rows t (k :: others)) (refusing : Refusing a t others k reply) :
    Stands a rows (k.resume assertGraphExists t reply).1 ((k.resume assertGraphExists t reply).2.points ++ others) := by
  have others_wait : .cascading a.assistantId ∉ others := fun waits => stands.uncascaded (List.mem_cons_of_mem _ waits)
  by_cases about : k.target = a.assistantId
  · have fresh : k.isFresh = true := by
      cases k with
      | cascading assistantId =>
        change assistantId = a.assistantId at about
        exact absurd (about ▸ List.mem_cons_self) stands.uncascaded
      | _ => rfl
    obtain ⟨⟨e, refused⟩, _⟩ :=
      refused_turn assertGraphExists stands.record fresh about (refusing fresh about)
    rw [refused]
    exact ⟨stands.record, stands.rows, others_wait⟩
  · obtain ⟨record, same⟩ := spares_other assertGraphExists about reply
    refine ⟨record stands.record, same.trans stands.rows, fun waits => ?_⟩
    rcases List.mem_append.mp waits with mine | other
    · exact about (AssistantCall.cascading.inj (cascading_of_points mine)).symm
    · exact others_wait other

/-- What a filter does not let through is not kept. -/
theorem not_mem_of_keepOk {allows : AssistantRecord → Except PyError Bool} {assistants kept : List AssistantRecord}
    (refused : allows a = .ok false) (filtered : keepOk allows assistants = .ok kept) : a ∉ kept := by
  rw [keepOk_eq_ok filtered]
  intro member
  have passes := (List.mem_filter.mp member).2
  rw [Allowed, refused] at passes
  simp [Except.toOption] at passes

/-- Whatever other assistants' calls do in the meantime, an assistant that the filter
of every call about it refuses keeps its record and its versions, is neither got nor
found, and every such call ends with an error, which but for `put` is that of a
store without it. -/
theorem refused_untouched {l l' : EventLoop AssistantTables AssistantCall} (recorded : Recorded a l.state)
    (uncascaded : .cascading a.assistantId ∉ l.waiting)
    (reach : (assistantCalls assertGraphExists).Reaches (Refusing a) l l') :
    a ∈ l'.state.assistants.values ∧ rowsOf l'.state a.assistantId = rowsOf l.state a.assistantId ∧
      (∀ filters, filtersAllow a.metadata filters = .ok false →
        (∀ assistantId found, get l'.state assistantId filters = .ok found → a ∉ found) ∧
        ∀ lower upper call page, searchWith lower upper assertGraphExists l'.state.assistants.values call filters = .ok page →
          a ∉ page.records) ∧
      ∀ (k : AssistantCall) reply, k.isFresh = true → k.target = a.assistantId →
        (∀ filters, reply.answer = .ok filters → filtersAllow a.metadata filters = .ok false) →
        (∃ e, k.resume assertGraphExists l'.state reply = (l'.state, .finished (.error e))) ∧
          (k.isPut = false → (k.resume assertGraphExists l'.state reply).2 =
            (k.resume assertGraphExists (removeAll l'.state a.assistantId) reply).2) := by
  have stands : Stands a (rowsOf l.state a.assistantId) l'.state l'.waiting := by
    refine reach.invariant (P := Stands a (rowsOf l.state a.assistantId))
      (fun same stands => ⟨stands.record, stands.rows, fun waits => stands.uncascaded (same.mem_iff.mpr waits)⟩)
      (fun {t waiting k} stands new => ⟨stands.record, stands.rows, fun waits => ?_⟩)
      (fun stands refusing => stands.turn refusing) ⟨recorded, rfl, uncascaded⟩
    rcases List.mem_cons.mp waits with same | other
    · rw [← same] at new
      cases new
    · exact stands.uncascaded other
  obtain ⟨r, found, same⟩ := id stands.record
  refine ⟨Table.mem_values.mpr ⟨r, Table.find?_mem found, same⟩, stands.rows, fun filters refused => ⟨?_, ?_⟩,
    fun k reply fresh about refused => refused_turn assertGraphExists stands.record fresh about refused⟩
  · intro assistantId found got
    refine not_mem_of_keepOk ?_ got
    split
    · exact refused
    · rfl
  · intro lower upper call page listed member
    have paged := listed
    rw [searchWith] at paged
    obtain ⟨_, _, filtered⟩ := bind_ok paged
    obtain ⟨kept, matched, cut⟩ := bind_ok filtered
    cases cut
    have inKept : a ∈ kept :=
      (sortAssistants_perm call kept).mem_iff.mp (List.mem_of_mem_drop (List.mem_of_mem_take member))
    refine not_mem_of_keepOk ?_ matched inKept
    rw [AssistantFilter.allows]
    split
    · rfl
    · split
      · rfl
      · split
        · rfl
        · exact refused

end Refusals

section Tenants

def ownerAnswer (owner : String) : Reply := { plainReply with answer := .ok (.dict [("owner", .str owner)]) }

/-- An assistant that its owner makes. -/
def putOwned (assistantId : Uuid) (owner : String) : AssistantCall :=
  .put ⟨assistantId, "agent", [], .none, some [("owner", .str owner)], .raise, "helper", none⟩

def ownedOne : EventLoop AssistantTables AssistantCall :=
  (assistantCalls anyGraph).advance ⟨noTables, [putOwned ⟨1⟩ "a"]⟩ 0 (putOwned ⟨1⟩ "a") (ownerAnswer "a")

/-- Another owner makes an assistant, and fails to rename and to delete the first. -/
theorem refused_untouched_rename :
    ∃ t : AssistantTables, t.assistants.values.length = 2 ∧
      ownedOne.state.assistants.get 0 ∈ t.assistants.values ∧ versionsOf t ⟨1⟩ = [1] ∧
      rowsOf t ⟨1⟩ = rowsOf ownedOne.state ⟨1⟩ := by
  have refusing {t : AssistantTables} {others : List AssistantCall} {k : AssistantCall} :
      Refusing (ownedOne.state.assistants.get 0) t others k (ownerAnswer "b") := by
    rintro _ _ filters ⟨⟩
    rfl
  have made : (assistantCalls anyGraph).Reaches (Refusing (ownedOne.state.assistants.get 0)) ownedOne
      ⟨ownedOne.state, [putOwned ⟨2⟩ "b", renameOne, .delete ⟨1⟩]⟩ :=
    .call (.call (.call .start rfl) rfl) rfl
  have put := made.turn 0 (ownerAnswer "b") rfl refusing
  have renamed := put.turn 0 (ownerAnswer "b") rfl refusing
  have later := renamed.turn 0 (ownerAnswer "b") rfl refusing
  obtain ⟨stays, rows, _⟩ := refused_untouched ⟨0, rfl, rfl⟩ List.not_mem_nil later
  exact ⟨_, rfl, stays, rfl, rows⟩

end Tenants

end Assistants

end InmemRuntime
