import InmemRuntime.ThreadUpdates
import Mathlib.Data.List.Find

namespace InmemRuntime

namespace PyDict

/-- The items of the key, of which a dict has at most one, say the same. -/
def Settled (d : PyDict) (key : String) : Prop := ∀ item ∈ d, item.1 = key → d.get? key = some item.2

theorem mem_set {d : PyDict} {key : String} {value : PyVal} {item : String × PyVal} (member : item ∈ d.set key value) :
    item = (key, value) ∨ item ∈ d ∧ item.1 ≠ key := by
  unfold set at member
  split at member
  · obtain ⟨old, inside, changed⟩ := List.mem_map.mp member
    by_cases same : old.1 = key
    · rw [if_pos same] at changed
      exact Or.inl changed.symm
    · rw [if_neg same] at changed
      exact Or.inr (changed ▸ ⟨inside, same⟩)
  · rename_i absent
    rcases List.mem_append.mp member with old | new
    · refine Or.inr ⟨old, fun same => absent ?_⟩
      rw [hasKey, get?, List.lookup_isSome_iff]
      exact ⟨item, old, by simp [same]⟩
    · exact Or.inl (List.mem_singleton.mp new)

theorem settled_set (d : PyDict) (key key' : String) (value : PyVal) (before : key' = key ∨ d.Settled key') :
    (d.set key value).Settled key' := by
  intro item member named
  rcases mem_set member with rfl | ⟨old, other⟩
  · rw [← named, get?_set_self]
  · have apart : key' ≠ key := named ▸ other
    rw [get?_set_of_ne d apart]
    exact before.resolve_left apart item old named

theorem settled_update (d e : PyDict) (key : String) (before : key ∈ e.map Prod.fst ∨ d.Settled key) :
    (update d e).Settled key := by
  induction e generalizing d with
  | nil => exact before.resolve_left (by simp)
  | cons item e ih =>
    refine ih (d.set item.1 item.2) ?_
    rcases before with own | settled
    · rcases List.mem_cons.mp own with same | later
      · exact Or.inr (settled_set d item.1 key item.2 (Or.inl same))
      · exact Or.inl later
    · exact Or.inr (settled_set d item.1 key item.2 (Or.inr settled))

theorem settled_nil (key : String) : Settled [] key := fun _ member => by cases member

theorem get?_update_of_not_mem (d e : PyDict) {key : String} (other : key ∉ e.map Prod.fst) :
    (update d e).get? key = d.get? key := by
  induction e generalizing d with
  | nil => rfl
  | cons item e ih =>
    rw [List.map_cons, List.mem_cons, not_or] at other
    have rest := ih (d.set item.1 item.2) other.2
    rwa [get?_set_of_ne d other.1] at rest

/-- Items that agree on a key say what the key is updated to. -/
theorem get?_update_of_agree (d e : PyDict) {key : String} {value : PyVal} (present : key ∈ e.map Prod.fst)
    (agree : ∀ item ∈ e, item.1 = key → item.2 = value) : (update d e).get? key = some value := by
  induction e generalizing d with
  | nil => cases present
  | cons item e ih =>
    have rest := fun later member => agree later (List.mem_cons_of_mem _ member)
    by_cases later : key ∈ e.map Prod.fst
    · exact ih (d.set item.1 item.2) later rest
    · have own : key = item.1 := (List.mem_cons.mp present).resolve_right later
      have last := get?_update_of_not_mem (d.set item.1 item.2) e later
      rw [update] at last
      rw [update, List.foldl_cons, last, own, get?_set_self, agree item (List.mem_cons_self ..) own.symm]

/-- A copy says the same. -/
theorem get?_copy {d : PyDict} {key : String} (settled : d.Settled key) : (update [] d).get? key = d.get? key := by
  by_cases present : key ∈ d.map Prod.fst
  · obtain ⟨item, member, rfl⟩ := List.mem_map.mp present
    rw [settled item member rfl]
    refine get?_update_of_agree [] d present (fun other inside same => ?_)
    exact Option.some.inj ((settled other inside same).symm.trans (settled item member rfl))
  · rw [get?_update_of_not_mem [] d present]
    refine (Option.eq_none_iff_forall_ne_some.mpr (fun value found => ?_)).symm
    have inside : (d.lookup key).isSome = true := by
      rw [← get?, found]
      rfl
    obtain ⟨item, member, same⟩ := List.lookup_isSome_iff.mp inside
    exact present (List.mem_map.mpr ⟨item, member, (beq_iff_eq.mp same).symm⟩)

end PyDict

/-- The field can be read, and copied, as one value. -/
def Thread.Settled (thread : Thread) : ThreadField → Prop
  | .metadata key => PyDict.Settled thread.metadata key
  | _ => True

/-- Only the given fields of a record change. -/
structure ChangesOnly (fields : List ThreadField) (thread thread' : Thread) : Prop where
  threadId : thread'.threadId = thread.threadId
  settled : ∀ field, field ∈ fields ∨ thread.Settled field → thread'.Settled field
  others : ∀ field, field ∉ fields → thread.Settled field → thread'.read field = thread.read field

theorem ChangesOnly.refl (thread : Thread) : ChangesOnly [] thread thread where
  threadId := rfl
  settled _ given := given.resolve_left (by simp)
  others _ _ _ := rfl

theorem withStateUpdatedAt_changes (thread : Thread) : ChangesOnly [] thread thread.withStateUpdatedAt where
  threadId := rfl
  settled field given := by
    have before := given.resolve_left (by simp)
    cases field <;> exact before
  others field _ _ := by cases field <;> rfl

theorem patched_changes (thread : Thread) (metadata : PyDict) (now : Time) :
    ChangesOnly (metadata.map (fun item => .metadata item.1)) thread (Threads.patched thread metadata now) := by
  have listed : ∀ key, ThreadField.metadata key ∈ metadata.map (fun item => ThreadField.metadata item.1) ↔
      key ∈ metadata.map Prod.fst := by
    intro key
    simp only [List.mem_map, ThreadField.metadata.injEq]
  constructor
  case threadId => rfl
  case settled =>
    intro field given
    cases field with
    | metadata key => exact PyDict.settled_update _ _ key (given.imp (listed key).mp id)
    | status | config | values => trivial
  case others =>
    intro field other _
    cases field with
    | metadata key => exact congrArg FieldValue.item (PyDict.get?_update_of_not_mem _ _ (fun member => other ((listed key).mpr member)))
    | status | config | values => rfl

theorem markBusy_changes (call : Runs.PutCall) (assistant : Assistant) (now : Time) (thread : Thread) :
    ChangesOnly (if thread.status = .busy then [] else [.status, .config, .metadata "graph_id", .metadata "assistant_id"])
      thread (Runs.markBusy call assistant now thread) := by
  unfold Runs.markBusy
  split
  · exact ChangesOnly.refl thread
  · constructor
    case threadId => rfl
    case settled =>
      intro field _
      cases field with
      | metadata key => exact PyDict.settled_update _ _ key (Or.inr (PyDict.settled_update _ _ key (Or.inr (PyDict.settled_nil key))))
      | status | config | values => trivial
    case others =>
      intro field other settled
      cases field with
      | metadata key =>
        have apart : key ∉ ([("graph_id", PyVal.str assistant.graphId),
            ("assistant_id", PyVal.str assistant.assistantId.str)] : PyDict).map Prod.fst := by
          simpa using other
        have kept := (PyDict.get?_update_of_not_mem (PyDict.update [] thread.metadata) _ apart).trans (PyDict.get?_copy settled)
        exact congrArg FieldValue.item kept
      | values => rfl
      | status | config => simp at other

theorem reported_changes (call : Threads.JointCall) (status : ThreadStatus) (now : Time) (thread : Thread) :
    ChangesOnly call.fields thread (Thread.reported status call.checkpoint call.exception now
      { thread with metadata := thread.metadata.set "graph_id" (.str call.graphId) }) := by
  constructor
  case threadId => rfl
  case settled =>
    intro field given
    cases field with
    | metadata key =>
      refine PyDict.settled_set _ _ _ _ (given.imp_left (fun member => ?_))
      simp only [Threads.JointCall.fields] at member
      split at member <;> simpa using member
    | status | config | values => trivial
  case others =>
    intro field other _
    cases field with
    | metadata key =>
      have apart : key ≠ "graph_id" := fun same => other (by simp [Threads.JointCall.fields, same])
      exact congrArg FieldValue.item (PyDict.get?_set_of_ne _ apart _)
    | config => rfl
    | status => simp [Threads.JointCall.fields] at other
    | values =>
      cases given : call.checkpoint with
      | none => rfl
      | some checkpoint => simp [Threads.JointCall.fields, given] at other

def idsOf (threads : Table Thread) : List Uuid := threads.values.map Thread.threadId

theorem findIdx?_ids (threads : Table Thread) (threadId : Uuid) :
    threads.findIdx? (Threads.byId threadId) = (idsOf threads).findIdx? (fun id => id = threadId) := by
  simp only [Table.findIdx?, idsOf, Table.values, List.map_map, List.findIdx?_map]
  rfl

theorem find?_eq (threads : Table Thread) (p : Thread → Bool) :
    threads.find? p = (threads.findIdx? p).bind (fun i => threads.rows[i]?) :=
  List.find?_eq_bind_findIdx?_getElem?

/-- References keep their ids, and positions their threads. -/
structure KeepsIds (threads threads' : Table Thread) : Prop where
  size : threads.size ≤ threads'.size
  threadId : ∀ r, threads.Holds r → (threads'.get r).threadId = (threads.get r).threadId
  ids : ∃ added, idsOf threads' = idsOf threads ++ added

theorem KeepsIds.refl (threads : Table Thread) : KeepsIds threads threads :=
  ⟨Nat.le_refl _, fun _ _ => rfl, [], (List.append_nil _).symm⟩

theorem KeepsIds.trans {threads threads' threads'' : Table Thread} (first : KeepsIds threads threads')
    (second : KeepsIds threads' threads'') : KeepsIds threads threads'' where
  size := Nat.le_trans first.size second.size
  threadId r held := by
    have still : threads'.Holds r := Nat.lt_of_lt_of_le held first.size
    rw [second.threadId r still, first.threadId r held]
  ids := by
    obtain ⟨added, ids⟩ := first.ids
    obtain ⟨added', ids'⟩ := second.ids
    exact ⟨added ++ added', by rw [ids', ids, List.append_assoc]⟩

theorem KeepsIds.findIdx? {threads threads' : Table Thread} (keeps : KeepsIds threads threads') {threadId : Uuid} {i : Nat}
    (found : threads.findIdx? (Threads.byId threadId) = some i) : threads'.findIdx? (Threads.byId threadId) = some i := by
  obtain ⟨added, ids⟩ := keeps.ids
  rw [findIdx?_ids] at found
  rw [findIdx?_ids, ids, List.findIdx?_append, found]
  rfl

section Writes

variable (threadId : Uuid)

/-- What a turn does to the list: it writes the record of the thread where the
list has it, adds that record, or has to do with other threads only. -/
inductive Writes : Table Thread → Table Thread → Written → Prop
  | nothing (threads) : Writes threads threads nothingWritten
  | updated {threads r f fields} : threads.Holds r → (∀ thread : Thread, (f thread).threadId = thread.threadId) →
      ChangesOnly fields (threads.get r) (f (threads.get r)) →
      ((threads.get r).threadId = threadId → fields ≠ [] → threads.find? (Threads.byId threadId) = some r) →
      Writes threads (threads.update r f) (r, fields)
  | replaced {threads i r thread fields} : threads.rows[i]? = some r → ChangesOnly fields (threads.get r) thread →
      ((threads.get r).threadId = threadId → threads.findIdx? (Threads.byId threadId) = some i) →
      Writes threads (threads.replaceAt i thread) (threads.size, fields)
  | added {threads} {thread : Thread} {fields} : (∀ field ∈ fields, thread.Settled field) →
      (thread.threadId = threadId → threads.find? (Threads.byId threadId) = none) →
      Writes threads (threads.append thread) (threads.size, fields)
  | twice {threads threads' threads'' r written} : Writes threads threads' (r, []) → Writes threads' threads'' written →
      Writes threads threads'' written

/-- The record of the thread says what has been written to it last. -/
structure LogRecorded (threads : Table Thread) (log : List (ThreadField × FieldValue)) : Prop where
  absent : threads.find? (Threads.byId threadId) = none → log = []
  last : ∀ r, threads.find? (Threads.byId threadId) = some r → ∀ field value, lastWritten log field = some value →
    (threads.get r).read field = value ∧ (threads.get r).Settled field

variable {threadId}

theorem lastWritten_append (log : List (ThreadField × FieldValue)) (thread : Thread) (fields : List ThreadField)
    (field : ThreadField) :
    lastWritten (log ++ fields.map (fun field => (field, thread.read field))) field =
      if field ∈ fields then some (thread.read field) else lastWritten log field := by
  induction fields generalizing log with
  | nil => simp
  | cons first fields ih =>
    have rest := ih (log ++ [(first, thread.read first)])
    rw [List.map_cons, ← List.append_cons] at *
    rw [rest]
    by_cases later : field ∈ fields
    · simp [later]
    · by_cases same : field = first
      · simp [same, lastWritten]
      · simp [later, same, lastWritten, Ne.symm same]

theorem Writes.keepsIds {threads threads' : Table Thread} {written : Written} (writes : Writes threadId threads threads' written) :
    KeepsIds threads threads' := by
  induction writes with
  | nothing threads => exact .refl _
  | @updated threads r f fields held same _ _ =>
    refine ⟨Nat.le_refl _, fun i _ => ?_, [], ?_⟩
    · rw [Table.update_get]
      split
      · exact same _
      · rfl
    · rw [List.append_nil]
      exact Table.update_values_map threads r same
  | @replaced threads i r thread fields stands changes _ =>
    refine ⟨Nat.le_succ _, fun j held => by rw [Table.replaceAt_get_old held], [], ?_⟩
    have here : (idsOf threads)[i]? = some thread.threadId := by
      rw [idsOf, List.getElem?_map, Table.values_getElem?, stands, changes.threadId]
      rfl
    obtain ⟨inside, value⟩ := List.getElem?_eq_some_iff.mp here
    rw [List.append_nil, idsOf, Table.replaceAt_values, List.map_set, ← value]
    exact List.set_getElem_self inside
  | @added threads thread fields _ _ =>
    refine ⟨Nat.le_succ _, fun j held => by rw [Table.append_get_old held], [thread.threadId], ?_⟩
    rw [idsOf, Table.append_values, List.map_append]
    rfl
  | twice _ _ first second => exact first.trans second

theorem writtenTo_other {threads : Table Thread} {written : Written}
    (other : (threads.get written.1).threadId ≠ threadId ∨ written.2 = []) : writtenTo threadId threads written = [] := by
  rcases other with apart | none
  · exact if_neg apart
  · simp [writtenTo, none]

/-- After the record has been written, its fields say so. -/
theorem last_of_changes {log : List (ThreadField × FieldValue)} {fields : List ThreadField} {thread thread' : Thread}
    (own : thread'.threadId = threadId) (changes : ChangesOnly fields thread thread')
    (last : ∀ field value, lastWritten log field = some value → thread.read field = value ∧ thread.Settled field)
    {threads' : Table Thread} {r : Nat} (here : threads'.get r = thread') (field : ThreadField) (value : FieldValue)
    (found : lastWritten (log ++ writtenTo threadId threads' (r, fields)) field = some value) :
    thread'.read field = value ∧ thread'.Settled field := by
  rw [writtenTo, here, if_pos own, lastWritten_append] at found
  split at found
  · rename_i member
    exact ⟨Option.some.inj found, changes.settled field (Or.inl member)⟩
  · rename_i absent
    obtain ⟨same, settled⟩ := last field value found
    exact ⟨(changes.others field absent settled).trans same, changes.settled field (Or.inr settled)⟩

theorem find?_holds {threads : Table Thread} {r : Nat} (found : threads.find? (Threads.byId threadId) = some r) :
    threads.Holds r ∧ (threads.get r).threadId = threadId := by
  refine ⟨Table.holds_of_mem (Table.find?_mem found), ?_⟩
  simpa [Threads.byId] using Table.find?_passes found

theorem update_find?_byId (threads : Table Thread) (r : Nat) {f : Thread → Thread}
    (same : ∀ thread : Thread, (f thread).threadId = thread.threadId) :
    (threads.update r f).find? (Threads.byId threadId) = threads.find? (Threads.byId threadId) :=
  Table.update_find? threads r (fun thread => by rw [Threads.byId, Threads.byId, same])

theorem LogRecorded.updated {threads : Table Thread} {log : List (ThreadField × FieldValue)}
    (recorded : LogRecorded threadId threads log) {r : Nat} {f : Thread → Thread} {fields : List ThreadField}
    (same : ∀ thread : Thread, (f thread).threadId = thread.threadId)
    (changes : ChangesOnly fields (threads.get r) (f (threads.get r)))
    (listed : (threads.get r).threadId = threadId → fields ≠ [] → threads.find? (Threads.byId threadId) = some r) :
    LogRecorded threadId (threads.update r f) (log ++ writtenTo threadId (threads.update r f) (r, fields)) := by
  have elsewhere : threads.find? (Threads.byId threadId) ≠ some r →
      writtenTo threadId (threads.update r f) (r, fields) = [] := by
    intro other
    refine writtenTo_other ?_
    rw [Table.update_get_self, same]
    by_contra both
    rw [not_or, not_not] at both
    exact other (listed both.1 both.2)
  constructor
  case absent =>
    intro absent
    rw [update_find?_byId threads r same] at absent
    rw [recorded.absent absent, elsewhere (by simp [absent]), List.append_nil]
  case last =>
    intro i found field value written
    rw [update_find?_byId threads r same] at found
    by_cases here : i = r
    · subst here
      have own : (f (threads.get i)).threadId = threadId := (same _).trans (find?_holds found).2
      rw [Table.update_get_self]
      exact last_of_changes own changes (recorded.last i found) (Table.update_get_self threads i f) field value written
    · rw [elsewhere (by simp [found, here]), List.append_nil] at written
      rw [Table.update_get_of_ne threads here]
      exact recorded.last i found field value written

theorem LogRecorded.replaced {threads : Table Thread} {log : List (ThreadField × FieldValue)}
    (recorded : LogRecorded threadId threads log) {i r : Nat} {thread : Thread} {fields : List ThreadField}
    (stands : threads.rows[i]? = some r) (changes : ChangesOnly fields (threads.get r) thread)
    (first : (threads.get r).threadId = threadId → threads.findIdx? (Threads.byId threadId) = some i)
    (keeps : KeepsIds threads (threads.replaceAt i thread)) :
    LogRecorded threadId (threads.replaceAt i thread)
      (log ++ writtenTo threadId (threads.replaceAt i thread) (threads.size, fields)) := by
  have new : (threads.replaceAt i thread).get threads.size = thread := by
    simp [Table.get, Table.replaceAt]
  have inside : i < threads.rows.length := (List.getElem?_eq_some_iff.mp stands).1
  by_cases own : (threads.get r).threadId = threadId
  · have here := first own
    have before : threads.find? (Threads.byId threadId) = some r := by
      rw [find?_eq, here]
      exact stands
    have after : (threads.replaceAt i thread).find? (Threads.byId threadId) = some threads.size := by
      rw [find?_eq, keeps.findIdx? here]
      exact List.getElem?_set_self inside
    constructor
    case absent => exact fun absent => absurd (after.symm.trans absent) (by simp)
    case last =>
      intro j found field value written
      cases after.symm.trans found
      rw [new]
      exact last_of_changes (changes.threadId.trans own) changes (recorded.last r before) new field value written
  · have unwritten : writtenTo threadId (threads.replaceAt i thread) (threads.size, fields) = [] := by
      refine writtenTo_other (Or.inl ?_)
      rw [new, changes.threadId]
      exact own
    have same : (threads.replaceAt i thread).find? (Threads.byId threadId) = threads.find? (Threads.byId threadId) := by
      obtain ⟨added, ids⟩ := keeps.ids
      have length : (idsOf (threads.replaceAt i thread)).length = (idsOf threads).length := by
        simp [idsOf]
      have none : added = [] := by
        rw [ids, List.length_append] at length
        exact List.eq_nil_of_length_eq_zero (by omega)
      rw [find?_eq, find?_eq, findIdx?_ids, findIdx?_ids, ids, none, List.append_nil]
      cases at_j : (idsOf threads).findIdx? (fun id => id = threadId) with
      | none => rfl
      | some j =>
        have other : j ≠ i := by
          rintro rfl
          rw [← findIdx?_ids] at at_j
          obtain ⟨r', stands', passes⟩ := Table.findIdx?_eq_some at_j
          cases stands.symm.trans stands'
          exact own (by simpa [Threads.byId] using passes)
        exact List.getElem?_set_ne other.symm
    constructor
    case absent =>
      intro absent
      rw [unwritten, List.append_nil]
      exact recorded.absent (same ▸ absent)
    case last =>
      intro j found field value written
      rw [unwritten, List.append_nil] at written
      rw [same] at found
      rw [Table.replaceAt_get_old (find?_holds found).1]
      exact recorded.last j found field value written

theorem LogRecorded.added {threads : Table Thread} {log : List (ThreadField × FieldValue)}
    (recorded : LogRecorded threadId threads log) {thread : Thread} {fields : List ThreadField}
    (settled : ∀ field ∈ fields, thread.Settled field)
    (absent : thread.threadId = threadId → threads.find? (Threads.byId threadId) = none) :
    LogRecorded threadId (threads.append thread) (log ++ writtenTo threadId (threads.append thread) (threads.size, fields)) := by
  have new : (threads.append thread).get threads.size = thread := Table.append_get_new threads thread
  have searched : (threads.append thread).find? (Threads.byId threadId) =
      (threads.find? (Threads.byId threadId)).or (if thread.threadId = threadId then some threads.size else none) := by
    have old : threads.rows.find? (fun r => Threads.byId threadId ((threads.append thread).get r)) =
        threads.find? (Threads.byId threadId) := by
      refine List.find?_congr (fun r member => ?_)
      rw [Table.append_get_old (threads.bounded r member)]
    rw [Table.find?, Table.append_rows, List.find?_append, old]
    by_cases own : thread.threadId = threadId
    · simp [new, Threads.byId, own]
    · simp [new, Threads.byId, own]
  by_cases own : thread.threadId = threadId
  · rw [absent own, if_pos own, Option.none_or] at searched
    constructor
    case absent => exact fun none => absurd (searched.symm.trans none) (by simp)
    case last =>
      intro r found field value written
      cases searched.symm.trans found
      rw [recorded.absent (absent own), List.nil_append] at written
      have last := lastWritten_append [] thread fields field
      rw [List.nil_append] at last
      rw [writtenTo, new, if_pos own, last] at written
      rw [new]
      split at written
      · rename_i member
        exact ⟨Option.some.inj written, settled field member⟩
      · cases written
  · have unwritten : writtenTo threadId (threads.append thread) (threads.size, fields) = [] := by
      refine writtenTo_other (Or.inl ?_)
      rw [new]
      exact own
    rw [if_neg own, Option.or_none] at searched
    rw [unwritten, List.append_nil]
    constructor
    case absent => exact fun none => recorded.absent (searched ▸ none)
    case last =>
      intro r found field value written
      rw [searched] at found
      rw [Table.append_get_old (find?_holds found).1]
      exact recorded.last r found field value written

theorem Writes.recorded {threads threads' : Table Thread} {written : Written}
    (writes : Writes threadId threads threads' written) {log : List (ThreadField × FieldValue)}
    (recorded : LogRecorded threadId threads log) : LogRecorded threadId threads' (log ++ writtenTo threadId threads' written) := by
  induction writes generalizing log with
  | nothing threads =>
    rw [writtenTo_other (Or.inr rfl), List.append_nil]
    exact recorded
  | updated held same changes listed => exact recorded.updated same changes listed
  | replaced stands changes first =>
    exact recorded.replaced stands changes first (Writes.replaced stands changes first).keepsIds
  | added settled absent => exact recorded.added settled absent
  | twice _ _ first second =>
    have once := first recorded
    rw [writtenTo_other (Or.inr rfl), List.append_nil] at once
    exact second once

end Writes

/-- What a suspended call knows of the list. -/
def UpdateCall.Aims (threads : Table Thread) : UpdateCall → Prop
  | .patch (.authorizing call threadIdx) => threads.findIdx? (Threads.byId call.threadId) = some threadIdx
  | .put (.authorizingAssistant _ _ (some r) _) => threads.Holds r
  | .put (.creatingThread _ _ thread) => ∀ key, PyDict.Settled thread.metadata key
  | .joint (.rollingBack call thread _ _) => threads.Holds thread ∧ (threads.get thread).threadId = call.threadId
  | _ => True

theorem UpdateCall.Aims.keeps {threads threads' : Table Thread} {k : UpdateCall} (aims : k.Aims threads)
    (keeps : KeepsIds threads threads') : k.Aims threads' := by
  cases k with
  | patch p =>
    cases p with
    | called => trivial
    | authorizing call threadIdx => exact keeps.findIdx? aims
  | put p =>
    cases p with
    | authorizingAssistant call assistant existing filters =>
      cases existing with
      | none => trivial
      | some r => exact Nat.lt_of_lt_of_le aims keeps.size
    | creatingThread => exact aims
    | called | authorizing => trivial
  | joint p =>
    cases p with
    | called => trivial
    | rollingBack call thread now deletion =>
      obtain ⟨held, named⟩ := aims
      exact ⟨Nat.lt_of_lt_of_le held keeps.size, (keeps.threadId thread held).trans named⟩

section Turns

variable {threadId : Uuid} {s : Runtime}

theorem passes_iff {r : Nat} {filters : PyVal} :
    passes s r filters = true ↔ filtersAllow (s.threads.get r).metadata filters = .ok true := by
  unfold passes
  rcases filtersAllow (s.threads.get r).metadata filters with e | allowed <;> simp [Except.toOption]

theorem patch_writes {p : Threads.Patch} (aims : UpdateCall.Aims s.threads (.patch p)) (reply : Reply) :
    Writes threadId s.threads (Threads.Patch.resume s p reply).1.threads (p.written s reply) := by
  have effect := Threads.Patch.effect s p reply
  generalize Threads.Patch.resume s p reply = out at effect ⊢
  cases effect with
  | missing | suspended => exact .nothing _
  | @failed call threadIdx e cause =>
    have none : (Threads.Patch.authorizing call threadIdx).written s reply = nothingWritten := by
      simp only [Threads.Patch.written]
      split
      · rename_i filters r answer stands
        rcases cause with raised | absent
        · cases answer.symm.trans raised
        · cases stands.symm.trans absent
      · rfl
    rw [none]
    exact .nothing _
  | @refused call threadIdx r filters outcome answer stands _ refusal =>
    rw [Threads.Patch.written, answer, stands]
    dsimp only
    rw [if_neg (passes_iff.not.mpr refusal)]
    exact .nothing _
  | @replaced call threadIdx r filters outcome ttls answer stands allowed =>
    rw [Threads.Patch.written, answer, stands]
    dsimp only
    rw [if_pos (passes_iff.mpr allowed)]
    refine .replaced stands (patched_changes (s.threads.get r) call.metadata reply.now) (fun own => ?_)
    obtain ⟨r', stands', named⟩ := Table.findIdx?_eq_some aims
    cases stands.symm.trans stands'
    have same : (s.threads.get r).threadId = call.threadId := by simpa [Threads.byId] using named
    rw [← own, same]
    exact aims

theorem insert_threads (s : Runtime) (call : Runs.PutCall) (assistant : Assistant) (existing : Option Nat)
    (id : Uuid) (now : Time) : (Runs.Put.insert s call assistant existing id now).1.threads = s.threads := by
  unfold Runs.Put.insert
  dsimp only
  split
  · rfl
  · cases addDelta now (call.afterSeconds * 1000000) <;> rfl

theorem place_writes (call : Runs.PutCall) (assistant : Assistant) {existing : Option Nat} (filters : PyVal) (reply : Reply)
    (held : ∀ r, existing = some r → s.threads.Holds r)
    (listed : ∀ r, existing = some r → (s.threads.get r).threadId = threadId → (s.threads.get r).status ≠ .busy →
      s.threads.find? (Threads.byId threadId) = some r) :
    Writes threadId s.threads (Runs.Put.place s call assistant existing filters reply).1.threads
      (Runs.Put.extended s existing filters) := by
  cases existing with
  | none =>
    unfold Runs.Put.place
    dsimp only [Runs.Put.extended]
    split <;> exact .nothing _
  | some r =>
    rw [Runs.Put.place, Runs.Put.extended]
    refine attempt_cases (fun e raised => ?_) (fun allowed verdict => ?_)
    · rw [if_neg (fun both => by simp [passes_iff, raised] at both)]
      exact .nothing _
    · cases allowed with
      | false =>
        have stopped : ¬ (passes s r filters = true ∧ (s.threads.get r).status ≠ .busy) :=
          fun both => by cases verdict.symm.trans (passes_iff.mp both.1)
        rw [if_pos rfl, if_neg stopped]
        exact .nothing _
      | true =>
        simp only [Bool.true_eq_false, if_false, insert_threads, passes_iff.mpr verdict, true_and]
        have changes := markBusy_changes call assistant reply.now (s.threads.get r)
        have same := Runs.markBusy_threadId call assistant reply.now
        by_cases busy : (s.threads.get r).status = .busy
        · rw [if_pos busy] at changes
          rw [if_neg (by simp [busy])]
          exact .twice (.updated (held r rfl) same changes (fun _ some => absurd rfl some)) (.nothing _)
        · rw [if_neg busy] at changes
          rw [if_pos busy]
          exact .updated (held r rfl) same changes (fun own _ => listed r rfl own busy)

theorem put_writes (log : List (ThreadField × FieldValue)) (others : List UpdateCall) {p : Runs.Put}
    (aims : UpdateCall.Aims s.threads (.put p)) {reply : Reply} (listed : StillListed threadId ⟨s, log⟩ others (.put p) reply) :
    Writes threadId s.threads (Runs.Put.resume s p reply).1.threads (p.written s reply) := by
  cases p with
  | called call =>
    rw [Runs.Put.resume, Runs.Put.written]
    split <;> exact .nothing _
  | authorizing call assistant =>
    rw [Runs.Put.resume, Runs.Put.written]
    cases reply.answer with
    | error e => exact .nothing _
    | ok filters =>
      simp only [attempt_ok]
      split
      · have found : ∀ r, Runs.existingThread s call = some r → ∃ id, s.threads.find? (Threads.byId id) = some r := by
          intro r existing
          obtain ⟨id, _, here⟩ := Option.bind_eq_some_iff.mp existing
          exact ⟨id, here⟩
        refine place_writes call assistant filters reply (fun r existing => ?_) (fun r existing own _ => ?_)
        · obtain ⟨id, here⟩ := found r existing
          exact (find?_holds here).1
        · obtain ⟨id, here⟩ := found r existing
          rwa [← own, (find?_holds here).2]
      · exact .nothing _
  | authorizingAssistant call assistant existing filters =>
    rw [Runs.Put.resume, Runs.Put.written]
    cases reply.answer with
    | error e => exact .nothing _
    | ok assistantFilters =>
      dsimp only [attempt_ok]
      refine attempt_cases (fun e raised => ?_) (fun allowed verdict => ?_)
      · rw [if_neg (by simp [raised, Except.toOption])]
        exact .nothing _
      · cases allowed with
        | false =>
          rw [if_pos rfl, if_neg (by simp [verdict, Except.toOption])]
          exact .nothing _
        | true =>
          rw [if_neg (by simp), if_pos (by simp [verdict, Except.toOption])]
          refine place_writes call assistant filters reply (fun r same => ?_) (fun r same => ?_)
          · subst same
            exact aims
          · subst same
            exact listed
  | creatingThread call assistant thread =>
    rw [Runs.Put.resume, Runs.Put.written]
    cases reply.answer with
    | error e => exact .nothing _
    | ok value =>
      simp only [attempt_ok, insert_threads]
      refine .added (fun field member => ?_) listed
      cases field with
      | metadata key => exact aims key
      | status | config | values => trivial

theorem delete_threads (serde : Serde) (s : Runtime) (deletion : Runs.Delete) (reply : Reply) :
    (Runs.Delete.resume serde s deletion reply).1.threads = s.threads ∨ ∃ r, s.threads.Holds r ∧
      (Runs.Delete.resume serde s deletion reply).1.threads = s.threads.update r Thread.withStateUpdatedAt := by
  have remove : ∀ (s : Runtime) runId id, (Runs.Delete.remove s runId id).1.threads = s.threads := by
    intro s runId id
    unfold Runs.Delete.remove
    split <;> rfl
  have checkpoints : ∀ (s : Runtime) runId id, (Runs.Delete.checkpoints serde s runId id).1.threads = s.threads := by
    intro s runId id
    unfold Runs.Delete.checkpoints
    split
    · rfl
    · exact remove _ runId id
  cases deletion with
  | called => exact Or.inl rfl
  | deletingCheckpoints runId id =>
    rw [Runs.Delete.resume]
    refine attempt_cases (fun e _ => Or.inl rfl) (fun value _ => Or.inl (remove s runId id))
  | authorizing runId id =>
    rw [Runs.Delete.resume]
    refine attempt_cases (fun e _ => Or.inl rfl) (fun filters _ => ?_)
    split
    · cases found : s.threads.find? (Threads.byId id) with
      | none =>
        have visible : Threads.getWithFilters s id filters = (s, .ok none) := by
          rw [Threads.getWithFilters, found]
        rw [visible]
        exact Or.inl rfl
      | some r =>
        rcases verdict : filtersAllow (s.threads.get r).metadata filters with e | allowed
        · have visible : Threads.getWithFilters s id filters = (s, .error e) := by
            rw [Threads.getWithFilters, found]
            simp only [verdict]
          rw [visible]
          exact Or.inl rfl
        · cases allowed with
          | false =>
            have visible : Threads.getWithFilters s id filters = (s, .ok none) := by
              rw [Threads.getWithFilters, found]
              simp only [verdict]
            rw [visible]
            exact Or.inl rfl
          | true =>
            have visible : Threads.getWithFilters s id filters =
                ({ s with threads := s.threads.update r Thread.withStateUpdatedAt }, .ok (some r)) := by
              rw [Threads.getWithFilters, found]
              simp only [verdict]
            rw [visible]
            refine Or.inr ⟨r, (find?_holds found).1, ?_⟩
            exact checkpoints _ runId id
    · exact Or.inl (checkpoints s runId id)

/-- The end of `set_joint_status` writes the record that was found at its start. -/
theorem finish_writes {call : Threads.JointCall} {thread : Nat} (held : s.threads.Holds thread) (now : Time) (busy : Bool)
    (listed : (s.threads.get thread).threadId = threadId → s.threads.find? (Threads.byId threadId) = some thread) :
    Writes threadId s.threads (Threads.Joint.finish s call thread now busy).threads (thread, call.fields) :=
  Writes.updated (f := fun record =>
      Thread.reported (if busy then .busy else Threads.baseStatus call.checkpoint call.failed) call.checkpoint call.exception
        now { record with metadata := record.metadata.set "graph_id" (.str call.graphId) })
    held (fun _ => rfl) (reported_changes call _ now _) (fun own _ => listed own)

theorem joint_writes (serde : Serde) (log : List (ThreadField × FieldValue)) (others : List UpdateCall) {p : Threads.Joint}
    (aims : UpdateCall.Aims s.threads (.joint p)) {reply : Reply}
    (listed : StillListed threadId ⟨s, log⟩ others (.joint p) reply) :
    Writes threadId s.threads (Threads.Joint.resume serde s p reply).1.threads (p.written serde s reply) := by
  cases p with
  | called call =>
    rw [Threads.Joint.resume, Threads.Joint.written]
    cases found : s.threads.find? (Threads.byId call.threadId) with
    | none => exact .nothing _
    | some thread =>
      obtain ⟨held, named⟩ := find?_holds found
      dsimp only
      cases s.runs.find? (Runs.byIds call.runId call.threadId) with
      | none => exact .nothing _
      | some run =>
        cases call.runStatus with
        | rollback => exact .nothing _
        | status status =>
          refine finish_writes held reply.now _ (fun own => ?_)
          rw [← own, named]
          exact found
  | rollingBack call thread now deletion =>
    obtain ⟨held, named⟩ := aims
    rw [Threads.Joint.resume, Threads.Joint.written]
    have threads := delete_threads serde s deletion reply
    generalize Runs.Delete.resume serde s deletion reply = turn at threads ⊢
    obtain ⟨s', outcome⟩ := turn
    have quiet : ∀ {threads'' : Table Thread} {written : Written}, Writes threadId s'.threads threads'' written →
        Writes threadId s.threads threads'' written := by
      intro threads'' written after
      rcases threads with same | ⟨r, inside, updated⟩
      · exact same ▸ after
      · have changes := withStateUpdatedAt_changes (s.threads.get r)
        have first : Writes threadId s.threads s'.threads (r, []) := by
          rw [show s'.threads = _ from updated]
          exact .updated inside (fun _ => rfl) changes (fun _ some => absurd rfl some)
        exact .twice first after
    have kept : s'.threads.find? (Threads.byId threadId) = s.threads.find? (Threads.byId threadId) ∧
        s'.threads.Holds thread ∧ (s'.threads.get thread).threadId = (s.threads.get thread).threadId := by
      rcases threads with same | ⟨r, inside, updated⟩
      · rw [show s'.threads = s.threads from same]
        exact ⟨rfl, held, rfl⟩
      · rw [show s'.threads = _ from updated]
        refine ⟨update_find?_byId _ r (fun _ => rfl), held, ?_⟩
        rw [Table.update_get]
        split <;> rfl
    have finished : Writes threadId s.threads
        (Threads.Joint.finish s' call thread now (Threads.hasActiveRuns s' call.threadId)).threads (thread, call.fields) := by
      refine quiet (finish_writes kept.2.1 now _ (fun own => ?_))
      rw [kept.1]
      exact listed (named ▸ kept.2.2 ▸ own)
    cases outcome with
    | suspended point => exact quiet (.nothing _)
    | finished result =>
      cases result with
      | error e => exact quiet (.nothing _)
      | ok ids => exact finished
    | yielded value point => exact finished
    | forked tasks point => exact finished

end Turns

section Updates

variable (serde : Serde) (threadId : Uuid)

theorem turn_writes (s : LoggedRuntime) (others : List UpdateCall) {k : UpdateCall} (aims : k.Aims s.threads) {reply : Reply}
    (listed : StillListed threadId s others k reply) :
    ∃ written, Writes threadId s.threads (UpdateCall.resume serde threadId s k reply).1.threads written ∧
      (UpdateCall.resume serde threadId s k reply).1.log =
        s.log ++ writtenTo threadId (UpdateCall.resume serde threadId s k reply).1.threads written := by
  cases k with
  | patch p => exact ⟨_, patch_writes aims reply, rfl⟩
  | put p => exact ⟨_, put_writes s.log others aims listed, rfl⟩
  | joint p => exact ⟨_, joint_writes serde s.log others aims listed, rfl⟩

theorem newThread_settled (call : Runs.PutCall) (assistant : Assistant) (id : Uuid) (now : Time) (key : String) :
    PyDict.Settled (Runs.newThread call assistant id now).metadata key := by
  refine PyDict.settled_update _ _ key (Or.inr (PyDict.settled_update _ _ key (Or.inr (fun item member named => ?_))))
  simp only [List.mem_cons, List.not_mem_nil, or_false] at member
  rcases member with rfl | rfl
  · rw [← named, PyDict.get?_cons, if_pos rfl]
  · rw [← named, PyDict.get?_cons, if_neg (by simp), PyDict.get?_cons, if_pos rfl]

section Points

variable {s : Runtime} {reply : Reply}

theorem patch_points {p q : Threads.Patch} (left : q ∈ (Threads.Patch.resume s p reply).2.points) :
    UpdateCall.Aims s.threads (.patch q) := by
  have effect := Threads.Patch.effect s p reply
  generalize Threads.Patch.resume s p reply = out at effect left
  cases effect with
  | suspended found =>
    cases List.mem_singleton.mp left
    exact found
  | _ => cases left

theorem insert_points (s : Runtime) (call : Runs.PutCall) (assistant : Assistant) (existing : Option Nat) (id : Uuid)
    (now : Time) : (Runs.Put.insert s call assistant existing id now).2.points = [] := by
  obtain ⟨runs, outcome, _, final⟩ := Runs.Put.inserted s call assistant existing id ⟨now, id, .ok .none⟩
  rw [final]
  rfl

theorem place_points {call : Runs.PutCall} {assistant : Assistant} {existing : Option Nat} {filters : PyVal} {q : Runs.Put}
    (left : q ∈ (Runs.Put.place s call assistant existing filters reply).2.points) : UpdateCall.Aims s.threads (.put q) := by
  unfold Runs.Put.place at left
  cases existing with
  | none =>
    dsimp only at left
    split at left
    · cases List.mem_singleton.mp left
      exact newThread_settled _ _ _ _
    · cases left
  | some r =>
    dsimp only at left
    revert left
    refine attempt_cases (motive := fun out => q ∈ out.2.points → UpdateCall.Aims s.threads (.put q))
      (fun e _ left => ?_) (fun allowed _ left => ?_)
    · cases left
    · split at left
      · cases left
      · rw [insert_points] at left
        cases left

theorem put_points {p q : Runs.Put} (left : q ∈ (Runs.Put.resume s p reply).2.points) :
    UpdateCall.Aims s.threads (.put q) := by
  cases p with
  | called call =>
    rw [Runs.Put.resume] at left
    split at left
    · cases left
    · cases List.mem_singleton.mp left
      trivial
  | authorizing call assistant =>
    rw [Runs.Put.resume] at left
    revert left
    refine attempt_cases (fun e _ left => ?_) (fun filters _ left => ?_)
    · cases left
    · split at left
      · exact place_points left
      · cases List.mem_singleton.mp left
        cases existing : Runs.existingThread s call with
        | none => trivial
        | some r =>
          obtain ⟨id, _, found⟩ := Option.bind_eq_some_iff.mp existing
          exact (find?_holds found).1
  | authorizingAssistant call assistant existing filters =>
    rw [Runs.Put.resume] at left
    revert left
    refine attempt_cases (fun e _ left => ?_) (fun assistantFilters _ left => ?_)
    · cases left
    · revert left
      refine attempt_cases (fun e _ left => ?_) (fun allowed _ left => ?_)
      · cases left
      · split at left
        · cases left
        · exact place_points left
  | creatingThread call assistant thread =>
    rw [Runs.Put.resume] at left
    revert left
    refine attempt_cases (fun e _ left => ?_) (fun value _ left => ?_)
    · cases left
    · rw [insert_points] at left
      cases left

theorem afterDelete_points {call : Threads.JointCall} {thread : Nat} {now : Time} {turn : Runs.DeleteTurn}
    {q : Threads.Joint} (left : q ∈ (Threads.Joint.afterDelete call thread now turn).2.points) :
    ∃ deletion, q = .rollingBack call thread now deletion := by
  unfold Threads.Joint.afterDelete at left
  split at left
  · exact ⟨_, List.mem_singleton.mp left⟩
  · cases left
  · cases left

theorem joint_points {p q : Threads.Joint} (aims : UpdateCall.Aims s.threads (.joint p))
    (left : q ∈ (Threads.Joint.resume serde s p reply).2.points) : UpdateCall.Aims s.threads (.joint q) := by
  cases p with
  | called call =>
    rw [Threads.Joint.resume] at left
    split at left
    · cases left
    · rename_i thread found
      split at left
      · cases left
      · split at left
        · obtain ⟨deletion, rfl⟩ := afterDelete_points left
          exact find?_holds found
        · cases left
  | rollingBack call thread now deletion =>
    rw [Threads.Joint.resume] at left
    obtain ⟨later, rfl⟩ := afterDelete_points left
    exact aims

theorem points_aim {s : LoggedRuntime} {k q : UpdateCall} (aims : k.Aims s.threads)
    (left : q ∈ (UpdateCall.resume serde threadId s k reply).2.points) : q.Aims s.threads := by
  cases k with
  | patch p =>
    simp only [UpdateCall.resume, Turn.points_map, List.mem_map] at left
    obtain ⟨p', left, rfl⟩ := left
    exact patch_points left
  | put p =>
    simp only [UpdateCall.resume, Turn.points_map, List.mem_map] at left
    obtain ⟨p', left, rfl⟩ := left
    exact put_points left
  | joint p =>
    simp only [UpdateCall.resume, Turn.points_map, List.mem_map] at left
    obtain ⟨p', left, rfl⟩ := left
    exact joint_points serde aims left

end Points

/-- As long as nobody replaces a record that a waiting call goes on with, and
none is added to a thread that has one, no update of the thread is lost. -/
theorem no_update_lost (initial : Runtime) {l : EventLoop LoggedRuntime UpdateCall}
    (reach : (updateCalls serde threadId).Reaches (StillListed threadId) ⟨⟨initial, []⟩, []⟩ l) :
    NoLostUpdate threadId l.state := by
  have annotated : Coroutines.Annotated (fun s : LoggedRuntime => LogRecorded threadId s.threads s.log)
      (fun s k => k.Aims s.threads) l := by
    refine reach.annotated (fun {s k} _ new => ?_) (fun {s others k reply} recorded aims rest listed => ?_) ?_
    · cases k with
      | patch p => cases p <;> trivial
      | put p => cases p <;> trivial
      | joint p => cases p <;> trivial
    · obtain ⟨written, writes, log⟩ := turn_writes serde threadId s others aims listed
      refine ⟨?_, fun q left => ?_, fun j member => (rest j member).keeps writes.keepsIds⟩
      · show LogRecorded threadId _ (UpdateCall.resume serde threadId s k reply).1.log
        rw [log]
        exact writes.recorded recorded
      · exact (points_aim serde threadId aims left).keeps writes.keepsIds
    · exact ⟨⟨fun _ => rfl, fun r _ field value written => by cases written⟩, by simp⟩
  intro field value written
  cases found : l.state.threads.find? (Threads.byId threadId) with
  | none =>
    have empty := annotated.state.absent found
    rw [empty] at written
    cases written
  | some r => exact ⟨r, rfl, (annotated.state.last r found field value written).1⟩

section Stale

def patchCall : Threads.PatchCall := ⟨⟨1⟩, [("color", .str "red")], none⟩

def silentSerde : Serde := ⟨fun _ => default, fun _ => []⟩

def startedBy : Assistant := ⟨⟨7⟩, "agent", [], [], []⟩

def putCall : Runs.PutCall :=
  { assistantId := ⟨7⟩, kwargs := [], threadId := some ⟨1⟩, userId := none, runId := some ⟨9⟩, status := some .pending
    metadata := none, preventInsertIfInflight := false, multitaskStrategy := "reject", ifNotExists := .reject
    afterSeconds := 0, langsmithSessionName := none }

def threadToPatch : Runtime := { storeOf [idleThread ⟨1⟩] with assistants := [startedBy] }

/-- The thread is patched while `Runs.put` waits for the handler of the assistant. -/
def patchBetween : List (Coroutines.Move UpdateCall Reply) :=
  [.call (.put (.called putCall)), .turn 0 plainReply, .turn 0 plainReply,
    .call (.patch (.called patchCall)), .turn 1 plainReply, .turn 1 plainReply, .turn 0 plainReply]

/-- Both calls succeed; the run is there, and the thread is not busy. -/
theorem update_lost :
    ¬ ∀ (serde : Serde) (threadId : Uuid) (initial : Runtime) (l : EventLoop LoggedRuntime UpdateCall),
      (updateCalls serde threadId).Reaches Coroutines.unrestricted ⟨⟨initial, []⟩, []⟩ l →
        NoLostUpdate threadId l.state := by
  intro kept
  have performed : ((updateCalls silentSerde ⟨1⟩).performAll ⟨⟨threadToPatch, []⟩, []⟩ patchBetween).isSome = true := rfl
  obtain ⟨r, found, read⟩ := kept silentSerde ⟨1⟩ threadToPatch _
    (Coroutines.reaches_of_performAll (Option.some_get performed).symm) .status (.status .busy) rfl
  cases found
  cases read

/-- The thread is patched after `Runs.put` has gone on with its record. -/
theorem no_update_lost_in_turn :
    ∃ l : EventLoop LoggedRuntime UpdateCall, l.state.log.length = 5 ∧
      l.state.threads.values.map Thread.status = [.busy] ∧ NoLostUpdate ⟨1⟩ l.state := by
  have ofCalled : ∀ call s others reply, StillListed ⟨1⟩ s others (.put (.called call)) reply := fun _ _ _ _ => trivial
  have ofAuthorizing : ∀ call assistant s others reply,
      StillListed ⟨1⟩ s others (.put (.authorizing call assistant)) reply := fun _ _ _ _ _ => trivial
  have ofPatch : ∀ p s others reply, StillListed ⟨1⟩ s others (.patch p) reply := fun _ _ _ _ => trivial
  have begun : (updateCalls silentSerde ⟨1⟩).Reaches (StillListed ⟨1⟩) ⟨⟨threadToPatch, []⟩, []⟩ _ := .start
  have calling := begun.call (k := UpdateCall.put (.called putCall)) rfl
  have asked := calling.turn 0 plainReply rfl (ofCalled _ _ _ _)
  have waiting := asked.turn 0 plainReply rfl (ofAuthorizing _ _ _ _ _)
  have put := waiting.turn (k := UpdateCall.put (.authorizingAssistant putCall startedBy (some 0) .none)) 0 plainReply rfl
    (fun _ _ => rfl)
  have patching := put.call (k := UpdateCall.patch (.called patchCall)) rfl
  have found := patching.turn 0 plainReply rfl (ofPatch _ _ _ _)
  have patched := found.turn 0 plainReply rfl (ofPatch _ _ _ _)
  exact ⟨_, rfl, rfl, no_update_lost silentSerde ⟨1⟩ threadToPatch patched⟩

end Stale

end Updates

end InmemRuntime
