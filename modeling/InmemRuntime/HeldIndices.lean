import InmemRuntime.ThreadOps

namespace InmemRuntime

open Threads

/-- The position that a suspended `patch` will write, and the id it searched for. -/
def Threads.Patch.aim : Patch → Option (Nat × Uuid)
  | .called _ => none
  | .authorizing call threadIdx => some (threadIdx, call.threadId)

/-- The position that a suspended `delete` will pop, and the id it searched for. -/
def Threads.Delete.aim : Delete → Option (Nat × Uuid)
  | .called _ => none
  | .authorizing threadId found => found.map (fun pair => (pair.1, threadId))
  | .deletingCheckpoints threadId threadIdx => some (threadIdx, threadId)

/-- The position held, if any, is still the position of the id. -/
def Aimed (s : Runtime) (aim : Option (Nat × Uuid)) : Prop :=
  ∀ i threadId, aim = some (i, threadId) → s.threadIds[i]? = some threadId

theorem aimed_none (s : Runtime) : Aimed s none := by
  intro i threadId aim
  cases aim

/-- The position that a turn of `delete` pops, if it gets to pop one. -/
inductive Threads.Delete.PopsAt (s : Runtime) (reply : Reply) : Delete → Nat → Prop
  | authorized {threadId threadIdx matching} : s.config.useCustomCheckpointer = false →
      Delete.authorized s matching reply →
      PopsAt s reply (.authorizing threadId (some (threadIdx, matching))) threadIdx
  | resumed {threadId threadIdx value} : reply.answer = .ok value →
      PopsAt s reply (.deletingCheckpoints threadId threadIdx) threadIdx

theorem Threads.Delete.PopsAt.aim {s : Runtime} {reply : Reply} {p : Delete} {i : Nat} (pops : PopsAt s reply p i) :
    ∃ threadId, p.aim = some (i, threadId) := by
  cases pops with
  | @authorized threadId => exact ⟨threadId, rfl⟩
  | @resumed threadId => exact ⟨threadId, rfl⟩

/-- The ids of the list after one turn, with the position that was popped. -/
inductive IdsStep (s s' : Runtime) : Option Nat → Prop
  | same : s'.threadIds = s.threadIds → IdsStep s s' none
  | appended {threadId} : threadId ∉ s.threadIds → s'.threadIds = s.threadIds ++ [threadId] →
      IdsStep s s' none
  | erased {i} : s'.threadIds = s.threadIds.eraseIdx i → IdsStep s s' (some i)

theorem find?_eq_none_iff_threadIds {s : Runtime} {threadId : Uuid} :
    s.threads.find? (byId threadId) = none ↔ threadId ∉ s.threadIds := by
  simp [Table.find?_eq_none, byId, GlobalStore.threadIds]

theorem threadId_of_find? {s : Runtime} {threadId : Uuid} {r : Nat}
    (found : s.threads.find? (byId threadId) = some r) : (s.threads.get r).threadId = threadId := by
  have passes := Table.find?_passes found
  exact of_decide_eq_true passes

theorem mem_threadIds_of_find? {s : Runtime} {threadId : Uuid} {r : Nat}
    (found : s.threads.find? (byId threadId) = some r) : threadId ∈ s.threadIds := by
  rw [← threadId_of_find? found]
  exact List.mem_map_of_mem (Table.mem_values.mpr ⟨r, Table.find?_mem found, rfl⟩)

theorem find?_of_mem {s : Runtime} (distinct : s.threadIds.Nodup) {thread : Thread}
    (member : thread ∈ s.threads.values) :
    ∃ r, s.threads.find? (byId thread.threadId) = some r ∧ s.threads.get r = thread := by
  cases found : s.threads.find? (byId thread.threadId) with
  | none => exact absurd (List.mem_map_of_mem member) (find?_eq_none_iff_threadIds.mp found)
  | some r =>
    have listed : s.threads.get r ∈ s.threads.values := Table.mem_values.mpr ⟨r, Table.find?_mem found, rfl⟩
    exact ⟨r, rfl, List.inj_on_of_nodup_map distinct listed member (threadId_of_find? found)⟩

theorem threadIds_of_rows {s : Runtime} {i r : Nat} (stands : s.threads.rows[i]? = some r) :
    s.threadIds[i]? = some (s.threads.get r).threadId := by
  simp [GlobalStore.threadIds, Table.values_getElem?, stands]

theorem rows_of_threadIds {s : Runtime} {i : Nat} {threadId : Uuid} (aimed : s.threadIds[i]? = some threadId) :
    ∃ r, s.threads.rows[i]? = some r ∧ (s.threads.get r).threadId = threadId := by
  simpa [GlobalStore.threadIds, Table.values_getElem?, Option.map_eq_some_iff] using aimed

@[simp] theorem cascade_threads (s : Runtime) (threadId : Uuid) : (cascade s threadId).threads = s.threads := rfl

theorem put_ids (s : Runtime) (p : Put) (reply : Reply) : IdsStep s (Put.resume s p reply).1 none := by
  have effect := Put.effect s p reply
  generalize Put.resume s p reply = out at effect ⊢
  cases effect with
  | suspended call => exact .same rfl
  | unchanged call outcome => exact .same rfl
  | created ttls free named =>
    refine .appended (find?_eq_none_iff_threadIds.mp free) ?_
    simp [GlobalStore.threadIds, named]

theorem patch_ids (s : Runtime) (p : Patch) (reply : Reply) :
    IdsStep s (Patch.resume s p reply).1 none := by
  have effect := Patch.effect s p reply
  generalize Patch.resume s p reply = out at effect ⊢
  cases effect with
  | missing | suspended | failed | refused => exact .same rfl
  | @replaced call i r filters outcome ttls answer stands allowed =>
    obtain ⟨inside, own⟩ := List.getElem?_eq_some_iff.mp (threadIds_of_rows stands)
    refine .same ?_
    have unchanged : s.threadIds.set i (s.threads.get r).threadId = s.threadIds := by
      rw [← own, List.set_getElem_self]
    simpa [GlobalStore.threadIds, List.map_set, patched] using unchanged

theorem pop_ids {s : Runtime} {threadId : Uuid} {i : Nat}
    {out : Runtime × Turn Delete (Except PyError (List Uuid))} (popped : Delete.Popped s threadId i out) :
    out.1.threadIds = s.threadIds.eraseIdx i := by
  cases popped with
  | outside absent =>
    have beyond : s.threadIds.length ≤ i := by
      simpa [GlobalStore.threadIds] using List.getElem?_eq_none_iff.mp absent
    exact (List.eraseIdx_of_length_le beyond).symm
  | popped stands => simp [GlobalStore.threadIds, List.eraseIdx_map]

theorem delete_ids (base : BaseSaver) (s : Runtime) (p : Delete) (reply : Reply) :
    ∃ popped, IdsStep s (Delete.resume base s p reply).1 popped ∧
      ∀ i, popped = some i → p.PopsAt s reply i := by
  have effect := Delete.effect base s p reply
  generalize Delete.resume base s p reply = out at effect ⊢
  cases effect with
  | located | refused | cascaded | failed => exact ⟨none, .same rfl, by simp⟩
  | @deleted threadId i matching out builtin authorized popped =>
    have ids := pop_ids popped
    refine ⟨some i, .erased ids, ?_⟩
    rintro _ ⟨⟩
    exact .authorized builtin authorized
  | @resumed threadId i value out answer popped =>
    refine ⟨some i, .erased (pop_ids popped), ?_⟩
    rintro _ ⟨⟩
    exact .resumed answer

/-- A position below the popped one keeps its record. -/
theorem Aimed.step {s s' : Runtime} {popped : Option Nat} {aim : Option (Nat × Uuid)} (aimed : Aimed s aim)
    (ids : IdsStep s s' popped)
    (below : ∀ i, popped = some i → ∀ held, aim = some held → held.1 < i) : Aimed s' aim := by
  intro i threadId at_i
  have before := aimed i threadId at_i
  cases ids with
  | same same => rw [same, before]
  | appended _ appended =>
    rw [appended, List.getElem?_append_left (List.getElem?_eq_some_iff.mp before).1, before]
  | @erased position erased =>
    have lower : i < position := below position rfl _ at_i
    rw [erased, List.getElem?_eraseIdx_of_lt lower, before]

theorem IdsStep.nodup {s s' : Runtime} {popped : Option Nat} (ids : IdsStep s s' popped)
    (distinct : s.threadIds.Nodup) : s'.threadIds.Nodup := by
  cases ids with
  | same same => rwa [same]
  | appended new appended =>
    rw [appended]
    exact List.Nodup.append distinct (List.nodup_singleton _) (List.disjoint_singleton.mpr new)
  | erased erased =>
    rw [erased]
    exact distinct.sublist (List.eraseIdx_sublist _ _)

/-- A patch aims right where it is suspended. -/
theorem patch_aimed {s : Runtime} {p q : Patch} {reply : Reply}
    (left : q ∈ (Patch.resume s p reply).2.points) : Aimed (Patch.resume s p reply).1 q.aim := by
  have effect := Patch.effect s p reply
  generalize Patch.resume s p reply = out at effect left ⊢
  cases effect with
  | missing | failed | refused | replaced => simp at left
  | suspended found =>
    simp only [Turn.points_suspended, List.mem_singleton] at left
    subst left
    intro i threadId aim
    cases aim
    obtain ⟨r, stands, passes⟩ := Table.findIdx?_eq_some found
    rw [threadIds_of_rows stands, of_decide_eq_true passes]

/-- A deletion aims right where it is suspended first, and keeps its aim while
the checkpoints are deleted. -/
theorem delete_aimed {base : BaseSaver} {s : Runtime} {p q : Delete} {reply : Reply} (aimed : Aimed s p.aim)
    (left : q ∈ (Delete.resume base s p reply).2.points) : Aimed (Delete.resume base s p reply).1 q.aim := by
  have effect := Delete.effect base s p reply
  generalize Delete.resume base s p reply = out at effect left ⊢
  cases effect with
  | refused | failed => simp at left
  | deleted _ _ popped => cases popped <;> simp at left
  | resumed _ popped => cases popped <;> simp at left
  | located threadId =>
    simp only [Turn.points_suspended, List.mem_singleton] at left
    subst left
    intro i target aim
    obtain ⟨⟨position, r⟩, found, pair⟩ := Option.map_eq_some_iff.mp aim
    cases pair
    obtain ⟨stands, passes⟩ := Table.locate?_eq_some found
    rw [threadIds_of_rows stands, of_decide_eq_true passes]
  | cascaded _ _ =>
    simp only [Turn.points_suspended, List.mem_singleton] at left
    subst left
    exact aimed

/-- The record that a right aim points at. -/
theorem aimed_record {s : Runtime} {i r : Nat} {threadId : Uuid} (aimed : s.threadIds[i]? = some threadId)
    (stands : s.threads.rows[i]? = some r) :
    s.threads.values[i]? = some (s.threads.get r) ∧ (s.threads.get r).threadId = threadId := by
  have named := threadIds_of_rows stands
  rw [aimed, Option.some.injEq] at named
  exact ⟨by rw [Table.values_getElem?, stands, Option.map_some], named.symm⟩

end InmemRuntime
