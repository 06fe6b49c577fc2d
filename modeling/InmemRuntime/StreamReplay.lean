import InmemRuntime.Streams

namespace InmemRuntime

/-- What `put` stores and delivers: the message under the id of its reading. -/
def Message.stamped (message : Message) (now : Time) : Message :=
  { message with id := some (StreamManager.generateMsSeqId now) }

/-- The arguments of one call of `put`, and the clock at it. -/
structure PutCall where
  runId : Option Uuid
  threadId : Option Uuid
  message : Message
  resumable : Bool
  now : Time

namespace PutCall

def id (call : PutCall) : String := StreamManager.generateMsSeqId call.now

def stamped (call : PutCall) : Message := call.message.stamped call.now

/-- The call stores its message for the run. -/
def storesFor (runId threadId : Option Uuid) (call : PutCall) : Bool :=
  call.resumable && call.runId = runId && call.threadId = threadId

end PutCall

namespace StreamManager

def perform (m : StreamManager) (call : PutCall) : StreamManager :=
  m.put call.runId call.threadId call.message call.resumable call.now

def performAll (m : StreamManager) (calls : List PutCall) : StreamManager := calls.foldl perform m

section Stored

variable (m : StreamManager) (runId threadId : Option Uuid)

theorem put_messageStores (message : Message) (resumable : Bool) (now : Time) :
    (m.put runId threadId message resumable now).messageStores =
      if resumable then
        m.messageStores.set threadId runId (m.stored runId threadId ++ [message.stamped now])
      else m.messageStores := by
  unfold put
  simp only
  split <;> rfl

theorem perform_stored (call : PutCall) :
    (m.perform call).stored runId threadId =
      m.stored runId threadId ++ if call.storesFor runId threadId then [call.stamped] else [] := by
  rw [perform, stored, put_messageStores]
  by_cases kept : call.resumable
  · simp only [kept, if_true]
    by_cases same : call.runId = runId ∧ call.threadId = threadId
    · obtain ⟨rfl, rfl⟩ := same
      simp [PutCall.storesFor, kept, stored, PutCall.stamped]
    · have other : threadId ≠ call.threadId ∨ runId ≠ call.runId := by
        by_cases sameThread : threadId = call.threadId
        · exact Or.inr (fun sameRun => same ⟨sameRun.symm, sameThread.symm⟩)
        · exact Or.inl sameThread
      have notMine : call.storesFor runId threadId = false := by
        simp only [PutCall.storesFor, kept, Bool.true_and, Bool.and_eq_false_iff, decide_eq_false_iff_not]
        exact not_and_or.mp same
      rw [Nested.get?_set_of_ne _ _ other, notMine]
      simp [stored]
  · simp [kept, PutCall.storesFor, stored]

/-- The store of a run holds what was put for it, in put order. -/
theorem performAll_stored (calls : List PutCall) :
    (m.performAll calls).stored runId threadId =
      m.stored runId threadId ++ (calls.filter (PutCall.storesFor runId threadId)).map PutCall.stamped := by
  induction calls generalizing m with
  | nil => simp [performAll]
  | cons call calls ih =>
    have rest := ih (m.perform call)
    rw [perform_stored] at rest
    rw [performAll, List.foldl_cons, ← performAll, rest]
    by_cases mine : call.storesFor runId threadId <;> simp [mine]

end Stored

theorem messagesAfter_stamped (calls : List PutCall) (messageId : String) :
    messagesAfter messageId (calls.map PutCall.stamped) =
      .ok ((calls.filter (fun call => messageId < call.id)).map PutCall.stamped) := by
  induction calls with
  | nil => rfl
  | cons call calls ih =>
    have compared : call.stamped.isAfter messageId = .ok (messageId < call.id) := rfl
    rw [List.map_cons, messagesAfter, compared, ih, List.filter_cons]
    by_cases later : messageId < call.id <;> simp only [later] <;> rfl

theorem restoreMessages_performAll (calls : List PutCall) (runId threadId : Option Uuid) (messageId : String) :
    ((empty.performAll calls).restoreMessages runId threadId (some messageId)).1 =
      .ok (((calls.filter (PutCall.storesFor runId threadId)).filter
        (fun call => messageId < call.id)).map PutCall.stamped) := by
  have held := performAll_stored empty runId threadId calls
  unfold restoreMessages
  simp only
  split
  · rw [held]
    exact messagesAfter_stamped _ messageId
  · rename_i noThread
    -- without an entry for the thread nothing is stored for the run
    have nothing : (empty.performAll calls).stored runId threadId = [] := by
      have absent : threadId ∉ Dict.keys (empty.performAll calls).messageStores := by
        simpa [Dict.contains] using noThread
      rw [stored, Nested.get?, Dict.get?_eq_none_iff.mpr absent]
      rfl
    rw [nothing] at held
    have none' : calls.filter (PutCall.storesFor runId threadId) = [] := by
      simpa [stored, empty, Nested.get?] using held.symm
    rw [none']
    rfl

end StreamManager

section Later

variable {α : Type} (key : α → String)

/-- Under keys that increase, what lies behind one is what follows it. -/
theorem filter_later_eq_drop {items : List α} (increasing : (items.map key).Pairwise (· < ·)) {k : Nat}
    (inRange : k < items.length) : items.filter (fun item => key items[k] < key item) = items.drop (k + 1) := by
  induction items generalizing k with
  | nil => cases inRange
  | cons item items ih =>
    rw [List.map_cons, List.pairwise_cons] at increasing
    obtain ⟨first, rest⟩ := increasing
    cases k with
    | zero =>
      have all : ∀ later ∈ items, key item < key later := fun later member =>
        first _ (List.mem_map_of_mem member)
      have itself : ¬ key item < key item := String.lt_irrefl _
      simp only [List.getElem_cons_zero, List.filter_cons, itself, decide_false, Bool.false_eq_true,
        if_false, List.drop_succ_cons, List.drop_zero]
      exact List.filter_eq_self.mpr (fun later member => decide_eq_true (all later member))
    | succ k =>
      have inside : k < items.length := by simpa using inRange
      have before : ¬ key items[k] < key item :=
        String.lt_asymm (first _ (List.mem_map_of_mem (List.getElem_mem inside)))
      simp only [List.getElem_cons_succ, List.filter_cons, before, decide_false, Bool.false_eq_true,
        if_false, List.drop_succ_cons]
      exact ih rest inside

theorem pairwise_of_filter_eq_drop {β : Type} (stamp : α → β)
    (reads : ∀ item item', stamp item = stamp item' → key item = key item') {items : List α}
    (exact' : ∀ k (inRange : k < items.length),
      (items.filter (fun item => key items[k] < key item)).map stamp = (items.drop (k + 1)).map stamp) :
    (items.map key).Pairwise (· < ·) := by
  rw [List.pairwise_map, List.pairwise_iff_getElem]
  intro i j first second earlier
  have follows : items[j] ∈ items.drop (i + 1) := by
    rw [List.mem_drop_iff_getElem]
    exact ⟨j - (i + 1), by omega, by congr 1; omega⟩
  have member := List.mem_map_of_mem (f := stamp) follows
  rw [← exact' i first] at member
  obtain ⟨item, kept, same⟩ := List.mem_map.mp member
  rw [← reads _ _ same]
  simpa using (List.mem_filter.mp kept).2

end Later

open StreamManager in
/-- Coming back with the id of any message gives exactly the later ones if and
only if the ids of the run's messages strictly increase as texts. -/
theorem restoreMessages_exact_iff (calls : List PutCall) (runId threadId : Option Uuid) :
    (∀ k (inRange : k < (calls.filter (PutCall.storesFor runId threadId)).length),
      ((empty.performAll calls).restoreMessages runId threadId
          (some (calls.filter (PutCall.storesFor runId threadId))[k].id)).1 =
        .ok (((calls.filter (PutCall.storesFor runId threadId)).drop (k + 1)).map PutCall.stamped)) ↔
      ((calls.filter (PutCall.storesFor runId threadId)).map PutCall.id).Pairwise (· < ·) := by
  simp only [restoreMessages_performAll, Except.ok.injEq]
  constructor
  · intro exact'
    refine pairwise_of_filter_eq_drop PutCall.id PutCall.stamped ?_ exact'
    exact fun call call' same => Option.some.inj (congrArg Message.id same)
  · intro increasing k inRange
    rw [filter_later_eq_drop PutCall.id increasing inRange]

/-- The second of two messages of one millisecond is lost. -/
theorem restoreMessages_not_exact :
    ¬ ∀ (calls : List PutCall) (runId threadId : Option Uuid), (calls.map PutCall.now).Pairwise (· ≤ ·) →
      ∀ k (inRange : k < (calls.filter (PutCall.storesFor runId threadId)).length),
        ((StreamManager.empty.performAll calls).restoreMessages runId threadId
            (some (calls.filter (PutCall.storesFor runId threadId))[k].id)).1 =
          .ok (((calls.filter (PutCall.storesFor runId threadId)).drop (k + 1)).map PutCall.stamped) := by
  intro exact'
  have lost := exact' [⟨none, none, ⟨"run:1:stream", "first", none⟩, true, 1700000000000250⟩,
    ⟨none, none, ⟨"run:1:stream", "second", none⟩, true, 1700000000000750⟩] none none
    (by decide) 0 (by decide +kernel)
  revert lost
  decide +kernel

end InmemRuntime
