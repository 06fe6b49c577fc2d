import InmemRuntime.Lib.LoneCall
import InmemRuntime.Lib.Slices
import InmemRuntime.PruneWalks
import InmemRuntime.StreamBoard
import InmemRuntime.ThreadSweep
import Mathlib.Data.Finset.Card

namespace InmemRuntime

def PruneStrategy.text : PruneStrategy → String
  | .delete => "delete"
  | .deleteAll => "delete_all"
  | .keepLatest => "keep_latest"
  | .other name => name

namespace Threads

structure PruneCall where
  threadIds : List IdArg
  strategy : PruneStrategy
  batchSize : Int

/-- What `prune` returns, and beside it the ids that it gave to the checkpointer. -/
structure PruneOutcome where
  pruned : Nat
  handed : List String

inductive Prune where
  | called (call : PruneCall)
  | authorizing (call : PruneCall)
  | validating (call : PruneCall) (filters : PyVal)
  | deleting (pruned : Nat) (deletion : Delete) (rest : List IdArg)
  | gettingCheckpointer (call : PruneCall) (existing : List String)
  | pruning (outcome : PruneOutcome) (rest : List (List String))
  /-- A built-in prune that does not come to its end. -/
  | stuck

abbrev PruneTurn := Runtime × Turn Prune (Except PyError PruneOutcome)

/-- `existing_ids` -/
def existingIds (s : GlobalStore) (threadIds : List IdArg) : List String :=
  (s.threadIds.map Uuid.str).filter (fun id => id ∈ threadIds.map IdArg.str)

/-- `ordered_ids` -/
def orderedIds (threadIds : List IdArg) (existing : List String) : List String :=
  (threadIds.map IdArg.str).filter (fun id => id ∈ existing)

/-- `ordered_ids[offset : offset + batch_size]` for each offset. -/
def idBatches (batchSize : Nat) (ordered : List String) : List (List String) :=
  (List.range ((ordered.length + batchSize - 1) / batchSize)).map (fun i =>
    (ordered.drop (batchSize * i)).take batchSize)

def PruneOutcome.add (outcome : PruneOutcome) (batch : List String) : PruneOutcome :=
  ⟨outcome.pruned + batch.length, outcome.handed ++ batch⟩

section Calls

-- `uuid` is `UUID(text)`.
variable (uuid : String → Except PyError Uuid) (base : BaseSaver) (serde : Serde) (fuel : Nat)

def ensureUuid : IdArg → Except PyError Uuid := ThreadDeliveries.ensureUuid uuid

/-- The coroutines of `gather` run one after another, and none of them waits.
All of them run, also after one that raises. -/
def Prune.validate (s : Runtime) (filters : PyVal) : List IdArg → Runtime × Except PyError Bool
  | [] => (s, .ok true)
  | tid :: rest =>
    let (s, found) : Runtime × Except PyError (Option Nat) :=
      match ensureUuid uuid tid with
      | .error e => (s, .error e)
      | .ok threadId => getWithFilters s threadId filters
    let (s, others) := Prune.validate s filters rest
    (s, do
      let thread ← found
      let all ← others
      .ok (thread.isSome && all))

/-- The loop of `strategy="delete"`, up to where a deletion asks its handler. -/
def Prune.deleteEach (s : Runtime) (pruned : Nat) : List IdArg → PruneTurn
  | [] => returned s ⟨pruned, []⟩
  | tid :: rest =>
    attempt s (ensureUuid uuid tid) (fun threadId =>
      (s, .suspended (.deleting pruned (.authorizing threadId (s.threads.locate? (byId threadId))) rest)))

/-- An `HTTPException` of the deletion is dropped; each id that it yields is counted. -/
def Prune.afterDelete (pruned : Nat) (rest : List IdArg)
    (out : Runtime × Turn Delete (Except PyError (List Uuid))) : PruneTurn :=
  match out.2 with
  | .finished (.ok ids) => Prune.deleteEach uuid out.1 (pruned + ids.length) rest
  | .finished (.error (.http _ _)) => Prune.deleteEach uuid out.1 pruned rest
  | .finished (.error e) => raised out.1 e
  | .suspended p | .yielded _ p | .forked _ p => (out.1, .suspended (.deleting pruned p rest))

/-- The loop of `strategy="keep_latest"`, up to where it waits. -/
def Prune.pruneEach (s : Runtime) (outcome : PruneOutcome) : List (List String) → PruneTurn
  | [] => returned s outcome
  | batch :: rest =>
    if s.config.useCustomCheckpointer then (s, .suspended (.pruning (outcome.add batch) rest))
    else
      match InmemRuntime.prune serde fuel base s.memory (batch.map .text) .keepLatest with
      | none => (s, .suspended .stuck)
      | some (.error (.unsupportedStrategy name)) => raised s (.valueError name)
      | some (.ok memory) => Prune.pruneEach { s with memory := memory } (outcome.add batch) rest

/-- The strategies, once the access to the threads is settled. -/
def Prune.start (s : Runtime) (call : PruneCall) : PruneTurn :=
  match call.strategy with
  | .delete => Prune.deleteEach uuid s 0 call.threadIds
  | .keepLatest => (s, .suspended (.gettingCheckpointer call (existingIds s.toGlobalStore call.threadIds)))
  | other => raised s (.http 422 s!"Unsupported prune strategy: {other.text}")

/-- `Threads.prune` -/
def Prune.resume (s : Runtime) : Prune → Reply → PruneTurn
  | .called call, _ =>
    if call.threadIds.isEmpty then returned s ⟨0, []⟩ else (s, .suspended (.authorizing call))
  | .authorizing call, reply =>
    attempt s reply.answer (fun filters =>
      if filters.truthy then (s, .suspended (.validating call filters)) else Prune.start uuid s call)
  | .validating call filters, _ =>
    match Prune.validate uuid s filters call.threadIds with
    | (s, .error e) => raised s e
    | (s, .ok false) => raised s (.http 404 "At least one thread not found or not authorized")
    | (s, .ok true) => Prune.start uuid s call
  | .deleting pruned deletion rest, reply =>
    Prune.afterDelete uuid pruned rest (Delete.resume base s deletion reply)
  | .gettingCheckpointer call existing, reply =>
    attempt s reply.answer (fun _ =>
      Prune.pruneEach base serde fuel s ⟨0, []⟩
        (idBatches (max 1 call.batchSize).toNat (orderedIds call.threadIds existing)))
  | .pruning outcome rest, reply =>
    attempt s reply.answer (fun _ => Prune.pruneEach base serde fuel s outcome rest)
  | .stuck, _ => (s, .suspended .stuck)

end Calls

/-- A handler without filters, or an awaited call that returns. -/
def Unfiltered (reply : Reply) : Prop := ∃ value, reply.answer = .ok value ∧ value.truthy = false

theorem unfiltered_plain : Unfiltered plainReply := ⟨_, rfl, rfl⟩

/-- The distinct existing threads among the ids. -/
def targets (s : GlobalStore) (ids : List Uuid) : Finset Uuid := s.threadIds.toFinset ∩ ids.toFinset

/-- The threads `gone` and what belongs to them is deleted, and nothing else. -/
structure DeletesExactly (base : BaseSaver) (s s' : Runtime) (gone : Finset Uuid) : Prop where
  threads : s'.threads.values = s.threads.values.filter (fun thread => thread.threadId ∉ gone)
  runs : s'.runs.values = s.runs.values.filter (fun run => run.threadId ∉ gone)
  crons : s'.crons = s.crons.filter (fun cron => ∀ u ∈ gone, cron.threadId ≠ some u)
  ttls : ∀ u, s'.threadTtls.get? u.str = if u ∈ gone then none else s.threadTtls.get? u.str
  checkpoints : s'.memory = s.memory ∧ s.config.useCustomCheckpointer = true ∨
    s.config.useCustomCheckpointer = false ∧ ∃ order : List Uuid, order.Nodup ∧ order.toFinset = gone ∧
      s'.memory = order.foldl (fun m u => m.deleteThread base u.str) s.memory

/-- The checkpoints of the threads `kept` are pruned, and nothing else. -/
structure PrunesExactly (serde : Serde) (s s' : Runtime) (handed : List String) (kept : Finset Uuid) : Prop where
  threads : ∀ id, id ∈ handed ↔ ∃ u ∈ kept, u.str = id
  checkpoints : s'.memory = s.memory ∧ s.config.useCustomCheckpointer = true ∨
    s.config.useCustomCheckpointer = false ∧ ∃ fuel, handed.foldlM (pruneThread serde fuel) s.memory = some s'.memory
  rest : s' = { s with memory := s'.memory }

section Calls

variable (uuid : String → Except PyError Uuid) (base : BaseSaver) (serde : Serde)

/-- With every batch size the call comes to one end. It returns the number of
the threads, and it deletes or prunes exactly them. -/
def PrunesAll (s : Runtime) (threadIds : List IdArg) (strategy : PruneStrategy) (gone : Finset Uuid) : Prop :=
  ∃ s' outcome, outcome.pruned = gone.card ∧
    (strategy = .delete → DeletesExactly base s s' gone) ∧
    (strategy = .keepLatest → PrunesExactly serde s s' outcome.handed gone) ∧
    ∀ batchSize, ∃ enough, ∀ fuel, enough ≤ fuel →
      Turn.EndsFor (Prune.resume uuid base serde fuel) Unfiltered
        (s, .suspended (.called ⟨threadIds, strategy, batchSize⟩)) s' (.ok outcome)

end Calls

/-- The search of a deletion, and what its pop leaves. -/
theorem locate?_spec {α : Type} (t : Table α) (p : α → Bool) :
    (t.locate? p = none ∧ ∀ v ∈ t.values, p v = false) ∨
      ∃ i r, t.locate? p = some (i, r) ∧ t.rows[i]? = some r ∧ p (t.get r) = true ∧
        (t.pop i).values = t.values.eraseP p := by
  have positions : t.values.findIdx? p = t.findIdx? p := by
    rw [Table.values, List.findIdx?_map]
    rfl
  cases at_i : t.findIdx? p with
  | none =>
    refine .inl ⟨by rw [Table.locate?, at_i]; rfl, fun v member => ?_⟩
    exact List.findIdx?_eq_none_iff.mp (positions.trans at_i) v member
  | some i =>
    obtain ⟨r, stands, passes⟩ := Table.findIdx?_eq_some at_i
    refine .inr ⟨i, r, by simp only [Table.locate?, at_i, Option.bind_some, stands, Option.map_some], stands,
      passes, ?_⟩
    rw [Table.pop_values, List.eraseP_eq_eraseIdx, positions, at_i]

/-- Where a key stands at most once, erasing the first record of the key erases them all. -/
theorem eraseP_eq_filter {α β : Type} [DecidableEq β] (key : α → β) (k : β) {l : List α}
    (once : (l.map key).count k ≤ 1) : l.eraseP (fun v => key v = k) = l.filter (fun v => key v ≠ k) := by
  induction l with
  | nil => rfl
  | cons v l ih =>
    rw [List.map_cons, List.count_cons] at once
    by_cases here : key v = k
    · have absent : (l.map key).count k = 0 := by
        simp only [here, beq_self_eq_true, if_true] at once
        omega
      have others : ∀ w ∈ l, key w ≠ k := fun w member same =>
        List.count_eq_zero.mp absent (same ▸ List.mem_map_of_mem member)
      rw [List.eraseP_cons_of_pos (by simpa using here), List.filter_cons_of_neg (by simpa using here)]
      exact (List.filter_eq_self.mpr (fun w member => by simpa using others w member)).symm
    · rw [List.eraseP_cons_of_neg (by simpa using here), List.filter_cons_of_pos (by simpa using here),
        ih (by omega)]

section Deletions

variable (base : BaseSaver)

/-- A deletion that finds the thread, before its pop. -/
def cleared (s : Runtime) (u : Uuid) : Runtime :=
  if s.config.useCustomCheckpointer then cascade s u
  else { cascade s u with memory := s.memory.deleteThread base u.str }

/-- What one deletion does, and how many ids it yields. -/
def dropOne (s : Runtime) (u : Uuid) : Runtime × Nat :=
  match s.threads.locate? (byId u) with
  | none => (s, 0)
  | some (threadIdx, _) =>
    ({ cleared base s u with threads := s.threads.pop threadIdx, threadTtls := s.threadTtls.erase u.str }, 1)

def dropAll : Runtime → List Uuid → Runtime × Nat
  | s, [] => (s, 0)
  | s, u :: us =>
    let first := dropOne base s u
    let rest := dropAll first.1 us
    (rest.1, first.2 + rest.2)

variable {base} {s : Runtime} {u : Uuid}

theorem dropOne_absent (absent : u ∉ s.threadIds) : dropOne base s u = (s, 0) := by
  rcases locate?_spec s.threads (byId u) with ⟨none, _⟩ | ⟨i, r, _, stands, passes, _⟩
  · rw [dropOne, none]
  · refine absurd (List.mem_map.mpr ⟨s.threads.get r, ?_, of_decide_eq_true passes⟩) absent
    exact List.mem_map_of_mem (List.mem_of_getElem? stands)

variable (base) in
theorem dropOne_present (present : u ∈ s.threadIds) :
    ∃ i r, s.threads.locate? (byId u) = some (i, r) ∧ s.threads.rows[i]? = some r ∧
      (s.threads.get r).threadId = u ∧ (s.threads.pop i).values = s.threads.values.eraseP (byId u) ∧
      dropOne base s u =
        ({ cleared base s u with threads := s.threads.pop i, threadTtls := s.threadTtls.erase u.str }, 1) := by
  rcases locate?_spec s.threads (byId u) with ⟨_, others⟩ | ⟨i, r, found, stands, passes, popped⟩
  · obtain ⟨thread, member, same⟩ := List.mem_map.mp present
    exact absurd (others thread member) (by simp [byId, same])
  · exact ⟨i, r, found, stands, of_decide_eq_true passes, popped, by rw [dropOne, found]⟩

variable (base) in
/-- A deletion without filters that finds the thread yields its id. -/
theorem delete_present {reply : Reply} (quiet : Unfiltered reply) (present : u ∈ s.threadIds) :
    Delete.resume base s (.authorizing u (s.threads.locate? (byId u))) reply =
        returned (dropOne base s u).1 [u] ∨
      ∃ s₁ i, Delete.resume base s (.authorizing u (s.threads.locate? (byId u))) reply =
          (s₁, .suspended (.deletingCheckpoints u i)) ∧
        ∀ reply', Unfiltered reply' →
          Delete.resume base s₁ (.deletingCheckpoints u i) reply' = returned (dropOne base s u).1 [u] := by
  obtain ⟨filters, answer, falsy⟩ := quiet
  obtain ⟨i, r, found, stands, mine, _, dropped⟩ := dropOne_present base present
  have allowed : filtersAllow (s.threads.get r).metadata filters = .ok true := by
    rw [filtersAllow, falsy]
    rfl
  rw [found, dropped]
  simp only [Delete.resume, answer, attempt_ok, allowed, Bool.true_eq_false, if_false, cleared]
  have config : (cascade s u).config = s.config := rfl
  rw [config]
  split
  · refine .inr ⟨cascade s u, i, rfl, fun reply' quiet' => ?_⟩
    obtain ⟨value, answer', _⟩ := quiet'
    simp only [answer', attempt_ok, Delete.pop]
    rw [show (cascade s u).threads = s.threads from rfl, stands]
    simp only [mine]
    rfl
  · refine .inl ?_
    simp only [Delete.pop]
    rw [show (cascade s u).threads = s.threads from rfl, stands]
    simp only [mine]
    rfl

theorem delete_absent {reply : Reply} (quiet : Unfiltered reply) (absent : u ∉ s.threadIds) :
    Delete.resume base s (.authorizing u (s.threads.locate? (byId u))) reply = raised s (notFound u) := by
  obtain ⟨filters, answer, _⟩ := quiet
  rcases locate?_spec s.threads (byId u) with ⟨none, _⟩ | ⟨i, r, _, stands, passes, _⟩
  · simp only [Delete.resume, answer, attempt_ok, none]
  · refine absurd (List.mem_map.mpr ⟨s.threads.get r, ?_, of_decide_eq_true passes⟩) absent
    exact List.mem_map_of_mem (List.mem_of_getElem? stands)

variable {uuid : String → Except PyError Uuid} {serde : Serde} {fuel : Nat}

/-- The loop over the ids of `strategy="delete"`. -/
theorem deleteEach_ends {threadIds : List IdArg} {ids : List Uuid}
    (accepted : threadIds.mapM (ensureUuid uuid) = .ok ids) (pruned : Nat) :
    Turn.EndsFor (Prune.resume uuid base serde fuel) Unfiltered (Prune.deleteEach uuid s pruned threadIds)
      (dropAll base s ids).1 (.ok ⟨pruned + (dropAll base s ids).2, []⟩) := by
  induction threadIds generalizing s ids pruned with
  | nil =>
    cases accepted
    exact .finished _ _
  | cons tid rest ih =>
    rw [List.mapM_cons] at accepted
    obtain ⟨u, parsed, accepted⟩ := bind_ok accepted
    obtain ⟨us, others, same⟩ := bind_ok accepted
    cases same
    rw [Prune.deleteEach, parsed, attempt_ok]
    refine .suspended (fun reply quiet => ?_)
    rw [Prune.resume]
    by_cases present : u ∈ s.threadIds
    · have counted : (dropOne base s u).2 = 1 := by
        obtain ⟨_, _, _, _, _, _, dropped⟩ := dropOne_present base present
        rw [dropped]
      have later := @ih (dropOne base s u).1 _ others (pruned + 1)
      simp only [dropAll, counted]
      rw [← Nat.add_assoc]
      rcases delete_present base quiet present with ended | ⟨s₁, i, waits, resumed⟩
      · rw [ended]
        exact later
      · rw [waits]
        refine .suspended (fun reply' quiet' => ?_)
        rw [Prune.resume, resumed reply' quiet']
        exact later
    · rw [delete_absent quiet present]
      have later := @ih s _ others pruned
      simp only [dropAll, dropOne_absent present, Nat.zero_add]
      exact later

end Deletions

section Targets

variable {base : BaseSaver} {s s' s'' : Runtime} {u : Uuid}

theorem DeletesExactly.refl (s : Runtime) : DeletesExactly base s s ∅ where
  threads := by simp
  runs := by simp
  crons := by simp
  ttls _ := by simp
  checkpoints := by
    cases custom : s.config.useCustomCheckpointer with
    | true => exact .inl ⟨rfl, rfl⟩
    | false => exact .inr ⟨rfl, [], List.nodup_nil, rfl, rfl⟩

theorem DeletesExactly.trans {gone more : Finset Uuid} (apart : Disjoint gone more)
    (same : s'.config = s.config) (first : DeletesExactly base s s' gone)
    (second : DeletesExactly base s' s'' more) : DeletesExactly base s s'' (gone ∪ more) where
  threads := by
    rw [second.threads, first.threads, List.filter_filter]
    refine List.filter_congr (fun thread _ => ?_)
    simp only [Finset.mem_union, not_or, Bool.decide_and, Bool.and_comm]
  runs := by
    rw [second.runs, first.runs, List.filter_filter]
    refine List.filter_congr (fun run _ => ?_)
    simp only [Finset.mem_union, not_or, Bool.decide_and, Bool.and_comm]
  crons := by
    rw [second.crons, first.crons, List.filter_filter]
    refine List.filter_congr (fun cron _ => ?_)
    simp only [Finset.mem_union, or_imp, forall_and, Bool.decide_and, Bool.and_comm]
  ttls v := by
    rw [second.ttls, first.ttls]
    by_cases inFirst : v ∈ gone <;> by_cases inSecond : v ∈ more <;> simp [inFirst, inSecond]
  checkpoints := by
    rcases first.checkpoints with ⟨kept, custom⟩ | ⟨builtin, order, distinct, all, memory⟩
    · rcases second.checkpoints with ⟨kept', _⟩ | ⟨builtin, _⟩
      · exact .inl ⟨kept'.trans kept, custom⟩
      · rw [same, custom] at builtin
        cases builtin
    · rcases second.checkpoints with ⟨_, custom⟩ | ⟨_, order', distinct', all', memory'⟩
      · rw [same, builtin] at custom
        cases custom
      · refine .inr ⟨builtin, order ++ order', ?_, by rw [List.toFinset_append, all, all'], ?_⟩
        · refine List.Nodup.append distinct distinct' (fun v inFirst inSecond => ?_)
          rw [← all, ← all'] at apart
          exact Finset.disjoint_left.mp apart (List.mem_toFinset.mpr inFirst) (List.mem_toFinset.mpr inSecond)
        · rw [memory', memory, List.foldl_append]

theorem dropOne_config (s : Runtime) (u : Uuid) : (dropOne base s u).1.config = s.config := by
  rw [dropOne]
  split
  · rfl
  · simp only [cleared]
    split <;> rfl

variable (base) in
/-- The deletion of a thread that the list has once. -/
theorem dropOne_exactly (present : u ∈ s.threadIds) (once : s.threadIds.count u ≤ 1) :
    DeletesExactly base s (dropOne base s u).1 {u} := by
  obtain ⟨i, r, _, _, _, popped, dropped⟩ := dropOne_present base present
  have runs : (cleared base s u).runs = s.runs.keep (fun run => run.threadId ≠ u) := by
    rw [cleared]
    split <;> rfl
  have crons : (cleared base s u).crons = s.crons.filter (fun cron => cron.threadId ≠ some u) := by
    rw [cleared]
    split <;> rfl
  rw [dropped]
  refine ⟨?_, ?_, ?_, fun v => ?_, ?_⟩
  · simp only [Finset.mem_singleton]
    exact popped.trans (eraseP_eq_filter Thread.threadId u once)
  · simp only [Finset.mem_singleton]
    rw [runs, Table.keep_values]
  · simp only [Finset.mem_singleton, forall_eq]
    rw [crons]
  · by_cases here : v = u
    · rw [here, if_pos (Finset.mem_singleton_self u)]
      exact Dict.get?_erase_self _ _
    · rw [if_neg (by simpa using here)]
      exact Dict.get?_erase_of_ne _ (fun same => here (Uuid.str_inj.mp same))
  · cases custom : s.config.useCustomCheckpointer with
    | true => exact .inl ⟨by simp only [cleared, custom, if_true]; rfl, rfl⟩
    | false =>
      refine .inr ⟨rfl, [u], List.nodup_singleton u, rfl, ?_⟩
      simp only [cleared, custom, Bool.false_eq_true, if_false]
      rfl

/-- Each id that is counted stands for one thread that is gone. -/
theorem dropAll_counts (base : BaseSaver) (s : Runtime) (ids : List Uuid) :
    (dropAll base s ids).2 + (dropAll base s ids).1.threads.values.length = s.threads.values.length := by
  induction ids generalizing s with
  | nil => exact Nat.zero_add _
  | cons u us ih =>
    have rest := ih (dropOne base s u).1
    simp only [dropAll]
    by_cases present : u ∈ s.threadIds
    · obtain ⟨i, r, _, stands, _, _, dropped⟩ := dropOne_present base present
      have inside := (List.getElem?_eq_some_iff.mp stands).1
      rw [dropped] at rest ⊢
      have shorter : (s.threads.pop i).values.length + 1 = s.threads.values.length := by
        rw [Table.pop_values, List.length_eraseIdx, Table.values_length, if_pos inside]
        omega
      simp only at rest ⊢
      omega
    · rw [dropOne_absent present] at rest ⊢
      simp only at rest ⊢
      omega

variable (base) in
/-- The deletions where no named thread stands twice in the list. -/
theorem dropAll_exactly {ids : List Uuid} (once : ∀ u ∈ ids, s.threadIds.count u ≤ 1) :
    DeletesExactly base s (dropAll base s ids).1 (targets s.toGlobalStore ids) ∧
      (dropAll base s ids).2 = (targets s.toGlobalStore ids).card := by
  induction ids generalizing s with
  | nil => exact ⟨by simpa [targets, dropAll] using DeletesExactly.refl s, by simp [dropAll, targets]⟩
  | cons u us ih =>
    by_cases present : u ∈ s.threadIds
    · have first := dropOne_exactly base present (once u (List.mem_cons_self ..))
      have remaining : (dropOne base s u).1.threadIds = s.threadIds.filter (fun v => v ≠ u) := by
        rw [GlobalStore.threadIds, first.threads, GlobalStore.threadIds, List.filter_map]
        simp only [Finset.mem_singleton]
        rfl
      obtain ⟨rest, counted⟩ := @ih (dropOne base s u).1 (fun v member => by
        rw [remaining]
        exact (List.Sublist.count_le v List.filter_sublist).trans (once v (List.mem_cons_of_mem _ member)))
      have apart : u ∉ targets (dropOne base s u).1.toGlobalStore us := by
        simp [targets, remaining]
      have whole : targets s.toGlobalStore (u :: us) =
          {u} ∪ targets (dropOne base s u).1.toGlobalStore us := by
        ext v
        by_cases here : v = u
        · simp [targets, here, present]
        · simp [targets, remaining, here]
      have hit : (dropOne base s u).2 = 1 := by
        obtain ⟨_, _, _, _, _, _, dropped⟩ := dropOne_present base present
        rw [dropped]
      refine ⟨?_, ?_⟩
      · rw [whole]
        exact first.trans (Finset.disjoint_singleton_left.mpr apart) (dropOne_config s u) rest
      · rw [whole, Finset.card_union_of_disjoint (Finset.disjoint_singleton_left.mpr apart),
          Finset.card_singleton, ← counted, dropAll, hit]
    · have same : targets s.toGlobalStore (u :: us) = targets s.toGlobalStore us := by
        ext v
        by_cases here : v = u
        · simp [targets, here, present]
        · simp [targets, here]
      simp only [dropAll, dropOne_absent present, same, Nat.zero_add]
      exact ih (fun v member => once v (List.mem_cons_of_mem _ member))

/-- When the right number of threads is gone and none of the named ones is
left, none of them stood twice. -/
theorem once_of_exactly {gone : Finset Uuid} {pruned : Nat} (inside : gone ⊆ s.threadIds.toFinset)
    (counts : pruned + s'.threads.values.length = s.threads.values.length) (counted : pruned = gone.card)
    (deletes : DeletesExactly base s s' gone) : ∀ u ∈ gone, s.threadIds.count u ≤ 1 := by
  have split := @List.length_eq_length_filter_add _ s.threads.values (fun thread => decide (thread.threadId ∈ gone))
  have left : (s.threads.values.filter (fun thread => !decide (thread.threadId ∈ gone))).length =
      s'.threads.values.length := by
    rw [deletes.threads]
    simp only [decide_not]
  have hits : (s.threadIds.filter (fun v => v ∈ gone)).length = gone.card := by
    rw [GlobalStore.threadIds, List.filter_map, List.length_map]
    have same : ((fun v => decide (v ∈ gone)) ∘ Thread.threadId) =
        (fun thread : Thread => decide (thread.threadId ∈ gone)) := rfl
    rw [same]
    omega
  have all : (s.threadIds.filter (fun v => v ∈ gone)).toFinset = gone := by
    ext v
    simp only [List.mem_toFinset, List.mem_filter, decide_eq_true_eq]
    exact ⟨And.right, fun member => ⟨List.mem_toFinset.mp (inside member), member⟩⟩
  have distinct : (s.threadIds.filter (fun v => v ∈ gone)).Nodup := by
    rw [← Multiset.coe_nodup, ← Multiset.toFinset_card_eq_card_iff_nodup]
    exact (congrArg Finset.card all).trans hits.symm
  intro u member
  rw [← List.count_filter (p := fun v => decide (v ∈ gone)) (by simpa using member)]
  exact List.nodup_iff_count_le_one.mp distinct u

end Targets

section Handed

variable {uuid : String → Except PyError Uuid} {base : BaseSaver} {serde : Serde} {fuel : Nat} {s s' : Runtime}

theorem flatten_idBatches (batchSize : Int) (ordered : List String) :
    (idBatches (max 1 batchSize).toNat ordered).flatten = ordered :=
  List.flatten_all_slices (by omega) ordered

theorem prune_texts (m : Memory) (batch : List String) :
    InmemRuntime.prune serde fuel base m (batch.map .text) .keepLatest =
      (batch.foldlM (pruneThread serde fuel) m).map .ok := by
  simp only [InmemRuntime.prune, List.foldlM_map]
  rfl

/-- A custom checkpointer is given the ids batch by batch. -/
theorem pruneEach_custom (custom : s.config.useCustomCheckpointer = true) (outcome : PruneOutcome)
    (batches : List (List String)) :
    Turn.EndsFor (Prune.resume uuid base serde fuel) Unfiltered
      (Prune.pruneEach base serde fuel s outcome batches) s (.ok (outcome.add batches.flatten)) := by
  induction batches generalizing outcome with
  | nil =>
    have same : outcome.add [] = outcome := by simp [PruneOutcome.add]
    rw [List.flatten_nil, same]
    exact .finished _ _
  | cons batch rest ih =>
    rw [Prune.pruneEach, if_pos custom]
    refine .suspended (fun reply quiet => ?_)
    obtain ⟨value, answer, _⟩ := quiet
    have whole : outcome.add (batch :: rest).flatten = (outcome.add batch).add rest.flatten := by
      simp [PruneOutcome.add, Nat.add_assoc]
    rw [Prune.resume, answer, attempt_ok, whole]
    exact ih _

theorem stuck_endless {outcome : Except PyError PruneOutcome} :
    ¬ Turn.EndsFor (Prune.resume uuid base serde fuel) Unfiltered (s, .suspended .stuck) s' outcome := by
  intro ends
  generalize at_stuck : (s, Turn.suspended Prune.stuck) = turn at ends
  induction ends generalizing s with
  | finished => cases at_stuck
  | suspended later ih =>
    cases at_stuck
    exact ih plainReply unfiltered_plain rfl

/-- The built-in checkpointer prunes the ids of all batches, or it does not end. -/
theorem pruneEach_builtin (builtin : s.config.useCustomCheckpointer = false) (outcome : PruneOutcome)
    (batches : List (List String)) (result : Except PyError PruneOutcome) :
    Turn.EndsFor (Prune.resume uuid base serde fuel) Unfiltered
        (Prune.pruneEach base serde fuel s outcome batches) s' result ↔
      ∃ memory, batches.flatten.foldlM (pruneThread serde fuel) s.memory = some memory ∧
        s' = { s with memory := memory } ∧ result = .ok (outcome.add batches.flatten) := by
  induction batches generalizing s outcome with
  | nil =>
    have same : outcome.add [] = outcome := by simp [PruneOutcome.add]
    rw [List.flatten_nil, same]
    constructor
    · intro ends
      cases ends
      exact ⟨_, rfl, rfl, rfl⟩
    · rintro ⟨memory, run, rfl, rfl⟩
      cases run
      exact .finished _ _
  | cons batch rest ih =>
    have whole : outcome.add (batch :: rest).flatten = (outcome.add batch).add rest.flatten := by
      simp [PruneOutcome.add, Nat.add_assoc]
    rw [Prune.pruneEach, builtin, if_neg Bool.false_ne_true, prune_texts, whole, List.flatten_cons, List.foldlM_append]
    cases first : batch.foldlM (pruneThread serde fuel) s.memory with
    | none =>
      constructor
      · exact fun ends => absurd ends stuck_endless
      · rintro ⟨memory, run, _, _⟩
        cases run
    | some memory => exact @ih { s with memory := memory } builtin (outcome.add batch)

theorem mapM_lists {threadIds : List IdArg} {ids : List Uuid}
    (accepted : threadIds.mapM (ensureUuid uuid) = .ok ids) (u : Uuid) :
    u ∈ ids ↔ ∃ tid ∈ threadIds, ensureUuid uuid tid = .ok u := by
  induction threadIds generalizing ids with
  | nil =>
    cases accepted
    simp
  | cons tid rest ih =>
    rw [List.mapM_cons] at accepted
    obtain ⟨v, parsed, accepted⟩ := bind_ok accepted
    obtain ⟨vs, others, same⟩ := bind_ok accepted
    cases same
    rw [List.mem_cons, ih others, List.exists_mem_cons_iff, parsed, Except.ok.injEq, eq_comm]

/-- Where the call goes when no handler has filters. -/
theorem begins_iff {threadIds : List IdArg} (some : threadIds ≠ []) {strategy : PruneStrategy} {batchSize : Int}
    {result : Except PyError PruneOutcome} :
    Turn.EndsFor (Prune.resume uuid base serde fuel) Unfiltered
        (s, .suspended (.called ⟨threadIds, strategy, batchSize⟩)) s' result ↔
      Turn.EndsFor (Prune.resume uuid base serde fuel) Unfiltered
        (Prune.start uuid s ⟨threadIds, strategy, batchSize⟩) s' result := by
  have called : ∀ reply, Prune.resume uuid base serde fuel s (.called ⟨threadIds, strategy, batchSize⟩) reply =
      (s, .suspended (.authorizing ⟨threadIds, strategy, batchSize⟩)) := by
    intro reply
    rw [Prune.resume, if_neg (by simpa using some)]
  have authorized : ∀ reply, Unfiltered reply →
      Prune.resume uuid base serde fuel s (.authorizing ⟨threadIds, strategy, batchSize⟩) reply =
        Prune.start uuid s ⟨threadIds, strategy, batchSize⟩ := by
    rintro reply ⟨filters, answer, falsy⟩
    rw [Prune.resume, answer, attempt_ok, falsy, if_neg Bool.false_ne_true]
  constructor
  · rintro (_ | later)
    have next := later plainReply unfiltered_plain
    rw [called] at next
    rcases next with _ | later
    have next := later plainReply unfiltered_plain
    rwa [authorized plainReply unfiltered_plain] at next
  · intro ends
    refine .suspended (fun reply _ => ?_)
    rw [called]
    refine .suspended (fun reply quiet => ?_)
    rwa [authorized reply quiet]

/-- The call with an empty list. -/
theorem empty_iff {strategy : PruneStrategy} {batchSize : Int} {result : Except PyError PruneOutcome} :
    Turn.EndsFor (Prune.resume uuid base serde fuel) Unfiltered
        (s, .suspended (.called ⟨[], strategy, batchSize⟩)) s' result ↔
      Turn.EndsFor (Prune.resume uuid base serde fuel) Unfiltered (returned s ⟨0, []⟩) s' result := by
  constructor
  · rintro (_ | later)
    exact later plainReply unfiltered_plain
  · exact fun ends => .suspended (fun _ _ => ends)

/-- The `keep_latest` call hands the ordered ids over. -/
theorem keepLatest_ends_iff {threadIds : List IdArg} {batchSize : Int} {result : Except PyError PruneOutcome} :
    Turn.EndsFor (Prune.resume uuid base serde fuel) Unfiltered
        (Prune.start uuid s ⟨threadIds, .keepLatest, batchSize⟩) s' result ↔
      Turn.EndsFor (Prune.resume uuid base serde fuel) Unfiltered
        (Prune.pruneEach base serde fuel s ⟨0, []⟩ (idBatches (max 1 batchSize).toNat
          (orderedIds threadIds (existingIds s.toGlobalStore threadIds)))) s' result := by
  have checkpointer : ∀ reply, Unfiltered reply →
      Prune.resume uuid base serde fuel s (.gettingCheckpointer ⟨threadIds, .keepLatest, batchSize⟩
          (existingIds s.toGlobalStore threadIds)) reply =
        Prune.pruneEach base serde fuel s ⟨0, []⟩ (idBatches (max 1 batchSize).toNat
          (orderedIds threadIds (existingIds s.toGlobalStore threadIds))) := by
    rintro reply ⟨value, answer, _⟩
    rw [Prune.resume, answer, attempt_ok]
  constructor
  · rintro (_ | later)
    have next := later plainReply unfiltered_plain
    rwa [checkpointer plainReply unfiltered_plain] at next
  · intro ends
    refine .suspended (fun reply quiet => ?_)
    rwa [checkpointer reply quiet]

end Handed

section Ordered

variable {uuid : String → Except PyError Uuid} {s : GlobalStore} {threadIds : List IdArg} {ids : List Uuid}

theorem mem_orderedIds {id : String} : id ∈ orderedIds threadIds (existingIds s threadIds) ↔
    id ∈ threadIds.map IdArg.str ∧ ∃ u ∈ s.threadIds, u.str = id := by
  simp only [orderedIds, existingIds, List.mem_filter, decide_eq_true_eq]
  exact ⟨fun ⟨named, stored, _⟩ => ⟨named, List.mem_map.mp stored⟩,
    fun ⟨named, stored⟩ => ⟨named, List.mem_map.mpr stored, named⟩⟩

/-- What is handed over are texts of targets. -/
theorem target_of_ordered (canonical : ∀ u : Uuid, uuid u.str = .ok u)
    (accepted : threadIds.mapM (ensureUuid uuid) = .ok ids) {id : String}
    (member : id ∈ orderedIds threadIds (existingIds s threadIds)) : ∃ u ∈ targets s ids, u.str = id := by
  obtain ⟨named, u, stored, text⟩ := mem_orderedIds.mp member
  obtain ⟨tid, listed, same⟩ := List.mem_map.mp named
  have parsed : ensureUuid uuid tid = .ok u := by
    cases tid with
    | uuid v => exact congrArg Except.ok (Uuid.str_inj.mp (same.trans text.symm))
    | text t =>
      cases same.trans text.symm
      exact canonical u
  refine ⟨u, Finset.mem_inter.mpr ⟨List.mem_toFinset.mpr stored, List.mem_toFinset.mpr ?_⟩, text⟩
  exact (mapM_lists accepted u).mpr ⟨tid, listed, parsed⟩

theorem count_orderedIds {u : Uuid} (member : u ∈ targets s ids) :
    (orderedIds threadIds (existingIds s threadIds)).count u.str = (threadIds.map IdArg.str).count u.str := by
  have stored : u ∈ s.threadIds := List.mem_toFinset.mp (Finset.mem_inter.mp member).1
  by_cases named : u.str ∈ threadIds.map IdArg.str
  · refine List.count_filter ?_
    exact decide_eq_true (List.mem_filter.mpr ⟨List.mem_map_of_mem stored, decide_eq_true named⟩)
  · rw [List.count_eq_zero.mpr named, List.count_eq_zero.mpr (fun ordered => named (mem_orderedIds.mp ordered).1)]

theorem orderedIds_nodup (canonical : ∀ u : Uuid, uuid u.str = .ok u)
    (accepted : threadIds.mapM (ensureUuid uuid) = .ok ids)
    (once : ∀ u ∈ targets s ids, (threadIds.map IdArg.str).count u.str = 1) :
    (orderedIds threadIds (existingIds s threadIds)).Nodup := by
  refine List.nodup_iff_count_le_one.mpr (fun id => ?_)
  by_cases ordered : id ∈ orderedIds threadIds (existingIds s threadIds)
  · obtain ⟨u, member, rfl⟩ := target_of_ordered canonical accepted ordered
    exact ((count_orderedIds member).trans (once u member)).le
  · exact (List.count_eq_zero.mpr ordered).trans_le (Nat.zero_le 1)

/-- Exactly the targets are handed over, each once, when each is named once by
its canonical text. -/
theorem ordered_exactly_iff (canonical : ∀ u : Uuid, uuid u.str = .ok u)
    (accepted : threadIds.mapM (ensureUuid uuid) = .ok ids) :
    ((orderedIds threadIds (existingIds s threadIds)).length = (targets s ids).card ∧
        ∀ id, id ∈ orderedIds threadIds (existingIds s threadIds) ↔ ∃ u ∈ targets s ids, u.str = id) ↔
      ∀ u ∈ targets s ids, (threadIds.map IdArg.str).count u.str = 1 := by
  have injective : Function.Injective Uuid.str := fun _ _ => Uuid.str_inj.mp
  constructor
  · rintro ⟨length, members⟩ u member
    have all : (orderedIds threadIds (existingIds s threadIds)).toFinset = (targets s ids).image Uuid.str := by
      ext id
      rw [List.mem_toFinset, members, Finset.mem_image]
    have distinct : (orderedIds threadIds (existingIds s threadIds)).Nodup := by
      rw [← Multiset.coe_nodup, ← Multiset.toFinset_card_eq_card_iff_nodup]
      exact (congrArg Finset.card all).trans ((Finset.card_image_of_injective _ injective).trans length.symm)
    rw [← count_orderedIds member]
    exact List.count_eq_one_of_mem distinct ((members u.str).mpr ⟨u, member, rfl⟩)
  · intro once
    have counts : ∀ u ∈ targets s ids, (orderedIds threadIds (existingIds s threadIds)).count u.str = 1 :=
      fun u member => (count_orderedIds member).trans (once u member)
    have distinct := orderedIds_nodup canonical accepted once
    have members : ∀ id, id ∈ orderedIds threadIds (existingIds s threadIds) ↔
        ∃ u ∈ targets s ids, u.str = id := by
      refine fun id => ⟨target_of_ordered canonical accepted, ?_⟩
      rintro ⟨u, member, rfl⟩
      exact List.count_pos_iff.mp (by rw [counts u member]; exact Nat.one_pos)
    refine ⟨?_, members⟩
    have all : (orderedIds threadIds (existingIds s threadIds)).toFinset = (targets s ids).image Uuid.str := by
      ext id
      rw [List.mem_toFinset, members, Finset.mem_image]
    rw [← List.toFinset_card_of_nodup distinct, all, Finset.card_image_of_injective _ injective]

end Ordered

section Main

variable {uuid : String → Except PyError Uuid} {base : BaseSaver} {serde : Serde} {s : Runtime}
  {threadIds : List IdArg} {ids : List Uuid}

theorem called_delete_ends (accepted : threadIds.mapM (ensureUuid uuid) = .ok ids) (fuel : Nat) (batchSize : Int) :
    Turn.EndsFor (Prune.resume uuid base serde fuel) Unfiltered
      (s, .suspended (.called ⟨threadIds, .delete, batchSize⟩)) (dropAll base s ids).1
      (.ok ⟨(dropAll base s ids).2, []⟩) := by
  by_cases some : threadIds = []
  · subst some
    cases accepted
    exact empty_iff.mpr (.finished _ _)
  · have ends := @deleteEach_ends base s uuid serde fuel _ _ accepted 0
    rw [Nat.zero_add] at ends
    exact (begins_iff some).mpr ends

theorem delete_iff (accepted : threadIds.mapM (ensureUuid uuid) = .ok ids) :
    PrunesAll uuid base serde s threadIds .delete (targets s.toGlobalStore ids) ↔
      ∀ u ∈ targets s.toGlobalStore ids, s.threadIds.count u = 1 := by
  constructor
  · rintro ⟨s', outcome, counted, deletes, _, ends⟩ u member
    obtain ⟨enough, run⟩ := ends 1
    obtain ⟨rfl, same⟩ := (run enough le_rfl).unique unfiltered_plain
      (called_delete_ends accepted enough 1)
    cases same
    have stored : u ∈ s.threadIds := List.mem_toFinset.mp (Finset.mem_inter.mp member).1
    have most := once_of_exactly Finset.inter_subset_left (dropAll_counts base s ids) counted (deletes rfl) u member
    exact Nat.le_antisymm most (List.count_pos_iff.mpr stored)
  · intro once
    have atMost : ∀ u ∈ ids, s.threadIds.count u ≤ 1 := by
      intro u named
      by_cases stored : u ∈ s.threadIds
      · exact (once u (Finset.mem_inter.mpr ⟨List.mem_toFinset.mpr stored, List.mem_toFinset.mpr named⟩)).le
      · exact (List.count_eq_zero.mpr stored).trans_le (Nat.zero_le 1)
    obtain ⟨deletes, counted⟩ := dropAll_exactly base atMost
    refine ⟨_, ⟨(dropAll base s ids).2, []⟩, counted, fun _ => deletes, fun other => ?_, fun batchSize => ?_⟩
    · cases other
    · exact ⟨0, fun fuel _ => called_delete_ends accepted fuel batchSize⟩

/-- How the `keep_latest` call ends. -/
theorem called_keepLatest_ends_iff {fuel : Nat} {batchSize : Int} {s' : Runtime} {outcome : PruneOutcome} :
    Turn.EndsFor (Prune.resume uuid base serde fuel) Unfiltered
        (s, .suspended (.called ⟨threadIds, .keepLatest, batchSize⟩)) s' (.ok outcome) ↔
      (s.config.useCustomCheckpointer = true ∧ s' = s ∨ s.config.useCustomCheckpointer = false ∧ ∃ memory,
        (orderedIds threadIds (existingIds s.toGlobalStore threadIds)).foldlM (pruneThread serde fuel) s.memory =
          some memory ∧ s' = { s with memory := memory }) ∧
      outcome = ⟨(orderedIds threadIds (existingIds s.toGlobalStore threadIds)).length,
        orderedIds threadIds (existingIds s.toGlobalStore threadIds)⟩ := by
  have start : Turn.EndsFor (Prune.resume uuid base serde fuel) Unfiltered
        (s, .suspended (.called ⟨threadIds, .keepLatest, batchSize⟩)) s' (.ok outcome) ↔
      Turn.EndsFor (Prune.resume uuid base serde fuel) Unfiltered
        (Prune.pruneEach base serde fuel s ⟨0, []⟩ (idBatches (max 1 batchSize).toNat
          (orderedIds threadIds (existingIds s.toGlobalStore threadIds)))) s' (.ok outcome) := by
    by_cases some : threadIds = []
    · subst some
      have none : idBatches (max 1 batchSize).toNat [] = [] := by
        have small : (max 1 batchSize).toNat - 1 < (max 1 batchSize).toNat := by omega
        simp [idBatches, Nat.div_eq_of_lt small]
      have nothing : orderedIds [] (existingIds s.toGlobalStore []) = [] := rfl
      rw [nothing, none]
      exact empty_iff
    · exact (begins_iff some).trans keepLatest_ends_iff
  have handed : (⟨0, []⟩ : PruneOutcome).add (orderedIds threadIds (existingIds s.toGlobalStore threadIds)) =
      ⟨(orderedIds threadIds (existingIds s.toGlobalStore threadIds)).length,
        orderedIds threadIds (existingIds s.toGlobalStore threadIds)⟩ := by
    simp [PruneOutcome.add]
  rw [start]
  cases custom : s.config.useCustomCheckpointer with
  | true =>
    have ends := @pruneEach_custom uuid base serde fuel s custom ⟨0, []⟩ (idBatches (max 1 batchSize).toNat
      (orderedIds threadIds (existingIds s.toGlobalStore threadIds)))
    rw [flatten_idBatches, handed] at ends
    constructor
    · intro given
      obtain ⟨rfl, same⟩ := given.unique unfiltered_plain ends
      exact ⟨.inl ⟨rfl, rfl⟩, Except.ok.inj same⟩
    · rintro ⟨⟨_, rfl⟩ | ⟨no, _⟩, rfl⟩
      · exact ends
      · cases no
  | false =>
    rw [pruneEach_builtin custom, flatten_idBatches, handed]
    constructor
    · rintro ⟨memory, run, same, given⟩
      exact ⟨.inr ⟨rfl, memory, run, same⟩, Except.ok.inj given⟩
    · rintro ⟨⟨no, _⟩ | ⟨_, memory, run, same⟩, given⟩
      · cases no
      · exact ⟨memory, run, same, congrArg Except.ok given⟩

theorem keepLatest_iff (canonical : ∀ u : Uuid, uuid u.str = .ok u)
    (accepted : threadIds.mapM (ensureUuid uuid) = .ok ids) :
    PrunesAll uuid base serde s threadIds .keepLatest (targets s.toGlobalStore ids) ↔
      ∀ u ∈ targets s.toGlobalStore ids, (threadIds.map IdArg.str).count u.str = 1 ∧
        (s.config.useCustomCheckpointer = true ∨ ∀ ns, s.memory.WalkStops serde u.str ns) := by
  constructor
  · rintro ⟨s', outcome, counted, _, prunes, ends⟩
    obtain ⟨enough, run⟩ := ends 1
    obtain ⟨reached, rfl⟩ := called_keepLatest_ends_iff.mp (run enough le_rfl)
    have members := (prunes rfl).threads
    have once := (ordered_exactly_iff canonical accepted).mp ⟨counted, members⟩
    refine fun u member => ⟨once u member, ?_⟩
    rcases reached with ⟨custom, _⟩ | ⟨_, memory, folded, _⟩
    · exact .inl custom
    · have handed := (members u.str).mpr ⟨u, member, rfl⟩
      exact .inr (walksEnd_iff.mp (pruneThreads_end_iff.mp ⟨enough, memory, folded⟩ _ handed))
  · intro named
    have once := fun u member => (named u member).1
    obtain ⟨counted, members⟩ := (ordered_exactly_iff canonical accepted).mpr once
    cases custom : s.config.useCustomCheckpointer with
    | true =>
      refine ⟨s, _, counted, fun other => ?_, fun _ => ⟨members, .inl ⟨rfl, custom⟩, rfl⟩, fun batchSize =>
        ⟨0, fun fuel _ => called_keepLatest_ends_iff.mpr ⟨.inl ⟨custom, rfl⟩, rfl⟩⟩⟩
      cases other
    | false =>
      obtain ⟨fuel, memory, folded⟩ := pruneThreads_end_iff.mpr (by
        intro id ordered
        obtain ⟨u, member, rfl⟩ := target_of_ordered canonical accepted ordered
        exact walksEnd_iff.mpr ((named u member).2.resolve_left (by simp [custom])))
      refine ⟨{ s with memory := memory }, _, counted, fun other => ?_,
        fun _ => ⟨members, .inr ⟨custom, fuel, folded⟩, rfl⟩, fun batchSize =>
          ⟨fuel, fun fuel' le => called_keepLatest_ends_iff.mpr ⟨.inr ⟨custom, memory, ?_, rfl⟩, rfl⟩⟩⟩
      · cases other
      · exact Fuel.foldlM_mono (fun _ _ _ => pruneThread_mono le) folded

/-- `delete` takes exactly the named threads, and counts them, where no named
thread stands twice in the store. `keep_latest` does where each named thread
that exists is named once by its canonical text, and the walks up the parents
of its checkpoints end. -/
theorem prune_exactly_iff (base : BaseSaver) (serde : Serde) (canonical : ∀ u : Uuid, uuid u.str = .ok u)
    (s : Runtime) (accepted : threadIds.mapM (ensureUuid uuid) = .ok ids) :
    (PrunesAll uuid base serde s threadIds .delete (targets s.toGlobalStore ids) ↔
        ∀ u ∈ targets s.toGlobalStore ids, s.threadIds.count u = 1) ∧
      (PrunesAll uuid base serde s threadIds .keepLatest (targets s.toGlobalStore ids) ↔
        ∀ u ∈ targets s.toGlobalStore ids, (threadIds.map IdArg.str).count u.str = 1 ∧
          (s.config.useCustomCheckpointer = true ∨ ∀ ns, s.memory.WalkStops serde u.str ns)) :=
  ⟨delete_iff accepted, keepLatest_iff canonical accepted⟩

/-- `UUID(text)` for the canonical texts. -/
noncomputable def canonicalOnly (text : String) : Except PyError Uuid :=
  (Function.partialInv Uuid.str text).elim (.error (.valueError "badly formed hexadecimal UUID string")) .ok

theorem canonicalOnly_str (u : Uuid) : canonicalOnly u.str = .ok u := by
  rw [canonicalOnly, Function.partialInv_left (fun _ _ => Uuid.str_inj.mp)]
  rfl

/-- A thread by its text, and an unknown one. -/
theorem prune_exactly_text :
    PrunesAll canonicalOnly plainBase deltaSerde (storeOf [idleThread ⟨1⟩, idleThread ⟨2⟩])
        [.text (Uuid.mk 1).str, .uuid ⟨3⟩] .delete {⟨1⟩} ∧
      PrunesAll canonicalOnly plainBase deltaSerde (storeOf [idleThread ⟨1⟩, idleThread ⟨2⟩])
        [.text (Uuid.mk 1).str, .uuid ⟨3⟩] .keepLatest {⟨1⟩} := by
  have accepted : [IdArg.text (Uuid.mk 1).str, .uuid ⟨3⟩].mapM (ensureUuid canonicalOnly) =
      .ok [⟨1⟩, ⟨3⟩] := by
    rw [List.mapM_cons, show ensureUuid canonicalOnly (.text (Uuid.mk 1).str) = .ok ⟨1⟩ from canonicalOnly_str _]
    rfl
  have found : targets (storeOf [idleThread ⟨1⟩, idleThread ⟨2⟩]).toGlobalStore [⟨1⟩, ⟨3⟩] = {⟨1⟩} := by decide
  obtain ⟨deletes, keeps⟩ := prune_exactly_iff plainBase deltaSerde canonicalOnly_str
    (storeOf [idleThread ⟨1⟩, idleThread ⟨2⟩]) accepted
  rw [found] at deletes keeps
  refine ⟨deletes.mpr (by decide), keeps.mpr (fun u member => ?_)⟩
  cases Finset.mem_singleton.mp member
  exact ⟨by decide, .inr (walksEnd_iff.mp ⟨0, _, rfl⟩)⟩

/-- A thread that is named twice is counted twice by `keep_latest`. -/
theorem prune_counts_repetitions :
    ¬ PrunesAll canonicalOnly plainBase deltaSerde (storeOf [idleThread ⟨1⟩]) [.uuid ⟨1⟩, .uuid ⟨1⟩] .keepLatest
      {⟨1⟩} := by
  have accepted : [IdArg.uuid ⟨1⟩, .uuid ⟨1⟩].mapM (ensureUuid canonicalOnly) = .ok [⟨1⟩, ⟨1⟩] := rfl
  have found : targets (storeOf [idleThread ⟨1⟩]).toGlobalStore [⟨1⟩, ⟨1⟩] = {⟨1⟩} := by decide
  intro prunes
  rw [← found] at prunes
  have once := ((keepLatest_iff canonicalOnly_str accepted).mp prunes ⟨1⟩ (by rw [found]; decide)).1
  revert once
  decide

end Main

end Threads

end InmemRuntime
