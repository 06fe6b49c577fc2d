import InmemRuntime.FailedCalls
import InmemRuntime.ThreadOps

namespace InmemRuntime

/-- The `ttl` argument is left out, or `_normalize_ttl_config` accepts it. -/
def TtlAccepted (ttl : Option PyDict) : Prop :=
  ∀ config, ttl = some config → ∃ result, normalizeTtlConfig (some config) = .ok result

theorem applyTtl_error_iff {ttls : ThreadTtls} {threadId : Uuid} {ttl : Option PyDict} :
    (∃ e, applyTtl ttls threadId ttl = .error e) ↔ ¬ TtlAccepted ttl := by
  cases ttl with
  | none => simp [applyTtl, TtlAccepted]
  | some config =>
    cases normalized : normalizeTtlConfig (some config) with
    | error e =>
      have raises : applyTtl ttls threadId (some config) = .error e := by
        simp only [applyTtl, setThreadTtlOverride, normalized]
        rfl
      simp [raises, TtlAccepted, normalized]
    | ok result =>
      have accepted : ∃ ttls', applyTtl ttls threadId (some config) = .ok ttls' := by
        simp only [applyTtl, setThreadTtlOverride, normalized]
        cases result <;> exact ⟨_, rfl⟩
      obtain ⟨ttls', accepted⟩ := accepted
      simp [accepted, TtlAccepted, normalized]

namespace Threads

section Puts

variable {s : Runtime} {call : PutCall} {reply : Reply}

/-- The call comes to append the new thread. -/
def Put.Appends (s : Runtime) (call : PutCall) (reply : Reply) : Prop :=
  (∃ filters, reply.answer = .ok filters) ∧ s.threads.find? (byId call.threadId) = none

theorem append_changed {threads : Table Thread} {thread : Thread} : (threads.append thread).values ≠ threads.values := by
  simp

theorem Put.create_ensures {now : Time} {replies : List Reply} :
    Turn.Ensures Put.resume (OnRaise s.Unchanged) replies (Put.create s call now) ↔ TtlAccepted call.ttl := by
  simp only [create, ensures_attempt, onRaise_error, ensures_returned, onRaise_ok, implies_true, and_true]
  constructor
  · intro unchanged
    by_contra rejected
    obtain ⟨e, raises⟩ := applyTtl_error_iff.mpr rejected
    exact append_changed (unchanged e raises).threads
  · intro accepted e raises
    exact absurd accepted (applyTtl_error_iff.mp ⟨e, raises⟩)

theorem Put.ensures_iff {made : Reply} :
    Turn.Ensures Put.resume (OnRaise s.Unchanged) [made, reply] (s, .suspended (.called call)) ↔
      (Put.Appends s call reply → TtlAccepted call.ttl) := by
  rw [Turn.ensures_suspended, resume, Turn.ensures_suspended, resume]
  simp only [ensures_attempt, onRaise_error, Runtime.Unchanged.refl, implies_true, true_and, Appends]
  cases found : s.threads.find? (byId call.threadId) with
  | none => simp [Put.create_ensures]
  | some r =>
    simp only [reduceCtorEq, and_false, false_implies, iff_true]
    intro filters _
    refine ensures_attempt.mpr ⟨fun e _ => .refl s, fun allowed _ => ?_⟩
    split
    · simp [Runtime.Unchanged.refl]
    · cases call.ifExists <;> simp [Runtime.Unchanged.refl]

end Puts

section Patches

variable {s : Runtime} {call : PatchCall} {reply : Reply}

/-- The call comes to put a patched copy, which differs, in the place of the thread. -/
def Patch.Replaces (s : Runtime) (call : PatchCall) (reply : Reply) : Prop :=
  ∃ filters r, reply.answer = .ok filters ∧ s.threads.find? (byId call.threadId) = some r ∧
    filtersAllow (s.threads.get r).metadata filters = .ok true ∧
    patched (s.threads.get r) call.metadata reply.now ≠ s.threads.get r

theorem replaceAt_values_eq_iff {threads : Table Thread} {i r : Nat} {thread : Thread}
    (stands : threads.rows[i]? = some r) :
    (threads.replaceAt i thread).values = threads.values ↔ thread = threads.get r := by
  obtain ⟨inside, rfl⟩ := List.getElem?_eq_some_iff.mp stands
  have value : threads.values[i]? = some (threads.get threads.rows[i]) := by
    rw [Table.values_getElem?, stands, Option.map_some]
  rw [Table.replaceAt_values]
  constructor
  · intro same
    have at_i := congrArg (fun values => values[i]?) same
    rw [List.getElem?_set_self (by simpa using inside), value] at at_i
    exact Option.some.inj at_i
  · rintro rfl
    obtain ⟨within, there⟩ := List.getElem?_eq_some_iff.mp value
    rw [← there, List.set_getElem_self]

/-- The search for the index finds the thread that the search for the record finds. -/
theorem findIdx?_stands {threads : Table Thread} {threadId : Uuid} {i : Nat}
    (found : threads.findIdx? (byId threadId) = some i) :
    ∃ r, threads.rows[i]? = some r ∧ threads.find? (byId threadId) = some r := by
  obtain ⟨r, stands, _⟩ := Table.findIdx?_eq_some found
  refine ⟨r, stands, ?_⟩
  have search : threads.find? (byId threadId) =
      (threads.findIdx? (byId threadId)).bind (fun i => threads.rows[i]?) :=
    List.find?_eq_bind_findIdx?_getElem?
  rw [search, found, Option.bind_some, stands]

theorem find?_of_findIdx?_none {threads : Table Thread} {threadId : Uuid}
    (absent : threads.findIdx? (byId threadId) = none) : threads.find? (byId threadId) = none := by
  have search : threads.find? (byId threadId) =
      (threads.findIdx? (byId threadId)).bind (fun i => threads.rows[i]?) :=
    List.find?_eq_bind_findIdx?_getElem?
  rw [search, absent, Option.bind_none]

theorem Patch.replace_unchanged_iff {i r : Nat} {thread : Thread} (stands : s.threads.rows[i]? = some r) :
    s.Unchanged { s with threads := s.threads.replaceAt i thread } ↔ thread = s.threads.get r :=
  ⟨fun unchanged => (replaceAt_values_eq_iff stands).mp unchanged.threads,
    fun same => ⟨(replaceAt_values_eq_iff stands).mpr same, rfl⟩⟩

theorem Patch.ensures_iff {made : Reply} :
    Turn.Ensures Patch.resume (OnRaise s.Unchanged) [made, reply] (s, .suspended (.called call)) ↔
      (Patch.Replaces s call reply → TtlAccepted call.ttl) := by
  rw [Turn.ensures_suspended, resume]
  cases found : s.threads.findIdx? (byId call.threadId) with
  | none => simp [Replaces, find?_of_findIdx?_none found]
  | some i =>
    obtain ⟨r, stands, search⟩ := findIdx?_stands found
    simp only [Turn.ensures_suspended, resume, ensures_attempt, stands, onRaise_error, Runtime.Unchanged.refl,
      implies_true, true_and, Replaces, search, Option.some.injEq]
    constructor
    · rintro ensured ⟨filters, _, answer, rfl, allowed, differs⟩
      have written := ensured filters answer true allowed
      simp only [Bool.true_eq_false, if_false, ensures_attempt, onRaise_error, Patch.replace_unchanged_iff stands]
        at written
      by_contra rejected
      obtain ⟨e, raises⟩ := applyTtl_error_iff.mpr rejected
      exact differs (written.1 e raises)
    · intro accepted filters answer allowed verdict
      cases allowed with
      | false => simp
      | true =>
        simp only [Bool.true_eq_false, if_false, ensures_attempt, onRaise_error, ensures_returned, onRaise_ok,
          implies_true, and_true, Patch.replace_unchanged_iff stands]
        intro e raises
        by_contra differs
        exact applyTtl_error_iff.mp ⟨e, raises⟩ (accepted ⟨filters, r, answer, rfl, verdict, differs⟩)

end Patches

/-- Without interleaving, a `put` or a `patch` that raises leaves the store as
it was exactly when what it comes to write is written with an accepted TTL. -/
theorem put_patch_unchanged_on_raise_iff (s : Runtime) (made reply : Reply) :
    (∀ call : PutCall,
      Turn.Ensures Put.resume (OnRaise s.Unchanged) [made, reply] (s, .suspended (.called call)) ↔
        (Put.Appends s call reply → TtlAccepted call.ttl)) ∧
    ∀ call : PatchCall,
      Turn.Ensures Patch.resume (OnRaise s.Unchanged) [made, reply] (s, .suspended (.called call)) ↔
        (Patch.Replaces s call reply → TtlAccepted call.ttl) :=
  ⟨fun _ => Put.ensures_iff, fun _ => Patch.ensures_iff⟩

/-- A negative TTL, which is rejected. -/
def negativeTtl : PyDict := [("ttl", .int (-1))]

theorem negativeTtl_rejected : ¬ TtlAccepted (some negativeTtl) := by
  intro accepted
  obtain ⟨result, normalized⟩ := accepted negativeTtl rfl
  have rejected : (normalizeTtlConfig (some negativeTtl)).toOption = none := by decide +kernel
  rw [normalized] at rejected
  cases rejected

/-- The thread with the rejected TTL stays in the list. -/
theorem put_changes_on_raise :
    ¬ ∀ (s : Runtime) (made reply : Reply) (call : PutCall),
      Turn.Ensures Put.resume (OnRaise s.Unchanged) [made, reply] (s, .suspended (.called call)) := by
  intro unchanged
  have kept := unchanged (storeOf []) plainReply plainReply ⟨⟨1⟩, none, .raise, some negativeTtl⟩
  exact negativeTtl_rejected (Put.ensures_iff.mp kept ⟨⟨_, rfl⟩, rfl⟩)

end Threads

/-- `_replace_thread_id` takes the checkpoints of the source and the values of
each of its pending writes. -/
structure Memory.Copyable (m : Memory) (source target : Uuid) : Prop where
  checkpoints : ((replaceThreadId (namespacesToData ((m.storage.get? source.str).getD .empty)) target source).bind
    namespacesOfData?).isSome
  writes : ∀ key ∈ m.writes.keys, key.thread = source.str →
    ((m.writes.get? key).bind (copyWriteGroup source target)).isSome

section CopiedWrites

variable {source target : Uuid}

variable (target) in
/-- The loop over the write keys raises at a group that cannot be copied. Each
group is read as it was, since the keys are distinct. -/
theorem copyWriteGroups_ok_iff {keys : List WriteKey} (distinct : keys.Nodup) (m : Memory)
    (own : ∀ key ∈ keys, key.thread = source.str) :
    (∃ m', copyWriteGroups source target keys m = .ok m') ↔
      ∀ key ∈ keys, ((m.writes.get? key).bind (copyWriteGroup source target)).isSome := by
  induction keys generalizing m with
  | nil => simp [copyWriteGroups]
  | cons key keys ih =>
    obtain ⟨fresh, distinct⟩ := List.nodup_cons.mp distinct
    obtain ⟨mine, own⟩ := List.forall_mem_cons.mp own
    rw [copyWriteGroups, List.forall_mem_cons]
    cases copied : (m.writes.get? key).bind (copyWriteGroup source target) with
    | none => simp
    | some mapped =>
      have apart : ∀ other ∈ keys, other ≠ { key with thread := target.str } := by
        rintro other member rfl
        have same : target.str = source.str := own _ member
        exact fresh (by rwa [same, ← mine] at member)
      rw [ih distinct _ own]
      have untouched : ∀ other ∈ keys,
          (m.writes.set { key with thread := target.str } mapped).get? other = m.writes.get? other :=
        fun other member => Dict.get?_set_of_ne _ _ (apart other member)
      constructor
      · exact fun rest => ⟨rfl, fun other member => by rw [← untouched other member]; exact rest other member⟩
      · exact fun all other member => by rw [untouched other member]; exact all.2 other member

theorem Memory.copyThread_ok_iff (m : Memory) :
    (∃ m', m.copyThread source target = .ok m') ↔ m.Copyable source target := by
  unfold Memory.copyThread
  cases copied : (replaceThreadId (namespacesToData ((m.storage.get? source.str).getD .empty)) target source).bind
      namespacesOfData? with
  | none =>
    have never : ¬ m.Copyable source target := fun copyable => by
      have some' := copyable.checkpoints
      rw [copied] at some'
      cases some'
    simp [copied, never]
  | some namespaces =>
    simp only [copied]
    have distinct : (m.writes.keys.filter (fun key => key.thread = source.str)).Nodup := m.writes.nodup.filter _
    have groups (m' : Memory) := copyWriteGroups_ok_iff target distinct m'
      (fun key member => by simpa using (List.mem_filter.mp member).2)
    have mapped {f : Memory → Memory} {x : Except Memory Memory} :
        (∃ m', x.map f = .ok m') ↔ ∃ m', x = .ok m' := by
      cases x <;> simp [Except.map]
    rw [mapped, groups]
    constructor
    · intro all
      exact ⟨by rw [copied]; rfl, fun key member mine => all key (List.mem_filter.mpr ⟨member, by simpa using mine⟩)⟩
    · rintro ⟨_, writes⟩ key member
      obtain ⟨inside, mine⟩ := List.mem_filter.mp member
      exact writes key inside (by simpa using mine)

end CopiedWrites

namespace Threads

section Copies

variable {s : Runtime} {threadId : Uuid} {drawn read created copied : Reply}

/-- The call comes to register the new thread. -/
def Copy.Registers (s : Runtime) (threadId : Uuid) (read created : Reply) : Prop :=
  ∃ filters r value, read.answer = .ok filters ∧ created.answer = .ok value ∧
    s.threads.find? (byId threadId) = some r ∧ filtersAllow (s.threads.get r).metadata filters = .ok true

/-- The checkpointer copies what the source has. -/
def Copy.Copies (s : Runtime) (threadId newThreadId : Uuid) (copied : Reply) : Prop :=
  if s.config.useCustomCheckpointer then ∃ value, copied.answer = .ok value
  else s.memory.Copyable threadId newThreadId

theorem Copy.create_ensures {original : Thread} {newThreadId : Uuid} {now : Time} :
    Turn.Ensures Copy.resume (OnRaise s.Unchanged) [copied] (Copy.create s original newThreadId now) ↔
      Copy.Copies s original.threadId newThreadId copied := by
  have changed {ttls : ThreadTtls} {memory : Memory} {thread : Thread} :
      ¬ s.Unchanged { s with threads := s.threads.append thread, threadTtls := ttls, memory := memory } :=
    fun unchanged => append_changed unchanged.threads
  unfold Copy.create Copy.Copies
  dsimp only
  by_cases custom : s.config.useCustomCheckpointer = true
  · rw [if_pos custom, if_pos custom, Turn.ensures_suspended, Copy.resume, ensures_attempt]
    simp only [onRaise_error, ensures_returned, onRaise_ok, implies_true, and_true, changed, imp_false]
    cases copied.answer <;> simp
  · rw [if_neg custom, if_neg custom, ← Memory.copyThread_ok_iff]
    cases s.memory.copyThread original.threadId newThreadId with
    | error memory => simp [changed]
    | ok memory => simp

theorem Copy.ensures_iff :
    Turn.Ensures Copy.resume (OnRaise s.Unchanged) [drawn, read, created, copied]
        (s, .suspended (.called threadId)) ↔
      (Copy.Registers s threadId read created → Copy.Copies s threadId drawn.fresh copied) := by
  rw [Turn.ensures_suspended, Copy.resume, Turn.ensures_suspended, Copy.resume, ensures_attempt]
  simp only [onRaise_error, Runtime.Unchanged.refl, implies_true, true_and, Turn.ensures_suspended, Copy.resume,
    ensures_attempt, Copy.Registers]
  cases found : s.threads.find? (byId threadId) with
  | none => simp
  | some r =>
    have same : (s.threads.get r).threadId = threadId := by
      simpa [byId] using Table.find?_passes found
    simp only [ensures_attempt, Option.some.injEq]
    constructor
    · rintro ensured ⟨filters, _, value, asked, answer, rfl, allowed⟩
      have reached := (ensured filters asked value answer).2 true allowed
      rw [if_neg (by decide), Copy.create_ensures, same] at reached
      exact reached
    · intro copies filters asked value answer
      refine ⟨fun e _ => .refl s, fun allowed verdict => ?_⟩
      cases allowed with
      | false => simp
      | true =>
        rw [if_neg (by decide), Copy.create_ensures, same]
        exact copies ⟨filters, r, value, asked, answer, rfl, verdict⟩

end Copies

end Threads

end InmemRuntime
