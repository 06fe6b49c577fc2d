import InmemRuntime.HeldIndices

namespace InmemRuntime

open Threads

/-- The operations on thread records that search the list before an await and
use what they found after it, and the one that appends to it. -/
inductive ThreadCall where
  | put (p : Put)
  | patch (p : Patch)
  | delete (p : Delete)

inductive ThreadResult where
  | threads (outcome : Except PyError (List Thread))
  | deleted (outcome : Except PyError (List Uuid))

section Calls

variable (base : BaseSaver)

def threadCalls : Coroutines Runtime ThreadCall Reply ThreadResult where
  fresh
    | .put (.called _) | .patch (.called _) | .delete (.called _) => true
    | _ => false
  resume s
    | .put p, reply => ((Put.resume s p reply).1, (Put.resume s p reply).2.map .put .threads)
    | .patch p, reply => ((Patch.resume s p reply).1, (Patch.resume s p reply).2.map .patch .threads)
    | .delete p, reply =>
      ((Delete.resume base s p reply).1, (Delete.resume base s p reply).2.map .delete .deleted)

end Calls

/-- A turn of `delete`: on success the record of the id, and no other, has gone
and the id is yielded; any other turn leaves the list alone. -/
def DeletesOwn (s : Runtime) (p : Delete) (out : Runtime × Turn Delete (Except PyError (List Uuid))) : Prop :=
  match out.2 with
  | .finished (.ok yielded) =>
    yielded = [p.target] ∧ p.target ∈ s.threadIds ∧
      out.1.threads.values = s.threads.values.filter (fun thread => thread.threadId ≠ p.target)
  | _ => out.1.threads.values = s.threads.values

/-- A turn of `patch`: once the handler has answered, the filter is checked on
the metadata of the record of the id, and only that record changes. -/
def PatchesOwn (s : Runtime) (p : Patch) (reply : Reply)
    (out : Runtime × Turn Patch (Except PyError (List Thread))) : Prop :=
  match p, reply.answer with
  | .authorizing call _, .ok filters =>
    ∃ thread ∈ s.threads.values, thread.threadId = call.threadId ∧
      match filtersAllow thread.metadata filters with
      | .error e => out.1.threads.values = s.threads.values ∧ out.2 = .finished (.error e)
      | .ok false => out.1.threads.values = s.threads.values ∧ out.2 = .finished (.ok [])
      | .ok true => out.1.threads.values = s.threads.values.map (fun t =>
          if t.threadId = call.threadId then patched thread call.metadata reply.now else t)
  | _, _ => out.1.threads.values = s.threads.values

def KeepsToOwnThread (base : BaseSaver) (s : Runtime) (reply : Reply) : ThreadCall → Prop
  | .put p => ∃ added, (Put.resume s p reply).1.threads.values = s.threads.values ++ added
  | .patch p => PatchesOwn s p reply (Patch.resume s p reply)
  | .delete p => DeletesOwn s p (Delete.resume base s p reply)

/-- The position a suspended call will use, and the id it searched for. -/
def ThreadCall.aim : ThreadCall → Option (Nat × Uuid)
  | .put _ => none
  | .patch p => p.aim
  | .delete p => p.aim

/-- No position is popped at or below one that another suspended call holds. -/
def PopsAboveHeld (s : Runtime) (others : List ThreadCall) (k : ThreadCall) (reply : Reply) : Prop :=
  ∀ p i, k = .delete p → p.PopsAt s reply i → ∀ j ∈ others, ∀ held, j.aim = some held → held.1 < i

section Races

variable {base : BaseSaver}

variable (base) in
theorem turn_ids (s : Runtime) (k : ThreadCall) (reply : Reply) :
    ∃ popped, IdsStep s ((threadCalls base).resume s k reply).1 popped ∧
      ∀ i, popped = some i → ∃ p, k = .delete p ∧ p.PopsAt s reply i := by
  cases k with
  | put p => exact ⟨none, put_ids s p reply, by simp⟩
  | patch p => exact ⟨none, patch_ids s p reply, by simp⟩
  | delete p =>
    obtain ⟨popped, ids, position⟩ := delete_ids base s p reply
    exact ⟨popped, ids, fun i at_i => ⟨p, rfl, position i at_i⟩⟩

theorem points_aimed {s : Runtime} {k q : ThreadCall} {reply : Reply} (aimed : Aimed s k.aim)
    (left : q ∈ ((threadCalls base).resume s k reply).2.points) :
    Aimed ((threadCalls base).resume s k reply).1 q.aim := by
  cases k with
  | put p =>
    simp only [threadCalls, Turn.points_map, List.mem_map] at left
    obtain ⟨p', left, rfl⟩ := left
    exact aimed_none _
  | patch p =>
    simp only [threadCalls, Turn.points_map, List.mem_map] at left
    obtain ⟨p', left, rfl⟩ := left
    exact patch_aimed left
  | delete p =>
    simp only [threadCalls, Turn.points_map, List.mem_map] at left
    obtain ⟨p', left, rfl⟩ := left
    exact delete_aimed aimed left

/-- In every interleaving whose deletions pop above all positions held, ids
stay distinct and every position held is still right. -/
theorem aimed_of_reaches {initial l : EventLoop Runtime ThreadCall}
    (reach : (threadCalls base).Reaches PopsAboveHeld initial l)
    (first : Coroutines.Annotated (fun s => s.threadIds.Nodup) (fun s k => Aimed s k.aim) initial) :
    Coroutines.Annotated (fun s => s.threadIds.Nodup) (fun s k => Aimed s k.aim) l := by
  refine reach.annotated ?_ ?_ first
  · intro s k _ new
    cases k with
    | put p => exact aimed_none s
    | patch p => cases p <;> first | exact aimed_none s | cases new
    | delete p => cases p <;> first | exact aimed_none s | cases new
  · intro s others k reply distinct aimed rest above
    obtain ⟨popped, ids, position⟩ := turn_ids base s k reply
    refine ⟨ids.nodup distinct, fun q left => points_aimed aimed left, fun j member => ?_⟩
    refine (rest j member).step ids (fun i at_i held aim => ?_)
    obtain ⟨p, rfl, pops⟩ := position i at_i
    exact above p i rfl pops j member held aim

theorem patchesOwn_of_aimed {s : Runtime} (distinct : s.threadIds.Nodup) {p : Patch}
    (aimed : Aimed s p.aim) (reply : Reply) :
    PatchesOwn s p reply (Patch.resume s p reply) := by
  have effect := Patch.effect s p reply
  generalize Patch.resume s p reply = out at effect ⊢
  cases effect with
  | missing | suspended => rfl
  | @failed call i e cause =>
    rcases cause with raise | absent
    · simp [PatchesOwn, raise]
    · obtain ⟨r, stands, _⟩ := rows_of_threadIds (aimed i call.threadId rfl)
      rw [absent] at stands
      cases stands
  | @refused call i r filters outcome answer stands outcomeEq refusal =>
    obtain ⟨at_i, named⟩ := aimed_record (aimed i call.threadId rfl) stands
    simp only [PatchesOwn, answer]
    refine ⟨_, List.mem_of_getElem? at_i, named, ?_⟩
    cases verdict : filtersAllow (s.threads.get r).metadata filters with
    | error e => exact ⟨trivial, by rw [outcomeEq, verdict]; rfl⟩
    | ok allowed =>
      cases allowed with
      | false => exact ⟨trivial, by rw [outcomeEq, verdict]; rfl⟩
      | true => exact absurd verdict refusal
  | @replaced call i r filters outcome ttls answer stands allowed =>
    obtain ⟨at_i, named⟩ := aimed_record (aimed i call.threadId rfl) stands
    simp only [PatchesOwn, answer]
    refine ⟨_, List.mem_of_getElem? at_i, named, ?_⟩
    simp only [allowed]
    rw [Table.replaceAt_values_eq_map Thread.threadId distinct at_i, named]

theorem deletesOwn_of_popped {s : Runtime} (distinct : s.threadIds.Nodup) {threadId : Uuid} {i : Nat}
    (aimed : s.threadIds[i]? = some threadId)
    {out : Runtime × Turn Delete (Except PyError (List Uuid))} (popped : Delete.Popped s threadId i out) :
    ∃ yielded, out.2 = .finished (.ok yielded) ∧ yielded = [threadId] ∧ threadId ∈ s.threadIds ∧
      out.1.threads.values = s.threads.values.filter (fun thread => thread.threadId ≠ threadId) := by
  obtain ⟨r, stands, named⟩ := rows_of_threadIds aimed
  obtain ⟨at_i, _⟩ := aimed_record aimed stands
  cases popped with
  | outside absent =>
    rw [stands] at absent
    cases absent
  | @popped r' stands' =>
    rw [stands, Option.some.injEq] at stands'
    subst stands'
    refine ⟨_, rfl, by rw [named], List.mem_of_getElem? aimed, ?_⟩
    have kept := Table.pop_values_eq_filter Thread.threadId distinct at_i
    rwa [named] at kept

theorem deletesOwn_of_aimed {s : Runtime} (distinct : s.threadIds.Nodup) {p : Delete}
    (aimed : Aimed s p.aim) (reply : Reply) :
    DeletesOwn s p (Delete.resume base s p reply) := by
  have effect := Delete.effect base s p reply
  generalize Delete.resume base s p reply = out at effect ⊢
  cases effect with
  | located | refused | cascaded | failed => rfl
  | @deleted threadId i matching out builtin authorized popped =>
    have cascaded : ({ cascade s threadId with
        memory := s.memory.deleteThread base threadId.str } : Runtime).threadIds = s.threadIds := rfl
    obtain ⟨yielded, finished, own, member, values⟩ :=
      deletesOwn_of_popped (cascaded ▸ distinct) (cascaded ▸ aimed i threadId rfl) popped
    simp only [DeletesOwn, finished]
    exact ⟨own, member, values⟩
  | @resumed threadId i value out answer popped =>
    obtain ⟨yielded, finished, own, member, values⟩ :=
      deletesOwn_of_popped distinct (aimed i threadId rfl) popped
    simp only [DeletesOwn, finished]
    exact ⟨own, member, values⟩

theorem keepsToOwnThread_of_aimed {s : Runtime} (distinct : s.threadIds.Nodup) {k : ThreadCall}
    (aimed : Aimed s k.aim) (reply : Reply) : KeepsToOwnThread base s reply k := by
  cases k with
  | patch p => exact patchesOwn_of_aimed distinct aimed reply
  | delete p => exact deletesOwn_of_aimed distinct aimed reply
  | put p =>
    have effect := Put.effect s p reply
    simp only [KeepsToOwnThread]
    generalize Put.resume s p reply = out at effect ⊢
    cases effect with
    | suspended | unchanged => exact ⟨[], (List.append_nil _).symm⟩
    | created => exact ⟨_, Table.append_values _ _⟩

end Races

/-- From any list with distinct ids, in every interleaving in which no position
is popped at or below one that another call holds, every turn of every call
keeps to the record of its own id. -/
theorem turns_keep_to_own_thread (base : BaseSaver) {initial : Runtime}
    (distinct : initial.threadIds.Nodup) {l : EventLoop Runtime ThreadCall}
    (reach : (threadCalls base).Reaches PopsAboveHeld ⟨initial, []⟩ l) {i : Nat} {k : ThreadCall}
    (waits : l.waiting[i]? = some k) (reply : Reply) : KeepsToOwnThread base l.state reply k := by
  have annotated := aimed_of_reaches reach ⟨distinct, by simp⟩
  exact keepsToOwnThread_of_aimed annotated.state (annotated.waiting k (List.mem_of_getElem? waits)) reply

section Stale

def threeThreads : Runtime := storeOf [idleThread ⟨1⟩, idleThread ⟨2⟩, idleThread ⟨3⟩]

/-- Threads 1 and 2 are deleted at once; both searches come before both pops. -/
def twoDeletions : List (Coroutines.Move ThreadCall Reply) :=
  [.call (.delete (.called ⟨1⟩)), .call (.delete (.called ⟨2⟩)),
    .turn 0 plainReply, .turn 1 plainReply, .turn 0 plainReply]

/-- The second of two deletions under way pops the position that its thread had
before the first one popped: it removes another thread and yields that id. -/
theorem stale_index_deletes_other_thread :
    ¬ ∀ (base : BaseSaver) (initial : Runtime), initial.threadIds.Nodup →
      ∀ l : EventLoop Runtime ThreadCall, (threadCalls base).Reaches Coroutines.unrestricted ⟨initial, []⟩ l →
        ∀ (i : Nat) (k : ThreadCall), l.waiting[i]? = some k → ∀ reply, KeepsToOwnThread base l.state reply k := by
  intro keeps
  have performed : ((threadCalls plainBase).performAll ⟨threeThreads, []⟩ twoDeletions).isSome = true := rfl
  have own := keeps plainBase threeThreads (by decide) _
    (Coroutines.reaches_of_performAll (Option.some_get performed).symm) 0 _ rfl plainReply
  have third : [(⟨3⟩ : Uuid)] = [⟨2⟩] := own.1
  exact absurd third (by decide)

/-- The position of the deletion that goes on later is the lower one, so that
it still is that of its thread. -/
theorem turns_keep_to_own_thread_last_first :
    ∃ l : EventLoop Runtime ThreadCall, l.waiting = [.delete (.authorizing ⟨1⟩ (some (0, 0)))] ∧
      l.state.threadIds = [⟨1⟩, ⟨2⟩] ∧
      KeepsToOwnThread plainBase l.state plainReply (.delete (.authorizing ⟨1⟩ (some (0, 0)))) := by
  have quiet : ∀ {s : Runtime} {others : List ThreadCall} (threadId : Uuid),
      PopsAboveHeld s others (.delete (.called threadId)) plainReply := by
    rintro s others threadId p i ⟨⟩ ⟨⟩
  have asked : (threadCalls plainBase).Reaches PopsAboveHeld ⟨threeThreads, []⟩
      ⟨threeThreads, [.delete (.called ⟨1⟩), .delete (.called ⟨3⟩)]⟩ := .call (.call .start rfl) rfl
  have located := Coroutines.Reaches.turn 1 plainReply (Coroutines.Reaches.turn 0 plainReply asked rfl (quiet _)) rfl
    (quiet _)
  have popped := Coroutines.Reaches.turn 1 plainReply located rfl (fun p i same pops j member held aim => by
    cases same
    cases pops
    cases List.mem_singleton.mp member
    cases aim
    decide)
  exact ⟨_, by rfl, by rfl, turns_keep_to_own_thread plainBase (by decide) popped (i := 0) rfl plainReply⟩

end Stale

end InmemRuntime
