import InmemRuntime.Runtime
import InmemRuntime.ThreadCopy

namespace InmemRuntime

namespace Threads

def byId (threadId : Uuid) (thread : Thread) : Bool := thread.threadId = threadId

def notFound (threadId : Uuid) : PyError := .http 404 s!"Thread with ID {threadId.str} not found"

def alreadyExists (threadId : Uuid) : PyError := .http 409 s!"Thread with ID {threadId.str} already exists"

inductive OnConflictBehavior where
  | raise
  | doNothing
deriving DecidableEq

structure PutCall where
  threadId : Uuid
  metadata : Option PyDict
  ifExists : OnConflictBehavior
  ttl : Option PyDict

inductive Put where
  | called (call : PutCall)
  | authorizing (call : PutCall)

/-- The end of `put` when no thread is in the way. A TTL that is rejected
raises with the thread already in the list. -/
def Put.create (s : Runtime) (call : PutCall) (now : Time) :
    Runtime × Turn Put (Except PyError (List Thread)) :=
  let thread : Thread :=
    { threadId := call.threadId, createdAt := now, updatedAt := now, stateUpdatedAt := some now,
      metadata := call.metadata.getD [], status := .idle, config := [], values := some .none,
      interrupts := none, error := none }
  let s := { s with threads := s.threads.append thread }
  attempt s (applyTtl s.threadTtls call.threadId call.ttl) (fun ttls =>
    returned { s with threadTtls := ttls } [thread])

/-- `Threads.put`. The first search for the thread is repeated after the handler. -/
def Put.resume (s : Runtime) : Put → Reply → Runtime × Turn Put (Except PyError (List Thread))
  | .called call, _ => (s, .suspended (.authorizing call))
  | .authorizing call, reply =>
    attempt s reply.answer (fun filters =>
      match s.threads.find? (byId call.threadId) with
      | none => Put.create s call reply.now
      | some r =>
        attempt s (filtersAllow (s.threads.get r).metadata filters) (fun allowed =>
          if allowed = false then raised s (alreadyExists call.threadId)
          else match call.ifExists with
            | .raise => raised s (alreadyExists call.threadId)
            | .doNothing => returned s [s.threads.get r]))

/-- What a turn of `put` can do. -/
inductive Put.Effect (s : Runtime) : Put → Runtime × Turn Put (Except PyError (List Thread)) → Prop
  | suspended (call) : Effect s (.called call) (s, .suspended (.authorizing call))
  | unchanged (call outcome) : Effect s (.authorizing call) (s, .finished outcome)
  | created {call thread outcome} (ttls) : s.threads.find? (byId call.threadId) = none →
      thread.threadId = call.threadId →
      Effect s (.authorizing call)
        ({ s with threads := s.threads.append thread, threadTtls := ttls }, .finished outcome)

theorem Put.effect (s : Runtime) (p : Put) (reply : Reply) : Put.Effect s p (Put.resume s p reply) := by
  cases p with
  | called call => exact .suspended call
  | authorizing call =>
    rw [resume]
    refine attempt_cases (fun e _ => .unchanged call _) (fun filters _ => ?_)
    cases taken : s.threads.find? (byId call.threadId) with
    | none =>
      dsimp only [create]
      refine attempt_cases (fun e _ => ?_) (fun ttls _ => ?_)
      · exact .created s.threadTtls taken rfl
      · exact .created ttls taken rfl
    | some r =>
      dsimp only
      refine attempt_cases (fun e _ => .unchanged call _) (fun allowed _ => ?_)
      split
      · exact .unchanged call _
      · cases call.ifExists <;> exact .unchanged call _

structure PatchCall where
  threadId : Uuid
  metadata : PyDict
  ttl : Option PyDict

inductive Patch where
  | called (call : PatchCall)
  | authorizing (call : PatchCall) (threadIdx : Nat)

/-- The deep copy with the patched fields. -/
def patched (thread : Thread) (metadata : PyDict) (now : Time) : Thread :=
  { thread with
    stateUpdatedAt := some (thread.stateUpdatedAt.getD thread.updatedAt)
    metadata := PyDict.update thread.metadata metadata
    updatedAt := now }

/-- `Threads.patch`. The handler is awaited between the search for the index
and its use. -/
def Patch.resume (s : Runtime) : Patch → Reply → Runtime × Turn Patch (Except PyError (List Thread))
  | .called call, _ =>
    match s.threads.findIdx? (byId call.threadId) with
    | none => returned s []
    | some threadIdx => (s, .suspended (.authorizing call threadIdx))
  | .authorizing call threadIdx, reply =>
    attempt s reply.answer (fun filters =>
      match s.threads.rows[threadIdx]? with
      | none => raised s .indexError
      | some r =>
        attempt s (filtersAllow (s.threads.get r).metadata filters) (fun allowed =>
          if allowed = false then returned s []
          else
            let thread := patched (s.threads.get r) call.metadata reply.now
            let s := { s with threads := s.threads.replaceAt threadIdx thread }
            attempt s (applyTtl s.threadTtls call.threadId call.ttl) (fun ttls =>
              returned { s with threadTtls := ttls } [thread])))

/-- What a turn of `patch` can do. -/
inductive Patch.Effect (s : Runtime) (reply : Reply) :
    Patch → Runtime × Turn Patch (Except PyError (List Thread)) → Prop
  | missing (call) : Effect s reply (.called call) (s, .finished (.ok []))
  | suspended {call threadIdx} : s.threads.findIdx? (byId call.threadId) = some threadIdx →
      Effect s reply (.called call) (s, .suspended (.authorizing call threadIdx))
  | failed {call threadIdx e} : reply.answer = .error e ∨ s.threads.rows[threadIdx]? = none →
      Effect s reply (.authorizing call threadIdx) (s, .finished (.error e))
  | refused {call threadIdx r filters outcome} : reply.answer = .ok filters →
      s.threads.rows[threadIdx]? = some r →
      outcome = (filtersAllow (s.threads.get r).metadata filters).map (fun _ => []) →
      filtersAllow (s.threads.get r).metadata filters ≠ .ok true →
      Effect s reply (.authorizing call threadIdx) (s, .finished outcome)
  | replaced {call threadIdx r filters outcome} (ttls) : reply.answer = .ok filters →
      s.threads.rows[threadIdx]? = some r →
      filtersAllow (s.threads.get r).metadata filters = .ok true →
      Effect s reply (.authorizing call threadIdx)
        ({ s with
            threads := s.threads.replaceAt threadIdx (patched (s.threads.get r) call.metadata reply.now)
            threadTtls := ttls }, .finished outcome)

theorem Patch.effect (s : Runtime) (p : Patch) (reply : Reply) :
    Patch.Effect s reply p (Patch.resume s p reply) := by
  cases p with
  | called call =>
    simp only [resume]
    cases found : s.threads.findIdx? (byId call.threadId) with
    | none => exact .missing call
    | some threadIdx => exact .suspended found
  | authorizing call threadIdx =>
    rw [resume]
    refine attempt_cases (fun e raise => .failed (Or.inl raise)) (fun filters answer => ?_)
    cases stands : s.threads.rows[threadIdx]? with
    | none => exact .failed (Or.inr stands)
    | some r =>
      dsimp only
      refine attempt_cases (fun e raise => ?_) (fun allowed value => ?_)
      · exact .refused answer stands (by rw [raise]; rfl) (by simp [raise])
      · cases allowed with
        | false => exact .refused answer stands (by rw [value]; rfl) (by simp [value])
        | true =>
          refine attempt_cases (fun e _ => ?_) (fun ttls _ => ?_)
          · exact .replaced s.threadTtls answer stands value
          · exact .replaced ttls answer stands value

/-- `found` is `thread_idx` and `matching_thread`, when the search found one. -/
inductive Delete where
  | called (threadId : Uuid)
  | authorizing (threadId : Uuid) (found : Option (Nat × Nat))
  | deletingCheckpoints (threadId : Uuid) (threadIdx : Nat)

def Delete.target : Delete → Uuid
  | .called threadId | .authorizing threadId _ | .deletingCheckpoints threadId _ => threadId

/-- The runs and crons of a thread go before the thread does. -/
def cascade (s : Runtime) (threadId : Uuid) : Runtime :=
  { s with
    runs := s.runs.keep (fun run => run.threadId ≠ threadId)
    crons := s.crons.filter (fun cron => cron.threadId ≠ some threadId) }

/-- `thread_list.pop(thread_idx)` and what follows it. -/
def Delete.pop (s : Runtime) (threadId : Uuid) (threadIdx : Nat) :
    Runtime × Turn Delete (Except PyError (List Uuid)) :=
  match s.threads.rows[threadIdx]? with
  | none => raised s .indexError
  | some r =>
    returned { s with threads := s.threads.pop threadIdx, threadTtls := s.threadTtls.erase threadId.str }
      [(s.threads.get r).threadId]

/-- `Threads.delete`. The handler and a custom checkpointer's deletion are
awaited between the search for the index and its use. -/
def Delete.resume (base : BaseSaver) (s : Runtime) :
    Delete → Reply → Runtime × Turn Delete (Except PyError (List Uuid))
  | .called threadId, _ =>
    (s, .suspended (.authorizing threadId (s.threads.locate? (byId threadId))))
  | .authorizing threadId found, reply =>
    attempt s reply.answer (fun filters =>
      match found with
      | none => raised s (notFound threadId)
      | some (threadIdx, matching) =>
        attempt s (filtersAllow (s.threads.get matching).metadata filters) (fun allowed =>
          if allowed = false then raised s (notFound threadId)
          else
            let s := cascade s threadId
            if s.config.useCustomCheckpointer then (s, .suspended (.deletingCheckpoints threadId threadIdx))
            else Delete.pop { s with memory := s.memory.deleteThread base threadId.str } threadId threadIdx))
  | .deletingCheckpoints threadId threadIdx, reply =>
    attempt s reply.answer (fun _ => Delete.pop s threadId threadIdx)

/-- Whether the handler lets the deletion of the record at `matching` pass. -/
def Delete.authorized (s : Runtime) (matching : Nat) (reply : Reply) : Prop :=
  ∃ filters, reply.answer = .ok filters ∧
    filtersAllow (s.threads.get matching).metadata filters = .ok true

/-- The end of a deletion: one position is popped, or there is none. -/
inductive Delete.Popped (s : Runtime) (threadId : Uuid) (threadIdx : Nat) :
    Runtime × Turn Delete (Except PyError (List Uuid)) → Prop
  | outside : s.threads.rows[threadIdx]? = none → Popped s threadId threadIdx (s, .finished (.error .indexError))
  | popped {r} : s.threads.rows[threadIdx]? = some r →
      Popped s threadId threadIdx
        ({ s with threads := s.threads.pop threadIdx, threadTtls := s.threadTtls.erase threadId.str },
          .finished (.ok [(s.threads.get r).threadId]))

theorem Delete.popped (s : Runtime) (threadId : Uuid) (threadIdx : Nat) :
    Delete.Popped s threadId threadIdx (Delete.pop s threadId threadIdx) := by
  simp only [pop]
  cases stands : s.threads.rows[threadIdx]? with
  | none => exact .outside stands
  | some r => exact .popped stands

/-- What a turn of `delete` can do. -/
inductive Delete.Effect (base : BaseSaver) (s : Runtime) (reply : Reply) :
    Delete → Runtime × Turn Delete (Except PyError (List Uuid)) → Prop
  | located (threadId) : Effect base s reply (.called threadId)
      (s, .suspended (.authorizing threadId (s.threads.locate? (byId threadId))))
  | refused (threadId found e) :
      Effect base s reply (.authorizing threadId found) (s, .finished (.error e))
  | cascaded {threadId threadIdx matching} : s.config.useCustomCheckpointer = true →
      authorized s matching reply →
      Effect base s reply (.authorizing threadId (some (threadIdx, matching)))
        (cascade s threadId, .suspended (.deletingCheckpoints threadId threadIdx))
  | deleted {threadId threadIdx matching} {out : Runtime × Turn Delete (Except PyError (List Uuid))} :
      s.config.useCustomCheckpointer = false → authorized s matching reply →
      Popped { cascade s threadId with memory := s.memory.deleteThread base threadId.str }
        threadId threadIdx out →
      Effect base s reply (.authorizing threadId (some (threadIdx, matching))) out
  | failed (threadId threadIdx e) : reply.answer = .error e →
      Effect base s reply (.deletingCheckpoints threadId threadIdx) (s, .finished (.error e))
  | resumed {threadId threadIdx value} {out : Runtime × Turn Delete (Except PyError (List Uuid))} :
      reply.answer = .ok value → Popped s threadId threadIdx out →
      Effect base s reply (.deletingCheckpoints threadId threadIdx) out

theorem Delete.effect (base : BaseSaver) (s : Runtime) (p : Delete) (reply : Reply) :
    Delete.Effect base s reply p (Delete.resume base s p reply) := by
  cases p with
  | called threadId => exact .located threadId
  | authorizing threadId found =>
    rw [resume]
    refine attempt_cases (fun e _ => .refused _ _ e) (fun filters answer => ?_)
    cases found with
    | none => exact .refused _ _ _
    | some pair =>
      obtain ⟨threadIdx, matching⟩ := pair
      dsimp only
      refine attempt_cases (fun e _ => .refused _ _ e) (fun allowed value => ?_)
      cases allowed with
      | false => exact .refused _ _ _
      | true =>
        simp only [Bool.true_eq_false, if_false]
        split
        · exact .cascaded ‹_› ⟨filters, answer, value⟩
        · rename_i builtin
          exact .deleted (Bool.eq_false_iff.mpr builtin) ⟨filters, answer, value⟩ (popped _ _ _)
  | deletingCheckpoints threadId threadIdx =>
    rw [resume]
    refine attempt_cases (fun e raise => .failed _ _ e raise) (fun value answer => ?_)
    exact .resumed answer (popped _ _ _)

inductive Copy where
  | called (threadId : Uuid)
  | authorizingRead (threadId newThreadId : Uuid)
  | authorizingCreate (threadId newThreadId : Uuid) (readFilters : PyVal)
  | copyingCheckpoints (thread : Thread)

/-- An override of the source, without its sweep marker, is given to the copy. -/
def copyTtl (ttls : ThreadTtls) (threadId newThreadId : Uuid) : ThreadTtls :=
  match ttls.get? threadId.str with
  | some ⟨strategy, some minutes, _⟩ =>
    ttls.set newThreadId.str ⟨some (strategy.getD .delete), some minutes, none⟩
  | _ => ttls

/-- `copy` once both handlers have answered. -/
def Copy.create (s : Runtime) (original : Thread) (newThreadId : Uuid) (now : Time) :
    Runtime × Turn Copy (Except PyError (List Thread)) :=
  let thread : Thread :=
    { threadId := newThreadId, createdAt := now, updatedAt := now, stateUpdatedAt := some now,
      metadata := original.metadata, status := .idle, config := [], values := none, interrupts := none,
      error := none }
  let s := { s with
    threads := s.threads.append thread
    threadTtls := copyTtl s.threadTtls original.threadId newThreadId }
  if s.config.useCustomCheckpointer then (s, .suspended (.copyingCheckpoints thread))
  else match s.memory.copyThread original.threadId newThreadId with
    | .error memory => raised { s with memory := memory } (.valueError "copy")
    | .ok memory => returned { s with memory := memory } [thread]

/-- `Threads.copy`. The new id is drawn before the handlers are asked. -/
def Copy.resume (s : Runtime) : Copy → Reply → Runtime × Turn Copy (Except PyError (List Thread))
  | .called threadId, reply => (s, .suspended (.authorizingRead threadId reply.fresh))
  | .authorizingRead threadId newThreadId, reply =>
    attempt s reply.answer (fun readFilters =>
      (s, .suspended (.authorizingCreate threadId newThreadId readFilters)))
  | .authorizingCreate threadId newThreadId readFilters, reply =>
    attempt s reply.answer (fun _ =>
      match s.threads.find? (byId threadId) with
      | none => returned s []
      | some r =>
        attempt s (filtersAllow (s.threads.get r).metadata readFilters) (fun allowed =>
          if allowed = false then returned s [] else Copy.create s (s.threads.get r) newThreadId reply.now))
  | .copyingCheckpoints thread, reply => attempt s reply.answer (fun _ => returned s [thread])

/-- Whether a turn of `copy` appends a thread, and of which id. -/
inductive Copy.Appends (s : Runtime) (reply : Reply) : Copy → Uuid → Prop
  | allowed {threadId newThreadId readFilters r value} : reply.answer = .ok value →
      s.threads.find? (byId threadId) = some r →
      filtersAllow (s.threads.get r).metadata readFilters = .ok true →
      Appends s reply (.authorizingCreate threadId newThreadId readFilters) newThreadId

/-- What a turn of `copy` can do to the store. -/
inductive Copy.Effect (s : Runtime) (reply : Reply) (p : Copy) :
    Runtime × Turn Copy (Except PyError (List Thread)) → Prop
  | unchanged (turn) : Effect s reply p (s, turn)
  | appended {thread ttls memory turn} : Appends s reply p thread.threadId →
      Effect s reply p
        ({ s with threads := s.threads.append thread, threadTtls := ttls, memory := memory }, turn)

theorem Copy.effect (s : Runtime) (p : Copy) (reply : Reply) :
    Copy.Effect s reply p (Copy.resume s p reply) := by
  cases p with
  | called threadId => exact .unchanged _
  | authorizingRead threadId newThreadId =>
    rw [resume]
    exact attempt_cases (fun e _ => .unchanged _) (fun readFilters _ => .unchanged _)
  | copyingCheckpoints thread =>
    rw [resume]
    exact attempt_cases (fun e _ => .unchanged _) (fun value _ => .unchanged _)
  | authorizingCreate threadId newThreadId readFilters =>
    rw [resume]
    refine attempt_cases (fun e _ => .unchanged _) (fun value answer => ?_)
    cases found : s.threads.find? (byId threadId) with
    | none => exact .unchanged _
    | some r =>
      dsimp only
      refine attempt_cases (fun e _ => .unchanged _) (fun allowed verdict => ?_)
      cases allowed with
      | false => exact .unchanged _
      | true =>
        have appends : Appends s reply (.authorizingCreate threadId newThreadId readFilters) newThreadId :=
          .allowed answer found verdict
        simp only [Bool.true_eq_false, if_false, create]
        split
        · exact .appended appends
        · split <;> exact .appended appends

end Threads

end InmemRuntime
