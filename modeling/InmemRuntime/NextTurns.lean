import InmemRuntime.RunEffects

namespace InmemRuntime

namespace Runs

/-- The loop goes past the run without waiting. -/
def Next.Skips (s : Runtime) (r : Nat) : Prop :=
  (s.runs.get r).isPending = false ∨ hasRunning s (s.runs.get r).threadId = true

/-- A pending run whose thread is there and has no running run. -/
structure Next.Free (s : Runtime) (r : Nat) : Prop where
  pending : (s.runs.get r).isPending = true
  thread : s.threads.find? (Threads.byId (s.runs.get r).threadId) ≠ none
  idle : hasRunning s (s.runs.get r).threadId = false

/-- How the loop stops. -/
inductive Next.Stops (s : Runtime) (holding : Holding) (position : Nat) : List Nat → NextTurn → Prop
  | ends {rest} : (∀ r ∈ rest, Skips s r) → Stops s holding position rest (returned { s with runLocked := false } [])
  | missing {before r after} : (∀ i ∈ before, Skips s i) → (s.runs.get r).isPending = true →
      s.threads.find? (Threads.byId (s.runs.get r).threadId) = none →
      Stops s holding position (before ++ r :: after)
        (s, .suspended (.warning { holding with position := position + before.length + 1 }))
  | hands {before r after} : (∀ i ∈ before, Skips s i) → Free s r →
      Stops s holding position (before ++ r :: after)
        (handOut s { holding with position := position + before.length + 1 } r)

theorem Next.Stops.skip {s : Runtime} {holding : Holding} {position r : Nat} {rest : List Nat} {out : NextTurn}
    (skips : Skips s r) (stops : Stops s holding (position + 1) rest out) :
    Stops s holding position (r :: rest) out := by
  have all {before : List Nat} (later : ∀ i ∈ before, Skips s i) : ∀ i ∈ r :: before, Skips s i :=
    List.forall_mem_cons.mpr ⟨skips, later⟩
  have count (before : List Nat) : position + 1 + before.length + 1 = position + (r :: before).length + 1 := by
    rw [List.length_cons]
    omega
  cases stops with
  | ends later => exact .ends (all later)
  | missing later pending absent =>
    rw [count]
    exact .missing (all later) pending absent
  | hands later free =>
    rw [count]
    exact .hands (all later) free

theorem Next.loop_stops (s : Runtime) (holding : Holding) (rest : List Nat) (position : Nat) :
    Stops s holding position rest (Next.loop holding position s rest) := by
  induction rest generalizing position with
  | nil => exact .ends (fun r member => absurd member List.not_mem_nil)
  | cons r rest ih =>
    have none : ∀ i ∈ ([] : List Nat), Skips s i := fun i member => absurd member List.not_mem_nil
    unfold loop
    dsimp only
    split
    · rename_i idle
      exact (ih (position + 1)).skip (.inl idle)
    · rename_i pending
      rw [Bool.not_eq_false] at pending
      split
      · rename_i absent
        exact .missing none pending (Option.isNone_iff_eq_none.mp absent)
      · rename_i there
        split
        · rename_i running
          exact (ih (position + 1)).skip (.inr running)
        · rename_i idle
          have free : Free s r := ⟨pending, fun absent => there (by rw [absent]; rfl), Bool.eq_false_iff.mpr idle⟩
          exact .hands none free

/-- The snapshot that a call has taken and where it is in it, while it waits. -/
def Next.held? : Next → Option Holding
  | .warning holding | .yielding holding => some holding
  | _ => none

/-- Where the loop goes on in a turn. -/
def Next.goesOn? (s : Runtime) : Next → Option Holding
  | .locking limit now => if s.runLocked then none else some ⟨pendingRuns s now, 0, limit⟩
  | p => p.held?

/-- A turn waits before the snapshot, raises, or goes on with the loop. -/
inductive Next.Turns (s : Runtime) (p : Next) : NextTurn → Prop
  | waits {p' : Next} : p'.held? = none → Turns s p (s, .suspended p')
  | raises (locked e) : Turns s p ({ s with runLocked := locked }, .finished (.error e))
  | loops {holding out} (locked) : p.goesOn? s = some holding →
      Stops { s with runLocked := locked } holding holding.position holding.remaining out → Turns s p out

theorem Next.resume_turns (s : Runtime) (p : Next) (reply : Reply) : Turns s p (Next.resume s p reply) := by
  cases p with
  | called limit => exact .waits rfl
  | sleeping limit now =>
    rw [resume]
    exact attempt_cases (fun e _ => .raises s.runLocked e) (fun _ _ => .waits rfl)
  | locking limit now =>
    rw [resume]
    refine attempt_cases (fun e _ => .raises s.runLocked e) (fun _ _ => ?_)
    split
    · exact .waits rfl
    · rename_i free
      exact .loops true (if_neg free) (loop_stops _ _ _ _)
  | warning holding | yielding holding =>
    rw [resume]
    exact attempt_cases (fun e _ => .raises false e) (fun _ _ => .loops s.runLocked rfl (loop_stops _ _ _ _))

/-- The runs that a turn of the generator gives out. -/
def handedOutBy : Turn Next (Except PyError (List HandOut)) → List HandOut
  | .yielded (.ok items) _ => items
  | _ => []

theorem Holding.split {holding : Holding} {before after : List Nat} {r : Nat}
    (rest : holding.remaining = before ++ r :: after) :
    ∃ after', holding.pendingRuns = holding.passed ++ before ++ r :: after' := by
  have inside : holding.position < holding.limit := by
    by_contra past
    have none : holding.remaining = [] := by
      rw [Holding.remaining, List.drop_eq_nil_iff]
      exact (List.length_take_le _ _).trans (Nat.le_of_not_lt past)
    rw [none] at rest
    exact List.cons_ne_nil _ _ (List.append_eq_nil_iff.mp rest.symm).2
  refine ⟨after ++ holding.pendingRuns.drop holding.limit, ?_⟩
  have first : (holding.pendingRuns.take holding.limit).take holding.position = holding.passed := by
    rw [List.take_take, Nat.min_eq_left inside.le, Holding.passed]
  calc holding.pendingRuns
    _ = holding.pendingRuns.take holding.limit ++ holding.pendingRuns.drop holding.limit := (List.take_append_drop ..).symm
    _ = (holding.pendingRuns.take holding.limit).take holding.position ++ holding.remaining ++
          holding.pendingRuns.drop holding.limit := by rw [Holding.remaining, List.take_append_drop _ (List.take _ _)]
    _ = holding.passed ++ before ++ r :: (after ++ holding.pendingRuns.drop holding.limit) := by
      rw [first, rest]
      simp only [List.append_assoc, List.cons_append]

/-- A turn hands out nobody, or the first run of the rest that is free. -/
inductive Next.Hands (s : Runtime) (p : Next) : NextTurn → Prop
  | nobody {out : NextTurn} : out.1.runs = s.runs → out.1.retryCounter = s.retryCounter → handedOutBy out.2 = [] →
      (∀ q ∈ out.2.points, ∀ held, q.held? = some held →
        ∃ holding, p.goesOn? s = some holding ∧ held.pendingRuns = holding.pendingRuns) →
      Hands s p out
  | hands {holding : Holding} {before after s'} (r : Nat) : p.goesOn? s = some holding →
      holding.remaining = before ++ r :: after → (∀ i ∈ before, Skips s i) → Free s r →
      s'.runs = s.runs.update r markRunning →
      s'.retryCounter = (increment s (s.runs.get r).runId).2.retryCounter →
      Hands s p (s', .yielded (.ok [⟨r, markRunning (s.runs.get r), (increment s (s.runs.get r).runId).1⟩])
        (.yielding { holding with position := holding.position + before.length + 1 }))

theorem Next.resume_hands (s : Runtime) (p : Next) (reply : Reply) : Hands s p (Next.resume s p reply) := by
  have turns := resume_turns s p reply
  generalize Next.resume s p reply = out at turns ⊢
  cases turns with
  | waits early =>
    refine .nobody rfl rfl rfl (fun q member held holds => ?_)
    rw [List.mem_singleton.mp member, early] at holds
    cases holds
  | raises => exact .nobody rfl rfl rfl (fun q member => absurd member List.not_mem_nil)
  | @loops holding _ locked goesOn stops =>
    generalize remaining : holding.remaining = rest at stops
    cases stops with
    | ends => exact .nobody rfl rfl rfl (fun q member => absurd member List.not_mem_nil)
    | missing =>
      refine .nobody rfl rfl rfl (fun q member held holds => ⟨holding, goesOn, ?_⟩)
      rw [List.mem_singleton.mp member] at holds
      cases holds
      rfl
    | @hands before r after skips free =>
      have handed : (s.runs.update r markRunning).get r = markRunning (s.runs.get r) := Table.update_get_self ..
      have hands : Hands s p ((handOut { s with runLocked := locked } holding r).1,
          .yielded (.ok [⟨r, markRunning (s.runs.get r), (increment s (s.runs.get r).runId).1⟩])
            (.yielding { holding with position := holding.position + before.length + 1 })) :=
        .hands r goesOn remaining skips ⟨free.pending, free.thread, free.idle⟩ rfl rfl
      rw [← handed] at hands
      exact hands

/-- A turn of the generator writes no run, or the one that it gives out. -/
inductive Next.Marks (s : Runtime) : NextTurn → Prop
  | waits {s' : Runtime} {generator} : s'.runs = s.runs → Marks s (s', .suspended generator)
  | ends {s' : Runtime} {result} : s'.runs = s.runs → Marks s (s', .finished result)
  | hands {s' : Runtime} {item generator} : s'.runs = s.runs.update item.ref markRunning →
      Marks s (s', .yielded (.ok [item]) generator)

theorem Next.resume_marks (s : Runtime) (p : Next) (reply : Reply) : Next.Marks s (Next.resume s p reply) := by
  have turns := resume_turns s p reply
  generalize Next.resume s p reply = out at turns ⊢
  cases turns with
  | waits => exact .waits rfl
  | raises => exact .ends rfl
  | @loops holding _ locked _ stops =>
    generalize holding.remaining = rest at stops
    cases stops with
    | ends => exact .ends rfl
    | missing => exact .waits rfl
    | hands => exact .hands rfl

end Runs

end InmemRuntime
