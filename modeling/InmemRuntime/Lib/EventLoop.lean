import Mathlib.Data.List.Basic

/-- How a coroutine stops running: it awaits, it hands a value to its consumer
and waits there, it gathers tasks and waits for them, or it ends. -/
inductive Turn (κ ρ : Type*) where
  | suspended (point : κ)
  | yielded (value : ρ) (point : κ)
  | forked (tasks : List κ) (point : κ)
  | finished (outcome : ρ)
deriving DecidableEq

namespace Turn

variable {κ κ' ρ ρ' : Type*}

/-- The calls a turn leaves waiting in the place of the one that ran. -/
def points : Turn κ ρ → List κ
  | .suspended point => [point]
  | .yielded _ point => [point]
  | .forked tasks point => tasks ++ [point]
  | .finished _ => []

def map (f : κ → κ') (g : ρ → ρ') : Turn κ ρ → Turn κ' ρ'
  | .suspended point => .suspended (f point)
  | .yielded value point => .yielded (g value) (f point)
  | .forked tasks point => .forked (tasks.map f) (f point)
  | .finished outcome => .finished (g outcome)

@[simp] theorem points_suspended (point : κ) : (suspended point : Turn κ ρ).points = [point] := rfl

@[simp] theorem points_yielded (value : ρ) (point : κ) : (yielded value point).points = [point] := rfl

@[simp] theorem points_forked (tasks : List κ) (point : κ) :
    (forked tasks point : Turn κ ρ).points = tasks ++ [point] := rfl

@[simp] theorem points_finished (outcome : ρ) : (finished outcome : Turn κ ρ).points = [] := rfl

@[simp] theorem points_map (f : κ → κ') (g : ρ → ρ') (turn : Turn κ ρ) :
    (turn.map f g).points = turn.points.map f := by
  cases turn <;> simp [map]

end Turn

/-- A call that runs alone, with the same reply at each turn, ends with an
outcome. -/
inductive Turn.Ends {σ κ β ρ : Type*} (resume : σ → κ → β → σ × Turn κ ρ) (reply : β) :
    σ × Turn κ ρ → σ → ρ → Prop
  | finished (s outcome) : Ends resume reply (s, .finished outcome) s outcome
  | suspended {s point s' outcome} : Ends resume reply (resume s point reply) s' outcome →
      Ends resume reply (s, .suspended point) s' outcome

namespace Turn.Ends

variable {σ κ β ρ : Type*} {resume : σ → κ → β → σ × Turn κ ρ} {reply : β} {s s' : σ} {outcome : ρ}

@[simp] theorem finished_iff {result : ρ} :
    Ends resume reply (s, .finished result) s' outcome ↔ s' = s ∧ outcome = result := by
  constructor
  · rintro ⟨⟩
    exact ⟨rfl, rfl⟩
  · rintro ⟨rfl, rfl⟩
    exact .finished _ _

@[simp] theorem suspended_iff {point : κ} :
    Ends resume reply (s, .suspended point) s' outcome ↔ Ends resume reply (resume s point reply) s' outcome := by
  constructor
  · rintro (_ | later)
    exact later
  · exact .suspended

/-- A point that only leads back to itself is never left. -/
theorem not_of_loop {point : κ} (back : resume s point reply = (s, .suspended point)) :
    ¬ Ends resume reply (s, .suspended point) s' outcome := by
  intro ends
  generalize at_point : (s, Turn.suspended point) = turn at ends
  induction ends with
  | finished => cases at_point
  | suspended _ ih =>
    cases at_point
    exact ih back.symm

end Turn.Ends

/-- The shared state and the calls that wait for their next turn. -/
structure EventLoop (σ κ : Type*) where
  state : σ
  waiting : List κ

/-- Coroutines over one shared state. `fresh` are the calls that can be made;
`resume` runs a call from where it waits to where it waits next, without
interruption, on a reply from outside. -/
structure Coroutines (σ κ β ρ : Type*) where
  fresh : κ → Bool
  resume : σ → κ → β → σ × Turn κ ρ

namespace Coroutines

variable {σ κ β ρ : Type*}

/-- One turn of the `i`-th waiting call, which is at `k`. -/
def advance (C : Coroutines σ κ β ρ) (l : EventLoop σ κ) (i : Nat) (k : κ) (reply : β) : EventLoop σ κ :=
  ⟨(C.resume l.state k reply).1,
    l.waiting.take i ++ (C.resume l.state k reply).2.points ++ l.waiting.drop (i + 1)⟩

/-- The event loops that some interleaving reaches, each of whose turns meets a
condition on the state, the other waiting calls, the call that runs and the
reply it gets. -/
inductive Reaches (C : Coroutines σ κ β ρ) (allowed : σ → List κ → κ → β → Prop)
    (initial : EventLoop σ κ) : EventLoop σ κ → Prop
  | start : Reaches C allowed initial initial
  | call {l k} : Reaches C allowed initial l → C.fresh k = true →
      Reaches C allowed initial ⟨l.state, l.waiting ++ [k]⟩
  | turn {l k} (i reply) : Reaches C allowed initial l → l.waiting[i]? = some k →
      allowed l.state (l.waiting.eraseIdx i) k reply →
      Reaches C allowed initial (C.advance l i k reply)

/-- No condition on the turns: every interleaving. -/
def unrestricted : σ → List κ → κ → β → Prop := fun _ _ _ _ => True

variable {C : Coroutines σ κ β ρ} {allowed : σ → List κ → κ → β → Prop} {initial l : EventLoop σ κ}

theorem Reaches.weaken {weaker : σ → List κ → κ → β → Prop} (reach : C.Reaches allowed initial l)
    (weak : ∀ {s others k reply}, allowed s others k reply → weaker s others k reply) :
    C.Reaches weaker initial l := by
  induction reach with
  | start => exact .start
  | call _ made ih => exact .call ih made
  | turn i reply _ at_i met ih => exact .turn i reply ih at_i (weak met)

theorem mem_advance {i : Nat} {k p : κ} {reply : β} (member : p ∈ (C.advance l i k reply).waiting) :
    p ∈ (C.resume l.state k reply).2.points ∨ p ∈ l.waiting.eraseIdx i := by
  simp only [advance, List.mem_append] at member
  rw [List.eraseIdx_eq_take_drop_succ, List.mem_append]
  tauto

/-- A state assertion together with one assertion for each waiting call. -/
structure Annotated (shared : σ → Prop) (assertion : σ → κ → Prop) (l : EventLoop σ κ) : Prop where
  state : shared l.state
  waiting : ∀ k ∈ l.waiting, assertion l.state k

/-- The rule for interleavings: a turn re-establishes the state assertion and
the assertion of where it leaves its own call, and does not interfere with the
assertions of the others. -/
theorem Reaches.annotated {shared : σ → Prop} {assertion : σ → κ → Prop}
    (made : ∀ {s k}, shared s → C.fresh k = true → assertion s k)
    (kept : ∀ {s others k reply}, shared s → assertion s k → (∀ j ∈ others, assertion s j) →
      allowed s others k reply →
      shared (C.resume s k reply).1 ∧
        (∀ p ∈ (C.resume s k reply).2.points, assertion (C.resume s k reply).1 p) ∧
        ∀ j ∈ others, assertion (C.resume s k reply).1 j)
    (reach : C.Reaches allowed initial l) (first : Annotated shared assertion initial) :
    Annotated shared assertion l := by
  induction reach with
  | start => exact first
  | @call l k _ new ih =>
    refine ⟨ih.state, fun p member => ?_⟩
    rcases List.mem_append.mp member with old | last
    · exact ih.waiting p old
    · rw [List.mem_singleton.mp last]
      exact made ih.state new
  | @turn l k i reply _ at_i met ih =>
    have others : ∀ j ∈ l.waiting.eraseIdx i, assertion l.state j :=
      fun j member => ih.waiting j (List.mem_of_mem_eraseIdx member)
    obtain ⟨state, own, rest⟩ := kept ih.state (ih.waiting k (List.mem_of_getElem? at_i)) others met
    refine ⟨state, fun p member => ?_⟩
    rcases mem_advance member with mine | other
    · exact own p mine
    · exact rest p other

/-- A turn puts the points where it leaves its call in the place of the call. -/
theorem advance_perm {i : Nat} {k : κ} (at_i : l.waiting[i]? = some k) (reply : β) :
    l.waiting.Perm (k :: l.waiting.eraseIdx i) ∧
      (C.advance l i k reply).waiting.Perm ((C.resume l.state k reply).2.points ++ l.waiting.eraseIdx i) := by
  obtain ⟨inside, rfl⟩ := List.getElem?_eq_some_iff.mp at_i
  have rest := List.eraseIdx_eq_take_drop_succ l.waiting i
  constructor
  · have whole : l.waiting = l.waiting.take i ++ l.waiting[i] :: l.waiting.drop (i + 1) := by
      rw [List.getElem_cons_drop, List.take_append_drop]
    rw [rest]
    conv_lhs => rw [whole]
    exact List.perm_middle
  · rw [rest, advance, List.append_assoc]
    exact List.perm_append_comm_assoc _ _ _

/-- The rule for a property of the state and the waiting calls together, in
whatever order they wait. -/
theorem Reaches.invariant {P : σ → List κ → Prop}
    (perm : ∀ {s waiting waiting'}, waiting.Perm waiting' → P s waiting → P s waiting')
    (made : ∀ {s waiting k}, P s waiting → C.fresh k = true → P s (k :: waiting))
    (kept : ∀ {s others k reply}, P s (k :: others) → allowed s others k reply →
      P (C.resume s k reply).1 ((C.resume s k reply).2.points ++ others))
    (reach : C.Reaches allowed initial l) (first : P initial.state initial.waiting) :
    P l.state l.waiting := by
  induction reach with
  | start => exact first
  | @call l k _ new ih => exact perm (List.perm_append_singleton k l.waiting).symm (made ih new)
  | @turn l k i reply _ at_i met ih =>
    obtain ⟨before, after⟩ := advance_perm (C := C) at_i reply
    exact perm after.symm (kept (perm before ih) met)

/-- One move of a schedule: a call is made, or a waiting call gets a reply. -/
inductive Move (κ β : Type*) where
  | call (point : κ)
  | turn (index : Nat) (reply : β)

/-- `none` when the schedule names a call that cannot be made or does not wait. -/
def perform (C : Coroutines σ κ β ρ) (l : EventLoop σ κ) : Move κ β → Option (EventLoop σ κ)
  | .call k => if C.fresh k then some ⟨l.state, l.waiting ++ [k]⟩ else none
  | .turn i reply => l.waiting[i]?.map (fun k => C.advance l i k reply)

def performAll (C : Coroutines σ κ β ρ) (l : EventLoop σ κ) (moves : List (Move κ β)) :
    Option (EventLoop σ κ) :=
  moves.foldlM C.perform l

theorem Reaches.perform {l' : EventLoop σ κ} {move : Move κ β} (reach : C.Reaches unrestricted initial l)
    (performed : C.perform l move = some l') : C.Reaches unrestricted initial l' := by
  cases move with
  | call k =>
    simp only [Coroutines.perform, Option.ite_none_right_eq_some, Option.some.injEq] at performed
    obtain ⟨new, rfl⟩ := performed
    exact .call reach new
  | turn i reply =>
    obtain ⟨k, at_i, rfl⟩ := Option.map_eq_some_iff.mp performed
    exact .turn i reply reach at_i trivial

theorem Reaches.performAll {moves : List (Move κ β)} {m l' : EventLoop σ κ} (reach : C.Reaches unrestricted l m)
    (performed : C.performAll m moves = some l') : C.Reaches unrestricted l l' := by
  induction moves generalizing m with
  | nil =>
    cases performed
    exact reach
  | cons move moves ih =>
    obtain ⟨next, first, rest⟩ := Option.bind_eq_some_iff.mp performed
    exact ih (reach.perform first) rest

/-- A schedule that can be performed is an interleaving. -/
theorem reaches_of_performAll {moves : List (Move κ β)} {l' : EventLoop σ κ}
    (performed : C.performAll l moves = some l') : C.Reaches unrestricted l l' :=
  .performAll .start performed

section Checked

variable [∀ s others k reply, Decidable (allowed s others k reply)]

variable (C allowed) in
/-- A schedule each of whose turns meets the condition. -/
def performAllIf (l : EventLoop σ κ) (moves : List (Move κ β)) : Option (EventLoop σ κ) :=
  moves.foldlM (fun l move =>
    match move with
    | .call k => if C.fresh k then some ⟨l.state, l.waiting ++ [k]⟩ else none
    | .turn i reply => l.waiting[i]?.bind (fun k =>
        if allowed l.state (l.waiting.eraseIdx i) k reply then some (C.advance l i k reply) else none)) l

theorem Reaches.performAllIf {moves : List (Move κ β)} {m l' : EventLoop σ κ} (reach : C.Reaches allowed l m)
    (performed : C.performAllIf allowed m moves = some l') : C.Reaches allowed l l' := by
  induction moves generalizing m with
  | nil =>
    cases performed
    exact reach
  | cons move moves ih =>
    obtain ⟨next, first, rest⟩ := Option.bind_eq_some_iff.mp performed
    refine ih ?_ rest
    cases move with
    | call k =>
      simp only [Option.ite_none_right_eq_some, Option.some.injEq] at first
      obtain ⟨new, rfl⟩ := first
      exact .call reach new
    | turn i reply =>
      obtain ⟨k, at_i, taken⟩ := Option.bind_eq_some_iff.mp first
      simp only [Option.ite_none_right_eq_some, Option.some.injEq] at taken
      obtain ⟨met, rfl⟩ := taken
      exact .turn i reply reach at_i met

end Checked

end Coroutines
