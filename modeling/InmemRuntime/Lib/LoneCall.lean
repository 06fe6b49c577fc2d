import InmemRuntime.Lib.EventLoop

/-- A call that runs alone, with one reply for each of its turns, ends with an
outcome. Replies that it does not live to hear are left over. -/
inductive Turn.EndsOn {σ κ β ρ : Type*} (resume : σ → κ → β → σ × Turn κ ρ) :
    List β → σ × Turn κ ρ → σ → ρ → Prop
  | finished (replies s outcome) : EndsOn resume replies (s, .finished outcome) s outcome
  | suspended {reply replies s point s' outcome} : EndsOn resume replies (resume s point reply) s' outcome →
      EndsOn resume (reply :: replies) (s, .suspended point) s' outcome

/-- A call that runs alone with the tasks that it gathers, which run interleaved to
their ends before it goes on, ends with an outcome. -/
inductive Turn.EndsGathering {σ κ β ρ : Type*} (resume : σ → κ → β → σ × Turn κ ρ) :
    List β → σ × Turn κ ρ → σ → ρ → Prop
  | finished (replies s outcome) : EndsGathering resume replies (s, .finished outcome) s outcome
  | suspended {reply replies s point s' outcome} : EndsGathering resume replies (resume s point reply) s' outcome →
      EndsGathering resume (reply :: replies) (s, .suspended point) s' outcome
  | forked {reply replies s tasks gathered point s' outcome} :
      (Coroutines.mk (fun _ => false) resume).Reaches Coroutines.unrestricted ⟨s, tasks⟩ ⟨gathered, []⟩ →
      EndsGathering resume replies (resume gathered point reply) s' outcome →
      EndsGathering resume (reply :: replies) (s, .forked tasks point) s' outcome

/-- A generator that runs alone yields values and ends; all it hears passes a test. -/
inductive Turn.Yields {σ κ β ρ : Type*} (resume : σ → κ → β → σ × Turn κ ρ) (heard : β → Prop) :
    σ × Turn κ ρ → List ρ → σ → ρ → Prop
  | finished (s outcome) : Yields resume heard (s, .finished outcome) [] s outcome
  | suspended {s point reply values s' outcome} : heard reply →
      Yields resume heard (resume s point reply) values s' outcome →
      Yields resume heard (s, .suspended point) values s' outcome
  | yielded {s point reply value values s' outcome} : heard reply →
      Yields resume heard (resume s point reply) values s' outcome →
      Yields resume heard (s, .yielded value point) (value :: values) s' outcome

/-- However the call ends, it is as `post` says. -/
def Turn.Ensures {σ κ β ρ : Type*} (resume : σ → κ → β → σ × Turn κ ρ) (post : σ → ρ → Prop)
    (replies : List β) (turn : σ × Turn κ ρ) : Prop :=
  ∀ s' outcome, Turn.EndsOn resume replies turn s' outcome → post s' outcome

/-- Whatever it hears that passes a test, the call ends with this outcome. -/
inductive Turn.EndsFor {σ κ β ρ : Type*} (resume : σ → κ → β → σ × Turn κ ρ) (heard : β → Prop) :
    σ × Turn κ ρ → σ → ρ → Prop
  | finished (s outcome) : EndsFor resume heard (s, .finished outcome) s outcome
  | suspended {s point s' outcome} :
      (∀ reply, heard reply → EndsFor resume heard (resume s point reply) s' outcome) →
      EndsFor resume heard (s, .suspended point) s' outcome

/-- A condition on the state in which a call that raises leaves it. -/
def OnRaise {σ ε α : Type*} (left : σ → Prop) : σ → Except ε α → Prop
  | s', .error _ => left s'
  | _, .ok _ => True

@[simp] theorem onRaise_error {σ ε α : Type*} {left : σ → Prop} {s' : σ} {e : ε} :
    OnRaise left s' (.error e : Except ε α) ↔ left s' := Iff.rfl

@[simp] theorem onRaise_ok {σ ε α : Type*} {left : σ → Prop} {s' : σ} {value : α} :
    OnRaise left s' (.ok value : Except ε α) ↔ True := Iff.rfl

namespace Turn

section LoneCalls

variable {σ κ β ρ : Type*} {resume : σ → κ → β → σ × Turn κ ρ} {post post' : σ → ρ → Prop} {reply : β}
  {replies : List β} {s s' : σ} {point : κ} {outcome result : ρ} {turn : σ × Turn κ ρ}

@[simp] theorem endsOn_finished :
    EndsOn resume replies (s, .finished result) s' outcome ↔ s' = s ∧ outcome = result := by
  constructor
  · rintro ⟨⟩
    exact ⟨rfl, rfl⟩
  · rintro ⟨rfl, rfl⟩
    exact .finished _ _ _

@[simp] theorem endsOn_suspended :
    EndsOn resume (reply :: replies) (s, .suspended point) s' outcome ↔
      EndsOn resume replies (resume s point reply) s' outcome := by
  constructor
  · rintro (_ | later)
    exact later
  · exact .suspended

theorem endsGathering_finished :
    EndsGathering resume replies (s, .finished result) s' outcome ↔ s' = s ∧ outcome = result := by
  constructor
  · rintro ⟨⟩
    exact ⟨rfl, rfl⟩
  · rintro ⟨rfl, rfl⟩
    exact .finished _ _ _

theorem endsGathering_suspended :
    EndsGathering resume replies (s, .suspended point) s' outcome ↔
      ∃ reply later, replies = reply :: later ∧ EndsGathering resume later (resume s point reply) s' outcome := by
  constructor
  · rintro (_ | later)
    exact ⟨_, _, rfl, later⟩
  · rintro ⟨reply, later, rfl, ends⟩
    exact .suspended ends

/-- One task that takes one turn. -/
theorem EndsGathering.one (reply' : β) {task : κ} (ended : (resume s task reply').2.points = [])
    (ends : EndsGathering resume replies (resume (resume s task reply').1 point reply) s' outcome) :
    EndsGathering resume (reply :: replies) (s, .forked [task] point) s' outcome := by
  have started : (Coroutines.mk (fun _ => false) resume).Reaches Coroutines.unrestricted ⟨s, [task]⟩ ⟨s, [task]⟩ :=
    .start
  have performed := Coroutines.Reaches.turn 0 reply' started rfl trivial
  rw [Coroutines.advance, ended] at performed
  exact .forked performed ends

@[simp] theorem ensures_finished : Ensures resume post replies (s, .finished result) ↔ post s result := by
  simp [Ensures]

@[simp] theorem ensures_suspended :
    Ensures resume post (reply :: replies) (s, .suspended point) ↔
      Ensures resume post replies (resume s point reply) := by
  simp [Ensures]

/-- A call that ends has one outcome. -/
theorem EndsFor.unique {heard : β → Prop} {s₁ s₂ : σ} {one two : ρ} (hears : heard reply)
    (first : EndsFor resume heard turn s₁ one) (second : EndsFor resume heard turn s₂ two) :
    s₁ = s₂ ∧ one = two := by
  induction first with
  | finished s outcome =>
    cases second
    exact ⟨rfl, rfl⟩
  | suspended _ ih =>
    cases second with
    | suspended later => exact ih reply hears (later reply hears)

theorem Ensures.weaken (ensured : Ensures resume post replies turn)
    (weaker : ∀ {s' outcome}, post s' outcome → post' s' outcome) : Ensures resume post' replies turn :=
  fun s' outcome ends => weaker (ensured s' outcome ends)

end LoneCalls

end Turn
