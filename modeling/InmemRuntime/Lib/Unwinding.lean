import InmemRuntime.Lib.LoneCall

namespace Turn

variable {σ κ β ρ : Type*} (resume : σ → κ → β → σ × Turn κ ρ) (heard : β → Prop)
  (lag : Prop) (R : σ → σ → Prop) (P : σ → σ → κ → κ → Prop) (task : κ → Prop) (Q : ρ → Prop)

/-- Whatever the call hears at the point, it ends there with the outcome and does nothing else. -/
def OnlyEnds (s : σ) (point : κ) (outcome : ρ) : Prop := ∀ reply, heard reply → resume s point reply = (s, .finished outcome)

/-- Two turns from related states that leave related states: with the same outcome,
or at related points, with the same tasks if they fork. Where they may lag, one may
have the outcome when the other will have it after one more turn. -/
inductive Related : σ × Turn κ ρ → σ × Turn κ ρ → Prop
  | finished {s s' outcome} : R s s' → Q outcome → Related (s, .finished outcome) (s', .finished outcome)
  | late {s s' outcome point'} : lag → R s s' → Q outcome → OnlyEnds resume heard s' point' outcome →
      Related (s, .finished outcome) (s', .suspended point')
  | early {s s' outcome point} : lag → R s s' → Q outcome → OnlyEnds resume heard s point outcome →
      Related (s, .suspended point) (s', .finished outcome)
  | suspended {s s' point point'} : R s s' → P s s' point point' →
      Related (s, .suspended point) (s', .suspended point')
  | forked {s s' tasks point point'} : R s s' → (∀ k ∈ tasks, task k) → (∀ t t', R t t' → P t t' point point') →
      Related (s, .forked tasks point) (s', .forked tasks point')

/-- From related states, related points go on to related turns, and a task goes on
in the same way. -/
structure Unwinds : Prop where
  points : ∀ {s s' point point' reply}, R s s' → P s s' point point' → heard reply →
    Related resume heard lag R P task Q (resume s point reply) (resume s' point' reply)
  tasks : ∀ {s s' k}, R s s' → task k → ∀ reply,
    R (resume s k reply).1 (resume s' k reply).1 ∧ (resume s' k reply).2 = (resume s k reply).2 ∧
      ∀ j ∈ (resume s k reply).2.points, task j

variable {lag R P task Q resume heard} {s s' : σ}

/-- The tasks of two forks come to the same points by the same interleaving. -/
theorem Unwinds.gather (unwinds : Unwinds resume heard lag R P task Q) {tasks : List κ} {l : EventLoop σ κ} (related : R s s')
    (safe : ∀ k ∈ tasks, task k)
    (reach : (Coroutines.mk (fun _ => false) resume).Reaches Coroutines.unrestricted ⟨s, tasks⟩ l) :
    ∃ t', (Coroutines.mk (fun _ => false) resume).Reaches Coroutines.unrestricted ⟨s', tasks⟩ ⟨t', l.waiting⟩ ∧
      R l.state t' ∧ ∀ k ∈ l.waiting, task k := by
  induction reach with
  | start => exact ⟨s', .start, related, safe⟩
  | call _ fresh => cases fresh
  | @turn l k i reply _ atI met ih =>
    obtain ⟨t', reach', related', safe'⟩ := ih
    obtain ⟨after, same, points⟩ := unwinds.tasks related' (safe' k (List.mem_of_getElem? atI)) reply
    have moved := Coroutines.Reaches.turn i reply reach' atI trivial
    refine ⟨(resume t' k reply).1, ?_, after, fun j member => ?_⟩
    · simpa only [Coroutines.advance, same] using moved
    · rcases Coroutines.mem_advance member with own | other
      · exact points j own
      · exact safe' j (List.mem_of_mem_eraseIdx other)

/-- Whatever a call comes to, it comes to from related states alike, if one more reply can be heard. -/
theorem Unwinds.ends (unwinds : Unwinds resume heard lag R P task Q) {replies : List β} {extra : β} {turn turn' : σ × Turn κ ρ}
    {t : σ} {outcome : ρ} (ends : EndsGathering resume replies turn t outcome) (hears : ∀ reply ∈ replies, heard reply)
    (last : heard extra) (related : Related resume heard lag R P task Q turn turn') :
    Q outcome ∧ ∃ t', R t t' ∧ EndsGathering resume (replies ++ [extra]) turn' t' outcome := by
  induction ends generalizing turn' with
  | finished replies s outcome =>
    cases related with
    | finished states answer => exact ⟨answer, _, states, .finished _ _ _⟩
    | @late _ s' _ point' _ states answer only =>
      cases replies with
      | nil => exact ⟨answer, _, states, .suspended ((only extra last).symm ▸ .finished _ _ _)⟩
      | cons reply replies =>
        exact ⟨answer, _, states, .suspended ((only reply (hears reply List.mem_cons_self)).symm ▸ .finished _ _ _)⟩
  | @suspended reply replies s point t outcome ends ih =>
    obtain ⟨now, later⟩ := List.forall_mem_cons.mp hears
    cases related with
    | suspended states points =>
      obtain ⟨answer, t', states', ends'⟩ := ih later (unwinds.points states points now)
      exact ⟨answer, t', states', .suspended ends'⟩
    | early _ states answer only =>
      rw [only reply now] at ends
      obtain ⟨rfl, rfl⟩ := endsGathering_finished.mp ends
      exact ⟨answer, _, states, .finished _ _ _⟩
  | @forked reply replies s tasks gathered point t outcome reach _ ih =>
    obtain ⟨now, later⟩ := List.forall_mem_cons.mp hears
    cases related with
    | forked states safe points =>
      obtain ⟨gathered', reach', after, _⟩ := unwinds.gather states safe reach
      obtain ⟨answer, t', states', ends'⟩ := ih later (unwinds.points after (points _ _ after) now)
      exact ⟨answer, t', states', .forked reach' ends'⟩

/-- The points and the outcomes of a call may be taken as those of a larger system. -/
theorem Related.map {κ' ρ' : Type*} {resume' : σ → κ' → β → σ × Turn κ' ρ'} {lag' : Prop} {P' : σ → σ → κ' → κ' → Prop} {task' : κ' → Prop}
    {Q' : ρ' → Prop} {f : κ → κ'} {g : ρ → ρ'} {one two : σ × Turn κ ρ} (related : Related resume heard lag R P task Q one two)
    (lifts : ∀ s point reply, resume' s (f point) reply = ((resume s point reply).1, (resume s point reply).2.map f g))
    (lags : lag → lag') (points : ∀ {t t' point point'}, P t t' point point' → P' t t' (f point) (f point'))
    (tasks : ∀ {k}, task k → task' (f k)) (outcomes : ∀ {outcome}, Q outcome → Q' (g outcome)) :
    Related resume' heard lag' R P' task' Q' (one.1, one.2.map f g) (two.1, two.2.map f g) := by
  have only : ∀ {s point outcome}, OnlyEnds resume heard s point outcome → OnlyEnds resume' heard s (f point) (g outcome) := by
    intro s point outcome ends reply hears
    rw [lifts, ends reply hears]
    rfl
  cases related with
  | finished states answer => exact .finished states (outcomes answer)
  | late may states answer ends => exact .late (lags may) states (outcomes answer) (only ends)
  | early may states answer ends => exact .early (lags may) states (outcomes answer) (only ends)
  | suspended states waits => exact .suspended states (points waits)
  | forked states safe waits =>
    refine .forked states (fun k member => ?_) (fun t t' after => points (waits t t' after))
    obtain ⟨j, listed, rfl⟩ := List.mem_map.mp member
    exact tasks (safe j listed)

/-- Turns without a lag, at the same points, are the same. -/
theorem Related.same {one two : σ × Turn κ ρ} (prompt : ¬ lag)
    (related : Related resume heard lag R (fun _ _ point point' => point' = point ∧ task point) task Q one two) :
    R one.1 two.1 ∧ two.2 = one.2 ∧ ∀ j ∈ one.2.points, task j := by
  cases related with
  | late may => exact absurd may prompt
  | early may => exact absurd may prompt
  | finished states => exact ⟨states, rfl, fun j member => by cases member⟩
  | suspended states points =>
    obtain ⟨rfl, safe⟩ := points
    exact ⟨states, rfl, fun j member => List.mem_singleton.mp member ▸ safe⟩
  | forked states safe points =>
    obtain ⟨rfl, also⟩ := points _ _ states
    refine ⟨states, rfl, fun j member => ?_⟩
    rcases List.mem_append.mp member with forked | last
    · exact safe j forked
    · exact List.mem_singleton.mp last ▸ also

end Turn
