import InmemRuntime.Lib.LoneCall

section Mutex

variable {σ κ β ρ : Type*}

/-- A call that runs alone gets from one place to another. -/
inductive Turn.Leads (resume : σ → κ → β → σ × Turn κ ρ) (first : σ × κ) : σ × κ → Prop
  | start : Leads resume first first
  | suspended {s point s' point'} (reply : β) : Leads resume first (s, point) →
      resume s point reply = (s', .suspended point') → Leads resume first (s', point')

theorem Turn.Leads.ends {resume : σ → κ → β → σ × Turn κ ρ} {first at_ : σ × κ} {replies : List β} {s' : σ} {outcome : ρ}
    (leads : Leads resume first at_) (ends : EndsOn resume replies (at_.1, .suspended at_.2) s' outcome) :
    ∃ replies, EndsOn resume replies (first.1, .suspended first.2) s' outcome := by
  induction leads generalizing replies with
  | start => exact ⟨replies, ends⟩
  | suspended reply _ moved ih =>
    have earlier : EndsOn resume (reply :: replies) _ s' outcome := .suspended (by rw [moved]; exact ends)
    exact ih earlier

namespace Coroutines

/-- Calls one after the other, each of which runs alone to an outcome that is accepted. -/
inductive Serially (C : Coroutines σ κ β ρ) (chosen : κ → Prop) (accepted : ρ → Prop) (initial : σ) : σ → Prop
  | start : Serially C chosen accepted initial initial
  | call {s k replies s' outcome} : Serially C chosen accepted initial s → C.fresh k = true → chosen k →
      Turn.EndsOn C.resume replies (s, .suspended k) s' outcome → accepted outcome →
      Serially C chosen accepted initial s'

/-- A turn that has the lock keeps it where it waits and releases it at the end. -/
inductive UnderLock (C : Coroutines σ κ β ρ) (locked : σ → Bool) : σ × Turn κ ρ → Prop
  | released {s outcome} : locked s = false → UnderLock C locked (s, .finished outcome)
  | kept {s point} : locked s = true → C.fresh point = false → UnderLock C locked (s, .suspended point)

/-- The chosen calls take a lock at their first turn. -/
structure Mutex (C : Coroutines σ κ β ρ) (locked : σ → Bool) (chosen : κ → Prop) : Prop where
  blocked : ∀ {s k} reply, C.fresh k = true → chosen k → locked s = true → C.resume s k reply = (s, .suspended k)
  runs : ∀ {s k} reply, chosen k → locked s = !C.fresh k → UnderLock C locked (C.resume s k reply)

/-- No call has the lock, and those that had it ran one after the other; or one
call has it, which has run alone so far. -/
inductive Ordered (C : Coroutines σ κ β ρ) (locked : σ → Bool) (chosen : κ → Prop) (accepted : ρ → Prop) (initial : σ) :
    σ → List κ → Prop
  | free {s waiting} : locked s = false → Serially C chosen accepted initial s → (∀ k ∈ waiting, C.fresh k = true) →
      Ordered C locked chosen accepted initial s waiting
  | held {s waiting others before call point} : locked s = true → Serially C chosen accepted initial before →
      C.fresh call = true → chosen call → Turn.Leads C.resume (before, call) (s, point) → C.fresh point = false →
      waiting.Perm (point :: others) → (∀ k ∈ others, C.fresh k = true) → Ordered C locked chosen accepted initial s waiting

section Orders

variable {C : Coroutines σ κ β ρ} {locked : σ → Bool} {chosen : κ → Prop} {accepted : ρ → Prop} {initial s s' : σ}
  {others waiting waiting' : List κ} {k : κ} {reply : β} {outcome : ρ}

/-- The calls other than the one that has the lock have not begun. -/
theorem perm_of_fresh {point : κ} {rest : List κ} (inside : C.fresh k = false) (fresh : ∀ j ∈ rest, C.fresh j = true)
    (same : (k :: others).Perm (point :: rest)) : k = point ∧ others.Perm rest := by
  rcases List.mem_cons.mp (same.mem_iff.mp List.mem_cons_self) with rfl | other
  · exact ⟨rfl, (List.perm_cons k).mp same⟩
  · rw [fresh k other] at inside
    cases inside

/-- A turn that ends a call ends it as if it had run alone, at its place in the order. -/
theorem Ordered.ends (mutex : Mutex C locked chosen) (ordered : Ordered C locked chosen accepted initial s (k :: others))
    (picked : chosen k) (ended : C.resume s k reply = (s', .finished outcome)) :
    ∃ before call replies, Serially C chosen accepted initial before ∧ C.fresh call = true ∧ chosen call ∧
      Turn.Leads C.resume (before, call) (s, k) ∧ Turn.EndsOn C.resume replies (before, .suspended call) s' outcome := by
  have last : Turn.EndsOn C.resume [reply] (s, .suspended k) s' outcome := by
    refine .suspended ?_
    rw [ended]
    exact .finished _ _ _
  cases ordered with
  | free _ serially fresh =>
    exact ⟨s, k, [reply], serially, fresh k List.mem_cons_self, picked, .start, last⟩
  | @held _ before call _ isLocked serially new choice leads inside same fresh =>
    cases began : C.fresh k with
    | true =>
      rw [mutex.blocked reply began picked isLocked] at ended
      cases ended
    | false =>
      obtain ⟨rfl, _⟩ := perm_of_fresh began fresh same
      obtain ⟨replies, ends⟩ := leads.ends last
      exact ⟨before, call, replies, serially, new, choice, leads, ends⟩

theorem Ordered.perm (ordered : Ordered C locked chosen accepted initial s waiting) (same : waiting.Perm waiting') :
    Ordered C locked chosen accepted initial s waiting' := by
  cases ordered with
  | free free serially fresh => exact .free free serially (fun k member => fresh k (same.mem_iff.mpr member))
  | held isLocked serially new choice leads inside order fresh =>
    exact .held isLocked serially new choice leads inside (same.symm.trans order) fresh

theorem Ordered.ends_of_mem (mutex : Mutex C locked chosen) (ordered : Ordered C locked chosen accepted initial s waiting)
    (waits : k ∈ waiting) (picked : chosen k) (ended : C.resume s k reply = (s', .finished outcome)) :
    ∃ before call replies, Serially C chosen accepted initial before ∧ C.fresh call = true ∧ chosen call ∧
      Turn.Leads C.resume (before, call) (s, k) ∧ Turn.EndsOn C.resume replies (before, .suspended call) s' outcome := by
  obtain ⟨earlier, later, rfl⟩ := List.append_of_mem waits
  exact (ordered.perm List.perm_middle).ends mutex picked ended

theorem Ordered.serially (ordered : Ordered C locked chosen accepted initial s waiting) (free : locked s = false) :
    Serially C chosen accepted initial s := by
  cases ordered with
  | free _ serially => exact serially
  | held isLocked =>
    rw [free] at isLocked
    cases isLocked

theorem Ordered.cons (ordered : Ordered C locked chosen accepted initial s waiting) (new : C.fresh k = true) :
    Ordered C locked chosen accepted initial s (k :: waiting) := by
  cases ordered with
  | free free serially fresh => exact .free free serially (List.forall_mem_cons.mpr ⟨new, fresh⟩)
  | held isLocked serially made choice leads inside order fresh =>
    refine .held isLocked serially made choice leads inside ((order.cons k).trans (.swap _ _ _)) ?_
    exact List.forall_mem_cons.mpr ⟨new, fresh⟩

/-- Each turn keeps the order. -/
theorem Ordered.turn (mutex : Mutex C locked chosen) (ordered : Ordered C locked chosen accepted initial s (k :: others))
    (picked : chosen k) (accepts : ∀ outcome, (C.resume s k reply).2 = .finished outcome → accepted outcome) :
    Ordered C locked chosen accepted initial (C.resume s k reply).1 ((C.resume s k reply).2.points ++ others) := by
  by_cases waits : C.fresh k = true ∧ locked s = true
  · rw [mutex.blocked reply waits.1 picked waits.2]
    exact ordered
  · have mine : locked s = !C.fresh k := by
      cases ordered with
      | free free _ fresh => rw [free, fresh k List.mem_cons_self, Bool.not_true]
      | held isLocked =>
        have began : C.fresh k = false := Bool.eq_false_iff.mpr (fun new => waits ⟨new, isLocked⟩)
        rw [isLocked, began, Bool.not_false]
    have under := mutex.runs reply picked mine
    have rest : ∀ j ∈ others, C.fresh j = true := by
      cases ordered with
      | free _ _ fresh => exact (List.forall_mem_cons.mp fresh).2
      | held isLocked _ _ _ _ _ same fresh =>
        have began : C.fresh k = false := Bool.eq_false_iff.mpr (fun new => waits ⟨new, isLocked⟩)
        exact fun j member => fresh j ((perm_of_fresh began fresh same).2.mem_iff.mp member)
    cases out : C.resume s k reply with
    | mk s' turn =>
      rw [out] at under accepts
      cases under with
      | released free =>
        obtain ⟨before, call, replies, serially, new, choice, _, ends⟩ := ordered.ends mutex picked out
        exact .free free (.call serially new choice ends (accepts _ rfl)) rest
      | kept isLocked inside =>
        cases ordered with
        | free _ serially fresh =>
          exact .held isLocked serially (fresh k List.mem_cons_self) picked (.suspended reply .start out) inside (.refl _) rest
        | held wasLocked serially new choice leads _ same fresh =>
          have began : C.fresh k = false := Bool.eq_false_iff.mpr (fun new => waits ⟨new, wasLocked⟩)
          obtain ⟨rfl, _⟩ := perm_of_fresh began fresh same
          exact .held isLocked serially new choice (.suspended reply leads out) inside (.refl _) rest

/-- The rule for a lock: however the chosen calls interleave, they run as if one
after the other, in the order in which they take the lock. -/
theorem Reaches.ordered {allowed : σ → List κ → κ → β → Prop} {l : EventLoop σ κ} (mutex : Mutex C locked chosen)
    (met : ∀ {s others k reply}, allowed s others k reply →
      chosen k ∧ ∀ outcome, (C.resume s k reply).2 = .finished outcome → accepted outcome)
    (reach : C.Reaches allowed ⟨initial, []⟩ l) (unlocked : locked initial = false) :
    Ordered C locked chosen accepted initial l.state l.waiting :=
  reach.invariant (P := Ordered C locked chosen accepted initial) (fun same ordered => ordered.perm same)
    (fun ordered new => ordered.cons new) (fun ordered turn => ordered.turn mutex (met turn).1 (met turn).2)
    (.free unlocked .start (List.forall_mem_nil _))

end Orders

end Coroutines

end Mutex
