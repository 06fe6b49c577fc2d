import InmemRuntime.Lib.EventLoop

section Projection

variable {σ κ β ρ τ ι β' ρ' : Type*}

/-- What an event loop is to one part of its calls. -/
def EventLoop.project (view : σ → τ) (part? : κ → Option ι) (l : EventLoop σ κ) : EventLoop τ ι :=
  ⟨view l.state, l.waiting.filterMap part?⟩

namespace Coroutines

variable {C : Coroutines σ κ β ρ} {D : Coroutines τ ι β' ρ'} {view : σ → τ} {part? : κ → Option ι} {l : EventLoop σ κ}

/-- A call of the part is made, or another one. -/
theorem Reaches.project_call {allowed : τ → List ι → ι → β' → Prop} {initial : EventLoop τ ι} {k : κ}
    (reach : D.Reaches allowed initial (l.project view part?)) (made : ∀ k', part? k = some k' → D.fresh k' = true) :
    D.Reaches allowed initial (EventLoop.project view part? ⟨l.state, l.waiting ++ [k]⟩) := by
  rw [EventLoop.project, List.filterMap_append]
  cases mine : part? k with
  | none =>
    rw [List.filterMap_cons_none mine, List.filterMap_nil, List.append_nil]
    exact reach
  | some k' =>
    rw [List.filterMap_cons_some mine, List.filterMap_nil]
    exact .call reach (made k' mine)

/-- The calls of the part that wait before a call and after it. -/
theorem filterMap_around {i : Nat} {k : κ} {waiting : List κ} (at_i : waiting[i]? = some k) (part? : κ → Option ι) :
    waiting.filterMap part? =
      (waiting.take i).filterMap part? ++ ((part? k).toList ++ (waiting.drop (i + 1)).filterMap part?) := by
  obtain ⟨inside, same⟩ := List.getElem?_eq_some_iff.mp at_i
  have split := List.take_append_drop i waiting
  rw [List.drop_eq_getElem_cons inside, same] at split
  conv_lhs => rw [← split]
  rw [List.filterMap_append]
  cases mine : part? k with
  | none => rw [List.filterMap_cons_none mine, Option.toList_none, List.nil_append]
  | some k' => rw [List.filterMap_cons_some mine, Option.toList_some, List.singleton_append]

/-- A turn of a call of the part is its turn in the part. -/
theorem Reaches.project_turn {allowed : τ → List ι → ι → β' → Prop} {initial : EventLoop τ ι} {i : Nat} {k : κ} {k' : ι} {reply : β} {reply' : β'}
    (reach : D.Reaches allowed initial (l.project view part?)) (at_i : l.waiting[i]? = some k) (mine : part? k = some k')
    (met : ∀ others, allowed (view l.state) others k' reply')
    (state : view (C.resume l.state k reply).1 = (D.resume (view l.state) k' reply').1)
    (points : (C.resume l.state k reply).2.points.filterMap part? = (D.resume (view l.state) k' reply').2.points) :
    D.Reaches allowed initial ((C.advance l i k reply).project view part?) := by
  have parts := filterMap_around at_i part?
  rw [mine, Option.toList_some, List.singleton_append] at parts
  have waits : (l.project view part?).waiting[((l.waiting.take i).filterMap part?).length]? = some k' := by
    rw [EventLoop.project, parts, List.getElem?_append_right (Nat.le_refl _), Nat.sub_self, List.getElem?_cons_zero]
  have projected : D.advance (l.project view part?) ((l.waiting.take i).filterMap part?).length k' reply' =
      (C.advance l i k reply).project view part? := by
    simp only [advance, EventLoop.project, List.filterMap_append, state, points]
    rw [parts, List.take_left, List.drop_append, List.drop_eq_nil_of_le (Nat.le_succ _), List.nil_append,
      Nat.add_sub_cancel_left, List.drop_one, List.tail_cons]
  rw [← projected]
  exact .turn _ _ reach waits (met _)

/-- A turn of another call is none in the part. -/
theorem project_silent {i : Nat} {k : κ} {reply : β} (at_i : l.waiting[i]? = some k) (other : part? k = none)
    (points : (C.resume l.state k reply).2.points.filterMap part? = []) :
    (C.advance l i k reply).project view part? = ⟨view (C.resume l.state k reply).1, l.waiting.filterMap part?⟩ := by
  rw [EventLoop.project, advance, List.filterMap_append, List.filterMap_append, points, List.append_nil,
    filterMap_around at_i part?, other, Option.toList_none, List.nil_append]

end Coroutines

end Projection
