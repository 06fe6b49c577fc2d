import InmemRuntime.Lib.Table
import Mathlib.Data.List.Forall2

/-- Lists of which a test selects the same give the same to a narrower one. -/
theorem List.filter_eq_of_wider {α : Type*} {wide narrow : α → Bool} {l l' : List α} (same : l.filter wide = l'.filter wide)
    (wider : ∀ v, narrow v = true → wide v = true) : l.filter narrow = l'.filter narrow := by
  have within : ∀ l : List α, (l.filter wide).filter narrow = l.filter narrow := by
    intro l
    rw [List.filter_filter]
    refine List.filter_congr (fun v _ => ?_)
    cases selected : narrow v with
    | false => rfl
    | true => rw [wider v selected, Bool.and_self]
  rw [← within l, same, within]

/-- The elements that pass the test are the same, and each list holds the other
elements that it had at first. -/
structure SharedPart {α : Type*} (p : α → Bool) (first first' l l' : List α) : Prop where
  shown : l.filter p = l'.filter p
  kept : l.filter (fun v => !p v) = first.filter (fun v => !p v)
  kept' : l'.filter (fun v => !p v) = first'.filter (fun v => !p v)

theorem SharedPart.filter {α : Type*} {p q : α → Bool} {first first' l l' : List α} (part : SharedPart p first first' l l')
    (kept : ∀ v, p v = false → q v = true) : SharedPart p first first' (l.filter q) (l'.filter q) := by
  have spared : ∀ l : List α, (l.filter q).filter (fun v => !p v) = l.filter (fun v => !p v) := by
    intro l
    rw [List.filter_filter]
    refine List.filter_congr (fun v _ => ?_)
    cases passes : p v with
    | true => rfl
    | false =>
      rw [kept v passes]
      rfl
  exact ⟨by rw [List.filter_comm, part.shown, List.filter_comm], (spared l).trans part.kept, (spared l').trans part.kept'⟩

namespace Table

variable {α : Type*} (p : α → Bool)

/-- The references to the records that pass the test. -/
def shown (t : Table α) : List Nat := t.rows.filter (fun r => p (t.get r))

/-- The records that pass the test are the same, in the same order. -/
def Alike (t t' : Table α) : Prop := t.values.filter p = t'.values.filter p

/-- The references to the same record of two such lists. -/
def Twins (t t' : Table α) (r r' : Nat) : Prop := ∃ k : Nat, (t.shown p)[k]? = some r ∧ (t'.shown p)[k]? = some r'

variable {p} {q : α → Bool} {t t' : Table α} {r r' : Nat} {v : α} {f : α → α}

theorem filter_values (t : Table α) : t.values.filter p = (t.shown p).map t.get := by
  rw [values, List.filter_map]
  rfl

theorem shown_nodup (t : Table α) : (t.shown p).Nodup := t.nodup.filter _

theorem mem_shown : r ∈ t.shown p ↔ r ∈ t.rows ∧ p (t.get r) = true := by
  rw [shown, List.mem_filter]

namespace Twins

theorem shown (twins : Twins p t t' r r') : r ∈ t.shown p ∧ r' ∈ t'.shown p := by
  obtain ⟨k, here, there⟩ := twins
  exact ⟨List.mem_of_getElem? here, List.mem_of_getElem? there⟩

theorem get (alike : Alike p t t') (twins : Twins p t t' r r') : t.get r = t'.get r' := by
  obtain ⟨k, here, there⟩ := twins
  have same := congrArg (fun l : List α => l[k]?) ((filter_values t).symm.trans (alike.trans (filter_values t')))
  simpa [here, there] using same

theorem eq_iff {a a' : Nat} (one : Twins p t t' r r') (two : Twins p t t' a a') : a = r ↔ a' = r' := by
  obtain ⟨k, here, there⟩ := one
  obtain ⟨j, here', there'⟩ := two
  have apart : ∀ {l : List Nat} {x y : Nat}, l.Nodup → l[k]? = some x → l[j]? = some y → (y = x ↔ j = k) := by
    intro l x y nodup atK atJ
    obtain ⟨_, rfl⟩ := List.getElem?_eq_some_iff.mp atK
    obtain ⟨_, rfl⟩ := List.getElem?_eq_some_iff.mp atJ
    exact nodup.getElem_inj_iff
  rw [apart (shown_nodup t) here here', apart (shown_nodup t') there there']

end Twins

/-- The references pair off. -/
theorem Alike.twins (alike : Alike p t t') : List.Forall₂ (Twins p t t') (t.shown p) (t'.shown p) := by
  have lengths : (t.shown p).length = (t'.shown p).length := by
    have same := congrArg List.length ((filter_values t).symm.trans (alike.trans (filter_values t')))
    simpa using same
  refine List.forall₂_iff_get.mpr ⟨lengths, fun k inside inside' => ⟨k, ?_, ?_⟩⟩ <;> simp

/-- A stronger test selects pairs. -/
theorem Alike.twins_filter (alike : Alike p t t') (stronger : ∀ v, q v = true → p v = true) :
    List.Forall₂ (Twins p t t') (t.rows.filter (fun r => q (t.get r))) (t'.rows.filter (fun r => q (t'.get r))) := by
  have within : ∀ u : Table α, u.rows.filter (fun r => q (u.get r)) = (u.shown p).filter (fun r => q (u.get r)) := by
    intro u
    rw [Table.shown, List.filter_filter]
    refine List.filter_congr (fun r _ => ?_)
    cases selected : q (u.get r) with
    | false => rfl
    | true => rw [stronger _ selected, Bool.and_self]
  rw [within, within]
  refine List.rel_filter ?_ alike.twins
  intro r r' twins
  simp only [twins.get alike]

theorem Alike.find? (alike : Alike p t t') (stronger : ∀ v, q v = true → p v = true) :
    t.find? q = none ∧ t'.find? q = none ∨
      ∃ r r', t.find? q = some r ∧ t'.find? q = some r' ∧ Twins p t t' r r' := by
  rw [Table.find?, Table.find?, ← List.head?_filter, ← List.head?_filter]
  have paired := alike.twins_filter stronger
  generalize t.rows.filter (fun r => q (t.get r)) = l at paired ⊢
  generalize t'.rows.filter (fun r => q (t'.get r)) = l' at paired ⊢
  cases paired with
  | nil => exact .inl ⟨rfl, rfl⟩
  | cons twins _ => exact .inr ⟨_, _, rfl, rfl, twins⟩

theorem locate?_snd (t : Table α) (q : α → Bool) : (t.locate? q).map Prod.snd = t.find? q := by
  have same : ∀ l : List Nat, ((l.findIdx? (fun r => q (t.get r))).bind (fun i => l[i]?.map (fun r => (i, r)))).map Prod.snd =
      l.find? (fun r => q (t.get r)) := by
    intro l
    rw [List.find?_eq_bind_findIdx?_getElem?, Option.map_bind]
    congr 1
    funext i
    rw [Function.comp_apply, Option.map_map]
    exact congrFun Option.map_id l[i]?
  exact same t.rows

theorem locate?_none : t.locate? q = none ↔ t.find? q = none := by
  rw [← locate?_snd, Option.map_eq_none_iff]

theorem locate?_fst (t : Table α) (q : α → Bool) : (t.locate? q).map Prod.fst = t.findIdx? q := by
  rw [locate?, Option.map_bind]
  cases found : t.findIdx? q with
  | none => rfl
  | some i =>
    obtain ⟨r, inside, _⟩ := findIdx?_eq_some found
    simp [inside]

theorem Alike.locate? (alike : Alike p t t') (stronger : ∀ v, q v = true → p v = true) :
    t.locate? q = none ∧ t'.locate? q = none ∨ ∃ i r i' r', t.locate? q = some (i, r) ∧ t'.locate? q = some (i', r') ∧
      t.rows[i]? = some r ∧ t'.rows[i']? = some r' ∧ Twins p t t' r r' := by
  rcases alike.find? stronger with ⟨none, none'⟩ | ⟨r, r', found, found', twins⟩
  · exact .inl ⟨locate?_none.mpr none, locate?_none.mpr none'⟩
  · rw [← locate?_snd, Option.map_eq_some_iff] at found found'
    obtain ⟨⟨i, _⟩, located, rfl⟩ := found
    obtain ⟨⟨i', _⟩, located', rfl⟩ := found'
    exact .inr ⟨i, _, i', _, located, located', (locate?_eq_some located).1, (locate?_eq_some located').1, twins⟩

theorem Alike.append (alike : Alike p t t') (v : α) : Alike p (t.append v) (t'.append v) := by
  rw [Alike] at alike ⊢
  rw [append_values, append_values, List.filter_append, List.filter_append, alike]

@[simp] theorem shown_update (t : Table α) (r : Nat) (same : ∀ v, p (f v) = p v) : (t.update r f).shown p = t.shown p := by
  rw [shown, shown, update_rows]
  refine List.filter_congr (fun i _ => ?_)
  rw [update_get]
  split
  · exact same _
  · rfl

/-- Being twins hangs on the references alone. -/
theorem Twins.of_shown {u u' : Table α} (twins : Twins p t t' r r') (same : u.shown p = t.shown p)
    (same' : u'.shown p = t'.shown p) : Twins p u u' r r' := by
  rw [Twins, same, same']
  exact twins

theorem Twins.update {a a' : Nat} (twins : Twins p t t' a a') (same : ∀ v, p (f v) = p v) :
    Twins p (t.update r f) (t'.update r' f) a a' :=
  twins.of_shown (shown_update t r same) (shown_update t' r' same)

theorem map_eq_of_forall₂ {β : Type*} {R : Nat → Nat → Prop} {l l' : List Nat} {g g' : Nat → β} (paired : List.Forall₂ R l l')
    (agree : ∀ {a a'}, R a a' → g a = g' a') : l.map g = l'.map g' := by
  induction paired with
  | nil => rfl
  | cons one _ ih => rw [List.map_cons, List.map_cons, agree one, ih]

theorem exists_of_forall₂ {R : Nat → Nat → Prop} {l l' : List Nat} (paired : List.Forall₂ R l l') {a : Nat} (member : a ∈ l) :
    ∃ a', R a a' := by
  induction paired with
  | nil => cases member
  | cons one _ ih =>
    rcases List.mem_cons.mp member with rfl | later
    · exact ⟨_, one⟩
    · exact ih later

theorem Alike.update (alike : Alike p t t') (twins : Twins p t t' r r') (same : ∀ v, p (f v) = p v) :
    Alike p (t.update r f) (t'.update r' f) := by
  rw [Alike, filter_values, filter_values, shown_update t r same, shown_update t' r' same]
  refine map_eq_of_forall₂ alike.twins (fun two => ?_)
  rw [update_get, update_get, two.get alike]
  simp only [twins.eq_iff two]

theorem pop_rows_filter {i : Nat} (atI : t.rows[i]? = some r) : (t.pop i).rows = t.rows.filter (fun x => x ≠ r) := by
  have distinct : (t.rows.map id).Nodup := by simpa using t.nodup
  exact eraseIdx_eq_filter id distinct atI

theorem Alike.pop {i i' : Nat} (alike : Alike p t t') (atI : t.rows[i]? = some r) (atI' : t'.rows[i']? = some r')
    (twins : Twins p t t' r r') : Alike p (t.pop i) (t'.pop i') := by
  have left : ∀ {u : Table α} {j x : Nat}, u.rows[j]? = some x →
      (u.pop j).shown p = (u.shown p).filter (fun y => y ≠ x) := by
    intro u j x atJ
    rw [Table.shown, Table.shown, pop_rows_filter atJ, List.filter_comm]
    rfl
  rw [Alike, filter_values, filter_values, left atI, left atI']
  have paired : List.Forall₂ (Twins p t t') ((t.shown p).filter (fun y => y ≠ r)) ((t'.shown p).filter (fun y => y ≠ r')) := by
    refine List.rel_filter ?_ alike.twins
    intro a a' two
    simp only [ne_eq, decide_not, Bool.not_eq_true', decide_eq_false_iff_not, twins.eq_iff two]
  refine map_eq_of_forall₂ paired (fun two => ?_)
  rw [pop_get, pop_get, Twins.get alike two]

theorem replaceAt_rows_map {i : Nat} (atI : t.rows[i]? = some r) :
    (t.replaceAt i v).rows = t.rows.map (fun x => if x = r then t.size else x) := by
  have distinct : (t.rows.map id).Nodup := by simpa using t.nodup
  exact set_eq_map id distinct atI

theorem replaceAt_values_map {i : Nat} (atI : t.rows[i]? = some r) :
    (t.replaceAt i v).values = t.rows.map (fun x => if x = r then v else t.get x) := by
  rw [values, replaceAt_rows_map atI, List.map_map]
  refine List.map_congr_left (fun x listed => ?_)
  simp only [Function.comp_apply]
  split
  · simp [get, replaceAt]
  · exact replaceAt_get_old (t.bounded x listed) i v

theorem replaceAt_values_filter {i : Nat} (atI : t.rows[i]? = some r) (same : p v = p (t.get r)) :
    (t.replaceAt i v).values.filter p = (t.shown p).map (fun x => if x = r then v else t.get x) := by
  rw [replaceAt_values_map atI, List.filter_map, shown]
  congr 1
  refine List.filter_congr (fun x _ => ?_)
  simp only [Function.comp_apply]
  split
  · rename_i here
    rw [here, same]
  · rfl

theorem Alike.replaceAt {i i' : Nat} (alike : Alike p t t') (atI : t.rows[i]? = some r) (atI' : t'.rows[i']? = some r')
    (twins : Twins p t t' r r') (passes : p v = true) : Alike p (t.replaceAt i v) (t'.replaceAt i' v) := by
  rw [Alike, replaceAt_values_filter atI (passes.trans (mem_shown.mp twins.shown.1).2.symm),
    replaceAt_values_filter atI' (passes.trans (mem_shown.mp twins.shown.2).2.symm)]
  refine map_eq_of_forall₂ alike.twins (fun two => ?_)
  rw [Twins.get alike two]
  simp only [twins.eq_iff two]

theorem append_filter (fails : p v = false) : (t.append v).values.filter p = t.values.filter p := by
  rw [append_values, List.filter_append, List.filter_singleton, fails]
  simp

theorem update_filter (fails : p (t.get r) = false) (same : ∀ v, p (f v) = p v) :
    (t.update r f).values.filter p = t.values.filter p := by
  rw [filter_values, filter_values, shown_update t r same]
  refine List.map_congr_left (fun i listed => update_get_of_ne t ?_ f)
  rintro rfl
  rw [(mem_shown.mp listed).2] at fails
  cases fails

theorem pop_filter {i : Nat} (atI : t.rows[i]? = some r) (fails : p (t.get r) = false) :
    (t.pop i).values.filter p = t.values.filter p := by
  rw [filter_values, filter_values, shown, shown, pop_rows_filter atI, List.filter_filter]
  refine congrArg (List.map t.get) (List.filter_congr (fun i _ => ?_))
  by_cases here : i = r
  · rw [here, pop_get, fails, Bool.false_and]
  · simp [here]

theorem replaceAt_filter {i : Nat} (atI : t.rows[i]? = some r) (fails : p (t.get r) = false) (fails' : p v = false) :
    (t.replaceAt i v).values.filter p = t.values.filter p := by
  rw [replaceAt_values_filter atI (fails'.trans fails.symm), filter_values]
  refine List.map_congr_left (fun x listed => if_neg ?_)
  rintro rfl
  rw [(mem_shown.mp listed).2] at fails
  cases fails

/-- The records of two lists, as they are in the lists. -/
abbrev Agree (p : α → Bool) (first first' t t' : Table α) : Prop :=
  SharedPart p first.values first'.values t.values t'.values

namespace Agree

variable {first first' : Table α} {i i' : Nat}

theorem alike (agree : Agree p first first' t t') : Alike p t t' := agree.shown

theorem append (agree : Agree p first first' t t') (passes : p v = true) :
    Agree p first first' (t.append v) (t'.append v) where
  shown := agree.alike.append v
  kept := (append_filter (by simpa using passes)).trans agree.kept
  kept' := (append_filter (by simpa using passes)).trans agree.kept'

theorem keep (agree : Agree p first first' t t') (kept : ∀ v, p v = false → q v = true) :
    Agree p first first' (t.keep q) (t'.keep q) := by
  rw [Agree, keep_values, keep_values]
  exact SharedPart.filter agree kept

theorem update (agree : Agree p first first' t t') (twins : Twins p t t' r r') (same : ∀ v, p (f v) = p v) :
    Agree p first first' (t.update r f) (t'.update r' f) where
  shown := agree.alike.update twins same
  kept := (update_filter (by simpa using (mem_shown.mp twins.shown.1).2) (fun v => by rw [same])).trans agree.kept
  kept' := (update_filter (by simpa using (mem_shown.mp twins.shown.2).2) (fun v => by rw [same])).trans agree.kept'

theorem pop (agree : Agree p first first' t t') (atI : t.rows[i]? = some r) (atI' : t'.rows[i']? = some r')
    (twins : Twins p t t' r r') : Agree p first first' (t.pop i) (t'.pop i') where
  shown := agree.alike.pop atI atI' twins
  kept := (pop_filter atI (by simpa using (mem_shown.mp twins.shown.1).2)).trans agree.kept
  kept' := (pop_filter atI' (by simpa using (mem_shown.mp twins.shown.2).2)).trans agree.kept'

theorem replaceAt (agree : Agree p first first' t t') (atI : t.rows[i]? = some r) (atI' : t'.rows[i']? = some r')
    (twins : Twins p t t' r r') (passes : p v = true) :
    Agree p first first' (t.replaceAt i v) (t'.replaceAt i' v) where
  shown := agree.alike.replaceAt atI atI' twins passes
  kept := (replaceAt_filter atI (by simpa using (mem_shown.mp twins.shown.1).2) (by simpa using passes)).trans agree.kept
  kept' := (replaceAt_filter atI' (by simpa using (mem_shown.mp twins.shown.2).2) (by simpa using passes)).trans agree.kept'

end Agree

end Table
