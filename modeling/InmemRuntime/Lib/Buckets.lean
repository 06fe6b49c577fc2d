import InmemRuntime.Lib.Dict

/-- A dictionary of dictionaries. A pair of keys has at most one value, and an
empty inner dictionary holds none. -/
abbrev Buckets (κ ι ν : Type*) := Dict κ (Dict ι ν)

namespace Buckets

variable {κ ι ν : Type*}

/-- The pairs of keys that have a value. -/
def pairs (b : Buckets κ ι ν) : List (κ × ι) := b.entries.flatMap (fun e => e.2.keys.map (fun i => (e.1, i)))

theorem pairs_nodup (b : Buckets κ ι ν) : b.pairs.Nodup := by
  refine List.nodup_flatMap.mpr ⟨fun e _ => e.2.nodup.map (fun i j same => (Prod.ext_iff.mp same).2), ?_⟩
  refine List.Pairwise.imp ?_ (List.pairwise_map.mp b.nodup)
  intro e e' apart
  refine List.disjoint_left.mpr (fun p inside inside' => ?_)
  obtain ⟨i, _, rfl⟩ := List.mem_map.mp inside
  obtain ⟨j, _, same⟩ := List.mem_map.mp inside'
  exact apart (Prod.ext_iff.mp same).1.symm

variable [DecidableEq κ] [DecidableEq ι]

/-- `d.get(k, {}).get(i)` -/
def find? (b : Buckets κ ι ν) (k : κ) (i : ι) : Option ν := (Dict.get? b k).bind (fun inner => inner.get? i)

/-- `d[k][i] = v` on a `defaultdict`. -/
def put (b : Buckets κ ι ν) (k : κ) (i : ι) (v : ν) : Buckets κ ι ν :=
  Dict.set b k (((Dict.get? b k).getD .empty).set i v)

/-- `inner.pop(i, None)` on the inner dictionary of `k`, if there is one. -/
def discard (b : Buckets κ ι ν) (k : κ) (i : ι) : Buckets κ ι ν :=
  match Dict.get? b k with
  | none => b
  | some inner => Dict.set b k (inner.erase i)

/-- `if not d.get(k): d.pop(k, None)` -/
def dropIfEmpty (b : Buckets κ ι ν) (k : κ) : Buckets κ ι ν :=
  if (Dict.get? b k).all (fun inner => inner.entries.isEmpty) then Dict.erase b k else b

theorem mem_pairs {b : Buckets κ ι ν} {k : κ} {i : ι} : (k, i) ∈ b.pairs ↔ (b.find? k i).isSome := by
  simp only [pairs, List.mem_flatMap, List.mem_map, Prod.mk.injEq, find?, Option.isSome_iff_exists,
    Option.bind_eq_some_iff]
  constructor
  · rintro ⟨e, member, j, inside, rfl, rfl⟩
    obtain ⟨v, at_j⟩ := Dict.mem_keys_iff.mp inside
    exact ⟨v, e.2, Dict.mem_entries_iff.mp member, at_j⟩
  · rintro ⟨v, inner, at_k, at_i⟩
    exact ⟨(k, inner), Dict.mem_entries_iff.mpr at_k, i, Dict.mem_keys_iff.mpr ⟨v, at_i⟩, rfl, rfl⟩

theorem find?_put (b : Buckets κ ι ν) (k l : κ) (i j : ι) (v : ν) :
    (b.put k i v).find? l j = if l = k ∧ j = i then some v else b.find? l j := by
  unfold put
  by_cases bucket : l = k
  · subst bucket
    by_cases same : j = i
    · simp [find?, same]
    · cases at_k : Dict.get? b l <;> simp [find?, same, at_k, Dict.get?_set_of_ne]
  · simp [find?, bucket, Dict.get?_set_of_ne]

theorem find?_discard (b : Buckets κ ι ν) (k l : κ) (i j : ι) :
    (b.discard k i).find? l j = if l = k ∧ j = i then none else b.find? l j := by
  unfold discard
  cases at_k : Dict.get? b k with
  | none =>
    by_cases same : l = k ∧ j = i
    · simp [same, find?, at_k]
    · simp [same]
  | some inner =>
    by_cases bucket : l = k
    · subst bucket
      by_cases same : j = i
      · simp [find?, same]
      · simp [find?, same, at_k, Dict.get?_erase_of_ne]
    · simp [find?, bucket, Dict.get?_set_of_ne]

@[simp] theorem find?_dropIfEmpty (b : Buckets κ ι ν) (k l : κ) (j : ι) :
    (b.dropIfEmpty k).find? l j = b.find? l j := by
  unfold dropIfEmpty
  split
  · rename_i isEmpty
    by_cases bucket : l = k
    · subst bucket
      cases at_k : Dict.get? b l with
      | none => simp [find?, at_k]
      | some inner =>
        have nothing : inner.entries = [] := by simpa [at_k] using isEmpty
        have missing : inner.get? j = none := by simp [Dict.get?, nothing]
        simp [find?, at_k, missing]
    · simp [find?, bucket, Dict.get?_erase_of_ne]
  · rfl

theorem find?_foldl_dropIfEmpty (b : Buckets κ ι ν) (ks : List κ) (l : κ) (j : ι) :
    (ks.foldl dropIfEmpty b).find? l j = b.find? l j := by
  induction ks generalizing b with
  | nil => rfl
  | cons k ks ih => rw [List.foldl_cons, ih, find?_dropIfEmpty]

end Buckets
