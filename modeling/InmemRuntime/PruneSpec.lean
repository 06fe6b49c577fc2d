import InmemRuntime.Prune
import InmemRuntime.Lib.ParentChain

namespace InmemRuntime

/-- The checkpoints stored in one namespace of a thread. -/
def Containers.checkpoints? (c : Containers) (threadId ns : String) : Option Checkpoints :=
  (c.storage.get? threadId).bind (fun namespaces => namespaces.get? ns)

section Walk

variable {serde : Serde} {blobs : Dict BlobKey Typed} {threadId ns : String}
  {checkpoints : Checkpoints}

theorem keepAncestors_mono {fuel fuel' : Nat} (le : fuel ≤ fuel') {start : Option PyId}
    {needed : List String} {keep kept : List PyId}
    (run : keepAncestors serde blobs threadId ns checkpoints fuel start needed keep = some kept) :
    keepAncestors serde blobs threadId ns checkpoints fuel' start needed keep = some kept := by
  induction fuel generalizing fuel' start needed keep with
  | zero => cases start <;> cases needed <;> simp_all [keepAncestors]
  | succ fuel ih =>
    obtain ⟨more, rfl⟩ : ∃ more, fuel' = more + 1 := ⟨fuel' - 1, by omega⟩
    cases start with
    | none => simpa [keepAncestors] using run
    | some id =>
      cases needed with
      | nil => simpa [keepAncestors] using run
      | cons channel needed =>
        simp only [keepAncestors] at run ⊢
        cases found : checkpoints.get? id with
        | none => simpa only [found] using run
        | some entry =>
          rw [found] at run
          exact ih (by omega) run

theorem keepAncestors_total {start : Option PyId} {chain : List (PyId × CheckpointEntry)}
    (walk : checkpoints.ParentChain CheckpointEntry.parent start chain) {fuel : Nat}
    (enough : chain.length < fuel) (needed : List String) (keep : List PyId) :
    ∃ kept, keepAncestors serde blobs threadId ns checkpoints fuel start needed keep = some kept := by
  induction walk generalizing fuel needed keep with
  | root => exact ⟨keep, by simp [keepAncestors]⟩
  | missing absent =>
    obtain ⟨more, rfl⟩ : ∃ more, fuel = more + 1 := ⟨fuel - 1, by omega⟩
    cases needed with
    | nil => exact ⟨keep, by simp [keepAncestors]⟩
    | cons channel needed => exact ⟨keep, by simp [keepAncestors, absent]⟩
  | @next id entry rest found walk ih =>
    obtain ⟨more, rfl⟩ : ∃ more, fuel = more + 1 := ⟨fuel - 1, by omega⟩
    cases needed with
    | nil => exact ⟨keep, by simp [keepAncestors]⟩
    | cons channel needed =>
      simp only [keepAncestors, found]
      exact ih (by simpa using enough) _ _

/-- The loop only adds ids, and only ids of stored checkpoints. -/
theorem keepAncestors_adds {fuel : Nat} {start : Option PyId} {needed : List String}
    {keep kept : List PyId}
    (run : keepAncestors serde blobs threadId ns checkpoints fuel start needed keep = some kept) :
    keep ⊆ kept ∧ ∀ id ∈ kept, id ∈ keep ∨ ∃ entry, checkpoints.get? id = some entry := by
  induction fuel generalizing start needed keep with
  | zero => cases start <;> cases needed <;> simp_all [keepAncestors]
  | succ fuel ih =>
    cases start with
    | none => simp_all [keepAncestors]
    | some id =>
      cases needed with
      | nil => simp_all [keepAncestors]
      | cons channel needed =>
        simp only [keepAncestors] at run
        cases found : checkpoints.get? id with
        | none => simp_all
        | some entry =>
          rw [found] at run
          obtain ⟨grows, stored⟩ := ih run
          refine ⟨fun x member => grows (List.mem_cons_of_mem _ member), fun x member => ?_⟩
          rcases stored x member with old | new
          · rcases List.mem_cons.mp old with rfl | old
            · exact Or.inr ⟨entry, found⟩
            · exact Or.inl old
          · exact Or.inr new

theorem latestId?_eq_none {checkpoints : Checkpoints} :
    latestId? checkpoints = none ↔ checkpoints.entries = [] := by
  simp [latestId?, List.argmax_eq_none, Dict.keys]

theorem latestId?_stored {checkpoints : Checkpoints} {latestId : PyId}
    (newest : latestId? checkpoints = some latestId) :
    ∃ latest, checkpoints.get? latestId = some latest :=
  Dict.mem_keys_iff.mp (List.argmax_mem newest)

end Walk

/-- The ids that one namespace retains: its newest checkpoint and what the walk adds. -/
def Keeps (serde : Serde) (fuel : Nat) (blobs : Dict BlobKey Typed) (threadId ns : String)
    (checkpoints : Checkpoints) (keep : List PyId) : Prop :=
  ∃ latestId latest, latestId? checkpoints = some latestId ∧
    checkpoints.get? latestId = some latest ∧
    keepIds serde blobs threadId ns fuel checkpoints latestId latest = some keep

theorem Keeps.unique {serde : Serde} {fuel : Nat} {blobs : Dict BlobKey Typed} {threadId ns : String}
    {checkpoints : Checkpoints} {keep keep' : List PyId}
    (one : Keeps serde fuel blobs threadId ns checkpoints keep)
    (two : Keeps serde fuel blobs threadId ns checkpoints keep') : keep = keep' := by
  obtain ⟨id, entry, newest, found, run⟩ := one
  obtain ⟨id', entry', newest', found', run'⟩ := two
  cases newest.symm.trans newest'
  cases found.symm.trans found'
  exact Option.some.inj (run.symm.trans run')

theorem Keeps.nonempty {serde : Serde} {fuel : Nat} {blobs : Dict BlobKey Typed}
    {threadId ns : String} {checkpoints : Checkpoints} {keep : List PyId}
    (keeps : Keeps serde fuel blobs threadId ns checkpoints keep) : checkpoints.entries ≠ [] := by
  obtain ⟨id, _, newest, _, _⟩ := keeps
  intro empty
  rw [latestId?_eq_none.mpr empty] at newest
  cases newest

theorem Keeps.stored {serde : Serde} {fuel : Nat} {blobs : Dict BlobKey Typed}
    {threadId ns : String} {checkpoints : Checkpoints} {keep : List PyId}
    (keeps : Keeps serde fuel blobs threadId ns checkpoints keep) {id : PyId} (member : id ∈ keep) :
    ∃ entry, checkpoints.get? id = some entry := by
  obtain ⟨latestId, latest, _, found, run⟩ := keeps
  rcases (keepAncestors_adds run).2 id member with start | stored
  · exact ⟨latest, by rw [List.mem_singleton.mp start, found]⟩
  · exact stored

/-- The accumulator after one kept namespace. -/
def PruneAcc.keepNamespace (serde : Serde) (threadId : String) (acc : PruneAcc) (ns : String)
    (checkpoints : Checkpoints) (keep : List PyId) : PruneAcc where
  namespaces := acc.namespaces.set ns (checkpoints.filter (fun id _ => keep.contains id))
  keptWriteKeys := acc.keptWriteKeys ++ keep.map (fun id => (threadId, ns, id.str))
  keptBlobKeys := acc.keptBlobKeys ++ keptBlobKeysOf serde threadId ns checkpoints keep
  removedSize := acc.removedSize +
    (checkpoints.filter (fun id _ => !keep.contains id)).sum checkpointEntrySize
  removedCheckpoints := acc.removedCheckpoints +
    (checkpoints.filter (fun id _ => !keep.contains id)).entries.length

section Namespaces

variable {serde : Serde} {fuel : Nat} {blobs : Dict BlobKey Typed} {threadId : String}

theorem pruneNamespace_cases {acc acc' : PruneAcc} {ns : String} {checkpoints : Checkpoints}
    (run : pruneNamespace serde fuel blobs threadId acc (ns, checkpoints) = some acc') :
    (checkpoints.entries = [] ∧ acc' = { acc with namespaces := acc.namespaces.erase ns }) ∨
      ∃ keep, Keeps serde fuel blobs threadId ns checkpoints keep ∧
        acc' = acc.keepNamespace serde threadId ns checkpoints keep := by
  unfold pruneNamespace at run
  cases newest : latestId? checkpoints with
  | none =>
    simp only [newest, Option.some.injEq] at run
    exact Or.inl ⟨latestId?_eq_none.mp newest, run.symm⟩
  | some latestId =>
    simp only [newest] at run
    obtain ⟨latest, found, run⟩ := Option.bind_eq_some_iff.mp run
    obtain ⟨keep, kept, run⟩ := Option.bind_eq_some_iff.mp run
    exact Or.inr ⟨keep, ⟨latestId, latest, newest, found, kept⟩, (Option.some.inj run).symm⟩

theorem pruneNamespaces_other {l : List (String × Checkpoints)} {acc acc' : PruneAcc} {ns : String}
    (run : l.foldlM (pruneNamespace serde fuel blobs threadId) acc = some acc')
    (other : ns ∉ l.map Prod.fst) : acc'.namespaces.get? ns = acc.namespaces.get? ns := by
  induction l generalizing acc with
  | nil => cases Option.some.inj run; rfl
  | cons item l ih =>
    obtain ⟨middle, first, rest⟩ := Option.bind_eq_some_iff.mp run
    simp only [List.map_cons, List.mem_cons, not_or] at other
    rw [ih rest other.2]
    rcases pruneNamespace_cases first with ⟨_, rfl⟩ | ⟨keep, _, rfl⟩
    · exact Dict.get?_erase_of_ne _ other.1
    · exact Dict.get?_set_of_ne _ _ other.1

/-- What the loop leaves under each name it visits. -/
theorem pruneNamespaces_at {l : List (String × Checkpoints)} {acc acc' : PruneAcc} {ns : String}
    {checkpoints : Checkpoints} (distinct : (l.map Prod.fst).Nodup)
    (run : l.foldlM (pruneNamespace serde fuel blobs threadId) acc = some acc')
    (member : (ns, checkpoints) ∈ l) :
    (checkpoints.entries = [] ∧ acc'.namespaces.get? ns = none) ∨
      ∃ keep, Keeps serde fuel blobs threadId ns checkpoints keep ∧
        acc'.namespaces.get? ns = some (checkpoints.filter (fun id _ => keep.contains id)) := by
  induction l generalizing acc with
  | nil => cases member
  | cons item l ih =>
    obtain ⟨middle, first, rest⟩ := Option.bind_eq_some_iff.mp run
    simp only [List.map_cons, List.nodup_cons] at distinct
    rcases List.mem_cons.mp member with rfl | later
    · have unchanged := pruneNamespaces_other rest distinct.1
      rcases pruneNamespace_cases first with ⟨empty, rfl⟩ | ⟨keep, keeps, rfl⟩
      · exact Or.inl ⟨empty, unchanged.trans (Dict.get?_erase_self _ _)⟩
      · exact Or.inr ⟨keep, keeps, unchanged.trans (Dict.get?_set_self _ _ _)⟩
    · exact ih distinct.2 rest later

/-- A list field of the accumulator collects what each kept namespace adds. -/
theorem pruneNamespaces_collects {α : Type} (field : PruneAcc → List α)
    (added : String → Checkpoints → List PyId → List α)
    (erases : ∀ acc ns, field { acc with namespaces := acc.namespaces.erase ns } = field acc)
    (adds : ∀ acc ns checkpoints keep,
      field (acc.keepNamespace serde threadId ns checkpoints keep) = field acc ++ added ns checkpoints keep)
    {l : List (String × Checkpoints)} {acc acc' : PruneAcc}
    (run : l.foldlM (pruneNamespace serde fuel blobs threadId) acc = some acc') (x : α) :
    x ∈ field acc' ↔ x ∈ field acc ∨ ∃ ns checkpoints keep, (ns, checkpoints) ∈ l ∧
      Keeps serde fuel blobs threadId ns checkpoints keep ∧ x ∈ added ns checkpoints keep := by
  induction l generalizing acc with
  | nil => cases Option.some.inj run; simp
  | cons item l ih =>
    obtain ⟨ns, checkpoints⟩ := item
    obtain ⟨middle, first, rest⟩ := Option.bind_eq_some_iff.mp run
    rw [ih rest]
    rcases pruneNamespace_cases first with ⟨empty, rfl⟩ | ⟨keep, keeps, rfl⟩
    · rw [erases]
      refine or_congr_right ⟨?_, ?_⟩
      · rintro ⟨ns', cs, keep, member, rest⟩
        exact ⟨ns', cs, keep, List.mem_cons_of_mem _ member, rest⟩
      · rintro ⟨ns', cs, keep, member, keeps, rest⟩
        rcases List.mem_cons.mp member with same | member
        · cases same
          exact absurd empty keeps.nonempty
        · exact ⟨ns', cs, keep, member, keeps, rest⟩
    · rw [adds, List.mem_append]
      constructor
      · rintro ((old | inside) | ⟨ns', cs, keep', member, rest⟩)
        · exact Or.inl old
        · exact Or.inr ⟨ns, checkpoints, keep, List.mem_cons_self .., keeps, inside⟩
        · exact Or.inr ⟨ns', cs, keep', List.mem_cons_of_mem _ member, rest⟩
      · rintro (old | ⟨ns', cs, keep', member, keeps', inside⟩)
        · exact Or.inl (Or.inl old)
        · rcases List.mem_cons.mp member with same | member
          · cases same
            cases keeps.unique keeps'
            exact Or.inl (Or.inr inside)
          · exact Or.inr ⟨ns', cs, keep', member, keeps', inside⟩

theorem mem_keptBlobKeysOf {ns : String} {checkpoints : Checkpoints} {keep : List PyId}
    {key : BlobKey} : key ∈ keptBlobKeysOf serde threadId ns checkpoints keep ↔
      key.thread = threadId ∧ key.ns = ns ∧ ∃ id entry, id ∈ keep ∧ checkpoints.get? id = some entry ∧
        (serde.channelVersions entry).get? key.channel = some key.version := by
  simp only [keptBlobKeysOf, List.mem_flatMap]
  constructor
  · rintro ⟨id, inside, member⟩
    cases found : checkpoints.get? id with
    | none => simp [found] at member
    | some entry =>
      simp only [found] at member
      obtain ⟨item, listed, rfl⟩ := List.mem_map.mp member
      exact ⟨rfl, rfl, id, entry, inside, found, Dict.mem_entries_iff.mp listed⟩
  · rintro ⟨rfl, rfl, id, entry, inside, found, version⟩
    refine ⟨id, inside, ?_⟩
    simp only [found]
    exact List.mem_map.mpr ⟨(key.channel, key.version), Dict.mem_entries_iff.mpr version, rfl⟩

end Namespaces

/-- The write group belongs to a retained checkpoint of its namespace. -/
def KeptWrite (serde : Serde) (fuel : Nat) (c : Containers) (key : WriteKey) : Prop :=
  ∃ checkpoints keep id, c.checkpoints? key.thread key.ns = some checkpoints ∧
    Keeps serde fuel c.blobs key.thread key.ns checkpoints keep ∧ id ∈ keep ∧
      key.checkpoint.str = id.str

/-- The blob is named by `channel_versions` of a retained checkpoint of its namespace. -/
def KeptBlob (serde : Serde) (fuel : Nat) (c : Containers) (key : BlobKey) : Prop :=
  ∃ checkpoints keep id entry, c.checkpoints? key.thread key.ns = some checkpoints ∧
    Keeps serde fuel c.blobs key.thread key.ns checkpoints keep ∧ id ∈ keep ∧
      checkpoints.get? id = some entry ∧
      (serde.channelVersions entry).get? key.channel = some key.version

/-- Everything one thread's pruning does to the containers. -/
structure PrunedThread (serde : Serde) (fuel : Nat) (m m' : Memory) (threadId : String) : Prop where
  other_thread : ∀ t, t ≠ threadId → m'.storage.get? t = m.storage.get? t
  no_namespace : ∀ ns, m.checkpoints? threadId ns = none → m'.checkpoints? threadId ns = none
  namespace_emptied : ∀ ns checkpoints, m.checkpoints? threadId ns = some checkpoints →
    checkpoints.entries = [] → m'.checkpoints? threadId ns = none
  namespace_kept : ∀ ns checkpoints, m.checkpoints? threadId ns = some checkpoints →
    checkpoints.entries ≠ [] → ∃ keep, Keeps serde fuel m.blobs threadId ns checkpoints keep ∧
      m'.checkpoints? threadId ns = some (checkpoints.filter (fun id _ => keep.contains id))
  write_kept : ∀ key, (key.thread = threadId → KeptWrite serde fuel m.toContainers key) →
    m'.writes.get? key = m.writes.get? key
  write_dropped : ∀ key, key.thread = threadId → ¬ KeptWrite serde fuel m.toContainers key →
    m'.writes.get? key = none
  blob_kept : ∀ key, (key.thread = threadId → KeptBlob serde fuel m.toContainers key) →
    m'.blobs.get? key = m.blobs.get? key
  blob_dropped : ∀ key, key.thread = threadId → ¬ KeptBlob serde fuel m.toContainers key →
    m'.blobs.get? key = none

theorem PrunedThread.checkpoints_other {serde : Serde} {fuel : Nat} {m m' : Memory} {threadId : String}
    (pruned : PrunedThread serde fuel m m' threadId) {t : String} (other : t ≠ threadId) (ns : String) :
    m'.checkpoints? t ns = m.checkpoints? t ns := by
  simp only [Containers.checkpoints?, pruned.other_thread t other]

/-- A thread without stored namespaces is skipped; any other is pruned. -/
theorem pruneThread_cases {serde : Serde} {fuel : Nat} {m m' : Memory} {threadId : String}
    (run : pruneThread serde fuel m threadId = some m') :
    (m' = m ∧ ∀ namespaces, m.storage.get? threadId = some namespaces → namespaces.entries = []) ∨
      PrunedThread serde fuel m m' threadId := by
  unfold pruneThread at run
  cases stored : m.storage.get? threadId with
  | none =>
    simp only [stored, Option.some.injEq] at run
    exact Or.inl ⟨run.symm, by simp⟩
  | some namespaces =>
    by_cases empty : namespaces.entries.isEmpty
    · simp only [stored, empty, if_true, Option.some.injEq] at run
      refine Or.inl ⟨run.symm, fun other same => ?_⟩
      cases same
      exact List.isEmpty_iff.mp empty
    · simp only [stored, empty, Bool.false_eq_true, if_false] at run
      obtain ⟨acc, fold, run⟩ := Option.bind_eq_some_iff.mp run
      cases Option.some.inj run
      have before : ∀ ns, m.checkpoints? threadId ns = namespaces.get? ns := by
        intro ns; simp [Containers.checkpoints?, stored]
      have listed : ∀ ns checkpoints, (ns, checkpoints) ∈ namespaces.entries ↔
          m.checkpoints? threadId ns = some checkpoints := by
        intro ns checkpoints; rw [before, Dict.mem_entries_iff]
      have writes : ∀ key : WriteKey, key.thread = threadId →
          ((key.thread, key.ns, key.checkpoint.str) ∈ acc.keptWriteKeys ↔
            KeptWrite serde fuel m.toContainers key) := by
        rintro ⟨threadId, ns, id⟩ rfl
        rw [pruneNamespaces_collects PruneAcc.keptWriteKeys
          (fun ns _ keep => keep.map (fun id => (threadId, ns, id.str)))
          (fun _ _ => rfl) (fun _ _ _ _ => rfl) fold]
        simp only [List.not_mem_nil, false_or, List.mem_map, Prod.mk.injEq, true_and, KeptWrite]
        constructor
        · rintro ⟨ns', cs, keep, member, keeps, id', inside, rfl, same⟩
          exact ⟨cs, keep, id', (listed _ _).mp member, keeps, inside, same.symm⟩
        · rintro ⟨cs, keep, id', at_ns, keeps, inside, same⟩
          exact ⟨ns, cs, keep, (listed _ _).mpr at_ns, keeps, id', inside, rfl, same.symm⟩
      have blobs : ∀ key : BlobKey, key.thread = threadId →
          (key ∈ acc.keptBlobKeys ↔ KeptBlob serde fuel m.toContainers key) := by
        rintro ⟨threadId, ns, channel, version⟩ rfl
        rw [pruneNamespaces_collects PruneAcc.keptBlobKeys (keptBlobKeysOf serde threadId)
          (fun _ _ => rfl) (fun _ _ _ _ => rfl) fold]
        simp only [List.not_mem_nil, false_or, mem_keptBlobKeysOf, true_and, KeptBlob]
        constructor
        · rintro ⟨ns', cs, keep, member, keeps, rfl, id, entry, inside, found, named⟩
          exact ⟨cs, keep, id, entry, (listed _ _).mp member, keeps, inside, found, named⟩
        · rintro ⟨cs, keep, id, entry, at_ns, keeps, inside, found, named⟩
          exact ⟨ns, cs, keep, (listed _ _).mpr at_ns, keeps, rfl, id, entry, inside, found, named⟩
      refine Or.inr ⟨fun t other => Dict.get?_set_of_ne _ _ other, fun ns absent => ?_,
        fun ns checkpoints at_ns empty => ?_, fun ns checkpoints at_ns nonempty => ?_,
        fun key kept => ?_, fun key same dropped => ?_, fun key kept => ?_, fun key same dropped => ?_⟩
      · have unlisted : ns ∉ namespaces.entries.map Prod.fst :=
          Dict.get?_eq_none_iff.mp ((before ns).symm.trans absent)
        have result := pruneNamespaces_other fold unlisted
        simpa [Containers.checkpoints?] using result.trans ((before ns).symm.trans absent)
      · rcases pruneNamespaces_at namespaces.nodup fold ((listed _ _).mpr at_ns) with
          ⟨_, result⟩ | ⟨keep, keeps, _⟩
        · simpa [Containers.checkpoints?] using result
        · exact absurd empty keeps.nonempty
      · rcases pruneNamespaces_at namespaces.nodup fold ((listed _ _).mpr at_ns) with
          ⟨empty, _⟩ | ⟨keep, keeps, result⟩
        · exact absurd empty nonempty
        · exact ⟨keep, keeps, by simpa [Containers.checkpoints?] using result⟩
      · refine Dict.get?_filter_pass (fun _ => ?_)
        by_cases same : key.thread = threadId
        · have inside := (writes key same).mpr (kept same)
          simp [inside]
        · simp [same]
      · refine Dict.get?_filter_drop (fun _ => ?_)
        have outside := (not_congr (writes key same)).mpr dropped
        simp [same ▸ outside, same]
      · refine Dict.get?_filter_pass (fun _ => ?_)
        by_cases same : key.thread = threadId
        · have inside := (blobs key same).mpr (kept same)
          simp [inside]
        · simp [same]
      · refine Dict.get?_filter_drop (fun _ => ?_)
        have outside := (not_congr (blobs key same)).mpr dropped
        simp [outside, same]

/-- Pruning only takes checkpoints away. -/
theorem pruneThread_checkpoints {serde : Serde} {fuel : Nat} {m m' : Memory} {threadId : String}
    (run : pruneThread serde fuel m threadId = some m') {t ns : String} {after : Checkpoints}
    (stored : m'.checkpoints? t ns = some after) :
    ∃ before, m.checkpoints? t ns = some before ∧ ∃ p, after = before.filter p := by
  have all : ∀ d : Checkpoints, d = d.filter (fun _ _ => true) := by
    intro d
    simp [Dict.filter]
  rcases pruneThread_cases run with ⟨rfl, _⟩ | pruned
  · exact ⟨after, stored, _, all after⟩
  · by_cases other : t = threadId
    · subst other
      cases before : m.checkpoints? t ns with
      | none => rw [pruned.no_namespace ns before] at stored; cases stored
      | some checkpoints =>
        by_cases empty : checkpoints.entries = []
        · rw [pruned.namespace_emptied ns checkpoints before empty] at stored
          cases stored
        · obtain ⟨keep, _, result⟩ := pruned.namespace_kept ns checkpoints before empty
          exact ⟨checkpoints, rfl, _, Option.some.inj (stored.symm.trans result)⟩
    · exact ⟨after, (pruned.checkpoints_other other ns).symm.trans stored, _, all after⟩

section Pruning

variable {serde : Serde} {fuel : Nat} {threadId : String}

theorem pruneNamespace_isSome {blobs : Dict BlobKey Typed} {acc : PruneAcc} {ns : String}
    {checkpoints : Checkpoints} :
    (pruneNamespace serde fuel blobs threadId acc (ns, checkpoints)).isSome ↔
      (checkpoints.entries ≠ [] → ∃ keep, Keeps serde fuel blobs threadId ns checkpoints keep) := by
  unfold pruneNamespace
  cases newest : latestId? checkpoints with
  | none => simp [latestId?_eq_none.mp newest]
  | some latestId =>
    obtain ⟨latest, found⟩ := latestId?_stored newest
    have nonempty : checkpoints.entries ≠ [] := by
      intro empty
      rw [latestId?_eq_none.mpr empty] at newest
      cases newest
    simp only [found, Option.bind_eq_bind, Option.bind_some]
    cases run : keepIds serde blobs threadId ns fuel checkpoints latestId latest with
    | some keep =>
      simp only [Option.bind_some, Option.isSome_some, true_iff]
      exact fun _ => ⟨keep, latestId, latest, newest, found, run⟩
    | none =>
      simp only [Option.bind_none, Option.isSome_none, Bool.false_eq_true, false_iff]
      intro ends
      obtain ⟨keep, id, entry, newest', found', run'⟩ := ends nonempty
      cases newest.symm.trans newest'
      cases found.symm.trans found'
      rw [run] at run'
      cases run'

theorem pruneNamespaces_isSome {blobs : Dict BlobKey Typed} {l : List (String × Checkpoints)} {acc : PruneAcc} :
    (l.foldlM (pruneNamespace serde fuel blobs threadId) acc).isSome ↔
      ∀ item ∈ l, item.2.entries ≠ [] → ∃ keep, Keeps serde fuel blobs threadId item.1 item.2 keep := by
  induction l generalizing acc with
  | nil => simp [List.foldlM_nil]
  | cons item l ih =>
    have one : (pruneNamespace serde fuel blobs threadId acc (item.1, item.2)).isSome ↔ _ := pruneNamespace_isSome
    rw [List.foldlM_cons, List.forall_mem_cons, ← one]
    cases pruneNamespace serde fuel blobs threadId acc (item.1, item.2) with
    | none => simp
    | some acc => simpa using ih

/-- Pruning a thread ends just when the parent walk of each of its namespaces does. -/
theorem pruneThread_isSome {m : Memory} :
    (pruneThread serde fuel m threadId).isSome ↔
      ∀ ns checkpoints, m.checkpoints? threadId ns = some checkpoints → checkpoints.entries ≠ [] →
        ∃ keep, Keeps serde fuel m.blobs threadId ns checkpoints keep := by
  unfold pruneThread Containers.checkpoints?
  cases m.storage.get? threadId with
  | none => simp
  | some namespaces =>
    have listed : (∀ item ∈ namespaces.entries, item.2.entries ≠ [] →
          ∃ keep, Keeps serde fuel m.blobs threadId item.1 item.2 keep) ↔
        ∀ ns checkpoints, namespaces.get? ns = some checkpoints → checkpoints.entries ≠ [] →
          ∃ keep, Keeps serde fuel m.blobs threadId ns checkpoints keep := by
      simp only [← Dict.mem_entries_iff, Prod.forall]
    simp only [Option.bind_some, ← listed]
    by_cases empty : namespaces.entries.isEmpty
    · have nothing : namespaces.entries = [] := List.isEmpty_iff.mp empty
      simp [nothing]
    · simp only [empty, Bool.false_eq_true, if_false, Option.bind_eq_bind]
      have ends : (namespaces.entries.foldlM (pruneNamespace serde fuel m.blobs threadId)
          ⟨namespaces, [], [], 0, 0⟩).isSome ↔ _ := pruneNamespaces_isSome
      rw [← ends]
      cases namespaces.entries.foldlM (pruneNamespace serde fuel m.blobs threadId) ⟨namespaces, [], [], 0, 0⟩ with
      | none => simp
      | some acc => simp

end Pruning

end InmemRuntime
