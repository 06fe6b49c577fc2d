import InmemRuntime.IndexedSaver
import InmemRuntime.Lib.DictRel
import InmemRuntime.Lib.Outcomes

namespace InmemRuntime

/-- When stored entries and writes of two threads are alike: whatever is alike
has the same parent and channel versions, and tuples read from it are seen alike. -/
structure Likeness (codec : Codec) where
  Seen : Type
  see : CheckpointTuple → Seen
  entry : CheckpointEntry → CheckpointEntry → Prop
  write : PendingWrite → PendingWrite → Prop
  entry_refl : ∀ e, entry e e
  write_refl : ∀ w, write w w
  parent : ∀ {e e'}, entry e e' → e.parent = e'.parent
  versions : ∀ {e e'}, entry e e' → codec.serde.channelVersions e = codec.serde.channelVersions e'
  tuple : ∀ {e e' ws ws'}, entry e e' → List.Forall₂ write ws ws' → ∀ id blobAt,
    (codec.tuple id blobAt e ws).map see = (codec.tuple id blobAt e' ws').map see

/-- One thread of some containers holds what another thread of others holds. -/
structure Mirrors {codec : Codec} (L : Likeness codec) (c : Containers) (t : String) (c' : Containers)
    (t' : String) : Prop where
  checkpoints : ∀ ns, Option.Rel (Dict.Rel L.entry) (c.checkpoints? t ns) (c'.checkpoints? t' ns)
  writes : ∀ ns id, Option.Rel (Dict.Rel L.write) (c.writes.get? ⟨t, ns, id⟩) (c'.writes.get? ⟨t', ns, id⟩)
  blobs : ∀ ns channel version, c.blobs.get? ⟨t, ns, channel, version⟩ = c'.blobs.get? ⟨t', ns, channel, version⟩

theorem checkpoints?_withCheckpoints (c : Containers) (t u ns ns' : String) (checkpoints : Checkpoints) :
    (c.withCheckpoints t ns checkpoints).checkpoints? u ns' =
      if u = t ∧ ns' = ns then some checkpoints else c.checkpoints? u ns' := by
  unfold Containers.checkpoints? Containers.withCheckpoints
  by_cases thread : u = t
  · subst thread
    simp only [Dict.get?_set_self, Option.bind_some, Dict.get?_set, true_and]
    split
    · rfl
    · cases c.storage.get? u with
      | none => rfl
      | some namespaces => rfl
  · simp only [Dict.get?_set_of_ne _ _ thread, thread, false_and, if_false]

namespace Mirrors

variable {codec : Codec} {L : Likeness codec} {c c' : Containers} {t t' : String}

variable (L) in
theorem refl (c : Containers) (t : String) : Mirrors L c t c t :=
  ⟨fun _ => .refl (Dict.Rel.refl L.entry_refl) _, fun _ _ => .refl (Dict.Rel.refl L.write_refl) _, fun _ _ _ => rfl⟩

theorem checkpointsOr (mirrors : Mirrors L c t c' t') (ns : String) :
    Dict.Rel L.entry ((c.checkpoints? t ns).getD .empty) ((c'.checkpoints? t' ns).getD .empty) :=
  (mirrors.checkpoints ns).getD .nil

theorem groupOr (mirrors : Mirrors L c t c' t') (ns : String) (id : PyId) :
    Dict.Rel L.write ((c.writes.get? ⟨t, ns, id⟩).getD .empty) ((c'.writes.get? ⟨t', ns, id⟩).getD .empty) :=
  (mirrors.writes ns id).getD .nil

theorem withCheckpoints (mirrors : Mirrors L c t c' t') (ns : String) {checkpoints checkpoints' : Checkpoints}
    (rel : checkpoints.Rel L.entry checkpoints') :
    Mirrors L (c.withCheckpoints t ns checkpoints) t (c'.withCheckpoints t' ns checkpoints') t' where
  checkpoints ns' := by
    rw [checkpoints?_withCheckpoints, checkpoints?_withCheckpoints]
    by_cases here : ns' = ns
    · rw [if_pos ⟨rfl, here⟩, if_pos ⟨rfl, here⟩]
      exact .some rel
    · rw [if_neg (fun both => here both.2), if_neg (fun both => here both.2)]
      exact mirrors.checkpoints ns'
  writes := mirrors.writes
  blobs := mirrors.blobs

theorem touch (mirrors : Mirrors L c t c' t') (ns : String) : Mirrors L (c.touch t ns) t (c'.touch t' ns) t' :=
  mirrors.withCheckpoints ns (mirrors.checkpointsOr ns)

theorem withBlobs (mirrors : Mirrors L c t c' t') {blobs blobs' : Dict BlobKey Typed}
    (agree : ∀ ns channel version,
      blobs.get? ⟨t, ns, channel, version⟩ = blobs'.get? ⟨t', ns, channel, version⟩) :
    Mirrors L { c with blobs := blobs } t { c' with blobs := blobs' } t' :=
  ⟨mirrors.checkpoints, mirrors.writes, agree⟩

theorem withGroup (mirrors : Mirrors L c t c' t') (ns : String) (id : PyId) {group group' : WriteGroup}
    (rel : group.Rel L.write group') :
    Mirrors L { c with writes := c.writes.set ⟨t, ns, id⟩ group } t
      { c' with writes := c'.writes.set ⟨t', ns, id⟩ group' } t' where
  checkpoints := mirrors.checkpoints
  writes ns' id' := by
    simp only [Dict.get?_set, WriteKey.mk.injEq, true_and]
    split
    · exact .some rel
    · exact mirrors.writes ns' id'
  blobs := mirrors.blobs

end Mirrors

section Calls

variable {codec : Codec} {L : Likeness codec} {c c' : Containers} {t t' : String}

variable (codec) in
/-- The blobs of two threads stay the same under the loop of `put`. -/
theorem storeBlobs_alike (values : Dict String PyVal) (ns : String) (versions : List (String × Version))
    {blobs blobs' : Dict BlobKey Typed}
    (agree : ∀ ns channel version,
      blobs.get? ⟨t, ns, channel, version⟩ = blobs'.get? ⟨t', ns, channel, version⟩) :
    let same := fun blobs blobs' : Dict BlobKey Typed => ∀ ns channel version,
      blobs.get? ⟨t, ns, channel, version⟩ = blobs'.get? ⟨t', ns, channel, version⟩
    EndAlike same same (codec.storeBlobs values t ns versions blobs)
      (codec.storeBlobs values t' ns versions blobs') := by
  intro same
  induction versions generalizing blobs blobs' with
  | nil => exact .ok agree
  | cons e versions ih =>
    obtain ⟨channel, version⟩ := e
    rw [Codec.storeBlobs, Codec.storeBlobs]
    cases codec.channelPayload values channel with
    | none => exact .error agree
    | some payload =>
      refine ih (fun ns' channel' version' => ?_)
      simp only [Dict.get?_set, BlobKey.mk.injEq, true_and]
      split
      · rfl
      · exact agree ns' channel' version'

theorem put_alike (mirrors : Mirrors L c t c' t') (values : Dict String PyVal) (config : RunnableConfig)
    (checkpoint : Checkpoint) (metadata : PyDict) (newVersions : Dict String Version) :
    let alike := fun c c' => Mirrors L c t c' t'
    EndAlike alike alike (codec.put values c (config.inThread t) checkpoint metadata newVersions)
      (codec.put values c' (config.inThread t') checkpoint metadata newVersions) := by
  intro alike
  unfold Codec.put RunnableConfig.inThread
  cases config.checkpointNs with
  | none => exact .error mirrors
  | some ns =>
    have blobs := storeBlobs_alike codec values ns newVersions.entries mirrors.blobs
    simp only
    generalize codec.storeBlobs values t ns newVersions.entries c.blobs = after at blobs ⊢
    generalize codec.storeBlobs values t' ns newVersions.entries c'.blobs = after' at blobs ⊢
    cases blobs with
    | error agree => exact .error (mirrors.withBlobs agree)
    | ok agree =>
      have stored := mirrors.withBlobs agree
      simp only
      split
      · exact .ok (stored.withCheckpoints ns ((mirrors.checkpointsOr ns).set _ (L.entry_refl _)))
      · exact .error (stored.touch ns)

theorem addedWrites_alike (existed : Bool) (taskId taskPath : String) (writes : List ((String × PyVal) × Nat))
    {group group' : WriteGroup} (rel : group.Rel L.write group') :
    codec.addedWrites existed taskId taskPath writes group =
      codec.addedWrites existed taskId taskPath writes group' := by
  induction writes generalizing group group' with
  | nil => rfl
  | cons e writes ih =>
    obtain ⟨⟨channel, value⟩, position⟩ := e
    simp only [Codec.addedWrites, rel.contains_eq]
    rw [ih rel]
    cases codec.dumps value with
    | none => rfl
    | some payload => simp only [ih (rel.set _ (L.write_refl _))]

theorem putWrites_alike (mirrors : Mirrors L c t c' t') (config : RunnableConfig) (writes : List (String × PyVal))
    (taskId taskPath : String) :
    let alike := fun c c' => Mirrors L c t c' t'
    EndAlike alike alike (codec.putWrites c (config.inThread t) writes taskId taskPath)
      (codec.putWrites c' (config.inThread t') writes taskId taskPath) := by
  intro alike
  unfold Codec.putWrites RunnableConfig.inThread
  cases config.checkpointId with
  | none => exact .error mirrors
  | some id =>
    let ns := config.checkpointNs.getD ""
    have group := mirrors.groupOr ns id
    have existed := (mirrors.writes ns id).isSome_eq
    have added := addedWrites_alike (c'.writes.get? ⟨t', ns, id⟩).isSome taskId taskPath
      writes.zipIdx group
    simp only [ns] at group existed added
    simp only [existed, added]
    generalize codec.addedWrites _ taskId taskPath writes.zipIdx _ = result
    have left : Mirrors L
        { c with
          writes := if result.1.isEmpty then c.writes
            else c.writes.set ⟨t, ns, id⟩ (((c.writes.get? ⟨t, ns, id⟩).getD .empty).setAll result.1) } t
        { c' with
          writes := if result.1.isEmpty then c'.writes
            else c'.writes.set ⟨t', ns, id⟩ (((c'.writes.get? ⟨t', ns, id⟩).getD .empty).setAll result.1) } t' := by
      split
      · exact mirrors
      · exact mirrors.withGroup ns id (group.setAll L.write_refl _)
    split
    · exact .ok left
    · exact .error left

theorem getTuple_alike (mirrors : Mirrors L c t c' t') (config : RunnableConfig) :
    EndAlike (fun c c' => Mirrors L c t c' t')
      (fun r r' => Mirrors L r.1 t r'.1 t' ∧ r.2.map L.see = r'.2.map L.see)
      (codec.getTuple c (config.inThread t)) (codec.getTuple c' (config.inThread t')) := by
  unfold Codec.getTuple RunnableConfig.inThread
  simp only
  generalize config.checkpointNs.getD "" = ns
  have checkpoints := mirrors.checkpointsOr ns
  have read := mirrors.touch ns
  have newest : latestId? ((c.checkpoints? t ns).getD .empty) = latestId? ((c'.checkpoints? t' ns).getD .empty) := by
    rw [latestId?, latestId?, checkpoints.keys_eq]
  rw [newest]
  cases (config.checkpointId.filter (fun id => id ≠ .text "")).or _ with
  | none => exact .ok ⟨read, rfl⟩
  | some id =>
    have entries := checkpoints.get? id
    have group := mirrors.groupOr ns id
    have blobs : (fun channel version => c.blobs.get? ⟨t, ns, channel, version⟩) =
        fun channel version => c'.blobs.get? ⟨t', ns, channel, version⟩ :=
      funext fun channel => funext fun version => mirrors.blobs ns channel version
    simp only [blobs]
    generalize ((c.checkpoints? t ns).getD .empty).get? id = stored at entries ⊢
    generalize ((c'.checkpoints? t' ns).getD .empty).get? id = stored' at entries ⊢
    cases entries with
    | none => exact .ok ⟨read, rfl⟩
    | @some entry entry' alike =>
      have seen := L.tuple alike group.values id (fun channel version => c'.blobs.get? ⟨t', ns, channel, version⟩)
      have grouped := read.withGroup ns id group
      simp only
      generalize codec.tuple id _ entry _ = found at seen ⊢
      generalize codec.tuple id _ entry' _ = found' at seen ⊢
      cases found with
      | none =>
        obtain rfl : found' = none := Option.map_eq_none_iff.mp seen.symm
        exact .error grouped
      | some tuple =>
        obtain ⟨tuple', rfl, same⟩ := Option.map_eq_some_iff.mp seen.symm
        exact .ok ⟨grouped, congrArg some same.symm⟩

end Calls

section Pruning

variable {codec : Codec} {L : Likeness codec} {c c' : Containers} {t t' : String}

theorem stillNeeded_alike {blobs blobs' : Dict BlobKey Typed} {ns : String}
    (agree : ∀ channel version, blobs.get? ⟨t, ns, channel, version⟩ = blobs'.get? ⟨t', ns, channel, version⟩)
    {entry entry' : CheckpointEntry} (alike : L.entry entry entry') (needed : List String) :
    stillNeeded codec.serde blobs t ns entry needed = stillNeeded codec.serde blobs' t' ns entry' needed := by
  simp only [stillNeeded, L.versions alike, agree]

theorem neededChannels_alike {blobs blobs' : Dict BlobKey Typed} {ns : String}
    (agree : ∀ channel version, blobs.get? ⟨t, ns, channel, version⟩ = blobs'.get? ⟨t', ns, channel, version⟩)
    {entry entry' : CheckpointEntry} (alike : L.entry entry entry') :
    neededChannels codec.serde blobs t ns entry = neededChannels codec.serde blobs' t' ns entry' := by
  simp only [neededChannels, L.versions alike, agree]

/-- The parent walks of two threads go the same way. -/
theorem keepAncestors_alike {blobs blobs' : Dict BlobKey Typed} {ns : String}
    (agree : ∀ channel version, blobs.get? ⟨t, ns, channel, version⟩ = blobs'.get? ⟨t', ns, channel, version⟩)
    {checkpoints checkpoints' : Checkpoints} (rel : checkpoints.Rel L.entry checkpoints') (fuel : Nat)
    (start : Option PyId) (needed : List String) (keep : List PyId) :
    keepAncestors codec.serde blobs t ns checkpoints fuel start needed keep =
      keepAncestors codec.serde blobs' t' ns checkpoints' fuel start needed keep := by
  induction fuel generalizing start needed keep with
  | zero =>
    cases start with
    | none => simp only [keepAncestors]
    | some id => cases needed <;> simp only [keepAncestors]
  | succ fuel ih =>
    cases start with
    | none => simp only [keepAncestors]
    | some id =>
      cases needed with
      | nil => simp only [keepAncestors]
      | cons channel needed =>
        have entries := rel.get? id
        simp only [keepAncestors]
        generalize checkpoints.get? id = stored at entries ⊢
        generalize checkpoints'.get? id = stored' at entries ⊢
        cases entries with
        | none => rfl
        | some alike => simp only [L.parent alike, stillNeeded_alike agree alike, ih]

theorem keeps_alike {ns : String} (mirrors : Mirrors L c t c' t') {fuel : Nat}
    {checkpoints checkpoints' : Checkpoints} (rel : checkpoints.Rel L.entry checkpoints') (keep : List PyId) :
    Keeps codec.serde fuel c.blobs t ns checkpoints keep ↔ Keeps codec.serde fuel c'.blobs t' ns checkpoints' keep := by
  have agree := mirrors.blobs ns
  have newest : latestId? checkpoints = latestId? checkpoints' := by rw [latestId?, latestId?, rel.keys_eq]
  have walks : ∀ {id : PyId} {entry entry' : CheckpointEntry}, L.entry entry entry' →
      keepIds codec.serde c.blobs t ns fuel checkpoints id entry =
        keepIds codec.serde c'.blobs t' ns fuel checkpoints' id entry' := by
    intro id entry entry' alike
    rw [keepIds, keepIds, L.parent alike, neededChannels_alike agree alike, keepAncestors_alike agree rel]
  constructor
  · rintro ⟨id, entry, first, found, run⟩
    have entries := rel.get? id
    rw [found] at entries
    generalize stored : checkpoints'.get? id = other at entries
    cases entries with
    | some alike => exact ⟨id, _, newest ▸ first, stored, walks alike ▸ run⟩
  · rintro ⟨id, entry, first, found, run⟩
    have entries := rel.get? id
    rw [found] at entries
    generalize stored : checkpoints.get? id = other at entries
    cases entries with
    | some alike => exact ⟨id, _, newest ▸ first, stored, (walks alike).trans run⟩

theorem keptWrite_alike (mirrors : Mirrors L c t c' t') {fuel : Nat} (ns : String) (id : PyId) :
    KeptWrite codec.serde fuel c ⟨t, ns, id⟩ ↔ KeptWrite codec.serde fuel c' ⟨t', ns, id⟩ := by
  constructor
  · rintro ⟨checkpoints, keep, kept, stored, keeps, inside, same⟩
    obtain ⟨checkpoints', stored', rel⟩ := Option.Rel.some_left (stored ▸ mirrors.checkpoints ns)
    exact ⟨checkpoints', keep, kept, stored', (keeps_alike mirrors rel keep).mp keeps, inside, same⟩
  · rintro ⟨checkpoints, keep, kept, stored, keeps, inside, same⟩
    obtain ⟨checkpoints', stored', rel⟩ := Option.Rel.some_right (stored ▸ mirrors.checkpoints ns)
    exact ⟨checkpoints', keep, kept, stored', (keeps_alike mirrors rel keep).mpr keeps, inside, same⟩

theorem keptBlob_alike (mirrors : Mirrors L c t c' t') {fuel : Nat} (ns channel : String) (version : Version) :
    KeptBlob codec.serde fuel c ⟨t, ns, channel, version⟩ ↔
      KeptBlob codec.serde fuel c' ⟨t', ns, channel, version⟩ := by
  constructor
  · rintro ⟨checkpoints, keep, id, entry, stored, keeps, inside, found, named⟩
    obtain ⟨checkpoints', stored', rel⟩ := Option.Rel.some_left (stored ▸ mirrors.checkpoints ns)
    obtain ⟨entry', found', alike⟩ := Option.Rel.some_left (found ▸ rel.get? id)
    exact ⟨checkpoints', keep, id, entry', stored', (keeps_alike mirrors rel keep).mp keeps, inside, found',
      L.versions alike ▸ named⟩
  · rintro ⟨checkpoints, keep, id, entry, stored, keeps, inside, found, named⟩
    obtain ⟨checkpoints', stored', rel⟩ := Option.Rel.some_right (stored ▸ mirrors.checkpoints ns)
    obtain ⟨entry', found', alike⟩ := Option.Rel.some_right (found ▸ rel.get? id)
    exact ⟨checkpoints', keep, id, entry', stored', (keeps_alike mirrors rel keep).mpr keeps, inside, found',
      (L.versions alike).symm ▸ named⟩

variable {m m' : Memory}

theorem pruneThread_nothing {serde : Serde} {fuel : Nat} (nothing : ∀ ns, m.checkpoints? t ns = none) :
    pruneThread serde fuel m t = some m := by
  unfold pruneThread
  cases stored : m.storage.get? t with
  | none => rfl
  | some namespaces =>
    have empty : namespaces.entries.isEmpty = true := by
      rw [List.isEmpty_iff, List.eq_nil_iff_forall_not_mem]
      rintro ⟨ns, checkpoints⟩ member
      have absent := nothing ns
      simp only [Containers.checkpoints?, stored, Option.bind_some] at absent
      rw [Dict.mem_entries_iff.mp member] at absent
      cases absent
    simp only [empty, if_true]

theorem pruneThread_something {serde : Serde} {fuel : Nat} {after : Memory}
    (run : pruneThread serde fuel m t = some after) {ns : String} {checkpoints : Checkpoints}
    (something : m.checkpoints? t ns = some checkpoints) : PrunedThread serde fuel m after t := by
  rcases pruneThread_cases run with ⟨-, empty⟩ | pruned
  · obtain ⟨namespaces, stored, found⟩ := Option.bind_eq_some_iff.mp something
    have member := Dict.mem_entries_iff.mpr found
    rw [empty namespaces stored] at member
    cases member
  · exact pruned

theorem pruneThread_ends_alike (mirrors : Mirrors L m.toContainers t m'.toContainers t') (fuel : Nat) :
    (pruneThread codec.serde fuel m t).isSome ↔ (pruneThread codec.serde fuel m' t').isSome := by
  rw [pruneThread_isSome, pruneThread_isSome]
  constructor
  · intro each ns cps' stored' nonempty
    obtain ⟨cps, stored, rel⟩ := Option.Rel.some_right (stored' ▸ mirrors.checkpoints ns)
    have full : cps.entries ≠ [] := by
      rwa [ne_eq, ← List.isEmpty_iff, rel.isEmpty_eq, List.isEmpty_iff]
    obtain ⟨keep, keeps⟩ := each ns cps stored full
    exact ⟨keep, (keeps_alike mirrors rel keep).mp keeps⟩
  · intro each ns cps stored nonempty
    obtain ⟨cps', stored', rel⟩ := Option.Rel.some_left (stored ▸ mirrors.checkpoints ns)
    have full : cps'.entries ≠ [] := by
      rwa [ne_eq, ← List.isEmpty_iff, ← rel.isEmpty_eq, List.isEmpty_iff]
    obtain ⟨keep, keeps⟩ := each ns cps' stored' full
    exact ⟨keep, (keeps_alike mirrors rel keep).mpr keeps⟩

theorem Mirrors.of_pruned {fuel : Nat} {after after' : Memory}
    (mirrors : Mirrors L m.toContainers t m'.toContainers t')
    (pruned : PrunedThread codec.serde fuel m after t) (pruned' : PrunedThread codec.serde fuel m' after' t') :
    Mirrors L after.toContainers t after'.toContainers t' where
  checkpoints ns := by
    have rel := mirrors.checkpoints ns
    cases stored : m.checkpoints? t ns with
    | none =>
      have stored' := Option.Rel.none_left (stored ▸ rel)
      rw [pruned.no_namespace ns stored, pruned'.no_namespace ns stored']
      exact .none
    | some cps =>
      obtain ⟨cps', stored', rel⟩ := Option.Rel.some_left (stored ▸ rel)
      have emptiness : cps.entries = [] ↔ cps'.entries = [] := by
        rw [← List.isEmpty_iff, ← List.isEmpty_iff, rel.isEmpty_eq]
      by_cases empty : cps.entries = []
      · rw [pruned.namespace_emptied ns cps stored empty,
          pruned'.namespace_emptied ns cps' stored' (emptiness.mp empty)]
        exact .none
      · obtain ⟨keep, keeps, kept⟩ := pruned.namespace_kept ns cps stored empty
        obtain ⟨keep', keeps', kept'⟩ := pruned'.namespace_kept ns cps' stored' (fun e => empty (emptiness.mpr e))
        obtain rfl := ((keeps_alike mirrors rel keep).mp keeps).unique keeps'
        rw [kept, kept']
        exact .some (rel.filter_keys (fun id => keep.contains id))
  writes ns id := by
    by_cases stays : KeptWrite codec.serde fuel m.toContainers ⟨t, ns, id⟩
    · rw [pruned.write_kept _ (fun _ => stays),
        pruned'.write_kept _ (fun _ => (keptWrite_alike mirrors ns id).mp stays)]
      exact mirrors.writes ns id
    · rw [pruned.write_dropped _ rfl stays,
        pruned'.write_dropped _ rfl (fun other => stays ((keptWrite_alike mirrors ns id).mpr other))]
      exact .none
  blobs ns channel version := by
    by_cases stays : KeptBlob codec.serde fuel m.toContainers ⟨t, ns, channel, version⟩
    · rw [pruned.blob_kept _ (fun _ => stays),
        pruned'.blob_kept _ (fun _ => (keptBlob_alike mirrors ns channel version).mp stays)]
      exact mirrors.blobs ns channel version
    · rw [pruned.blob_dropped _ rfl stays,
        pruned'.blob_dropped _ rfl (fun other => stays ((keptBlob_alike mirrors ns channel version).mpr other))]

/-- Pruning two threads that mirror each other ends alike, and they still do. -/
theorem pruneThread_alike (mirrors : Mirrors L m.toContainers t m'.toContainers t') (fuel : Nat) :
    Option.Rel (fun a a' => Mirrors L a.toContainers t a'.toContainers t') (pruneThread codec.serde fuel m t)
      (pruneThread codec.serde fuel m' t') := by
  by_cases nothing : ∀ ns, m.checkpoints? t ns = none
  · have nothing' : ∀ ns, m'.checkpoints? t' ns = none :=
      fun ns => Option.Rel.none_left (nothing ns ▸ mirrors.checkpoints ns)
    rw [pruneThread_nothing nothing, pruneThread_nothing nothing']
    exact .some mirrors
  · obtain ⟨ns, found⟩ := not_forall.mp nothing
    obtain ⟨checkpoints, something⟩ := Option.ne_none_iff_exists'.mp found
    obtain ⟨checkpoints', something', -⟩ := Option.Rel.some_left (something ▸ mirrors.checkpoints ns)
    have ends := pruneThread_ends_alike mirrors fuel
    cases run : pruneThread codec.serde fuel m t with
    | none =>
      rw [run, Option.isSome_none, iff_comm, Bool.false_eq_true, iff_false, Option.not_isSome_iff_eq_none] at ends
      rw [ends]
      exact .none
    | some after =>
      obtain ⟨after', run'⟩ := Option.isSome_iff_exists.mp (ends.mp (Option.isSome_of_eq_some run))
      rw [run']
      exact .some (.of_pruned mirrors (pruneThread_something run something) (pruneThread_something run' something'))

theorem deleteThread_alike (base : BaseSaver) (c c' : Containers) (t t' : String) :
    Mirrors L (base.deleteThread c t) t (base.deleteThread c' t') t' := by
  rw [base.deleteThread_law, base.deleteThread_law]
  refine ⟨fun ns => ?_, fun ns id => ?_, fun ns channel version => ?_⟩
  · simp only [Containers.checkpoints?, Dict.get?_erase_self, Option.bind_none]
    exact .none
  · rw [Dict.get?_filter_drop (fun _ => by simp), Dict.get?_filter_drop (fun _ => by simp)]
    exact .none
  · rw [Dict.get?_filter_drop (fun _ => by simp), Dict.get?_filter_drop (fun _ => by simp)]

end Pruning

end InmemRuntime
