import InmemRuntime.PruneHistory

namespace InmemRuntime

namespace Containers

variable (serde : Serde) (c : Containers) (threadId ns : String)

/-- The checkpoint names the channel and does not materialize it. -/
def Lacks (latest : CheckpointEntry) (channel : String) : Prop :=
  ((serde.channelVersions latest).get? channel).isSome ∧
    c.materialized? serde threadId ns latest channel = none

/-- The walk back meets the channel materialized at this checkpoint. The version
`None` is read as no version. -/
def Meets (entry : CheckpointEntry) (channel : String) : Prop :=
  (serde.channelVersions entry).get? channel ≠ some .none ∧
    (c.materialized? serde threadId ns entry channel).isSome

/-- Every channel that `latest` lacks is met somewhere in this part of the chain. -/
def MeetsAll (latest : CheckpointEntry) (part : List (PyId × CheckpointEntry)) : Prop :=
  ∀ channel, c.Lacks serde threadId ns latest channel →
    ∃ item ∈ part, c.Meets serde threadId ns item.2 channel

/-- The shortest prefix of a parent chain after which nothing that `latest`
lacks is missing, or the whole chain when that never happens. -/
structure ShortestPrefix (latest : CheckpointEntry) (chain part : List (PyId × CheckpointEntry)) : Prop where
  isPrefix : part <+: chain
  ends : c.MeetsAll serde threadId ns latest part ∨ part = chain
  shortest : ∀ shorter, shorter <+: part → c.MeetsAll serde threadId ns latest shorter → shorter = part

/-- What `keep_latest` has to leave of a namespace. -/
def Remains (id : PyId) : Prop :=
  ∃ checkpoints latestId latest chain part, c.checkpoints? threadId ns = some checkpoints ∧
    c.Newest threadId ns latestId ∧ checkpoints.get? latestId = some latest ∧
    checkpoints.ParentChain CheckpointEntry.parent latest.parent chain ∧
    c.ShortestPrefix serde threadId ns latest chain part ∧
    (id = latestId ∨ id ∈ part.map Prod.fst)

end Containers

section Walk

variable {serde : Serde} {c : Containers} {threadId ns : String} {checkpoints : Checkpoints}

theorem mem_neededChannels_iff {latest : CheckpointEntry} {channel : String} :
    channel ∈ neededChannels serde c.blobs threadId ns latest ↔ c.Lacks serde threadId ns latest channel := by
  simp only [neededChannels, List.mem_map, List.mem_filter, Prod.exists, exists_and_right, exists_eq_right,
    Containers.Lacks]
  constructor
  · rintro ⟨version, listed, empty⟩
    have named := Dict.mem_entries_iff.mp listed
    exact ⟨by simp [named], (materialized?_eq_none named).mpr empty⟩
  · rintro ⟨listed, empty⟩
    obtain ⟨version, named⟩ := Option.isSome_iff_exists.mp listed
    exact ⟨version, Dict.mem_entries_iff.mpr named, (materialized?_eq_none named).mp empty⟩

theorem mem_stillNeeded_iff {entry : CheckpointEntry} {channel : String} {needed : List String} :
    channel ∈ stillNeeded serde c.blobs threadId ns entry needed ↔
      channel ∈ needed ∧ ¬ c.Meets serde threadId ns entry channel := by
  simp only [stillNeeded, List.mem_filter, Containers.Meets]
  refine and_congr_right (fun _ => ?_)
  cases named : (serde.channelVersions entry).get? channel with
  | none => simp [Containers.materialized?, named]
  | some version =>
    have same : c.materialized? serde threadId ns entry channel = none ↔ _ := materialized?_eq_none named
    cases version with
    | none => simp
    | _ => simp [← same, Option.isSome_iff_ne_none]

/-- The loop adds the shortest prefix of the chain that meets what is needed,
and the whole chain if no prefix does. -/
theorem keepAncestors_prefix {start : Option PyId} {chain : List (PyId × CheckpointEntry)}
    (walk : checkpoints.ParentChain CheckpointEntry.parent start chain) {fuel : Nat}
    {needed : List String} {keep kept : List PyId}
    (run : keepAncestors serde c.blobs threadId ns checkpoints fuel start needed keep = some kept) :
    ∃ part, part <+: chain ∧ (∀ id, id ∈ kept ↔ id ∈ keep ∨ id ∈ part.map Prod.fst) ∧
      ((∀ channel ∈ needed, ∃ item ∈ part, c.Meets serde threadId ns item.2 channel) ∨ part = chain) ∧
      ∀ shorter, shorter <+: part →
        (∀ channel ∈ needed, ∃ item ∈ shorter, c.Meets serde threadId ns item.2 channel) → shorter = part := by
  induction walk generalizing fuel needed keep with
  | root =>
    obtain rfl : keep = kept := by simpa [keepAncestors] using run
    exact ⟨[], List.nil_prefix, by simp, .inr rfl, fun _ shorter _ => List.prefix_nil.mp shorter⟩
  | missing absent =>
    obtain rfl : keep = kept := by
      cases needed with
      | nil => simpa [keepAncestors] using run
      | cons channel needed =>
        cases fuel with
        | zero => simp [keepAncestors] at run
        | succ fuel => simpa [keepAncestors, absent] using run
    exact ⟨[], List.nil_prefix, by simp, .inr rfl, fun _ shorter _ => List.prefix_nil.mp shorter⟩
  | @next id entry rest found _ ih =>
    cases needed with
    | nil =>
      obtain rfl : keep = kept := by simpa [keepAncestors] using run
      exact ⟨[], List.nil_prefix, by simp, .inl (by simp), fun _ shorter _ => List.prefix_nil.mp shorter⟩
    | cons first needed =>
      cases fuel with
      | zero => simp [keepAncestors] at run
      | succ fuel =>
        simp only [keepAncestors, found] at run
        obtain ⟨part, inChain, members, ends, shortest⟩ := ih run
        refine ⟨(id, entry) :: part, List.cons_prefix_cons.mpr ⟨rfl, inChain⟩, ?_, ?_, ?_⟩
        · intro x
          rw [members, List.mem_cons, List.map_cons, List.mem_cons]
          exact ⟨by tauto, by tauto⟩
        · refine ends.imp (fun met channel member => ?_) (fun whole => by rw [whole])
          by_cases here : c.Meets serde threadId ns entry channel
          · exact ⟨_, List.mem_cons_self .., here⟩
          · obtain ⟨item, inside, meets⟩ := met channel (mem_stillNeeded_iff.mpr ⟨member, here⟩)
            exact ⟨item, List.mem_cons_of_mem _ inside, meets⟩
        · intro shorter before met
          cases shorter with
          | nil =>
            obtain ⟨item, inside, _⟩ := met first (List.mem_cons_self ..)
            cases inside
          | cons item shorter =>
            obtain ⟨rfl, inRest⟩ := List.cons_prefix_cons.mp before
            rw [shortest shorter inRest (fun channel member => ?_)]
            obtain ⟨member, notHere⟩ := mem_stillNeeded_iff.mp member
            obtain ⟨item, inside, meets⟩ := met channel member
            rcases List.mem_cons.mp inside with rfl | later
            · exact absurd meets notHere
            · exact ⟨item, later, meets⟩

theorem ShortestPrefix.unique {latest : CheckpointEntry} {chain part part' : List (PyId × CheckpointEntry)}
    (one : c.ShortestPrefix serde threadId ns latest chain part)
    (two : c.ShortestPrefix serde threadId ns latest chain part') : part = part' := by
  rcases List.prefix_or_prefix_of_prefix one.isPrefix two.isPrefix with before | after
  · rcases one.ends with met | whole
    · exact two.shortest part before met
    · exact before.eq_of_length_le (whole ▸ two.isPrefix.length_le)
  · rcases two.ends with met | whole
    · exact (one.shortest part' after met).symm
    · exact (after.eq_of_length_le (whole ▸ one.isPrefix.length_le)).symm

/-- What one namespace retains is what has to remain of it. -/
theorem Keeps.remains_iff {fuel : Nat} {keep : List PyId} (texts : c.TextIds) (acyclic : c.AcyclicParents)
    (stored : c.checkpoints? threadId ns = some checkpoints)
    (keeps : Keeps serde fuel c.blobs threadId ns checkpoints keep) (id : PyId) :
    id ∈ keep ↔ c.Remains serde threadId ns id := by
  have lookup : ∀ id, c.checkpointAt? threadId ns id = checkpoints.get? id := by
    intro id; simp [Containers.checkpointAt?, stored]
  obtain ⟨latestId, latest, chosen, found, run⟩ := keeps
  obtain ⟨chain, walk⟩ := (acyclic threadId ns checkpoints stored).exists_chain latest.parent
  obtain ⟨part, inChain, members, ends, shortest⟩ := keepAncestors_prefix walk run
  simp only [mem_neededChannels_iff] at ends shortest
  have least : c.ShortestPrefix serde threadId ns latest chain part := ⟨inChain, ends, shortest⟩
  rw [members, List.mem_singleton]
  constructor
  · intro inside
    have newest : c.Newest threadId ns latestId := by
      refine ⟨⟨latest, (lookup latestId).trans found⟩, fun id entry atId => ?_⟩
      rw [lookup] at atId
      exact List.le_of_mem_argmax (Dict.mem_keys_iff.mpr ⟨entry, atId⟩) chosen
    exact ⟨checkpoints, latestId, latest, chain, part, stored, newest, found, walk, least, inside⟩
  · rintro ⟨_, latestId', latest', chain', part', stored', newest, found', walk', least', inside⟩
    cases stored.symm.trans stored'
    cases chosen.symm.trans (Newest.eq_latestId texts newest stored)
    cases found.symm.trans found'
    cases walk.unique walk'
    cases ShortestPrefix.unique least least'
    exact inside

end Walk

/-- `keep_latest` for one thread, exactly: what remains is what has to remain,
and nothing is left for checkpoints that are gone. -/
structure PrunedExactly (serde : Serde) (m m' : Memory) (threadId : String) : Prop where
  checkpoints : ∀ ns id entry, m'.checkpointAt? threadId ns id = some entry ↔
    m.checkpointAt? threadId ns id = some entry ∧ m.Remains serde threadId ns id
  namespaces : ∀ ns, m'.checkpoints? threadId ns = none ↔ ∀ id, m.checkpointAt? threadId ns id = none
  writes : ∀ key group, key.thread = threadId → (m'.writes.get? key = some group ↔
    m.writes.get? key = some group ∧ ∃ id, m.Remains serde threadId key.ns id ∧ key.checkpoint.str = id.str)
  blobs : ∀ key blob, key.thread = threadId → (m'.blobs.get? key = some blob ↔
    m.blobs.get? key = some blob ∧ ∃ id entry, m.Remains serde threadId key.ns id ∧
      m.checkpointAt? threadId key.ns id = some entry ∧
      (serde.channelVersions entry).get? key.channel = some key.version)

/-- Nothing stored for the thread differs, nor its share of the size counts. -/
structure SameThread (m m' : Memory) (threadId : String) : Prop where
  storage : m'.storage.get? threadId = m.storage.get? threadId
  writes : ∀ key, key.thread = threadId → m'.writes.get? key = m.writes.get? key
  blobs : ∀ key, key.thread = threadId → m'.blobs.get? key = m.blobs.get? key
  size : m'.sizeState.byThread.get? threadId = m.sizeState.byThread.get? threadId

namespace SameThread

variable {serde : Serde} {m m' m'' : Memory} {threadId ns : String}

theorem refl (m : Memory) (threadId : String) : SameThread m m threadId :=
  ⟨rfl, fun _ _ => rfl, fun _ _ => rfl, rfl⟩

theorem trans (one : SameThread m m' threadId) (two : SameThread m' m'' threadId) :
    SameThread m m'' threadId where
  storage := two.storage.trans one.storage
  writes key mine := (two.writes key mine).trans (one.writes key mine)
  blobs key mine := (two.blobs key mine).trans (one.blobs key mine)
  size := two.size.trans one.size

theorem symm (same : SameThread m m' threadId) : SameThread m' m threadId :=
  ⟨same.storage.symm, fun key mine => (same.writes key mine).symm, fun key mine => (same.blobs key mine).symm,
    same.size.symm⟩

theorem checkpoints? (same : SameThread m m' threadId) (ns : String) :
    m'.checkpoints? threadId ns = m.checkpoints? threadId ns := by
  simp only [Containers.checkpoints?, same.storage]

theorem checkpointAt? (same : SameThread m m' threadId) (ns : String) (id : PyId) :
    m'.checkpointAt? threadId ns id = m.checkpointAt? threadId ns id := by
  simp only [Containers.checkpointAt?, same.checkpoints?]

theorem remains_iff (same : SameThread m m' threadId) (id : PyId) :
    m'.Remains serde threadId ns id ↔ m.Remains serde threadId ns id := by
  have materialized : ∀ entry channel,
      m'.materialized? serde threadId ns entry channel = m.materialized? serde threadId ns entry channel := by
    intro entry channel
    unfold Containers.materialized?
    split
    · rfl
    · rw [same.blobs _ rfl]
  have meetsAll : ∀ latest part,
      m'.MeetsAll serde threadId ns latest part ↔ m.MeetsAll serde threadId ns latest part := by
    intro latest part
    simp only [Containers.MeetsAll, Containers.Lacks, Containers.Meets, materialized]
  have shortest : ∀ latest chain part, m'.ShortestPrefix serde threadId ns latest chain part ↔
      m.ShortestPrefix serde threadId ns latest chain part := by
    intro latest chain part
    constructor
    · rintro ⟨before, ends, least⟩
      simp only [meetsAll] at ends least
      exact ⟨before, ends, least⟩
    · rintro ⟨before, ends, least⟩
      simp only [← meetsAll] at ends least
      exact ⟨before, ends, least⟩
  simp only [Containers.Remains, Containers.Newest, same.checkpoints?, same.checkpointAt?, shortest]

theorem before (same : SameThread m m' threadId) (pruned : PrunedExactly serde m' m'' threadId) :
    PrunedExactly serde m m'' threadId where
  checkpoints ns id entry := by
    rw [pruned.checkpoints, same.checkpointAt?, same.remains_iff]
  namespaces ns := by
    simp only [pruned.namespaces, same.checkpointAt?]
  writes key group mine := by
    simp only [pruned.writes key group mine, same.writes key mine, same.remains_iff]
  blobs key blob mine := by
    simp only [pruned.blobs key blob mine, same.blobs key mine, same.remains_iff, same.checkpointAt?]

theorem after (pruned : PrunedExactly serde m m' threadId) (same : SameThread m' m'' threadId) :
    PrunedExactly serde m m'' threadId where
  checkpoints ns id entry := by
    rw [same.checkpointAt?, pruned.checkpoints]
  namespaces ns := by
    rw [same.checkpoints?, pruned.namespaces]
  writes key group mine := by
    rw [same.writes key mine, pruned.writes key group mine]
  blobs key blob mine := by
    rw [same.blobs key mine, pruned.blobs key blob mine]

end SameThread

section Step

variable {serde : Serde} {fuel : Nat} {m m' : Memory} {threadId : String}

/-- Whether one thread is pruned shows in no other thread. -/
theorem pruneThread_sameThread (run : pruneThread serde fuel m threadId = some m') {other : String}
    (different : other ≠ threadId) : SameThread m m' other := by
  have size : m'.sizeState.byThread.get? other = m.sizeState.byThread.get? other := by
    unfold pruneThread at run
    split at run
    · rw [Option.some.inj run]
    · split at run
      · rw [Option.some.inj run]
      · obtain ⟨acc, _, run⟩ := Option.bind_eq_some_iff.mp run
        cases Option.some.inj run
        exact CheckpointSizeState.byThread_record_of_ne _ different _
  rcases pruneThread_cases run with ⟨rfl, _⟩ | pruned
  · exact .refl m' other
  · exact ⟨pruned.other_thread other different,
      fun key mine => pruned.write_kept key (fun here => absurd (mine.symm.trans here) different),
      fun key mine => pruned.blob_kept key (fun here => absurd (mine.symm.trans here) different), size⟩

theorem PrunedThread.remains_iff (pruned : PrunedThread serde fuel m m' threadId) (texts : m.TextIds)
    (acyclic : m.AcyclicParents) {ns : String} {id : PyId} : m.Remains serde threadId ns id ↔
      ∃ checkpoints keep, m.checkpoints? threadId ns = some checkpoints ∧
        Keeps serde fuel m.blobs threadId ns checkpoints keep ∧ id ∈ keep := by
  constructor
  · intro remains
    have ⟨checkpoints, latestId, latest, _, _, stored, _, found, _⟩ := remains
    have nonempty : checkpoints.entries ≠ [] := by
      intro empty
      simp [Dict.get?, empty] at found
    obtain ⟨keep, keeps, _⟩ := pruned.namespace_kept ns checkpoints stored nonempty
    exact ⟨checkpoints, keep, stored, keeps, (keeps.remains_iff texts acyclic stored id).mpr remains⟩
  · rintro ⟨checkpoints, keep, stored, keeps, inside⟩
    exact (keeps.remains_iff texts acyclic stored id).mp inside

theorem PrunedThread.exactly (pruned : PrunedThread serde fuel m m' threadId) (texts : m.TextIds)
    (acyclic : m.AcyclicParents) : PrunedExactly serde m m' threadId where
  checkpoints ns id entry := by
    cases stored : m.checkpoints? threadId ns with
    | none =>
      simp [Containers.checkpointAt?, stored, pruned.no_namespace ns stored]
    | some checkpoints =>
      by_cases empty : checkpoints.entries = []
      · simp [Containers.checkpointAt?, stored, pruned.namespace_emptied ns _ stored empty, Dict.get?, empty]
      · obtain ⟨keep, keeps, after⟩ := pruned.namespace_kept ns _ stored empty
        rw [← keeps.remains_iff texts acyclic stored]
        simp [Containers.checkpointAt?, stored, after, Dict.get?_filter, Option.filter_eq_some_iff]
  namespaces ns := by
    cases stored : m.checkpoints? threadId ns with
    | none => simp [Containers.checkpointAt?, stored, pruned.no_namespace ns stored]
    | some checkpoints =>
      by_cases empty : checkpoints.entries = []
      · simp [Containers.checkpointAt?, stored, pruned.namespace_emptied ns _ stored empty, Dict.get?, empty]
      · obtain ⟨keep, ⟨latestId, latest, _, found, _⟩, after⟩ := pruned.namespace_kept ns _ stored empty
        simp only [after, reduceCtorEq, false_iff, not_forall]
        exact ⟨latestId, by simp [Containers.checkpointAt?, stored, found]⟩
  writes key group mine := by
    have kept : KeptWrite serde fuel m.toContainers key ↔
        ∃ id, m.Remains serde threadId key.ns id ∧ key.checkpoint.str = id.str := by
      simp only [pruned.remains_iff texts acyclic, KeptWrite, mine]
      constructor
      · rintro ⟨checkpoints, keep, id, stored, keeps, inside, same⟩
        exact ⟨id, ⟨checkpoints, keep, stored, keeps, inside⟩, same⟩
      · rintro ⟨id, ⟨checkpoints, keep, stored, keeps, inside⟩, same⟩
        exact ⟨checkpoints, keep, id, stored, keeps, inside, same⟩
    rw [← kept]
    by_cases here : KeptWrite serde fuel m.toContainers key
    · simp [pruned.write_kept key (fun _ => here), here]
    · simp [pruned.write_dropped key mine here, here]
  blobs key blob mine := by
    have kept : KeptBlob serde fuel m.toContainers key ↔
        ∃ id entry, m.Remains serde threadId key.ns id ∧ m.checkpointAt? threadId key.ns id = some entry ∧
          (serde.channelVersions entry).get? key.channel = some key.version := by
      simp only [pruned.remains_iff texts acyclic, KeptBlob, mine]
      constructor
      · rintro ⟨checkpoints, keep, id, entry, stored, keeps, inside, found, named⟩
        exact ⟨id, entry, ⟨checkpoints, keep, stored, keeps, inside⟩,
          by simp [Containers.checkpointAt?, stored, found], named⟩
      · rintro ⟨id, entry, ⟨checkpoints, keep, stored, keeps, inside⟩, found, named⟩
        simp only [Containers.checkpointAt?, stored, Option.bind_some] at found
        exact ⟨checkpoints, keep, id, entry, stored, keeps, inside, found, named⟩
    rw [← kept]
    by_cases here : KeptBlob serde fuel m.toContainers key
    · simp [pruned.blob_kept key (fun _ => here), here]
    · simp [pruned.blob_dropped key mine here, here]

end Step

/-- A thread in which pruning finds nothing to remove. -/
structure Settled (serde : Serde) (fuel : Nat) (m : Memory) (threadId : String) : Prop where
  namespaces : ∀ ns checkpoints, m.checkpoints? threadId ns = some checkpoints →
    ∃ keep, Keeps serde fuel m.blobs threadId ns checkpoints keep ∧ ∀ id ∈ checkpoints.keys, id ∈ keep
  writes : ∀ key ∈ m.writes.keys, key.thread = threadId → KeptWrite serde fuel m.toContainers key
  blobs : ∀ key ∈ m.blobs.keys, key.thread = threadId → KeptBlob serde fuel m.toContainers key
  size : m.sizeState.byThread.get? threadId ≠ some (0, 0)

section Settled

variable {serde : Serde} {fuel : Nat} {m m' : Memory} {threadId ns : String}

/-- The walk is the same in another storage that has the checkpoints it kept,
no further ones, and the blobs these name. -/
theorem keepAncestors_carry {blobs blobs' : Dict BlobKey Typed} {checkpoints checkpoints' : Checkpoints}
    {start : Option PyId} {needed : List String} {keep kept : List PyId}
    (run : keepAncestors serde blobs threadId ns checkpoints fuel start needed keep = some kept)
    (inside : ∀ id ∈ kept, checkpoints'.get? id = checkpoints.get? id)
    (absent : ∀ id, checkpoints.get? id = none → checkpoints'.get? id = none)
    (agree : ∀ id ∈ kept, ∀ entry, checkpoints.get? id = some entry → ∀ channel version,
      (serde.channelVersions entry).get? channel = some version →
        blobs'.get? ⟨threadId, ns, channel, version⟩ = blobs.get? ⟨threadId, ns, channel, version⟩) :
    keepAncestors serde blobs' threadId ns checkpoints' fuel start needed keep = some kept := by
  induction fuel generalizing start needed keep with
  | zero => cases start <;> cases needed <;> simp_all [keepAncestors]
  | succ fuel ih =>
    cases start with
    | none => simpa [keepAncestors] using run
    | some id =>
      cases needed with
      | nil => simpa [keepAncestors] using run
      | cons first needed =>
        simp only [keepAncestors] at run ⊢
        cases found : checkpoints.get? id with
        | none => simpa only [found, absent id found] using run
        | some entry =>
          rw [found] at run
          have here : id ∈ kept := (keepAncestors_adds run).1 (List.mem_cons_self ..)
          have same : stillNeeded serde blobs' threadId ns entry (first :: needed) =
              stillNeeded serde blobs threadId ns entry (first :: needed) := by
            refine List.filter_congr (fun channel _ => ?_)
            cases named : (serde.channelVersions entry).get? channel with
            | none => rfl
            | some version =>
              cases version with
              | none => rfl
              | _ => simp only [agree id here entry found channel _ named]
          simp only [inside id here, found, same]
          exact ih run

theorem Keeps.carry {blobs blobs' : Dict BlobKey Typed} {checkpoints checkpoints' : Checkpoints}
    {keep : List PyId} (keeps : Keeps serde fuel blobs threadId ns checkpoints keep)
    (newest : latestId? checkpoints' = latestId? checkpoints)
    (inside : ∀ id ∈ keep, checkpoints'.get? id = checkpoints.get? id)
    (absent : ∀ id, checkpoints.get? id = none → checkpoints'.get? id = none)
    (agree : ∀ id ∈ keep, ∀ entry, checkpoints.get? id = some entry → ∀ channel version,
      (serde.channelVersions entry).get? channel = some version →
        blobs'.get? ⟨threadId, ns, channel, version⟩ = blobs.get? ⟨threadId, ns, channel, version⟩) :
    Keeps serde fuel blobs' threadId ns checkpoints' keep := by
  obtain ⟨latestId, latest, chosen, found, run⟩ := keeps
  have here : latestId ∈ keep := (keepAncestors_adds run).1 (List.mem_singleton_self _)
  refine ⟨latestId, latest, newest.trans chosen, (inside latestId here).trans found, ?_⟩
  have same : neededChannels serde blobs' threadId ns latest = neededChannels serde blobs threadId ns latest := by
    refine congrArg (List.map Prod.fst) (List.filter_congr (fun item member => ?_))
    rw [agree latestId here latest found item.1 item.2 (Dict.mem_entries_iff.mp member)]
  unfold keepIds
  rw [same]
  exact keepAncestors_carry run inside absent agree

/-- The first of the greatest stays the first of the greatest while it is kept. -/
theorem argmax_filter {α β : Type*} [LinearOrder β] {f : α → β} {p : α → Bool} {l : List α} {a : α}
    (greatest : l.argmax f = some a) (kept : p a = true) : (l.filter p).argmax f = some a := by
  induction l with
  | nil => cases greatest
  | cons first l ih =>
    rw [List.argmax_cons] at greatest
    cases later : l.argmax f with
    | none =>
      rw [later] at greatest
      cases Option.some.inj greatest
      rw [List.filter_cons_of_pos kept, List.argmax_eq_none.mp later]
      rfl
    | some b =>
      rw [later] at greatest
      dsimp only at greatest
      split at greatest
      · rename_i above
        cases Option.some.inj greatest
        by_cases passes : p first = true
        · rw [List.filter_cons_of_pos passes, List.argmax_cons, ih later]
          exact if_pos above
        · rw [List.filter_cons_of_neg passes, ih later]
      · rename_i below
        cases Option.some.inj greatest
        rw [List.filter_cons_of_pos kept, List.argmax_cons]
        cases rest : (l.filter p).argmax f with
        | none => rfl
        | some c =>
          have bound := List.le_of_mem_argmax (List.mem_of_mem_filter (List.argmax_mem rest)) later
          exact if_neg (fun above => below (above.trans_le bound))

theorem latestId?_filter {checkpoints : Checkpoints} {keep : List PyId} {latestId : PyId}
    (chosen : latestId? checkpoints = some latestId) (inside : latestId ∈ keep) :
    latestId? (checkpoints.filter (fun id _ => keep.contains id)) = some latestId := by
  have keys : (checkpoints.filter (fun id _ => keep.contains id)).keys = checkpoints.keys.filter keep.contains :=
    (List.filter_map (f := Prod.fst) (p := keep.contains)).symm
  rw [latestId?, keys]
  exact argmax_filter chosen (by simpa using inside)

/-- Pruning leaves the thread settled. -/
theorem PrunedThread.settled (pruned : PrunedThread serde fuel m m' threadId)
    (size : m'.sizeState.byThread.get? threadId ≠ some (0, 0)) : Settled serde fuel m' threadId := by
  have carried : ∀ ns checkpoints keep, m.checkpoints? threadId ns = some checkpoints →
      Keeps serde fuel m.blobs threadId ns checkpoints keep →
      m'.checkpoints? threadId ns = some (checkpoints.filter (fun id _ => keep.contains id)) ∧
        Keeps serde fuel m'.blobs threadId ns (checkpoints.filter (fun id _ => keep.contains id)) keep := by
    intro ns checkpoints keep stored keeps
    obtain ⟨keep', keeps', after⟩ := pruned.namespace_kept ns checkpoints stored keeps.nonempty
    cases keeps.unique keeps'
    refine ⟨after, keeps.carry ?_ (fun id inside => Dict.get?_filter_pass (fun _ => by simpa using inside))
      (fun id absent => by rw [Dict.get?_filter, absent, Option.filter_none])
      (fun id inside entry found channel version named => pruned.blob_kept _ (fun _ =>
        ⟨checkpoints, keep, id, entry, stored, keeps, inside, found, named⟩))⟩
    have ⟨latestId, latest, chosen, found, run⟩ := keeps
    rw [chosen]
    exact latestId?_filter chosen ((keepAncestors_adds run).1 (List.mem_singleton_self _))
  refine ⟨fun ns after stored => ?_, fun key member mine => ?_, fun key member mine => ?_, size⟩
  · cases before : m.checkpoints? threadId ns with
    | none => rw [pruned.no_namespace ns before] at stored; cases stored
    | some checkpoints =>
      by_cases empty : checkpoints.entries = []
      · rw [pruned.namespace_emptied ns checkpoints before empty] at stored; cases stored
      · obtain ⟨keep, keeps, _⟩ := pruned.namespace_kept ns checkpoints before empty
        obtain ⟨after', keeps'⟩ := carried ns checkpoints keep before keeps
        cases stored.symm.trans after'
        refine ⟨keep, keeps', fun id member => ?_⟩
        obtain ⟨entry, atId⟩ := Dict.mem_keys_iff.mp member
        simpa [Dict.get?_filter, Option.filter_eq_some_iff] using (And.right (by
          simpa [Dict.get?_filter, Option.filter_eq_some_iff] using atId))
  · obtain ⟨group, atKey⟩ := Dict.mem_keys_iff.mp member
    have kept : KeptWrite serde fuel m.toContainers key := by
      by_contra dropped
      rw [pruned.write_dropped key mine dropped] at atKey
      cases atKey
    obtain ⟨checkpoints, keep, id, stored, keeps, inside, same⟩ := kept
    rw [mine] at stored keeps
    obtain ⟨stored', keeps'⟩ := carried key.ns checkpoints keep stored keeps
    exact ⟨_, keep, id, mine ▸ stored', mine ▸ keeps', inside, same⟩
  · obtain ⟨blob, atKey⟩ := Dict.mem_keys_iff.mp member
    have kept : KeptBlob serde fuel m.toContainers key := by
      by_contra dropped
      rw [pruned.blob_dropped key mine dropped] at atKey
      cases atKey
    obtain ⟨checkpoints, keep, id, entry, stored, keeps, inside, found, named⟩ := kept
    rw [mine] at stored keeps
    obtain ⟨stored', keeps'⟩ := carried key.ns checkpoints keep stored keeps
    exact ⟨_, keep, id, entry, mine ▸ stored', mine ▸ keeps', inside,
      (Dict.get?_filter_pass (fun _ => by simpa using inside)).trans found, named⟩

/-- What settles a thread is stored for this thread alone. -/
theorem Settled.sameThread (settled : Settled serde fuel m threadId) (same : SameThread m m' threadId) :
    Settled serde fuel m' threadId := by
  have carried : ∀ ns checkpoints keep, Keeps serde fuel m.blobs threadId ns checkpoints keep →
      Keeps serde fuel m'.blobs threadId ns checkpoints keep :=
    fun ns checkpoints keep keeps => keeps.carry rfl (fun _ _ => rfl) (fun _ absent => absent)
      (fun _ _ _ _ _ _ _ => same.blobs _ rfl)
  refine ⟨fun ns checkpoints stored => ?_, fun key member mine => ?_, fun key member mine => ?_,
    same.size ▸ settled.size⟩
  · obtain ⟨keep, keeps, covers⟩ := settled.namespaces ns checkpoints ((same.checkpoints? ns).symm.trans stored)
    exact ⟨keep, carried ns checkpoints keep keeps, covers⟩
  · rw [Dict.mem_keys_iff, same.writes key mine, ← Dict.mem_keys_iff] at member
    obtain ⟨checkpoints, keep, id, stored, keeps, rest⟩ := settled.writes key member mine
    subst mine
    exact ⟨checkpoints, keep, id, (same.checkpoints? _).trans stored, carried _ _ _ keeps, rest⟩
  · rw [Dict.mem_keys_iff, same.blobs key mine, ← Dict.mem_keys_iff] at member
    obtain ⟨checkpoints, keep, id, entry, stored, keeps, rest⟩ := settled.blobs key member mine
    subst mine
    exact ⟨checkpoints, keep, id, entry, (same.checkpoints? _).trans stored, carried _ _ _ keeps, rest⟩

/-- What the loop over the namespaces does when each of them keeps everything. -/
theorem pruneNamespaces_covered {l : List (String × Checkpoints)} {acc acc' : PruneAcc} {blobs : Dict BlobKey Typed}
    (run : l.foldlM (pruneNamespace serde fuel blobs threadId) acc = some acc')
    (stored : ∀ item ∈ l, acc.namespaces.get? item.1 = some item.2)
    (covers : ∀ item ∈ l, ∃ keep, Keeps serde fuel blobs threadId item.1 item.2 keep ∧
      ∀ id ∈ item.2.keys, id ∈ keep) :
    acc'.namespaces = acc.namespaces ∧ acc'.removedSize = acc.removedSize ∧
      acc'.removedCheckpoints = acc.removedCheckpoints := by
  induction l generalizing acc with
  | nil => cases Option.some.inj run; exact ⟨rfl, rfl, rfl⟩
  | cons item l ih =>
    obtain ⟨middle, first, rest⟩ := Option.bind_eq_some_iff.mp run
    obtain ⟨keep, keeps, all⟩ := covers item (List.mem_cons_self ..)
    rcases pruneNamespace_cases first with ⟨empty, _⟩ | ⟨keep', keeps', rfl⟩
    · exact absurd empty keeps.nonempty
    · cases keeps.unique keeps'
      have everything : item.2.filter (fun id _ => keep.contains id) = item.2 :=
        Dict.filter_eq_self (fun id _ member => by simpa using all id (List.mem_map_of_mem member))
      have nothing : item.2.filter (fun id _ => !keep.contains id) = .empty :=
        Dict.filter_eq_empty (fun id _ member => by simpa using all id (List.mem_map_of_mem member))
      have same : (acc.keepNamespace serde threadId item.1 item.2 keep).namespaces = acc.namespaces := by
        rw [PruneAcc.keepNamespace, everything]
        exact Dict.set_eq_self (stored item (List.mem_cons_self ..))
      obtain ⟨namespaces, size, checkpoints⟩ := ih rest
        (fun item member => same ▸ stored item (List.mem_cons_of_mem _ member))
        (fun item member => covers item (List.mem_cons_of_mem _ member))
      refine ⟨namespaces.trans same, size.trans ?_, checkpoints.trans ?_⟩
      · simp only [PruneAcc.keepNamespace, nothing, Dict.sum_empty, Nat.add_zero]
      · simp only [PruneAcc.keepNamespace, nothing, Dict.empty, List.length_nil, Nat.add_zero]

/-- A settled thread is pruned to itself. -/
theorem Settled.pruneThread_eq (settled : Settled serde fuel m threadId) :
    pruneThread serde fuel m threadId = some m := by
  have ends : (pruneThread serde fuel m threadId).isSome :=
    pruneThread_isSome.mpr (fun ns checkpoints stored _ =>
      (settled.namespaces ns checkpoints stored).imp (fun keep keeps => keeps.1))
  obtain ⟨m', run⟩ := Option.isSome_iff_exists.mp ends
  rcases pruneThread_cases run with ⟨rfl, _⟩ | pruned
  · exact run
  · rw [run]
    unfold pruneThread at run
    cases stored : m.storage.get? threadId with
    | none => simpa [stored] using run.symm
    | some namespaces =>
      simp only [stored] at run
      split at run
      · exact run.symm
      · obtain ⟨acc, fold, run⟩ := Option.bind_eq_some_iff.mp run
        obtain ⟨same, size, removed⟩ := pruneNamespaces_covered fold
          (fun item member => Dict.mem_entries_iff.mp member)
          (fun item member => settled.namespaces item.1 item.2 (by
            simpa [Containers.checkpoints?, stored] using Dict.mem_entries_iff.mp member))
        cases Option.some.inj run
        have writes : ∀ key group, (key, group) ∈ m.writes.entries → (decide (key.thread = threadId) &&
            !acc.keptWriteKeys.contains (key.thread, key.ns, key.checkpoint.str)) = false := by
          intro key group member
          have atKey := Dict.mem_entries_iff.mp member
          have kept := pruned.write_kept key (settled.writes key (Dict.mem_keys_iff.mpr ⟨group, atKey⟩))
          simpa only [Dict.get?_filter, atKey, Option.filter_eq_some_iff, true_and, Bool.not_eq_true'] using kept
        have blobs : ∀ key blob, (key, blob) ∈ m.blobs.entries → (decide (key.thread = threadId) &&
            !acc.keptBlobKeys.contains key) = false := by
          intro key blob member
          have atKey := Dict.mem_entries_iff.mp member
          have kept := pruned.blob_kept key (settled.blobs key (Dict.mem_keys_iff.mpr ⟨blob, atKey⟩))
          simpa only [Dict.get?_filter, atKey, Option.filter_eq_some_iff, true_and, Bool.not_eq_true'] using kept
        rw [Dict.filter_eq_empty writes, Dict.filter_eq_empty blobs, same, size, removed,
          Dict.set_eq_self stored, Dict.filter_eq_self (fun key group member => by rw [writes key group member]; rfl),
          Dict.filter_eq_self (fun key blob member => by rw [blobs key blob member]; rfl)]
        simp only [Dict.sum_empty, add_zero, Int.ofNat_zero, neg_zero, CheckpointSizeState.adjust_zero settled.size]

/-- Nothing is left to prune: no namespace is stored, or the thread is settled. -/
def AtRest (serde : Serde) (fuel : Nat) (m : Memory) (threadId : String) : Prop :=
  (∀ namespaces, m.storage.get? threadId = some namespaces → namespaces.entries = []) ∨
    Settled serde fuel m threadId

theorem AtRest.pruneThread_eq (rest : AtRest serde fuel m threadId) :
    pruneThread serde fuel m threadId = some m := by
  rcases rest with nothing | settled
  · unfold pruneThread
    cases stored : m.storage.get? threadId with
    | none => rfl
    | some namespaces => simp only [nothing namespaces stored, List.isEmpty_nil, if_true]
  · exact settled.pruneThread_eq

theorem AtRest.sameThread (rest : AtRest serde fuel m threadId) (same : SameThread m m' threadId) :
    AtRest serde fuel m' threadId :=
  rest.imp (fun nothing => same.storage ▸ nothing) (fun settled => settled.sameThread same)

theorem pruneThread_atRest (run : pruneThread serde fuel m threadId = some m') :
    AtRest serde fuel m' threadId := by
  rcases pruneThread_cases run with ⟨rfl, nothing⟩ | pruned
  · exact .inl nothing
  have size : (∀ namespaces, m'.storage.get? threadId = some namespaces → namespaces.entries = []) ∨
      m'.sizeState.byThread.get? threadId ≠ some (0, 0) := by
    unfold pruneThread at run
    cases stored : m.storage.get? threadId with
    | none =>
      simp only [stored, Option.some.injEq] at run
      exact .inl (by simp [← run, stored])
    | some namespaces =>
      simp only [stored] at run
      split at run
      · rename_i empty
        cases Option.some.inj run
        refine .inl (fun other same => ?_)
        cases stored.symm.trans same
        exact List.isEmpty_iff.mp empty
      · obtain ⟨acc, _, run⟩ := Option.bind_eq_some_iff.mp run
        cases Option.some.inj run
        exact .inr (CheckpointSizeState.byThread_record_ne_zero _ _ _)
  exact size.imp id pruned.settled

end Settled

/-- A fold whose every step stays where it is. -/
theorem foldlM_fixed {α β : Type*} {f : β → α → Option β} {b : β} {l : List α}
    (fixed : ∀ a ∈ l, f b a = some b) : l.foldlM f b = some b := by
  induction l with
  | nil => rfl
  | cons a l ih =>
    rw [List.foldlM_cons, fixed a (List.mem_cons_self ..)]
    exact ih (fun a member => fixed a (List.mem_cons_of_mem _ member))

section Runs

variable {serde : Serde} {fuel : Nat} {m m' : Memory} {threadIds : List PyId} {t : String}

/-- A run leaves alone what it does not list and what is already at rest. -/
theorem pruneThreads_sameThread (run : threadIds.foldlM (fun m id => pruneThread serde fuel m id.str) m = some m')
    (spared : t ∉ threadIds.map PyId.str ∨ AtRest serde fuel m t) : SameThread m m' t := by
  induction threadIds generalizing m with
  | nil => cases Option.some.inj run; exact .refl _ t
  | cons id threadIds ih =>
    obtain ⟨middle, first, rest⟩ := Option.bind_eq_some_iff.mp run
    have step : SameThread m middle t := by
      by_cases here : t = id.str
      · rcases spared with unlisted | atRest
        · exact absurd (here ▸ List.mem_cons_self ..) unlisted
        · cases (here ▸ atRest).pruneThread_eq.symm.trans first
          exact .refl m t
      · exact pruneThread_sameThread first here
    refine step.trans (ih rest (spared.imp (fun unlisted member => ?_) (fun atRest => atRest.sameThread step)))
    exact unlisted (List.mem_cons_of_mem _ member)

theorem pruneThreads_atRest
    (run : threadIds.foldlM (fun m id => pruneThread serde fuel m id.str) m = some m')
    (listed : t ∈ threadIds.map PyId.str) : AtRest serde fuel m' t := by
  induction threadIds generalizing m with
  | nil => cases listed
  | cons id threadIds ih =>
    obtain ⟨middle, first, rest⟩ := Option.bind_eq_some_iff.mp run
    rcases List.mem_cons.mp listed with rfl | later
    · have atRest := pruneThread_atRest first
      exact atRest.sameThread (pruneThreads_sameThread rest (.inr atRest))
    · exact ih rest later

theorem pruneThreads_exactly (texts : m.TextIds) (acyclic : m.AcyclicParents)
    (run : threadIds.foldlM (fun m id => pruneThread serde fuel m id.str) m = some m')
    (listed : t ∈ threadIds.map PyId.str) {ns : String} {checkpoints : Checkpoints}
    (stored : m.checkpoints? t ns = some checkpoints) : PrunedExactly serde m m' t := by
  induction threadIds generalizing m with
  | nil => cases listed
  | cons id threadIds ih =>
    obtain ⟨middle, first, rest⟩ := Option.bind_eq_some_iff.mp run
    by_cases here : t = id.str
    · subst here
      rcases pruneThread_cases first with ⟨_, nothing⟩ | pruned
      · obtain ⟨namespaces, atThread, atNs⟩ := Option.bind_eq_some_iff.mp stored
        have empty := nothing namespaces atThread
        simp [Dict.get?, empty] at atNs
      · exact SameThread.after (pruned.exactly texts acyclic)
          (pruneThreads_sameThread rest (.inr (pruneThread_atRest first)))
    · have step := pruneThread_sameThread first here
      have later : t ∈ threadIds.map PyId.str := (List.mem_cons.mp listed).resolve_left here
      exact step.before (ih (pruneThread_textIds texts first) (pruneThread_acyclic acyclic first) rest later
        ((step.checkpoints? ns).trans stored))

end Runs

/-- `prune(strategy="keep_latest")` ends and is exact: each listed thread with a
namespace keeps what has to remain and nothing else, every other thread is as
before, and pruning the list again changes nothing. -/
theorem prune_keepLatest_exact (serde : Serde) (base : BaseSaver) (m : Memory) (threadIds : List PyId)
    (texts : m.TextIds) (acyclic : m.AcyclicParents) :
    ∃ m', Fuel.Settles (fun fuel => prune serde fuel base m threadIds .keepLatest) (.ok m') ∧
      (∀ threadId ∈ threadIds.map PyId.str, ∀ ns checkpoints, m.checkpoints? threadId ns = some checkpoints →
        PrunedExactly serde m m' threadId) ∧
      (∀ threadId, threadId ∉ threadIds.map PyId.str ∨ (∀ ns, m.checkpoints? threadId ns = none) →
        SameThread m m' threadId) ∧
      Fuel.Settles (fun fuel => prune serde fuel base m' threadIds .keepLatest) (.ok m') := by
  obtain ⟨m', enough, run⟩ := pruneThreads_settle serde acyclic threadIds
  have ran := run enough le_rfl
  refine ⟨m', ⟨enough, fun fuel le => by simp only [prune, run fuel le, Option.map_some]⟩,
    fun threadId listed ns checkpoints stored => pruneThreads_exactly texts acyclic ran listed stored,
    fun threadId spared => pruneThreads_sameThread ran (spared.imp id (fun nothing => .inl ?_)),
    enough, fun fuel le => ?_⟩
  · intro namespaces atThread
    refine List.eq_nil_iff_forall_not_mem.mpr (fun item member => ?_)
    have atNs := nothing item.1
    rw [Containers.checkpoints?, atThread, Option.bind_some, Dict.mem_entries_iff.mp member] at atNs
    cases atNs
  · have again : threadIds.foldlM (fun m id => pruneThread serde fuel m id.str) m' = some m' :=
      foldlM_fixed (fun id member =>
        (pruneThreads_atRest (run fuel le) (List.mem_map_of_mem member)).pruneThread_eq)
    simp only [prune, again, Option.map_some]

theorem prune_keepLatest_exact_delta :
    ∃ m', Fuel.Settles (fun fuel => prune deltaSerde fuel plainBase deltaMemory [.text "t"] .keepLatest) (.ok m') ∧
      PrunedExactly deltaSerde deltaMemory m' "t" ∧ SameThread deltaMemory m' "other" ∧
      Fuel.Settles (fun fuel => prune deltaSerde fuel plainBase m' [.text "t"] .keepLatest) (.ok m') := by
  obtain ⟨m', settles, exactly, spared, again⟩ := prune_keepLatest_exact deltaSerde plainBase deltaMemory
    [.text "t"] (.of_entries (by decide)) (.of_growing_ids (by decide))
  exact ⟨m', settles, exactly "t" (by decide) "" _ rfl, spared "other" (.inl (by decide)), again⟩

end InmemRuntime
