import InmemRuntime.PruneSpec
import InmemRuntime.Lib.Fuel

namespace InmemRuntime

namespace Containers

def checkpointAt? (c : Containers) (threadId ns : String) (id : PyId) : Option CheckpointEntry :=
  (c.checkpoints? threadId ns).bind (fun checkpoints => checkpoints.get? id)

/-- `latestId` is stored in the namespace and its text is the greatest there. -/
def Newest (c : Containers) (threadId ns : String) (latestId : PyId) : Prop :=
  (∃ entry, c.checkpointAt? threadId ns latestId = some entry) ∧
    ∀ id entry, c.checkpointAt? threadId ns id = some entry → id.str ≤ latestId.str

/-- Checkpoint ids are strings in every namespace. -/
def TextIds (c : Containers) : Prop :=
  ∀ threadId ns id entry, c.checkpointAt? threadId ns id = some entry → ∃ s, id = .text s

/-- No checkpoint is its own ancestor inside its namespace. -/
def AcyclicParents (c : Containers) : Prop :=
  ∀ threadId ns checkpoints, c.checkpoints? threadId ns = some checkpoints →
    checkpoints.Acyclic CheckpointEntry.parent

theorem mem_of_checkpoints? {c : Containers} {threadId ns : String} {checkpoints : Checkpoints}
    (stored : c.checkpoints? threadId ns = some checkpoints) :
    ∃ t ∈ c.storage.entries, ∃ n ∈ t.2.entries, n.2 = checkpoints := by
  obtain ⟨namespaces, atThread, atNs⟩ := Option.bind_eq_some_iff.mp stored
  exact ⟨_, Dict.mem_entries_iff.mpr atThread, _, Dict.mem_entries_iff.mpr atNs, rfl⟩

/-- Ids that grow from parent to child, as the ids LangGraph generates do. -/
theorem AcyclicParents.of_growing_ids {c : Containers}
    (growing : ∀ t ∈ c.storage.entries, ∀ n ∈ t.2.entries, ∀ item ∈ n.2.entries,
      ∀ b ∈ item.2.parent, b.str < item.1.str) : c.AcyclicParents := by
  intro threadId ns checkpoints stored
  obtain ⟨t, atThread, n, atNs, rfl⟩ := mem_of_checkpoints? stored
  exact Dict.Acyclic.of_lt PyId.str (growing t atThread n atNs)

theorem TextIds.of_entries {c : Containers}
    (texts : ∀ t ∈ c.storage.entries, ∀ n ∈ t.2.entries, ∀ item ∈ n.2.entries,
      item.1 = .text item.1.str) : c.TextIds := by
  intro threadId ns id entry atId
  obtain ⟨checkpoints, stored, found⟩ := Option.bind_eq_some_iff.mp atId
  obtain ⟨t, atThread, n, atNs, rfl⟩ := mem_of_checkpoints? stored
  exact ⟨_, texts t atThread n atNs _ (Dict.mem_entries_iff.mpr found)⟩

/-- The blob of a channel at the checkpoint's own version, if it is there and not `empty`. -/
def materialized? (serde : Serde) (c : Containers) (threadId ns : String) (entry : CheckpointEntry)
    (channel : String) : Option Typed :=
  match (serde.channelVersions entry).get? channel with
  | none => none
  | some version =>
    (c.blobs.get? ⟨threadId, ns, channel, version⟩).filter (fun blob => blob.kind ≠ "empty")

end Containers

/-- One checkpoint met on the way back: its entry, its whole write group, and
the channel's blob where the walk ends. -/
structure HistoryStep where
  id : PyId
  entry : CheckpointEntry
  writes : Option WriteGroup
  blob : Option Typed

/-- What a channel's value is rebuilt from: the checkpoints from a start id
along parent ids up to the first that materializes the channel, or to an
absent parent. -/
inductive ChannelHistory (serde : Serde) (c : Containers) (threadId ns channel : String) :
    Option PyId → List HistoryStep → Prop
  | root : ChannelHistory serde c threadId ns channel none []
  | missing {id} : c.checkpointAt? threadId ns id = none →
      ChannelHistory serde c threadId ns channel (some id) []
  | found {id entry blob} : c.checkpointAt? threadId ns id = some entry →
      c.materialized? serde threadId ns entry channel = some blob →
      ChannelHistory serde c threadId ns channel (some id)
        [⟨id, entry, c.writes.get? ⟨threadId, ns, id⟩, some blob⟩]
  | next {id entry rest} : c.checkpointAt? threadId ns id = some entry →
      c.materialized? serde threadId ns entry channel = none →
      ChannelHistory serde c threadId ns channel entry.parent rest →
      ChannelHistory serde c threadId ns channel (some id)
        (⟨id, entry, c.writes.get? ⟨threadId, ns, id⟩, none⟩ :: rest)

namespace ChannelHistory

variable {serde : Serde} {c c' : Containers} {threadId ns channel : String}

theorem unique {start : Option PyId} {h h' : List HistoryStep}
    (one : ChannelHistory serde c threadId ns channel start h)
    (two : ChannelHistory serde c threadId ns channel start h') : h = h' := by
  induction one generalizing h' with
  | root => cases two; rfl
  | missing absent =>
    cases two with
    | missing => rfl
    | found atId => rw [absent] at atId; cases atId
    | next atId => rw [absent] at atId; cases atId
  | found atId blob =>
    cases two with
    | missing absent => rw [absent] at atId; cases atId
    | found atId' blob' => cases atId.symm.trans atId'; cases blob.symm.trans blob'; rfl
    | next atId' none' => cases atId.symm.trans atId'; cases blob.symm.trans none'
  | next atId noBlob _ ih =>
    cases two with
    | missing absent => rw [absent] at atId; cases atId
    | found atId' blob' => cases atId.symm.trans atId'; cases noBlob.symm.trans blob'
    | next atId' _ rest' => cases atId.symm.trans atId'; rw [ih rest']

/-- A history carries over when the second state agrees with the first on
every checkpoint of the history and stores nothing new. -/
theorem transfer {start : Option PyId} {h : List HistoryStep}
    (history : ChannelHistory serde c threadId ns channel start h) (kept : PyId → Prop) (inside : ∀ s ∈ h, kept s.id)
    (entries : ∀ id, kept id → c'.checkpointAt? threadId ns id = c.checkpointAt? threadId ns id)
    (nothingNew : ∀ id, c.checkpointAt? threadId ns id = none → c'.checkpointAt? threadId ns id = none)
    (writes : ∀ id, kept id → c'.writes.get? ⟨threadId, ns, id⟩ = c.writes.get? ⟨threadId, ns, id⟩)
    (blobs : ∀ id entry, kept id → c.checkpointAt? threadId ns id = some entry →
      c'.materialized? serde threadId ns entry channel = c.materialized? serde threadId ns entry channel) :
    ChannelHistory serde c' threadId ns channel start h := by
  induction history with
  | root => exact .root
  | missing absent => exact .missing (nothingNew _ absent)
  | @found id entry blob atId materialized =>
    have here : kept id := inside _ (List.mem_cons_self ..)
    rw [← writes id here]
    exact .found ((entries id here).trans atId) ((blobs id entry here atId).trans materialized)
  | @next id entry rest atId unmaterialized _ ih =>
    have here : kept id := inside _ (List.mem_cons_self ..)
    rw [← writes id here]
    exact .next ((entries id here).trans atId) ((blobs id entry here atId).trans unmaterialized)
      (ih (fun s member => inside s (List.mem_cons_of_mem _ member)))

variable (serde channel) in
theorem exists_of_chain {checkpoints : Checkpoints}
    (stored : c.checkpoints? threadId ns = some checkpoints) {start : Option PyId}
    {chain : List (PyId × CheckpointEntry)}
    (walk : checkpoints.ParentChain CheckpointEntry.parent start chain) :
    ∃ h, ChannelHistory serde c threadId ns channel start h := by
  induction walk with
  | root => exact ⟨[], .root⟩
  | missing absent => exact ⟨[], .missing (by simp [Containers.checkpointAt?, stored, absent])⟩
  | @next id entry rest found walk ih =>
    have atId : c.checkpointAt? threadId ns id = some entry := by
      simp [Containers.checkpointAt?, stored, found]
    cases blob : c.materialized? serde threadId ns entry channel with
    | some value => exact ⟨_, .found atId blob⟩
    | none =>
      obtain ⟨h, tail⟩ := ih
      exact ⟨_, .next atId blob tail⟩

end ChannelHistory

section Step

variable {serde : Serde} {fuel : Nat} {m m' : Memory} {threadId ns : String}
  {checkpoints : Checkpoints}

theorem materialized?_eq_none {c : Containers} {entry : CheckpointEntry} {channel : String}
    {version : Version} (named : (serde.channelVersions entry).get? channel = some version) :
    c.materialized? serde threadId ns entry channel = none ↔
      isUnmaterialized (c.blobs.get? ⟨threadId, ns, channel, version⟩) = true := by
  simp only [Containers.materialized?, named]
  cases c.blobs.get? ⟨threadId, ns, channel, version⟩ <;> simp [isUnmaterialized, Option.filter]

/-- A channel that a checkpoint does not materialize stays needed past it. -/
theorem mem_stillNeeded {c : Containers} {entry : CheckpointEntry} {channel : String}
    {needed : List String} (member : channel ∈ needed)
    (unmaterialized : c.materialized? serde threadId ns entry channel = none) :
    channel ∈ stillNeeded serde c.blobs threadId ns entry needed := by
  refine List.mem_filter.mpr ⟨member, ?_⟩
  cases named : (serde.channelVersions entry).get? channel with
  | none => rfl
  | some version =>
    have empty := (materialized?_eq_none named).mp unmaterialized
    cases version with
    | none => rfl
    | _ => exact empty

/-- The shared walk retains the whole history of every channel that is still
needed: as long as one of them is not met, no checkpoint is passed over. -/
theorem keepAncestors_covers {c : Containers} {channel : String} {start : Option PyId}
    {h : List HistoryStep} (stored : c.checkpoints? threadId ns = some checkpoints)
    (history : ChannelHistory serde c threadId ns channel start h)
    {needed : List String} (member : channel ∈ needed) {keep kept : List PyId}
    (run : keepAncestors serde c.blobs threadId ns checkpoints fuel start needed keep = some kept) :
    ∀ s ∈ h, s.id ∈ kept := by
  have lookup : ∀ id, c.checkpointAt? threadId ns id = checkpoints.get? id := by
    intro id; simp [Containers.checkpointAt?, stored]
  induction fuel generalizing start needed keep h with
  | zero =>
    cases history with
    | root => simp
    | missing => simp
    | found => cases needed <;> simp_all [keepAncestors]
    | next => cases needed <;> simp_all [keepAncestors]
  | succ fuel ih =>
    obtain ⟨first, needed, rfl⟩ := List.exists_cons_of_ne_nil (List.ne_nil_of_mem member)
    cases history with
    | root => simp
    | missing => simp
    | @found id entry blob atId materialized =>
      rw [lookup] at atId
      simp only [keepAncestors, atId] at run
      intro s inside
      rw [List.mem_singleton.mp inside]
      exact (keepAncestors_adds run).1 (List.mem_cons_self ..)
    | @next id entry rest atId unmaterialized tail =>
      rw [lookup] at atId
      simp only [keepAncestors, atId] at run
      intro s inside
      rcases List.mem_cons.mp inside with rfl | later
      · exact (keepAncestors_adds run).1 (List.mem_cons_self ..)
      · exact ih tail (mem_stillNeeded member unmaterialized) run s later

theorem Newest.eq_latestId {c : Containers} {latestId : PyId} (texts : c.TextIds)
    (newest : c.Newest threadId ns latestId)
    (stored : c.checkpoints? threadId ns = some checkpoints) :
    latestId? checkpoints = some latestId := by
  have lookup : ∀ id, c.checkpointAt? threadId ns id = checkpoints.get? id := by
    intro id; simp [Containers.checkpointAt?, stored]
  obtain ⟨⟨entry, atLatest⟩, greatest⟩ := newest
  rw [lookup] at atLatest
  cases chosen : latestId? checkpoints with
  | none =>
    have absent := latestId?_eq_none.mp chosen
    simp [Dict.get?, absent] at atLatest
  | some id =>
    obtain ⟨other, atId⟩ := latestId?_stored chosen
    have below := greatest id other (by rw [lookup, atId])
    have above : latestId.str ≤ id.str :=
      List.le_of_mem_argmax (Dict.mem_keys_iff.mpr ⟨entry, atLatest⟩) chosen
    obtain ⟨s, rfl⟩ := texts threadId ns id other (by rw [lookup, atId])
    obtain ⟨s', rfl⟩ := texts threadId ns latestId entry (by rw [lookup, atLatest])
    have same : s = s' := le_antisymm below above
    rw [same]

/-- The state at the newest checkpoint of a namespace is rebuilt in `m'` as in `m`. -/
structure Preserved (serde : Serde) (m m' : Memory) (threadId ns : String) (latestId : PyId) :
    Prop where
  newest : m'.Newest threadId ns latestId
  entry : m'.checkpointAt? threadId ns latestId = m.checkpointAt? threadId ns latestId
  writes : m'.writes.get? ⟨threadId, ns, latestId⟩ = m.writes.get? ⟨threadId, ns, latestId⟩
  histories : ∀ latest channel version, m.checkpointAt? threadId ns latestId = some latest →
    (serde.channelVersions latest).get? channel = some version → ∀ h,
      ChannelHistory serde m.toContainers threadId ns channel (some latestId) h →
        ChannelHistory serde m'.toContainers threadId ns channel (some latestId) h

theorem Preserved.refl {latestId : PyId} (newest : m.Newest threadId ns latestId) :
    Preserved serde m m threadId ns latestId :=
  ⟨newest, rfl, rfl, fun _ _ _ _ _ _ h => h⟩

theorem Preserved.trans {m'' : Memory} {latestId : PyId}
    (first : Preserved serde m m' threadId ns latestId)
    (second : Preserved serde m' m'' threadId ns latestId) :
    Preserved serde m m'' threadId ns latestId where
  newest := second.newest
  entry := second.entry.trans first.entry
  writes := second.writes.trans first.writes
  histories latest channel version atLatest named h history :=
    second.histories latest channel version (first.entry.trans atLatest) named h
      (first.histories latest channel version atLatest named h history)

theorem pruneThread_textIds (texts : m.TextIds) (run : pruneThread serde fuel m threadId = some m') :
    m'.TextIds := by
  intro t ns id entry atId
  obtain ⟨after, stored, found⟩ := Option.bind_eq_some_iff.mp atId
  obtain ⟨before, storedBefore, p, rfl⟩ := pruneThread_checkpoints run stored
  rw [Dict.get?_filter, Option.filter_eq_some_iff] at found
  exact texts t ns id entry (by simp [Containers.checkpointAt?, storedBefore, found.1])

theorem pruneThread_acyclic (acyclic : m.AcyclicParents)
    (run : pruneThread serde fuel m threadId = some m') : m'.AcyclicParents := by
  intro t ns after stored
  obtain ⟨before, storedBefore, p, rfl⟩ := pruneThread_checkpoints run stored
  exact (acyclic t ns before storedBefore).filter p

/-- Pruning one thread preserves what is rebuilt at any newest checkpoint, of
this thread or another. -/
theorem pruneThread_preserves {t : String} {latestId : PyId} (texts : m.TextIds)
    (newest : m.Newest t ns latestId) (run : pruneThread serde fuel m threadId = some m') :
    Preserved serde m m' t ns latestId := by
  rcases pruneThread_cases run with ⟨rfl, _⟩ | pruned
  · exact .refl newest
  by_cases other : t = threadId
  · subst other
    obtain ⟨⟨latest, atLatest⟩, greatest⟩ := newest
    obtain ⟨checkpoints, stored, found⟩ := Option.bind_eq_some_iff.mp atLatest
    have chosen := Newest.eq_latestId texts ⟨⟨latest, atLatest⟩, greatest⟩ stored
    have nonempty : checkpoints.entries ≠ [] := by
      intro empty
      rw [latestId?_eq_none.mpr empty] at chosen
      cases chosen
    obtain ⟨keep, keeps, stored'⟩ := pruned.namespace_kept ns checkpoints stored nonempty
    have lookup : ∀ id, m.checkpointAt? t ns id = checkpoints.get? id := by
      intro id; simp [Containers.checkpointAt?, stored]
    have lookup' : ∀ id, m'.checkpointAt? t ns id = (checkpoints.get? id).filter
        (fun _ => keep.contains id) := by
      intro id; simp [Containers.checkpointAt?, stored', Dict.get?_filter]
    have entries : ∀ id ∈ keep, m'.checkpointAt? t ns id = m.checkpointAt? t ns id := by
      intro id inside
      rw [lookup, lookup']
      cases checkpoints.get? id <;> simp [Option.filter, inside]
    have nothingNew : ∀ id, m.checkpointAt? t ns id = none → m'.checkpointAt? t ns id = none := by
      intro id absent
      rw [lookup] at absent
      rw [lookup', absent, Option.filter_none]
    have writes : ∀ id ∈ keep, m'.writes.get? ⟨t, ns, id⟩ = m.writes.get? ⟨t, ns, id⟩ := by
      intro id inside
      exact pruned.write_kept _ (fun _ => ⟨checkpoints, keep, id, stored, keeps, inside, rfl⟩)
    have blobs : ∀ channel id entry, id ∈ keep → m.checkpointAt? t ns id = some entry →
        m'.materialized? serde t ns entry channel = m.materialized? serde t ns entry channel := by
      intro channel id entry inside atId
      cases named : (serde.channelVersions entry).get? channel with
      | none => simp [Containers.materialized?, named]
      | some version =>
        rw [lookup] at atId
        have same : m'.blobs.get? ⟨t, ns, channel, version⟩ = m.blobs.get? ⟨t, ns, channel, version⟩ :=
          pruned.blob_kept _
            (fun _ => ⟨checkpoints, keep, id, entry, stored, keeps, inside, atId, named⟩)
        simp [Containers.materialized?, named, same]
    obtain ⟨id, entry, chosen', found', walk⟩ := keeps
    cases chosen.symm.trans chosen'
    cases found.symm.trans found'
    have latestKept : latestId ∈ keep := (keepAncestors_adds walk).1 (List.mem_singleton_self _)
    refine ⟨⟨⟨latest, (entries _ latestKept).trans atLatest⟩, ?_⟩, entries _ latestKept,
      writes _ latestKept, ?_⟩
    · intro id entry atId
      rw [lookup', Option.filter_eq_some_iff, ← lookup] at atId
      exact greatest id entry atId.1
    · intro latest' channel version atLatest' named h history
      cases atLatest.symm.trans atLatest'
      refine history.transfer (· ∈ keep) ?_ entries nothingNew writes (blobs channel)
      cases history with
      | missing absent => simp
      | found atId blob => simpa using latestKept
      | @next _ entry rest atId unmaterialized tail =>
        cases atLatest.symm.trans atId
        intro s inside
        rcases List.mem_cons.mp inside with rfl | later
        · exact latestKept
        · have needed : channel ∈ neededChannels serde m.blobs t ns latest := by
            refine List.mem_map.mpr ⟨(channel, version), List.mem_filter.mpr
              ⟨Dict.mem_entries_iff.mpr named, ?_⟩, rfl⟩
            exact (materialized?_eq_none named).mp unmaterialized
          exact keepAncestors_covers stored tail needed walk s later
  · have same : ∀ id, m'.checkpointAt? t ns id = m.checkpointAt? t ns id := by
      intro id; simp only [Containers.checkpointAt?, pruned.checkpoints_other other ns]
    have writes : ∀ id, m'.writes.get? ⟨t, ns, id⟩ = m.writes.get? ⟨t, ns, id⟩ :=
      fun id => pruned.write_kept _ (fun here => absurd here other)
    have blobs : ∀ channel version, m'.blobs.get? ⟨t, ns, channel, version⟩ =
        m.blobs.get? ⟨t, ns, channel, version⟩ :=
      fun channel version => pruned.blob_kept _ (fun here => absurd here other)
    refine ⟨?_, same latestId, writes latestId, ?_⟩
    · simpa only [Containers.Newest, same] using newest
    · intro latest channel version _ _ h history
      refine history.transfer (fun _ => True) (fun _ _ => trivial) (fun id _ => same id)
        (fun id absent => (same id).trans absent) (fun id _ => writes id) (fun id entry _ _ => ?_)
      simp only [Containers.materialized?, blobs]

/-- The same for a list of threads, in which a thread may occur repeatedly. -/
theorem pruneThreads_preserve {t : String} {latestId : PyId} {threadIds : List PyId}
    (texts : m.TextIds) (newest : m.Newest t ns latestId)
    (run : threadIds.foldlM (fun m id => pruneThread serde fuel m id.str) m = some m') :
    Preserved serde m m' t ns latestId := by
  induction threadIds generalizing m with
  | nil => cases Option.some.inj run; exact .refl newest
  | cons id threadIds ih =>
    obtain ⟨middle, first, rest⟩ := Option.bind_eq_some_iff.mp run
    have step := pruneThread_preserves texts newest first
    exact step.trans (ih (pruneThread_textIds texts first) step.newest rest)

end Step

section Termination

variable {serde : Serde} {m : Memory} {threadId ns : String}

variable (serde threadId ns) in
theorem keepIds_settles (blobs : Dict BlobKey Typed) {checkpoints : Checkpoints}
    (acyclic : checkpoints.Acyclic CheckpointEntry.parent) (latestId : PyId)
    (latest : CheckpointEntry) : ∃ keep,
      Fuel.Settles (fun fuel => keepIds serde blobs threadId ns fuel checkpoints latestId latest) keep := by
  obtain ⟨chain, walk⟩ := acyclic.exists_chain latest.parent
  obtain ⟨keep, run⟩ : ∃ keep, keepIds serde blobs threadId ns (chain.length + 1) checkpoints latestId latest =
      some keep :=
    keepAncestors_total walk (Nat.lt_succ_self _) _ _
  exact ⟨keep, Fuel.Settles.of_mono run (fun _ _ le => keepAncestors_mono le)⟩

theorem pruneNamespace_settles {blobs : Dict BlobKey Typed} {checkpoints : Checkpoints}
    (acyclic : checkpoints.Acyclic CheckpointEntry.parent) (acc : PruneAcc) : ∃ acc',
      Fuel.Settles (fun fuel => pruneNamespace serde fuel blobs threadId acc (ns, checkpoints)) acc' := by
  unfold pruneNamespace
  cases newest : latestId? checkpoints with
  | none => exact ⟨_, .const _⟩
  | some latestId =>
    obtain ⟨latest, found⟩ := latestId?_stored newest
    obtain ⟨keep, settled⟩ := keepIds_settles serde threadId ns blobs acyclic latestId latest
    simp only [found, Option.bind_eq_bind, Option.bind_some]
    exact ⟨_, settled.bind (.const _)⟩

variable (serde) in
theorem pruneThread_settles (acyclic : m.AcyclicParents) (threadId : String) :
    ∃ m', Fuel.Settles (fun fuel => pruneThread serde fuel m threadId) m' := by
  unfold pruneThread
  cases stored : m.storage.get? threadId with
  | none => exact ⟨m, .const m⟩
  | some namespaces =>
    by_cases empty : namespaces.entries.isEmpty
    · simp only [empty, if_true]
      exact ⟨m, .const m⟩
    · simp only [empty, Bool.false_eq_true, if_false, Option.bind_eq_bind]
      obtain ⟨acc, fold, _⟩ := Fuel.exists_settles_foldlM
        (fun fuel => pruneNamespace serde fuel m.blobs threadId) (fun _ => True) namespaces.entries
        ⟨namespaces, [], [], 0, 0⟩ (by
          rintro acc _ ⟨ns, checkpoints⟩ member
          have here : m.checkpoints? threadId ns = some checkpoints := by
            simpa [Containers.checkpoints?, stored] using Dict.mem_entries_iff.mp member
          obtain ⟨acc', settled⟩ := pruneNamespace_settles (acyclic threadId ns checkpoints here) acc
          exact ⟨acc', settled, trivial⟩) trivial
      exact ⟨_, fold.bind (.const _)⟩

theorem pruneThreads_acyclic {threadIds : List PyId} (acyclic : m.AcyclicParents)
    (run : threadIds.foldlM (fun m id => pruneThread serde fuel m id.str) m = some m') : m'.AcyclicParents := by
  induction threadIds generalizing m with
  | nil => cases run; exact acyclic
  | cons threadId threadIds ih =>
    rw [List.foldlM_cons] at run
    obtain ⟨middle, first, rest⟩ := Option.bind_eq_some_iff.mp run
    exact ih (pruneThread_acyclic acyclic first) rest

variable (serde) in
theorem pruneThreads_settle (acyclic : m.AcyclicParents) (threadIds : List PyId) :
    ∃ m', Fuel.Settles (fun fuel =>
      threadIds.foldlM (fun m id => pruneThread serde fuel m id.str) m) m' := by
  obtain ⟨m', settled, _⟩ := Fuel.exists_settles_foldlM
    (fun fuel m id => pruneThread serde fuel m (PyId.str id)) (fun m => m.AcyclicParents) threadIds m (by
      intro m acyclic id _
      obtain ⟨m', settled⟩ := pruneThread_settles serde acyclic id.str
      obtain ⟨enough, run⟩ := settled
      exact ⟨m', ⟨enough, run⟩, pruneThread_acyclic acyclic (run enough le_rfl)⟩) acyclic
  exact ⟨m', settled⟩

end Termination

/-- `prune(strategy="keep_latest")` ends, and at the newest checkpoint of every
namespace of a listed thread everything needed to rebuild the state is as
before: the entry, its pending writes, and for each channel of the checkpoint
the walk back to the nearest checkpoint that materializes it. -/
theorem prune_keepLatest_preserves_histories (serde : Serde) (base : BaseSaver) (m : Memory)
    (threadIds : List PyId) (texts : m.TextIds) (acyclic : m.AcyclicParents) :
    ∃ m', Fuel.Settles (fun fuel => prune serde fuel base m threadIds .keepLatest) (.ok m') ∧
      ∀ threadId ∈ threadIds.map PyId.str, ∀ ns latestId, m.Newest threadId ns latestId →
        m'.Newest threadId ns latestId ∧
        m'.checkpointAt? threadId ns latestId = m.checkpointAt? threadId ns latestId ∧
        m'.writes.get? ⟨threadId, ns, latestId⟩ = m.writes.get? ⟨threadId, ns, latestId⟩ ∧
        ∀ latest channel version, m.checkpointAt? threadId ns latestId = some latest →
          (serde.channelVersions latest).get? channel = some version →
            (∃ h, ChannelHistory serde m.toContainers threadId ns channel (some latestId) h) ∧
            ∀ h, ChannelHistory serde m.toContainers threadId ns channel (some latestId) h ↔
              ChannelHistory serde m'.toContainers threadId ns channel (some latestId) h := by
  obtain ⟨m', enough, run⟩ := pruneThreads_settle serde acyclic threadIds
  refine ⟨m', ⟨enough, fun fuel le => by simp only [prune, run fuel le, Option.map_some]⟩, ?_⟩
  intro threadId _ ns latestId newest
  have kept := pruneThreads_preserve texts newest (run enough le_rfl)
  refine ⟨kept.newest, kept.entry, kept.writes, fun latest channel version atLatest named => ?_⟩
  obtain ⟨checkpoints, stored, _⟩ := Option.bind_eq_some_iff.mp atLatest
  obtain ⟨chain, walk⟩ := (acyclic threadId ns checkpoints stored).exists_chain (some latestId)
  obtain ⟨history, rebuilt⟩ := ChannelHistory.exists_of_chain serde channel stored walk
  have carried := kept.histories latest channel version atLatest named
  refine ⟨⟨history, rebuilt⟩, fun h => ⟨carried h, fun after => ?_⟩⟩
  rw [after.unique (carried history rebuilt)]
  exact rebuilt

/-- Payloads that name their checkpoint: the channel's version is that name. -/
def deltaSerde : Serde where
  loadsTyped value := ⟨.text value.kind, ⟨[("state", .text value.kind)], List.nodup_singleton _⟩⟩
  loadsMetadata _ := []

/-- A thread with a snapshot, two deltas on it, and an obsolete fork. -/
def deltaMemory : Memory where
  storage := ⟨[("t", ⟨[("", ⟨[(.text "0001", ⟨⟨"0001", []⟩, ⟨"m", []⟩, none⟩),
    (.text "0002", ⟨⟨"0002", []⟩, ⟨"m", []⟩, some (.text "0001")⟩),
    (.text "0003", ⟨⟨"0003", []⟩, ⟨"m", []⟩, some (.text "0002")⟩),
    (.text "0002-fork", ⟨⟨"0002-fork", []⟩, ⟨"m", []⟩, some (.text "0001")⟩)], by decide⟩)],
    by decide⟩)], by decide⟩
  writes := .empty
  blobs := ⟨[(⟨"t", "", "state", .text "0001"⟩, ⟨"msgpack", [7]⟩),
    (⟨"t", "", "state", .text "0002"⟩, ⟨"empty", []⟩),
    (⟨"t", "", "state", .text "0003"⟩, ⟨"empty", []⟩)], by decide⟩
  sizeState := .cleared

theorem prune_keepLatest_preserves_histories_delta :
    ∃ m', Fuel.Settles (fun fuel => prune deltaSerde fuel plainBase deltaMemory [.text "t"] .keepLatest)
        (.ok m') ∧
      m'.checkpointAt? "t" "" (.text "0003") = deltaMemory.checkpointAt? "t" "" (.text "0003") ∧
      ∀ h, ChannelHistory deltaSerde deltaMemory.toContainers "t" "" "state" (some (.text "0003")) h ↔
        ChannelHistory deltaSerde m'.toContainers "t" "" "state" (some (.text "0003")) h := by
  obtain ⟨m', settles, kept⟩ := prune_keepLatest_preserves_histories deltaSerde plainBase deltaMemory
    [.text "t"] (.of_entries (by decide)) (.of_growing_ids (by decide))
  have newest : deltaMemory.Newest "t" "" (.text "0003") := by
    refine ⟨⟨_, rfl⟩, fun id entry atId => ?_⟩
    have listed : ∀ item ∈ (deltaMemory.checkpoints? "t" "").elim [] Dict.entries,
        item.1.str ≤ "0003" := by decide
    exact listed (id, entry) (Dict.mem_entries_iff.mpr atId)
  obtain ⟨_, entry, _, histories⟩ := kept "t" (by simp [PyId.str]) "" (.text "0003") newest
  exact ⟨m', settles, entry, (histories _ "state" _ rfl rfl).2⟩

end InmemRuntime
