import InmemRuntime.PruneExact

namespace InmemRuntime

/-- The walk back from the newest checkpoint of a namespace comes to an end: the
parents do, or each channel that the newest checkpoint lacks is met at one of them. -/
def Containers.WalkStops (serde : Serde) (c : Containers) (threadId ns : String) : Prop :=
  ∀ checkpoints latestId latest, c.checkpoints? threadId ns = some checkpoints →
    latestId? checkpoints = some latestId → checkpoints.get? latestId = some latest →
      (∃ n, checkpoints.ancestor CheckpointEntry.parent n latest.parent = none) ∨
        ∀ channel, c.Lacks serde threadId ns latest channel → ∃ n entry,
          checkpoints.ancestor CheckpointEntry.parent n latest.parent = some entry ∧
            c.Meets serde threadId ns entry channel

section Walk

variable {serde : Serde} {c : Containers} {threadId ns : String} {checkpoints : Checkpoints}

/-- A walk that ended did so with the parents, or met everything on its way. -/
theorem ends_of_keepAncestors {fuel : Nat} {start : Option PyId} {needed : List String} {keep kept : List PyId}
    (run : keepAncestors serde c.blobs threadId ns checkpoints fuel start needed keep = some kept) :
    (∃ n, checkpoints.ancestor CheckpointEntry.parent n start = none) ∨
      ∀ channel ∈ needed, ∃ n entry, checkpoints.ancestor CheckpointEntry.parent n start = some entry ∧
        c.Meets serde threadId ns entry channel := by
  induction fuel generalizing start needed keep with
  | zero =>
    cases start with
    | none => exact .inl ⟨0, rfl⟩
    | some id =>
      cases needed with
      | nil => exact .inr (fun _ member => absurd member List.not_mem_nil)
      | cons channel needed => simp [keepAncestors] at run
  | succ fuel ih =>
    cases start with
    | none => exact .inl ⟨0, rfl⟩
    | some id =>
      cases needed with
      | nil => exact .inr (fun _ member => absurd member List.not_mem_nil)
      | cons first needed =>
        simp only [keepAncestors] at run
        cases found : checkpoints.get? id with
        | none => exact .inl ⟨0, found⟩
        | some entry =>
          rw [found] at run
          have above : ∀ n, checkpoints.ancestor CheckpointEntry.parent (n + 1) (some id) =
              checkpoints.ancestor CheckpointEntry.parent n entry.parent := by
            intro n
            rw [Dict.ancestor, Option.bind_some, found, Option.bind_some]
          rcases ih run with ⟨n, last⟩ | met
          · exact .inl ⟨n + 1, (above n).trans last⟩
          · refine .inr (fun channel member => ?_)
            by_cases here : c.Meets serde threadId ns entry channel
            · exact ⟨0, entry, found, here⟩
            · obtain ⟨n, other, atN, meets⟩ := met channel (mem_stillNeeded_iff.mpr ⟨member, here⟩)
              exact ⟨n + 1, other, (above n).trans atN, meets⟩

/-- The walk ends with the parents. -/
theorem keepAncestors_of_last {n : Nat} {start : Option PyId}
    (last : checkpoints.ancestor CheckpointEntry.parent n start = none) (needed : List String) (keep : List PyId) :
    ∃ kept, keepAncestors serde c.blobs threadId ns checkpoints (n + 1) start needed keep = some kept := by
  induction n generalizing start needed keep with
  | zero =>
    cases start with
    | none => exact ⟨keep, by simp [keepAncestors]⟩
    | some id =>
      have absent : checkpoints.get? id = none := last
      cases needed with
      | nil => exact ⟨keep, by simp [keepAncestors]⟩
      | cons channel needed => exact ⟨keep, by simp [keepAncestors, absent]⟩
  | succ n ih =>
    cases start with
    | none => exact ⟨keep, by simp [keepAncestors]⟩
    | some id =>
      cases needed with
      | nil => exact ⟨keep, by simp [keepAncestors]⟩
      | cons channel needed =>
        rw [keepAncestors]
        cases found : checkpoints.get? id with
        | none => exact ⟨keep, rfl⟩
        | some entry =>
          rw [Dict.ancestor, Option.bind_some, found, Option.bind_some] at last
          exact ih last _ _

/-- The walk ends once it has come by a checkpoint for each needed channel. Each
step brings the checkpoints of the channels that are still needed one nearer. -/
theorem keepAncestors_of_met {fuel : Nat} {start : Option PyId} {needed : List String}
    (met : ∀ channel ∈ needed, ∃ n entry, n < fuel ∧
      checkpoints.ancestor CheckpointEntry.parent n start = some entry ∧ c.Meets serde threadId ns entry channel)
    (keep : List PyId) :
    ∃ kept, keepAncestors serde c.blobs threadId ns checkpoints fuel start needed keep = some kept := by
  induction fuel generalizing start needed keep with
  | zero =>
    cases needed with
    | nil => cases start <;> exact ⟨keep, by simp [keepAncestors]⟩
    | cons channel needed =>
      obtain ⟨n, _, short, _⟩ := met channel (List.mem_cons_self ..)
      omega
  | succ fuel ih =>
    cases start with
    | none => exact ⟨keep, by simp [keepAncestors]⟩
    | some id =>
      cases needed with
      | nil => exact ⟨keep, by simp [keepAncestors]⟩
      | cons first needed =>
        rw [keepAncestors]
        cases found : checkpoints.get? id with
        | none => exact ⟨keep, rfl⟩
        | some entry =>
          refine ih (fun channel member => ?_) _
          obtain ⟨listed, notHere⟩ := mem_stillNeeded_iff.mp member
          obtain ⟨n, other, short, atN, meets⟩ := met channel listed
          cases n with
          | zero =>
            cases Option.some.inj (found.symm.trans atN)
            exact absurd meets notHere
          | succ n =>
            rw [Dict.ancestor, Option.bind_some, found, Option.bind_some] at atN
            exact ⟨n, other, by omega, atN, meets⟩

theorem keepAncestors_ends_iff {start : Option PyId} {needed : List String} {keep : List PyId} :
    (∃ fuel kept, keepAncestors serde c.blobs threadId ns checkpoints fuel start needed keep = some kept) ↔
      (∃ n, checkpoints.ancestor CheckpointEntry.parent n start = none) ∨
        ∀ channel ∈ needed, ∃ n entry, checkpoints.ancestor CheckpointEntry.parent n start = some entry ∧
          c.Meets serde threadId ns entry channel := by
  constructor
  · rintro ⟨fuel, kept, run⟩
    exact ends_of_keepAncestors run
  · rintro (⟨n, last⟩ | met)
    · exact ⟨n + 1, keepAncestors_of_last last _ _⟩
    · obtain ⟨fuel, near⟩ := Fuel.exists_common (P := fun fuel channel => ∃ n entry, n < fuel ∧
          checkpoints.ancestor CheckpointEntry.parent n start = some entry ∧ c.Meets serde threadId ns entry channel)
        (fun _ _ _ le ⟨n, entry, short, rest⟩ => ⟨n, entry, short.trans_le le, rest⟩)
        (fun channel member => by
          obtain ⟨n, entry, rest⟩ := met channel member
          exact ⟨n + 1, n, entry, n.lt_succ_self, rest⟩)
      exact ⟨fuel, keepAncestors_of_met near keep⟩

theorem Keeps.mono {fuel fuel' : Nat} {blobs : Dict BlobKey Typed} {keep : List PyId} (le : fuel ≤ fuel')
    (keeps : Keeps serde fuel blobs threadId ns checkpoints keep) :
    Keeps serde fuel' blobs threadId ns checkpoints keep := by
  obtain ⟨latestId, latest, newest, found, run⟩ := keeps
  exact ⟨latestId, latest, newest, found, keepAncestors_mono le run⟩

/-- A namespace with checkpoints is pruned just when its walk comes to an end. -/
theorem walkStops_iff (stored : c.checkpoints? threadId ns = some checkpoints) :
    c.WalkStops serde threadId ns ↔ (checkpoints.entries ≠ [] →
      ∃ fuel keep, Keeps serde fuel c.blobs threadId ns checkpoints keep) := by
  constructor
  · intro ends nonempty
    cases newest : latestId? checkpoints with
    | none => exact absurd (latestId?_eq_none.mp newest) nonempty
    | some latestId =>
      obtain ⟨latest, found⟩ := latestId?_stored newest
      have walk := ends checkpoints latestId latest stored newest found
      obtain ⟨fuel, keep, run⟩ := (@keepAncestors_ends_iff serde c threadId ns checkpoints _ _ [latestId]).mpr
        (walk.imp id (fun met channel member => met channel (mem_neededChannels_iff.mp member)))
      exact ⟨fuel, keep, latestId, latest, newest, found, run⟩
  · intro kept cs latestId latest stored' newest found
    cases stored.symm.trans stored'
    have nonempty : checkpoints.entries ≠ [] := by
      intro empty
      rw [latestId?_eq_none.mpr empty] at newest
      cases newest
    obtain ⟨fuel, keep, _, _, newest', found', run⟩ := kept nonempty
    cases newest.symm.trans newest'
    cases found.symm.trans found'
    exact (keepAncestors_ends_iff.mp ⟨fuel, keep, run⟩).imp id
      (fun met channel lacks => met channel (mem_neededChannels_iff.mpr lacks))

end Walk

section Ends

variable {serde : Serde} {fuel fuel' : Nat} {m m' : Memory} {threadId ns : String}

/-- The built-in checkpointer comes to an end with the thread. -/
def WalksEnd (serde : Serde) (m : Memory) (threadId : String) : Prop :=
  ∃ fuel m', pruneThread serde fuel m threadId = some m'

theorem pruneNamespace_mono (le : fuel ≤ fuel') {blobs : Dict BlobKey Typed} {acc acc' : PruneAcc}
    {item : String × Checkpoints} (run : pruneNamespace serde fuel blobs threadId acc item = some acc') :
    pruneNamespace serde fuel' blobs threadId acc item = some acc' := by
  unfold pruneNamespace at run ⊢
  cases newest : latestId? item.2 with
  | none => simpa only [newest] using run
  | some latestId =>
    simp only [newest] at run ⊢
    obtain ⟨latest, found, run⟩ := Option.bind_eq_some_iff.mp run
    obtain ⟨keep, kept, run⟩ := Option.bind_eq_some_iff.mp run
    exact Option.bind_eq_some_iff.mpr ⟨latest, found,
      Option.bind_eq_some_iff.mpr ⟨keep, keepAncestors_mono le kept, run⟩⟩

theorem pruneThread_mono (le : fuel ≤ fuel') (run : pruneThread serde fuel m threadId = some m') :
    pruneThread serde fuel' m threadId = some m' := by
  unfold pruneThread at run ⊢
  cases stored : m.storage.get? threadId with
  | none => simpa only [stored] using run
  | some namespaces =>
    simp only [stored] at run ⊢
    split at run
    · rename_i empty
      rw [if_pos empty]
      exact run
    · rename_i full
      rw [if_neg full]
      obtain ⟨acc, folded, run⟩ := Option.bind_eq_some_iff.mp run
      exact Option.bind_eq_some_iff.mpr
        ⟨acc, Fuel.foldlM_mono (fun _ _ _ => pruneNamespace_mono le) folded, run⟩

/-- The walk asks only for blobs of its thread. -/
theorem keepAncestors_agree {blobs blobs' : Dict BlobKey Typed}
    (agree : ∀ key, key.thread = threadId → blobs'.get? key = blobs.get? key) (checkpoints : Checkpoints)
    (start : Option PyId) (needed : List String) (keep : List PyId) :
    keepAncestors serde blobs' threadId ns checkpoints fuel start needed keep =
      keepAncestors serde blobs threadId ns checkpoints fuel start needed keep := by
  have same : stillNeeded serde blobs' threadId ns = stillNeeded serde blobs threadId ns := by
    funext entry channels
    refine List.filter_congr (fun channel _ => ?_)
    split <;> first | rfl | rw [agree _ rfl]
  induction fuel generalizing start needed keep with
  | zero => cases start <;> cases needed <;> rfl
  | succ fuel ih =>
    cases start with
    | none => rfl
    | some id =>
      cases needed with
      | nil => rfl
      | cons channel needed =>
        simp only [keepAncestors, same]
        split
        · rfl
        · exact ih _ _ _

theorem pruneNamespace_agree {blobs blobs' : Dict BlobKey Typed}
    (agree : ∀ key, key.thread = threadId → blobs'.get? key = blobs.get? key) :
    pruneNamespace serde fuel blobs' threadId = pruneNamespace serde fuel blobs threadId := by
  funext acc item
  have needed : ∀ latest, neededChannels serde blobs' threadId item.1 latest =
      neededChannels serde blobs threadId item.1 latest := by
    intro latest
    refine congrArg (List.map Prod.fst) (List.filter_congr (fun e _ => ?_))
    rw [agree _ rfl]
  simp only [pruneNamespace, keepIds, needed, keepAncestors_agree agree]

theorem WalksEnd.transfer (same : SameThread m m' threadId) (ends : WalksEnd serde m' threadId) :
    WalksEnd serde m threadId := by
  obtain ⟨fuel, memory, run⟩ := ends
  refine ⟨fuel, ?_⟩
  unfold pruneThread at run ⊢
  rw [same.storage, pruneNamespace_agree same.blobs] at run
  split
  · exact ⟨_, rfl⟩
  · rename_i namespaces stored
    simp only [stored] at run
    split at run
    · rename_i empty
      exact ⟨m, if_pos empty⟩
    · rename_i full
      obtain ⟨acc, folded, _⟩ := Option.bind_eq_some_iff.mp run
      exact ⟨_, (if_neg full).trans (Option.bind_eq_some_iff.mpr ⟨acc, folded, rfl⟩)⟩

/-- What remains after one thread ends where it did before, and the thread
itself is at rest. -/
theorem WalksEnd.after_iff (first : pruneThread serde fuel m threadId = some m') {other : String} :
    WalksEnd serde m' other ↔ WalksEnd serde m other := by
  by_cases same : other = threadId
  · subst same
    exact ⟨fun _ => ⟨fuel, m', first⟩, fun _ => ⟨fuel, m', (pruneThread_atRest first).pruneThread_eq⟩⟩
  · have apart := pruneThread_sameThread first same
    exact ⟨fun ends => ends.transfer apart, fun ends => ends.transfer apart.symm⟩

/-- A run over threads ends where it does for each of them alone. -/
theorem pruneThreads_end_iff {threadIds : List String} :
    (∃ fuel m', threadIds.foldlM (pruneThread serde fuel) m = some m') ↔
      ∀ threadId ∈ threadIds, WalksEnd serde m threadId := by
  induction threadIds generalizing m with
  | nil => exact ⟨fun _ _ member => absurd member List.not_mem_nil, fun _ => ⟨0, m, rfl⟩⟩
  | cons threadId rest ih =>
    constructor
    · rintro ⟨fuel, m', run⟩
      obtain ⟨middle, first, later⟩ := Option.bind_eq_some_iff.mp run
      exact List.forall_mem_cons.mpr ⟨⟨fuel, middle, first⟩, fun other member =>
        (WalksEnd.after_iff first).mp (ih.mp ⟨fuel, m', later⟩ other member)⟩
    · intro ends
      obtain ⟨⟨fuel, middle, first⟩, ends⟩ := List.forall_mem_cons.mp ends
      obtain ⟨fuel', m', later⟩ := (@ih middle).mpr (fun other member =>
        (WalksEnd.after_iff first).mpr (ends other member))
      refine ⟨max fuel fuel', m', Option.bind_eq_some_iff.mpr ⟨middle, ?_, ?_⟩⟩
      · exact pruneThread_mono (Nat.le_max_left ..) first
      · exact Fuel.foldlM_mono (fun _ _ _ => pruneThread_mono (Nat.le_max_right ..)) later

/-- The checkpointer comes to an end with a thread just when each walk does. -/
theorem walksEnd_iff :
    WalksEnd serde m threadId ↔ ∀ ns, m.WalkStops serde threadId ns := by
  constructor
  · rintro ⟨fuel, m', run⟩ ns checkpoints latestId latest stored
    have kept := pruneThread_isSome.mp (Option.isSome_iff_exists.mpr ⟨m', run⟩) ns checkpoints stored
    exact (walkStops_iff stored).mpr (fun nonempty => ⟨fuel, kept nonempty⟩) checkpoints latestId latest stored
  · intro ends
    have each : ∀ item ∈ ((m.storage.get? threadId).getD .empty).entries, ∃ fuel, item.2.entries ≠ [] →
        ∃ keep, Keeps serde fuel m.blobs threadId item.1 item.2 keep := by
      rintro ⟨ns, checkpoints⟩ member
      have stored : m.checkpoints? threadId ns = some checkpoints := by
        unfold Containers.checkpoints?
        cases atThread : m.storage.get? threadId with
        | none => simp [atThread, Dict.empty] at member
        | some namespaces => simpa [atThread, Dict.mem_entries_iff] using member
      by_cases empty : checkpoints.entries = []
      · exact ⟨0, fun nonempty => absurd empty nonempty⟩
      · exact ((walkStops_iff stored).mp (ends ns) empty).imp (fun _ keeps _ => keeps)
    obtain ⟨fuel, all⟩ := Fuel.exists_common
      (fun _ _ _ le keeps nonempty => (keeps nonempty).imp (fun _ => Keeps.mono le)) each
    refine ⟨fuel, Option.isSome_iff_exists.mp (pruneThread_isSome.mpr (fun ns checkpoints stored => ?_))⟩
    obtain ⟨namespaces, atThread, atNs⟩ := Option.bind_eq_some_iff.mp stored
    exact all (ns, checkpoints) (by simpa [atThread] using Dict.mem_entries_iff.mpr atNs)

end Ends

end InmemRuntime
