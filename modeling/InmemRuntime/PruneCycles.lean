import InmemRuntime.PruneCalls
import InmemRuntime.RunDeletions
import InmemRuntime.SaverRuns

namespace InmemRuntime

/-- `prune(strategy="keep_latest")` comes to its end. -/
def PruneEnds (serde : Serde) (base : BaseSaver) (m : Memory) (threadIds : List PyId) : Prop :=
  ∃ m', Fuel.Settles (fun fuel => prune serde fuel base m threadIds .keepLatest) (.ok m')

section Prune

variable {serde : Serde} {m : Memory}

theorem pruneEnds_iff {base : BaseSaver} {threadIds : List PyId} :
    PruneEnds serde base m threadIds ↔ ∀ id ∈ threadIds, ∀ ns, m.WalkStops serde id.str ns := by
  have folds : ∀ fuel, prune serde fuel base m threadIds .keepLatest =
      ((threadIds.map PyId.str).foldlM (pruneThread serde fuel) m).map .ok := by
    intro fuel
    rw [prune, List.foldlM_map]
  have listed : (∀ id ∈ threadIds, ∀ ns, m.WalkStops serde id.str ns) ↔
      ∀ threadId ∈ threadIds.map PyId.str, WalksEnd serde m threadId := by
    simp only [List.forall_mem_map, walksEnd_iff]
  rw [listed, ← pruneThreads_end_iff, PruneEnds]
  constructor
  · rintro ⟨m', enough, run⟩
    have ran := run enough le_rfl
    simp only [folds] at ran
    obtain ⟨m', ran, _⟩ := Option.map_eq_some_iff.mp ran
    exact ⟨enough, m', ran⟩
  · rintro ⟨fuel, m', ran⟩
    refine ⟨m', fuel, fun fuel' le => (folds fuel').trans ?_⟩
    rw [Fuel.foldlM_mono (fun _ _ _ => pruneThread_mono le) ran, Option.map_some]

end Prune

/-- `put` stores the parent id of the config with the checkpoint. -/
def StoresParent (base : BaseSaver) : Prop :=
  ∀ c c' config checkpoint metadata newVersions ns entry,
    base.put c config checkpoint metadata newVersions = some c' → config.checkpointNs = some ns →
      c'.checkpointAt? config.threadId ns checkpoint.id = some entry → entry.parent = config.checkpointId

/-- Stored parents lead from one checkpoint to the other, or they are the same. -/
def Containers.LeadsTo (c : Containers) (threadId ns : String) (id ancestor : PyId) : Prop :=
  Relation.ReflTransGen (((c.checkpoints? threadId ns).getD .empty).ParentOf CheckpointEntry.parent) id ancestor

/-- A checkpoint is put under a parent that does not lead to it. Copies are left out. -/
def SaverOp.PutsBelow : SaverOp → Memory → Prop
  | .put base config checkpoint _ _, m => StoresParent base ∧ ∀ ns parent, config.checkpointNs = some ns →
      config.checkpointId = some parent → ¬ m.LeadsTo config.threadId ns parent checkpoint.id
  | .copy _ _, _ => False
  | _, _ => True

section Runs

variable {c c' : Containers} {m m' : Memory}

theorem Containers.AcyclicParents.namespace (acyclic : c.AcyclicParents) (threadId ns : String) :
    ((c.checkpoints? threadId ns).getD .empty).Acyclic CheckpointEntry.parent := by
  cases stored : c.checkpoints? threadId ns with
  | none => exact Dict.acyclic_empty
  | some checkpoints => exact acyclic threadId ns checkpoints stored

/-- What only loses checkpoints stays without a cycle. -/
theorem Containers.AcyclicParents.mono (acyclic : c.AcyclicParents)
    (kept : ∀ t ns id entry, c'.checkpointAt? t ns id = some entry → c.checkpointAt? t ns id = some entry) :
    c'.AcyclicParents := by
  intro t ns checkpoints stored
  refine (acyclic.namespace t ns).mono (fun id entry found => ?_)
  have old := kept t ns id entry (by rw [checkpointAt?, stored, Option.bind_some, found])
  obtain ⟨olds, before, atId⟩ := Option.bind_eq_some_iff.mp old
  rw [before, Option.getD_some, atId]

theorem Memory.put_containers {base : BaseSaver} {config : RunnableConfig} {checkpoint : Checkpoint}
    {metadata : PyDict} {newVersions : Dict String Version}
    (run : m.put base config checkpoint metadata newVersions = some m') :
    base.put m.toContainers config checkpoint (putMetadata config metadata) newVersions = some m'.toContainers := by
  obtain ⟨ns, _, run⟩ := Option.bind_eq_some_iff.mp run
  obtain ⟨c, baseRun, run⟩ := Option.bind_eq_some_iff.mp run
  obtain ⟨newEntry, _, run⟩ := Option.bind_eq_some_iff.mp run
  cases Option.some.inj run
  exact baseRun

/-- What `put` leaves of each namespace. -/
theorem BaseSaver.put_checkpoints {base : BaseSaver} {config : RunnableConfig} {checkpoint : Checkpoint}
    {metadata : PyDict} {newVersions : Dict String Version}
    (run : base.put c config checkpoint metadata newVersions = some c') :
    ∃ ns entry, config.checkpointNs = some ns ∧ ∀ t n, c'.checkpoints? t n =
      if t = config.threadId ∧ n = ns then some (((c.checkpoints? t n).getD .empty).set checkpoint.id entry)
      else c.checkpoints? t n := by
  obtain ⟨ns, entry, _, atNs, storage, _, _⟩ := base.put_law run
  refine ⟨ns, entry, atNs, fun t n => ?_⟩
  unfold Containers.checkpoints?
  rw [storage]
  dsimp only
  rw [Dict.get?_set]
  by_cases sameThread : t = config.threadId
  · subst sameThread
    rw [if_pos rfl, Option.bind_some, Dict.get?_set]
    by_cases sameNs : n = ns
    · subst sameNs
      cases c.storage.get? config.threadId <;> simp
    · cases c.storage.get? config.threadId <;> simp [sameNs]
  · simp [sameThread]

theorem put_acyclic {base : BaseSaver} {config : RunnableConfig} {checkpoint : Checkpoint} {metadata : PyDict}
    {newVersions : Dict String Version} (acyclic : m.AcyclicParents)
    (below : SaverOp.PutsBelow (.put base config checkpoint metadata newVersions) m)
    (run : m.put base config checkpoint metadata newVersions = some m') : m'.AcyclicParents := by
  obtain ⟨stores, apart⟩ := below
  have baseRun := Memory.put_containers run
  obtain ⟨ns, entry, atNs, left⟩ := BaseSaver.put_checkpoints baseRun
  have named : entry.parent = config.checkpointId := by
    refine stores _ _ _ _ _ _ ns entry baseRun atNs ?_
    rw [Containers.checkpointAt?, left, if_pos ⟨rfl, rfl⟩, Option.bind_some, Dict.get?_set_self]
  intro t n checkpoints stored
  rw [left] at stored
  split at stored
  · rename_i here
    obtain ⟨rfl, rfl⟩ := here
    cases Option.some.inj stored
    exact (acyclic.namespace config.threadId n).set (fun parent isParent =>
      apart n parent atNs (named.symm.trans isParent))
  · exact acyclic t n checkpoints stored

/-- The deletion of a run leaves the other threads alone. -/
theorem Memory.deleteRunCheckpoints_thread {serde : Serde} {runId threadId t : String} (other : t ≠ threadId) :
    (m.deleteRunCheckpoints serde runId threadId).storage.get? t = m.storage.get? t := by
  have item (m : Memory) (ns : String) (item : PyId × CheckpointEntry) :
      (m.discardOfRun serde runId threadId ns item).storage.get? t = m.storage.get? t := by
    unfold Memory.discardOfRun
    split
    · exact Dict.get?_set_of_ne _ _ other
    · rfl
  have items (m : Memory) (e : String × Checkpoints) :
      (e.2.entries.foldl (Memory.discardOfRun serde runId threadId e.1) m).storage.get? t = m.storage.get? t :=
    List.foldlRecOn (motive := fun b => b.storage.get? t = m.storage.get? t) _ _ rfl
      (fun b ih x _ => (item b e.1 x).trans ih)
  unfold Memory.deleteRunCheckpoints
  split
  · rfl
  · exact List.foldlRecOn (motive := fun b => b.storage.get? t = m.storage.get? t) _ _ rfl
      (fun b ih e _ => (items b e).trans ih)

theorem deleteThread_acyclic (base : BaseSaver) (acyclic : m.AcyclicParents) (threadId : String) :
    (m.deleteThread base threadId).AcyclicParents := by
  refine acyclic.mono (fun t ns id entry found => ?_)
  rw [Containers.checkpointAt?, Containers.checkpoints?, Memory.deleteThread, base.deleteThread_law] at found
  by_cases same : t = threadId
  · simp [same] at found
  · rwa [Dict.get?_erase_of_ne _ same] at found

theorem prune_acyclic {serde : Serde} {fuel : Nat} {base : BaseSaver} {threadIds : List PyId}
    {strategy : PruneStrategy} (acyclic : m.AcyclicParents)
    (run : prune serde fuel base m threadIds strategy = some (.ok m')) : m'.AcyclicParents := by
  have deleted : (threadIds.foldl (fun m id => m.deleteThread base id.str) m).AcyclicParents :=
    List.foldlRecOn (motive := fun m : Memory => m.AcyclicParents) _ _ acyclic
      (fun _ kept id _ => deleteThread_acyclic base kept (PyId.str id))
  cases strategy with
  | delete =>
    cases run
    exact deleted
  | deleteAll =>
    cases run
    exact deleted
  | other name => cases run
  | keepLatest =>
    obtain ⟨last, fold, same⟩ := Option.map_eq_some_iff.mp run
    cases same
    exact pruneThreads_acyclic acyclic fold

/-- What one operation preserves. -/
theorem SaverOp.acyclic {op : SaverOp} (returns : op.Returns m m') (below : op.PutsBelow m)
    (acyclic : m.AcyclicParents) : m'.AcyclicParents := by
  cases op with
  | put base config checkpoint metadata newVersions => exact put_acyclic acyclic below returns
  | putWrites base config writes taskId taskPath =>
    obtain ⟨id, _, run⟩ := Option.bind_eq_some_iff.mp returns
    obtain ⟨c, baseRun, run⟩ := Option.bind_eq_some_iff.mp run
    cases Option.some.inj run
    obtain ⟨_, _, storage, _⟩ := base.putWrites_law baseRun
    refine acyclic.mono (fun t ns id entry found => ?_)
    rwa [Containers.checkpointAt?, Containers.checkpoints?, storage] at found
  | deleteThread base threadId =>
    obtain rfl := returns
    exact deleteThread_acyclic base acyclic threadId
  | prune serde base threadIds strategy =>
    obtain ⟨fuel, run⟩ := returns
    exact prune_acyclic acyclic run
  | clear =>
    obtain rfl := returns
    intro t ns checkpoints stored
    cases stored
  | deleteRun serde threadId runId =>
    obtain rfl := returns
    refine acyclic.mono (fun t ns id entry found => ?_)
    by_cases same : t = threadId
    · rw [same, Memory.deleteRunCheckpoints_checkpoint, Option.filter_eq_some_iff] at found
      exact same ▸ found.1
    · rwa [Containers.checkpointAt?, Containers.checkpoints?, Memory.deleteRunCheckpoints_thread same] at found
  | copy source target => exact absurd below id

/-- In every run whose puts name no parent that leads back, no checkpoint is its own ancestor. -/
theorem SaverRun.acyclic (run : SaverRun SaverOp.PutsBelow m m') (acyclic : m.AcyclicParents) :
    m'.AcyclicParents := by
  induction run with
  | start => exact acyclic
  | step op run below returns ih => exact op.acyclic returns below ih

/-- Pruning comes to its end just when going up from the newest checkpoint of
each namespace does, or comes by every channel that is missing there. It does in
every state that is reached while checkpoints are put under parents that do not
lead to them. -/
theorem prune_keepLatest_ends_iff (serde : Serde) (base : BaseSaver) :
    (∀ m threadIds, PruneEnds serde base m threadIds ↔
        ∀ id ∈ threadIds, ∀ ns, m.WalkStops serde id.str ns) ∧
      ∀ m, SaverRun SaverOp.PutsBelow emptyMemory m → ∀ threadIds, PruneEnds serde base m threadIds := by
  refine ⟨fun m threadIds => pruneEnds_iff, fun m run threadIds => ?_⟩
  have start : emptyMemory.AcyclicParents := fun t ns checkpoints stored => by cases stored
  obtain ⟨m', enough, ends⟩ := pruneThreads_settle serde (run.acyclic start) threadIds
  exact ⟨m', enough, fun fuel le => by simp only [prune, ends fuel le, Option.map_some]⟩

end Runs

section Loop

theorem plainBase_storesParent : StoresParent plainBase := by
  intro c c' config checkpoint metadata newVersions ns entry run atNs found
  obtain ⟨ns', atNs', rfl⟩ := Option.map_eq_some_iff.mp run
  cases atNs.symm.trans atNs'
  simp only [Containers.checkpointAt?, Containers.checkpoints?, Dict.get?_set_self, Option.bind_some,
    Option.some.injEq] at found
  exact congrArg CheckpointEntry.parent found.symm

/-- A put with the checkpoint id of the config. -/
def stateConfig (parent : Option PyId) : RunnableConfig := ⟨"t", some "", parent, [], []⟩

/-- A checkpoint with a channel whose value is not stored with it. -/
def stateCheckpoint : Checkpoint := ⟨.text "1", ⟨[("state", .text "1")], List.nodup_singleton _⟩⟩

def stateSerde : Serde := ⟨fun _ => stateCheckpoint, fun _ => []⟩

def stateMemory (parent : Option PyId) : Memory :=
  (emptyMemory.put plainBase (stateConfig parent) stateCheckpoint [] .empty).getD emptyMemory

theorem stateMemory_reached (parent : Option PyId) (other : parent ≠ some (.text "1")) :
    SaverRun SaverOp.PutsBelow emptyMemory (stateMemory parent) := by
  refine .step (.put plainBase (stateConfig parent) stateCheckpoint [] .empty) .start ?_ rfl
  refine ⟨plainBase_storesParent, fun ns id _ isParent leads => ?_⟩
  rcases Relation.ReflTransGen.cases_head leads with same | ⟨_, ⟨_, found, _⟩, _⟩
  · exact other (isParent.trans (congrArg some same))
  · cases found

def laterCheckpoint : Checkpoint := { stateCheckpoint with id := .text "2" }

/-- A second checkpoint is put under the first. -/
def chainMemory : Memory :=
  ((stateMemory none).put plainBase (stateConfig (some (.text "1"))) laterCheckpoint [] .empty).getD emptyMemory

theorem chainMemory_reached : SaverRun SaverOp.PutsBelow emptyMemory chainMemory := by
  refine .step (.put plainBase (stateConfig (some (.text "1"))) laterCheckpoint [] .empty)
    (stateMemory_reached none (by decide)) ?_ rfl
  refine ⟨plainBase_storesParent, fun ns id atNs isParent leads => ?_⟩
  cases atNs
  cases isParent
  rcases Relation.ReflTransGen.cases_head leads with same | ⟨next, ⟨entry, found, isParent⟩, _⟩
  · exact absurd same (by decide)
  · cases found
    cases isParent

/-- The walk goes up the chain for a channel that is nowhere stored. -/
theorem prune_keepLatest_ends_iff_chain :
    (∃ entry, chainMemory.checkpointAt? "t" "" (.text "2") = some entry ∧ entry.parent = some (.text "1")) ∧
      PruneEnds stateSerde plainBase chainMemory [.text "t"] :=
  ⟨⟨_, rfl, rfl⟩, (prune_keepLatest_ends_iff stateSerde plainBase).2 _ chainMemory_reached _⟩

/-- What `stateMemory` holds of a checkpoint under itself. -/
def selfEntry : CheckpointEntry := ⟨⟨"msgpack", [1]⟩, ⟨"msgpack", [2]⟩, some (.text "1")⟩

def selfCheckpoints : Checkpoints := ⟨[(.text "1", selfEntry)], List.nodup_singleton _⟩

theorem selfCheckpoints_ancestor (n : Nat) :
    selfCheckpoints.ancestor CheckpointEntry.parent n (some (.text "1")) = some selfEntry := by
  induction n with
  | zero => rfl
  | succ n ih => exact ih

theorem selfCheckpoints_not_walkStops {c : Containers} {threadId : String}
    (stored : c.checkpoints? threadId "" = some selfCheckpoints)
    (lacks : c.Lacks stateSerde threadId "" selfEntry "state")
    (unmet : ¬ c.Meets stateSerde threadId "" selfEntry "state") : ¬ c.WalkStops stateSerde threadId "" := by
  intro stops
  rcases stops selfCheckpoints (.text "1") selfEntry stored rfl rfl with ⟨n, last⟩ | met
  · cases (selfCheckpoints_ancestor n).symm.trans last
  · obtain ⟨n, entry, above, meets⟩ := met "state" lacks
    cases Option.some.inj ((selfCheckpoints_ancestor n).symm.trans above)
    exact unmet meets

/-- One checkpoint that is put under itself. -/
theorem prune_keepLatest_loops :
    (∃ config checkpoint, SaverRun (fun op _ => op = .put plainBase config checkpoint [] .empty) emptyMemory
        (stateMemory (some (.text "1")))) ∧
      ¬ PruneEnds stateSerde plainBase (stateMemory (some (.text "1"))) [.text "t"] := by
  refine ⟨⟨stateConfig (some (.text "1")), stateCheckpoint, .step _ .start rfl rfl⟩, fun ends => ?_⟩
  have stops := pruneEnds_iff.mp ends (.text "t") (List.mem_singleton_self _) ""
  refine selfCheckpoints_not_walkStops rfl ⟨rfl, rfl⟩ (fun meets => ?_) stops
  cases meets.2

end Loop

end InmemRuntime
