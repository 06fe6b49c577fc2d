import InmemRuntime.CheckpointSize
import InmemRuntime.PyVal

namespace InmemRuntime

abbrev Checkpoints := Dict PyId CheckpointEntry

abbrev Namespaces := Dict String Checkpoints

/-- The three containers of the in-memory saver, keyed by the text of the
thread id as the checkpoint storage always is. -/
structure Containers where
  storage : Dict String Namespaces
  writes : Dict WriteKey WriteGroup
  blobs : Dict BlobKey Typed
deriving DecidableEq, Inhabited

def Containers.empty : Containers := ⟨.empty, .empty, .empty⟩

/-- What every saver shares: the containers and `_size_state`. -/
structure Memory extends Containers where
  sizeState : CheckpointSizeState
deriving DecidableEq, Inhabited

/-- `config["configurable"]` with its own keys as fields, and `config["metadata"]`. -/
structure RunnableConfig where
  threadId : String
  checkpointNs : Option String
  checkpointId : Option PyId
  configurable : PyDict
  metadata : PyDict

structure Checkpoint where
  id : PyId
  channelVersions : Dict String Version
deriving Inhabited

/-- The decoding half of the payload codec, for checkpoints and for their
metadata. The saver decodes only payloads that the encoding half made. -/
structure Serde where
  loadsTyped : Typed → Checkpoint
  loadsMetadata : Typed → PyDict

/-- The saver of the `langgraph` package that `InMemorySaver` extends, with
what its methods are relied on for: `put` writes one checkpoint entry and one
blob for each entry of `new_versions`, `put_writes` adds or overwrites inner
keys of one write group, `delete_thread` removes everything of the thread.
`none` stands for a call that raises. -/
structure BaseSaver where
  put : Containers → RunnableConfig → Checkpoint → PyDict → Dict String Version → Option Containers
  putWrites : Containers → RunnableConfig → List (String × PyVal) → String → String → Option Containers
  deleteThread : Containers → String → Containers
  put_law : ∀ {c c' config checkpoint metadata newVersions},
    put c config checkpoint metadata newVersions = some c' →
      ∃ ns entry, ∃ value : String → Typed, config.checkpointNs = some ns ∧
        c'.storage =
          (let namespaces := (c.storage.get? config.threadId).getD .empty
           c.storage.set config.threadId (namespaces.set ns
             (((namespaces.get? ns).getD .empty).set checkpoint.id entry))) ∧
        c'.writes = c.writes ∧
        c'.blobs = newVersions.entries.foldl
          (fun blobs e => blobs.set ⟨config.threadId, ns, e.1, e.2⟩ (value e.1)) c.blobs
  putWrites_law : ∀ {c c' config writes taskId taskPath},
    putWrites c config writes taskId taskPath = some c' →
      ∃ id, config.checkpointId = some id ∧ c'.storage = c.storage ∧ c'.blobs = c.blobs ∧
        ∃ added : List ((String × Int) × PendingWrite),
          c'.writes =
            (let key : WriteKey := ⟨config.threadId, config.checkpointNs.getD "", id⟩
             if added.isEmpty then c.writes
             else c.writes.set key
               (added.foldl (fun g e => g.set e.1 e.2) ((c.writes.get? key).getD .empty)))
  deleteThread_law : ∀ c threadId,
    deleteThread c threadId = ⟨c.storage.erase threadId,
      c.writes.filter (fun key _ => key.thread ≠ threadId),
      c.blobs.filter (fun key _ => key.thread ≠ threadId)⟩

namespace Memory

/-- Rebuild the estimates from the containers, item by item. -/
def rebuildSizeTracking (m : Memory) : Memory :=
  let afterStorage := m.storage.entries.foldl (fun s (threadId, namespaces) =>
    namespaces.entries.foldl (fun s (_, checkpoints) =>
      checkpoints.entries.foldl (fun s (checkpointId, entry) =>
        s.adjust threadId (checkpointEntrySize checkpointId entry) 1) s) s)
    CheckpointSizeState.cleared
  let afterWrites := m.writes.entries.foldl (fun s (key, writes) =>
    s.adjust key.thread (writeGroupSize key.checkpoint writes) 0) afterStorage
  let afterBlobs := m.blobs.entries.foldl (fun s (key, value) =>
    s.adjust key.thread (blobEntrySize key.channel key.version value) 0) afterWrites
  { m with sizeState := afterBlobs }

/-- `self.storage.get(thread_id, {}).get(checkpoint_ns, {}).get(checkpoint_id)` -/
def entryAt (c : Containers) (threadId ns : String) (id : PyId) : Option CheckpointEntry :=
  (((c.storage.get? threadId).getD .empty).get? ns).getD .empty |>.get? id

end Memory

def excludedKeys : List String := ["checkpoint_ns", "checkpoint_id", "run_id", "thread_id"]

def transientConfigurableKeys : List String :=
  ["langgraph_request_id", "langgraph_auth_user", "langgraph_auth_user_id",
    "langgraph_auth_permissions"]

/-- The metadata handed to the base saver: configurable keys, then the config's
metadata, then the caller's, without the transient ones. -/
def putMetadata (config : RunnableConfig) (metadata : PyDict) : PyDict :=
  PyDict.update
    (PyDict.update
      (config.configurable.filter (fun item =>
        !item.1.startsWith "__" && !excludedKeys.contains item.1 &&
          !transientConfigurableKeys.contains item.1))
      (config.metadata.filter (fun item => !transientConfigurableKeys.contains item.1)))
    (metadata.filter (fun item => !transientConfigurableKeys.contains item.1))

/-- The summed blob sizes of the entries of `new_versions` that are in `blobs`. -/
def blobSizes (blobs : Dict BlobKey Typed) (threadId ns : String)
    (newVersions : Dict String Version) : Nat :=
  newVersions.sum (fun channel version =>
    (blobs.get? ⟨threadId, ns, channel, version⟩).elim 0 (blobEntrySize channel version))

namespace Memory

def put (base : BaseSaver) (m : Memory) (config : RunnableConfig) (checkpoint : Checkpoint)
    (metadata : PyDict) (newVersions : Dict String Version) : Option Memory := do
  let ns ← config.checkpointNs
  let oldEntry := entryAt m.toContainers config.threadId ns checkpoint.id
  let oldSize := oldEntry.elim 0 (checkpointEntrySize checkpoint.id) +
    blobSizes m.blobs config.threadId ns newVersions
  let c ← base.put m.toContainers config checkpoint (putMetadata config metadata) newVersions
  let newEntry ← entryAt c config.threadId ns checkpoint.id
  let newSize := checkpointEntrySize checkpoint.id newEntry +
    blobSizes c.blobs config.threadId ns newVersions
  some ⟨c, m.sizeState.adjust config.threadId ((newSize : Int) - oldSize)
    (if oldEntry.isNone then 1 else 0)⟩

def putWrites (base : BaseSaver) (m : Memory) (config : RunnableConfig)
    (writes : List (String × PyVal)) (taskId taskPath : String) : Option Memory := do
  let id ← config.checkpointId
  let outerKey : WriteKey := ⟨config.threadId, config.checkpointNs.getD "", id⟩
  let oldSize := (m.writes.get? outerKey).elim 0 (writeGroupSize id)
  let c ← base.putWrites m.toContainers config writes taskId taskPath
  let newSize := (c.writes.get? outerKey).elim 0 (writeGroupSize id)
  some ⟨c, m.sizeState.adjust config.threadId ((newSize : Int) - oldSize) 0⟩

def clear (_ : Memory) : Memory := ⟨Containers.empty, CheckpointSizeState.cleared⟩

def deleteThread (base : BaseSaver) (m : Memory) (threadId : String) : Memory :=
  ⟨base.deleteThread m.toContainers threadId, m.sizeState.removeThread threadId⟩

end Memory

/-- A base saver that stores fixed payloads, the parent id of the config and
every write of the call. -/
def plainBase : BaseSaver where
  put c config checkpoint _ newVersions :=
    config.checkpointNs.map (fun ns =>
      let namespaces := (c.storage.get? config.threadId).getD .empty
      { storage := c.storage.set config.threadId (namespaces.set ns
          (((namespaces.get? ns).getD .empty).set checkpoint.id
            ⟨⟨"msgpack", [1]⟩, ⟨"msgpack", [2]⟩, config.checkpointId⟩))
        writes := c.writes
        blobs := newVersions.entries.foldl
          (fun blobs e => blobs.set ⟨config.threadId, ns, e.1, e.2⟩ ⟨"msgpack", [3]⟩) c.blobs })
  putWrites c config writes taskId taskPath :=
    config.checkpointId.map (fun id =>
      let key : WriteKey := ⟨config.threadId, config.checkpointNs.getD "", id⟩
      let added := writes.zipIdx.map (fun (w, i) =>
        ((taskId, (i : Int)), (⟨taskId, w.1, ⟨"msgpack", [4]⟩, taskPath⟩ : PendingWrite)))
      let group := added.foldl (fun g e => g.set e.1 e.2) ((c.writes.get? key).getD .empty)
      { c with writes := if added.isEmpty then c.writes else c.writes.set key group })
  deleteThread c threadId :=
    ⟨c.storage.erase threadId, c.writes.filter (fun key _ => key.thread ≠ threadId),
      c.blobs.filter (fun key _ => key.thread ≠ threadId)⟩
  put_law := by
    intro c c' config checkpoint metadata newVersions run
    obtain ⟨ns, atNs, rfl⟩ := Option.map_eq_some_iff.mp run
    exact ⟨ns, _, fun _ => ⟨"msgpack", [3]⟩, atNs, rfl, rfl, rfl⟩
  putWrites_law := by
    intro c c' config writes taskId taskPath run
    obtain ⟨id, atId, rfl⟩ := Option.map_eq_some_iff.mp run
    exact ⟨id, atId, rfl, rfl, _, rfl⟩
  deleteThread_law := fun _ _ => rfl

end InmemRuntime
