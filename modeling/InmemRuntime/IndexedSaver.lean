import InmemRuntime.PruneSpec
import InmemRuntime.ThreadCopy
import Mathlib.Data.Finset.Insert

namespace InmemRuntime

/-- The payload codec. `none` stands for a call that raises. -/
structure Codec where
  dumps : PyVal → Option Typed
  loads : Typed → Option PyVal
  dumpsCheckpoint : Checkpoint → Option Typed
  loadsCheckpoint : Typed → Option Checkpoint
  /-- Of the config's configurable keys, its metadata, and the metadata of the call. -/
  dumpsMetadata : PyDict → PyDict → PyDict → Option Typed
  /-- The fixed indices of special channels. -/
  writeIndex : String → Option Int

/-- The part of a `CheckpointTuple` beside the thread id and the namespace that
its configs repeat. -/
structure CheckpointTuple where
  checkpointId : PyId
  parentId : Option PyId
  channels : List (String × PyVal)
  metadata : PyVal
  pendingWrites : List (String × String × PyVal)

namespace Containers

/-- `storage[thread_id][checkpoint_ns] = checkpoints`, in a mapping that the
default factory makes where there is none. -/
def withCheckpoints (c : Containers) (threadId ns : String) (checkpoints : Checkpoints) : Containers :=
  { c with storage := c.storage.set threadId (((c.storage.get? threadId).getD .empty).set ns checkpoints) }

/-- Reading `storage[thread_id][checkpoint_ns]` through default factories. -/
def touch (c : Containers) (threadId ns : String) : Containers :=
  c.withCheckpoints threadId ns ((c.checkpoints? threadId ns).getD .empty)

theorem checkpoints?_getD (c : Containers) (threadId ns : String) :
    (c.checkpoints? threadId ns).getD .empty =
      (((c.storage.get? threadId).getD .empty).get? ns).getD .empty := by
  unfold checkpoints?
  cases c.storage.get? threadId with
  | none => rfl
  | some namespaces => rfl

end Containers

namespace Codec

variable (codec : Codec)

/-- The decoding that `prune` uses. -/
def serde : Serde where
  loadsTyped payload := (codec.loadsCheckpoint payload).getD default
  loadsMetadata payload :=
    match codec.loads payload with
    | some (.dict items) => items
    | _ => []

/-- A channel of `new_versions` without a value is stored as empty. -/
def channelPayload (values : Dict String PyVal) (channel : String) : Option Typed :=
  match values.get? channel with
  | some value => codec.dumps value
  | none => some ⟨"empty", []⟩

/-- The loop over `new_versions`. `error` is what a raise leaves behind. -/
def storeBlobs (values : Dict String PyVal) (threadId ns : String) :
    List (String × Version) → Dict BlobKey Typed → Except (Dict BlobKey Typed) (Dict BlobKey Typed)
  | [], blobs => .ok blobs
  | (channel, version) :: rest, blobs =>
    match codec.channelPayload values channel with
    | none => .error blobs
    | some payload => storeBlobs values threadId ns rest (blobs.set ⟨threadId, ns, channel, version⟩ payload)

/-- `put` of the base saver where no plain dict lacks the namespace: the blobs,
then one checkpoint at `storage[thread_id][checkpoint_ns]`. -/
def put (values : Dict String PyVal) (c : Containers) (config : RunnableConfig) (checkpoint : Checkpoint)
    (metadata : PyDict) (newVersions : Dict String Version) : Except Containers Containers :=
  match config.checkpointNs with
  | none => .error c
  | some ns =>
    match codec.storeBlobs values config.threadId ns newVersions.entries c.blobs with
    | .error blobs => .error { c with blobs := blobs }
    | .ok blobs =>
      match codec.dumpsCheckpoint checkpoint,
        codec.dumpsMetadata config.configurable config.metadata metadata with
      | some payload, some about =>
        .ok ({ c with blobs := blobs }.withCheckpoints config.threadId ns
          (((c.checkpoints? config.threadId ns).getD .empty).set checkpoint.id
            ⟨payload, about, config.checkpointId⟩))
      | _, _ => .error ({ c with blobs := blobs }.touch config.threadId ns)

/-- What `put_writes` adds to its group, and whether it ran to its end. A write
with an inner key that the group had before the call is skipped. -/
def addedWrites (existed : Bool) (taskId taskPath : String) :
    List ((String × PyVal) × Nat) → WriteGroup → List ((String × Int) × PendingWrite) × Bool
  | [], _ => ([], true)
  | ((channel, value), position) :: rest, group =>
    let inner := (taskId, (codec.writeIndex channel).getD position)
    if existed && decide (0 ≤ inner.2) && group.contains inner then
      addedWrites existed taskId taskPath rest group
    else
      match codec.dumps value with
      | none => ([], false)
      | some payload =>
        let write : PendingWrite := ⟨taskId, channel, payload, taskPath⟩
        let later := addedWrites existed taskId taskPath rest (group.set inner write)
        ((inner, write) :: later.1, later.2)

def putWrites (c : Containers) (config : RunnableConfig) (writes : List (String × PyVal))
    (taskId taskPath : String) : Except Containers Containers :=
  match config.checkpointId with
  | none => .error c
  | some id =>
    let key : WriteKey := ⟨config.threadId, config.checkpointNs.getD "", id⟩
    let group := c.writes.get? key
    let added := codec.addedWrites group.isSome taskId taskPath writes.zipIdx (group.getD .empty)
    let left := { c with
      writes := if added.1.isEmpty then c.writes else c.writes.set key ((group.getD .empty).setAll added.1) }
    if added.2 then .ok left else .error left

/-- `_load_blobs`: the materialized channels among the versions. -/
def loadBlobs (blobAt : String → Version → Option Typed) :
    List (String × Version) → Option (List (String × PyVal))
  | [] => some []
  | (channel, version) :: rest =>
    match blobAt channel version with
    | none => loadBlobs blobAt rest
    | some blob =>
      if blob.kind = "empty" then loadBlobs blobAt rest
      else do
        let value ← codec.loads blob
        let later ← loadBlobs blobAt rest
        some ((channel, value) :: later)

def loadWrite (write : PendingWrite) : Option (String × String × PyVal) :=
  (codec.loads write.value).map (fun value => (write.taskId, write.channel, value))

/-- The tuple of one stored checkpoint, from its blobs and its pending writes. -/
def tuple (id : PyId) (blobAt : String → Version → Option Typed) (entry : CheckpointEntry)
    (writes : List PendingWrite) : Option CheckpointTuple := do
  let checkpoint ← codec.loadsCheckpoint entry.checkpoint
  let channels ← codec.loadBlobs blobAt checkpoint.channelVersions.entries
  let metadata ← codec.loads entry.metadata
  let pendingWrites ← writes.mapM codec.loadWrite
  some ⟨id, entry.parent.filter (fun parent => parent ≠ .text ""), channels, metadata, pendingWrites⟩

/-- `get_tuple` of the base saver where no plain dict lacks the namespace. An
empty id asks for the newest checkpoint, and `self.writes[...]` makes a missing
group. -/
def getTuple (c : Containers) (config : RunnableConfig) :
    Except Containers (Containers × Option CheckpointTuple) :=
  let threadId := config.threadId
  let ns := config.checkpointNs.getD ""
  let checkpoints := (c.checkpoints? threadId ns).getD .empty
  let read := c.touch threadId ns
  match (config.checkpointId.filter (fun id => id ≠ .text "")).or (latestId? checkpoints) with
  | none => .ok (read, none)
  | some id =>
    match checkpoints.get? id with
    | none => .ok (read, none)
    | some entry =>
      let group := (c.writes.get? ⟨threadId, ns, id⟩).getD .empty
      let read := { read with writes := c.writes.set ⟨threadId, ns, id⟩ group }
      match codec.tuple id (fun channel version => c.blobs.get? ⟨threadId, ns, channel, version⟩) entry
        (group.entries.map Prod.snd) with
      | none => .error read
      | some found => .ok (read, some found)

end Codec

/-- The saver of the `langgraph` package with what its methods are relied on
for when they index `storage[thread_id][checkpoint_ns]`. `put` is told the
values of the checkpoint's channels. -/
structure IndexedSaver where
  codec : Codec
  put : Dict String PyVal → Containers → RunnableConfig → Checkpoint → PyDict → Dict String Version →
    Except Containers Containers
  putWrites : Containers → RunnableConfig → List (String × PyVal) → String → String → Except Containers Containers
  getTuple : Containers → RunnableConfig → Except Containers (Containers × Option CheckpointTuple)
  deleteThread : Containers → String → Containers
  put_law : ∀ values c config checkpoint metadata newVersions,
    put values c config checkpoint metadata newVersions = codec.put values c config checkpoint metadata newVersions
  putWrites_law : ∀ c config writes taskId taskPath,
    putWrites c config writes taskId taskPath = codec.putWrites c config writes taskId taskPath
  getTuple_law : ∀ c config, getTuple c config = codec.getTuple c config
  deleteThread_law : ∀ c threadId,
    deleteThread c threadId = ⟨c.storage.erase threadId,
      c.writes.filter (fun key _ => key.thread ≠ threadId),
      c.blobs.filter (fun key _ => key.thread ≠ threadId)⟩

namespace Codec

variable {codec : Codec}

theorem storeBlobs_ok {values : Dict String PyVal} {threadId ns : String} {versions : List (String × Version)}
    {blobs after : Dict BlobKey Typed} (run : codec.storeBlobs values threadId ns versions blobs = .ok after) :
    after = versions.foldl (fun blobs e => blobs.set ⟨threadId, ns, e.1, e.2⟩
      ((codec.channelPayload values e.1).getD default)) blobs := by
  induction versions generalizing blobs with
  | nil => cases run; rfl
  | cons e versions ih =>
    rw [storeBlobs] at run
    cases stored : codec.channelPayload values e.1 with
    | none => simp only [stored, reduceCtorEq] at run
    | some payload =>
      simp only [stored] at run
      rw [List.foldl_cons, stored]
      exact ih run

theorem put_ok {values : Dict String PyVal} {c after : Containers} {config : RunnableConfig}
    {checkpoint : Checkpoint} {metadata : PyDict} {newVersions : Dict String Version}
    (run : codec.put values c config checkpoint metadata newVersions = .ok after) :
    ∃ ns blobs payload about, config.checkpointNs = some ns ∧
      codec.storeBlobs values config.threadId ns newVersions.entries c.blobs = .ok blobs ∧
      after = { c with blobs := blobs }.withCheckpoints config.threadId ns
        (((c.checkpoints? config.threadId ns).getD .empty).set checkpoint.id
          ⟨payload, about, config.checkpointId⟩) := by
  unfold put at run
  cases atNs : config.checkpointNs with
  | none => simp only [atNs, reduceCtorEq] at run
  | some ns =>
    cases stored : codec.storeBlobs values config.threadId ns newVersions.entries c.blobs with
    | error left => simp only [atNs, stored, reduceCtorEq] at run
    | ok blobs =>
      simp only [atNs, stored] at run
      split at run
      · rename_i payload about _ _
        exact ⟨ns, blobs, payload, about, rfl, stored, (Except.ok.inj run).symm⟩
      · cases run

end Codec

namespace IndexedSaver

variable (saver : IndexedSaver)

/-- The saver as a base class, for checkpoints with the given channel values. -/
def base (values : Dict String PyVal) : BaseSaver where
  put c config checkpoint metadata newVersions :=
    (saver.put values c config checkpoint metadata newVersions).toOption
  putWrites c config writes taskId taskPath := (saver.putWrites c config writes taskId taskPath).toOption
  deleteThread := saver.deleteThread
  put_law := by
    intro c c' config checkpoint metadata newVersions run
    rw [saver.put_law] at run
    cases attempt : saver.codec.put values c config checkpoint metadata newVersions with
    | error left => rw [attempt] at run; cases run
    | ok after =>
      rw [attempt] at run
      cases run
      obtain ⟨ns, blobs, payload, about, atNs, stored, rfl⟩ := Codec.put_ok attempt
      refine ⟨ns, ⟨payload, about, config.checkpointId⟩,
        fun channel => (saver.codec.channelPayload values channel).getD default, atNs, ?_, rfl,
        Codec.storeBlobs_ok stored⟩
      rw [Containers.checkpoints?_getD]
      rfl
  putWrites_law := by
    intro c c' config writes taskId taskPath run
    rw [saver.putWrites_law, Codec.putWrites] at run
    cases atId : config.checkpointId with
    | none => simp only [atId] at run; cases run
    | some id =>
      simp only [atId] at run
      split at run
      · cases run
        exact ⟨id, rfl, rfl, rfl, _, rfl⟩
      · cases run
  deleteThread_law := saver.deleteThread_law

end IndexedSaver

/-- The memory with the threads whose namespaces a plain `dict` holds. -/
structure KindedMemory extends Memory where
  plain : Finset String

namespace KindedMemory

/-- `storage[thread_id][checkpoint_ns]` does not raise `KeyError`. -/
def indexes (m : KindedMemory) (threadId ns : String) : Bool :=
  decide (threadId ∉ m.plain) || (m.checkpoints? threadId ns).isSome

/-- What a call leaves behind, however it ends. -/
def left : Except Containers Containers → Containers
  | .ok c => c
  | .error c => c

/-- `put` of the in-memory saver. The base class has written the blobs when it
finds that a plain dict lacks the namespace. -/
def put (saver : IndexedSaver) (m : KindedMemory) (values : Dict String PyVal) (config : RunnableConfig)
    (checkpoint : Checkpoint) (metadata : PyDict) (newVersions : Dict String Version) :
    Except KindedMemory KindedMemory :=
  match config.checkpointNs with
  | none => .error m
  | some ns =>
    let stored := left (saver.put values m.toContainers config checkpoint (putMetadata config metadata) newVersions)
    if m.indexes config.threadId ns then
      match m.toMemory.put (saver.base values) config checkpoint metadata newVersions with
      | some after => .ok { m with toMemory := after }
      | none => .error { m with toContainers := stored }
    else .error { m with blobs := stored.blobs }

def putWrites (saver : IndexedSaver) (m : KindedMemory) (config : RunnableConfig)
    (writes : List (String × PyVal)) (taskId taskPath : String) : Except KindedMemory KindedMemory :=
  match m.toMemory.putWrites (saver.base .empty) config writes taskId taskPath with
  | some after => .ok { m with toMemory := after }
  | none =>
    .error { m with toContainers := left (saver.putWrites m.toContainers config writes taskId taskPath) }

/-- `get_tuple`, which turns a `uuid.UUID` id into its text. -/
def getTuple (saver : IndexedSaver) (m : KindedMemory) (config : RunnableConfig) :
    Except KindedMemory (KindedMemory × Option CheckpointTuple) :=
  let config := { config with checkpointId := config.checkpointId.map (fun id => .text id.str) }
  if m.indexes config.threadId (config.checkpointNs.getD "") then
    match saver.getTuple m.toContainers config with
    | .ok (c, found) => .ok ({ m with toContainers := c }, found)
    | .error c => .error { m with toContainers := c }
  else .error m

/-- `prune` of one thread. A deleted thread's mapping is made anew by the
default factory. `none` means that a parent walk did not end within the fuel. -/
def prune (saver : IndexedSaver) (fuel : Nat) (m : KindedMemory) (threadId : String) (strategy : PruneStrategy) :
    Option (Except PruneError KindedMemory) :=
  (InmemRuntime.prune saver.codec.serde fuel (saver.base .empty) m.toMemory [.text threadId] strategy).map
    (Except.map (fun after =>
      ⟨after, if strategy = .keepLatest then m.plain else m.plain.erase threadId⟩))

/-- The copy's namespaces are the plain dict that the JSON text is decoded to. -/
def copyThread (m : KindedMemory) (source target : Uuid) : Except KindedMemory KindedMemory :=
  match m.toMemory.copyThread source target with
  | .ok after => .ok ⟨after, insert target.str m.plain⟩
  | .error after =>
    .error ⟨after, if (after.storage.get? target.str).isSome then insert target.str m.plain else m.plain⟩

end KindedMemory

/-- How one call ends. `unfinished` stands for a parent walk that did not end
within the fuel. -/
inductive Answer (τ : Type) where
  | stored (checkpointId : PyId)
  | done
  | found (tuple : Option τ)
  | raised
  | unfinished
deriving DecidableEq

def Answer.map {τ υ : Type} (f : τ → υ) : Answer τ → Answer υ
  | .stored id => .stored id
  | .done => .done
  | .found tuple => .found (tuple.map f)
  | .raised => .raised
  | .unfinished => .unfinished

/-- A call of the checkpointer, for a thread that is named when it is made. -/
inductive SaverCall where
  | put (values : Dict String PyVal) (config : RunnableConfig) (checkpoint : Checkpoint) (metadata : PyDict)
      (newVersions : Dict String Version)
  | putWrites (config : RunnableConfig) (writes : List (String × PyVal)) (taskId taskPath : String)
  | getTuple (config : RunnableConfig)
  | prune (strategy : PruneStrategy)

def RunnableConfig.inThread (config : RunnableConfig) (threadId : String) : RunnableConfig :=
  { config with threadId := threadId }

namespace SaverCall

/-- The namespace that the call indexes in the storage. -/
def indexed : SaverCall → Option String
  | .put _ config _ _ _ => config.checkpointNs
  | .putWrites _ _ _ _ => none
  | .getTuple config => some (config.checkpointNs.getD "")
  | .prune _ => none

/-- The call on one thread: the memory that it leaves and how it ends. -/
def run (saver : IndexedSaver) (fuel : Nat) (threadId : String) (m : KindedMemory) :
    SaverCall → KindedMemory × Answer CheckpointTuple
  | .put values config checkpoint metadata newVersions =>
    match m.put saver values (config.inThread threadId) checkpoint metadata newVersions with
    | .ok m => (m, .stored checkpoint.id)
    | .error m => (m, .raised)
  | .putWrites config writes taskId taskPath =>
    match m.putWrites saver (config.inThread threadId) writes taskId taskPath with
    | .ok m => (m, .done)
    | .error m => (m, .raised)
  | .getTuple config =>
    match m.getTuple saver (config.inThread threadId) with
    | .ok (m, tuple) => (m, .found tuple)
    | .error m => (m, .raised)
  | .prune strategy =>
    match m.prune saver fuel threadId strategy with
    | none => (m, .unfinished)
    | some (.error _) => (m, .raised)
    | some (.ok m) => (m, .done)

end SaverCall

end InmemRuntime
