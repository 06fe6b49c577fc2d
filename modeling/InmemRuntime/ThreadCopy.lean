import InmemRuntime.Substitution
import InmemRuntime.Saver

namespace InmemRuntime

def Typed.toData (value : Typed) : Data := .tuple [.str value.kind, .bytes value.data]

def parentToData : Option PyId → Data
  | none => .none
  | some (.text s) => .str s
  | some (.uuid u) => .uuid u

def CheckpointEntry.toData (entry : CheckpointEntry) : Data :=
  .tuple [entry.checkpoint.toData, entry.metadata.toData, parentToData entry.parent]

def PendingWrite.toData (write : PendingWrite) : Data :=
  .tuple [.str write.taskId, .str write.channel, write.value.toData, .str write.taskPath]

def checkpointsToData (checkpoints : Checkpoints) : Data :=
  .dict (checkpoints.entries.map (fun e => (e.1, e.2.toData)))

def namespacesToData (namespaces : Namespaces) : Data :=
  .dict (namespaces.entries.map (fun e => (.text e.1, checkpointsToData e.2)))

/-- A pair is unpacked from a list as from a tuple. -/
def Typed.ofData? : Data → Option Typed
  | .list [.str kind, .bytes data] => some ⟨kind, data⟩
  | .tuple [.str kind, .bytes data] => some ⟨kind, data⟩
  | _ => none

def parentOfData? : Data → Option (Option PyId)
  | .none => some none
  | .str s => some (some (.text s))
  | .uuid u => some (some (.uuid u))
  | _ => none

def CheckpointEntry.ofData? : Data → Option CheckpointEntry
  | .list [checkpoint, metadata, parent] => do
    some ⟨← Typed.ofData? checkpoint, ← Typed.ofData? metadata, ← parentOfData? parent⟩
  | .tuple [checkpoint, metadata, parent] => do
    some ⟨← Typed.ofData? checkpoint, ← Typed.ofData? metadata, ← parentOfData? parent⟩
  | _ => none

def PendingWrite.ofData? : Data → Option PendingWrite
  | .list [.str taskId, .str channel, value, .str taskPath] =>
    (Typed.ofData? value).map (fun value => ⟨taskId, channel, value, taskPath⟩)
  | .tuple [.str taskId, .str channel, value, .str taskPath] =>
    (Typed.ofData? value).map (fun value => ⟨taskId, channel, value, taskPath⟩)
  | _ => none

def checkpointsOfData? : Data → Option Checkpoints
  | .dict items =>
    (items.mapM (fun e => (CheckpointEntry.ofData? e.2).map (e.1, ·))).map Dict.ofPairs
  | _ => none

def namespaceOfItem? : PyId × Data → Option (String × Checkpoints)
  | (.text ns, checkpoints) => (checkpointsOfData? checkpoints).map (ns, ·)
  | (.uuid _, _) => none

def namespacesOfData? : Data → Option Namespaces
  | .dict items => (items.mapM namespaceOfItem?).map Dict.ofPairs
  | _ => none

section Copy

variable (source target : Uuid)

/-- One write group with the thread id replaced in the values of its inner keys. -/
def copyWriteGroup (writes : WriteGroup) : Option WriteGroup :=
  (writes.entries.mapM (fun e =>
    ((replaceThreadId e.2.toData target source).bind PendingWrite.ofData?).map (e.1, ·))).map Dict.ofPairs

/-- The loop over the write keys of the source thread. `error` is the state
that a raise leaves behind. -/
def copyWriteGroups : List WriteKey → Memory → Except Memory Memory
  | [], m => .ok m
  | key :: keys, m =>
    match (m.writes.get? key).bind (copyWriteGroup source target) with
    | none => .error m
    | some mapped =>
      copyWriteGroups keys { m with writes := m.writes.set { key with thread := target.str } mapped }

def copyBlobs (blobs : Dict BlobKey Typed) : Dict BlobKey Typed :=
  blobs.entries.foldl (fun copied e =>
    if e.1.thread = source.str then copied.set { e.1 with thread := target.str } e.2 else copied) blobs

/-- The built-in saver's part of `Threads.copy`. Reading `storage[source]`
creates an empty entry where there is none. -/
def Memory.copyThread (m : Memory) : Except Memory Memory :=
  let namespaces := (m.storage.get? source.str).getD .empty
  let read := { m with storage := m.storage.set source.str namespaces }
  match (replaceThreadId (namespacesToData namespaces) target source).bind namespacesOfData? with
  | none => .error read
  | some copied =>
    (copyWriteGroups source target (m.writes.keys.filter (fun key => key.thread = source.str))
      { read with storage := read.storage.set target.str copied }).map (fun m =>
        { m with
          blobs := copyBlobs source target m.blobs
          sizeState := m.sizeState.copyThread source.str target.str })

end Copy

end InmemRuntime
