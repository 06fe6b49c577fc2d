import InmemRuntime.Saver
import Mathlib.Data.List.MinMax
import Mathlib.Data.String.Basic

namespace InmemRuntime

inductive PruneStrategy where
  | delete
  | deleteAll
  | keepLatest
  | other (name : String)
deriving DecidableEq

/-- `ValueError`: unsupported prune strategy. -/
inductive PruneError where
  | unsupportedStrategy (name : String)
deriving DecidableEq

/-- `blob is None or blob[0] == "empty"` -/
def isUnmaterialized : Option Typed → Bool
  | none => true
  | some blob => blob.kind = "empty"

namespace Serde

variable (serde : Serde)

def channelVersions (entry : CheckpointEntry) : Dict String Version :=
  (serde.loadsTyped entry.checkpoint).channelVersions

end Serde

section Walk

variable (serde : Serde) (blobs : Dict BlobKey Typed) (threadId ns : String)

/-- Channels of the newest checkpoint whose value is not materialized there. -/
def neededChannels (latest : CheckpointEntry) : List String :=
  ((serde.channelVersions latest).entries.filter (fun e =>
    isUnmaterialized (blobs.get? ⟨threadId, ns, e.1, e.2⟩))).map Prod.fst

/-- One pass of the inner loop: channels that `parent` materializes are met. -/
def stillNeeded (parent : CheckpointEntry) (needed : List String) : List String :=
  needed.filter (fun channel =>
    match (serde.channelVersions parent).get? channel with
    | none | some .none => true
    | some version => isUnmaterialized (blobs.get? ⟨threadId, ns, channel, version⟩))

/-- The `while` loop over the parent chain. `none` means the fuel ran out
before the loop ended. -/
def keepAncestors (checkpoints : Checkpoints) :
    Nat → Option PyId → List String → List PyId → Option (List PyId)
  | _, none, _, keep => some keep
  | _, some _, [], keep => some keep
  | 0, some _, _ :: _, _ => none
  | fuel + 1, some parentId, channel :: needed, keep =>
    match checkpoints.get? parentId with
    | none => some keep
    | some entry =>
      keepAncestors checkpoints fuel entry.parent
        (stillNeeded serde blobs threadId ns entry (channel :: needed)) (parentId :: keep)

/-- `max(checkpoints, key=str)` -/
def latestId? (checkpoints : Checkpoints) : Option PyId :=
  checkpoints.keys.argmax PyId.str

def keepIds (fuel : Nat) (checkpoints : Checkpoints) (latestId : PyId)
    (latest : CheckpointEntry) : Option (List PyId) :=
  keepAncestors serde blobs threadId ns checkpoints fuel latest.parent
    (neededChannels serde blobs threadId ns latest) [latestId]

/-- What one thread's loop over its namespaces accumulates. -/
structure PruneAcc where
  namespaces : Namespaces
  keptWriteKeys : List (String × String × String)
  keptBlobKeys : List BlobKey
  removedSize : Nat
  removedCheckpoints : Nat

def keptBlobKeysOf (checkpoints : Checkpoints) (keep : List PyId) : List BlobKey :=
  keep.flatMap (fun id =>
    match checkpoints.get? id with
    | none => []
    | some entry => (serde.channelVersions entry).entries.map (fun e => ⟨threadId, ns, e.1, e.2⟩))

end Walk

section Prune

variable (serde : Serde) (fuel : Nat)

def pruneNamespace (blobs : Dict BlobKey Typed) (threadId : String) (acc : PruneAcc)
    (item : String × Checkpoints) : Option PruneAcc :=
  match latestId? item.2 with
  | none => some { acc with namespaces := acc.namespaces.erase item.1 }
  | some latestId => do
    let latest ← item.2.get? latestId
    let keep ← keepIds serde blobs threadId item.1 fuel item.2 latestId latest
    let removed := item.2.filter (fun id _ => !keep.contains id)
    some
      { namespaces := acc.namespaces.set item.1 (item.2.filter (fun id _ => keep.contains id))
        keptWriteKeys := acc.keptWriteKeys ++ keep.map (fun id => (threadId, item.1, id.str))
        keptBlobKeys := acc.keptBlobKeys ++ keptBlobKeysOf serde threadId item.1 item.2 keep
        removedSize := acc.removedSize + removed.sum checkpointEntrySize
        removedCheckpoints := acc.removedCheckpoints + removed.entries.length }

/-- The body of `prune(strategy="keep_latest")` for one thread id. -/
def pruneThread (m : Memory) (threadId : String) : Option Memory :=
  match m.storage.get? threadId with
  | none => some m
  | some namespaces =>
    if namespaces.entries.isEmpty then some m
    else do
      let acc ← namespaces.entries.foldlM (pruneNamespace serde fuel m.blobs threadId)
        ⟨namespaces, [], [], 0, 0⟩
      let dropsWrite : WriteKey → Bool := fun key =>
        key.thread = threadId && !acc.keptWriteKeys.contains (key.thread, key.ns, key.checkpoint.str)
      let dropsBlob : BlobKey → Bool := fun key =>
        key.thread = threadId && !acc.keptBlobKeys.contains key
      let removedSize := acc.removedSize +
        (m.writes.filter (fun key _ => dropsWrite key)).sum
          (fun key writes => writeGroupSize key.checkpoint writes) +
        (m.blobs.filter (fun key _ => dropsBlob key)).sum
          (fun key value => blobEntrySize key.channel key.version value)
      some
        { storage := m.storage.set threadId acc.namespaces
          writes := m.writes.filter (fun key _ => !dropsWrite key)
          blobs := m.blobs.filter (fun key _ => !dropsBlob key)
          sizeState := m.sizeState.adjust threadId (-removedSize) (-acc.removedCheckpoints) }

/-- `InMemorySaver.prune`. The outer `none` means that some parent walk did
not end within the fuel. -/
def prune (base : BaseSaver) (m : Memory) (threadIds : List PyId) :
    PruneStrategy → Option (Except PruneError Memory)
  | .delete | .deleteAll =>
    some (.ok (threadIds.foldl (fun m id => m.deleteThread base id.str) m))
  | .keepLatest =>
    (threadIds.foldlM (fun m id => pruneThread serde fuel m id.str) m).map .ok
  | .other name => some (.error (.unsupportedStrategy name))

end Prune

end InmemRuntime
