import InmemRuntime.Lib.Buckets
import InmemRuntime.Lib.EventLoop
import InmemRuntime.ThreadTtl

namespace InmemRuntime

abbrev Namespace := List String

/-- `(namespace, key)` -/
abbrev ItemKey := Namespace × String

structure Item where
  value : PyDict
  key : String
  ns : Namespace
  createdAt : Time
  updatedAt : Time

/-- What a search returns of an item. -/
structure SearchItem extends Item where
  score : Option PyFloat

abbrev Embedding := List PyFloat

/-- The vectors of an item, one for each embedded path. -/
abbrev ItemVectors := Dict String Embedding

structure GetOp where
  ns : Namespace
  key : String
  refreshTtl : Bool

structure SearchOp where
  namespacePrefix : Namespace
  filter : PyDict
  limit : Nat
  offset : Nat
  query : Option String
  refreshTtl : Bool

/-- `index`: the configured fields, none, or the given paths. -/
inductive ItemIndex where
  | configured
  | off
  | paths (paths : List String)
deriving DecidableEq

/-- A put; `value` is `None` for a deletion. -/
structure PutOp where
  ns : Namespace
  key : String
  value : Option PyDict
  index : ItemIndex
  ttl : Option PyFloat

structure ListNamespacesOp where
  matchConditions : List (String × List String)
  maxDepth : Option Nat
  limit : Nat
  offset : Nat

inductive StoreOp where
  | get (op : GetOp)
  | search (op : SearchOp)
  | put (op : PutOp)
  | listNamespaces (op : ListNamespacesOp)

def PutOp.itemKey (op : PutOp) : ItemKey := (op.ns, op.key)

inductive ItemResult where
  | none
  | item (found : Item)
  | items (found : List SearchItem)
  | namespaces (found : List Namespace)

def StoreOp.put? : StoreOp → Option PutOp
  | .put op => some op
  | _ => none

/-- `_data` and `_vectors` -/
structure StoreContents where
  data : Buckets Namespace String Item
  vectors : Buckets Namespace String ItemVectors

namespace StoreContents

def item? (c : StoreContents) (k : ItemKey) : Option Item := c.data.find? k.1 k.2

def vectors? (c : StoreContents) (k : ItemKey) : Option ItemVectors := c.vectors.find? k.1 k.2

end StoreContents

abbrev Candidates := List (Item × List Embedding)

abbrev SearchOps := Dict Nat (SearchOp × Candidates)

/-- What `_prepare_ops` returns. -/
structure Prepared where
  results : List ItemResult
  putOps : Dict ItemKey PutOp
  searchOps : SearchOps

/-- The vectors that the embedding model gives for texts. -/
abbrev Embeddings := List (String × Embedding)

/-- langgraph's `InMemoryStore`, which `DiskBackedInMemStore` extends, and what
its methods are relied on for: `_prepare_ops` changes no item, keeps the last
put of each key and lists the searches; `_batch_search` writes the results of
the searches and no others; the vectors of embedded texts are stored under keys
that are put; `_apply_put_ops` stores the items, and a put of `None` removes
the data and the vectors of its key. -/
structure InMemoryStore where
  prepareOps : StoreContents → List StoreOp → Except PyError (StoreContents × Prepared)
  batchSearch : SearchOps → Embeddings → List ItemResult → Except PyError (List ItemResult)
  extractTexts : Dict ItemKey PutOp → List String
  insertVectors : StoreContents → Dict ItemKey PutOp → Embeddings → Except PyError StoreContents
  applyPutOps : StoreContents → Dict ItemKey PutOp → Time → StoreContents
  prepareOps_law : ∀ {c c' ops p}, prepareOps c ops = .ok (c', p) →
    (∀ k, c'.item? k = c.item? k) ∧ (∀ k, c'.vectors? k = c.vectors? k) ∧
    (∀ k, p.putOps.get? k = (ops.filterMap StoreOp.put?).reverse.find? (fun op => op.itemKey = k)) ∧
    (∀ i op, ops[i]? = some (.search op) ↔ ∃ candidates, p.searchOps.get? i = some (op, candidates))
  batchSearch_law : ∀ {searches queries results results'}, batchSearch searches queries results = .ok results' →
    ∀ i, searches.get? i = none → results'[i]? = results[i]?
  insertVectors_law : ∀ {c c' puts texts}, insertVectors c puts texts = .ok c' →
    (∀ k, c'.item? k = c.item? k) ∧
    (∀ k, (∀ op, puts.get? k = some op → op.value = none) → c'.vectors? k = c.vectors? k)
  applyPutOps_law : ∀ c puts now k,
    (puts.get? k = none → (applyPutOps c puts now).item? k = c.item? k ∧
      (applyPutOps c puts now).vectors? k = c.vectors? k) ∧
    (∀ op, puts.get? k = some op → op.value = none →
      (applyPutOps c puts now).item? k = none ∧ (applyPutOps c puts now).vectors? k = none) ∧
    (∀ op value, puts.get? k = some op → op.value = some value →
      ∃ item : Item, (applyPutOps c puts now).item? k = some item ∧
        item.value = value ∧ (item.ns, item.key) = k)

/-- `SizeTracker` -/
structure SizeTracker where
  entries : Dict ItemKey Nat
  totalBytes : Int

namespace SizeTracker

def cleared : SizeTracker := ⟨.empty, 0⟩

/-- `size_bytes` is not negative, so `max(0, size_bytes)` is the size. -/
def setSize (t : SizeTracker) (entry : ItemKey) (sizeBytes : Nat) : SizeTracker :=
  ⟨t.entries.set entry sizeBytes, t.totalBytes + ((sizeBytes : Int) - ((t.entries.get? entry).getD 0 : Nat))⟩

/-- The entry is dropped, and its estimate returned. -/
def remove (t : SizeTracker) (entry : ItemKey) : SizeTracker × Nat :=
  (⟨t.entries.erase entry, t.totalBytes - ((t.entries.get? entry).getD 0 : Nat)⟩, (t.entries.get? entry).getD 0)

end SizeTracker

structure StoreTtlRecord where
  expiresAt : Time
  ttlMinutes : PyFloat
deriving DecidableEq

/-- `StoreTTLSweepStats`, without the ratio of its sizes. -/
structure StoreTtlSweepStats where
  deletedItems : Nat
  deletedSizeBytes : Nat
  totalBeforeBytes : Int
deriving DecidableEq

structure DiskBackedInMemStore extends StoreContents where
  ttl : Dict ItemKey StoreTtlRecord
  sizeTracker : SizeTracker
  lastTtlSweepStats : StoreTtlSweepStats
  operationLocked : Bool

/-- `estimate_pickle_size` of an item with its keys and vectors. -/
abbrev PickleSize := ItemKey → Option Item → Option ItemVectors → Nat

namespace DiskBackedInMemStore

section Keeping

variable (estimate : PickleSize)

def estimateItemSize (s : DiskBackedInMemStore) (k : ItemKey) : Nat := estimate k (s.item? k) (s.vectors? k)

def trackItemSize (s : DiskBackedInMemStore) (k : ItemKey) : DiskBackedInMemStore :=
  if (s.item? k).isNone then { s with sizeTracker := (s.sizeTracker.remove k).1 }
  else { s with sizeTracker := s.sizeTracker.setSize k (s.estimateItemSize estimate k) }

def dropOrphanedTtlRecords (s : DiskBackedInMemStore) : DiskBackedInMemStore :=
  { s with ttl := s.ttl.keys.foldl (fun ttl k => if (s.item? k).isNone then ttl.erase k else ttl) s.ttl }

def rebuildSizeTracking (s : DiskBackedInMemStore) : DiskBackedInMemStore :=
  s.data.pairs.foldl (trackItemSize estimate) { s with sizeTracker := .cleared }

/-- `__init__` on what the persistent dictionaries have loaded. -/
def load (c : StoreContents) (ttl : Dict ItemKey StoreTtlRecord) : DiskBackedInMemStore :=
  let s := rebuildSizeTracking estimate (dropOrphanedTtlRecords ⟨c, ttl, .cleared, ⟨0, 0, 0⟩, false⟩)
  { s with lastTtlSweepStats := ⟨0, 0, s.sizeTracker.totalBytes⟩ }

end Keeping

/-- `now + timedelta(minutes=ttl_minutes)` -/
def expiry (now : Time) (ttlMinutes : PyFloat) : Except PyError Time :=
  timedeltaMinutes ttlMinutes >>= addDelta now

def refreshTtl (now : Time) (ttl : Dict ItemKey StoreTtlRecord) (k : ItemKey) :
    Except PyError (Dict ItemKey StoreTtlRecord) :=
  match ttl.get? k with
  | none => .ok ttl
  | some record => do
    let expiresAt ← expiry now record.ttlMinutes
    .ok (ttl.set k ⟨expiresAt, record.ttlMinutes⟩)

/-- The records of several keys in turn; those before one that raises are refreshed. -/
def refreshAll (now : Time) (s : DiskBackedInMemStore) :
    List ItemKey → DiskBackedInMemStore × Except PyError Unit
  | [] => (s, .ok ())
  | k :: ks =>
    match refreshTtl now s.ttl k with
    | .error e => (s, .error e)
    | .ok ttl => refreshAll now { s with ttl := ttl } ks

end DiskBackedInMemStore

/-- `isinstance(results[index], Item)` -/
def ItemResult.isItem : ItemResult → Bool
  | .item _ => true
  | _ => false

/-- `results[index] or []` of a search. -/
def ItemResult.listed : ItemResult → List SearchItem
  | .items found => found
  | _ => []

/-- The key of a get that returns an item and refreshes it. -/
def refreshedByGet? : StoreOp × ItemResult → Option ItemKey
  | (.get op, result) => if op.refreshTtl ∧ result.isItem then some (op.ns, op.key) else none
  | _ => none

def refreshedByGets (ops : List StoreOp) (results : List ItemResult) : List ItemKey :=
  (ops.zip results).filterMap refreshedByGet?

/-- The keys of the items that the searches return and refresh. -/
def refreshedBySearches (searches : SearchOps) (results : List ItemResult) : List ItemKey :=
  searches.entries.flatMap (fun e =>
    if e.2.1.refreshTtl then
      ((results[e.1]?.map ItemResult.listed).getD []).map (fun item => (item.ns, item.key))
    else [])

/-- The clock readings of a turn and what the embedding model answers. -/
structure StoreReply where
  readAt : Time
  searchedAt : Time
  writtenAt : Time
  createdAt : Time
  queries : Except PyError Embeddings
  texts : Except PyError Embeddings

namespace DiskBackedInMemStore

section Batches

variable (base : InMemoryStore) (estimate : PickleSize)

def prepareOps (s : DiskBackedInMemStore) (ops : List StoreOp) (now : Time) :
    DiskBackedInMemStore × Except PyError Prepared :=
  match base.prepareOps s.toStoreContents ops with
  | .error e => (s, .error e)
  | .ok (c, prepared) =>
    let (s, refreshed) := refreshAll now { s with toStoreContents := c } (refreshedByGets ops prepared.results)
    (s, refreshed.map (fun _ => prepared))

def batchSearch (s : DiskBackedInMemStore) (searches : SearchOps) (queries : Embeddings) (results : List ItemResult)
    (now : Time) : DiskBackedInMemStore × Except PyError (List ItemResult) :=
  match base.batchSearch searches queries results with
  | .error e => (s, .error e)
  | .ok results =>
    let (s, refreshed) := refreshAll now s (refreshedBySearches searches results)
    (s, refreshed.map (fun _ => results))

/-- The record that a put leaves. -/
def ttlUpdate (now : Time) (op : PutOp) : Except PyError (Option StoreTtlRecord) :=
  match op.value, op.ttl with
  | some _, some ttlMinutes => do
    let expiresAt ← expiry now ttlMinutes
    .ok (some ⟨expiresAt, ttlMinutes⟩)
  | _, _ => .ok none

/-- The records of all puts, before anything is changed. -/
def ttlUpdates (now : Time) : List (ItemKey × PutOp) → Except PyError (List (ItemKey × Option StoreTtlRecord))
  | [] => .ok []
  | (k, op) :: puts => do
    let record ← ttlUpdate now op
    let records ← ttlUpdates now puts
    .ok ((k, record) :: records)

def setRecord (ttl : Dict ItemKey StoreTtlRecord) (update : ItemKey × Option StoreTtlRecord) :
    Dict ItemKey StoreTtlRecord :=
  match update.2 with
  | none => ttl.erase update.1
  | some record => ttl.set update.1 record

/-- The empty buckets of the namespaces are dropped. -/
def dropEmptyBuckets (s : DiskBackedInMemStore) (namespaces : List Namespace) : DiskBackedInMemStore :=
  { s with
    data := namespaces.foldl Buckets.dropIfEmpty s.data
    vectors := namespaces.foldl Buckets.dropIfEmpty s.vectors }

def applyPutOps (s : DiskBackedInMemStore) (puts : Dict ItemKey PutOp) (now createdAt : Time) :
    DiskBackedInMemStore × Except PyError Unit :=
  match ttlUpdates now puts.entries with
  | .error e => (s, .error e)
  | .ok updates =>
    let s := { s with
      toStoreContents := base.applyPutOps s.toStoreContents puts createdAt
      ttl := updates.foldl setRecord s.ttl }
    let s := puts.keys.foldl (trackItemSize estimate) s
    (s.dropEmptyBuckets (puts.keys.map Prod.fst), .ok ())

/-- The searches of a batch, when it has any. -/
def search (s : DiskBackedInMemStore) (prepared : Prepared) (reply : StoreReply) :
    DiskBackedInMemStore × Except PyError (List ItemResult) :=
  if prepared.searchOps.entries.isEmpty then (s, .ok prepared.results)
  else
    match reply.queries with
    | .error e => (s, .error e)
    | .ok queries => s.batchSearch base prepared.searchOps queries prepared.results reply.searchedAt

/-- The texts of the puts are embedded, when there are any, and the puts applied. -/
def write (s : DiskBackedInMemStore) (puts : Dict ItemKey PutOp) (reply : StoreReply) :
    DiskBackedInMemStore × Except PyError Unit :=
  if (base.extractTexts puts).isEmpty then s.applyPutOps base estimate puts reply.writtenAt reply.createdAt
  else
    match reply.texts with
    | .error e => (s, .error e)
    | .ok texts =>
      match base.insertVectors s.toStoreContents puts texts with
      | .error e => (s, .error e)
      | .ok c => { s with toStoreContents := c }.applyPutOps base estimate puts reply.writtenAt reply.createdAt

/-- `InMemoryStore.batch` over the methods above. -/
def batch (s : DiskBackedInMemStore) (ops : List StoreOp) (reply : StoreReply) :
    DiskBackedInMemStore × Except PyError (List ItemResult) :=
  match s.prepareOps base ops reply.readAt with
  | (s, .error e) => (s, .error e)
  | (s, .ok prepared) =>
    match s.search base prepared reply with
    | (s, .error e) => (s, .error e)
    | (s, .ok results) =>
      match s.write base estimate prepared.putOps reply with
      | (s, .error e) => (s, .error e)
      | (s, .ok ()) => (s, .ok results)

end Batches

/-- An expired item goes, with its vectors, its record and its size. The counts
are of the items and of their sizes. -/
def sweepItem (out : DiskBackedInMemStore × Nat × Nat) (k : ItemKey) : DiskBackedInMemStore × Nat × Nat :=
  let (s, deleted, deletedSize) := out
  let (sizeTracker, size) := s.sizeTracker.remove k
  let swept := { s with
    data := s.data.discard k.1 k.2
    vectors := s.vectors.discard k.1 k.2
    ttl := s.ttl.erase k
    sizeTracker := sizeTracker }
  if (s.item? k).isSome then (swept, deleted + 1, deletedSize + size) else (swept, deleted, deletedSize)

/-- The keys whose record has expired. -/
def expired (s : DiskBackedInMemStore) (now : Time) : List ItemKey :=
  (s.ttl.filter (fun _ record => record.expiresAt ≤ now)).keys

def sweepTtl (s : DiskBackedInMemStore) (now : Time) : DiskBackedInMemStore × Nat :=
  let (swept, deleted, deletedSize) := (s.expired now).foldl sweepItem (s, 0, 0)
  ({ swept.dropEmptyBuckets ((s.expired now).map Prod.fst) with
      lastTtlSweepStats := ⟨deleted, deletedSize, s.sizeTracker.totalBytes⟩ }, deleted)

end DiskBackedInMemStore

end InmemRuntime
