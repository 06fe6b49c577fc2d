import InmemRuntime.Lib.Dict

namespace InmemRuntime

structure PersistentDict (α : Type) where
  filename : String
  contents : α

inductive FlushThread where
  | notStarted
  | running
  | died
deriving DecidableEq

/-- The containers of a saver, as references. -/
structure SaverDicts where
  storage : Nat
  writes : Nat
  blobs : Nat

namespace SaverDicts

/-- The containers with the numbers that the factory has counted. -/
def numbered (c : SaverDicts) : List (Nat × Nat) := [(1, c.storage), (2, c.writes), (3, c.blobs)]

def all (c : SaverDicts) : List Nat := [c.storage, c.writes, c.blobs]

end SaverDicts

/-- The registry of `_persistence`, whose references are weak, and the dicts
that it refers to. `others` are in use outside the checkpointer, and `savers`
are the containers that the savers in use have been made with. -/
structure Persistence (α : Type) where
  stores : Dict String Nat
  thread : FlushThread
  dicts : Nat → PersistentDict α
  dictCount : Nat
  others : List Nat
  files : String → Option α
  memory : Option SaverDicts
  savers : List SaverDicts

/-- `os.path.join(".langgraph_api", ".langgraph_checkpoint.")` -/
def checkpointFilename : String := ".langgraph_api/.langgraph_checkpoint."

def checkpointFile (number : Nat) : String := checkpointFilename ++ toString number ++ ".pckl"

/-- A call of `Checkpointer`, with the files that can be loaded, a saver that
goes out of use, an operation that changes one of MEMORY's containers, or a tick
of the flush loop with the dicts whose `sync` would raise. -/
inductive FlushOp (α : Type) where
  | checkpointer (unpackHook : Bool) (loads loads' : Nat → Bool)
  | drop (saver : Nat)
  | write (number : Nat) (contents : α)
  | tick (raises : Nat → Bool)

namespace Persistence

variable {α : Type}

def start : FlushThread → FlushThread
  | .notStarted => .running
  | thread => thread

def registerPersistentDict (s : Persistence α) (d : Nat) : Persistence α :=
  { s with stores := s.stores.set (s.dicts d).filename d, thread := start s.thread }

section Saver

variable [Inhabited α]

def newDict (s : Persistence α) (filename : String) : Persistence α :=
  { s with
    dicts := fun i => if i = s.dictCount then ⟨filename, default⟩ else s.dicts i
    dictCount := s.dictCount + 1 }

/-- `factory` on its `number`-th call. A file that cannot be loaded stays: what
is removed has the name without the number. -/
def factory (s : Persistence α) (number : Nat) (loads : Nat → Bool) : Nat × Persistence α :=
  let d := s.dictCount
  let made := (s.newDict (checkpointFile number)).registerPersistentDict d
  match made.files (checkpointFile number) with
  | none => (d, made)
  | some stored =>
    if loads number then
      (d, { made with dicts := fun i => if i = d then ⟨checkpointFile number, stored⟩ else made.dicts i })
    else (d, { made with files := fun name => if name = checkpointFilename then none else made.files name })

/-- `InMemorySaver(...)`: the base class calls the factory once for each container. -/
def newSaver (s : Persistence α) (loads : Nat → Bool) : SaverDicts × Persistence α :=
  let (storage, s) := s.factory 1 loads
  let (writes, s) := s.factory 2 loads
  let (blobs, s) := s.factory 3 loads
  (⟨storage, writes, blobs⟩, s)

def withMemory (s : Persistence α) (loads : Nat → Bool) : Persistence α :=
  match s.memory with
  | some _ => s
  | none =>
    let (containers, s) := s.newSaver loads
    { s with memory := some containers }

/-- A saver with an `unpack_hook`, which is given the containers of MEMORY. -/
def withSaver (s : Persistence α) (loads : Nat → Bool) : Persistence α :=
  let (containers, s) := s.newSaver loads
  { s with savers := s.savers ++ [containers] }

def checkpointer (s : Persistence α) (unpackHook : Bool) (loads loads' : Nat → Bool) : Persistence α :=
  if unpackHook then (s.withMemory loads).withSaver loads' else s.withMemory loads

end Saver

/-- An operation of MEMORY, or of a saver that shares its containers. -/
def write (s : Persistence α) (number : Nat) (contents : α) : Persistence α :=
  match s.memory.bind (fun m => m.numbered.lookup number) with
  | none => s
  | some d =>
    { s with dicts := fun i => if i = d then { s.dicts d with contents := contents } else s.dicts i }

section Flush

variable (truthy : α → Bool) (held : Bool) (raises : Nat → Bool)

/-- A dict is in use. `held` says whether a saver keeps the containers that it
has been made with when it is given others. -/
def isLive (s : Persistence α) (d : Nat) : Bool :=
  s.others.contains d || s.memory.any (fun m => m.all.contains d) || held && s.savers.any (fun c => c.all.contains d)

/-- `if store := _stores[store_key]()`: the dict is in use, and not empty. -/
def store? (s : Persistence α) (key : String) : Option Nat :=
  (s.stores.get? key).filter (fun d => s.isLive held d && truthy (s.dicts d).contents)

/-- The loop over the keys: what is synced, and the keys to drop unless a `sync` raises. -/
def flushKeys (s : Persistence α) : List String → List Nat × Option (List String)
  | [] => ([], some [])
  | key :: keys =>
    match s.store? truthy held key with
    | none => ((flushKeys s keys).1, (flushKeys s keys).2.map (key :: ·))
    | some d => if raises d then ([], none) else (d :: (flushKeys s keys).1, (flushKeys s keys).2)

/-- The dicts that a tick syncs. -/
def syncs (s : Persistence α) : List Nat :=
  if s.thread = .running then (s.flushKeys truthy held raises s.stores.keys).1 else []

/-- `store.sync()` -/
def sync (s : Persistence α) (files : String → Option α) (d : Nat) : String → Option α :=
  fun name => if name = (s.dicts d).filename then some (s.dicts d).contents else files name

/-- One round of `_flush_loop`, which ends for good when a `sync` raises. -/
def tick (s : Persistence α) : Persistence α :=
  let synced := { s with files := (s.syncs truthy held raises).foldl s.sync s.files }
  if s.thread = .running then
    match (s.flushKeys truthy held raises s.stores.keys).2 with
    | none => { synced with thread := .died }
    | some drop => { synced with stores := drop.foldl Dict.erase s.stores }
  else synced

end Flush

section Run

variable [Inhabited α] (truthy : α → Bool) (held : Bool)

def after (s : Persistence α) : FlushOp α → Persistence α
  | .checkpointer unpackHook loads loads' => s.checkpointer unpackHook loads loads'
  | .drop saver => { s with savers := s.savers.eraseIdx saver }
  | .write number contents => s.write number contents
  | .tick raises => s.tick truthy held raises

def run (s : Persistence α) (ops : List (FlushOp α)) : Persistence α := ops.foldl (after truthy held) s

end Run

/-- No `sync` raises. -/
def quiet : Nat → Bool := fun _ => false

/-- Before the first call of `Checkpointer`: other dicts may be registered. -/
structure Loaded (s : Persistence α) : Prop where
  named : ∀ key d, s.stores.get? key = some d → d < s.dictCount ∧ (s.dicts d).filename = key
  unmade : s.memory = none
  alive : s.thread ≠ .died
  unregistered : ∀ number ∈ [1, 2, 3], s.stores.get? (checkpointFile number) = none

/-- A tick writes to each checkpoint file what the container of MEMORY holds,
and to none of them what another dict holds. -/
def SyncsMemory (truthy : α → Bool) (held : Bool) (s : Persistence α) : Prop :=
  ∀ m, s.memory = some m → ∀ e ∈ m.numbered,
    (s.syncs truthy held quiet).filter (fun d => (s.dicts d).filename = checkpointFile e.1) = [e.2] ∧
      (s.tick truthy held quiet).files (checkpointFile e.1) = some (s.dicts e.2).contents ∧
      ∀ raises, ∀ d ∈ s.syncs truthy held raises, (s.dicts d).filename = checkpointFile e.1 → d = e.2

/-- No container of MEMORY is empty. -/
def MemoryFilled (truthy : α → Bool) (s : Persistence α) : Prop :=
  ∀ m, s.memory = some m → ∀ e ∈ m.numbered, truthy (s.dicts e.2).contents = true

/-- No saver gets an `unpack_hook`, no `sync` raises, and no tick finds a container of MEMORY empty. -/
def Harmless (truthy : α → Bool) (held : Bool) (s : Persistence α) : FlushOp α → Prop
  | .checkpointer unpackHook _ _ => unpackHook = false
  | .tick raises => s.thread = .running →
      (∀ key d, s.store? truthy held key = some d → raises d = false) ∧ s.MemoryFilled truthy
  | .drop _ | .write _ _ => True

end Persistence

end InmemRuntime
