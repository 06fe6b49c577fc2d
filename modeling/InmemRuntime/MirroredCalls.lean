import InmemRuntime.ThreadMirror

namespace InmemRuntime

namespace Memory

variable {base : BaseSaver} {m : Memory} {config : RunnableConfig}

/-- The in-memory saver's `put` leaves the containers as the base class does. -/
theorem put_of_base {checkpoint : Checkpoint} {metadata : PyDict} {newVersions : Dict String Version} {c : Containers}
    (run : base.put m.toContainers config checkpoint (putMetadata config metadata) newVersions = some c) :
    ∃ m', m.put base config checkpoint metadata newVersions = some m' ∧ m'.toContainers = c := by
  obtain ⟨ns, entry, value, atNs, storage, -, -⟩ := base.put_law run
  have stored : entryAt c config.threadId ns checkpoint.id = some entry := by
    simp [entryAt, storage]
  unfold put
  simp only [atNs, run, stored, Option.bind_eq_bind, Option.bind_some]
  exact ⟨_, rfl, rfl⟩

theorem put_of_base_none {checkpoint : Checkpoint} {metadata : PyDict} {newVersions : Dict String Version}
    (run : base.put m.toContainers config checkpoint (putMetadata config metadata) newVersions = none) :
    m.put base config checkpoint metadata newVersions = none := by
  unfold put
  cases config.checkpointNs with
  | none => rfl
  | some ns => simp only [run, Option.bind_eq_bind, Option.bind_some, Option.bind_none]

theorem putWrites_of_base {writes : List (String × PyVal)} {taskId taskPath : String} {c : Containers}
    (run : base.putWrites m.toContainers config writes taskId taskPath = some c) :
    ∃ m', m.putWrites base config writes taskId taskPath = some m' ∧ m'.toContainers = c := by
  obtain ⟨id, atId, -⟩ := base.putWrites_law run
  unfold putWrites
  simp only [atId, run, Option.bind_eq_bind, Option.bind_some]
  exact ⟨_, rfl, rfl⟩

theorem putWrites_of_base_none {writes : List (String × PyVal)} {taskId taskPath : String}
    (run : base.putWrites m.toContainers config writes taskId taskPath = none) :
    m.putWrites base config writes taskId taskPath = none := by
  unfold putWrites
  cases config.checkpointId with
  | none => rfl
  | some id => simp only [run, Option.bind_eq_bind, Option.bind_some, Option.bind_none]

end Memory

@[simp] theorem RunnableConfig.inThread_threadId (config : RunnableConfig) (t : String) :
    (config.inThread t).threadId = t := rfl

@[simp] theorem RunnableConfig.inThread_checkpointNs (config : RunnableConfig) (t : String) :
    (config.inThread t).checkpointNs = config.checkpointNs := rfl

@[simp] theorem putMetadata_inThread (config : RunnableConfig) (t : String) (metadata : PyDict) :
    putMetadata (config.inThread t) metadata = putMetadata config metadata := rfl

/-- A thread mirrors another, and its mapping is a plain dict just when the
other's is and `was` holds. -/
structure Mirrored {codec : Codec} (L : Likeness codec) (was : Prop) (m : KindedMemory) (t : String)
    (m' : KindedMemory) (t' : String) : Prop where
  mirrors : Mirrors L m.toContainers t m'.toContainers t'
  kind : t ∈ m.plain ↔ was ∧ t' ∈ m'.plain

/-- The call finds its namespace, or a mapping that makes it. -/
def SaverCall.Reaches (call : SaverCall) (m : KindedMemory) (threadId : String) : Prop :=
  ∀ ns, call.indexed = some ns → m.indexes threadId ns = true

namespace Mirrored

variable {saver : IndexedSaver} {L : Likeness saver.codec} {was : Prop} {m m' : KindedMemory} {t t' : String}

theorem indexes_eq (mirrored : Mirrored L was m t m' t') {ns : String} (reach : was ∨ m'.indexes t' ns = true) :
    m.indexes t ns = m'.indexes t' ns := by
  have present := (mirrored.mirrors.checkpoints ns).isSome_eq
  unfold KindedMemory.indexes at reach ⊢
  rw [present]
  by_cases old : was
  · have kinds : t ∈ m.plain ↔ t' ∈ m'.plain := by rw [mirrored.kind, and_iff_right old]
    simp only [kinds]
  · have anew : t ∉ m.plain := fun plain => old (mirrored.kind.mp plain).1
    rw [(reach.resolve_left old)]
    simp [anew]

theorem put (mirrored : Mirrored L was m t m' t') (values : Dict String PyVal) {config : RunnableConfig}
    (checkpoint : Checkpoint) (metadata : PyDict) (newVersions : Dict String Version)
    (reach : ∀ ns, config.checkpointNs = some ns → was ∨ m'.indexes t' ns = true) :
    let alike := fun m m' => Mirrored L was m t m' t'
    EndAlike alike alike (m.put saver values (config.inThread t) checkpoint metadata newVersions)
      (m'.put saver values (config.inThread t') checkpoint metadata newVersions) := by
  intro alike
  have ends := put_alike mirrored.mirrors values config checkpoint (putMetadata config metadata) newVersions
  unfold KindedMemory.put
  simp only [RunnableConfig.inThread_checkpointNs, RunnableConfig.inThread_threadId, putMetadata_inThread,
    saver.put_law]
  cases atNs : config.checkpointNs with
  | none => exact .error mirrored
  | some ns =>
    have indexes := mirrored.indexes_eq (reach ns atNs)
    have base : ∀ t (c : Containers), (saver.base values).put c (config.inThread t) checkpoint
        (putMetadata (config.inThread t) metadata) newVersions =
          (saver.codec.put values c (config.inThread t) checkpoint (putMetadata config metadata)
            newVersions).toOption := fun t c => congrArg Except.toOption (saver.put_law ..)
    have run := base t m.toContainers
    have run' := base t' m'.toContainers
    simp only [indexes]
    generalize saver.codec.put values m.toContainers _ _ _ _ = left at ends run ⊢
    generalize saver.codec.put values m'.toContainers _ _ _ _ = left' at ends run' ⊢
    cases ends with
    | error leaves =>
      rw [Memory.put_of_base_none run, Memory.put_of_base_none run']
      simp only [KindedMemory.left]
      split
      · exact .error ⟨leaves, mirrored.kind⟩
      · exact .error ⟨mirrored.mirrors.withBlobs leaves.blobs, mirrored.kind⟩
    | ok leaves =>
      obtain ⟨after, returns, same⟩ := Memory.put_of_base run
      obtain ⟨after', returns', same'⟩ := Memory.put_of_base run'
      rw [returns, returns']
      simp only [KindedMemory.left]
      split
      · exact .ok ⟨by rwa [same, same'], mirrored.kind⟩
      · exact .error ⟨mirrored.mirrors.withBlobs leaves.blobs, mirrored.kind⟩

theorem putWrites (mirrored : Mirrored L was m t m' t') (config : RunnableConfig)
    (writes : List (String × PyVal)) (taskId taskPath : String) :
    let alike := fun m m' => Mirrored L was m t m' t'
    EndAlike alike alike (m.putWrites saver (config.inThread t) writes taskId taskPath)
      (m'.putWrites saver (config.inThread t') writes taskId taskPath) := by
  intro alike
  have ends := putWrites_alike mirrored.mirrors config writes taskId taskPath
  have base : ∀ t (c : Containers), (saver.base .empty).putWrites c (config.inThread t) writes taskId taskPath =
      (saver.codec.putWrites c (config.inThread t) writes taskId taskPath).toOption :=
    fun t c => congrArg Except.toOption (saver.putWrites_law ..)
  have run := base t m.toContainers
  have run' := base t' m'.toContainers
  unfold KindedMemory.putWrites
  simp only [saver.putWrites_law]
  generalize saver.codec.putWrites m.toContainers _ _ _ _ = left at ends run ⊢
  generalize saver.codec.putWrites m'.toContainers _ _ _ _ = left' at ends run' ⊢
  cases ends with
  | error leaves =>
    rw [Memory.putWrites_of_base_none run, Memory.putWrites_of_base_none run']
    exact .error ⟨leaves, mirrored.kind⟩
  | ok leaves =>
    obtain ⟨after, returns, same⟩ := Memory.putWrites_of_base run
    obtain ⟨after', returns', same'⟩ := Memory.putWrites_of_base run'
    rw [returns, returns']
    exact .ok ⟨by rwa [same, same'], mirrored.kind⟩

theorem getTuple (mirrored : Mirrored L was m t m' t') (config : RunnableConfig)
    (reach : was ∨ m'.indexes t' (config.checkpointNs.getD "") = true) :
    EndAlike (fun m m' => Mirrored L was m t m' t')
      (fun r r' => Mirrored L was r.1 t r'.1 t' ∧ r.2.map L.see = r'.2.map L.see)
      (m.getTuple saver (config.inThread t)) (m'.getTuple saver (config.inThread t')) := by
  have ends := getTuple_alike mirrored.mirrors
    { config with checkpointId := config.checkpointId.map (fun id => .text id.str) }
  have indexes := mirrored.indexes_eq reach
  unfold KindedMemory.getTuple
  simp only [RunnableConfig.inThread, saver.getTuple_law, indexes] at ends ⊢
  split
  · generalize saver.codec.getTuple m.toContainers _ = left at ends ⊢
    generalize saver.codec.getTuple m'.toContainers _ = left' at ends ⊢
    cases ends with
    | error leaves => exact .error ⟨leaves, mirrored.kind⟩
    | ok both => exact .ok ⟨⟨both.1, mirrored.kind⟩, both.2⟩
  · exact .error mirrored

theorem prune (mirrored : Mirrored L was m t m' t') (fuel : Nat) (strategy : PruneStrategy) :
    Option.Rel (EndAlike Eq (fun m m' => Mirrored L was m t m' t')) (m.prune saver fuel t strategy)
      (m'.prune saver fuel t' strategy) := by
  have emptied : Mirrors L (m.toMemory.deleteThread (saver.base .empty) t).toContainers t
      (m'.toMemory.deleteThread (saver.base .empty) t').toContainers t' :=
    deleteThread_alike (saver.base .empty) m.toContainers m'.toContainers t t'
  have deleted : Mirrored L was
      ⟨m.toMemory.deleteThread (saver.base .empty) t, m.plain.erase t⟩ t
      ⟨m'.toMemory.deleteThread (saver.base .empty) t', m'.plain.erase t'⟩ t' :=
    ⟨emptied, by simp⟩
  cases strategy with
  | delete => exact .some (.ok deleted)
  | deleteAll => exact .some (.ok deleted)
  | other name => exact .some (.error rfl)
  | keepLatest =>
    have ends := pruneThread_alike mirrored.mirrors fuel
    simp only [KindedMemory.prune, InmemRuntime.prune, List.foldlM_cons, List.foldlM_nil, PyId.str]
    generalize pruneThread saver.codec.serde fuel m.toMemory t = left at ends ⊢
    generalize pruneThread saver.codec.serde fuel m'.toMemory t' = left' at ends ⊢
    cases ends with
    | none => exact .none
    | some mirrors => exact .some (.ok ⟨mirrors, mirrored.kind⟩)

/-- One call on two threads that mirror each other ends alike, and they still do. -/
theorem run (mirrored : Mirrored L was m t m' t') (fuel : Nat) {call : SaverCall}
    (reach : was ∨ call.Reaches m' t') :
    Mirrored L was (call.run saver fuel t m).1 t (call.run saver fuel t' m').1 t' ∧
      (call.run saver fuel t m).2.map L.see = (call.run saver fuel t' m').2.map L.see := by
  cases call with
  | put values config checkpoint metadata newVersions =>
    have ends := mirrored.put values checkpoint metadata newVersions
      (fun ns atNs => reach.imp id (fun finds => finds ns atNs))
    simp only [SaverCall.run]
    generalize m.put saver values _ _ _ _ = left at ends ⊢
    generalize m'.put saver values _ _ _ _ = left' at ends ⊢
    cases ends with
    | error leaves => exact ⟨leaves, rfl⟩
    | ok leaves => exact ⟨leaves, rfl⟩
  | putWrites config writes taskId taskPath =>
    have ends := mirrored.putWrites config writes taskId taskPath
    simp only [SaverCall.run]
    generalize m.putWrites saver _ _ _ _ = left at ends ⊢
    generalize m'.putWrites saver _ _ _ _ = left' at ends ⊢
    cases ends with
    | error leaves => exact ⟨leaves, rfl⟩
    | ok leaves => exact ⟨leaves, rfl⟩
  | getTuple config =>
    have ends := mirrored.getTuple config (reach.imp id (fun finds => finds _ rfl))
    simp only [SaverCall.run]
    generalize m.getTuple saver _ = left at ends ⊢
    generalize m'.getTuple saver _ = left' at ends ⊢
    cases ends with
    | error leaves => exact ⟨leaves, rfl⟩
    | ok both => exact ⟨both.1, congrArg Answer.found both.2⟩
  | prune strategy =>
    have ends := mirrored.prune fuel strategy
    simp only [SaverCall.run]
    generalize m.prune saver fuel t strategy = left at ends ⊢
    generalize m'.prune saver fuel t' strategy = left' at ends ⊢
    cases ends with
    | none => exact ⟨mirrored, rfl⟩
    | some ended =>
      cases ended with
      | error same => exact ⟨mirrored, rfl⟩
      | ok leaves => exact ⟨leaves, rfl⟩

end Mirrored

/-- The thread is stored in `c'` as it is in `c`. -/
structure Containers.SameAt (u : String) (c c' : Containers) : Prop where
  checkpoints : ∀ ns, c'.checkpoints? u ns = c.checkpoints? u ns
  writes : ∀ ns id, c'.writes.get? ⟨u, ns, id⟩ = c.writes.get? ⟨u, ns, id⟩
  blobs : ∀ ns channel version, c'.blobs.get? ⟨u, ns, channel, version⟩ = c.blobs.get? ⟨u, ns, channel, version⟩

structure KindedMemory.SameAt (u : String) (m m' : KindedMemory) : Prop where
  stored : m.toContainers.SameAt u m'.toContainers
  kind : u ∈ m'.plain ↔ u ∈ m.plain

namespace Containers.SameAt

variable {c c' : Containers} {t u : String}

theorem refl (u : String) (c : Containers) : c.SameAt u c :=
  ⟨fun _ => rfl, fun _ _ => rfl, fun _ _ _ => rfl⟩

theorem withCheckpoints (same : c.SameAt u c') (other : u ≠ t) (ns : String) (checkpoints : Checkpoints) :
    c.SameAt u (c'.withCheckpoints t ns checkpoints) where
  checkpoints ns' := by
    rw [checkpoints?_withCheckpoints, if_neg (fun both => other both.1)]
    exact same.checkpoints ns'
  writes := same.writes
  blobs := same.blobs

theorem withBlobs (same : c.SameAt u c') {blobs : Dict BlobKey Typed}
    (agree : ∀ ns channel version, blobs.get? ⟨u, ns, channel, version⟩ = c.blobs.get? ⟨u, ns, channel, version⟩) :
    c.SameAt u { c' with blobs := blobs } :=
  ⟨same.checkpoints, same.writes, agree⟩

theorem withGroup (same : c.SameAt u c') (other : u ≠ t) (ns : String) (id : PyId) (group : WriteGroup) :
    c.SameAt u { c' with writes := c'.writes.set ⟨t, ns, id⟩ group } where
  checkpoints := same.checkpoints
  writes ns' id' := by
    rw [Dict.get?_set_of_ne _ _ (fun equal => other (congrArg WriteKey.thread equal))]
    exact same.writes ns' id'
  blobs := same.blobs

end Containers.SameAt

section Frames

variable {codec : Codec} {c : Containers} {t u : String}

variable (codec) in
theorem storeBlobs_leaves (other : u ≠ t) (values : Dict String PyVal) (ns : String)
    (versions : List (String × Version)) (blobs : Dict BlobKey Typed) :
    let same := fun after : Dict BlobKey Typed => ∀ ns channel version,
      after.get? ⟨u, ns, channel, version⟩ = blobs.get? ⟨u, ns, channel, version⟩
    Leaves same same (codec.storeBlobs values t ns versions blobs) := by
  intro same
  suffices general : ∀ later, same later → Leaves same same (codec.storeBlobs values t ns versions later) from
    general blobs (fun _ _ _ => rfl)
  induction versions with
  | nil => exact fun later agree => .ok agree
  | cons e versions ih =>
    intro later agree
    rw [Codec.storeBlobs]
    cases codec.channelPayload values e.1 with
    | none => exact .error agree
    | some payload =>
      refine ih _ (fun ns' channel version => ?_)
      rw [Dict.get?_set_of_ne _ _ (fun equal => other (congrArg BlobKey.thread equal))]
      exact agree ns' channel version

variable (codec c) in
theorem put_leaves (other : u ≠ t) (values : Dict String PyVal) (config : RunnableConfig)
    (checkpoint : Checkpoint) (metadata : PyDict) (newVersions : Dict String Version) :
    Leaves (c.SameAt u) (c.SameAt u)
      (codec.put values c (config.inThread t) checkpoint metadata newVersions) := by
  have same := Containers.SameAt.refl u c
  unfold Codec.put RunnableConfig.inThread
  cases config.checkpointNs with
  | none => exact .error same
  | some ns =>
    have blobs := storeBlobs_leaves codec other values ns newVersions.entries c.blobs
    simp only
    generalize codec.storeBlobs values t ns newVersions.entries c.blobs = after at blobs ⊢
    cases blobs with
    | error agree => exact .error (same.withBlobs agree)
    | ok agree =>
      simp only
      split
      · exact .ok ((same.withBlobs agree).withCheckpoints other ns _)
      · exact .error ((same.withBlobs agree).withCheckpoints other ns _)

variable (codec c) in
theorem putWrites_leaves (other : u ≠ t) (config : RunnableConfig) (writes : List (String × PyVal))
    (taskId taskPath : String) :
    Leaves (c.SameAt u) (c.SameAt u) (codec.putWrites c (config.inThread t) writes taskId taskPath) := by
  have same := Containers.SameAt.refl u c
  unfold Codec.putWrites RunnableConfig.inThread
  cases config.checkpointId with
  | none => exact .error same
  | some id =>
    simp only
    generalize codec.addedWrites _ taskId taskPath writes.zipIdx _ = result
    have left : c.SameAt u
        { c with
          writes := if result.1.isEmpty then c.writes
            else c.writes.set ⟨t, config.checkpointNs.getD "", id⟩
              (((c.writes.get? ⟨t, config.checkpointNs.getD "", id⟩).getD .empty).setAll result.1) } := by
      split
      · exact same
      · exact same.withGroup other _ id _
    split
    · exact .ok left
    · exact .error left

variable (codec c) in
theorem getTuple_leaves (other : u ≠ t) (config : RunnableConfig) :
    Leaves (c.SameAt u) (fun r => c.SameAt u r.1) (codec.getTuple c (config.inThread t)) := by
  have read : ∀ ns, c.SameAt u (c.touch t ns) :=
    fun ns => (Containers.SameAt.refl u c).withCheckpoints other ns _
  unfold Codec.getTuple RunnableConfig.inThread
  simp only
  split
  · exact .ok (read _)
  · split
    · exact .ok (read _)
    · have grouped := fun id => (read (config.checkpointNs.getD "")).withGroup other (config.checkpointNs.getD "") id
        ((c.writes.get? ⟨t, config.checkpointNs.getD "", id⟩).getD .empty)
      split
      · exact .error (grouped _)
      · exact .ok (grouped _)

theorem deleteThread_leaves (base : BaseSaver) (other : u ≠ t) : c.SameAt u (base.deleteThread c t) := by
  rw [base.deleteThread_law]
  refine ⟨fun ns => ?_, fun ns id => ?_, fun ns channel version => ?_⟩
  · simp only [Containers.checkpoints?, Dict.get?_erase_of_ne _ other]
  · exact Dict.get?_filter_pass (fun _ => by simpa using other)
  · exact Dict.get?_filter_pass (fun _ => by simpa using other)

theorem pruneThread_leaves {serde : Serde} {fuel : Nat} {m after : Memory} (other : u ≠ t)
    (run : pruneThread serde fuel m t = some after) : m.toContainers.SameAt u after.toContainers := by
  rcases pruneThread_cases run with ⟨rfl, -⟩ | pruned
  · exact .refl u _
  · exact ⟨fun ns => pruned.checkpoints_other other ns,
      fun ns id => pruned.write_kept _ (fun here => absurd here other),
      fun ns channel version => pruned.blob_kept _ (fun here => absurd here other)⟩

end Frames

namespace SaverCall

variable {saver : IndexedSaver} {m : KindedMemory} {t u : String}

variable (saver m) in
theorem put_sameAt (other : u ≠ t) (values : Dict String PyVal) (config : RunnableConfig)
    (checkpoint : Checkpoint) (metadata : PyDict) (newVersions : Dict String Version) :
    Leaves (m.SameAt u) (m.SameAt u)
      (m.put saver values (config.inThread t) checkpoint metadata newVersions) := by
  have leaves := put_leaves saver.codec m.toContainers other values config checkpoint
    (putMetadata config metadata) newVersions
  have run : (saver.base values).put m.toContainers (config.inThread t) checkpoint
      (putMetadata (config.inThread t) metadata) newVersions =
        (saver.codec.put values m.toContainers (config.inThread t) checkpoint (putMetadata config metadata)
          newVersions).toOption := congrArg Except.toOption (saver.put_law ..)
  unfold KindedMemory.put
  simp only [RunnableConfig.inThread_checkpointNs, RunnableConfig.inThread_threadId, putMetadata_inThread,
    saver.put_law]
  cases config.checkpointNs with
  | none => exact .error ⟨.refl u _, Iff.rfl⟩
  | some ns =>
    simp only
    generalize saver.codec.put values m.toContainers _ _ _ _ = left at leaves run ⊢
    cases leaves with
    | error same =>
      rw [Memory.put_of_base_none run]
      split
      · exact .error ⟨same, Iff.rfl⟩
      · exact .error ⟨(Containers.SameAt.refl u _).withBlobs same.blobs, Iff.rfl⟩
    | ok same =>
      obtain ⟨after, returns, equal⟩ := Memory.put_of_base run
      rw [returns]
      split
      · exact .ok ⟨by rwa [equal], Iff.rfl⟩
      · exact .error ⟨(Containers.SameAt.refl u _).withBlobs same.blobs, Iff.rfl⟩

variable (saver m) in
theorem putWrites_sameAt (other : u ≠ t) (config : RunnableConfig) (writes : List (String × PyVal))
    (taskId taskPath : String) :
    Leaves (m.SameAt u) (m.SameAt u) (m.putWrites saver (config.inThread t) writes taskId taskPath) := by
  have leaves := putWrites_leaves saver.codec m.toContainers other config writes taskId taskPath
  have run : (saver.base .empty).putWrites m.toContainers (config.inThread t) writes taskId taskPath =
      (saver.codec.putWrites m.toContainers (config.inThread t) writes taskId taskPath).toOption :=
    congrArg Except.toOption (saver.putWrites_law ..)
  unfold KindedMemory.putWrites
  simp only [saver.putWrites_law]
  generalize saver.codec.putWrites m.toContainers _ _ _ _ = left at leaves run ⊢
  cases leaves with
  | error same =>
    rw [Memory.putWrites_of_base_none run]
    exact .error ⟨same, Iff.rfl⟩
  | ok same =>
    obtain ⟨after, returns, equal⟩ := Memory.putWrites_of_base run
    rw [returns]
    exact .ok ⟨by rwa [equal], Iff.rfl⟩

variable (saver m) in
theorem getTuple_sameAt (other : u ≠ t) (config : RunnableConfig) :
    Leaves (m.SameAt u) (fun r => m.SameAt u r.1) (m.getTuple saver (config.inThread t)) := by
  have leaves := getTuple_leaves saver.codec m.toContainers other
    { config with checkpointId := config.checkpointId.map (fun id => .text id.str) }
  unfold KindedMemory.getTuple
  simp only [RunnableConfig.inThread, saver.getTuple_law] at leaves ⊢
  split
  · generalize saver.codec.getTuple m.toContainers _ = left at leaves ⊢
    cases leaves with
    | error same => exact .error ⟨same, Iff.rfl⟩
    | ok same => exact .ok ⟨same, Iff.rfl⟩
  · exact .error ⟨.refl u _, Iff.rfl⟩

theorem prune_sameAt (other : u ≠ t) (fuel : Nat) (strategy : PruneStrategy) {ended : Except PruneError KindedMemory}
    (run : m.prune saver fuel t strategy = some ended) : Leaves (fun _ => True) (m.SameAt u) ended := by
  have deleted : m.SameAt u ⟨m.toMemory.deleteThread (saver.base .empty) t, m.plain.erase t⟩ :=
    ⟨deleteThread_leaves (saver.base .empty) other, by simp [other]⟩
  cases strategy with
  | delete => cases run; exact .ok deleted
  | deleteAll => cases run; exact .ok deleted
  | other name => cases run; exact .error trivial
  | keepLatest =>
    simp only [KindedMemory.prune, InmemRuntime.prune, List.foldlM_cons, List.foldlM_nil, PyId.str] at run
    cases pruned : pruneThread saver.codec.serde fuel m.toMemory t with
    | none => rw [pruned] at run; cases run
    | some after =>
      rw [pruned] at run
      cases run
      exact .ok ⟨pruneThread_leaves other pruned, Iff.rfl⟩

/-- A call on one thread leaves every other thread as it was. -/
theorem run_sameAt (other : u ≠ t) (fuel : Nat) (call : SaverCall) : m.SameAt u (call.run saver fuel t m).1 := by
  cases call with
  | put values config checkpoint metadata newVersions =>
    have leaves := put_sameAt saver m other values config checkpoint metadata newVersions
    simp only [SaverCall.run]
    generalize m.put saver values _ _ _ _ = left at leaves ⊢
    cases leaves with
    | error same => exact same
    | ok same => exact same
  | putWrites config writes taskId taskPath =>
    have leaves := putWrites_sameAt saver m other config writes taskId taskPath
    simp only [SaverCall.run]
    generalize m.putWrites saver _ _ _ _ = left at leaves ⊢
    cases leaves with
    | error same => exact same
    | ok same => exact same
  | getTuple config =>
    have leaves := getTuple_sameAt saver m other config
    simp only [SaverCall.run]
    generalize m.getTuple saver _ = left at leaves ⊢
    cases leaves with
    | error same => exact same
    | ok same => exact same
  | prune strategy =>
    simp only [SaverCall.run]
    cases run : m.prune saver fuel t strategy with
    | none => exact ⟨.refl u _, Iff.rfl⟩
    | some ended =>
      cases prune_sameAt other fuel strategy run with
      | error _ => exact ⟨.refl u _, Iff.rfl⟩
      | ok same => exact same

end SaverCall

/-- A thread still mirrors another when calls on a third one leave it as it was. -/
theorem Mirrored.sameAt {codec : Codec} {L : Likeness codec} {was : Prop} {m m' after : KindedMemory} {t t' : String}
    (mirrored : Mirrored L was m t m' t') (same : m'.SameAt t' after) : Mirrored L was m t after t' where
  mirrors := {
    checkpoints := fun ns => same.stored.checkpoints ns ▸ mirrored.mirrors.checkpoints ns
    writes := fun ns id => same.stored.writes ns id ▸ mirrored.mirrors.writes ns id
    blobs := fun ns channel version =>
      (mirrored.mirrors.blobs ns channel version).trans (same.stored.blobs ns channel version).symm }
  kind := by rw [mirrored.kind, same.kind]

end InmemRuntime
