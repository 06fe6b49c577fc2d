import InmemRuntime.MirroredCalls
import InmemRuntime.Lib.Machine
import InmemRuntime.ThreadCopySpec
import InmemRuntime.SaverRuns

namespace InmemRuntime

/-- What is compared between a thread and its copy. -/
structure SeenTuple where
  checkpointId : PyId
  parentId : Option PyId
  channels : List (String × PyVal)
  taskIds : List String

def CheckpointTuple.seen (tuple : CheckpointTuple) : SeenTuple :=
  ⟨tuple.checkpointId, tuple.parentId, tuple.channels, tuple.pendingWrites.map Prod.fst⟩

namespace Codec

variable (codec : Codec)

/-- Everything that is read is the same. -/
def exactly : Likeness codec where
  Seen := CheckpointTuple
  see := id
  entry := Eq
  write := Eq
  entry_refl _ := rfl
  write_refl _ := rfl
  parent same := congrArg _ same
  versions same := congrArg _ same
  tuple := by
    rintro e e' ws ws' rfl same id blobAt
    rw [List.forall₂_eq_eq_eq] at same
    rw [same]

theorem loadWrites_taskIds {ws ws' : List PendingWrite}
    (alike : List.Forall₂
      (fun w w' => w.taskId = w'.taskId ∧ (codec.loads w.value).isSome = (codec.loads w'.value).isSome) ws ws') :
    (ws.mapM codec.loadWrite).map (List.map Prod.fst) = (ws'.mapM codec.loadWrite).map (List.map Prod.fst) := by
  induction alike with
  | nil => rfl
  | @cons w w' ws ws' both rest ih =>
    obtain ⟨task, ends⟩ := both
    simp only [List.mapM_cons, loadWrite, task]
    generalize codec.loads w.value = first at ends ⊢
    generalize codec.loads w'.value = first' at ends ⊢
    generalize ws.mapM codec.loadWrite = later at ih ⊢
    generalize ws'.mapM codec.loadWrite = later' at ih ⊢
    cases Option.Rel.of_isSome ends with
    | none => rfl
    | some _ =>
      cases Option.Rel.of_map ih with
      | none => rfl
      | some same => simp [same]

/-- Ids, parents, channels and task ids are the same, and the payloads are
decoded both or neither. -/
def alike : Likeness codec where
  Seen := SeenTuple
  see := CheckpointTuple.seen
  entry e e' := e.parent = e'.parent ∧
    (codec.loadsCheckpoint e.checkpoint).map Checkpoint.channelVersions =
      (codec.loadsCheckpoint e'.checkpoint).map Checkpoint.channelVersions ∧
    (codec.loads e.metadata).isSome = (codec.loads e'.metadata).isSome
  write w w' := w.taskId = w'.taskId ∧ (codec.loads w.value).isSome = (codec.loads w'.value).isSome
  entry_refl _ := ⟨rfl, rfl, rfl⟩
  write_refl _ := ⟨rfl, rfl⟩
  parent same := same.1
  versions := by
    rintro e e' ⟨-, same, -⟩
    simp only [Serde.channelVersions, serde]
    generalize codec.loadsCheckpoint e.checkpoint = read at same ⊢
    generalize codec.loadsCheckpoint e'.checkpoint = read' at same ⊢
    cases Option.Rel.of_map same with
    | none => rfl
    | some equal => exact equal
  tuple := by
    rintro e e' ws ws' ⟨parent, versions, about⟩ writes id blobAt
    have taskIds := codec.loadWrites_taskIds writes
    unfold Codec.tuple
    rw [parent]
    generalize codec.loadsCheckpoint e.checkpoint = read at versions ⊢
    generalize codec.loadsCheckpoint e'.checkpoint = read' at versions ⊢
    generalize codec.loads e.metadata = metadata at about ⊢
    generalize codec.loads e'.metadata = metadata' at about ⊢
    generalize ws.mapM codec.loadWrite = pending at taskIds ⊢
    generalize ws'.mapM codec.loadWrite = pending' at taskIds ⊢
    cases Option.Rel.of_map versions with
    | none => rfl
    | some same =>
      simp only [Option.bind_eq_bind, Option.bind_some, same]
      cases codec.loadBlobs blobAt _ with
      | none => rfl
      | some channels =>
        cases Option.Rel.of_isSome about with
        | none => rfl
        | some _ =>
          cases Option.Rel.of_map taskIds with
          | none => rfl
          | some equal => simp [CheckpointTuple.seen, equal]

end Codec

/-- No name or id in the source thread holds the text of the thread's own id,
and its payloads are decoded as before when that text is replaced in them. -/
structure Portable (codec : Codec) (m : Memory) (new old : Uuid) : Prop where
  clean : CleanSource m new old
  namespaces : ∀ e ∈ ((m.storage.get? old.str).getD .empty).entries, substText new old e.1 = e.1 ∧
    ∀ f ∈ e.2.entries, substKey new old f.1 = f.1 ∧ codec.alike.entry f.2 (f.2.subst new old)
  writes : ∀ key group, m.writes.get? key = some group → key.thread = old.str →
    ∀ e ∈ group.entries, codec.alike.write e.2 (e.2.subst new old)

section Start

variable {codec : Codec} {m after : Memory} {source target : Uuid}

theorem rel_map {κ ν : Type} [DecidableEq κ] {R : ν → ν → Prop} (key : κ → κ) (value : ν → ν) {d : Dict κ ν}
    (each : ∀ e ∈ d.entries, key e.1 = e.1 ∧ R e.2 (value e.2)) :
    d.Rel R (Dict.ofPairs (d.entries.map (fun e => (key e.1, value e.2)))) := by
  have keys : (d.entries.map (fun e => (key e.1, value e.2))).map Prod.fst = d.keys := by
    rw [List.map_map]
    exact List.map_congr_left (fun e member => (each e member).1)
  unfold Dict.Rel
  rw [Dict.ofPairs_entries (by rw [keys]; exact d.nodup), List.forall₂_map_right_iff, List.forall₂_same]
  exact fun e member => ⟨(each e member).1.symm, (each e member).2⟩

theorem rel_substNamespaces {namespaces : Namespaces}
    (portable : ∀ e ∈ namespaces.entries, substText target source e.1 = e.1 ∧
      ∀ f ∈ e.2.entries, substKey target source f.1 = f.1 ∧ codec.alike.entry f.2 (f.2.subst target source)) :
    namespaces.Rel (Dict.Rel codec.alike.entry) (substNamespaces target source namespaces) :=
  rel_map _ _ (fun e member => ⟨(portable e member).1, rel_map _ _ (portable e member).2⟩)

theorem WriteKey.inThread_injective {t u : String} {key key' : WriteKey} (inside : decide (key.thread = t) = true)
    (inside' : decide (key'.thread = t) = true) (same : key.inThread u = key'.inThread u) : key = key' := by
  obtain ⟨thread, ns, id⟩ := key
  obtain ⟨thread', ns', id'⟩ := key'
  simp_all [WriteKey.inThread]

theorem BlobKey.inThread_injective {t u : String} {key key' : BlobKey} (inside : decide (key.thread = t) = true)
    (inside' : decide (key'.thread = t) = true) (same : key.inThread u = key'.inThread u) : key = key' := by
  obtain ⟨thread, ns, channel, version⟩ := key
  obtain ⟨thread', ns', channel', version'⟩ := key'
  simp_all [BlobKey.inThread]

section Lookups

variable {ns channel : String} {id : PyId} {version : Version}

theorem get?_copiedWriteGroups {writes : Dict WriteKey WriteGroup}
    (absent : writes.get? ⟨target.str, ns, id⟩ = none) :
    (writes.setAll (copiedWriteGroups target source
      (writes.entries.filter (fun e => decide (e.1.thread = source.str))))).get? ⟨target.str, ns, id⟩ =
        (writes.get? ⟨source.str, ns, id⟩).map (substWriteGroup target source) :=
  Dict.get?_copied (k := ⟨source.str, ns, id⟩) WriteKey.inThread_injective (by simp) absent

theorem get?_copiedWriteGroups_source (other : target ≠ source) (writes : Dict WriteKey WriteGroup) :
    (writes.setAll (copiedWriteGroups target source
      (writes.entries.filter (fun e => decide (e.1.thread = source.str))))).get? ⟨source.str, ns, id⟩ =
        writes.get? ⟨source.str, ns, id⟩ := by
  have elsewhere : ∀ key : WriteKey, key.inThread target.str ≠ ⟨source.str, ns, id⟩ := by
    intro key same
    have threads : target.str = source.str := congrArg WriteKey.thread same
    exact other (Uuid.str_inj.mp threads)
  have kept := Dict.get?_copied_of_ne (d := writes) (p := fun key => decide (key.thread = source.str))
    (g := substWriteGroup target source) elsewhere
  exact kept

theorem get?_copiedBlobs {blobs : Dict BlobKey Typed}
    (absent : blobs.get? ⟨target.str, ns, channel, version⟩ = none) :
    (blobs.setAll (copiedBlobs target
      (blobs.entries.filter (fun e => decide (e.1.thread = source.str))))).get? ⟨target.str, ns, channel, version⟩ =
        blobs.get? ⟨source.str, ns, channel, version⟩ :=
  (Dict.get?_copied (g := fun blob => blob) (k := ⟨source.str, ns, channel, version⟩) BlobKey.inThread_injective
    (by simp) absent).trans (Option.map_id' ..)

theorem get?_copiedBlobs_source (other : target ≠ source) (blobs : Dict BlobKey Typed) :
    (blobs.setAll (copiedBlobs target
      (blobs.entries.filter (fun e => decide (e.1.thread = source.str))))).get? ⟨source.str, ns, channel, version⟩ =
        blobs.get? ⟨source.str, ns, channel, version⟩ := by
  have elsewhere : ∀ key : BlobKey, key.inThread target.str ≠ ⟨source.str, ns, channel, version⟩ := by
    intro key same
    have threads : target.str = source.str := congrArg BlobKey.thread same
    exact other (Uuid.str_inj.mp threads)
  have kept := Dict.get?_copied_of_ne (d := blobs) (p := fun key => decide (key.thread = source.str))
    (g := fun blob => blob) elsewhere
  exact kept

end Lookups

/-- After the copy the target mirrors the source as it was. -/
theorem copyThread_mirrors (portable : Portable codec m target source) (other : target ≠ source)
    (unused : m.toContainers.Unused target.str) (copied : m.copyThread source target = .ok after) :
    Mirrors codec.alike m.toContainers source.str after.toContainers target.str := by
  cases (copyThread_clean portable.clean other).symm.trans copied
  refine ⟨fun ns => ?_, fun ns id => ?_, fun ns channel version => ?_⟩
  · have namespaces := (rel_substNamespaces portable.namespaces).get? ns
    simp only [Containers.checkpoints?, Dict.get?_set_self, Option.bind_some]
    cases stored : m.storage.get? source.str with
    | none => rwa [stored] at namespaces
    | some _ => rwa [stored] at namespaces
  · rw [get?_copiedWriteGroups (Dict.get?_eq_none_iff.mpr (fun member => unused.writes _ member rfl))]
    cases stored : m.writes.get? ⟨source.str, ns, id⟩ with
    | none => exact .none
    | some group =>
      have each := portable.writes _ group stored rfl
      exact .some (rel_map (fun inner => inner) _ (fun e member => ⟨rfl, each e member⟩))
  · exact (get?_copiedBlobs (Dict.get?_eq_none_iff.mpr (fun member => unused.blobs _ member rfl))).symm

/-- The copy changes nothing of its source. -/
theorem copyThread_keeps (clean : CleanSource m target source) (other : target ≠ source)
    (copied : m.copyThread source target = .ok after) :
    m.toContainers.SameAt source.str after.toContainers := by
  cases (copyThread_clean clean other).symm.trans copied
  have apart : source.str ≠ target.str := fun same => other (Uuid.str_inj.mp same).symm
  refine ⟨fun ns => ?_, fun ns id => get?_copiedWriteGroups_source other m.writes,
    fun ns channel version => get?_copiedBlobs_source other m.blobs⟩
  simp only [Containers.checkpoints?, Dict.get?_set_of_ne _ _ apart, Dict.get?_set_self, Option.bind_some]
  cases m.storage.get? source.str with
  | none => rfl
  | some _ => rfl

end Start

/-- The thread that a call is made on, after a copy. -/
inductive Side where
  | source
  | copy
deriving DecidableEq

def Side.thread (source target : Uuid) : Side → String
  | .source => source.str
  | .copy => target.str

/-- The calls on one of the two threads. -/
def Side.calls (side : Side) (call : Side × SaverCall) : Option SaverCall :=
  if call.1 = side then some call.2 else none

/-- A checkpointer that is called on both threads. -/
def bothThreads (saver : IndexedSaver) (fuel : Nat) (source target : Uuid) (m : KindedMemory)
    (call : Side × SaverCall) : KindedMemory × Answer CheckpointTuple :=
  call.2.run saver fuel (call.1.thread source target) m

/-- A checkpointer that is called on one thread only. -/
def threadAlone (saver : IndexedSaver) (fuel : Nat) (source : Uuid) (m : KindedMemory) (call : SaverCall) :
    KindedMemory × Answer CheckpointTuple :=
  call.run saver fuel source.str m

section Copies

variable {saver : IndexedSaver} {fuel : Nat} {source target : Uuid}

theorem Side.calls_eq_some {side : Side} {call : Side × SaverCall} {own : SaverCall}
    (mine : side.calls call = some own) : call = (side, own) := by
  obtain ⟨on, call⟩ := call
  unfold Side.calls at mine
  split at mine
  · rename_i here
    cases here
    cases mine
    rfl
  · cases mine

theorem Side.calls_eq_none {side : Side} {call : Side × SaverCall} (other : side.calls call = none) :
    call.1 ≠ side := by
  intro here
  rw [Side.calls, if_pos here] at other
  cases other

theorem Side.thread_ne (apart : target ≠ source) {side side' : Side} (other : side ≠ side') :
    side'.thread source target ≠ side.thread source target := by
  cases side with
  | source =>
    cases side' with
    | source => exact absurd rfl other
    | copy => exact fun same => apart (Uuid.str_inj.mp same)
  | copy =>
    cases side' with
    | source => exact fun same => apart (Uuid.str_inj.mp same).symm
    | copy => exact absurd rfl other

/-- The calls on one side are answered as on a thread that it mirrors. -/
theorem answersTo_mirrored {L : Likeness saver.codec} {was : Prop} (apart : target ≠ source) (side : Side)
    {m m' : KindedMemory} (start : Mirrored L was m source.str m' (side.thread source target))
    {calls : List (Side × SaverCall)}
    (meets : Machine.Meets (bothThreads saver fuel source target)
      (fun m call => call.1 = side → was ∨ call.2.Reaches m (side.thread source target)) m' calls) :
    (Machine.answersTo (bothThreads saver fuel source target) side.calls m' calls).map (Answer.map L.see) =
      (Machine.answers (threadAlone saver fuel source) m (calls.filterMap side.calls)).map (Answer.map L.see) := by
  refine Machine.answersTo_eq
    (R := fun m m' => Mirrored L was m source.str m' (side.thread source target)) ?_ ?_ start meets
  · intro m m' call own mirrored reach mine
    obtain rfl := Side.calls_eq_some mine
    exact mirrored.run fuel (reach rfl)
  · intro m m' call mirrored other
    exact mirrored.sameAt (call.2.run_sameAt (Side.thread_ne apart (Side.calls_eq_none other)) fuel)

theorem Answer.map_id {τ : Type} (answer : Answer τ) : answer.map id = answer := by
  cases answer with
  | found tuple => rw [Answer.map, Option.map_id, id]
  | stored id => rfl
  | done => rfl
  | raised => rfl
  | unfinished => rfl

theorem answers_seen_exactly (codec : Codec) (answers : List (Answer CheckpointTuple)) :
    answers.map (Answer.map codec.exactly.see) = answers :=
  (List.map_congr_left (fun answer _ => Answer.map_id answer)).trans (List.map_id answers)

/-- After a copy with ids that hold no text of the source's own id, calls on
the two threads in any order are answered as calls on each alone: those on the
copy as on the source as it was, as long as each of them finds its namespace
or a mapping that makes it. -/
theorem copy_answers_as_source (saver : IndexedSaver) (fuel : Nat) {m m' : KindedMemory} {source target : Uuid}
    (apart : target ≠ source) (unused : m.toContainers.Unused target.str)
    (copied : m.copyThread source target = .ok m') (portable : Portable saver.codec m.toMemory target source)
    (calls : List (Side × SaverCall))
    (meets : Machine.Meets (bothThreads saver fuel source target)
      (fun now call => call.1 = .copy → source.str ∈ m.plain ∨ call.2.Reaches now target.str) m' calls) :
    (Machine.answersTo (bothThreads saver fuel source target) Side.copy.calls m' calls).map
        (Answer.map CheckpointTuple.seen) =
      (Machine.answers (threadAlone saver fuel source) m (calls.filterMap Side.copy.calls)).map
        (Answer.map CheckpointTuple.seen) ∧
    Machine.answersTo (bothThreads saver fuel source target) Side.source.calls m' calls =
      Machine.answers (threadAlone saver fuel source) m (calls.filterMap Side.source.calls) := by
  unfold KindedMemory.copyThread at copied
  cases ended : m.toMemory.copyThread source target with
  | error left => simp only [ended, reduceCtorEq] at copied
  | ok after =>
    rw [ended] at copied
    cases copied
    have sourceApart : source.str ≠ target.str := fun same => apart (Uuid.str_inj.mp same).symm
    constructor
    · have start : Mirrored saver.codec.alike (source.str ∈ m.plain) m source.str
          ⟨after, insert target.str m.plain⟩ (Side.copy.thread source target) :=
        ⟨copyThread_mirrors portable apart unused ended, by simp [Side.thread]⟩
      exact answersTo_mirrored apart .copy start meets
    · have kept := copyThread_keeps portable.clean apart ended
      have same : Mirrored saver.codec.exactly True m source.str m source.str :=
        ⟨.refl _ _ _, (and_iff_right trivial).symm⟩
      have start : Mirrored saver.codec.exactly True m source.str ⟨after, insert target.str m.plain⟩
          (Side.source.thread source target) := same.sameAt ⟨kept, by simp [sourceApart]⟩
      have answered := answersTo_mirrored apart .source start
        (Machine.Meets.of_forall (bothThreads saver fuel source target) (fun _ _ _ => Or.inl trivial) _ calls)
      exact (answers_seen_exactly _ _).symm.trans (answered.trans (answers_seen_exactly _ _))

end Copies

section Filled

/-- A codec that writes texts as their bytes, for checkpoints of one channel. -/
def textCodec : Codec where
  dumps
    | .str s => some ⟨"msgpack", s.toList.map (fun c => UInt8.ofNat c.toNat)⟩
    | _ => none
  loads payload := some (.str (String.ofList (payload.data.map (fun b => Char.ofNat b.toNat))))
  dumpsCheckpoint checkpoint := some ⟨"msgpack", checkpoint.id.str.toList.map (fun c => UInt8.ofNat c.toNat)⟩
  loadsCheckpoint payload :=
    some ⟨.text (String.ofList (payload.data.map (fun b => Char.ofNat b.toNat))), .ofPairs [("messages", .text "1")]⟩
  dumpsMetadata _ _ _ := some ⟨"msgpack", []⟩
  writeIndex channel := if channel = "__error__" then some (-1) else none

def textSaver : IndexedSaver where
  codec := textCodec
  put := textCodec.put
  putWrites := textCodec.putWrites
  getTuple := textCodec.getTuple
  deleteThread := plainBase.deleteThread
  put_law _ _ _ _ _ _ := rfl
  putWrites_law _ _ _ _ _ := rfl
  getTuple_law _ _ := rfl
  deleteThread_law := plainBase.deleteThread_law

def rootConfig : RunnableConfig := ⟨"", some "", none, [], []⟩

/-- A first message, stored in the root namespace under the given id. -/
def putMessage (id : String) : SaverCall :=
  .put (.ofPairs [("messages", .str "hello")]) rootConfig ⟨.text id, .ofPairs [("messages", .text "1")]⟩ []
    (.ofPairs [("messages", .text "1")])

def emptyKinded : KindedMemory := ⟨emptyMemory, ∅⟩

def keptMemory : KindedMemory := ((putMessage "0001").run textSaver 0 copySource.str emptyKinded).1

def KindedMemory.copied (m : KindedMemory) : KindedMemory :=
  match m.copyThread copySource copyTarget with
  | .ok m => m
  | .error m => m

theorem copyThread_copied {m : KindedMemory}
    (returns : (m.copyThread copySource copyTarget).toOption.isSome = true) :
    m.copyThread copySource copyTarget = .ok m.copied := by
  unfold KindedMemory.copied
  cases ended : m.copyThread copySource copyTarget with
  | ok after => rfl
  | error left => rw [ended] at returns; cases returns

def Answer.raises {τ : Type} : Answer τ → Bool
  | .raised => true
  | _ => false

theorem Answer.raises_map {τ υ : Type} (f : τ → υ) (answer : Answer τ) : (answer.map f).raises = answer.raises := by
  cases answer <;> rfl

/-- The copy of a thread without checkpoints raises on its first checkpoint,
which the source stores. -/
theorem copy_raises_unlike_source :
    emptyKinded.copyThread copySource copyTarget = .ok emptyKinded.copied ∧
      emptyMemory.toContainers.Unused copyTarget.str ∧ Portable textCodec emptyMemory copyTarget copySource ∧
      (Machine.answersTo (bothThreads textSaver 0 copySource copyTarget) Side.copy.calls emptyKinded.copied
          [(.copy, putMessage "0001")]).map (Answer.map CheckpointTuple.seen) ≠
        (Machine.answers (threadAlone textSaver 0 copySource) emptyKinded [putMessage "0001"]).map
          (Answer.map CheckpointTuple.seen) := by
  have nothing : (emptyMemory.storage.get? copySource.str).getD .empty = .empty := rfl
  refine ⟨?_, unused_of_keys (by decide +kernel) (by decide +kernel) (by decide +kernel), ⟨⟨?_, ?_⟩, ?_, ?_⟩, ?_⟩
  · exact copyThread_copied (by decide +kernel)
  · rw [nothing]
    exact ⟨trivial, List.nodup_nil, fun _ member => absurd member List.not_mem_nil⟩
  · exact fun _ _ stored => by cases stored
  · rw [nothing]
    exact fun _ member => absurd member List.not_mem_nil
  · exact fun _ _ stored => by cases stored
  · intro same
    have raises := congrArg (List.map Answer.raises) same
    simp only [List.map_map, Function.comp_def, Answer.raises_map] at raises
    revert raises
    decide +kernel

def messageEntry : CheckpointEntry := ⟨⟨"msgpack", [48, 48, 48, 49]⟩, ⟨"msgpack", []⟩, none⟩

def keptNamespaces : Namespaces :=
  ⟨[("", ⟨[(.text "0001", messageEntry)], List.nodup_singleton _⟩)], List.nodup_singleton _⟩

theorem keptMemory_portable : Portable textCodec keptMemory.toMemory copyTarget copySource := by
  have plain : ∀ s ∈ ["", "0001", "msgpack"], MatchesWhole copySource s := by
    have all : ["", "0001", "msgpack"].all (fun s => s.toList.all (fun c => (escapeChar c).length == 1)) = true := by
      decide +kernel
    exact fun s member => .of_plain (List.all_eq_true.mp all s member)
  have namespaces : (keptMemory.storage.get? copySource.str).getD .empty = keptNamespaces := by decide +kernel
  have writes : keptMemory.writes = .empty := by decide +kernel
  refine ⟨⟨?_, ?_⟩, ?_, ?_⟩
  · rw [namespaces]
    have payload : ∀ data, (Typed.toData ⟨"msgpack", data⟩).Clean copyTarget copySource :=
      fun _ => ⟨plain _ (by simp), trivial, trivial⟩
    have entry : messageEntry.toData.Clean copyTarget copySource := ⟨payload _, payload _, trivial, trivial⟩
    have checkpoints : (checkpointsToData ⟨[(.text "0001", messageEntry)], List.nodup_singleton _⟩).Clean
        copyTarget copySource := by
      refine ⟨⟨plain _ (by simp), entry, trivial⟩, List.nodup_singleton _, fun e member marked => ?_⟩
      rw [List.mem_singleton.mp member] at marked
      exact absurd marked (by decide)
    refine ⟨⟨plain _ (by simp), checkpoints, trivial⟩, List.nodup_singleton _, fun e member marked => ?_⟩
    rw [List.mem_singleton.mp member] at marked
    exact absurd marked (by decide)
  · intro key group stored
    rw [writes] at stored
    cases stored
  · rw [namespaces]
    intro e member
    rw [List.mem_singleton.mp member]
    refine ⟨by decide +kernel, fun f inside => ?_⟩
    rw [List.mem_singleton.mp inside]
    exact ⟨by decide +kernel, rfl, rfl, rfl⟩
  · intro key group stored
    rw [writes] at stored
    cases stored

/-- The source goes on with a second message, and the copy is read, given a
write and pruned. -/
def laterCalls : List (Side × SaverCall) :=
  [(.source, putMessage "0002"), (.copy, .getTuple rootConfig),
    (.copy, .putWrites { rootConfig with checkpointId := some (.text "0001") } [("messages", .str "more")] "task" ""),
    (.copy, .prune .keepLatest), (.copy, .getTuple rootConfig)]

theorem copy_answers_as_source_kept :
    (Machine.answersTo (bothThreads textSaver 1 copySource copyTarget) Side.copy.calls keptMemory.copied
        laterCalls).map (Answer.map CheckpointTuple.seen) =
      (Machine.answers (threadAlone textSaver 1 copySource) keptMemory (laterCalls.filterMap Side.copy.calls)).map
        (Answer.map CheckpointTuple.seen) ∧
    Machine.answersTo (bothThreads textSaver 1 copySource copyTarget) Side.source.calls keptMemory.copied laterCalls =
      Machine.answers (threadAlone textSaver 1 copySource) keptMemory (laterCalls.filterMap Side.source.calls) := by
  have copied := copyThread_copied (m := keptMemory) (by decide +kernel)
  refine copy_answers_as_source textSaver 1 (by decide)
    (unused_of_keys (by decide +kernel) (by decide +kernel) (by decide +kernel)) copied keptMemory_portable laterCalls
    ⟨fun _ => ?_, fun _ => Or.inr ?_, fun _ => Or.inr ?_, fun _ => Or.inr ?_, fun _ => Or.inr ?_, trivial⟩
  · contradiction
  · rintro ns ⟨⟩
    decide +kernel
  · rintro ns ⟨⟩
  · rintro ns ⟨⟩
  · rintro ns ⟨⟩
    decide +kernel

end Filled

end InmemRuntime
