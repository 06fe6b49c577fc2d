import InmemRuntime.AssistantVersions

namespace InmemRuntime

namespace Assistants

/-- The store of the process and what has last been written to `OPS_FILENAME`. -/
structure World where
  store : AssistantTables
  file : Option AssistantTables

/-- `restart` ends the process at any point and goes through `start_pool` in the
next one, where the file may turn out to be unreadable. The system assistants
are put by calls like any other. -/
inductive Event
  | call (call : Call × Reply)
  | clear
  | flush
  | removeFile
  | restart (readable : Bool)

def World.after (assertGraphExists : String → Except PyError Unit) (w : World) : Event → World
  | .call call => { w with store := Assistants.after assertGraphExists w.store call }
  | .clear => { w with store := clear w.store }
  | .flush => { w with file := some w.store }
  | .removeFile => { w with file := none }
  | .restart true => { w with store := startPool (w.file.getD noTables) }
  | .restart false => ⟨startPool noTables, none⟩

def emptyWorld : World := ⟨noTables, none⟩

/-- `put` goes as far as to append a new assistant. -/
def PutCall.Creates (assertGraphExists : String → Except PyError Unit) (t : AssistantTables) (call : PutCall)
    (reply : Reply) : Prop :=
  reply.answer.isOk ∧ ¬((configurable call.config).truthy ∧ call.context.truthy) ∧
    assertGraphExists call.graphId = .ok () ∧ t.assistants.find? (byId call.assistantId) = none

/-- No system assistant is there to outlive the rows at a `clear`, and no row of
version 1 has outlived the assistant that `put` creates. -/
def KeepsRows (assertGraphExists : String → Except PyError Unit) (w : World) : Event → Prop
  | .call (.put call, reply) => call.Creates assertGraphExists w.store reply →
      ∀ row ∈ w.store.versions, row.assistantId = call.assistantId → row.version ≠ 1
  | .clear => ∀ assistant ∈ w.store.assistants.values, isSystem assistant = false
  | _ => True

def HasRow (t : AssistantTables) : Prop :=
  ∀ assistant ∈ t.assistants.values, ∃ row ∈ t.versions, row.assistantId = assistant.assistantId

/-- Every row is there once and every assistant has one. -/
structure Sound (t : AssistantTables) : Prop where
  unique : VersionsUnique t
  hasRow : HasRow t

section Steps

variable {assertGraphExists : String → Except PyError Unit} {t : AssistantTables}

theorem sound_noTables : Sound noTables :=
  ⟨List.nodup_nil, fun _ member => absurd member List.not_mem_nil⟩

theorem HasRow.nextVersion (hasRow : HasRow t) {assistant : AssistantRecord} (member : assistant ∈ t.assistants.values) :
    ∃ version, nextVersion t assistant.assistantId = .ok version := by
  obtain ⟨row, inside, own⟩ := hasRow assistant member
  have version : row.version ∈ versionsOf t assistant.assistantId :=
    List.mem_map_of_mem (List.mem_filter.mpr ⟨inside, by simpa using own⟩)
  unfold Assistants.nextVersion
  split
  · exact ⟨1, rfl⟩
  · split
    · rename_i none
      rw [List.max?_eq_none_iff.mp none] at version
      cases version
    · exact ⟨_, rfl⟩

theorem HasRow.effect (hasRow : HasRow t) {now : Time} {call : Call} {out : Outcome} (effect : Effect t now call out) :
    HasRow out.1 := by
  cases effect with
  | unchanged => exact hasRow
  | created missing =>
    intro assistant member
    rw [create, Table.append_values] at member
    rcases List.mem_append.mp member with old | new
    · obtain ⟨row, inside, own⟩ := hasRow assistant old
      exact ⟨row, List.mem_append_left _ inside, own⟩
    · rw [List.mem_singleton.mp new]
      exact ⟨_, List.mem_append_right _ (List.mem_singleton_self _), rfl⟩
  | patched found next =>
    intro assistant member
    rcases Table.mem_update_values member with old | ⟨_, rfl⟩
    · obtain ⟨row, inside, own⟩ := hasRow assistant old
      exact ⟨row, List.mem_append_left _ inside, own⟩
    · exact ⟨_, List.mem_append_right _ (List.mem_singleton_self _), (find?_byId found).2.symm⟩
  | restored found ofVersion =>
    intro assistant member
    rcases Table.mem_update_values member with old | ⟨_, rfl⟩
    · exact hasRow assistant old
    · obtain ⟨row, inside, own⟩ := hasRow _ (find?_byId found).1
      exact ⟨row, inside, own⟩
  | deleted =>
    intro assistant member
    rw [Table.keep_values] at member
    obtain ⟨old, apart⟩ := List.mem_filter.mp member
    obtain ⟨row, inside, own⟩ := hasRow assistant old
    exact ⟨row, List.mem_filter.mpr ⟨inside, by simpa [own] using apart⟩, own⟩

theorem PutCall.Creates.run {call : PutCall} {reply : Reply} (creates : call.Creates assertGraphExists t reply) :
    after assertGraphExists t (.put call, reply) = create t call.assistantId call.fields reply.now := by
  obtain ⟨answered, notBoth, exists', missing⟩ := creates
  unfold after Call.run
  cases answer : reply.answer with
  | error e =>
    rw [answer] at answered
    cases answered
  | ok filters =>
    show (Assistants.put assertGraphExists t call filters reply.now).1 = _
    simp only [Assistants.put, if_neg notBoth, exists', missing]

theorem PutCall.run_of_not_creates {call : PutCall} {reply : Reply} (creates : ¬call.Creates assertGraphExists t reply) :
    after assertGraphExists t (.put call, reply) = t := by
  unfold after Call.run
  cases answer : reply.answer with
  | error e => rfl
  | ok filters =>
    show (Assistants.put assertGraphExists t call filters reply.now).1 = _
    unfold Assistants.put
    split
    · rfl
    · rename_i notBoth
      split
      · rfl
      · rename_i exists'
        split
        · split
          · rfl
          · rfl
          · split <;> rfl
        · rename_i missing
          exact absurd ⟨by rw [answer]; rfl, notBoth, exists', missing⟩ creates

/-- A record of version 1 that is created keeps the rows unique exactly when
none of that version is left of its id. -/
theorem create_unique (unique : VersionsUnique t) (assistantId : Uuid) (fields : VersionedFields) (now : Time) :
    VersionsUnique (create t assistantId fields now) ↔
      ∀ row ∈ t.versions, row.assistantId = assistantId → row.version ≠ 1 := by
  constructor
  · intro kept row member own first
    rw [VersionsUnique, create, List.map_append, List.nodup_append] at kept
    have apart := kept.2.2 _ (List.mem_map_of_mem member) (assistantId, 1) (List.mem_singleton_self _)
    rw [own, first] at apart
    exact apart rfl
  · exact fun fresh => unique.append fresh _

theorem Sound.call (sound : Sound t) (call : Call × Reply) :
    Sound (after assertGraphExists t call) ↔ ∀ put, call.1 = .put put → put.Creates assertGraphExists t call.2 →
      ∀ row ∈ t.versions, row.assistantId = put.assistantId → row.version ≠ 1 := by
  obtain ⟨call, reply⟩ := call
  have effect := call.effect assertGraphExists t reply
  constructor
  · rintro kept put rfl creates
    have unique := kept.unique
    rw [creates.run] at unique
    exact (create_unique sound.unique _ _ _).mp unique
  · refine fun fresh => ⟨?_, sound.hasRow.effect effect⟩
    by_cases isPut : ∃ put, call = .put put
    · obtain ⟨put, rfl⟩ := isPut
      by_cases creates : put.Creates assertGraphExists t reply
      · rw [creates.run]
        exact (create_unique sound.unique _ _ _).mpr (fresh put rfl creates)
      · rw [PutCall.run_of_not_creates creates]
        exact sound.unique
    · exact sound.unique.effect effect (fun put ofPut => absurd ⟨put, ofPut⟩ isPut)

/-- Only assistants that `clear` keeps can be left without a row. -/
theorem sound_clear (t : AssistantTables) :
    Sound (clear t) ↔ ∀ assistant ∈ t.assistants.values, isSystem assistant = false := by
  constructor
  · intro sound assistant member
    by_contra system
    have kept : assistant ∈ (clear t).assistants.values := by
      rw [clear, Table.keep_values]
      exact List.mem_filter.mpr ⟨member, by simpa using system⟩
    obtain ⟨row, inside, _⟩ := sound.hasRow assistant kept
    cases inside
  · refine fun none => ⟨List.nodup_nil, fun assistant member => ?_⟩
    rw [clear, Table.keep_values] at member
    obtain ⟨old, system⟩ := List.mem_filter.mp member
    rw [none assistant old] at system
    cases system

theorem remove_sublist (assistants : Table AssistantRecord) (r : Nat) :
    (remove assistants r).values.Sublist assistants.values := by
  unfold remove
  split
  · exact .refl _
  · rw [Table.pop_values]
    exact List.eraseIdx_sublist _ _

theorem removeSystem_sublist (steps i : Nat) (assistants : Table AssistantRecord) :
    (removeSystem steps i assistants).values.Sublist assistants.values := by
  induction steps generalizing i assistants with
  | zero => exact .refl _
  | succ steps ih =>
    unfold removeSystem
    split
    · exact .refl _
    · refine (ih _ _).trans ?_
      split
      · exact remove_sublist assistants _
      · exact .refl _

theorem Sound.startPool (sound : Sound t) : Sound (startPool t) :=
  ⟨sound.unique, fun assistant member => sound.hasRow assistant ((removeSystem_sublist _ _ _).subset member)⟩

end Steps

section Runs

variable {assertGraphExists : String → Except PyError Unit} {w : World}

/-- The store is sound, and so is what a restart would load. -/
def World.Sound (w : World) : Prop := Assistants.Sound w.store ∧ ∀ t, w.file = some t → Assistants.Sound t

theorem World.Sound.after (sound : w.Sound) (event : Event) :
    Assistants.Sound (w.after assertGraphExists event).store ↔ KeepsRows assertGraphExists w event := by
  obtain ⟨store, file⟩ := sound
  cases event with
  | call call =>
    refine (store.call call).trans ?_
    obtain ⟨call, reply⟩ := call
    cases call with
    | put call => exact ⟨fun fresh => fresh call rfl, fun fresh put same => by cases same; exact fresh⟩
    | patch => exact ⟨fun _ => trivial, fun _ put same => nomatch same⟩
    | setLatest => exact ⟨fun _ => trivial, fun _ put same => nomatch same⟩
    | delete => exact ⟨fun _ => trivial, fun _ put same => nomatch same⟩
  | clear => exact sound_clear w.store
  | flush => exact iff_of_true store trivial
  | removeFile => exact iff_of_true store trivial
  | restart readable =>
    refine iff_of_true ?_ trivial
    cases readable with
    | false => exact sound_noTables.startPool
    | true =>
      show Assistants.Sound (startPool (w.file.getD noTables))
      cases loaded : w.file with
      | none => exact sound_noTables.startPool
      | some t => exact (file t loaded).startPool

theorem World.Sound.file_after (sound : w.Sound) (event : Event) {t : AssistantTables}
    (written : (w.after assertGraphExists event).file = some t) : Assistants.Sound t := by
  cases event with
  | flush =>
    cases written
    exact sound.1
  | removeFile => cases written
  | call | clear => exact sound.2 t written
  | restart readable =>
    cases readable with
    | false => cases written
    | true => exact sound.2 t written

/-- While no `clear` finds a system assistant and no assistant is created above
a row of version 1, the rows are unique, each assistant has one, and so `patch`
has a next version for it; and an event keeps that exactly when it is such. -/
theorem rows_survive_restarts (reach : Serial (World.after assertGraphExists) (KeepsRows assertGraphExists) emptyWorld w) :
    (VersionsUnique w.store ∧ HasRow w.store ∧
      ∀ assistant ∈ w.store.assistants.values, ∃ version, nextVersion w.store assistant.assistantId = .ok version) ∧
    ∀ event, (VersionsUnique (w.after assertGraphExists event).store ∧ HasRow (w.after assertGraphExists event).store) ↔
      KeepsRows assertGraphExists w event := by
  have sound : w.Sound := by
    refine reach.invariant (P := World.Sound) ⟨sound_noTables, fun t written => nomatch written⟩
      (fun {w event} sound met => ?_)
    exact ⟨(sound.after event).mpr met, fun t written => sound.file_after event written⟩
  refine ⟨⟨sound.1.unique, sound.1.hasRow, fun assistant member => sound.1.hasRow.nextVersion member⟩, fun event => ?_⟩
  rw [← sound.after event]
  exact ⟨fun ⟨unique, hasRow⟩ => ⟨unique, hasRow⟩, fun kept => ⟨kept.unique, kept.hasRow⟩⟩

end Runs

section SystemAssistant

def systemPut : Event :=
  .call (.put ⟨⟨1⟩, "agent", [], .none, some [("created_by", .str "system")], .doNothing, "agent", none⟩, plainReply)

/-- The assistant goes at the restart, its row stays, and the next put adds another. -/
theorem restart_doubles_row :
    ¬ ∀ (assertGraphExists : String → Except PyError Unit) (w : World),
      Serial (World.after assertGraphExists) (fun _ _ => True) emptyWorld w →
        VersionsUnique w.store ∧ HasRow w.store ∧
          ∀ assistant ∈ w.store.assistants.values, ∃ version, nextVersion w.store assistant.assistantId = .ok version := by
  intro all
  have begun : Serial (World.after anyGraph) (fun _ _ => True) emptyWorld emptyWorld := .start
  have flushed := (begun.next systemPut trivial).next .flush trivial
  obtain ⟨unique, _⟩ := all anyGraph _ ((flushed.next (.restart true) trivial).next systemPut trivial)
  have rows : [((⟨1⟩ : Uuid), (1 : Int)), (⟨1⟩, 1)].Nodup := unique
  exact absurd rows (by decide)

def userPut : Event := .call (putFirst [] .none)

/-- An assistant of a user is loaded with its row, and is there to be put again. -/
theorem rows_survive_restarts_user :
    ∃ w : World, VersionsUnique w.store ∧ w.store.assistants.values.length = 1 ∧ w.store.versions.length = 1 := by
  have begun : Serial (World.after anyGraph) (KeepsRows anyGraph) emptyWorld emptyWorld := .start
  have made := begun.next userPut (fun _ row member => absurd member List.not_mem_nil)
  have flushed := made.next .flush (show KeepsRows anyGraph _ .flush from trivial)
  have loaded := flushed.next (.restart true) (show KeepsRows anyGraph _ (.restart true) from trivial)
  have again := loaded.next userPut (fun creates => nomatch creates.2.2.2)
  exact ⟨_, (rows_survive_restarts again).1.1, rfl, rfl⟩

end SystemAssistant

end Assistants

end InmemRuntime
