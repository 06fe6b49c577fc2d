import InmemRuntime.FailedCalls
import InmemRuntime.PruneHistory
import InmemRuntime.ThreadReads

namespace InmemRuntime

section Deletion

variable {serde : Serde} {runId threadId : String}

theorem Memory.checkpointAt?_eq (c : Containers) (threadId ns : String) (id : PyId) :
    c.checkpointAt? threadId ns id = entryAt c threadId ns id := by
  unfold Containers.checkpointAt? Containers.checkpoints? entryAt
  cases c.storage.get? threadId with
  | none => rfl
  | some namespaces => cases atNs : namespaces.get? ns <;> simp [atNs]

variable (serde runId threadId) in
theorem Memory.discardOfRun_frame (m : Memory) (ns : String) (item : PyId × CheckpointEntry) :
    (m.discardOfRun serde runId threadId ns item).writes = m.writes ∧
      (m.discardOfRun serde runId threadId ns item).blobs = m.blobs := by
  unfold discardOfRun
  split <;> exact ⟨rfl, rfl⟩

theorem Memory.discardOfRun_self (m : Memory) {ns : String} {item : PyId × CheckpointEntry}
    (ofRun : item.2.ofRun serde runId = true) :
    entryAt (m.discardOfRun serde runId threadId ns item).toContainers threadId ns item.1 = none := by
  simp only [discardOfRun, ofRun, if_true, entryAt, Dict.get?_set_self, Option.getD_some]
  generalize (m.storage.get? threadId).getD .empty = namespaces
  split
  · simp
  · rw [Dict.get?_set_self, Option.getD_some, Dict.get?_erase_self]

variable (serde runId threadId) in
/-- The loop body takes away one checkpoint at most. -/
theorem Memory.discardOfRun_checkpoint (m : Memory) (ns ns' : String) (item : PyId × CheckpointEntry) (id : PyId) :
    entryAt (m.discardOfRun serde runId threadId ns item).toContainers threadId ns' id =
      if ns' = ns ∧ id = item.1 ∧ item.2.ofRun serde runId = true then none
      else entryAt m.toContainers threadId ns' id := by
  by_cases other : ns' = ns ∧ id = item.1
  · obtain ⟨rfl, rfl⟩ := other
    by_cases ofRun : item.2.ofRun serde runId = true
    · rw [if_pos ⟨rfl, rfl, ofRun⟩, discardOfRun_self m ofRun]
    · rw [if_neg (fun all => ofRun all.2.2), discardOfRun, if_neg ofRun]
  · rw [if_neg (fun all => other ⟨all.1, all.2.1⟩), discardOfRun_entryAt m (not_and_or.mp other)]

/-- What a loop leaves whose body takes something away or leaves it. -/
theorem foldl_discards {σ α β : Type} {step : σ → α → σ} (look : σ → Option β) {gone : α → Prop} [DecidablePred gone]
    (one : ∀ s x, look (step s x) = if gone x then none else look s) (s : σ) (l : List α) :
    look (l.foldl step s) = if ∃ x ∈ l, gone x then none else look s := by
  induction l generalizing s with
  | nil => simp
  | cons x l ih =>
    rw [List.foldl_cons, ih, one]
    by_cases first : gone x
    · simp [first]
    · by_cases later : ∃ x ∈ l, gone x
      · simp [later]
      · simp only [List.exists_mem_cons_iff, first, later, or_self, if_false]

theorem foldl_eq_self {σ α : Type} {step : σ → α → σ} {s : σ} {l : List α} (fixed : ∀ x ∈ l, step s x = s) :
    l.foldl step s = s := by
  induction l with
  | nil => rfl
  | cons x l ih =>
    obtain ⟨first, rest⟩ := List.forall_mem_cons.mp fixed
    rw [List.foldl_cons, first, ih rest]

variable (serde runId threadId) in
/-- The deletion takes away the checkpoints of the run, in its thread, and
leaves the write groups and the blobs. -/
theorem Memory.deleteRunCheckpoints_checkpoint (m : Memory) (ns : String) (id : PyId) :
    (m.deleteRunCheckpoints serde runId threadId).checkpointAt? threadId ns id =
      (m.checkpointAt? threadId ns id).filter (fun entry => !entry.ofRun serde runId) := by
  simp only [checkpointAt?_eq]
  unfold deleteRunCheckpoints
  cases stored : m.storage.get? threadId with
  | none => simp [entryAt, stored]
  | some namespaces =>
    have inner (m : Memory) (e : String × Checkpoints) :=
      foldl_discards (fun m : Memory => entryAt m.toContainers threadId ns id)
        (fun m item => discardOfRun_checkpoint serde runId threadId m e.1 ns item id) m e.2.entries
    have outer := foldl_discards (fun m : Memory => entryAt m.toContainers threadId ns id) inner m namespaces.entries
    dsimp only at outer ⊢
    rw [outer]
    have listed : (∃ e ∈ namespaces.entries, ∃ item ∈ e.2.entries, ns = e.1 ∧ id = item.1 ∧
        item.2.ofRun serde runId = true) ↔
        ∃ entry, entryAt m.toContainers threadId ns id = some entry ∧ entry.ofRun serde runId = true := by
      constructor
      · rintro ⟨e, member, item, inside, rfl, rfl, ofRun⟩
        refine ⟨item.2, ?_, ofRun⟩
        have atNs := Dict.mem_entries_iff.mp member
        have atId := Dict.mem_entries_iff.mp inside
        simp [entryAt, stored, atNs, atId]
      · rintro ⟨entry, found, ofRun⟩
        obtain ⟨namespaces', checkpoints, atThread, atNs, atId⟩ := entryAt_eq found
        rw [stored] at atThread
        cases atThread
        exact ⟨(ns, checkpoints), Dict.mem_entries_iff.mpr atNs, (id, entry), Dict.mem_entries_iff.mpr atId, rfl, rfl,
          ofRun⟩
    simp only [listed]
    cases at_id : entryAt m.toContainers threadId ns id with
    | none => simp
    | some entry => cases ofRun : entry.ofRun serde runId <;> simp [Option.filter, ofRun]

variable (serde runId threadId) in
theorem Memory.deleteRunCheckpoints_frame (m : Memory) :
    (m.deleteRunCheckpoints serde runId threadId).writes = m.writes ∧
      (m.deleteRunCheckpoints serde runId threadId).blobs = m.blobs := by
  have items (m : Memory) (ns : String) (items : List (PyId × CheckpointEntry)) :
      (items.foldl (discardOfRun serde runId threadId ns) m).writes = m.writes ∧
        (items.foldl (discardOfRun serde runId threadId ns) m).blobs = m.blobs := by
    induction items generalizing m with
    | nil => exact ⟨rfl, rfl⟩
    | cons item items ih =>
      obtain ⟨writes, blobs⟩ := discardOfRun_frame serde runId threadId m ns item
      exact ⟨(ih _).1.trans writes, (ih _).2.trans blobs⟩
  unfold deleteRunCheckpoints
  split
  · exact ⟨rfl, rfl⟩
  · rename_i namespaces stored
    clear stored
    generalize namespaces.entries = entries
    induction entries generalizing m with
    | nil => exact ⟨rfl, rfl⟩
    | cons e entries ih =>
      exact ⟨(ih _).1.trans (items m e.1 e.2.entries).1, (ih _).2.trans (items m e.1 e.2.entries).2⟩

variable (serde runId threadId) in
/-- Some checkpoint of the thread carries the run's id. -/
def HasCheckpointsOf (c : Containers) : Prop :=
  ∃ ns id entry, c.checkpointAt? threadId ns id = some entry ∧ entry.ofRun serde runId = true

theorem Memory.deleteRunCheckpoints_eq_self_iff (m : Memory) :
    m.deleteRunCheckpoints serde runId threadId = m ↔ ¬ HasCheckpointsOf serde runId threadId m.toContainers := by
  constructor
  · rintro same ⟨ns, id, entry, found, ofRun⟩
    have removed := deleteRunCheckpoints_checkpoint serde runId threadId m ns id
    rw [same, found] at removed
    simp [Option.filter, ofRun] at removed
  · intro without
    have kept (ns : String) (id : PyId) (entry : CheckpointEntry)
        (found : m.checkpointAt? threadId ns id = some entry) : entry.ofRun serde runId = false :=
      Bool.eq_false_iff.mpr (fun ofRun => without ⟨ns, id, entry, found, ofRun⟩)
    unfold deleteRunCheckpoints
    split
    · rfl
    · rename_i namespaces stored
      have fixed : ∀ e ∈ namespaces.entries,
          e.2.entries.foldl (discardOfRun serde runId threadId e.1) m = m := by
        intro e member
        have items : ∀ item ∈ e.2.entries, m.discardOfRun serde runId threadId e.1 item = m := by
          intro item inside
          have atNs := Dict.mem_entries_iff.mp member
          have atId := Dict.mem_entries_iff.mp inside
          have found : m.checkpointAt? threadId e.1 item.1 = some item.2 := by
            simp [checkpointAt?_eq, entryAt, stored, atNs, atId]
          rw [discardOfRun, if_neg (by rw [kept _ _ _ found]; decide)]
        exact foldl_eq_self items
      exact foldl_eq_self fixed

end Deletion

section Histories

variable {serde : Serde} {c : Containers} {threadId ns channel : String} {start : Option PyId} {h : List HistoryStep}

/-- A history consists of stored checkpoints. -/
theorem ChannelHistory.stored (history : ChannelHistory serde c threadId ns channel start h) :
    ∀ step ∈ h, c.checkpointAt? threadId ns step.id = some step.entry := by
  induction history with
  | root => simp
  | missing => simp
  | found atId => simpa using atId
  | next atId _ _ ih => exact List.forall_mem_cons.mpr ⟨atId, ih⟩

variable (serde) in
/-- At the newest checkpoint of each namespace, each channel has the history that it had. -/
def HistoriesKept (c c' : Containers) (threadId : String) : Prop :=
  ∀ ns latestId latest channel version, c.Newest threadId ns latestId →
    c.checkpointAt? threadId ns latestId = some latest → (serde.channelVersions latest).get? channel = some version →
    ∀ h, ChannelHistory serde c threadId ns channel (some latestId) h ↔
      ChannelHistory serde c' threadId ns channel (some latestId) h

variable (serde) in
/-- A checkpoint of the run lies on the history of a channel of a newest checkpoint. -/
def OnHistory (c : Containers) (threadId runId : String) : Prop :=
  ∃ ns latestId latest channel version h, c.Newest threadId ns latestId ∧
    c.checkpointAt? threadId ns latestId = some latest ∧ (serde.channelVersions latest).get? channel = some version ∧
    ChannelHistory serde c threadId ns channel (some latestId) h ∧ ∃ step ∈ h, step.entry.ofRun serde runId = true

variable (serde threadId) in
theorem Memory.deleteRunCheckpoints_keeps_iff (m : Memory) (runId : String)
    (acyclic : ∀ ns checkpoints, m.checkpoints? threadId ns = some checkpoints →
      checkpoints.Acyclic CheckpointEntry.parent) :
    HistoriesKept serde m.toContainers (m.deleteRunCheckpoints serde runId threadId).toContainers threadId ↔
      ¬ OnHistory serde m.toContainers threadId runId := by
  have after (ns : String) (id : PyId) := deleteRunCheckpoints_checkpoint serde runId threadId m ns id
  obtain ⟨writes, blobs⟩ := deleteRunCheckpoints_frame serde runId threadId m
  constructor
  · rintro kept ⟨ns, latestId, latest, channel, version, h, newest, atLatest, named, history, step, inside, ofRun⟩
    have still := ((kept ns latestId latest channel version newest atLatest named h).mp history).stored step inside
    rw [after, history.stored step inside] at still
    simp [Option.filter, ofRun] at still
  · intro apart ns latestId latest channel version newest atLatest named
    obtain ⟨checkpoints, stored, _⟩ := Option.bind_eq_some_iff.mp atLatest
    obtain ⟨chain, walk⟩ := (acyclic ns checkpoints stored).exists_chain (some latestId)
    obtain ⟨history, rebuilt⟩ := ChannelHistory.exists_of_chain serde channel stored walk
    have spared : ∀ step ∈ history, step.entry.ofRun serde runId = false := fun step inside =>
      Bool.eq_false_iff.mpr (fun ofRun =>
        apart ⟨ns, latestId, latest, channel, version, history, newest, atLatest, named, rebuilt, step, inside, ofRun⟩)
    have carried : ChannelHistory serde (m.deleteRunCheckpoints serde runId threadId).toContainers threadId ns channel
        (some latestId) history := by
      refine rebuilt.transfer (fun id => ∀ entry, m.checkpointAt? threadId ns id = some entry →
          entry.ofRun serde runId = false) (fun step inside entry found => ?_) (fun id kept => ?_) (fun id absent => ?_)
        (fun id _ => by rw [writes]) (fun id entry _ _ => by simp only [Containers.materialized?, blobs])
      · rw [rebuilt.stored step inside] at found
        rw [← Option.some.inj found]
        exact spared step inside
      · rw [after]
        cases found : m.checkpointAt? threadId ns id with
        | none => rfl
        | some entry => simp [Option.filter, kept entry found]
      · rw [after, absent]
        rfl
    refine fun h => ⟨fun before => ?_, fun later => ?_⟩
    · rw [before.unique rebuilt]
      exact carried
    · rw [later.unique carried]
      exact rebuilt

end Histories

namespace Runs

/-- The call passes its handler and its filter check, and the built-in
checkpointer's checkpoints of the run are deleted. -/
def Delete.Discards (s : Runtime) (threadId : Uuid) (answered : Reply) : Prop :=
  s.config.useCustomCheckpointer = false ∧ ∃ filters, answered.answer = .ok filters ∧
    (filters.truthy = true → ∃ r, (Threads.getWithFilters s threadId filters).2 = .ok (some r))

section Calls

variable {serde : Serde} {s : Runtime} {runId threadId : Uuid} {answered removed : Reply}

theorem Delete.resume_of_discards (serde : Serde) (runId : Uuid) (discards : Delete.Discards s threadId answered) :
    ∃ threads, Delete.resume serde s (.authorizing runId threadId) answered =
      Delete.remove { s with
        threads := threads
        memory := s.memory.deleteRunCheckpoints serde runId.str threadId.str } runId threadId := by
  obtain ⟨builtin, filters, answer, allowed⟩ := discards
  simp only [Delete.resume, answer, attempt_ok]
  by_cases given : filters.truthy = true
  · obtain ⟨r, found⟩ := allowed given
    obtain ⟨threads, frame⟩ := (Threads.getWithFilters_completed s threadId filters).frame
    refine ⟨threads, ?_⟩
    rw [if_pos given]
    simp [found, frame, Delete.checkpoints, builtin]
  · exact ⟨s.threads, by rw [if_neg given]; simp [Delete.checkpoints, builtin]⟩

/-- `remove` leaves the memory, and the runs too unless it finds one. -/
theorem Delete.remove_ensures {s : Runtime} {replies : List Reply} :
    Turn.Ensures (Delete.resume serde)
      (fun s' outcome => s'.memory = s.memory ∧
        if s.runs.findIdx? (byIds runId threadId) = none then s'.runs = s.runs ∧ ∃ e, outcome = .error e
        else outcome = .ok [runId])
      replies (Delete.remove s runId threadId) := by
  unfold Delete.remove
  cases found : s.runs.findIdx? (byIds runId threadId) with
  | none => simp
  | some i => simp

theorem Delete.ensures_of_not_discards (stays : ¬ Delete.Discards s threadId answered) :
    Turn.Ensures (Delete.resume serde)
      (fun s' outcome => s'.memory = s.memory ∧ (s'.runs = s.runs ∨ outcome = .ok [runId]))
      [removed] (Delete.resume serde s (.authorizing runId threadId) answered) := by
  have checkpoints (threads : Table Thread) (custom : s.config.useCustomCheckpointer = true) :
      Turn.Ensures (Delete.resume serde)
        (fun s' outcome => s'.memory = s.memory ∧ (s'.runs = s.runs ∨ outcome = .ok [runId]))
        [removed] (Delete.checkpoints serde { s with threads := threads } runId threadId) := by
    rw [Delete.checkpoints, if_pos custom, Turn.ensures_suspended, Delete.resume, ensures_attempt]
    refine ⟨fun e _ => ⟨rfl, Or.inl rfl⟩, fun value _ => Delete.remove_ensures.weaken ?_⟩
    rintro s' outcome ⟨memory, rest⟩
    refine ⟨memory, ?_⟩
    split at rest
    · exact Or.inl rest.1
    · exact Or.inr rest
  rw [Delete.resume, ensures_attempt]
  refine ⟨fun e _ => ⟨rfl, Or.inl rfl⟩, fun filters answer => ?_⟩
  by_cases given : filters.truthy = true
  · obtain ⟨threads, frame⟩ := (Threads.getWithFilters_completed s threadId filters).frame
    rw [if_pos given]
    simp only [frame]
    refine ensures_attempt.mpr ⟨fun e _ => ⟨rfl, Or.inl rfl⟩, fun found search => ?_⟩
    cases found with
    | none => exact ensures_returned.mpr ⟨rfl, Or.inl rfl⟩
    | some r =>
      rw [if_neg (by simp)]
      refine checkpoints threads (by_contra fun builtin => stays ?_)
      exact ⟨Bool.eq_false_iff.mpr builtin, filters, answer, fun _ => ⟨r, search⟩⟩
  · rw [if_neg given]
    refine checkpoints s.threads (by_contra fun builtin => stays ?_)
    exact ⟨Bool.eq_false_iff.mpr builtin, filters, answer, fun truthy => absurd truthy given⟩

end Calls

/-- A call that raises or returns nothing leaves the runs and the checkpoints, with their sizes. -/
def Delete.Harmless (s s' : Runtime) (outcome : Except PyError (List Uuid)) : Prop :=
  (∃ e, outcome = .error e) ∨ outcome = .ok [] → s'.runs = s.runs ∧ s'.memory = s.memory

/-- Without interleaving, a `delete` that raises or returns nothing changes
neither runs nor checkpoints nor sizes, exactly when no checkpoint of the
thread carries the id of a run that it does not find. -/
theorem delete_harmless_iff (serde : Serde) (s : Runtime) (runId : Option Uuid) (threadId : Uuid)
    (made answered removed : Reply) :
    Turn.Ensures (Delete.resume serde) (Delete.Harmless s) [made, answered, removed]
        (s, .suspended (.called runId threadId)) ↔
      (Delete.Discards s threadId answered →
        s.runs.findIdx? (byIds (runId.getD made.fresh) threadId) = none →
        ¬ HasCheckpointsOf serde (runId.getD made.fresh).str threadId.str s.memory.toContainers) := by
  rw [Turn.ensures_suspended, Delete.resume, Turn.ensures_suspended]
  generalize runId.getD made.fresh = drawn
  by_cases discards : Delete.Discards s threadId answered
  · obtain ⟨threads, resumed⟩ := Delete.resume_of_discards serde drawn discards
    rw [resumed]
    cases found : s.runs.findIdx? (byIds drawn threadId) with
    | none => simp [Delete.remove, found, Delete.Harmless, discards, Memory.deleteRunCheckpoints_eq_self_iff]
    | some i => simp [Delete.remove, found, Delete.Harmless]
  · refine iff_of_true ((Delete.ensures_of_not_discards discards).weaken ?_) (fun reached => absurd reached discards)
    rintro s' outcome ⟨memory, runs | returned⟩ ended
    · exact ⟨runs, memory⟩
    · rw [returned] at ended
      simp at ended

/-- Payloads that name their checkpoint, with metadata that names its run. -/
def taggedSerde : Serde := { deltaSerde with loadsMetadata := fun value => [("run_id", .str value.kind)] }

def taggedEntry (id : String) (runId : Uuid) (parent : Option PyId) : PyId × CheckpointEntry :=
  (.text id, ⟨⟨id, []⟩, ⟨runId.str, []⟩, parent⟩)

/-- A thread whose first checkpoint, with a snapshot of its channel, is of one
run, a fork of it of another and its newest, a delta, of a third. -/
def taggedThread : Runtime :=
  { storeOf [idleThread ⟨1⟩] with
    memory :=
      { storage := .ofPairs [((⟨1⟩ : Uuid).str, .ofPairs [("", .ofPairs [taggedEntry "0001" ⟨5⟩ none,
          taggedEntry "0001-fork" ⟨6⟩ (some (.text "0001")), taggedEntry "0002" ⟨7⟩ (some (.text "0001"))])])]
        writes := .empty
        blobs := .ofPairs [(⟨(⟨1⟩ : Uuid).str, "", "state", .text "0001"⟩, ⟨"msgpack", [7]⟩),
          (⟨(⟨1⟩ : Uuid).str, "", "state", .text "0002"⟩, ⟨"empty", []⟩)]
        sizeState := .cleared } }

/-- A run that is not in the store loses its checkpoint to a call that does not find it. -/
theorem delete_harmful :
    ¬ ∀ (serde : Serde) (s : Runtime) (runId : Option Uuid) (threadId : Uuid) (made answered removed : Reply),
      Turn.Ensures (Delete.resume serde) (Delete.Harmless s) [made, answered, removed]
        (s, .suspended (.called runId threadId)) := by
  intro harmless
  have ended := harmless taggedSerde taggedThread (some ⟨5⟩) ⟨1⟩ plainReply plainReply plainReply _ _
    (.suspended (.suspended (.finished _ _ _)))
  have kept := (ended (Or.inl ⟨_, rfl⟩)).2
  have stored : HasCheckpointsOf taggedSerde (⟨5⟩ : Uuid).str (⟨1⟩ : Uuid).str taggedThread.memory.toContainers :=
    ⟨"", .text "0001", (taggedEntry "0001" ⟨5⟩ none).2, rfl, by decide⟩
  exact (Memory.deleteRunCheckpoints_eq_self_iff _).mp kept stored

/-- Without interleaving, `delete` leaves every channel of the newest
checkpoints its history exactly when none of these histories goes through a
checkpoint of the run. -/
theorem delete_keeps_histories_iff (serde : Serde) (s : Runtime) (runId threadId : Uuid)
    (made answered removed : Reply)
    (acyclic : ∀ ns checkpoints, s.memory.checkpoints? threadId.str ns = some checkpoints →
      checkpoints.Acyclic CheckpointEntry.parent) :
    Turn.Ensures (Delete.resume serde)
        (fun s' _ => HistoriesKept serde s.memory.toContainers s'.memory.toContainers threadId.str)
        [made, answered, removed] (s, .suspended (.called (some runId) threadId)) ↔
      (Delete.Discards s threadId answered → ¬ OnHistory serde s.memory.toContainers threadId.str runId.str) := by
  rw [Turn.ensures_suspended, Delete.resume, Turn.ensures_suspended, Option.getD_some]
  by_cases discards : Delete.Discards s threadId answered
  · obtain ⟨threads, resumed⟩ := Delete.resume_of_discards serde runId discards
    rw [resumed, ← Memory.deleteRunCheckpoints_keeps_iff serde threadId.str s.memory runId.str acyclic]
    simp only [discards, true_implies]
    cases found : s.runs.findIdx? (byIds runId threadId) with
    | none => simp [Delete.remove, found]
    | some i => simp [Delete.remove, found]
  · refine iff_of_true ((Delete.ensures_of_not_discards discards).weaken ?_) (fun reached => absurd reached discards)
    rintro s' outcome ⟨memory, _⟩ ns latestId latest channel version _ _ _ h
    rw [memory]

theorem taggedThread_acyclic (ns : String) (checkpoints : Checkpoints)
    (stored : taggedThread.memory.checkpoints? (⟨1⟩ : Uuid).str ns = some checkpoints) :
    checkpoints.Acyclic CheckpointEntry.parent :=
  Containers.AcyclicParents.of_growing_ids (c := taggedThread.memory.toContainers) (by decide) _ ns checkpoints stored

/-- The history of the channel at the newest checkpoint: the delta and the snapshot. -/
theorem taggedThread_history :
    ChannelHistory taggedSerde taggedThread.memory.toContainers (⟨1⟩ : Uuid).str "" "state" (some (.text "0002"))
      [⟨.text "0002", (taggedEntry "0002" ⟨7⟩ (some (.text "0001"))).2, none, none⟩,
        ⟨.text "0001", (taggedEntry "0001" ⟨5⟩ none).2, none, some ⟨"msgpack", [7]⟩⟩] :=
  .next rfl rfl (.found rfl rfl)

theorem taggedThread_newest : taggedThread.memory.Newest (⟨1⟩ : Uuid).str "" (.text "0002") := by
  refine ⟨⟨_, rfl⟩, fun id entry atId => ?_⟩
  have listed : ∀ item ∈ (taggedThread.memory.checkpoints? (⟨1⟩ : Uuid).str "").elim [] Dict.entries,
      item.1.str ≤ "0002" := by decide
  exact listed (id, entry) (Dict.mem_entries_iff.mpr atId)

theorem taggedThread_newest_only {ns : String} {latestId : PyId}
    (newest : taggedThread.memory.Newest (⟨1⟩ : Uuid).str ns latestId) : ns = "" ∧ latestId = .text "0002" := by
  obtain ⟨⟨latest, atLatest⟩, greatest⟩ := newest
  obtain ⟨checkpoints, stored, found⟩ := Option.bind_eq_some_iff.mp atLatest
  obtain ⟨namespaces, atThread, atNs⟩ := Option.bind_eq_some_iff.mp stored
  have root : ns = "" := by
    have listed : ∀ n ∈ (taggedThread.memory.storage.get? (⟨1⟩ : Uuid).str).elim [] Dict.entries, n.1 = "" := by decide
    refine listed (ns, checkpoints) ?_
    rw [atThread]
    exact Dict.mem_entries_iff.mpr atNs
  subst root
  have listed : ∀ item ∈ (taggedThread.memory.checkpoints? (⟨1⟩ : Uuid).str "").elim [] Dict.entries,
      "0002" ≤ item.1.str → item.1 = .text "0002" := by decide
  refine ⟨rfl, listed (latestId, latest) ?_ (greatest (.text "0002") _ rfl)⟩
  rw [stored]
  exact Dict.mem_entries_iff.mpr found

/-- The fork lies on no history. -/
theorem taggedThread_fork_apart :
    ¬ OnHistory taggedSerde taggedThread.memory.toContainers (⟨1⟩ : Uuid).str (⟨6⟩ : Uuid).str := by
  rintro ⟨ns, latestId, latest, channel, version, h, newest, atLatest, named, history, step, inside, ofRun⟩
  obtain ⟨rfl, rfl⟩ := taggedThread_newest_only newest
  have ofState : channel = "state" := by
    have listed : (channel, version) ∈ [("state", Version.text latest.checkpoint.kind)] := Dict.mem_entries_iff.mpr named
    exact congrArg Prod.fst (List.mem_singleton.mp listed)
  subst ofState
  rw [history.unique taggedThread_history] at inside
  have others : ∀ step ∈ [taggedEntry "0002" ⟨7⟩ (some (.text "0001")), taggedEntry "0001" ⟨5⟩ none],
      step.2.ofRun taggedSerde (⟨6⟩ : Uuid).str = false := by decide
  rcases List.mem_cons.mp inside with rfl | later
  · rw [others _ List.mem_cons_self] at ofRun
    cases ofRun
  · rw [List.mem_singleton.mp later, others _ (List.mem_cons_of_mem _ List.mem_cons_self)] at ofRun
    cases ofRun

/-- The run of the fork is in the store too. -/
def forkedThread : Runtime :=
  { taggedThread with
    runs := Table.empty.append
      { runId := some ⟨6⟩, threadId := ⟨1⟩, assistantId := ⟨8⟩, metadata := [], status := some .success, kwargs := []
        multitaskStrategy := "reject", createdAt := none, updatedAt := none, langsmithSessionName := none } }

/-- The deletion of the fork's run goes through, and the histories stay. -/
theorem delete_keeps_histories_fork :
    (∃ s', Turn.EndsOn (Delete.resume taggedSerde) [plainReply, plainReply, plainReply]
      (forkedThread, .suspended (.called (some ⟨6⟩) ⟨1⟩)) s' (.ok [⟨6⟩])) ∧
    Turn.Ensures (Delete.resume taggedSerde)
      (fun s' _ => HistoriesKept taggedSerde forkedThread.memory.toContainers s'.memory.toContainers (⟨1⟩ : Uuid).str)
      [plainReply, plainReply, plainReply] (forkedThread, .suspended (.called (some ⟨6⟩) ⟨1⟩)) :=
  ⟨⟨_, .suspended (.suspended (.finished _ _ _))⟩,
    (delete_keeps_histories_iff taggedSerde forkedThread ⟨6⟩ ⟨1⟩ plainReply plainReply plainReply
      taggedThread_acyclic).mpr (fun _ => taggedThread_fork_apart)⟩

/-- The deletion of the first run takes the snapshot's checkpoint from under the newest one. -/
theorem delete_cuts_history :
    ¬ ∀ (serde : Serde) (s : Runtime) (runId threadId : Uuid) (made answered removed : Reply),
      (∀ ns checkpoints, s.memory.checkpoints? threadId.str ns = some checkpoints →
        checkpoints.Acyclic CheckpointEntry.parent) →
      (∀ ns latestId latest, s.memory.Newest threadId.str ns latestId →
        s.memory.checkpointAt? threadId.str ns latestId = some latest → latest.ofRun serde runId.str = false) →
      Turn.Ensures (Delete.resume serde)
        (fun s' _ => HistoriesKept serde s.memory.toContainers s'.memory.toContainers threadId.str)
        [made, answered, removed] (s, .suspended (.called (some runId) threadId)) := by
  intro all
  have kept := all taggedSerde taggedThread ⟨5⟩ ⟨1⟩ plainReply plainReply plainReply taggedThread_acyclic ?_ _ _
    (.suspended (.suspended (.finished _ _ _)))
  · refine (Memory.deleteRunCheckpoints_keeps_iff taggedSerde _ _ _ taggedThread_acyclic).mp kept ?_
    exact ⟨"", .text "0002", _, "state", _, _, taggedThread_newest, rfl, rfl, taggedThread_history,
      ⟨.text "0001", (taggedEntry "0001" ⟨5⟩ none).2, none, some ⟨"msgpack", [7]⟩⟩, by simp, by decide⟩
  · intro ns latestId latest newest atLatest
    obtain ⟨rfl, rfl⟩ := taggedThread_newest_only newest
    obtain rfl : (taggedEntry "0002" ⟨7⟩ (some (.text "0001"))).2 = latest := Option.some.inj atLatest
    decide

end Runs

end InmemRuntime
