import InmemRuntime.SizeTracking

namespace InmemRuntime

/-- The operations on the containers and their tracker. Each call may come
through a saver of its own, so it carries that saver's base class and codec. -/
inductive SaverOp where
  | put (base : BaseSaver) (config : RunnableConfig) (checkpoint : Checkpoint) (metadata : PyDict)
      (newVersions : Dict String Version)
  | putWrites (base : BaseSaver) (config : RunnableConfig) (writes : List (String × PyVal))
      (taskId taskPath : String)
  | deleteThread (base : BaseSaver) (threadId : String)
  | prune (serde : Serde) (base : BaseSaver) (threadIds : List PyId) (strategy : PruneStrategy)
  | clear
  | deleteRun (serde : Serde) (threadId runId : String)
  | copy (source target : Uuid)

namespace SaverOp

/-- The operation returns normally and leaves `m'`. The id of a copy comes from
`uuid4`, so nothing is stored under it. -/
def Returns : SaverOp → Memory → Memory → Prop
  | .put base config checkpoint metadata newVersions, m, m' =>
    m.put base config checkpoint metadata newVersions = some m'
  | .putWrites base config writes taskId taskPath, m, m' =>
    m.putWrites base config writes taskId taskPath = some m'
  | .deleteThread base threadId, m, m' => m' = m.deleteThread base threadId
  | .prune serde base threadIds strategy, m, m' =>
    ∃ fuel, InmemRuntime.prune serde fuel base m threadIds strategy = some (.ok m')
  | .clear, m, m' => m' = m.clear
  | .deleteRun serde threadId runId, m, m' => m' = m.deleteRunCheckpoints serde runId threadId
  | .copy source target, m, m' =>
    m.toContainers.Unused target.str ∧ target ≠ source ∧ m.copyThread source target = .ok m'

/-- A copy finds only whole matches of the id in the strings of its source. -/
def Clean : SaverOp → Memory → Prop
  | .copy source target, m => CleanSource m target source
  | _, _ => True

variable {op : SaverOp} {m m' : Memory}

/-- What one operation preserves. -/
theorem tracks (returns : op.Returns m m') (clean : op.Clean m) (tracks : m.Tracks) : m'.Tracks := by
  cases op with
  | put base config checkpoint metadata newVersions => exact tracks.put returns
  | putWrites base config writes taskId taskPath => exact tracks.putWrites returns
  | deleteThread base threadId =>
    obtain rfl := returns
    exact tracks.deleteThread base threadId
  | prune serde base threadIds strategy =>
    obtain ⟨fuel, run⟩ := returns
    exact tracks.prune run
  | clear =>
    obtain rfl := returns
    exact Memory.Tracks.clear
  | deleteRun serde threadId runId =>
    obtain rfl := returns
    exact tracks.deleteRunCheckpoints
  | copy source target =>
    obtain ⟨unused, other, run⟩ := returns
    exact tracks.copyThread other clean unused run

end SaverOp

/-- A sequence of operations from one state to another, all of them meeting a condition. -/
inductive SaverRun (condition : SaverOp → Memory → Prop) (m : Memory) : Memory → Prop where
  | start : SaverRun condition m m
  | step {m' m'' : Memory} (op : SaverOp) (run : SaverRun condition m m') (holds : condition op m')
      (returns : op.Returns m' m'') : SaverRun condition m m''

/-- In every run whose copies find only whole matches, the tracker shows what a
rebuild would compute. -/
theorem sizes_exact_of_clean_run {m m' : Memory} (start : m.SizesExact)
    (run : SaverRun SaverOp.Clean m m') : m'.SizesExact := by
  rw [Memory.sizesExact_iff] at start ⊢
  induction run with
  | start => exact start
  | step op run holds returns ih => exact SaverOp.tracks returns holds ih

section Drift

def copySource : Uuid := ⟨0x00e9abcd12344321800000000000000f⟩

def copyTarget : Uuid := ⟨0x0041abcd12344321800000000000000f⟩

def copyConfig : RunnableConfig := ⟨copySource.str, some "", some (.text "0001"), [], []⟩

def emptyMemory : Memory := ⟨.empty, .cleared⟩

/-- The source thread holds one pending write, to the given channel. -/
def writtenMemory (channel : String) : Memory :=
  (emptyMemory.putWrites plainBase copyConfig [(channel, .none)] "task" "").getD emptyMemory

def copiedMemory (channel : String) : Memory :=
  match (writtenMemory channel).copyThread copySource copyTarget with
  | .ok m => m
  | .error m => m

theorem emptyMemory_exact : emptyMemory.SizesExact := by
  rw [Memory.sizesExact_iff]
  exact Counts.cleared

theorem unused_of_keys {c : Containers} {t : String} (storage : t ∉ c.storage.keys)
    (writes : c.writes.keys.all (fun key => decide (key.thread ≠ t)) = true)
    (blobs : c.blobs.keys.all (fun key => decide (key.thread ≠ t)) = true) : c.Unused t :=
  ⟨storage, by simpa using writes, by simpa using blobs⟩

theorem copied_run {condition : SaverOp → Memory → Prop} {channel : String}
    (first : condition (.putWrites plainBase copyConfig [(channel, .none)] "task" "") emptyMemory)
    (second : condition (.copy copySource copyTarget) (writtenMemory channel))
    (unused : (writtenMemory channel).toContainers.Unused copyTarget.str)
    (copied : (writtenMemory channel).copyThread copySource copyTarget = .ok (copiedMemory channel)) :
    SaverRun condition emptyMemory (copiedMemory channel) := by
  have written : SaverRun condition emptyMemory (writtenMemory channel) :=
    .step (.putWrites plainBase copyConfig [(channel, .none)] "task" "") .start first rfl
  exact .step (.copy copySource copyTarget) written second ⟨unused, by decide, copied⟩

/-- A channel that names the source thread. -/
def namingChannel : String := "to:00e9abcd-1234-4321-8000-00000000000f"

theorem sizes_exact_of_clean_run_naming : (copiedMemory namingChannel).SizesExact ∧
    (copiedMemory namingChannel).sizeState.threadBytes copyTarget.str = 60 := by
  have plain : ∀ s ∈ ["task", namingChannel, "msgpack", ""], MatchesWhole copySource s := by
    have all : ["task", namingChannel, "msgpack", ""].all (fun s =>
        s.toList.all (fun c => (escapeChar c).length == 1)) = true := by decide +kernel
    exact fun s member => .of_plain (List.all_eq_true.mp all s member)
  have nothing : (writtenMemory namingChannel).storage.get? copySource.str = none := by decide +kernel
  have single : ∀ e ∈ (writtenMemory namingChannel).writes.entries, ∀ w ∈ e.2.entries,
      w.2 = ⟨"task", namingChannel, ⟨"msgpack", [4]⟩, ""⟩ := by decide +kernel
  have clean : CleanSource (writtenMemory namingChannel) copyTarget copySource := by
    refine ⟨?_, fun key group stored _ w member => ?_⟩
    · rw [nothing]
      exact ⟨trivial, List.nodup_nil, fun _ member => absurd member List.not_mem_nil⟩
    · rw [single _ (Dict.mem_entries_iff.mpr stored) w member]
      exact ⟨plain _ (by simp), plain _ (by simp), ⟨plain _ (by simp), trivial, trivial⟩,
        plain _ (by simp), trivial⟩
  refine ⟨sizes_exact_of_clean_run emptyMemory_exact (copied_run trivial clean ?_ ?_), ?_⟩
  · exact unused_of_keys (by decide +kernel) (by decide +kernel) (by decide +kernel)
  · decide +kernel
  · decide +kernel

/-- A channel whose JSON text `\u00e9abcd-…` contains the id of the source. -/
def escapedChannel : String := "éabcd-1234-4321-8000-00000000000f"

/-- The copied channel is one byte shorter, while the tracker gives the copy
the size of the source. -/
theorem sizes_drift_after_copy : emptyMemory.SizesExact ∧
    SaverRun (fun _ _ => True) emptyMemory (copiedMemory escapedChannel) ∧
    ¬ (copiedMemory escapedChannel).SizesExact := by
  refine ⟨emptyMemory_exact, copied_run trivial trivial ?_ (by decide +kernel), fun exact => ?_⟩
  · exact unused_of_keys (by decide +kernel) (by decide +kernel) (by decide +kernel)
  · have differs : (copiedMemory escapedChannel).sizeState.totalBytes ≠
        (copiedMemory escapedChannel).rebuildSizeTracking.sizeState.totalBytes := by decide +kernel
    exact differs exact.2.1

end Drift

end InmemRuntime
