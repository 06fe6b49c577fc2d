import InmemRuntime.Saver

namespace InmemRuntime

section DeleteRun

variable (serde : Serde) (runId threadId : String)

/-- `metadata.get("run_id") == run_id` -/
def CheckpointEntry.ofRun (entry : CheckpointEntry) : Bool :=
  match (serde.loadsMetadata entry.metadata).get? "run_id" with
  | some value => value.pyEq (.str runId)
  | none => false

/-- The loop body for one checkpoint of a namespace. A namespace goes with the
last of its checkpoints; write groups and blobs stay. -/
def Memory.discardOfRun (ns : String) (m : Memory) (item : PyId × CheckpointEntry) : Memory :=
  if item.2.ofRun serde runId then
    let namespaces := (m.storage.get? threadId).getD .empty
    let checkpoints := ((namespaces.get? ns).getD .empty).erase item.1
    { m with
      storage := m.storage.set threadId (if checkpoints.entries.isEmpty then namespaces.erase ns
        else namespaces.set ns checkpoints)
      sizeState := m.sizeState.adjust threadId (-(checkpointEntrySize item.1 item.2)) (-1) }
  else m

/-- `_delete_checkpoints_for_thread` with a run id. -/
def Memory.deleteRunCheckpoints (m : Memory) : Memory :=
  match m.storage.get? threadId with
  | none => m
  | some namespaces =>
    namespaces.entries.foldl (fun m (ns, checkpoints) =>
      checkpoints.entries.foldl (Memory.discardOfRun serde runId threadId ns) m) m

end DeleteRun

section Entries

variable {serde : Serde} {runId threadId : String}

theorem Memory.entryAt_eq {c : Containers} {t ns : String} {id : PyId} {entry : CheckpointEntry}
    (found : entryAt c t ns id = some entry) :
    ∃ namespaces checkpoints, c.storage.get? t = some namespaces ∧
      namespaces.get? ns = some checkpoints ∧ checkpoints.get? id = some entry := by
  unfold entryAt at found
  cases stored : c.storage.get? t with
  | none => simp [stored] at found
  | some namespaces =>
    cases atNs : namespaces.get? ns with
    | none => simp [stored, atNs] at found
    | some checkpoints => exact ⟨namespaces, checkpoints, rfl, atNs, by simpa [stored, atNs] using found⟩

/-- The body touches no other checkpoint. -/
theorem Memory.discardOfRun_entryAt (m : Memory) {ns ns' : String} {item : PyId × CheckpointEntry} {id : PyId}
    (other : ns' ≠ ns ∨ id ≠ item.1) :
    entryAt (m.discardOfRun serde runId threadId ns item).toContainers threadId ns' id =
      entryAt m.toContainers threadId ns' id := by
  unfold discardOfRun
  split
  · simp only [entryAt, Dict.get?_set_self, Option.getD_some]
    generalize hn : (m.storage.get? threadId).getD .empty = namespaces
    split
    · rename_i empty
      by_cases same : ns' = ns
      · subst same
        have gone : id ≠ item.1 := by simpa using other
        have nothing : (((namespaces.get? ns').getD .empty).erase item.1).get? id = none := by
          rw [Dict.get?_eq_none_iff, Dict.keys, List.isEmpty_iff.mp empty]
          simp
        rw [Dict.get?_erase_of_ne _ gone] at nothing
        simp [nothing]
      · rw [Dict.get?_erase_of_ne _ same]
    · by_cases same : ns' = ns
      · subst same
        have gone : id ≠ item.1 := by simpa using other
        rw [Dict.get?_set_self, Option.getD_some, Dict.get?_erase_of_ne _ gone]
      · rw [Dict.get?_set_of_ne _ _ same]
  · rfl

end Entries

end InmemRuntime
