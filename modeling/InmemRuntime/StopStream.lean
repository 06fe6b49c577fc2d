import InmemRuntime.RunsCancel
import InmemRuntime.StreamDelivery

namespace InmemRuntime

namespace StreamManager

/-- What a `for` loop over an entry of a registry meets: a list gives its
queues, a dict its keys. -/
inductive LoopItem where
  | queue (queue : Nat)
  | key (id : Option Uuid)
deriving DecidableEq

/-- `await queue.put(message)`, where `queue` may be a key, which has no `put`. -/
def LoopItem.put (m : StreamManager) (message : Message) : LoopItem → Except PyError StreamManager
  | .queue target => .ok (m.deliverTo target message)
  | .key _ => .error .attributeError

/-- The body of the inner loop: every error is passed over. -/
def tryPut (message : Message) (m : StreamManager) (item : LoopItem) : StreamManager :=
  match item.put m message with
  | .ok m => m
  | .error _ => m

def putAll (m : StreamManager) (message : Message) (items : List LoopItem) : StreamManager :=
  items.foldl (tryPut message) m

/-- The text of a key of the outer map; no thread is `THREADLESS_KEY`. -/
def threadKeyText : Option Uuid → String
  | none => "no-thread"
  | some threadId => threadId.str

/-- `Message(topic=f"run:{run_id}:control".encode(), data=b"done")`, where `run_id` is a key of the outer map. -/
def stopMessage (threadKey : Option Uuid) : Message :=
  ⟨s!"run:{threadKeyText threadKey}:control", "done", none⟩

/-- The outer loop over the keys that there are at the start. The entry of a key is a dict. -/
def stopLoop (m : StreamManager) (keys : List (Option Uuid)) : StreamManager :=
  keys.foldl (fun m key => m.putAll (stopMessage key) (((Dict.get? m.queues key).getD .empty).keys.map .key)) m

/-- `stop_stream` -/
def stopStream (m : StreamManager) : StreamManager :=
  { m.stopLoop m.queues.keys with queues := .empty, controlQueues := .empty, messageStores := .empty }

/-- Every registered stream queue gets one message more, the `done` that names its run. -/
def NotifiesAll (m m' : StreamManager) : Prop :=
  ∀ threadId runId, ∀ queue ∈ (m.queues.get? threadId runId).getD [], ∃ message,
    m'.contents queue = m.contents queue ++ [message] ∧ message.data = "done" ∧
      message.topic = s!"run:{Runs.strOfRunId runId}:control"

variable {m : StreamManager} {message : Message}

/-- The inner loop reaches the queues among the items, and changes nothing else. -/
theorem putAll_contents (m : StreamManager) (message : Message) (items : List LoopItem) (queue : Nat) :
    (m.putAll message items).contents queue =
      m.contents queue ++ List.replicate (items.count (.queue queue)) message := by
  induction items generalizing m with
  | nil => simp [putAll]
  | cons item items ih =>
    rw [putAll, List.foldl_cons, ← putAll, ih]
    cases item with
    | key id =>
      rw [List.count_cons_of_ne (by simp)]
      rfl
    | queue other =>
      rw [tryPut, LoopItem.put, deliverTo_contents]
      by_cases here : queue = other
      · subst here
        rw [if_pos rfl, List.count_cons_self, List.replicate_succ, List.append_assoc, List.singleton_append]
      · rw [if_neg here, List.count_cons_of_ne (by simpa using Ne.symm here), List.append_nil]

/-- The keys of a dict are no queues. -/
theorem putAll_keys (m : StreamManager) (message : Message) (keys : List (Option Uuid)) :
    (m.putAll message (keys.map .key)).contents = m.contents := by
  funext queue
  have none : (keys.map LoopItem.key).count (.queue queue) = 0 := by
    rw [List.count_eq_zero]
    intro member
    obtain ⟨id, _, same⟩ := List.mem_map.mp member
    cases same
  rw [putAll_contents, none, List.replicate_zero, List.append_nil]

theorem stopLoop_contents (m : StreamManager) (keys : List (Option Uuid)) : (m.stopLoop keys).contents = m.contents := by
  induction keys generalizing m with
  | nil => rfl
  | cons key keys ih =>
    rw [stopLoop, List.foldl_cons, ← stopLoop, ih]
    exact putAll_keys _ _ _

/-- `stop_stream` notifies all stream queues exactly when none is registered. -/
theorem stopStream_notifies_iff (m : StreamManager) :
    NotifiesAll m m.stopStream ↔ ∀ threadId runId, (m.queues.get? threadId runId).getD [] = [] := by
  have unchanged : m.stopStream.contents = m.contents := m.stopLoop_contents m.queues.keys
  constructor
  · intro notifies threadId runId
    rw [List.eq_nil_iff_forall_not_mem]
    intro queue member
    obtain ⟨message, more, _⟩ := notifies threadId runId queue member
    rw [unchanged, List.self_eq_append_right] at more
    cases more
  · intro none threadId runId queue member
    rw [none] at member
    cases member

/-- One queue of one run. -/
def oneListening : StreamManager := (empty.addQueue (some ⟨2⟩) (some ⟨1⟩)).2

theorem stopStream_passes_over : ¬ ∀ m : StreamManager, NotifiesAll m m.stopStream := by
  intro notifies
  obtain ⟨message, more, _⟩ := notifies oneListening (some ⟨1⟩) (some ⟨2⟩) 0 (by decide)
  have unchanged : oneListening.stopStream.contents = oneListening.contents := oneListening.stopLoop_contents _
  rw [unchanged, List.self_eq_append_right] at more
  cases more

end StreamManager

end InmemRuntime
