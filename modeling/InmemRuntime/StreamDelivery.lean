import InmemRuntime.Streams

namespace InmemRuntime

/-- A stream manager and the tasks that have not run yet, the oldest first. `put`
gathers one task `queue.put(message)` for each queue, and the event loop runs the
tasks in the order in which they were made. -/
structure Deliveries where
  streams : StreamManager
  underway : List (Nat × Message)

namespace StreamManager

/-- `put` up to where it gathers: the manager and the tasks. -/
def record (m : StreamManager) (runId threadId : Option Uuid) (message : Message) (resumable : Bool) (now : Time) :
    StreamManager × List (Nat × Message) :=
  let message := { message with id := some (generateMsSeqId now) }
  let stores := if resumable then
      m.messageStores.set threadId runId ((m.messageStores.get? threadId runId).getD [] ++ [message])
    else m.messageStores
  if PyVal.isSubstring "control" message.topic then
    ({ m with
        messageStores := stores
        controlKeys := m.controlKeys.set threadId runId message
        controlQueues := m.controlQueues.touch threadId runId },
      ((m.controlQueues.get? threadId runId).getD []).map (fun queue => (queue, message)))
  else
    ({ m with messageStores := stores, queues := m.queues.touch threadId runId },
      ((m.queues.get? threadId runId).getD []).map (fun queue => (queue, message)))

theorem record_of_stream (m : StreamManager) (runId threadId : Option Uuid) {message : Message} (resumable : Bool)
    (now : Time) (topic : PyVal.isSubstring "control" message.topic = false) :
    m.record runId threadId message resumable now =
      ({ m with
          messageStores :=
            if resumable then
              m.messageStores.set threadId runId
                (m.stored runId threadId ++ [{ message with id := some (generateMsSeqId now) }])
            else m.messageStores
          queues := m.queues.touch threadId runId },
        ((m.queues.get? threadId runId).getD []).map
          (fun queue => (queue, { message with id := some (generateMsSeqId now) }))) := by
  simp only [record, stored, topic, Bool.false_eq_true, if_false]

/-- One task `queue.put(message)`. -/
def deliverTo (m : StreamManager) (queue : Nat) (message : Message) : StreamManager :=
  { m with contents := deliver m.contents [queue] message }

theorem deliverTo_contents (m : StreamManager) (queue i : Nat) (message : Message) :
    (m.deliverTo queue message).contents i = m.contents i ++ if i = queue then [message] else [] := by
  by_cases same : i = queue <;> simp [deliverTo, deliver, same]

end StreamManager

namespace Deliveries

/-- `await stream_manager.put(...)`, up to where it waits for its tasks. -/
def publish (d : Deliveries) (runId threadId : Option Uuid) (message : Message) (resumable : Bool) (now : Time) :
    Deliveries :=
  ⟨(d.streams.record runId threadId message resumable now).1,
    d.underway ++ (d.streams.record runId threadId message resumable now).2⟩

/-- The event loop runs the oldest task. -/
def deliverNext (d : Deliveries) : Deliveries :=
  match d.underway with
  | [] => d
  | (queue, message) :: rest => ⟨d.streams.deliverTo queue message, rest⟩

/-- `queue.get_nowait()` -/
def take? (d : Deliveries) (queue : Nat) : Option (Message × Deliveries) :=
  match d.streams.contents queue with
  | [] => none
  | message :: rest =>
    some (message,
      { d with streams := { d.streams with contents := fun i => if i = queue then rest else d.streams.contents i } })

/-- What a queue holds and what is on its way to it, in the order in which it will be read. -/
def arriving (d : Deliveries) (queue : Nat) : List Message :=
  d.streams.contents queue ++ (d.underway.filter (fun task => task.1 = queue)).map Prod.snd

section Arriving

variable (d : Deliveries) (queue : Nat)

@[simp] theorem deliverNext_arriving : d.deliverNext.arriving queue = d.arriving queue := by
  obtain ⟨streams, underway⟩ := d
  cases underway with
  | nil => rfl
  | cons task rest =>
    obtain ⟨target, message⟩ := task
    simp only [deliverNext, arriving, StreamManager.deliverTo_contents, List.filter_cons]
    by_cases same : target = queue
    · simp [same]
    · simp [same, Ne.symm same]

theorem publish_arriving (runId threadId : Option Uuid) (message : Message) (resumable : Bool) (now : Time) :
    (d.publish runId threadId message resumable now).arriving queue =
      d.arriving queue ++
        (((d.streams.record runId threadId message resumable now).2.filter (fun task => task.1 = queue)).map Prod.snd) := by
  have contents : (d.streams.record runId threadId message resumable now).1.contents = d.streams.contents := by
    simp only [StreamManager.record]
    split <;> rfl
  simp only [publish, arriving, contents, List.filter_append, List.map_append, List.append_assoc]

/-- Of the tasks of a `put`, those for one queue. -/
theorem tasks_for (queues : List Nat) (message : Message) :
    (((queues.map (fun i => (i, message))).filter (fun task => task.1 = queue)).map Prod.snd) =
      List.replicate (queues.count queue) message := by
  induction queues with
  | nil => rfl
  | cons first queues ih =>
    by_cases same : first = queue
    · simp [same, ih, List.replicate_succ]
    · simp [same, ih, List.count_cons_of_ne same]

/-- A message that is read was the next to arrive. -/
theorem take?_arriving {d' : Deliveries} {message : Message} (taken : d.take? queue = some (message, d')) :
    d.arriving queue = message :: d'.arriving queue ∧
      (∀ other, other ≠ queue → d'.arriving other = d.arriving other) ∧ d'.underway = d.underway := by
  unfold take? at taken
  split at taken
  · cases taken
  · rename_i first rest holds
    cases taken
    refine ⟨by simp [arriving, holds], fun other apart => ?_, rfl⟩
    simp [arriving, apart]

theorem take?_contents {d' : Deliveries} {message : Message} (taken : d.take? queue = some (message, d')) :
    ∃ rest, d.streams.contents queue = message :: rest := by
  unfold take? at taken
  split at taken
  · cases taken
  · rename_i first rest holds
    cases taken
    exact ⟨rest, holds⟩

/-- Reading a message changes nothing but what the queue holds. -/
theorem take?_frame {d' : Deliveries} {message : Message} (taken : d.take? queue = some (message, d')) :
    ∃ contents, d'.streams = { d.streams with contents := contents } := by
  unfold take? at taken
  split at taken
  · cases taken
  · cases taken
    exact ⟨_, rfl⟩

end Arriving

end Deliveries

end InmemRuntime
