import InmemRuntime.CancelEffects
import InmemRuntime.Lib.LoneCall
import InmemRuntime.StreamDelivery

namespace InmemRuntime

namespace StreamManager

/-- The control queues of a run. -/
def controlQueuesAt (m : StreamManager) (runId threadId : Option Uuid) : List Nat :=
  (m.controlQueues.get? threadId runId).getD []

/-- What has come into a queue between two states. -/
def arrivedSince (m m' : StreamManager) (queue : Nat) : List Message :=
  (m'.contents queue).drop (m.contents queue).length

theorem deliver_contents (contents : Nat → List Message) (queues : List Nat) (message : Message) (queue : Nat) :
    deliver contents queues message queue = contents queue ++ List.replicate (queues.count queue) message := by
  induction queues generalizing contents with
  | nil => simp [deliver]
  | cons first rest ih =>
    have step : deliver contents (first :: rest) message =
        deliver (fun i => if i = first then contents i ++ [message] else contents i) rest message := rfl
    rw [step, ih, List.count_cons]
    by_cases same : queue = first
    · rw [if_pos same, if_pos (by simp [same]), List.append_assoc, List.replicate_succ]
      rfl
    · rw [if_neg same, if_neg (by simpa using Ne.symm same), Nat.add_zero]

end StreamManager

namespace Runs

open StreamManager

theorem controlMessage_topic (action : CancelAction) (runId : Option Uuid) :
    PyVal.isSubstring "control" (controlMessage action runId).topic = true := by
  simp only [PyVal.isSubstring, controlMessage, String.toList_append, List.any_eq_true, List.mem_tails]
  refine ⟨"control".toList, ?_, by decide⟩
  exact ⟨"run:".toList ++ (strOfRunId runId).toList ++ ":".toList, by simp [toString]⟩

/-- A message is the control message of a run, whatever id it has got. -/
def IsControl (action : CancelAction) (runId : Option Uuid) (message : Message) : Prop :=
  message.topic = (controlMessage action runId).topic ∧ message.data = action.text

/-- A control message of the run carries the action: it has come into every control
queue of the run, and it is the one that is kept. -/
structure Notified (action : CancelAction) (m m' : StreamManager) (runId threadId : Option Uuid) : Prop where
  queued : ∀ queue ∈ m.controlQueuesAt runId threadId, ∃ message ∈ m.arrivedSince m' queue, IsControl action runId message
  kept : ∃ message, m'.getControlKey runId threadId = some message ∧ message.data = action.text

theorem strOfRunId_inj {one two : Option Uuid} (same : strOfRunId one = strOfRunId two) : one = two := by
  have named : ∀ u : Uuid, u.str ≠ "None" := fun u none => by
    have length := congrArg (fun text => text.toList.length) none
    rw [Uuid.str_toList, Uuid.chars_length] at length
    cases length
  cases one with
  | none =>
    cases two with
    | none => rfl
    | some v => exact absurd same.symm (named v)
  | some u =>
    cases two with
    | none => exact absurd same (named u)
    | some v => rw [Uuid.str_inj.mp same]

theorem IsControl.runId_eq {action : CancelAction} {one two : Option Uuid} {message : Message}
    (first : IsControl action one message) (second : IsControl action two message) : one = two := by
  have topics := congrArg String.toList (first.1.symm.trans second.1)
  simp only [controlMessage, toString, String.toList_append, List.append_assoc, List.append_cancel_left_eq,
    List.append_cancel_right_eq] at topics
  exact strOfRunId_inj (String.toList_injective topics)

/-- What `put` does with a control message. -/
theorem put_control (m : StreamManager) (action : CancelAction) (runId threadId : Option Uuid) (now : Time) :
    ∃ message, IsControl action runId message ∧
      (∀ runId' threadId', (m.put runId threadId (controlMessage action runId) false now).controlQueuesAt runId' threadId' =
        m.controlQueuesAt runId' threadId') ∧
      (∀ queue, (m.put runId threadId (controlMessage action runId) false now).contents queue =
        m.contents queue ++ List.replicate ((m.controlQueuesAt runId threadId).count queue) message) ∧
      ∀ runId' threadId', (m.put runId threadId (controlMessage action runId) false now).getControlKey runId' threadId' =
        if threadId' = threadId ∧ runId' = runId then some message else m.getControlKey runId' threadId' := by
  refine ⟨{ controlMessage action runId with id := some (generateMsSeqId now) }, ⟨rfl, rfl⟩, ?_⟩
  unfold StreamManager.put
  dsimp only
  rw [if_pos (controlMessage_topic action runId)]
  exact ⟨fun _ _ => Nested.touch_listed _ _ _ _ _, fun _ => deliver_contents _ _ _ _, fun _ _ => Nested.get?_set _ _ _ _ _ _⟩

/-- Messages that have come stay, whatever comes then. -/
theorem arrivedSince_append {m m₁ m₂ : StreamManager} {queue : Nat} {new : List Message}
    (grown : ∃ arrived, m₁.contents queue = m.contents queue ++ arrived)
    (later : m₂.contents queue = m₁.contents queue ++ new) : m.arrivedSince m₂ queue = m.arrivedSince m₁ queue ++ new := by
  obtain ⟨arrived, grown⟩ := grown
  rw [arrivedSince, arrivedSince, later, grown, List.append_assoc, List.drop_left, List.drop_left]

section Tasks

variable {call : CancelCall} {m : StreamManager} {runIds : List (Option Uuid)} {s : Runtime} {waiting : List Cancel}

/-- The task that puts the control message of a run. -/
def putting (call : CancelCall) (runId : Option Uuid) : Cancel :=
  .putting runId call.threadId (controlMessage call.action runId)

/-- What the tasks have done so far: the control messages of the runs that no
longer wait have been put under the thread of the call, and nothing else has. -/
structure Sending (call : CancelCall) (m : StreamManager) (runIds : List (Option Uuid)) (s : Runtime)
    (waiting : List Cancel) : Prop where
  tasks : ∀ k ∈ waiting, (∃ runId ∈ runIds, k = putting call runId) ∨ ∃ deletion, k = .deleting deletion
  queues : ∀ runId threadId, s.streams.controlQueuesAt runId threadId = m.controlQueuesAt runId threadId
  contents : ∀ queue, ∃ arrived, s.streams.contents queue = m.contents queue ++ arrived ∧ ∀ message ∈ arrived,
    ∃ runId ∈ runIds, IsControl call.action runId message ∧ queue ∈ m.controlQueuesAt runId call.threadId
  elsewhere : ∀ threadId, threadId ≠ call.threadId → ∀ runId,
    s.streams.getControlKey runId threadId = m.getControlKey runId threadId
  sent : ∀ runId ∈ runIds, putting call runId ∈ waiting ∨ Notified call.action m s.streams runId call.threadId

theorem Sending.perm {waiting' : List Cancel} (perm : waiting.Perm waiting') (sending : Sending call m runIds s waiting) :
    Sending call m runIds s waiting' where
  tasks k member := sending.tasks k (perm.mem_iff.mpr member)
  queues := sending.queues
  contents := sending.contents
  elsewhere := sending.elsewhere
  sent runId member := (sending.sent runId member).imp_left perm.mem_iff.mp

/-- A deletion touches no queue. -/
theorem delete_streams (serde : Serde) (s : Runtime) (p : Delete) (reply : Reply) :
    (Delete.resume serde s p reply).1.streams = s.streams := by
  have removed : ∀ s runId threadId, (Delete.remove s runId threadId).1.streams = s.streams := by
    intro s runId threadId
    unfold Delete.remove
    split <;> rfl
  have checkpoints : ∀ s runId threadId, (Delete.checkpoints serde s runId threadId).1.streams = s.streams := by
    intro s runId threadId
    unfold Delete.checkpoints
    split
    · rfl
    · exact removed _ _ _
  cases p with
  | called runId threadId => rfl
  | authorizing runId threadId =>
    rw [Delete.resume]
    refine attempt_cases (fun _ _ => rfl) (fun filters _ => ?_)
    split
    · have same := (Threads.getWithFilters_completed s threadId filters).streams
      dsimp only
      refine attempt_cases (fun _ _ => same) (fun found _ => ?_)
      split
      · exact same
      · exact (checkpoints _ _ _).trans same
    · exact checkpoints _ _ _
  | deletingCheckpoints runId threadId =>
    rw [Delete.resume]
    exact attempt_cases (fun _ _ => rfl) (fun _ _ => removed _ _ _)

/-- What goes on elsewhere, as long as the streams stay as they are. -/
theorem Sending.of_streams {s' : Runtime} {k : Cancel} {others points : List Cancel}
    (sending : Sending call m runIds s (k :: others)) (deletes : ∃ deletion, k = .deleting deletion)
    (left : ∀ p ∈ points, ∃ deletion, p = .deleting deletion) (same : s'.streams = s.streams) :
    Sending call m runIds s' (points ++ others) where
  tasks p member := by
    rcases List.mem_append.mp member with own | other
    · exact .inr (left p own)
    · exact sending.tasks p (List.mem_cons_of_mem k other)
  queues := same ▸ sending.queues
  contents := same ▸ sending.contents
  elsewhere := same ▸ sending.elsewhere
  sent runId member := by
    rw [same]
    refine (sending.sent runId member).imp_left (fun waits => ?_)
    rcases List.mem_cons.mp waits with own | other
    · obtain ⟨deletion, rfl⟩ := deletes
      cases own
    · exact List.mem_append_right points other

/-- A control message is put. -/
theorem Sending.puts {runId : Option Uuid} {others : List Cancel} (listed : runId ∈ runIds)
    (sending : Sending call m runIds s (putting call runId :: others)) (now : Time) :
    Sending call m runIds
      { s with streams := s.streams.put runId call.threadId (controlMessage call.action runId) false now } others := by
  obtain ⟨message, control, queues, contents, keys⟩ := put_control s.streams call.action runId call.threadId now
  have grown : ∀ queue, ∃ arrived, s.streams.contents queue = m.contents queue ++ arrived := fun queue => by
    obtain ⟨arrived, grown, _⟩ := sending.contents queue
    exact ⟨arrived, grown⟩
  constructor
  · exact fun k member => sending.tasks k (List.mem_cons_of_mem _ member)
  · exact fun runId' threadId' => (queues runId' threadId').trans (sending.queues runId' threadId')
  · intro queue
    obtain ⟨arrived, before, origin⟩ := sending.contents queue
    refine ⟨_, (contents queue).trans (by rw [before, List.append_assoc]), fun new member => ?_⟩
    rcases List.mem_append.mp member with old | own
    · exact origin new old
    · obtain ⟨often, rfl⟩ := List.mem_replicate.mp own
      have here := List.count_pos_iff.mp (Nat.pos_of_ne_zero often)
      exact ⟨runId, listed, control, sending.queues runId call.threadId ▸ here⟩
  · intro threadId other runId'
    rw [keys, if_neg (fun both => other both.1)]
    exact sending.elsewhere threadId other runId'
  · intro runId' member
    by_cases same : runId' = runId
    · subst same
      refine .inr ⟨fun queue here => ⟨message, ?_, control⟩, ⟨message, ?_, control.2⟩⟩
      · rw [arrivedSince_append (grown queue) (contents queue)]
        refine List.mem_append_right _ (List.mem_replicate.mpr ⟨?_, rfl⟩)
        rw [sending.queues]
        exact (List.count_pos_iff.mpr here).ne'
      · rw [keys, if_pos ⟨rfl, rfl⟩]
    · rcases sending.sent runId' member with waits | ⟨queued, kept⟩
      · refine .inl ((List.mem_cons.mp waits).resolve_left (fun own => same ?_))
        cases own
        rfl
      · refine .inr ⟨fun queue here => ?_, ?_⟩
        · obtain ⟨old, arrived, own⟩ := queued queue here
          rw [arrivedSince_append (grown queue) (contents queue)]
          exact ⟨old, List.mem_append_left _ arrived, own⟩
        · rw [keys, if_neg (fun both => same both.2)]
          exact kept

/-- One turn of one of the tasks. -/
theorem Sending.turn (serde : Serde) {k : Cancel} {others : List Cancel} (sending : Sending call m runIds s (k :: others))
    (reply : Reply) : Sending call m runIds (Cancel.resume serde s k reply).1
      ((Cancel.resume serde s k reply).2.points ++ others) := by
  rcases sending.tasks k List.mem_cons_self with ⟨runId, listed, rfl⟩ | ⟨deletion, rfl⟩
  · exact sending.puts listed reply.now
  · refine sending.of_streams ⟨deletion, rfl⟩ (fun p member => ?_) (delete_streams serde s deletion reply)
    rw [Cancel.resume, Turn.points_map] at member
    obtain ⟨q, _, rfl⟩ := List.mem_map.mp member
    exact ⟨q, rfl⟩

/-- When all the tasks are over. -/
theorem Sending.ended (serde : Serde) {tasks : List Cancel} {gathered : Runtime} (sending : Sending call m runIds s tasks)
    (reach : (Coroutines.mk (fun _ => false) (Cancel.resume serde)).Reaches Coroutines.unrestricted ⟨s, tasks⟩
      ⟨gathered, []⟩) : Sending call m runIds gathered [] := by
  refine reach.invariant (P := Sending call m runIds) (fun perm before => before.perm perm) ?_ ?_ sending
  · intro _ _ _ _ fresh
    cases fresh
  · intro _ _ _ reply before _
    exact before.turn serde reply

end Tasks

section Loop

variable {call : CancelCall} {origin s s' : Runtime} {done : List Nat} {tasks : List Cancel} {cancelable : List Nat}
  {r : Nat}

/-- What the loop has done for the candidates that it has gone through. -/
structure Collected (call : CancelCall) (origin : Runtime) (done : List Nat) (s : Runtime) (tasks : List Cancel)
    (cancelable : List Nat) : Prop where
  streams : ∃ queues, s.streams = { origin.streams with queues := queues }
  runIds : ∀ i, (s.runs.get i).runId = (origin.runs.get i).runId
  made : ∀ k ∈ tasks, (∃ i ∈ done, k = putting call (origin.runs.get i).runId) ∨ ∃ deletion, k = .deleting deletion
  puts : ∀ i ∈ done, putting call (origin.runs.get i).runId ∈ tasks
  active : ∀ i, (origin.runs.get i).isActive = true → cancelable ≠ [] ∨ i ∉ done ∧ (s.runs.get i).isActive = true

theorem collected_nil (same : s.streams = origin.streams) (runs : s.runs = origin.runs) :
    Collected call origin [] s [] [] where
  streams := ⟨origin.streams.queues, same⟩
  runIds i := by rw [runs]
  made k member := absurd member List.not_mem_nil
  puts i member := absurd member List.not_mem_nil
  active i active := .inr ⟨List.not_mem_nil, by rwa [runs]⟩

theorem markInterrupted_frame (s : Runtime) (r : Nat) (now : Time) : (markInterrupted s r now).streams = s.streams ∧
    ∀ i, ((markInterrupted s r now).runs.get i).runId = (s.runs.get i).runId := by
  have idles : ∀ threadId, (idleThreadOf s threadId now).streams = s.streams ∧ (idleThreadOf s threadId now).runs = s.runs := by
    intro threadId
    unfold idleThreadOf
    split <;> exact ⟨rfl, rfl⟩
  have marks : ∀ s : Runtime, ∀ i, ((interruptRun s r now).runs.get i).runId = (s.runs.get i).runId := by
    intro s i
    rw [show (interruptRun s r now).runs = s.runs.update r (withStatus .interrupted now) from rfl, Table.update_get]
    split <;> rfl
  unfold markInterrupted
  split
  · obtain ⟨streams, runs⟩ := idles (s.runs.get r).threadId
    exact ⟨streams, fun i => by rw [marks, runs]⟩
  · exact ⟨rfl, marks s⟩

/-- The candidate whose message has been made. -/
theorem Collected.next (before : Collected call origin done s tasks cancelable) (r : Nat)
    (cancelable' : List Nat) (added : (s.runs.get r).isActive = true → cancelable' ≠ [])
    (kept : cancelable ≠ [] → cancelable' ≠ []) :
    Collected call origin (done ++ [r]) (signal call s r).1 (tasks ++ [(signal call s r).2.1]) cancelable' where
  streams := by
    obtain ⟨queues, same⟩ := before.streams
    exact ⟨_, by rw [signal, getQueues, same]⟩
  runIds := before.runIds
  made k member := by
    rcases List.mem_append.mp member with old | new
    · refine (before.made k old).imp_left ?_
      rintro ⟨i, listed, same⟩
      exact ⟨i, List.mem_append_left _ listed, same⟩
    · refine .inl ⟨r, List.mem_append_right _ (List.mem_singleton_self r), ?_⟩
      rw [List.mem_singleton.mp new, ← before.runIds r]
      rfl
  puts i member := by
    rcases List.mem_append.mp member with old | new
    · exact List.mem_append_left _ (before.puts i old)
    · refine List.mem_append_right _ (List.mem_singleton.mpr ?_)
      rw [List.mem_singleton.mp new, ← before.runIds r]
      rfl
  active i active := by
    rcases before.active i active with full | ⟨left, still⟩
    · exact .inl (kept full)
    · by_cases same : i = r
      · subst same
        exact .inl (added still)
      · exact .inr ⟨by simp [left, same], still⟩

theorem Collected.mark (before : Collected call origin done s tasks cancelable) (full : cancelable ≠ []) (r : Nat)
    (now : Time) : Collected call origin done (markInterrupted s r now) tasks cancelable where
  streams := by
    obtain ⟨queues, same⟩ := before.streams
    exact ⟨queues, (markInterrupted_frame s r now).1.trans same⟩
  runIds i := ((markInterrupted_frame s r now).2 i).trans (before.runIds i)
  made := before.made
  puts := before.puts
  active _ _ := .inl full

theorem Collected.deletes (before : Collected call origin done s tasks cancelable) (eager : Option Nat) :
    Collected call origin done s (tasks ++ eagerDeletion s eager) cancelable where
  streams := before.streams
  runIds := before.runIds
  made k member := by
    rcases List.mem_append.mp member with old | new
    · exact before.made k old
    · cases eager with
      | none => cases new
      | some r => exact .inr ⟨_, List.mem_singleton.mp new⟩
  puts i member := List.mem_append_left _ (before.puts i member)
  active := before.active

/-- The tasks have done nothing yet. -/
theorem Collected.sending (before : Collected call origin done s tasks cancelable) :
    Sending call origin.streams (done.map (fun i => (origin.runs.get i).runId)) s tasks := by
  obtain ⟨queues, same⟩ := before.streams
  constructor
  · intro k member
    refine (before.made k member).imp_left ?_
    rintro ⟨i, listed, own⟩
    exact ⟨_, List.mem_map_of_mem listed, own⟩
  · intro runId threadId
    rw [same]
    rfl
  · intro queue
    exact ⟨[], by rw [same, List.append_nil], fun message member => absurd member List.not_mem_nil⟩
  · intro threadId _ runId
    rw [same]
    rfl
  · intro runId member
    obtain ⟨i, listed, rfl⟩ := List.mem_map.mp member
    exact .inl (before.puts i listed)

/-- A call that returns has got an answer wherever it asked for one. -/
theorem answered_of_ends {serde : Serde} {s s' : Runtime} {reply : Reply} {replies : List Reply}
    (next : PyVal → CancelTurn)
    (ends : Turn.EndsGathering (Cancel.resume serde) replies (attempt s reply.answer next) s' (.ok ())) :
    ∃ value, Turn.EndsGathering (Cancel.resume serde) replies (next value) s' (.ok ()) := by
  cases answered : reply.answer with
  | error e =>
    rw [answered, attempt_error] at ends
    cases (Turn.endsGathering_finished.mp ends).2
  | ok value =>
    rw [answered, attempt_ok] at ends
    exact ⟨value, ends⟩

/-- What follows the loop, when the call returns: none of its candidates was
active, or its tasks have run. -/
theorem afterLoop_gathers (serde : Serde) {replies : List Reply} (before : Collected call origin done s tasks cancelable)
    (ends : Turn.EndsGathering (Cancel.resume serde) replies (Cancel.afterLoop call s tasks cancelable) s' (.ok ())) :
    (∀ i ∈ done, (origin.runs.get i).isActive ≠ true) ∨
      Sending call origin.streams (done.map (fun i => (origin.runs.get i).runId)) s' [] := by
  have reported : ∀ {s : Runtime} {replies}, Turn.EndsGathering (Cancel.resume serde) replies
      (s, .suspended .reporting) s' (.ok ()) → s' = s := by
    intro s replies ends
    obtain ⟨reply, later, rfl, turn⟩ := Turn.endsGathering_suspended.mp ends
    obtain ⟨value, ends⟩ := answered_of_ends (fun _ => returned s ()) turn
    exact (Turn.endsGathering_finished.mp ends).1
  unfold Cancel.afterLoop at ends
  split at ends
  · rename_i empty
    refine .inl (fun i listed active => ?_)
    rcases before.active i active with full | ⟨left, _⟩
    · exact full empty
    · exact left listed
  · split at ends
    · rename_i none
      refine .inl (fun i listed => ?_)
      have put := before.puts i listed
      rw [none] at put
      cases put
    · refine .inr ?_
      cases ends with
      | @forked reply replies _ _ gathered _ _ _ reach ends =>
        have ended := before.sending.ended serde reach
        obtain ⟨value, ends⟩ := answered_of_ends (fun _ => (gathered, .suspended .reporting)) ends
        rw [reported ends]
        exact ended

/-- The loop over the rest of the candidates, when the call returns. -/
theorem loop_gathers (serde : Serde) {rest : List Nat} {now : Time} {replies : List Reply}
    (before : Collected call origin done s tasks cancelable)
    (ends : Turn.EndsGathering (Cancel.resume serde) replies (Cancel.loop call now s rest tasks cancelable) s' (.ok ())) :
    (∀ i ∈ done ++ rest, (origin.runs.get i).isActive ≠ true) ∨
      Sending call origin.streams ((done ++ rest).map (fun i => (origin.runs.get i).runId)) s' [] := by
  induction rest generalizing done s tasks cancelable now replies with
  | nil =>
    rw [List.append_nil]
    exact afterLoop_gathers serde before ends
  | cons r rest ih =>
    rw [List.append_cons]
    have resumed : ∀ {s : Runtime} {eager tasks cancelable replies},
        Collected call origin (done ++ [r]) s tasks cancelable →
        Turn.EndsGathering (Cancel.resume serde) replies (s, .suspended (.deferred call eager rest tasks cancelable)) s'
          (.ok ()) → (∀ i ∈ done ++ [r] ++ rest, (origin.runs.get i).isActive ≠ true) ∨
        Sending call origin.streams ((done ++ [r] ++ rest).map (fun i => (origin.runs.get i).runId)) s' [] := by
      intro s eager tasks cancelable replies collected ends
      obtain ⟨reply, later, rfl, turn⟩ := Turn.endsGathering_suspended.mp ends
      obtain ⟨value, ends⟩ := answered_of_ends
        (fun _ => Cancel.loop call reply.now s rest (tasks ++ eagerDeletion s eager) cancelable) turn
      exact ih (collected.deletes eager) ends
    unfold Cancel.loop at ends
    dsimp only at ends
    split at ends
    · have collected := before.next r (cancelable ++ [r]) (fun _ => by simp) (fun _ => by simp)
      split at ends
      · exact ih (collected.mark (by simp) r now) ends
      · exact resumed collected ends
    · rename_i inactive
      exact resumed (before.next r cancelable (fun active => absurd active inactive) id) ends

/-- The call names the thread of the run; otherwise nothing is lost only when each
control queue of the run is also one of the run without a thread, and the action
is kept for the run already. -/
def Addressed (call : CancelCall) (m : StreamManager) (run : Run) : Prop :=
  call.threadId = some run.threadId ∨
    (∀ queue ∈ m.controlQueuesAt run.runId (some run.threadId), queue ∈ m.controlQueuesAt run.runId call.threadId) ∧
      ∃ message, m.getControlKey run.runId (some run.threadId) = some message ∧ message.data = call.action.text

/-- With all control messages put, those runs are notified that the call addresses. -/
theorem Sending.notified_iff {m : StreamManager} {runIds : List (Option Uuid)} (sending : Sending call m runIds s [])
    {run : Run} (listed : run.runId ∈ runIds) :
    Notified call.action m s.streams run.runId (some run.threadId) ↔ Addressed call m run := by
  have sent := (sending.sent run.runId listed).resolve_left List.not_mem_nil
  by_cases own : call.threadId = some run.threadId
  · rw [own] at sent
    exact ⟨fun _ => .inl own, fun _ => sent⟩
  · have kept := sending.elsewhere (some run.threadId) (Ne.symm own) run.runId
    constructor
    · rintro ⟨queued, message, key, data⟩
      refine .inr ⟨fun queue here => ?_, message, kept ▸ key, data⟩
      obtain ⟨new, since, control⟩ := queued queue here
      obtain ⟨arrived, grown, origin⟩ := sending.contents queue
      rw [arrivedSince, grown, List.drop_left] at since
      obtain ⟨runId, _, control', listed⟩ := origin new since
      exact control.runId_eq control' ▸ listed
    · intro addressed
      obtain ⟨shared, message, key, data⟩ := addressed.resolve_left own
      exact ⟨fun queue here => sent.queued queue (shared queue here), message, kept.trans key, data⟩

/-- A call of `cancel` that runs alone and returns notifies the pending and running
runs that it selects just when it addresses each of them. -/
theorem cancel_notifies_iff (serde : Serde) {s s' : Runtime} {call : CancelCall} {asked answered : Reply}
    {replies : List Reply} {filters : PyVal} {candidates : List Nat} (answer : answered.answer = .ok filters)
    (selected : (call.select filters s).2 = .ok candidates)
    (ends : Turn.EndsGathering (Cancel.resume serde) (asked :: answered :: replies) (s, .suspended (.called call)) s'
      (.ok ())) :
    (∀ r ∈ candidates, (s.runs.get r).isActive = true →
      Notified call.action s.streams s'.streams (s.runs.get r).runId (some (s.runs.get r).threadId)) ↔
      ∀ r ∈ candidates, (s.runs.get r).isActive = true → Addressed call s.streams (s.runs.get r) := by
  have gathers : (∀ i ∈ candidates, (s.runs.get i).isActive ≠ true) ∨
      Sending call s.streams (candidates.map (fun i => (s.runs.get i).runId)) s' [] := by
    obtain ⟨reply, later, same, turn⟩ := Turn.endsGathering_suspended.mp ends
    cases same
    rw [Cancel.resume] at turn
    cases valid : call.validate with
    | error e =>
      rw [valid, attempt_error] at turn
      cases (Turn.endsGathering_finished.mp turn).2
    | ok value =>
      rw [valid, attempt_ok] at turn
      obtain ⟨reply, later, same, turn⟩ := Turn.endsGathering_suspended.mp turn
      cases same
      rw [Cancel.resume_authorizing, answer, attempt_ok, Cancel.start, selected, attempt_ok] at turn
      have read := call.select_completed filters s
      split at turn
      · rename_i none
        exact .inl (fun i listed => absurd listed (none ▸ List.not_mem_nil))
      · exact loop_gathers serde (collected_nil read.streams read.runs) turn
  rcases gathers with inactive | sending
  · exact ⟨fun _ r listed active => absurd active (inactive r listed), fun _ r listed active => absurd active (inactive r listed)⟩
  · have same : ∀ r ∈ candidates,
        Notified call.action s.streams s'.streams (s.runs.get r).runId (some (s.runs.get r).threadId) ↔
          Addressed call s.streams (s.runs.get r) :=
      fun r listed => sending.notified_iff (List.mem_map_of_mem listed)
    exact ⟨fun all r listed active => (same r listed).mp (all r listed active),
      fun all r listed active => (same r listed).mpr (all r listed active)⟩

end Loop

section Forms

def waitingRun : Run :=
  { (default : Run) with runId := some ⟨2⟩, threadId := ⟨1⟩, status := some .pending }

/-- A pending run with a control queue. -/
def listenedRun : Runtime :=
  { (default : Runtime) with
    runs := Table.empty.append waitingRun
    streams := (StreamManager.empty.addControlQueue (some ⟨2⟩) (some ⟨1⟩)).2 }

def interruptById : CancelCall := ⟨some [⟨2⟩], .interrupt, some ⟨1⟩, none, none⟩

def interruptByStatus : CancelCall := ⟨none, .interrupt, none, some .pending, none⟩

def quietSerde : Serde := ⟨fun _ => default, fun _ => []⟩

/-- The call names the thread of the run. -/
theorem cancel_notifies_iff_by_id : listenedRun.streams.controlQueuesAt (some ⟨2⟩) (some ⟨1⟩) = [0] ∧
    ∃ s', ∀ r ∈ [0], (listenedRun.runs.get r).isActive = true → Notified .interrupt listenedRun.streams s'
      (listenedRun.runs.get r).runId (some (listenedRun.runs.get r).threadId) := by
  have ends : Turn.EndsGathering (Cancel.resume quietSerde) [plainReply, plainReply, plainReply, plainReply]
      (listenedRun, .suspended (.called interruptById)) _ (.ok ()) :=
    .suspended (.suspended (.one plainReply rfl (.suspended (.finished _ _ _))))
  have selected : (interruptById.select .none listenedRun).2 = .ok [0] := rfl
  refine ⟨rfl, _, (cancel_notifies_iff quietSerde rfl selected ends).mpr ?_⟩
  intro r member _
  cases List.mem_singleton.mp member
  exact .inl rfl

/-- With a selection by status the messages are put under the key for no thread. -/
theorem cancel_not_notifies :
    ¬ ∀ (serde : Serde) (s s' : Runtime) (call : CancelCall) (asked answered : Reply) (replies : List Reply)
      (filters : PyVal) (candidates : List Nat), answered.answer = .ok filters →
        (call.select filters s).2 = .ok candidates →
          Turn.EndsGathering (Cancel.resume serde) (asked :: answered :: replies) (s, .suspended (.called call)) s'
            (.ok ()) →
          ∀ r ∈ candidates, (s.runs.get r).isActive = true →
            Notified call.action s.streams s'.streams (s.runs.get r).runId (some (s.runs.get r).threadId) := by
  intro notifies
  have ends : Turn.EndsGathering (Cancel.resume quietSerde) [plainReply, plainReply, plainReply, plainReply]
      (listenedRun, .suspended (.called interruptByStatus)) _ (.ok ()) :=
    .suspended (.suspended (.one plainReply rfl (.suspended (.finished _ _ _))))
  obtain ⟨message, key, _⟩ := (notifies quietSerde listenedRun _ interruptByStatus plainReply plainReply
    [plainReply, plainReply] .none [0] rfl rfl ends 0 List.mem_cons_self rfl).kept
  cases key

end Forms

end Runs

end InmemRuntime
