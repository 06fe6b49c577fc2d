import InmemRuntime.JoinRuns
import InmemRuntime.ThreadDelivery
import Mathlib.Algebra.BigOperators.Group.Multiset.Basic

namespace InmemRuntime

/-- Where only one summand of distinct ones changes, the sum changes by as much. -/
theorem List.sum_map_shift {α M : Type*} [AddCommMonoid M] {l : List α} (distinct : l.Nodup) {x : α} (member : x ∈ l)
    {f g : α → M} {d : M} (others : ∀ y ∈ l, y ≠ x → f y = g y) (here : f x = d + g x) :
    (l.map f).sum = d + (l.map g).sum := by
  induction l with
  | nil => cases member
  | cons y l ih =>
    obtain ⟨fresh, distinct⟩ := List.nodup_cons.mp distinct
    rw [List.map_cons, List.sum_cons, List.map_cons, List.sum_cons]
    by_cases same : y = x
    · subst same
      have rest : l.map f = l.map g := by
        refine List.map_congr_left (fun z inside => others z (List.mem_cons_of_mem _ inside) (fun equal => ?_))
        exact fresh (equal ▸ inside)
      rw [rest, here, add_assoc]
    · have later : x ∈ l := (List.mem_cons.mp member).resolve_left (Ne.symm same)
      rw [others y List.mem_cons_self same, ih distinct later (fun z inside => others z (List.mem_cons_of_mem _ inside)),
        add_left_comm]

namespace Threads

section Events

variable (decode : Message → Except PyError (String × String)) (loads : String → Except PyError PyVal) (call : StreamCall)

theorem passing_id {event found : ThreadEvent} (passes : passing loads call event = .ok (some found)) : found = event := by
  unfold passing at passes
  cases filtered : shouldFilterEvent loads call.streamModes event.event event.payload with
  | error e =>
    rw [filtered] at passes
    cases passes
  | ok out =>
    rw [filtered] at passes
    cases out with
    | true => cases passes
    | false =>
      cases passes
      rfl

/-- The event of a message carries its id. -/
theorem eventOf?_id {runId : Option Uuid} {message : Message} {event : ThreadEvent}
    (of : eventOf? decode loads call runId message = some event) : event.id = message.id := by
  unfold eventOf? at of
  split at of
  · rename_i found replayed
    subst of
    obtain ⟨pair, _, replayed⟩ := bind_ok replayed
    dsimp only at replayed
    split at replayed
    · rw [passing_id loads call replayed]
    · rw [passing_id loads call replayed]
  · cases of

/-- Letters other than the separator's first one are passed over. -/
theorem beforeSep_append {d : Char} {ds cs rest : List Char} (apart : ∀ c ∈ cs, c ≠ d) :
    beforeSep (d :: ds) (cs ++ rest) = cs ++ beforeSep (d :: ds) rest := by
  induction cs with
  | nil => rfl
  | cons c cs ih =>
    have other : (d == c) = false := by simpa using (apart c List.mem_cons_self).symm
    have first : (d :: ds).isPrefixOf (c :: (cs ++ rest)) = false := by
      show ((d == c) && _) = false
      rw [other, Bool.false_and]
    rw [List.cons_append, beforeSep, first, ih (fun e inside => apart e (List.mem_cons_of_mem _ inside))]
    rfl

/-- The run of a stream's topic is read back: no character of an id is an `r` or a colon. -/
theorem topicRun_stream (runId : Uuid) (data : String) : topicRun (Runs.streamMessage runId data).topic = .ok runId.str := by
  have topic : (Runs.streamMessage runId data).topic.toList = "run:".toList ++ (runId.chars ++ ":stream".toList) := by
    simp [Runs.streamMessage, toString]
  have letters : ∀ c ∈ runId.chars, c ≠ 'r' ∧ c ≠ ':' := by
    intro c member
    have isId := Uuid.chars_isUuidChar member
    constructor
    · rintro rfl
      exact absurd isId (by decide)
    · rintro rfl
      exact absurd isId (by decide)
  have after : afterSep? "run:".toList ("run:".toList ++ (runId.chars ++ ":stream".toList)) =
      some (runId.chars ++ ":stream".toList) := rfl
  have upToRun : beforeSep "run:".toList (runId.chars ++ ":stream".toList) = runId.chars ++ ":stream".toList :=
    beforeSep_append (fun c member => (letters c member).1)
  have upToColon : beforeSep ":".toList (runId.chars ++ ":stream".toList) = runId.chars ++ [] :=
    beforeSep_append (fun c member => (letters c member).2)
  rw [topicRun, topic, after]
  dsimp only
  rw [upToRun, upToColon, List.append_nil]
  rfl

/-- From the queue of its run a message gives the event that the replay gives. -/
theorem liveEvent_eq {runId : Uuid} {message : Message} (topic : message.topic = (Runs.streamMessage runId "").topic) :
    (∀ event, liveEvent decode loads call message (some runId) = .ok (some event) →
      eventOf? decode loads call (some runId) message = some event) ∧
    (liveEvent decode loads call message (some runId) = .ok none →
      eventOf? decode loads call (some runId) message = none) := by
  have done : topicRun message.topic = .ok runId.str := topic ▸ topicRun_stream runId ""
  unfold liveEvent eventOf? replayedEvent
  cases decoded : decode message with
  | error e => cases e <;> simp [bind, Except.bind]
  | ok pair =>
    obtain ⟨event, payload⟩ := pair
    simp only [bind, Except.bind, done]
    by_cases isDone : event = "control" ∧ payload = "done"
    · simp only [isDone, and_self, if_true, Option.map_some]
      constructor
      · intro found passes
        rw [show passing loads call ⟨"metadata", runDone (some runId.str), message.id, Runs.strOfRunId (some runId)⟩ =
          .ok (some found) from passes]
      · intro passes
        rw [show passing loads call ⟨"metadata", runDone (some runId.str), message.id, Runs.strOfRunId (some runId)⟩ =
          .ok none from passes]
    · simp only [isDone, if_false]
      exact ⟨fun found passes => by rw [passes], fun passes => by rw [passes]⟩

end Events

section Others

variable (call : StreamCall)

/-- What is put for a run. -/
structure Puts (runId : Uuid) (message : Message) (s s' : ThreadStreams) : Prop where
  stored : storedMessages call s' = (some runId, message) ::ₘ storedMessages call s
  arriving : ∀ queue, s'.deliveries.arriving queue =
    s.deliveries.arriving queue ++ List.replicate ((queuesAt s (some call.threadId) (some runId)).count queue) message
  queues : ∀ threadId runId, queuesAt s' threadId runId = queuesAt s threadId runId
  queueCount : s'.streams.queueCount = s.streams.queueCount
  underway : ∀ task ∈ s'.underway, task ∈ s.underway ∨ task.1 ∈ queuesAt s (some call.threadId) (some runId)

/-- Nothing that is stored or arriving changes. -/
structure Keeps (s s' : ThreadStreams) : Prop where
  stored : storedMessages call s' = storedMessages call s
  arriving : ∀ queue, s'.deliveries.arriving queue = s.deliveries.arriving queue
  queues : ∀ threadId runId, queuesAt s' threadId runId = queuesAt s threadId runId
  queueCount : s'.streams.queueCount = s.streams.queueCount
  underway : ∀ task ∈ s'.underway, task ∈ s.underway

theorem Keeps.refl (s : ThreadStreams) : Keeps call s s := ⟨rfl, fun _ => rfl, fun _ _ => rfl, rfl, fun _ member => member⟩

theorem set_storedMessages (stores : Nested (List Message)) (runId : Uuid) (message : Message) :
    ((Dict.get? (stores.set (some call.threadId) (some runId)
        ((stores.get? (some call.threadId) (some runId)).getD [] ++ [message])) (some call.threadId)).getD .empty).sum
      (fun runId messages => (messages.map (fun message => (runId, message)) : Multiset (Option Uuid × Message))) =
    (some runId, message) ::ₘ ((Dict.get? stores (some call.threadId)).getD .empty).sum
      (fun runId messages => (messages.map (fun message => (runId, message)) : Multiset (Option Uuid × Message))) := by
  have inner : (stores.get? (some call.threadId) (some runId)).getD [] =
      (((Dict.get? stores (some call.threadId)).getD .empty).get? (some runId)).getD [] := by
    rw [Nested.get?]
    cases Dict.get? stores (some call.threadId) <;> rfl
  rw [Nested.set, Dict.get?_set_self, Option.getD_some, inner]
  generalize (Dict.get? stores (some call.threadId)).getD .empty = runs
  have sum := runs.sum_set_add (some runId) ((runs.get? (some runId)).getD [] ++ [message])
    (fun runId messages => (messages.map (fun message => (runId, message)) : Multiset (Option Uuid × Message)))
  have added : (((runs.get? (some runId)).getD [] ++ [message]).map (fun message => (some runId, message)) :
      Multiset (Option Uuid × Message)) =
        {(some runId, message)} + (runs.get? (some runId)).elim 0
          (fun messages => (messages.map (fun message => (some runId, message)) : Multiset (Option Uuid × Message))) := by
    cases runs.get? (some runId) with
    | none => rfl
    | some messages =>
      simp only [Option.getD_some, List.map_append, Option.elim_some, ← Multiset.coe_add, List.map_cons, List.map_nil,
        Multiset.coe_singleton]
      exact add_comm _ _
  rw [added, ← add_assoc] at sum
  have total := add_right_cancel sum
  rw [total, add_comm]
  rfl

theorem publishRun_puts (s : ThreadStreams) (runId : Uuid) (data : String) (now : Time) :
    Puts call runId (stamped runId data now) s (publishRun call s runId data now) := by
  have recorded := StreamManager.record_of_stream s.streams (some runId) (some call.threadId) true now
    (Runs.streamTopic runId data)
  have published : (publishRun call s runId data now).deliveries =
      s.deliveries.publish (some runId) (some call.threadId)
        (Runs.streamMessage runId data) true now := by
    rw [publishRun, ThreadStreams.withLive, LiveRuntime.withDeliveries_deliveries]
  have streams : (publishRun call s runId data now).streams =
      (s.streams.record (some runId) (some call.threadId) (Runs.streamMessage runId data) true now).1 := by
    simp only [publishRun, ThreadStreams.withLive, LiveRuntime.withDeliveries, Deliveries.publish, LiveRuntime.deliveries]
  have underway : (publishRun call s runId data now).underway = s.underway ++
      (s.streams.record (some runId) (some call.threadId) (Runs.streamMessage runId data) true now).2 := by
    simp only [publishRun, ThreadStreams.withLive, LiveRuntime.withDeliveries, Deliveries.publish, LiveRuntime.deliveries]
  rw [recorded] at streams underway
  constructor
  case stored =>
    rw [storedMessages, streams]
    exact set_storedMessages call s.streams.messageStores runId (stamped runId data now)
  case arriving =>
    intro queue
    rw [published, Deliveries.publish_arriving]
    have tasks := Deliveries.tasks_for queue (queuesAt s (some call.threadId) (some runId)) (stamped runId data now)
    have made : (s.deliveries.streams.record (some runId) (some call.threadId) (Runs.streamMessage runId data) true now).2 =
        (queuesAt s (some call.threadId) (some runId)).map (fun i => (i, stamped runId data now)) := by
      show (s.streams.record _ _ _ _ _).2 = _
      rw [recorded]
      rfl
    rw [made, tasks]
  case queues =>
    intro threadId' runId'
    rw [queuesAt, streams]
    exact s.streams.queues.touch_listed (some call.threadId) (some runId) threadId' runId'
  case queueCount => rw [streams]
  case underway =>
    intro task member
    rw [underway] at member
    rcases List.mem_append.mp member with old | new
    · exact Or.inl old
    · obtain ⟨queue, inside, rfl⟩ := List.mem_map.mp new
      exact Or.inr inside

theorem deliverNext_keeps (s : ThreadStreams) :
    Keeps call s (s.withLive (s.withDeliveries s.deliveries.deliverNext)) := by
  have frame : ∃ contents, s.deliveries.deliverNext.streams = { s.streams with contents := contents } := by
    unfold Deliveries.deliverNext
    split
    · exact ⟨s.streams.contents, rfl⟩
    · exact ⟨_, rfl⟩
  obtain ⟨contents, streams⟩ := frame
  have same : (s.withLive (s.withDeliveries s.deliveries.deliverNext)).streams = { s.streams with contents := contents } := by
    simp only [ThreadStreams.withLive, LiveRuntime.withDeliveries, streams]
  refine ⟨?_, fun queue => Deliveries.deliverNext_arriving .., fun threadId runId => ?_, ?_, fun task member => ?_⟩
  · rw [storedMessages, same]
    rfl
  · rw [queuesAt, same]
    rfl
  · rw [same]
  · have tasks : task ∈ s.deliveries.deliverNext.underway := member
    unfold Deliveries.deliverNext at tasks
    split at tasks
    · exact tasks
    · rename_i queue message rest underway
      have whole : s.underway = (queue, message) :: rest := underway
      rw [whole]
      exact List.mem_cons_of_mem _ tasks

end Others

section Listening

variable (decode : Message → Except PyError (String × String)) (loads : String → Except PyError PyVal) (call : StreamCall)

/-- The events still to come from a queue. -/
def comingFrom (s : ThreadStreams) (queue : Option Uuid × Nat) : Multiset ThreadEvent :=
  ((s.deliveries.arriving queue.2).filterMap (eventOf? decode loads call queue.1) : List ThreadEvent)

def comingLive (s : ThreadStreams) (queues : Queues) : Multiset ThreadEvent :=
  (queues.map (comingFrom decode loads call s)).sum

/-- The generator has made one queue for the thread and for each run it has
seen; what is put for such a run arrives in its queue, and nothing else does. -/
structure Listens (s : ThreadStreams) (seen : List (Option Uuid)) (queues : Queues) : Prop where
  numbers : (queues.map Prod.snd).Nodup
  runs : (queues.map Prod.fst).Nodup
  seen : ∀ runId, runId ∈ seen ↔ runId ∈ queues.map Prod.fst
  listed : ∀ queue ∈ queues, ∀ threadId runId, (queuesAt s threadId runId).count queue.2 =
    if threadId = some call.threadId ∧ runId = queue.1 ∧ queue.1 ≠ some call.threadId then 1 else 0
  numbered : ∀ queue ∈ queues, queue.2 < s.streams.queueCount
  arrivals : ∀ queue ∈ queues, ∀ message ∈ s.deliveries.arriving queue.2,
    (queue.1, message) ∈ storedMessages call s ∧
      ∃ runId, queue.1 = some runId ∧ message.topic = (Runs.streamMessage runId "").topic

/-- A new queue for a run, or for the thread itself. -/
structure Opens (runId : Option Uuid) (s s' : ThreadStreams) : Prop where
  stored : storedMessages call s' = storedMessages call s
  others : ∀ queue, queue ≠ s.streams.queueCount → s'.deliveries.arriving queue = s.deliveries.arriving queue
  empty : Numbered s → s'.deliveries.arriving s.streams.queueCount = []
  queues : ∀ threadId runId', queuesAt s' threadId runId' =
    if threadId = some call.threadId ∧ runId' = runId ∧ runId ≠ some call.threadId then
      queuesAt s threadId runId' ++ [s.streams.queueCount]
    else queuesAt s threadId runId'
  queueCount : s'.streams.queueCount = s.streams.queueCount + 1
  underway : s'.underway = s.underway
  runs : s'.runs = s.runs

variable {decode loads call} {s s' : ThreadStreams} {seen : List (Option Uuid)} {queues : Queues}

theorem Listens.nothing : Listens call s [] [] :=
  ⟨List.nodup_nil, List.nodup_nil, by simp, by simp, by simp, by simp⟩

theorem Listens.distinct (listens : Listens call s seen queues) : queues.Nodup := List.Nodup.of_map _ listens.numbers

/-- Two queues of the generator with one number are the same. -/
theorem Listens.number_inj (listens : Listens call s seen queues) {a b : Option Uuid × Nat} (one : a ∈ queues)
    (other : b ∈ queues) (same : a.2 = b.2) : a = b :=
  List.inj_on_of_nodup_map listens.numbers one other same

theorem Listens.keeps (listens : Listens call s seen queues) (keeps : Keeps call s s') : Listens call s' seen queues := by
  refine ⟨listens.numbers, listens.runs, listens.seen, fun queue member threadId runId => ?_, fun queue member => ?_,
    fun queue member message arrives => ?_⟩
  · rw [keeps.queues]
    exact listens.listed queue member threadId runId
  · rw [keeps.queueCount]
    exact listens.numbered queue member
  · rw [keeps.arriving] at arrives
    rw [keeps.stored]
    exact listens.arrivals queue member message arrives

theorem Keeps.comingLive (keeps : Keeps call s s') (queues : Queues) :
    comingLive decode loads call s' queues = comingLive decode loads call s queues := by
  refine congrArg List.sum (List.map_congr_left (fun queue _ => ?_))
  rw [comingFrom, comingFrom, keeps.arriving]

theorem Numbered.keeps (numbered : Numbered s) (keeps : Keeps call s s') : Numbered s' := by
  refine ⟨fun threadId runId queue member => ?_, fun task member => ?_⟩
  · rw [keeps.queues] at member
    rw [keeps.queueCount]
    exact numbered.queues threadId runId queue member
  · rw [keeps.queueCount]
    exact numbered.underway task (keeps.underway task member)

section Put

variable {runId : Uuid} {message : Message} (published : Puts call runId message s s')

include published

theorem Numbered.puts (numbered : Numbered s) : Numbered s' := by
  refine ⟨fun threadId runId' queue member => ?_, fun task member => ?_⟩
  · rw [published.queues] at member
    rw [published.queueCount]
    exact numbered.queues threadId runId' queue member
  · rw [published.queueCount]
    rcases published.underway task member with old | new
    · exact numbered.underway task old
    · exact numbered.queues _ _ _ new

theorem Listens.puts_arriving (listens : Listens call s seen queues) {queue : Option Uuid × Nat} (member : queue ∈ queues) :
    s'.deliveries.arriving queue.2 = s.deliveries.arriving queue.2 ++
      if queue.1 = some runId ∧ runId ≠ call.threadId then [message] else [] := by
  rw [published.arriving, listens.listed queue member]
  by_cases mine : queue.1 = some runId
  · by_cases thread : runId = call.threadId <;> simp [mine, thread]
  · simp [mine, Ne.symm mine]

theorem Listens.puts (topic : message.topic = (Runs.streamMessage runId "").topic)
    (listens : Listens call s seen queues) : Listens call s' seen queues := by
  refine ⟨listens.numbers, listens.runs, listens.seen, fun queue member threadId runId' => ?_, fun queue member => ?_,
    fun queue member new arrives => ?_⟩
  · rw [published.queues]
    exact listens.listed queue member threadId runId'
  · rw [published.queueCount]
    exact listens.numbered queue member
  · rw [listens.puts_arriving published member] at arrives
    rw [published.stored, Multiset.mem_cons]
    rcases List.mem_append.mp arrives with old | here
    · obtain ⟨stored, runs⟩ := listens.arrivals queue member new old
      exact ⟨Or.inr stored, runs⟩
    · split at here
      · rename_i mine
        rw [List.mem_singleton.mp here, mine.1]
        exact ⟨Or.inl rfl, runId, rfl, topic⟩
      · cases here

/-- The event of the message comes to the generator when it listens to the run. -/
theorem Listens.puts_coming (listens : Listens call s seen queues) :
    comingLive decode loads call s' queues =
      (if some runId ∈ seen ∧ runId ≠ call.threadId then
        ((eventOf? decode loads call (some runId) message).toList : Multiset ThreadEvent) else 0) +
      comingLive decode loads call s queues := by
  by_cases hears : some runId ∈ seen ∧ runId ≠ call.threadId
  · rw [if_pos hears]
    obtain ⟨queue, member, ofRun⟩ := List.mem_map.mp ((listens.seen _).mp hears.1)
    refine List.sum_map_shift listens.distinct member (fun other inside apart => ?_) ?_
    · have elsewhere : other.1 ≠ some runId := by
        intro same
        exact apart (List.inj_on_of_nodup_map listens.runs inside member (same.trans ofRun.symm))
      rw [comingFrom, comingFrom, listens.puts_arriving published inside, if_neg (fun mine => elsewhere mine.1),
        List.append_nil]
    · rw [comingFrom, comingFrom, listens.puts_arriving published member, if_pos ⟨ofRun, hears.2⟩, List.filterMap_append,
        ← Multiset.coe_add, add_comm, ofRun]
      rfl
  · rw [if_neg hears, zero_add]
    refine congrArg List.sum (List.map_congr_left (fun queue member => ?_))
    have elsewhere : ¬ (queue.1 = some runId ∧ runId ≠ call.threadId) := by
      rintro ⟨mine, other⟩
      exact hears ⟨(listens.seen _).mpr (mine ▸ List.mem_map_of_mem member), other⟩
    rw [comingFrom, comingFrom, listens.puts_arriving published member, if_neg elsewhere, List.append_nil]

end Put

theorem Opens.numbered {runId : Option Uuid} (opens : Opens call runId s s') (numbered : Numbered s) : Numbered s' := by
  refine ⟨fun threadId runId' queue member => ?_, fun task member => ?_⟩
  · rw [opens.queues] at member
    rw [opens.queueCount]
    split at member
    · rcases List.mem_append.mp member with old | new
      · have below := numbered.queues _ _ _ old
        omega
      · rw [List.mem_singleton.mp new]
        omega
    · have below := numbered.queues _ _ _ member
      omega
  · rw [opens.underway] at member
    rw [opens.queueCount]
    have below := numbered.underway task member
    omega

variable (decode loads) in
theorem Listens.opens {runId : Option Uuid} (listens : Listens call s seen queues) (numbered : Numbered s)
    (new : runId ∉ seen) (opens : Opens call runId s s') :
    Listens call s' (seen ++ [runId]) (queues ++ [(runId, s.streams.queueCount)]) ∧
      comingLive decode loads call s' (queues ++ [(runId, s.streams.queueCount)]) =
        comingLive decode loads call s queues := by
  have older : ∀ queue ∈ queues, queue.2 ≠ s.streams.queueCount := by
    intro queue member
    have below := listens.numbered queue member
    omega
  have fresh : ∀ threadId runId', s.streams.queueCount ∉ queuesAt s threadId runId' := by
    intro threadId runId' member
    have below := numbered.queues _ _ _ member
    omega
  constructor
  · refine ⟨?_, ?_, fun runId' => ?_, fun queue member threadId runId' => ?_, fun queue member => ?_,
      fun queue member message arrives => ?_⟩
    · rw [List.map_append, List.nodup_append]
      refine ⟨listens.numbers, List.nodup_singleton _, fun number old number' new' => ?_⟩
      obtain ⟨queue, member, rfl⟩ := List.mem_map.mp old
      rw [List.mem_singleton.mp new']
      exact older queue member
    · rw [List.map_append, List.nodup_append]
      refine ⟨listens.runs, List.nodup_singleton _, fun run old run' new' same => ?_⟩
      rw [List.mem_singleton.mp new'] at same
      obtain rfl : run = runId := same
      exact new ((listens.seen _).mpr old)
    · rw [List.mem_append, List.map_append, List.mem_append, listens.seen]
      rfl
    · rw [opens.queues]
      rcases List.mem_append.mp member with old | new'
      · have count := listens.listed queue old threadId runId'
        split
        · rename_i mine
          have absent : [s.streams.queueCount].count queue.2 = 0 :=
            List.count_eq_zero.mpr (fun inside => older queue old (List.mem_singleton.mp inside))
          rw [List.count_append, absent, Nat.add_zero]
          exact count
        · exact count
      · rw [List.mem_singleton.mp new']
        have none : (queuesAt s threadId runId').count s.streams.queueCount = 0 := List.count_eq_zero.mpr (fresh _ _)
        split
        · rw [List.count_append, none, List.count_singleton_self]
        · exact none
    · rw [opens.queueCount]
      rcases List.mem_append.mp member with old | new'
      · have below := listens.numbered queue old
        omega
      · rw [List.mem_singleton.mp new']
        omega
    · rw [opens.stored]
      rcases List.mem_append.mp member with old | new'
      · rw [opens.others _ (older queue old)] at arrives
        exact listens.arrivals queue old message arrives
      · rw [List.mem_singleton.mp new', opens.empty numbered] at arrives
        cases arrives
  · rw [comingLive, List.map_append, List.sum_append]
    have nothing : comingFrom decode loads call s' (runId, s.streams.queueCount) = 0 := by
      rw [comingFrom, opens.empty numbered]
      rfl
    have same : queues.map (comingFrom decode loads call s') = queues.map (comingFrom decode loads call s) := by
      refine List.map_congr_left (fun queue member => ?_)
      rw [comingFrom, comingFrom, opens.others _ (older queue member)]
    rw [same, List.map_singleton, List.sum_singleton, nothing, add_zero]
    rfl

theorem arriving_new {contents : Nat → List Message} {streams : StreamManager} (numbered : Numbered s)
    (same : s'.streams = streams) (underway : s'.underway = s.underway) (left : streams.contents = contents)
    (empty : contents s.streams.queueCount = []) : s'.deliveries.arriving s.streams.queueCount = [] := by
  rw [Deliveries.arriving]
  show s'.streams.contents s.streams.queueCount ++ (s'.underway.filter _).map _ = []
  rw [same, left, empty, underway, List.nil_append]
  have none : s.underway.filter (fun task => task.1 = s.streams.queueCount) = [] := by
    rw [List.filter_eq_nil_iff]
    intro task member here
    have below := numbered.underway task member
    have same : task.1 = s.streams.queueCount := by simpa using here
    omega
  rw [none]
  rfl

theorem addThreadStream_opens (s : ThreadStreams) :
    Opens call (some call.threadId) s (s.addThreadStream call.threadId).2 := by
  refine ⟨rfl, fun queue other => ?_, fun numbered => ?_, fun threadId runId => ?_, rfl, rfl, rfl⟩
  · rw [Deliveries.arriving, Deliveries.arriving]
    show (if queue = s.streams.queueCount then [] else s.streams.contents queue) ++ _ = _
    rw [if_neg other]
    rfl
  · exact arriving_new numbered rfl rfl rfl (if_pos rfl)
  · rw [if_neg (fun mine => mine.2.2 rfl)]
    rfl

theorem addQueue_opens (s : ThreadStreams) {runId : Option Uuid} (other : runId ≠ some call.threadId) :
    Opens call runId s (s.withStreams (s.streams.addQueue runId (some call.threadId)).2) := by
  refine ⟨rfl, fun queue apart => ?_, fun numbered => ?_, fun threadId runId' => ?_, rfl, rfl, rfl⟩
  · rw [Deliveries.arriving, Deliveries.arriving]
    show (if queue = s.streams.queueCount then [] else s.streams.contents queue) ++ _ = _
    rw [if_neg apart]
    rfl
  · exact arriving_new numbered rfl rfl rfl (if_pos rfl)
  · show (Nested.get? (s.streams.queues.set (some call.threadId) runId _) threadId runId').getD [] = _
    split
    · rename_i mine
      obtain ⟨rfl, rfl, _⟩ := mine
      rw [Nested.get?_set_self]
      rfl
    · rename_i apart
      rw [Nested.get?_set_of_ne]
      · rfl
      · by_cases thread : threadId = some call.threadId
        · exact Or.inr (fun run => apart ⟨thread, run, other⟩)
        · exact Or.inl thread

/-- What a poll keeps, and that it makes the generator listen to the runs it goes over. -/
structure Polls (decode : Message → Except PyError (String × String)) (loads : String → Except PyError PyVal)
    (call : StreamCall) (p p' : Polled) : Prop where
  listens : Listens call p'.shared p'.seen p'.queues
  numbered : Numbered p'.shared
  stored : storedMessages call p'.shared = storedMessages call p.shared
  coming : comingLive decode loads call p'.shared p'.queues = comingLive decode loads call p.shared p.queues
  seen : ∀ runId ∈ p.seen, runId ∈ p'.seen
  runs : p'.shared.runs = p.shared.runs
  underway : p'.shared.underway = p.shared.underway

theorem Polls.trans {p p' p'' : Polled} (first : Polls decode loads call p p') (second : Polls decode loads call p' p'') :
    Polls decode loads call p p'' :=
  ⟨second.listens, second.numbered, second.stored.trans first.stored, second.coming.trans first.coming,
    fun runId member => second.seen runId (first.seen runId member), second.runs.trans first.runs,
    second.underway.trans first.underway⟩

theorem Polls.opens {p : Polled} {runId : Option Uuid} {shared : ThreadStreams} (listens : Listens call p.shared p.seen p.queues)
    (numbered : Numbered p.shared) (new : runId ∉ p.seen) (opens : Opens call runId p.shared shared) :
    Polls decode loads call p ⟨shared, p.seen ++ [runId], p.queues ++ [(runId, p.shared.streams.queueCount)]⟩ := by
  obtain ⟨listens', coming⟩ := listens.opens decode loads numbered new opens
  exact ⟨listens', opens.numbered numbered, opens.stored, coming, fun _ member => List.mem_append_left _ member,
    opens.runs, opens.underway⟩

theorem Polls.refl {p : Polled} (listens : Listens call p.shared p.seen p.queues) (numbered : Numbered p.shared) :
    Polls decode loads call p p :=
  ⟨listens, numbered, rfl, rfl, fun _ member => member, rfl, rfl⟩

variable (decode loads) in
theorem subscribeThread_polls {p : Polled} (listens : Listens call p.shared p.seen p.queues)
    (numbered : Numbered p.shared) :
    Polls decode loads call p (subscribeThread call.threadId p) ∧
      some call.threadId ∈ (subscribeThread call.threadId p).seen := by
  unfold subscribeThread
  split
  · rename_i seen
    exact ⟨.refl listens numbered, seen⟩
  · rename_i new
    exact ⟨.opens listens numbered new (addThreadStream_opens p.shared), List.mem_append_right _ (List.mem_singleton_self _)⟩

variable (decode loads) in
theorem subscribeRun_polls {p : Polled} (listens : Listens call p.shared p.seen p.queues) (numbered : Numbered p.shared)
    (thread : some call.threadId ∈ p.seen) (run : Run) :
    Polls decode loads call p (subscribeRun call.threadId p run) ∧
      (run.threadId = call.threadId → run.runId ∈ (subscribeRun call.threadId p run).seen) := by
  unfold subscribeRun
  split
  · rename_i new
    have other : run.runId ≠ some call.threadId := fun same => new.2 (same ▸ thread)
    exact ⟨.opens listens numbered new.2 (addQueue_opens p.shared other),
      fun _ => List.mem_append_right _ (List.mem_singleton_self _)⟩
  · rename_i old
    refine ⟨.refl listens numbered, fun mine => ?_⟩
    by_contra unseen
    exact old ⟨mine, unseen⟩

variable (decode loads) in
theorem subscribeRuns_polls {p : Polled} (listens : Listens call p.shared p.seen p.queues) (numbered : Numbered p.shared)
    (thread : some call.threadId ∈ p.seen) (runs : List Run) :
    Polls decode loads call p (runs.foldl (subscribeRun call.threadId) p) ∧
      ∀ run ∈ runs, run.threadId = call.threadId → run.runId ∈ (runs.foldl (subscribeRun call.threadId) p).seen := by
  induction runs generalizing p with
  | nil => exact ⟨.refl listens numbered, by simp⟩
  | cons run runs ih =>
    obtain ⟨first, mine⟩ := subscribeRun_polls decode loads listens numbered thread run
    obtain ⟨rest, others⟩ := ih first.listens first.numbered (first.seen _ thread)
    refine ⟨first.trans rest, fun run' member ofThread => ?_⟩
    rcases List.mem_cons.mp member with rfl | later
    · exact rest.seen _ (mine ofThread)
    · exact others run' later ofThread

variable (decode loads) in
/-- After a poll the generator listens to every run of the thread in the store. -/
theorem subscribe_polls {p : Polled} (listens : Listens call p.shared p.seen p.queues) (numbered : Numbered p.shared) :
    Polls decode loads call p (subscribe call.threadId p) ∧
      ∀ run ∈ (subscribe call.threadId p).shared.runs.values, run.threadId = call.threadId →
        run.runId ∈ (subscribe call.threadId p).seen := by
  obtain ⟨first, thread⟩ := subscribeThread_polls decode loads listens numbered
  obtain ⟨rest, all⟩ := subscribeRuns_polls decode loads first.listens first.numbered thread
    p.shared.runs.values
  refine ⟨first.trans rest, fun run member => all run ?_⟩
  have runs : (subscribe call.threadId p).shared.runs = p.shared.runs := (first.trans rest).runs
  rw [runs] at member
  exact member

/-- Messages are taken from the front of queues, and nothing else changes. -/
structure Drains (call : StreamCall) (s s' : ThreadStreams) : Prop where
  stored : storedMessages call s' = storedMessages call s
  arriving : ∀ queue, ∃ taken, s.deliveries.arriving queue = taken ++ s'.deliveries.arriving queue
  emptied : ∀ queue, s.streams.contents queue = [] → s'.streams.contents queue = []
  queues : ∀ threadId runId, queuesAt s' threadId runId = queuesAt s threadId runId
  queueCount : s'.streams.queueCount = s.streams.queueCount
  underway : s'.underway = s.underway
  runs : s'.runs = s.runs

theorem Drains.refl (s : ThreadStreams) : Drains call s s :=
  ⟨rfl, fun _ => ⟨[], rfl⟩, fun _ empty => empty, fun _ _ => rfl, rfl, rfl, rfl⟩

theorem Drains.trans {s'' : ThreadStreams} (first : Drains call s s') (second : Drains call s' s'') : Drains call s s'' := by
  refine ⟨second.stored.trans first.stored, fun queue => ?_, fun queue empty => second.emptied queue (first.emptied queue empty),
    fun threadId runId => (second.queues threadId runId).trans (first.queues threadId runId),
    second.queueCount.trans first.queueCount, second.underway.trans first.underway, second.runs.trans first.runs⟩
  obtain ⟨taken, split⟩ := first.arriving queue
  obtain ⟨taken', split'⟩ := second.arriving queue
  exact ⟨taken ++ taken', by rw [split, split', List.append_assoc]⟩

theorem Numbered.drains (numbered : Numbered s) (drains : Drains call s s') : Numbered s' := by
  refine ⟨fun threadId runId queue member => ?_, fun task member => ?_⟩
  · rw [drains.queues] at member
    rw [drains.queueCount]
    exact numbered.queues threadId runId queue member
  · rw [drains.underway] at member
    rw [drains.queueCount]
    exact numbered.underway task member

theorem Listens.drains (listens : Listens call s seen queues) (drains : Drains call s s') : Listens call s' seen queues := by
  refine ⟨listens.numbers, listens.runs, listens.seen, fun queue member threadId runId => ?_, fun queue member => ?_,
    fun queue member message arrives => ?_⟩
  · rw [drains.queues]
    exact listens.listed queue member threadId runId
  · rw [drains.queueCount]
    exact listens.numbered queue member
  · rw [drains.stored]
    obtain ⟨taken, split⟩ := drains.arriving queue.2
    exact listens.arrivals queue member message (split ▸ List.mem_append_right taken arrives)

variable (decode loads) in
/-- What is taken from the front of a queue came to the generator. -/
theorem Listens.leave (listens : Listens call s seen queues) {queue : Option Uuid × Nat} (member : queue ∈ queues)
    {taken rest : List Message} (holds : s.streams.contents queue.2 = taken ++ rest) :
    Drains call s (Threads.leave s queue.2 rest) ∧
      comingLive decode loads call s queues =
        (taken.filterMap (eventOf? decode loads call queue.1) : List ThreadEvent) +
          comingLive decode loads call (Threads.leave s queue.2 rest) queues := by
  have here : s.deliveries.arriving queue.2 = taken ++ (Threads.leave s queue.2 rest).deliveries.arriving queue.2 := by
    rw [Deliveries.arriving, Deliveries.arriving]
    show s.streams.contents queue.2 ++ _ = taken ++ ((if queue.2 = queue.2 then rest else _) ++ _)
    rw [holds, if_pos rfl, List.append_assoc]
    rfl
  have others : ∀ number, number ≠ queue.2 →
      (Threads.leave s queue.2 rest).deliveries.arriving number = s.deliveries.arriving number := by
    intro number apart
    rw [Deliveries.arriving, Deliveries.arriving]
    show (if number = queue.2 then rest else s.streams.contents number) ++ _ = _
    rw [if_neg apart]
    rfl
  constructor
  · refine ⟨rfl, fun number => ?_, fun number empty => ?_, fun _ _ => rfl, rfl, rfl, rfl⟩
    · by_cases same : number = queue.2
      · rw [same]
        exact ⟨taken, here⟩
      · exact ⟨[], (others number same).symm⟩
    · show (if number = queue.2 then rest else s.streams.contents number) = []
      split
      · rename_i same
        rw [same, holds] at empty
        exact (List.append_eq_nil_iff.mp empty).2
      · exact empty
  · refine List.sum_map_shift listens.distinct member (fun other inside apart => ?_) ?_
    · rw [comingFrom, comingFrom, others _ (fun same => apart (listens.number_inj inside member same))]
    · rw [comingFrom, comingFrom, here, List.filterMap_append, Multiset.coe_add]

variable (decode loads call) in
theorem readQueue_spec (runId : Option Uuid) (messages : List Message) :
    match readQueue decode loads call runId messages with
    | .exhausted => ∀ message ∈ messages, liveEvent decode loads call message runId = .ok none
    | .yields event rest => ∃ before message, messages = before ++ message :: rest ∧
        (∀ m ∈ before, liveEvent decode loads call m runId = .ok none) ∧
          liveEvent decode loads call message runId = .ok (some event)
    | .fails _ _ => True := by
  induction messages with
  | nil => exact fun message member => by cases member
  | cons message messages ih =>
    unfold readQueue
    cases live : liveEvent decode loads call message runId with
    | error e => trivial
    | ok found =>
      cases found with
      | some event => exact ⟨[], message, rfl, by simp, live⟩
      | none =>
        dsimp only
        cases read : readQueue decode loads call runId messages with
        | exhausted =>
          rw [read] at ih
          exact List.forall_mem_cons.mpr ⟨live, ih⟩
        | yields event rest =>
          rw [read] at ih
          obtain ⟨before, stop, split, passed, yielded⟩ := ih
          exact ⟨message :: before, stop, by rw [split]; rfl, List.forall_mem_cons.mpr ⟨live, passed⟩, yielded⟩
        | fails e rest => trivial

/-- From a queue of the generator, messages without an event give none. -/
theorem Listens.no_events (listens : Listens call s seen queues) {queue : Option Uuid × Nat} (member : queue ∈ queues)
    {taken : List Message} (arrives : ∀ message ∈ taken, message ∈ s.deliveries.arriving queue.2)
    (silent : ∀ message ∈ taken, liveEvent decode loads call message queue.1 = .ok none) :
    taken.filterMap (eventOf? decode loads call queue.1) = [] := by
  rw [List.filterMap_eq_nil_iff]
  intro message inside
  obtain ⟨_, runId, ofRun, topic⟩ := listens.arrivals queue member message (arrives message inside)
  rw [ofRun] at silent ⊢
  exact (liveEvent_eq decode loads call topic).2 (silent message inside)

variable (decode loads) in
theorem drain_spec (listens : Listens call s seen queues) {todo : Queues} (inside : ∀ queue ∈ todo, queue ∈ queues) :
    match drain decode loads call s todo with
    | (s', .exhausted) => Drains call s s' ∧ comingLive decode loads call s queues = comingLive decode loads call s' queues ∧
        ∀ queue ∈ todo, s'.streams.contents queue.2 = []
    | (s', .yields event todo') => Drains call s s' ∧
        comingLive decode loads call s queues = {event} + comingLive decode loads call s' queues ∧
          ∀ queue ∈ todo', queue ∈ queues
    | (_, .fails _ _) => True := by
  induction todo generalizing s with
  | nil => exact ⟨.refl s, rfl, by simp⟩
  | cons queue todo ih =>
    obtain ⟨runId, number⟩ := queue
    have member : (runId, number) ∈ queues := inside _ List.mem_cons_self
    have held : ∀ message ∈ s.streams.contents number, message ∈ s.deliveries.arriving number :=
      fun message here => List.mem_append_left _ here
    have spec := readQueue_spec decode loads call runId (s.streams.contents number)
    unfold drain
    cases read : readQueue decode loads call runId (s.streams.contents number) with
    | exhausted =>
      rw [read] at spec
      dsimp only at spec ⊢
      obtain ⟨drains, coming⟩ := listens.leave decode loads member
        (List.append_nil (s.streams.contents number)).symm
      rw [listens.no_events member held spec, Multiset.coe_nil, zero_add] at coming
      have rest := ih (listens.drains drains) (fun queue later => inside queue (List.mem_cons_of_mem _ later))
      cases drained : drain decode loads call (leave s number []) todo with
      | mk s' next =>
        rw [drained] at rest
        cases next with
        | exhausted =>
          obtain ⟨drains', coming', emptied⟩ := rest
          refine ⟨drains.trans drains', coming.trans coming', fun queue here => ?_⟩
          rcases List.mem_cons.mp here with rfl | later
          · exact drains'.emptied number (if_pos rfl)
          · exact emptied queue later
        | yields event todo' =>
          obtain ⟨drains', coming', left⟩ := rest
          exact ⟨drains.trans drains', coming.trans coming', left⟩
        | fails e todo' => trivial
    | yields event rest =>
      rw [read] at spec
      obtain ⟨before, message, split, silent, yielded⟩ := spec
      have holds : s.streams.contents number = (before ++ [message]) ++ rest := by
        rw [split, List.append_assoc]
        rfl
      obtain ⟨drains, coming⟩ := listens.leave decode loads member holds
      have early : ∀ m ∈ before, m ∈ s.deliveries.arriving number := by
        intro m here
        exact held m (split ▸ List.mem_append_left _ here)
      have arrives : message ∈ s.deliveries.arriving number :=
        held message (split ▸ List.mem_append_right _ List.mem_cons_self)
      obtain ⟨_, run, ofRun, topic⟩ := listens.arrivals _ member message arrives
      have of : eventOf? decode loads call runId message = some event := by
        rw [show runId = some run from ofRun] at yielded ⊢
        exact (liveEvent_eq decode loads call topic).1 event yielded
      rw [List.filterMap_append, listens.no_events member early silent, List.nil_append, List.filterMap_cons_some of] at coming
      exact ⟨drains, coming, List.forall_mem_cons.mpr ⟨member, fun queue later => inside queue (List.mem_cons_of_mem _ later)⟩⟩
    | fails e rest => trivial

end Listening

end Threads

end InmemRuntime
