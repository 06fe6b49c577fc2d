import InmemRuntime.LostUpdates
import InmemRuntime.RunEffects
import InmemRuntime.ThreadOps
import InmemRuntime.ThreadSearch
import InmemRuntime.TrueIds

namespace InmemRuntime

namespace Threads

section Filter

variable (f : ThreadFilter)

/-- The thread passes the auth filters and the metadata. -/
def ThreadFilter.Admits (thread : Thread) : Prop :=
  filtersAllow thread.metadata f.filters = .ok true ∧
    (f.metadata.isEmpty || isJsonbContained thread.metadata f.metadata) = true

instance (thread : Thread) : Decidable (f.Admits thread) := instDecidableAnd

/-- The thread has a values dict, and it contains the filter. -/
def hasValues (subset : PyDict) (thread : Thread) : Bool :=
  match thread.values with
  | some (.dict items) => isJsonbContained items subset
  | _ => false

/-- The thread passes the other filters, and its values contain the filter. -/
def ThreadFilter.wants (thread : Thread) : Bool :=
  decide (f.Admits thread) && f.allowsStatus thread && hasValues f.values thread

def inIds (ids : Option (List Uuid)) (thread : Thread) : Bool := ids.all (fun ids => thread.threadId ∈ ids)

/-- `search` does not raise, and it selects the threads that it should. -/
def Selects (threads : Table Thread) (ids : Option (List Uuid)) : Prop :=
  (selectThreads f ids threads threads.rows).2 =
    .ok (threads.rows.filter (fun r => inIds ids (threads.get r) && f.wants (threads.get r)))

/-- `count` does not raise, and it counts the threads that it should. -/
def Counts (threads : Table Thread) : Prop :=
  countThreads f threads.values = .ok (threads.values.filter f.wants).length

/-- The filters can be compared with the thread. Where auth filters and
metadata admit it, its values are a dict, or there are none and the status
rejects it, or they are no dict and lack the first key of the filter. -/
def ThreadFilter.Fits (thread : Thread) : Prop :=
  (∃ allowed, filtersAllow thread.metadata f.filters = .ok allowed) ∧
    (f.Admits thread → match thread.values with
      | none => f.allowsStatus thread = false
      | some (.dict _) => True
      | some other => ∃ item ∈ f.values.head?, other.contains item.1 = .ok false)

end Filter

section One

variable {f : ThreadFilter} {thread : Thread}

/-- Of a value that is no dict only the first key of the filter is looked up. -/
theorem jsonbContained_lookup {other : PyVal} (noDict : ∀ items, other ≠ .dict items) (item : String × PyVal) (rest : PyDict) :
    jsonbContained other (item :: rest) =
      (other.contains item.1 >>= fun inside => if inside then .error .typeError else .ok false) := by
  cases other with
  | dict items => exact absurd rfl (noDict items)
  | _ => rfl

theorem jsonbContained_other {other : PyVal} (noDict : ∀ items, other ≠ .dict items) {subset : PyDict}
    (given : subset ≠ []) : jsonbContained other subset = .ok false ↔
      ∃ item ∈ subset.head?, other.contains item.1 = .ok false := by
  cases subset with
  | nil => exact absurd rfl given
  | cons item rest =>
    rw [jsonbContained_lookup noDict]
    simp only [List.head?_cons, Option.mem_some_iff, exists_eq_left']
    cases found : other.contains item.1 with
    | error e =>
      constructor <;> intro same <;> cases same
    | ok inside =>
      rw [ok_bind]
      cases inside with
      | false => simp
      | true =>
        constructor <;> intro same <;> cases same

theorem jsonbContained_true {other : PyVal} (noDict : ∀ items, other ≠ .dict items) {subset : PyDict}
    (given : subset ≠ []) : jsonbContained other subset ≠ .ok true := by
  cases subset with
  | nil => exact absurd rfl given
  | cons item rest =>
    rw [jsonbContained_lookup noDict]
    intro same
    obtain ⟨inside, _, same⟩ := bind_ok same
    cases inside <;> cases same

/-- The loop body on an admitted thread: its values decide, then its status. -/
theorem allows_admitted (admitted : f.Admits thread) :
    f.allows thread = (f.allowsValues thread >>= fun contained => .ok (contained && f.allowsStatus thread)) := by
  obtain ⟨auth, metadata⟩ := admitted
  rw [ThreadFilter.allows, auth, ok_bind, metadata]
  simp only [Bool.not_true, Bool.false_eq_true, if_false]
  cases f.allowsValues thread with
  | error e => rfl
  | ok contained => cases contained <;> rfl

theorem allows_rejected (rejected : ¬ f.Admits thread) :
    f.allows thread = .ok false ↔ ∃ allowed, filtersAllow thread.metadata f.filters = .ok allowed := by
  rw [ThreadFilter.allows]
  cases auth : filtersAllow thread.metadata f.filters with
  | error e =>
    constructor
    · intro same
      cases same
    · rintro ⟨_, same⟩
      cases same
  | ok allowed =>
    refine ⟨fun _ => ⟨allowed, rfl⟩, fun _ => ?_⟩
    rw [ok_bind]
    cases allowed with
    | false => rfl
    | true =>
      have metadata : (f.metadata.isEmpty || isJsonbContained thread.metadata f.metadata) = false :=
        Bool.eq_false_iff.mpr (fun passes => rejected ⟨auth, passes⟩)
      rw [metadata]
      rfl

/-- The loop body gives the right answer for the threads that fit the filters, and for no others. -/
theorem allows_iff (given : f.values ≠ []) (thread : Thread) :
    f.allows thread = .ok (f.wants thread) ↔ f.Fits thread := by
  by_cases admitted : f.Admits thread
  · have auth : ∃ allowed, filtersAllow thread.metadata f.filters = .ok allowed := ⟨true, admitted.1⟩
    have nonempty : f.values.isEmpty = false := by simpa using given
    rw [allows_admitted admitted, ThreadFilter.wants, decide_eq_true admitted, Bool.true_and, ThreadFilter.Fits,
      ThreadFilter.allowsValues, nonempty, hasValues]
    simp only [Bool.false_eq_true, if_false, auth, true_and, admitted, true_implies]
    cases stored : thread.values with
    | none => cases f.allowsStatus thread <;> simp [ok_bind]
    | some values =>
      cases values with
      | dict items =>
        have walked : jsonbContained (.dict items) f.values = .ok (isJsonbContained items f.values) := by
          cases listed : f.values with
          | nil => exact absurd listed given
          | cons item rest => rfl
        simp [walked, ok_bind, Bool.and_comm]
      | _ =>
        simp only [Bool.and_false]
        rw [← jsonbContained_other (by simp) given]
        constructor
        · intro same
          obtain ⟨contained, compared, same⟩ := bind_ok same
          cases contained with
          | false => exact compared
          | true => exact absurd compared (jsonbContained_true (by simp) given)
        · intro compared
          rw [compared]
          rfl
  · have unwanted : f.wants thread = false := by
      rw [ThreadFilter.wants, decide_eq_false admitted]
      rfl
    rw [unwanted, allows_rejected admitted, ThreadFilter.Fits]
    exact ⟨fun auth => ⟨auth, fun admits => absurd admits admitted⟩, And.left⟩

/-- A thread that is wanted is let through. -/
theorem allows_of_wants (given : f.values ≠ []) (wanted : f.wants thread = true) : f.allows thread = .ok true := by
  obtain ⟨admits, contained⟩ := Bool.and_eq_true_iff.mp wanted
  have admitted := of_decide_eq_true (Bool.and_eq_true_iff.mp admits).1
  have fits : f.Fits thread := by
    refine ⟨⟨true, admitted.1⟩, fun _ => ?_⟩
    rw [hasValues] at contained
    split at contained
    · rename_i items stored
      rw [stored]
      trivial
    · cases contained
  rw [(allows_iff given thread).mpr fits, wanted]

end One

section Loops

variable {f : ThreadFilter}

/-- The loop of `search` selects what it should where the threads among the ids fit the filters. -/
theorem selects_iff (given : f.values ≠ []) (threads : Table Thread) (ids : Option (List Uuid)) :
    Selects f threads ids ↔ ∀ thread ∈ threads.values, inIds ids thread = true → f.Fits thread := by
  have one : ∀ thread, f.allowsIn ids thread = .ok (inIds ids thread && f.wants thread) ↔
      (inIds ids thread = true → f.Fits thread) := by
    intro thread
    have outside : ids.any (fun ids => thread.threadId ∉ ids) = !(inIds ids thread) := by
      cases ids <;> simp [inIds]
    rw [ThreadFilter.allowsIn, outside, ← allows_iff given]
    cases inIds ids thread <;> simp
  rw [Selects, selectThreads_selected, keepOk_filter_iff]
  simp only [one, Table.mem_values, forall_exists_index, and_imp, forall_apply_eq_imp_iff₂]

/-- `count` counts what it should where all threads fit the filters. -/
theorem counts_iff (given : f.values ≠ []) (threads : Table Thread) :
    Counts f threads ↔ ∀ thread ∈ threads.values, f.Fits thread := by
  rw [Counts, countThreads, countOk_filter_iff (fun thread => allows_of_wants given)]
  simp only [allows_iff given]

end Loops

/-- The thread has no values yet, or those of a checkpoint that was reported. -/
def HasValues (reported : PyVal → Prop) (thread : Thread) : Prop :=
  thread.values = none ∨ thread.values = some .none ∨ ∃ values, reported values ∧ thread.values = some values

section Operations

variable {reported : PyVal → Prop} {s : Runtime} {reply : Reply}

theorem put_values (each : s.threads.Each (HasValues reported)) (p : Put) :
    (Put.resume s p reply).1.threads.Each (HasValues reported) := by
  cases p with
  | called call => exact each
  | authorizing call =>
    rw [Put.resume]
    refine attempt_cases (fun e _ => each) (fun filters _ => ?_)
    cases s.threads.find? (byId call.threadId) with
    | none =>
      dsimp only [Put.create]
      refine attempt_cases (fun e _ => ?_) (fun ttls _ => ?_)
      · exact each.append (Or.inr (Or.inl rfl))
      · exact each.append (Or.inr (Or.inl rfl))
    | some r =>
      dsimp only
      refine attempt_cases (fun e _ => each) (fun allowed _ => ?_)
      split
      · exact each
      · cases call.ifExists <;> exact each

theorem copy_values (each : s.threads.Each (HasValues reported)) (p : Copy) :
    (Copy.resume s p reply).1.threads.Each (HasValues reported) := by
  cases p with
  | called threadId => exact each
  | authorizingRead threadId newThreadId =>
    rw [Copy.resume]
    exact attempt_cases (fun e _ => each) (fun readFilters _ => each)
  | copyingCheckpoints thread =>
    rw [Copy.resume]
    exact attempt_cases (fun e _ => each) (fun value _ => each)
  | authorizingCreate threadId newThreadId readFilters =>
    rw [Copy.resume]
    refine attempt_cases (fun e _ => each) (fun value _ => ?_)
    cases s.threads.find? (byId threadId) with
    | none => exact each
    | some r =>
      dsimp only
      refine attempt_cases (fun e _ => each) (fun allowed _ => ?_)
      split
      · exact each
      · simp only [Copy.create]
        split
        · exact each.append (Or.inl rfl)
        · split <;> exact each.append (Or.inl rfl)

theorem patch_values (each : s.threads.Each (HasValues reported)) (p : Patch) :
    (Patch.resume s p reply).1.threads.Each (HasValues reported) := by
  generalize out : Patch.resume s p reply = turn
  have effect := Patch.effect s p reply
  rw [out] at effect
  cases effect with
  | replaced ttls answer stands allowed =>
    have has := each _ (Table.mem_values.mpr ⟨_, List.mem_of_getElem? stands, rfl⟩)
    refine each.replaceAt ?_
    exact has
  | _ => exact each

/-- A report writes the values of its checkpoint, if it has one. -/
theorem reported_values {thread : Thread} (has : HasValues reported thread) (status : ThreadStatus)
    {checkpoint : Option CheckpointPayload} (given : ∀ c ∈ checkpoint, reported c.values)
    (exception : Option PyException) (now : Time) :
    HasValues reported (Thread.reported status checkpoint exception now thread) := by
  cases checkpoint with
  | none => exact has
  | some c => exact Or.inr (Or.inr ⟨c.values, given c rfl, rfl⟩)

theorem setStatus_values (each : s.threads.Each (HasValues reported)) (threadId : Uuid)
    {checkpoint : Option CheckpointPayload} (given : ∀ c ∈ checkpoint, reported c.values)
    (exception : Option PyException) (now : Time) :
    (setStatus s threadId checkpoint exception now).1.threads.Each (HasValues reported) := by
  unfold setStatus
  split
  · exact each
  · exact each.update (fun thread has => reported_values has _ given exception now)

theorem finish_values (each : s.threads.Each (HasValues reported)) {call : JointCall}
    (given : ∀ c ∈ call.checkpoint, reported c.values) (thread : Nat) (now : Time) (busy : Bool) :
    (Joint.finish s call thread now busy).threads.Each (HasValues reported) := by
  have kept : ∀ record, HasValues reported record → HasValues reported
      (Thread.reported (if busy then .busy else baseStatus call.checkpoint call.failed) call.checkpoint call.exception now
        { record with metadata := record.metadata.set "graph_id" (.str call.graphId) }) := by
    intro record has
    refine reported_values ?_ _ given call.exception now
    exact has
  exact each.update kept

theorem afterDelete_values {call : JointCall} (given : ∀ c ∈ call.checkpoint, reported c.values) (thread : Nat)
    (now : Time) (turn : Runs.DeleteTurn) (each : turn.1.threads.Each (HasValues reported)) :
    (Joint.afterDelete call thread now turn).1.threads.Each (HasValues reported) := by
  unfold Joint.afterDelete
  split
  · exact each
  · exact each
  · exact finish_values each given thread now _

theorem delete_values (serde : Serde) (each : s.threads.Each (HasValues reported)) (deletion : Runs.Delete) :
    (Runs.Delete.resume serde s deletion reply).1.threads.Each (HasValues reported) := by
  rcases delete_threads serde s deletion reply with same | ⟨r, _, updated⟩
  · rw [same]
    exact each
  · rw [updated]
    exact each.update (fun _ has => has)

theorem joint_values (serde : Serde) (each : s.threads.Each (HasValues reported)) (p : Joint)
    (given : ∀ c ∈ p.call.checkpoint, reported c.values) :
    (Joint.resume serde s p reply).1.threads.Each (HasValues reported) := by
  cases p with
  | rollingBack call thread now deletion =>
    exact afterDelete_values given thread now _ (delete_values serde each deletion)
  | called call =>
    rw [Joint.resume]
    split
    · exact each
    · split
      · exact each
      · split
        · exact afterDelete_values given _ _ _ (delete_values serde each _)
        · exact finish_values each given _ _ _

theorem runsPut_values (each : s.threads.Each (HasValues reported)) {p : Runs.Put} (stands : p.Stands) :
    (Runs.Put.resume s p reply).1.threads.Each (HasValues reported) := by
  generalize out : Runs.Put.resume s p reply = turn
  have effect := Runs.Put.effect s p reply
  rw [out] at effect
  cases effect with
  | unchanged => exact each
  | suspended => exact each
  | extended =>
    refine each.update (fun thread has => ?_)
    unfold Runs.markBusy
    split <;> exact has
  | created here =>
    subst here
    rcases stands with ⟨call, same⟩ | ⟨call, assistant, at_p⟩
    · cases same
    · cases at_p
      exact each.append (Or.inr (Or.inl rfl))

end Operations

inductive ValuesCall where
  | put (p : Put)
  | copy (p : Copy)
  | runsPut (p : Runs.Put)
  | setStatus (threadId : Uuid) (checkpoint : Option CheckpointPayload) (exception : Option PyException)
  | joint (p : Joint)
  | patch (p : Patch)

section Runs

variable (serde : Serde)

def ValuesCall.resume (s : Runtime) : ValuesCall → Reply → Runtime × Turn ValuesCall Unit
  | .put p, reply => ((Put.resume s p reply).1, (Put.resume s p reply).2.map .put (fun _ => ()))
  | .copy p, reply => ((Copy.resume s p reply).1, (Copy.resume s p reply).2.map .copy (fun _ => ()))
  | .runsPut p, reply => ((Runs.Put.resume s p reply).1, (Runs.Put.resume s p reply).2.map .runsPut (fun _ => ()))
  | .setStatus threadId checkpoint exception, reply =>
    ((Threads.setStatus s threadId checkpoint exception reply.now).1, .finished ())
  | .joint p, reply => ((Joint.resume serde s p reply).1, (Joint.resume serde s p reply).2.map .joint (fun _ => ()))
  | .patch p, reply => ((Patch.resume s p reply).1, (Patch.resume s p reply).2.map .patch (fun _ => ()))

/-- Any calls of the operations that write threads. -/
def valuesCalls : Coroutines Runtime ValuesCall Reply Unit where
  fresh
    | .put (.called _) | .copy (.called _) | .runsPut (.called _) | .setStatus .. | .joint (.called _)
    | .patch (.called _) => true
    | _ => false
  resume s k reply := k.resume serde s reply

/-- The checkpoint that the call reports. -/
def ValuesCall.checkpoint : ValuesCall → Option CheckpointPayload
  | .setStatus _ checkpoint _ => checkpoint
  | .joint p => p.call.checkpoint
  | _ => none

/-- The values of the checkpoints that are reported are such. -/
def Reporting (reported : PyVal → Prop) (_s : Runtime) (_others : List ValuesCall) (k : ValuesCall) (_reply : Reply) :
    Prop :=
  ∀ c ∈ k.checkpoint, reported c.values

def ValuesCall.Stands : ValuesCall → Prop
  | .runsPut p => p.Stands
  | _ => True

variable {serde} {reported : PyVal → Prop}

theorem resume_values {s : Runtime} (each : s.threads.Each (HasValues reported)) {k : ValuesCall} (stands : k.Stands)
    {others : List ValuesCall} {reply : Reply} (given : Reporting reported s others k reply) :
    (k.resume serde s reply).1.threads.Each (HasValues reported) := by
  cases k with
  | put p => exact put_values each p
  | copy p => exact copy_values each p
  | runsPut p => exact runsPut_values each stands
  | setStatus threadId checkpoint exception => exact setStatus_values each threadId given exception reply.now
  | joint p => exact joint_values serde each p given
  | patch p => exact patch_values each p

theorem resume_stands (s : Runtime) {k : ValuesCall} (stands : k.Stands) (reply : Reply) :
    ∀ q ∈ (k.resume serde s reply).2.points, q.Stands := by
  intro q member
  cases k with
  | runsPut p =>
    rw [ValuesCall.resume, Turn.points_map] at member
    obtain ⟨p', point, rfl⟩ := List.mem_map.mp member
    exact stands.points p' point
  | setStatus => cases member
  | _ =>
    rw [ValuesCall.resume, Turn.points_map] at member
    obtain ⟨p', _, rfl⟩ := List.mem_map.mp member
    trivial

/-- The values of the threads in every run. -/
theorem reaches_values {s : Runtime} (first : s.threads.Each (HasValues reported)) {l : EventLoop Runtime ValuesCall}
    (reach : (valuesCalls serde).Reaches (Reporting reported) ⟨s, []⟩ l) : l.state.threads.Each (HasValues reported) := by
  have annotated : Coroutines.Annotated (fun s : Runtime => s.threads.Each (HasValues reported))
      (fun _ k => ValuesCall.Stands k) l := by
    refine reach.annotated ?_ ?_ ⟨first, fun k member => by cases member⟩
    · intro s k _ fresh
      cases k with
      | runsPut p =>
        cases p with
        | called call => exact Or.inl ⟨call, rfl⟩
        | _ => cases fresh
      | _ => trivial
    · intro s others k reply each stands apart given
      exact ⟨resume_values each stands given, resume_stands s stands reply, apart⟩
  exact annotated.state

/-- In every run the threads have no values yet or values that were reported, and a
search and a count by values do what they should where the threads fit the filters,
and nowhere else. -/
theorem values_filter_iff {s : Runtime} (first : s.threads.Each (HasValues reported)) {l : EventLoop Runtime ValuesCall}
    (reach : (valuesCalls serde).Reaches (Reporting reported) ⟨s, []⟩ l) {f : ThreadFilter} (given : f.values ≠ [])
    (ids : Option (List Uuid)) :
    l.state.threads.Each (HasValues reported) ∧
      (Selects f l.state.threads ids ↔
        ∀ thread ∈ l.state.threads.values, inIds ids thread = true → f.Fits thread) ∧
      (Counts f l.state.threads ↔ ∀ thread ∈ l.state.threads.values, f.Fits thread) :=
  ⟨reaches_values first reach, selects_iff given l.state.threads ids, counts_iff given l.state.threads⟩

end Runs

def createdThread : Put := .called ⟨⟨1⟩, none, .raise, none⟩

def reportedItems : PyDict := [("a", .int 1)]

def byItems : ThreadFilter := ⟨.none, [], reportedItems, none⟩

def afterMoves (moves : List (Coroutines.Move ValuesCall Reply)) : Option (EventLoop Runtime ValuesCall) :=
  (valuesCalls silentSerde).performAll ⟨default, []⟩ moves

/-- A thread is created. -/
def createMoves : List (Coroutines.Move ValuesCall Reply) := [.call (.put createdThread), .turn 0 plainReply, .turn 0 plainReply]

/-- A thread is created, and then a checkpoint of it is reported. -/
def reportMoves : List (Coroutines.Move ValuesCall Reply) :=
  createMoves ++ [.call (.setStatus ⟨1⟩ (some ⟨[], .dict reportedItems, []⟩) none), .turn 0 plainReply]

theorem reaches_afterMoves {moves : List (Coroutines.Move ValuesCall Reply)} {l : EventLoop Runtime ValuesCall}
    (performed : afterMoves moves = some l) :
    (valuesCalls silentSerde).Reaches (Reporting (fun _ => True)) ⟨default, []⟩ l :=
  (Coroutines.reaches_of_performAll performed).weaken (fun _ _ _ => trivial)

def reportedLoop : EventLoop Runtime ValuesCall := (afterMoves reportMoves).get rfl

def createdLoop : EventLoop Runtime ValuesCall := (afterMoves createMoves).get rfl

theorem reportedLoop_fits : ∀ thread ∈ reportedLoop.state.threads.values, byItems.Fits thread := by
  intro thread member
  rw [List.mem_singleton.mp member]
  exact ⟨⟨true, rfl⟩, fun _ => trivial⟩

theorem values_filter_reported :
    Selects byItems reportedLoop.state.threads none ∧ Counts byItems reportedLoop.state.threads := by
  have performed : afterMoves reportMoves = some reportedLoop := rfl
  have given : byItems.values ≠ [] := List.cons_ne_nil _ _
  obtain ⟨_, selects, counts⟩ :=
    values_filter_iff (fun thread member => by cases member) (reaches_afterMoves performed) given none
  exact ⟨selects.mpr (fun thread member _ => reportedLoop_fits thread member), counts.mpr reportedLoop_fits⟩

/-- A thread that no checkpoint was reported of makes both raise. -/
theorem values_filter_raises :
    ¬ ∀ (serde : Serde) (s : Runtime) (l : EventLoop Runtime ValuesCall), s.threads.values = [] →
      (valuesCalls serde).Reaches Coroutines.unrestricted ⟨s, []⟩ l →
      ∀ (f : ThreadFilter) (ids : Option (List Uuid)), f.values ≠ [] →
        Selects f l.state.threads ids ∧ Counts f l.state.threads := by
  intro allRight
  have performed : afterMoves createMoves = some createdLoop := rfl
  have reach := Coroutines.reaches_of_performAll performed
  obtain ⟨selects, _⟩ := allRight silentSerde default createdLoop rfl reach byItems none (List.cons_ne_nil _ _)
  have raises : (selectThreads byItems none createdLoop.state.threads createdLoop.state.threads.rows).2 =
      .error .typeError := rfl
  rw [Selects, raises] at selects
  cases selects

end Threads

end InmemRuntime
