import InmemRuntime.BusyThreads
import InmemRuntime.Lib.EventLoop
import InmemRuntime.TrueIds

namespace InmemRuntime

/-- The first thread of an id stays the first. -/
def FirstsStay (s s' : Runtime) : Prop :=
  ∀ t, IsFirst s t → IsFirst s' t ∧ (s'.threads.get t).threadId = (s.threads.get t).threadId

section Insert

variable {s s' s'' : Runtime}

theorem KeepsBusy.firstsStay (keeps : KeepsBusy s s') : FirstsStay s s' :=
  fun t first => ⟨(keeps.isFirst first.listed).mpr first, keeps.ids t first.listed⟩

theorem FirstsStay.trans (one : FirstsStay s s') (two : FirstsStay s' s'') : FirstsStay s s'' := by
  intro t first
  obtain ⟨first', own⟩ := one t first
  obtain ⟨first'', own'⟩ := two t first'
  exact ⟨first'', own'.trans own⟩

theorem FirstsStay.of_threads (same : s'.threads = s.threads) : FirstsStay s s' := by
  intro t first
  rw [IsFirst, same]
  exact ⟨first, rfl⟩

/-- A search of the list with a new thread at its end. -/
theorem find?_append (threads : Table Thread) (thread : Thread) (p : Thread → Bool) :
    (threads.append thread).find? p = (threads.find? p).or (if p thread then some threads.size else none) := by
  have old : threads.rows.find? (fun r => p ((threads.append thread).get r)) = threads.find? p :=
    List.find?_congr (fun r member => by rw [Table.append_get_old (Table.holds_of_mem member)])
  rw [Table.find?, Table.append_rows, List.find?_append, old, List.find?_singleton, Table.append_get_new]

theorem firstsStay_append {thread : Thread} (appended : s'.threads = s.threads.append thread) : FirstsStay s s' := by
  intro t first
  have get : s'.threads.get t = s.threads.get t := by
    rw [appended, Table.append_get_old (Table.holds_of_mem first.listed)]
  refine ⟨?_, by rw [get]⟩
  rw [IsFirst, get, appended, find?_append, first]
  rfl

/-- A thread of a new id, or a busy one, is appended. -/
theorem ThreadsBusy.appendThread {thread : Thread} (before : ThreadsBusy s)
    (appended : s'.threads = s.threads.append thread) (runs : s'.runs = s.runs)
    (new : s.threads.find? (Threads.byId thread.threadId) = none ∨ thread.status = .busy) : ThreadsBusy s' := by
  have old : ∀ t ∈ s.threads.rows, s'.threads.get t = s.threads.get t := fun t member => by
    rw [appended, Table.append_get_old (Table.holds_of_mem member)]
  have last : s'.threads.get s.threads.size = thread := by
    rw [appended, Table.append_get_new]
  have rows : ∀ t, t ∈ s'.threads.rows ↔ t ∈ s.threads.rows ∨ t = s.threads.size := by
    intro t
    rw [appended, Table.append_rows, List.mem_append, List.mem_singleton]
  constructor
  · intro t member
    rcases (rows t).mp member with listed | rfl
    · rw [old t listed]
      exact (before.spare t listed).imp_left (fun first => (firstsStay_append appended t first).1)
    · rw [last]
      refine new.imp_left (fun free => ?_)
      have own : Threads.byId thread.threadId thread = true := decide_eq_true rfl
      rw [IsFirst, last, appended, find?_append, free, own]
      rfl
  · intro r member
    rw [runs] at member ⊢
    obtain ⟨t, listed, own⟩ := before.housed r member
    exact ⟨t, (rows t).mpr (.inl listed), by rw [old t listed, own]⟩
  · intro r member active t listed own
    rw [runs] at member active own
    rcases (rows t).mp listed with here | rfl
    · rw [old t here] at own ⊢
      exact before.busy r member active t here own
    · rw [last] at own ⊢
      refine new.resolve_left (fun free => ?_)
      obtain ⟨t, here, same⟩ := before.housed r member
      have absent := Table.find?_eq_none.mp free _ (Table.mem_values.mpr ⟨t, here, rfl⟩)
      rw [Threads.byId, decide_eq_false_iff_not] at absent
      exact absent (same.trans own.symm)

/-- A run is appended whose thread is there, and busy if the run is active. -/
theorem ThreadsBusy.appendRun {run : Run} (before : ThreadsBusy s) (threads : s'.threads = s.threads)
    (appended : s'.runs = s.runs.append run)
    (housed : ∃ t ∈ s.threads.rows, (s.threads.get t).threadId = run.threadId)
    (busy : run.isActive = true → ∀ t ∈ s.threads.rows, (s.threads.get t).threadId = run.threadId →
      (s.threads.get t).status = .busy) : ThreadsBusy s' := by
  have old : ∀ r ∈ s.runs.rows, s'.runs.get r = s.runs.get r := fun r member => by
    rw [appended, Table.append_get_old (Table.holds_of_mem member)]
  have last : s'.runs.get s.runs.size = run := by
    rw [appended, Table.append_get_new]
  have rows : ∀ r, r ∈ s'.runs.rows ↔ r ∈ s.runs.rows ∨ r = s.runs.size := by
    intro r
    rw [appended, Table.append_rows, List.mem_append, List.mem_singleton]
  constructor
  · intro t member
    rw [threads] at member ⊢
    exact (before.spare t member).imp_left (fun first => (FirstsStay.of_threads threads t first).1)
  · intro r member
    rw [threads]
    rcases (rows r).mp member with listed | rfl
    · rw [old r listed]
      exact before.housed r listed
    · rw [last]
      exact housed
  · intro r member active t listed own
    rw [threads] at listed own ⊢
    rcases (rows r).mp member with here | rfl
    · rw [old r here] at active own
      exact before.busy r here active t listed own
    · rw [last] at active own
      exact busy active t listed own

end Insert

/-- The run of a call that made its thread becomes active at once only if every
other thread of that id is busy. -/
def CreatesOnBusy (s : Runtime) (p : Runs.Put) (reply : Reply) : Prop :=
  ∀ call assistant thread value, p = .creatingThread call assistant thread → reply.answer = .ok value →
    call.status = some .pending ∨ call.status = some .running → ∀ t ∈ s.threads.rows,
      (s.threads.get t).threadId = thread.threadId → (s.threads.get t).status = .busy

/-- Where a call of `Runs.put` can wait. -/
structure PutStands (s : Runtime) (p : Runs.Put) : Prop where
  stands : p.Stands
  held : ∀ call assistant r filters, p = .authorizingAssistant call assistant (some r) filters → IsFirst s r

section Puts

variable {s : Runtime} {reply : Reply}

theorem threadsPut_busy (before : ThreadsBusy s) (p : Threads.Put) :
    ThreadsBusy (Threads.Put.resume s p reply).1 ∧ FirstsStay s (Threads.Put.resume s p reply).1 := by
  have effect := Threads.Put.effect s p reply
  generalize Threads.Put.resume s p reply = out at effect ⊢
  cases effect with
  | suspended | unchanged => exact ⟨before, .of_threads rfl⟩
  | created ttls free own => exact ⟨before.appendThread rfl rfl (.inl (own ▸ free)), firstsStay_append rfl⟩

theorem isFirst_of_existingThread {call : Runs.PutCall} {r : Nat} (found : Runs.existingThread s call = some r) :
    IsFirst s r := by
  obtain ⟨threadId, _, found⟩ := Option.bind_eq_some_iff.mp found
  exact (isFirst_of_find? found).1

/-- A thread that gets a run is the first one of its id. -/
theorem PutStands.isFirst {p : Runs.Put} (stands : PutStands s p) {r : Nat} (extends_ : p.Extends s reply r) :
    IsFirst s r := by
  cases extends_ with
  | found _ _ found _ => exact isFirst_of_existingThread found
  | held _ _ _ => exact stands.held _ _ _ _ rfl

theorem PutStands.creates_busy {p : Runs.Put} (stands : PutStands s p) {call : Runs.PutCall} {assistant : Assistant}
    {thread : Thread} (waits : p = .creatingThread call assistant thread) : thread.status = .busy := by
  rcases stands.stands with ⟨call, rfl⟩ | ⟨call, assistant, at_p⟩
  · cases waits
  · subst waits
    cases at_p
    rfl

/-- All threads of the id of a thread that was just set to busy are busy. -/
theorem ThreadsBusy.all_busy (before : ThreadsBusy s) {r : Nat} (first : IsFirst s r)
    (busy : (s.threads.get r).status = .busy) {t : Nat} (listed : t ∈ s.threads.rows)
    (same : (s.threads.get t).threadId = (s.threads.get r).threadId) : (s.threads.get t).status = .busy := by
  rcases before.spare t listed with foremost | spare
  · rw [first.unique foremost same, busy]
  · exact spare

/-- The end of `Runs.put`, on a state with the run list that it began with. -/
theorem inserted_busy {origin s' : Runtime} {call : Runs.PutCall} {threadId : Uuid} {runs : Table Run}
    (inserted : Runs.Put.Inserted origin call threadId reply runs) (before : ThreadsBusy s) (same : s.runs = origin.runs)
    (threads : s'.threads = s.threads) (runTable : s'.runs = runs)
    (housed : ∃ t ∈ s.threads.rows, (s.threads.get t).threadId = threadId)
    (busy : call.status = some .pending ∨ call.status = some .running → ∀ t ∈ s.threads.rows,
      (s.threads.get t).threadId = threadId → (s.threads.get t).status = .busy) : ThreadsBusy s' := by
  cases inserted with
  | none =>
    have keeps : KeepsBusy s s' := by
      refine .of_fewer ?_ (fun t => ?_) (fun t => ?_) (fun r member => ?_) (fun r => ?_)
      · rw [threads]
      · rw [threads]
      · rw [threads]
      · rwa [runTable, ← same] at member
      · rw [runTable, same]
    exact keeps.busy before
  | appended =>
    refine before.appendRun threads (same ▸ runTable) housed (fun active => busy ?_)
    simp only [Run.isActive, Run.isPending, Run.isRunning, Bool.or_eq_true, decide_eq_true_eq] at active
    exact active

theorem runsPut_busy (before : ThreadsBusy s) {p : Runs.Put} (stands : PutStands s p) (creates : CreatesOnBusy s p reply) :
    ThreadsBusy (Runs.Put.resume s p reply).1 ∧ FirstsStay s (Runs.Put.resume s p reply).1 := by
  have effect := Runs.Put.effect s p reply
  generalize Runs.Put.resume s p reply = out at effect ⊢
  cases effect with
  | unchanged | suspended => exact ⟨before, .of_threads rfl⟩
  | @extended r assistant runs outcome extends_ inserted =>
    have first := stands.isFirst extends_
    have marked : (Runs.markBusy p.call assistant reply.now (s.threads.get r)).status = .busy := by
      unfold Runs.markBusy
      split
      · assumption
      · rfl
    have keeps : KeepsBusy s { s with threads := s.threads.update r (Runs.markBusy p.call assistant reply.now) } :=
      reported_keepsBusy (Runs.markBusy_threadId p.call assistant reply.now) (.inl marked)
    have busy := keeps.busy before
    have own := (keeps.firstsStay r first).2
    have foremost := (keeps.firstsStay r first).1
    have all := fun t => @ThreadsBusy.all_busy _ busy r foremost (by rw [Table.update_get_self, marked]) t
    exact ⟨inserted_busy inserted busy rfl rfl rfl ⟨r, foremost.listed, own⟩
      (fun _ t listed same => all t listed (same.trans own.symm)), keeps.firstsStay.trans (.of_threads rfl)⟩
  | @created call assistant thread value runs outcome waits answer inserted =>
    subst waits
    have made := stands.creates_busy rfl
    have busy : ThreadsBusy { s with threads := s.threads.append thread } :=
      before.appendThread rfl rfl (.inr made)
    refine ⟨inserted_busy inserted busy rfl rfl rfl ?_ (fun active t listed same => ?_), firstsStay_append rfl⟩
    · exact ⟨s.threads.size, by simp, by rw [Table.append_get_new]⟩
    · rcases List.mem_append.mp listed with old | new
      · rw [Table.append_get_old (Table.holds_of_mem old)] at same ⊢
        exact creates call assistant thread value rfl answer active t old same
      · rw [List.mem_singleton.mp new, Table.append_get_new, made]

/-- The middle part of `Runs.put` asks no handler. -/
theorem place_authorizes_not (call : Runs.PutCall) (assistant : Assistant) (existing : Option Nat) (filters : PyVal) :
    ∀ q ∈ (Runs.Put.place s call assistant existing filters reply).2.points, ∀ call' assistant' existing' filters',
      q ≠ .authorizingAssistant call' assistant' existing' filters' := by
  cases existing with
  | none =>
    rw [Runs.Put.place]
    split
    · intro q member _ _ _ _ same
      cases (List.mem_singleton.mp member).symm.trans same
    · intro q member
      cases member
  | some r =>
    rw [Runs.Put.place]
    refine attempt_cases (fun e _ q member => by cases member) (fun allowed _ => ?_)
    split
    · intro q member
      cases member
    · obtain ⟨runs, outcome, _, final⟩ := Runs.Put.inserted
        { s with threads := s.threads.update r (Runs.markBusy call assistant reply.now) } call assistant (some r)
        (s.threads.get r).threadId reply
      rw [final]
      intro q member
      cases member

/-- The thread that a call goes on with after the handler of the assistant is the one it found before. -/
theorem put_authorizes (p : Runs.Put) : ∀ q ∈ (Runs.Put.resume s p reply).2.points, ∀ call assistant existing filters,
    q = .authorizingAssistant call assistant existing filters → existing = Runs.existingThread s call := by
  cases p with
  | called call =>
    rw [Runs.Put.resume]
    split
    · intro q member
      cases member
    · intro q member _ _ _ _ same
      cases (List.mem_singleton.mp member).symm.trans same
  | authorizing call assistant =>
    rw [Runs.Put.resume]
    refine attempt_cases (fun e _ q member => by cases member) (fun filters _ => ?_)
    split
    · exact fun q member _ _ _ _ same => absurd same (place_authorizes_not _ _ _ _ q member _ _ _ _)
    · intro q member _ _ _ _ same
      cases (List.mem_singleton.mp member).symm.trans same
      rfl
  | authorizingAssistant call assistant existing filters =>
    rw [Runs.Put.resume]
    refine attempt_cases (fun e _ q member => by cases member) (fun assistantFilters _ => ?_)
    refine attempt_cases (fun e _ q member => by cases member) (fun allowed _ => ?_)
    split
    · intro q member
      cases member
    · exact fun q member _ _ _ _ same => absurd same (place_authorizes_not _ _ _ _ q member _ _ _ _)
  | creatingThread call assistant thread =>
    rw [Runs.Put.resume]
    refine attempt_cases (fun e _ q member => by cases member) (fun value _ => ?_)
    obtain ⟨runs, outcome, _, final⟩ := Runs.Put.inserted
      { s with threads := s.threads.append thread } call assistant none thread.threadId reply
    rw [final]
    intro q member
    cases member

/-- Where a turn of `Runs.put` leaves its call. -/
theorem PutStands.points {p : Runs.Put} (stands : PutStands s p) :
    ∀ q ∈ (Runs.Put.resume s p reply).2.points, PutStands (Runs.Put.resume s p reply).1 q := by
  intro q member
  refine ⟨stands.stands.points q member, fun call assistant r filters waits => ?_⟩
  have first := isFirst_of_existingThread (put_authorizes p q member call assistant (some r) filters waits).symm
  have effect := Runs.Put.effect s p reply
  generalize Runs.Put.resume s p reply = out at effect member ⊢
  cases effect with
  | suspended => exact first
  | _ => cases member

/-- What the others do leaves a waiting call of `Runs.put` where it stands. -/
theorem PutStands.stay {s' : Runtime} {p : Runs.Put} (stands : PutStands s p) (stay : FirstsStay s s') : PutStands s' p :=
  ⟨stands.stands, fun call assistant r filters waits => (stay r (stands.held call assistant r filters waits)).1⟩

theorem JointStands.stay {s' : Runtime} {p : Threads.Joint} (stands : JointStands s p) (stay : FirstsStay s s') :
    JointStands s' p := by
  cases p with
  | called call => trivial
  | rollingBack call t now deletion =>
    obtain ⟨first, own⟩ := stands
    obtain ⟨first', same⟩ := stay t first
    exact ⟨first', same.trans own⟩

theorem afterDelete_stands {call : Threads.JointCall} {t : Nat} {now : Time} {turn : Runs.DeleteTurn}
    (keeps : KeepsBusy s turn.1) (first : IsFirst s t) (own : (s.threads.get t).threadId = call.threadId) :
    ∀ q ∈ (Threads.Joint.afterDelete call t now turn).2.points,
      JointStands (Threads.Joint.afterDelete call t now turn).1 q := by
  unfold Threads.Joint.afterDelete
  split
  · intro q member
    cases List.mem_singleton.mp member
    obtain ⟨first', same⟩ := keeps.firstsStay t first
    exact ⟨first', same.trans own⟩
  · intro q member
    cases member
  · intro q member
    cases member

theorem JointStands.points (serde : Serde) {p : Threads.Joint} (stands : JointStands s p) :
    ∀ q ∈ (Threads.Joint.resume serde s p reply).2.points, JointStands (Threads.Joint.resume serde s p reply).1 q := by
  cases p with
  | rollingBack call t now deletion => exact afterDelete_stands (delete_keepsBusy serde s deletion reply) stands.1 stands.2
  | called call =>
    rw [Threads.Joint.resume]
    cases found : s.threads.find? (Threads.byId call.threadId) with
    | none =>
      intro q member
      cases member
    | some t =>
      obtain ⟨first, own⟩ := isFirst_of_find? found
      dsimp only
      cases s.runs.find? (Runs.byIds call.runId call.threadId) with
      | none =>
        intro q member
        cases member
      | some r =>
        dsimp only
        cases call.runStatus with
        | rollback => exact afterDelete_stands (delete_keepsBusy serde s _ reply) first own
        | status status =>
          intro q member
          cases member

end Puts

/-- The operations that write the status of a thread or of a run on it. -/
inductive StatusCall where
  | threadsPut (p : Threads.Put)
  | runsPut (p : Runs.Put)
  | next (p : Runs.Next)
  | cancel (p : Runs.Cancel)
  | runsDelete (p : Runs.Delete)
  | setStatus (threadId : Uuid) (checkpoint : Option CheckpointPayload) (exception : Option PyException)
  | joint (p : Threads.Joint)

inductive StatusResult where
  | threads (outcome : Except PyError (List Thread))
  | runs (outcome : Except PyError (List Run))
  | handedOut (outcome : Except PyError (List Runs.HandOut))
  | deleted (outcome : Except PyError (List Uuid))
  | done (outcome : Except PyError Unit)

def statusCalls (serde : Serde) : Coroutines Runtime StatusCall Reply StatusResult where
  fresh
    | .threadsPut (.called _) | .runsPut (.called _) | .next (.called _) | .cancel (.called _)
    | .runsDelete (.called _ _) | .setStatus _ _ _ | .joint (.called _) => true
    | _ => false
  resume s
    | .threadsPut p, reply =>
      ((Threads.Put.resume s p reply).1, (Threads.Put.resume s p reply).2.map .threadsPut .threads)
    | .runsPut p, reply => ((Runs.Put.resume s p reply).1, (Runs.Put.resume s p reply).2.map .runsPut .runs)
    | .next p, reply => ((Runs.Next.resume s p reply).1, (Runs.Next.resume s p reply).2.map .next .handedOut)
    | .cancel p, reply =>
      ((Runs.Cancel.resume serde s p reply).1, (Runs.Cancel.resume serde s p reply).2.map .cancel .done)
    | .runsDelete p, reply =>
      ((Runs.Delete.resume serde s p reply).1, (Runs.Delete.resume serde s p reply).2.map .runsDelete .deleted)
    | .setStatus threadId checkpoint exception, reply =>
      ((Threads.setStatus s threadId checkpoint exception reply.now).1,
        .finished (.done (Threads.setStatus s threadId checkpoint exception reply.now).2))
    | .joint p, reply =>
      ((Threads.Joint.resume serde s p reply).1, (Threads.Joint.resume serde s p reply).2.map .joint .done)

/-- A turn of `cancel` that interrupts a pending run leaves no active run on its
thread, and no run becomes active beside an idle thread of its id. -/
def SparesBusy (s : Runtime) (_ : List StatusCall) (k : StatusCall) (reply : Reply) : Prop :=
  match k with
  | .cancel p => InterruptsAll s p reply
  | .runsPut p => CreatesOnBusy s p reply
  | _ => True

instance (s : Runtime) (p : Runs.Put) (reply : Reply) : Decidable (CreatesOnBusy s p reply) :=
  match p with
  | .creatingThread call _ thread =>
    decidable_of_iff (reply.answer.toOption.isSome = true → call.status = some .pending ∨ call.status = some .running →
        ∀ t ∈ s.threads.rows, (s.threads.get t).threadId = thread.threadId → (s.threads.get t).status = .busy)
      (by
        constructor
        · rintro busy _ _ _ value ⟨⟩ answered
          exact busy (by rw [answered]; rfl)
        · intro busy answered
          cases answer : reply.answer with
          | error e => simp [answer, Except.toOption] at answered
          | ok value => exact busy _ _ _ value rfl answer)
  | .called _ | .authorizing _ _ | .authorizingAssistant _ _ _ _ => isTrue (by rintro _ _ _ _ ⟨⟩)

instance (s : Runtime) (others : List StatusCall) (k : StatusCall) (reply : Reply) :
    Decidable (SparesBusy s others k reply) :=
  match k with
  | .cancel p => inferInstanceAs (Decidable (∀ r ∈ p.marked s reply, (s.runs.get r).isPending = true →
      ∀ i ∈ s.runs.rows, (s.runs.get i).threadId = (s.runs.get r).threadId → (s.runs.get i).isActive = true →
        i ∈ p.marked s reply))
  | .runsPut p => inferInstanceAs (Decidable (CreatesOnBusy s p reply))
  | .threadsPut _ | .next _ | .runsDelete _ | .setStatus _ _ _ | .joint _ => isTrue trivial

/-- Where the calls can wait. -/
def StatusCall.Stands (s : Runtime) : StatusCall → Prop
  | .runsPut p => PutStands s p
  | .joint p => JointStands s p
  | _ => True

section Runs

variable {serde : Serde} {s s' : Runtime} {k : StatusCall} {others : List StatusCall} {reply : Reply}

theorem StatusCall.Stands.stay (stands : k.Stands s) (stay : FirstsStay s s') : k.Stands s' := by
  cases k with
  | runsPut p => exact PutStands.stay stands stay
  | joint p => exact JointStands.stay stands stay
  | _ => trivial

theorem StatusCall.stands_of_fresh (fresh : (statusCalls serde).fresh k = true) : k.Stands s := by
  cases k with
  | runsPut p =>
    cases p with
    | called call => exact ⟨.inl ⟨call, rfl⟩, fun _ _ _ _ waits => by cases waits⟩
    | _ => cases fresh
  | joint p =>
    cases p with
    | called call => trivial
    | rollingBack => cases fresh
  | _ => trivial

/-- What one turn preserves. -/
theorem threadsBusy_turn (before : ThreadsBusy s) (stands : k.Stands s) (spares : SparesBusy s others k reply) :
    ThreadsBusy ((statusCalls serde).resume s k reply).1 ∧ FirstsStay s ((statusCalls serde).resume s k reply).1 := by
  have kept : ∀ {s'}, KeepsBusy s s' → ThreadsBusy s' ∧ FirstsStay s s' :=
    fun keeps => ⟨keeps.busy before, keeps.firstsStay⟩
  cases k with
  | threadsPut p => exact threadsPut_busy before p
  | runsPut p => exact runsPut_busy before stands spares
  | next p => exact kept (next_keepsBusy s p reply)
  | cancel p => exact kept (cancel_keepsBusy serde s p reply spares)
  | runsDelete p => exact kept (delete_keepsBusy serde s p reply)
  | setStatus threadId checkpoint exception => exact kept (setStatus_keepsBusy s threadId checkpoint exception reply.now)
  | joint p => exact kept (joint_keepsBusy serde before stands)

theorem StatusCall.Stands.points (stands : k.Stands s) :
    ∀ q ∈ ((statusCalls serde).resume s k reply).2.points, q.Stands ((statusCalls serde).resume s k reply).1 := by
  intro q member
  cases k with
  | runsPut p =>
    rw [statusCalls, Turn.points_map] at member
    obtain ⟨q', left, rfl⟩ := List.mem_map.mp member
    exact PutStands.points stands q' left
  | joint p =>
    rw [statusCalls, Turn.points_map] at member
    obtain ⟨q', left, rfl⟩ := List.mem_map.mp member
    exact JointStands.points serde stands q' left
  | setStatus threadId checkpoint exception => cases member
  | threadsPut p | next p | cancel p | runsDelete p =>
    rw [statusCalls, Turn.points_map] at member
    obtain ⟨q', _, rfl⟩ := List.mem_map.mp member
    trivial

theorem threadsBusy_of_reaches {l : EventLoop Runtime StatusCall} (threads : s.threads.rows = [])
    (runs : s.runs.rows = []) (reach : (statusCalls serde).Reaches SparesBusy ⟨s, []⟩ l) : ThreadsBusy l.state := by
  have annotated : Coroutines.Annotated ThreadsBusy (fun s k => StatusCall.Stands s k) l := by
    refine reach.annotated (fun _ fresh => StatusCall.stands_of_fresh fresh) (fun before stands others spares => ?_)
      ⟨⟨?_, ?_, ?_⟩, fun k member => absurd member List.not_mem_nil⟩
    · obtain ⟨after, stay⟩ := threadsBusy_turn before stands spares
      exact ⟨after, stands.points, fun j member => (others j member).stay stay⟩
    · intro t member
      rw [threads] at member
      cases member
    · intro r member
      rw [runs] at member
      cases member
    · intro r member
      rw [runs] at member
      cases member
  exact annotated.state

/-- From a store without threads and runs on, a thread with a pending or running
run is busy, unless a turn interrupted a pending run beside another active one or
made a run active beside an idle thread of its id. -/
theorem active_threads_busy (serde : Serde) {s : Runtime} (threads : s.threads.values = []) (runs : s.runs.values = [])
    {l : EventLoop Runtime StatusCall} (reach : (statusCalls serde).Reaches SparesBusy ⟨s, []⟩ l) :
    ∀ run ∈ l.state.runs.values, run.isActive = true → ∀ thread ∈ l.state.threads.values,
      thread.threadId = run.threadId → thread.status = .busy := by
  have busy := threadsBusy_of_reaches (List.map_eq_nil_iff.mp threads) (List.map_eq_nil_iff.mp runs) reach
  intro run stored active thread listed own
  obtain ⟨r, member, rfl⟩ := Table.mem_values.mp stored
  obtain ⟨t, here, rfl⟩ := Table.mem_values.mp listed
  exact busy.busy r member active t here own

end Runs

section Idle

def blankSerde : Serde := ⟨fun _ => default, fun _ => []⟩

def oneAssistant : Runtime := { (default : Runtime) with assistants := [⟨⟨7⟩, "agent", [], [], []⟩] }

/-- A pending run on thread 1, which is created if it is missing. -/
def pendingRun (runId : Uuid) : Runs.PutCall :=
  { assistantId := ⟨7⟩, kwargs := [], threadId := some ⟨1⟩, userId := none, runId := some runId
    status := some .pending, metadata := none, preventInsertIfInflight := false
    multitaskStrategy := "enqueue", ifNotExists := .create, afterSeconds := 0, langsmithSessionName := none }

def interruptRun (runId : Uuid) : Runs.CancelCall :=
  { runIds := some [runId], action := .interrupt, threadId := some ⟨1⟩, status := none, assistantId := none }

/-- Two threads get a run each at once, and the only run of the first is interrupted. -/
def interruptOnlyRun : List (Coroutines.Move StatusCall Reply) :=
  [.call (.runsPut (.called (pendingRun ⟨2⟩))),
    .call (.runsPut (.called { pendingRun ⟨3⟩ with threadId := some ⟨4⟩ })), .turn 0 plainReply, .turn 1 plainReply,
    .turn 0 plainReply, .turn 1 plainReply, .turn 0 plainReply, .turn 1 plainReply, .turn 0 plainReply, .turn 0 plainReply,
    .call (.cancel (.called (interruptRun ⟨2⟩))), .turn 0 plainReply, .turn 0 plainReply, .turn 0 plainReply,
    .turn 0 plainReply, .turn 0 plainReply]

theorem interruptOnlyRun_performed :
    ((statusCalls blankSerde).performAllIf SparesBusy ⟨oneAssistant, []⟩ interruptOnlyRun).isSome = true := by
  decide +kernel

/-- The thread of the interrupted run is idle, the other one busy. -/
theorem active_threads_busy_other_thread :
    ∃ l : EventLoop Runtime StatusCall, l.waiting = [] ∧
      l.state.runs.values.map Run.status = [some .interrupted, some .pending] ∧
      l.state.threads.values.map Thread.status = [.idle, .busy] ∧
      ∀ run ∈ l.state.runs.values, run.isActive = true → ∀ thread ∈ l.state.threads.values,
        thread.threadId = run.threadId → thread.status = .busy := by
  have reach := Coroutines.Reaches.performAllIf .start (Option.some_get interruptOnlyRun_performed).symm
  exact ⟨_, by rfl, by rfl, by rfl, active_threads_busy blankSerde rfl rfl reach⟩

/-- Two runs are put on a new thread, and the first is interrupted. -/
def interruptOneOfTwo : List (Coroutines.Move StatusCall Reply) :=
  [.call (.runsPut (.called (pendingRun ⟨2⟩))), .turn 0 plainReply, .turn 0 plainReply, .turn 0 plainReply,
    .turn 0 plainReply, .call (.runsPut (.called (pendingRun ⟨3⟩))), .turn 0 plainReply, .turn 0 plainReply,
    .turn 0 plainReply, .call (.cancel (.called (interruptRun ⟨2⟩))), .turn 0 plainReply, .turn 0 plainReply,
    .turn 0 plainReply, .turn 0 plainReply, .turn 0 plainReply]

/-- `cancel` sets the thread of an interrupted pending run to idle without a look
at the other runs of the thread. -/
theorem active_threads_not_busy :
    ¬ ∀ (serde : Serde) (s : Runtime), s.threads.values = [] → s.runs.values = [] →
      ∀ l : EventLoop Runtime StatusCall, (statusCalls serde).Reaches Coroutines.unrestricted ⟨s, []⟩ l →
        l.waiting = [] → ∀ run ∈ l.state.runs.values, run.isActive = true → ∀ thread ∈ l.state.threads.values,
          thread.threadId = run.threadId → thread.status = .busy := by
  intro busy
  have performed : ((statusCalls blankSerde).performAll ⟨oneAssistant, []⟩ interruptOneOfTwo).isSome = true := rfl
  have idle := busy blankSerde oneAssistant rfl rfl _
    (Coroutines.reaches_of_performAll (Option.some_get performed).symm) rfl _
    (List.mem_of_getElem? (i := 1) rfl) rfl _ (List.mem_of_getElem? (i := 0) rfl) rfl
  cases idle

end Idle

end InmemRuntime
