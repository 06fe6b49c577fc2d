import InmemRuntime.BusyRuns
import InmemRuntime.NextOrder

namespace InmemRuntime

/-- A call that nobody has started, whatever status it writes. -/
def RunCall.isNew : RunCall → Bool
  | .next (.called _) _ | .runsPut (.called _) | .cancel (.called _) | .runsDelete (.called _ _)
  | .setStatus _ _ | .joint (.called _) | .threadsDelete (.called _) => true
  | _ => false

/-- The operations on runs, with every status that they can write. -/
def anyRunCalls (base : BaseSaver) (serde : Serde) : Coroutines RunHistory RunCall Reply RunResult :=
  { runCalls base serde with fresh := RunCall.isNew }

/-- The status that a report writes. -/
def RunCall.reported? : RunCall → Option RunStatus
  | .setStatus _ status => some status
  | .joint p =>
    match p.call.runStatus with
    | .status status => some status
    | .rollback => none
  | _ => none

/-- Only a run that has not ended is reported to be `pending` or `running`. -/
def NoRevival (h : RunHistory) (_ : List RunCall) (k : RunCall) (reply : Reply) : Prop :=
  k.reported? = some .pending ∨ k.reported? = some .running →
    ∀ r, k.Writes h.runtime reply r → (h.runtime.runs.get r).isActive = true

/-- What an operation other than `Runs.next` leaves of the records. -/
structure KeepsRecords (written : Nat → Prop) (s s' : Runtime) : Prop where
  size : s.runs.size ≤ s'.runs.size
  threadId : ∀ r, s.runs.Holds r → (s'.runs.get r).threadId = (s.runs.get r).threadId
  unwritten : ∀ r, s.runs.Holds r → ¬ written r → (s'.runs.get r).status = (s.runs.get r).status

section Kept

variable {written removed : Nat → Prop} {s s' : Runtime} {reply : Reply}

theorem RunsStep.keepsRecords (step : RunsStep written removed s s') : KeepsRecords written s s' :=
  ⟨step.size, step.threadId, step.unwritten⟩

theorem keepsRecords_of_same (runs : s'.runs = s.runs) : KeepsRecords written s s' where
  size := by rw [runs]
  threadId _ _ := by rw [runs]
  unwritten _ _ _ := by rw [runs]

theorem keepsRecords_of_status {r : Nat} {status : RunStatus} {now : Time} (isWritten : written r)
    (runs : s'.runs = s.runs.update r (Runs.withStatus status now)) : KeepsRecords written s s' where
  size := by
    rw [runs]
    exact le_rfl
  threadId i _ := by
    rw [runs, Table.update_get]
    split <;> rfl
  unwritten i _ other := by
    have apart : i ≠ r := by
      rintro rfl
      exact other isWritten
    rw [runs, Table.update_get_of_ne _ apart]

theorem keepsRecords_put (p : Runs.Put) : KeepsRecords written s (Runs.Put.resume s p reply).1 := by
  have inserted {s' : Runtime} {call : Runs.PutCall} {threadId : Uuid}
      (inserted : Runs.Put.Inserted s call threadId reply s'.runs) : KeepsRecords written s s' := by
    generalize runs : s'.runs = t at inserted
    cases inserted with
    | none => exact keepsRecords_of_same runs
    | appended =>
      refine ⟨?_, fun r held => ?_, fun r held _ => ?_⟩
      · rw [runs]
        exact Nat.le_succ _
      · rw [runs, Table.append_get_old held]
      · rw [runs, Table.append_get_old held]
  have effect := Runs.Put.effect s p reply
  generalize Runs.Put.resume s p reply = out at effect ⊢
  cases effect with
  | unchanged | suspended => exact keepsRecords_of_same rfl
  | extended _ runs => exact inserted runs
  | created at_point _ runs =>
    subst at_point
    exact inserted runs

theorem keepsRecords_setStatus (runId : Uuid) (status : RunStatus) (now : Time) :
    KeepsRecords (fun r => s.runs.find? (fun run => run.runId = some runId) = some r) s
      (Runs.setStatus s runId status now) := by
  rw [Runs.setStatus]
  cases found : s.runs.find? (fun run => run.runId = some runId) with
  | none => exact keepsRecords_of_same rfl
  | some r => exact keepsRecords_of_status rfl rfl

theorem keepsRecords_joint (serde : Serde) (p : Threads.Joint) :
    KeepsRecords (p.Writes s) s (Threads.Joint.resume serde s p reply).1 := by
  cases p with
  | rollingBack call thread now deletion =>
    exact (afterDelete_step (runsDelete_step serde s deletion reply)).keepsRecords
  | called call =>
    by_cases idle : call.runStatus ≠ .status .running
    · exact (joint_step serde s (p := .called call) reply idle).keepsRecords
    rw [not_not] at idle
    rw [Threads.Joint.resume]
    cases s.threads.find? (Threads.byId call.threadId) with
    | none => exact keepsRecords_of_same rfl
    | some thread =>
      dsimp only
      cases found : s.runs.find? (Runs.byIds call.runId call.threadId) with
      | none => exact keepsRecords_of_same rfl
      | some run =>
        dsimp only
        rw [idle]
        refine keepsRecords_of_status (r := run) ⟨?_, found⟩ rfl
        rw [idle]
        rintro ⟨⟩

/-- Only the records that a call writes get another status. -/
theorem RunCall.keepsRecords (base : BaseSaver) (serde : Serde) (s : Runtime) (reply : Reply) {k : RunCall}
    (other : k.operation ≠ .next) : KeepsRecords (k.Writes s reply) s (k.resume base serde s reply).1 := by
  cases k with
  | next => exact absurd rfl other
  | runsPut p => exact keepsRecords_put p
  | setStatus runId status => exact keepsRecords_setStatus runId status reply.now
  | joint p => exact keepsRecords_joint serde p
  | cancel p => exact (resume_step (k := .cancel p) trivial other).keepsRecords
  | runsDelete p => exact (resume_step (k := .runsDelete p) trivial other).keepsRecords
  | threadsDelete p => exact (resume_step (k := .threadsDelete p) trivial other).keepsRecords

end Kept

section Ended

variable {base : BaseSaver} {serde : Serde} {s : Runtime} {h : RunHistory} {k : RunCall} {reply : Reply}
  {others : List RunCall} {r : Nat}

theorem inactive_of_status {run run' : Run} (same : run'.status = run.status) (ended : run.isActive = false) :
    run'.isActive = false := by
  rwa [Run.isActive, Run.isPending, Run.isRunning, same]

theorem withStatus_inactive {status : RunStatus} (now : Time) (run : Run) (ends : status ≠ .pending ∧ status ≠ .running) : (Runs.withStatus status now run).isActive = false := by
  obtain ⟨pending, running⟩ := ends
  cases status <;> first | rfl | contradiction

/-- A report ends the run, or says `pending` or `running`. -/
theorem reported_inactive {status : RunStatus} {threads : Table Thread} (now : Time)
    (ends : status ≠ .pending ∧ status ≠ .running) :
    (({ s with runs := s.runs.update r (Runs.withStatus status now), threads := threads } : Runtime).runs.get r).isActive =
      false := by
  change ((s.runs.update r (Runs.withStatus status now)).get r).isActive = false
  rw [Table.update_get_self]
  exact withStatus_inactive now _ ends

/-- What a turn writes has ended, unless it was active. -/
theorem RunCall.resume_written (other : k.operation ≠ .next) (kept : NoRevival h others k reply)
    (written : k.Writes h.runtime reply r) (ended : (h.runtime.runs.get r).isActive = false) :
    ((k.resume base serde h.runtime reply).1.runs.get r).isActive = false := by
  have final {status : RunStatus} (said : k.reported? = some status) : status ≠ .pending ∧ status ≠ .running := by
    constructor
    · rintro rfl
      rw [kept (.inl said) r written] at ended
      cases ended
    · rintro rfl
      rw [kept (.inr said) r written] at ended
      cases ended
  cases k with
  | next => exact absurd rfl other
  | runsPut | runsDelete | threadsDelete => exact written.elim
  | cancel p =>
    have apart : ∀ deletion, p ≠ .deleting deletion := by
      rintro deletion rfl
      exact absurd written List.not_mem_nil
    exact (cancel_interrupts serde h.runtime p reply apart).marked r written
  | setStatus runId status =>
    change ((Runs.setStatus h.runtime runId status reply.now).runs.get r).isActive = false
    have found : h.runtime.runs.find? (fun run => run.runId = some runId) = some r := written
    rw [Runs.setStatus, found]
    exact reported_inactive reply.now (final rfl)
  | joint p =>
    cases p with
    | rollingBack => exact written.elim
    | called call =>
      obtain ⟨stays, found⟩ := written
      change ((Threads.Joint.resume serde h.runtime (.called call) reply).1.runs.get r).isActive = false
      rw [Threads.Joint.resume]
      cases h.runtime.threads.find? (Threads.byId call.threadId) with
      | none => exact ended
      | some thread =>
        dsimp only
        rw [found]
        dsimp only
        cases target : call.runStatus with
        | rollback => exact absurd target stays
        | status status =>
          have said : (RunCall.joint (.called call)).reported? = some status := by
            simp only [RunCall.reported?, Threads.Joint.call, target]
          exact reported_inactive reply.now (final said)

/-- A turn of a call other than `Runs.next` hands out nobody. -/
theorem resume_other (other : k.operation ≠ .next) :
    (anyRunCalls base serde).resume h k reply =
      (h.record (k.resume base serde h.runtime reply).1 [] k.reports, (k.resume base serde h.runtime reply).2) := by
  cases k with
  | next => exact absurd rfl other
  | _ => rfl

variable (base serde) in
/-- A run that has ended does not come back, and is not handed out. -/
theorem ended_step (kept : NoRevival h others k reply) (held : h.runtime.runs.Holds r)
    (ended : (h.runtime.runs.get r).isActive = false) :
    (((anyRunCalls base serde).resume h k reply).1.runtime.runs.get r).isActive = false ∧
      ∀ item ∈ k.handsOut h.runtime reply, item.ref ≠ r := by
  by_cases generator : k.operation = .next
  · cases k with
    | next p since =>
      have hands := Runs.Next.resume_hands h.runtime p reply
      change ((Runs.Next.resume h.runtime p reply).1.runs.get r).isActive = false ∧
        ∀ item ∈ Runs.handedOutBy (Runs.Next.resume h.runtime p reply).2, item.ref ≠ r
      generalize Runs.Next.resume h.runtime p reply = out at hands ⊢
      cases hands with
      | nobody runs _ nobody =>
        rw [runs, nobody]
        exact ⟨ended, fun item member => absurd member List.not_mem_nil⟩
      | @hands _ _ _ s' i _ _ _ free runs _ =>
        have apart : i ≠ r := by
          rintro rfl
          rw [Run.isActive, free.pending] at ended
          cases ended
        refine ⟨?_, fun item member => by rwa [List.mem_singleton.mp member]⟩
        change (s'.runs.get r).isActive = false
        rwa [runs, Table.update_get_of_ne _ (Ne.symm apart)]
    | _ => cases generator
  · have nobody : k.handsOut h.runtime reply = [] := by
      cases k with
      | next => exact absurd rfl generator
      | _ => rfl
    rw [nobody, resume_other generator]
    refine ⟨?_, fun item member => absurd member List.not_mem_nil⟩
    change ((k.resume base serde h.runtime reply).1.runs.get r).isActive = false
    by_cases written : k.Writes h.runtime reply r
    · exact RunCall.resume_written generator kept written ended
    · exact inactive_of_status ((RunCall.keepsRecords base serde h.runtime reply generator).unwritten r held written) ended

/-- `h'` comes after `h`, and nobody has been handed out since who has the record `r`. -/
structure EndedSince (h : RunHistory) (r : Nat) (h' : RunHistory) : Prop where
  held : h'.runtime.runs.Holds r
  ended : (h'.runtime.runs.get r).isActive = false
  apart : ∃ items, h'.handedOut = h.handedOut ++ items ∧ ∀ item ∈ items, item.ref ≠ r

variable (base serde h reply) in
/-- A turn of any call keeps the records, and whose they are. -/
theorem keepsRecords_turn (k : RunCall) :
    h.runtime.runs.size ≤ ((anyRunCalls base serde).resume h k reply).1.runtime.runs.size ∧
      ∀ r, h.runtime.runs.Holds r →
        (((anyRunCalls base serde).resume h k reply).1.runtime.runs.get r).threadId = (h.runtime.runs.get r).threadId := by
  by_cases generator : k.operation = .next
  · cases k with
    | next p since =>
      have marks := Runs.Next.resume_marks h.runtime p reply
      change h.runtime.runs.size ≤ (Runs.Next.resume h.runtime p reply).1.runs.size ∧
        ∀ r, _ → ((Runs.Next.resume h.runtime p reply).1.runs.get r).threadId = _
      generalize Runs.Next.resume h.runtime p reply = out at marks ⊢
      have step : RecordsStep h (h.record out.1 [] false) := by
        cases marks with
        | waits runs | ends runs => exact .of_marks (r := 0) (Or.inl runs) _ _
        | hands runs => exact .of_marks (Or.inr runs) _ _
      exact ⟨step.size, step.threadId⟩
    | _ => cases generator
  · rw [resume_other generator]
    have kept := RunCall.keepsRecords base serde h.runtime reply generator
    exact ⟨kept.size, kept.threadId⟩

/-- A run that has ended stays so and is not handed out again, in every
interleaving in which no report revives one. -/
theorem ended_runs_stay {l l' : EventLoop RunHistory RunCall}
    (later : (anyRunCalls base serde).Reaches NoRevival l l') (held : l.state.runtime.runs.Holds r)
    (ended : (l.state.runtime.runs.get r).isActive = false) :
    (l'.state.runtime.runs.get r).isActive = false ∧
      ∃ items, l'.state.handedOut = l.state.handedOut ++ items ∧ ∀ item ∈ items, item.ref ≠ r := by
  have annotated : EndedSince l.state r l'.state := by
    refine later.invariant (P := fun h _ => EndedSince l.state r h) (fun _ since => since) (fun since _ => since)
      (fun {h others k reply} since kept => ?_)
      ⟨held, ended, [], (List.append_nil _).symm, fun _ member => absurd member List.not_mem_nil⟩
    obtain ⟨stays, nobody⟩ := ended_step base serde kept since.held since.ended
    obtain ⟨items, handed, apart⟩ := since.apart
    refine ⟨Nat.lt_of_lt_of_le since.held (keepsRecords_turn base serde h reply k).1, stays, ?_⟩
    refine ⟨items ++ _, (congrArg (· ++ _) handed).trans (List.append_assoc ..), fun item member => ?_⟩
    rcases List.mem_append.mp member with old | new
    · exact apart item old
    · exact nobody item new
  exact ⟨annotated.ended, annotated.apart⟩

end Ended

/-- A run that has ended stays so while another one of its thread is handed out. -/
theorem ended_runs_stay_overtaken :
    ∃ (l : EventLoop RunHistory RunCall) (items : List Runs.HandOut), items ≠ [] ∧
      l.state.handedOut = runEnded.state.handedOut ++ items ∧ (l.state.runtime.runs.get 0).isActive = false ∧
      ∀ item ∈ items, item.ref ≠ 0 := by
  have handing : (anyRunCalls plainBase deltaSerde).Reaches NoRevival runEnded
      ((anyRunCalls plainBase deltaSerde).advance runEnded 0 (.next (.yielding ⟨[1, 2, 3], 2, 3⟩) 0) atTen) :=
    Coroutines.Reaches.start.turn 0 atTen rfl (fun said => by rcases said with said | said <;> cases said)
  have held : runEnded.state.runtime.runs.Holds 0 := Nat.zero_lt_succ 3
  obtain ⟨ended, items, handed, apart⟩ := ended_runs_stay handing held rfl
  refine ⟨_, items, ?_, handed, ended, apart⟩
  rintro rfl
  exact absurd (congrArg List.length handed) (by decide)

/-- No thread has two runs in the store that have not ended. -/
def OneInFlight (s : Runtime) : Prop :=
  ∀ r ∈ s.runs.rows, ∀ r' ∈ s.runs.rows, (s.runs.get r).isActive = true → (s.runs.get r').isActive = true →
    (s.runs.get r).threadId = (s.runs.get r').threadId → r = r'

instance (s : Runtime) : Decidable (OneInFlight s) :=
  inferInstanceAs (Decidable (∀ r ∈ s.runs.rows, ∀ r' ∈ s.runs.rows, _ → _ → _ → r = r'))

/-- Every run is put with `prevent_insert_if_inflight`, and none is revived. -/
def Refusing (h : RunHistory) (others : List RunCall) (k : RunCall) (reply : Reply) : Prop :=
  NoRevival h others k reply ∧ ∀ p, k = .runsPut p → p.call.preventInsertIfInflight = true

/-- A list that has no other run, or one more whose thread had none in flight. -/
inductive Admits (runs : Table Run) : Table Run → Prop
  | none : Admits runs runs
  | admitted {run : Run} : (∀ r ∈ runs.rows, (runs.get r).threadId = run.threadId → (runs.get r).isActive = false) →
      Admits runs (runs.append run)

section Refused

variable {base : BaseSaver} {serde : Serde} {s s' : Runtime} {h : RunHistory} {k : RunCall} {reply : Reply}
  {others : List RunCall} {r : Nat}

theorem insert_admits (call : Runs.PutCall) (assistant : Assistant) (existing : Option Nat) (threadId : Uuid) (now : Time)
    (refuses : call.preventInsertIfInflight = true) :
    Admits s.runs (Runs.Put.insert s call assistant existing threadId now).1.runs := by
  rw [Runs.Put.insert]
  dsimp only
  split
  · exact .none
  · rename_i free
    rw [not_and, not_not] at free
    have nobody := List.filter_eq_nil_iff.mp (free refuses)
    refine attempt_cases (fun _ _ => .none) (fun createdAt _ => .admitted (fun r member onThread => ?_))
    have idle := nobody _ (Table.mem_values.mpr ⟨r, member, rfl⟩)
    rw [Runs.inflight, Bool.and_eq_true, decide_eq_true_eq, not_and, Bool.not_eq_true] at idle
    exact idle onThread

theorem place_admits (call : Runs.PutCall) (assistant : Assistant) (existing : Option Nat) (filters : PyVal)
    (refuses : call.preventInsertIfInflight = true) :
    Admits s.runs (Runs.Put.place s call assistant existing filters reply).1.runs := by
  unfold Runs.Put.place
  cases existing with
  | none =>
    dsimp only
    split
    · exact .none
    · exact .none
  | some t =>
    refine attempt_cases (motive := fun out : Runs.PutTurn => Admits s.runs out.1.runs) (fun _ _ => .none) (fun allowed _ => ?_)
    split
    · exact .none
    · exact insert_admits (s := { s with threads := s.threads.update t (Runs.markBusy call assistant reply.now) }) call
        assistant (some t) _ reply.now refuses

theorem put_admits (p : Runs.Put) (refuses : p.call.preventInsertIfInflight = true) :
    Admits s.runs (Runs.Put.resume s p reply).1.runs := by
  cases p with
  | called call =>
    rw [Runs.Put.resume]
    cases Runs.assistantById s call.assistantId <;> exact .none
  | authorizing call assistant =>
    rw [Runs.Put.resume]
    refine attempt_cases (motive := fun out : Runs.PutTurn => Admits s.runs out.1.runs) (fun _ _ => .none) (fun filters _ => ?_)
    split
    · exact place_admits call assistant _ filters refuses
    · exact .none
  | authorizingAssistant call assistant existing filters =>
    rw [Runs.Put.resume]
    refine attempt_cases (motive := fun out : Runs.PutTurn => Admits s.runs out.1.runs) (fun _ _ => .none) (fun assistantFilters _ => ?_)
    refine attempt_cases (motive := fun out : Runs.PutTurn => Admits s.runs out.1.runs) (fun _ _ => .none) (fun allowed _ => ?_)
    split
    · exact .none
    · exact place_admits call assistant existing filters refuses
  | creatingThread call assistant thread =>
    rw [Runs.Put.resume]
    refine attempt_cases (motive := fun out : Runs.PutTurn => Admits s.runs out.1.runs) (fun _ _ => .none) (fun _ _ => ?_)
    exact insert_admits (s := { s with threads := s.threads.append thread }) call assistant none _ reply.now refuses

theorem afterDelete_rows {call : Threads.JointCall} {thread : Nat} {now : Time} {turn : Runs.DeleteTurn}
    (fewer : ∀ r ∈ turn.1.runs.rows, r ∈ s.runs.rows) :
    ∀ r ∈ (Threads.Joint.afterDelete call thread now turn).1.runs.rows, r ∈ s.runs.rows := by
  unfold Threads.Joint.afterDelete
  split
  · exact fewer
  · exact fewer
  · exact fewer

theorem joint_rows (serde : Serde) (p : Threads.Joint) :
    ∀ r ∈ (Threads.Joint.resume serde s p reply).1.runs.rows, r ∈ s.runs.rows := by
  have deletes (deletion : Runs.Delete) :
      ∀ r ∈ (Runs.Delete.resume serde s deletion reply).1.runs.rows, r ∈ s.runs.rows :=
    fun r member => ((delete_keepsBusy serde s deletion reply).runs r member).1
  cases p with
  | rollingBack call thread now deletion => exact afterDelete_rows (deletes deletion)
  | called call =>
    rw [Threads.Joint.resume]
    cases s.threads.find? (Threads.byId call.threadId) with
    | none => exact fun r member => member
    | some thread =>
      dsimp only
      cases s.runs.find? (Runs.byIds call.runId call.threadId) with
      | none => exact fun r member => member
      | some run =>
        dsimp only
        cases call.runStatus with
        | rollback => exact afterDelete_rows (deletes _)
        | status => exact fun r member => member

theorem threadsDelete_rows (base : BaseSaver) (p : Threads.Delete) :
    ∀ r ∈ (Threads.Delete.resume base s p reply).1.runs.rows, r ∈ s.runs.rows := by
  have effect := Threads.Delete.effect base s p reply
  generalize Threads.Delete.resume base s p reply = out at effect ⊢
  cases effect with
  | located | refused | failed => exact fun r member => member
  | cascaded => exact fun r member => List.mem_of_mem_filter member
  | resumed _ popped => cases popped <;> exact fun r member => member
  | deleted _ _ popped => cases popped <;> exact fun r member => List.mem_of_mem_filter member

variable (base serde) in
/-- A call that puts no run puts no record into the list. -/
theorem RunCall.resume_rows (other : k.operation ≠ .put) :
    ∀ r ∈ (k.resume base serde s reply).1.runs.rows, r ∈ s.runs.rows := by
  cases k with
  | runsPut => exact absurd rfl other
  | next p since =>
    change ∀ r ∈ (Runs.Next.resume s p reply).1.runs.rows, r ∈ s.runs.rows
    exact fun r member => ((next_keepsBusy s p reply).runs r member).1
  | cancel p =>
    change ∀ r ∈ (Runs.Cancel.resume serde s p reply).1.runs.rows, r ∈ s.runs.rows
    by_cases deletes : ∃ deletion, p = .deleting deletion
    · obtain ⟨deletion, rfl⟩ := deletes
      exact fun r member => ((delete_keepsBusy serde s deletion reply).runs r member).1
    · rw [(cancel_interrupts serde s p reply (fun deletion same => deletes ⟨deletion, same⟩)).runRows]
      exact fun r member => member
  | runsDelete p => exact fun r member => ((delete_keepsBusy serde s p reply).runs r member).1
  | setStatus runId status =>
    change ∀ r ∈ (Runs.setStatus s runId status reply.now).runs.rows, r ∈ s.runs.rows
    unfold Runs.setStatus
    split
    · exact fun r member => member
    · exact fun r member => member
  | joint p => exact joint_rows serde p
  | threadsDelete p => exact threadsDelete_rows base p

theorem OneInFlight.fewer (single : OneInFlight s) (rows : ∀ r ∈ s'.runs.rows, r ∈ s.runs.rows)
    (threadId : ∀ r ∈ s.runs.rows, (s'.runs.get r).threadId = (s.runs.get r).threadId)
    (active : ∀ r ∈ s'.runs.rows, (s'.runs.get r).isActive = true → (s.runs.get r).isActive = true) : OneInFlight s' := by
  intro r member r' member' here there same
  rw [threadId r (rows r member), threadId r' (rows r' member')] at same
  exact single r (rows r member) r' (rows r' member') (active r member here) (active r' member' there) same

theorem OneInFlight.admitted (single : OneInFlight s) (admits : Admits s.runs s'.runs) : OneInFlight s' := by
  rw [OneInFlight]
  generalize s'.runs = runs at admits
  cases admits with
  | none => exact single
  | @admitted run free =>
    have old {r : Nat} (member : r ∈ s.runs.rows) : (s.runs.append run).get r = s.runs.get r :=
      Table.append_get_old (Table.holds_of_mem member) run
    have alone {r : Nat} (member : r ∈ s.runs.rows) (active : ((s.runs.append run).get r).isActive = true) :
        ((s.runs.append run).get r).threadId ≠ run.threadId := by
      rw [old member] at active ⊢
      intro onThread
      rw [free r member onThread] at active
      cases active
    intro r member r' member' here there same
    rw [Table.append_rows, List.mem_append, List.mem_singleton] at member member'
    rcases member with listed | rfl
    · rcases member' with listed' | rfl
      · rw [old listed, old listed'] at same
        rw [old listed] at here
        rw [old listed'] at there
        exact single r listed r' listed' here there same
      · rw [Table.append_get_new] at same
        exact absurd same (alone listed here)
    · rcases member' with listed' | rfl
      · rw [Table.append_get_new] at same
        exact absurd same.symm (alone listed' there)
      · rfl

theorem oneInFlight_step (single : OneInFlight h.runtime) (refusing : Refusing h others k reply) :
    OneInFlight ((anyRunCalls base serde).resume h k reply).1.runtime := by
  have rows (other : k.operation ≠ .put) :
      ∀ r ∈ ((anyRunCalls base serde).resume h k reply).1.runtime.runs.rows, r ∈ h.runtime.runs.rows := by
    cases k with
    | runsPut => exact absurd rfl other
    | next p since => exact RunCall.resume_rows base serde (k := .next p (h.since p since)) other
    | _ => exact RunCall.resume_rows base serde other
  by_cases puts : k.operation = .put
  · cases k with
    | runsPut p => exact single.admitted (put_admits p (refusing.2 p rfl))
    | _ => cases puts
  · refine single.fewer (rows puts) (fun r member => ?_) (fun r member active => ?_)
    · exact (keepsRecords_turn base serde h reply k).2 r (Table.holds_of_mem member)
    · by_contra ended
      rw [Bool.not_eq_true] at ended
      have stays := (ended_step base serde refusing.1
        (Table.holds_of_mem (rows puts r member)) ended).1
      rw [stays] at active
      cases active

/-- Runs that are put with `prevent_insert_if_inflight` do not run into each other,
in every interleaving in which no report revives a run. -/
theorem one_run_in_flight (single : OneInFlight s) {l : EventLoop RunHistory RunCall}
    (reach : (anyRunCalls base serde).Reaches Refusing ⟨.load s, []⟩ l) : OneInFlight l.state.runtime :=
  reach.invariant (P := fun (h : RunHistory) (_ : List RunCall) => OneInFlight h.runtime) (fun _ held => held)
    (fun held _ => held) (fun held refusing => oneInFlight_step held refusing) single

end Refused

section Racing

def refusedRun (runId : Uuid) : Runs.PutCall := { pendingRun runId with preventInsertIfInflight := true }

/-- Of two runs that race for a new thread one is refused. -/
theorem one_run_in_flight_racing :
    ∃ l : EventLoop RunHistory RunCall, l.waiting = [] ∧ l.state.runtime.threads.values.length = 2 ∧
      l.state.runtime.runs.values.map Run.status = [some .pending] ∧ OneInFlight l.state.runtime := by
  have refusing {h : RunHistory} {others : List RunCall} {p : Runs.Put} {reply : Reply}
      (refuses : p.call.preventInsertIfInflight = true) : Refusing h others (.runsPut p) reply := by
    refine ⟨(fun said => by rcases said with said | said <;> cases said), fun q same => ?_⟩
    cases same
    exact refuses
  have asked : (anyRunCalls plainBase deltaSerde).Reaches Refusing ⟨.load oneAssistant, []⟩
      ⟨.load oneAssistant, [.runsPut (.called (refusedRun ⟨2⟩)), .runsPut (.called (refusedRun ⟨3⟩))]⟩ :=
    .call (.call .start rfl) rfl
  have first := (asked.turn 0 plainReply rfl (refusing rfl)).turn 0 plainReply rfl (refusing rfl)
  have waiting := first.turn 0 plainReply rfl (refusing rfl)
  have second := (waiting.turn 1 plainReply rfl (refusing rfl)).turn 1 plainReply rfl (refusing rfl)
  have both := second.turn 1 plainReply rfl (refusing rfl)
  have created := (both.turn 0 plainReply rfl (refusing rfl)).turn 0 plainReply rfl (refusing rfl)
  have single : OneInFlight oneAssistant := by decide
  exact ⟨_, rfl, rfl, rfl, one_run_in_flight single created⟩

end Racing

end InmemRuntime
