import InmemRuntime.ItemFailures
import InmemRuntime.ItemLeases
import InmemRuntime.Lib.Mutex
import InmemRuntime.Lib.Serial

namespace InmemRuntime

/-- The operations of the store under its operation lock. -/
inductive LockedOp where
  | abatch (ops : List StoreOp)
  | sweep

def LockedOp.call : LockedOp → ItemCall
  | .abatch ops => .abatch ops
  | .sweep => .sweeping

/-- All calls but `batch` take the operation lock. -/
def ItemCall.usesLock : ItemCall → Bool
  | .batch _ => false
  | _ => true

namespace DiskBackedInMemStore

section Atomic

variable (base : InMemoryStore) (estimate : PickleSize)

/-- What an operation under the lock is meant to do: at once what `batch` does, or a sweep. -/
def atomically (s : DiskBackedInMemStore) : LockedOp → StoreReply → DiskBackedInMemStore × Except PyError ItemOutcome
  | .abatch ops, reply =>
    ({ ({ s with operationLocked := true }.batch base estimate ops reply).1 with operationLocked := false },
      ({ s with operationLocked := true }.batch base estimate ops reply).2.map .results)
  | .sweep, reply => ((s.sweepTtl reply.readAt).1, .ok (.deleted (s.sweepTtl reply.readAt).2))

end Atomic

section Serialization

variable {base : InMemoryStore} {estimate : PickleSize} {s s' : DiskBackedInMemStore}
  {outcome : Except PyError ItemOutcome} {replies : List StoreReply}

theorem finishWrite_underLock (results : List ItemResult) (puts : Dict ItemKey PutOp) (reply : StoreReply) :
    (itemCalls base estimate).UnderLock (fun s => s.operationLocked) (finishWrite base estimate s results puts reply) := by
  unfold finishWrite
  split <;> exact .released rfl

theorem afterSearch_underLock (locked : s.operationLocked = true) (results : List ItemResult) (puts : Dict ItemKey PutOp)
    (reply : StoreReply) :
    (itemCalls base estimate).UnderLock (fun s => s.operationLocked) (afterSearch base estimate s results puts reply) := by
  unfold afterSearch
  split
  · exact finishWrite_underLock results puts reply
  · exact .kept locked rfl

theorem abatch_underLock (free : s.operationLocked = false) (ops : List StoreOp) (reply : StoreReply) :
    (itemCalls base estimate).UnderLock (fun s => s.operationLocked) (resume base estimate s (.abatch ops) reply) := by
  rw [resume, free, if_neg Bool.false_ne_true]
  cases prepare : { s with operationLocked := true }.prepareOps base ops reply.readAt with
  | mk s₁ outcome =>
    cases outcome with
    | error e => exact .released rfl
    | ok prepared =>
      have locked : s₁.operationLocked = true := (prepareOps_reads prepare).1.locked
      dsimp only
      split
      · exact afterSearch_underLock locked _ _ reply
      · exact .kept locked rfl

theorem embeddingQueries_underLock (locked : s.operationLocked = true) (prepared : Prepared) (reply : StoreReply) :
    (itemCalls base estimate).UnderLock (fun s => s.operationLocked)
      (resume base estimate s (.embeddingQueries prepared) reply) := by
  rw [resume]
  cases searched : s.search base prepared reply with
  | mk s₁ outcome =>
    cases outcome with
    | error e => exact .released rfl
    | ok results => exact afterSearch_underLock ((search_reads searched).1.locked.trans locked) _ _ reply

variable (base estimate) in
/-- `abatch` and `sweep_ttl` wait for the lock, and `abatch` keeps it while it awaits embeddings. -/
theorem itemCalls_mutex :
    (itemCalls base estimate).Mutex (fun s => s.operationLocked) (fun k => k.usesLock = true) where
  blocked {s k} reply new uses locked := by
    change resume base estimate s k reply = _
    cases k with
    | batch ops => cases uses
    | abatch ops => rw [resume, if_pos locked]
    | embeddingQueries prepared => cases new
    | embeddingTexts results puts => cases new
    | sweeping => rw [resume, if_pos locked]
  runs {s k} reply uses mine := by
    cases k with
    | batch ops => cases uses
    | abatch ops => exact abatch_underLock mine ops reply
    | embeddingQueries prepared => exact embeddingQueries_underLock mine prepared reply
    | embeddingTexts results puts => exact finishWrite_underLock results puts reply
    | sweeping =>
      have free : s.operationLocked = false := mine
      change (itemCalls base estimate).UnderLock _ (resume base estimate s .sweeping reply)
      rw [resume, free, if_neg Bool.false_ne_true]
      exact .released ((sweepTtl_sweeps s reply.readAt).1.locked.trans free)

/-- The replies of the turns of a batch make one reply. -/
theorem afterSearch_endsOn {results : List ItemResult} {puts : Dict ItemKey PutOp} {reply : StoreReply}
    (ends : Turn.EndsOn (resume base estimate) replies (afterSearch base estimate s results puts reply) s' outcome) :
    ∃ final : StoreReply, s' = { (s.write base estimate puts final).1 with operationLocked := false } ∧
      outcome = (s.write base estimate puts final).2.map (fun _ => .results results) := by
  unfold afterSearch at ends
  split at ends
  · rw [finishWrite_eq, release, Turn.endsOn_finished] at ends
    exact ⟨reply, ends⟩
  · cases ends with
    | @suspended final _ _ _ _ _ ends =>
      rw [resume, finishWrite_eq, release, Turn.endsOn_finished] at ends
      exact ⟨final, ends⟩

theorem batch_of_parts {ops : List StoreOp} {reply : StoreReply} {s₁ s₂ : DiskBackedInMemStore} {prepared : Prepared}
    {results : List ItemResult} (prepare : s.prepareOps base ops reply.readAt = (s₁, .ok prepared))
    (searched : s₁.search base prepared reply = (s₂, .ok results)) :
    s.batch base estimate ops reply = ((s₂.write base estimate prepared.putOps reply).1,
      (s₂.write base estimate prepared.putOps reply).2.map (fun _ => results)) := by
  rw [batch, prepare]
  dsimp only
  rw [searched]
  dsimp only
  generalize s₂.write base estimate prepared.putOps reply = written
  obtain ⟨after, wrote⟩ := written
  cases wrote <;> rfl

/-- Run alone, whatever it hears, `abatch` does at once what `batch` does. -/
theorem abatch_endsOn (free : s.operationLocked = false) {ops : List StoreOp}
    (ends : Turn.EndsOn (resume base estimate) replies (s, .suspended (.abatch ops)) s' outcome) :
    ∃ reply, (s', outcome) = s.atomically base estimate (.abatch ops) reply := by
  have same (written : Except PyError Unit) (results : List ItemResult) :
      (written.map (fun _ => results)).map ItemOutcome.results = written.map (fun _ => .results results) := by
    cases written <;> rfl
  cases ends with
  | @suspended first replies _ _ _ _ ends =>
    rw [resume, free, if_neg Bool.false_ne_true] at ends
    cases prepare : { s with operationLocked := true }.prepareOps base ops first.readAt with
    | mk s₁ prepared? =>
      rw [prepare] at ends
      cases prepared? with
      | error e =>
        dsimp only [release] at ends
        obtain ⟨rfl, rfl⟩ := Turn.endsOn_finished.mp ends
        refine ⟨first, ?_⟩
        rw [atomically, batch, prepare]
        rfl
      | ok prepared =>
        dsimp only at ends
        split at ends
        · rename_i noSearch
          obtain ⟨final, rfl, rfl⟩ := afterSearch_endsOn ends
          let whole : StoreReply := { final with readAt := first.readAt }
          have searched : s₁.search base prepared whole = (s₁, .ok prepared.results) := by rw [search, if_pos noSearch]
          have prepare' : { s with operationLocked := true }.prepareOps base ops whole.readAt = (s₁, .ok prepared) := prepare
          refine ⟨whole, ?_⟩
          rw [atomically, batch_of_parts prepare' searched, same]
          rfl
        · rename_i searches
          cases ends with
          | @suspended second _ _ _ _ _ ends =>
            rw [resume] at ends
            cases searched : s₁.search base prepared second with
            | mk s₂ results? =>
              rw [searched] at ends
              cases results? with
              | error e =>
                dsimp only [release] at ends
                obtain ⟨rfl, rfl⟩ := Turn.endsOn_finished.mp ends
                refine ⟨{ second with readAt := first.readAt }, ?_⟩
                have searched' : s₁.search base prepared { second with readAt := first.readAt } = (s₂, .error e) := searched
                rw [atomically, batch, prepare]
                dsimp only
                rw [searched']
                rfl
              | ok results =>
                obtain ⟨final, rfl, rfl⟩ := afterSearch_endsOn ends
                let whole : StoreReply :=
                  { final with readAt := first.readAt, searchedAt := second.searchedAt, queries := second.queries }
                have searched' : s₁.search base prepared whole = (s₂, .ok results) := searched
                have prepare' : { s with operationLocked := true }.prepareOps base ops whole.readAt = (s₁, .ok prepared) :=
                  prepare
                refine ⟨whole, ?_⟩
                rw [atomically, batch_of_parts prepare' searched', same]
                rfl

theorem atomically_unlocked (free : s.operationLocked = false) (op : LockedOp) (reply : StoreReply) :
    (s.atomically base estimate op reply).1.operationLocked = false := by
  cases op with
  | abatch ops => rfl
  | sweep => exact (sweepTtl_sweeps s reply.readAt).1.locked.trans free

/-- Every call that takes the lock does its operation at once, if it runs alone. -/
theorem lone_endsOn (free : s.operationLocked = false) {k : ItemCall} (new : k.isFresh = true) (uses : k.usesLock = true)
    (ends : Turn.EndsOn (resume base estimate) replies (s, .suspended k) s' outcome) :
    ∃ op reply, k = op.call ∧ (s', outcome) = s.atomically base estimate op reply := by
  cases k with
  | batch ops => cases uses
  | abatch ops =>
    obtain ⟨reply, same⟩ := abatch_endsOn free ends
    exact ⟨.abatch ops, reply, rfl, same⟩
  | embeddingQueries prepared => cases new
  | embeddingTexts results puts => cases new
  | sweeping =>
    cases ends with
    | @suspended reply _ _ _ _ _ ends =>
      rw [resume, free, if_neg Bool.false_ne_true] at ends
      obtain ⟨rfl, rfl⟩ := Turn.endsOn_finished.mp ends
      exact ⟨.sweep, reply, rfl, rfl⟩

variable (base estimate) in
/-- The operations at once, one after the other, each with an outcome that is accepted. -/
def OneByOne (accepted : Except PyError ItemOutcome → Prop) (first : DiskBackedInMemStore) : DiskBackedInMemStore → Prop :=
  Serial (fun s (call : LockedOp × StoreReply) => (s.atomically base estimate call.1 call.2).1)
    (fun s call => accepted (s.atomically base estimate call.1 call.2).2) first

theorem oneByOne_of_serially {accepted : Except PyError ItemOutcome → Prop} {first : DiskBackedInMemStore}
    (unlocked : first.operationLocked = false)
    (serially : (itemCalls base estimate).Serially (fun k => k.usesLock = true) accepted first s) :
    OneByOne base estimate accepted first s ∧ s.operationLocked = false := by
  induction serially with
  | start => exact ⟨.start, unlocked⟩
  | call _ new uses ends accepts ih =>
    obtain ⟨oneByOne, free⟩ := ih
    obtain ⟨op, reply, _, same⟩ := lone_endsOn free new uses ends
    obtain ⟨rfl, rfl⟩ := Prod.mk.inj same
    exact ⟨.next (op, reply) oneByOne accepts, atomically_unlocked free op reply⟩

/-- The turn is one of an asynchronous batch or of a sweep. -/
def Locking (_s : DiskBackedInMemStore) (_others : List ItemCall) (k : ItemCall) (_reply : StoreReply) : Prop :=
  k.usesLock = true

theorem locking_ordered {first : DiskBackedInMemStore} {l : EventLoop DiskBackedInMemStore ItemCall}
    (unlocked : first.operationLocked = false) (reach : (itemCalls base estimate).Reaches Locking ⟨first, []⟩ l) :
    (itemCalls base estimate).Ordered (fun s => s.operationLocked) (fun k => k.usesLock = true) (fun _ => True) first
      l.state l.waiting :=
  Coroutines.Reaches.ordered (itemCalls_mutex base estimate) (fun uses => ⟨uses, fun _ _ => trivial⟩) reach unlocked

/-- However asynchronous batches and sweeps interleave, they happen as if each
were done at once, in the order in which they take the lock: when no call has it
the store is as after such operations, and each call that ends has done and
returns what its operation does at its place in that order. -/
theorem abatch_serializable {first : DiskBackedInMemStore} {l : EventLoop DiskBackedInMemStore ItemCall}
    (unlocked : first.operationLocked = false)
    (reach : (itemCalls base estimate).Reaches Locking ⟨first, []⟩ l) :
    (l.state.operationLocked = false → OneByOne base estimate (fun _ => True) first l.state) ∧
      ∀ k ∈ l.waiting, k.usesLock = true → ∀ reply s' outcome,
        resume base estimate l.state k reply = (s', .finished outcome) →
        ∃ before op reply', OneByOne base estimate (fun _ => True) first before ∧
          Turn.Leads (resume base estimate) (before, op.call) (l.state, k) ∧
          (s', outcome) = before.atomically base estimate op reply' := by
  have ordered := locking_ordered unlocked reach
  refine ⟨fun free => (oneByOne_of_serially unlocked (ordered.serially free)).1, fun k waits uses reply s' outcome ended => ?_⟩
  obtain ⟨before, call, replies, serially, new, picked, leads, ends⟩ :=
    ordered.ends_of_mem (itemCalls_mutex base estimate) waits uses ended
  obtain ⟨oneByOne, free⟩ := oneByOne_of_serially unlocked serially
  obtain ⟨op, reply', rfl, same⟩ := lone_endsOn free new picked ends
  exact ⟨before, op, reply', oneByOne, leads, same⟩

/-- A sequence of operations on a new store that raise nothing is a run of batches and sweeps. -/
theorem itemRun_of_oneByOne
    (oneByOne : OneByOne base estimate (fun outcome => outcome.isOk = true) (load estimate ⟨.empty, .empty⟩ .empty) s) :
    (∃ history, ItemRun base estimate history s) ∧ s.operationLocked = false := by
  induction oneByOne with
  | start => exact ⟨⟨[], .start⟩, rfl⟩
  | @next s call _ accepts ih =>
    obtain ⟨⟨history, run⟩, free⟩ := ih
    refine ⟨?_, atomically_unlocked free call.1 call.2⟩
    obtain ⟨op, reply⟩ := call
    cases op with
    | abatch ops =>
      cases out : ({ s with operationLocked := true }.batch base estimate ops reply).2 with
      | error e =>
        rw [atomically, out] at accepts
        cases accepts
      | ok results =>
        have ends : Turn.Ends (resume base estimate) reply (s, .suspended (.abatch ops))
            (s.atomically base estimate (.abatch ops) reply).1 (.ok (.results results)) :=
          abatch_ends_iff.mpr ⟨free, rfl, by rw [out]; rfl⟩
        exact ⟨_, .abatch ops reply run ends⟩
    | sweep => exact ⟨history, .sweep reply.readAt run⟩

/-- The turn is one of an asynchronous batch or of a sweep, and raises nothing. -/
def LockingWell (base : InMemoryStore) (estimate : PickleSize) (s : DiskBackedInMemStore) (others : List ItemCall)
    (k : ItemCall) (reply : StoreReply) : Prop :=
  k.usesLock = true ∧ Succeeds base estimate s others k reply

/-- However asynchronous batches and sweeps interleave on a new store, if none of
them raises, then whenever no call has the lock some sequential run of batches and
sweeps ends in the store, and its history decides what a sweep removes. -/
theorem interleaved_leases {l : EventLoop DiskBackedInMemStore ItemCall}
    (reach : (itemCalls base estimate).Reaches (LockingWell base estimate)
      ⟨load estimate ⟨.empty, .empty⟩ .empty, []⟩ l) (free : l.state.operationLocked = false) :
    ∃ history, ItemRun base estimate history l.state ∧
      ∀ t k, (l.state.item? k).isSome → (Removes l.state t k ↔ LeaseOver history k t) := by
  have ordered : (itemCalls base estimate).Ordered _ _ (fun outcome => outcome.isOk = true) _ l.state l.waiting :=
    Coroutines.Reaches.ordered (itemCalls_mutex base estimate)
      (fun {s others k reply} turn => ⟨turn.1, fun outcome ended => ?_⟩) reach rfl
  · obtain ⟨⟨history, run⟩, _⟩ := itemRun_of_oneByOne (oneByOne_of_serially rfl (ordered.serially free)).1
    refine ⟨history, run, fun t k exists_k => ?_⟩
    rw [removes_iff_expired, (leases_of_run run).1.mem_expired exists_k]
    exact and_iff_right exists_k
  · cases outcome with
    | error e => exact absurd ended (turn.2 e)
    | ok result => rfl

end Serialization

section Overlap

instance (s : DiskBackedInMemStore) (others : List ItemCall) (k : ItemCall) (reply : StoreReply) :
    Decidable (Locking s others k reply) :=
  inferInstanceAs (Decidable (_ = true))

instance (base : InMemoryStore) (estimate : PickleSize) (s : DiskBackedInMemStore) (others : List ItemCall) (k : ItemCall)
    (reply : StoreReply) : Decidable (LockingWell base estimate s others k reply) :=
  inferInstanceAs (Decidable (_ ∧ _))

/-- A sweep and another batch try to run while `abatch` awaits the embeddings of the notes. -/
def sweepWhileEmbedding : List (Coroutines.Move ItemCall StoreReply) :=
  [.call (.abatch twoNotes), .turn 0 (readingAt 0 []), .call .sweeping, .turn 1 (readingAt 1 []),
    .call (.abatch readNotes), .turn 2 (readingAt 2 []),
    .turn 0 (readingAt 3 [("first", [.finite 1]), ("second", [.finite 2])]), .turn 0 (readingAt 4 [])]

theorem sweepWhileEmbedding_performed :
    ((itemCalls textIndex countedSize).performAllIf Locking
      ⟨load countedSize ⟨.empty, .empty⟩ .empty, []⟩ sweepWhileEmbedding).isSome = true := by
  decide +kernel

theorem sweepWhileEmbedding_well :
    ((itemCalls textIndex countedSize).performAllIf (LockingWell textIndex countedSize)
      ⟨load countedSize ⟨.empty, .empty⟩ .empty, []⟩ sweepWhileEmbedding).isSome = true := by
  decide +kernel

theorem abatch_serializable_overlap :
    ∃ l : EventLoop DiskBackedInMemStore ItemCall, l.waiting.length = 1 ∧
      (l.state.item? (["notes"], "b")).isSome = true ∧
      OneByOne textIndex countedSize (fun _ => True) (load countedSize ⟨.empty, .empty⟩ .empty) l.state := by
  have reach := Coroutines.Reaches.performAllIf .start (Option.some_get sweepWhileEmbedding_performed).symm
  refine ⟨_, ?_, ?_, (abatch_serializable rfl reach).1 ?_⟩
  · decide +kernel
  · decide +kernel
  · decide +kernel

theorem interleaved_leases_overlap :
    ∃ (l : EventLoop DiskBackedInMemStore ItemCall) (history : List ItemEvent), l.waiting.length = 1 ∧
      (Removes l.state 70000000 (["notes"], "a") ↔ LeaseOver history (["notes"], "a") 70000000) ∧
      (l.state.sweepTtl 70000000).2 = 1 := by
  have reach := Coroutines.Reaches.performAllIf .start (Option.some_get sweepWhileEmbedding_well).symm
  obtain ⟨history, _, leases⟩ := interleaved_leases reach (by decide +kernel)
  refine ⟨_, history, ?_, leases 70000000 (["notes"], "a") ?_, ?_⟩
  · decide +kernel
  · decide +kernel
  · decide +kernel

end Overlap

end DiskBackedInMemStore

end InmemRuntime
