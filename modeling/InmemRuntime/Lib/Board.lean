import Mathlib.Data.List.Nodup

/-- Queues listed under keys. What is sent to a key goes to the queues that are
listed there at that time. Queues are numbered in the order in which they are made. -/
@[ext] structure Board (α μ : Type*) where
  listed : α → List Nat
  count : Nat
  received : Nat → List μ

namespace Board

variable {α μ ν : Type*}

inductive Event (α μ : Type*) where
  | added (key : α) (queue : Nat)
  | removed (key : α) (queue : Nat)
  | sent (key : α) (message : μ)

/-- A queue in the eyes of its owner: where it is registered, and what has been
sent there while it was. -/
structure Mailbox (α μ : Type*) where
  home : Option α
  messages : List μ

section Mailbox

variable [DecidableEq α]

def Mailbox.take (queue : Nat) (box : Mailbox α μ) : Event α μ → Mailbox α μ
  | .added key other => if other = queue then { box with home := some key } else box
  | .removed key other => if other = queue ∧ box.home = some key then { box with home := none } else box
  | .sent key message => if box.home = some key then { box with messages := box.messages ++ [message] } else box

def mailbox (history : List (Event α μ)) (queue : Nat) : Mailbox α μ := history.foldl (Mailbox.take queue) ⟨none, []⟩

theorem mailbox_append (history : List (Event α μ)) (event : Event α μ) (queue : Nat) :
    mailbox (history ++ [event]) queue = (mailbox history queue).take queue event := by
  rw [mailbox, List.foldl_append]
  rfl

end Mailbox

section Operations

variable [DecidableEq α] (b : Board α ν)

def add (key : α) : Board α ν where
  listed := fun k => if k = key then b.listed k ++ [b.count] else b.listed k
  count := b.count + 1
  received := b.received

def remove (key : α) (queue : Nat) : Board α ν where
  listed := fun k => if k = key then (b.listed k).erase queue else b.listed k
  count := b.count
  received := b.received

def send (key : α) (message : ν) : Board α ν where
  listed := b.listed
  count := b.count
  received := fun queue => b.received queue ++ List.replicate ((b.listed key).count queue) message

/-- What an event does. -/
def after (view : μ → ν) : Event α μ → Board α ν
  | .added key _ => b.add key
  | .removed key queue => b.remove key queue
  | .sent key message => b.send key (view message)

end Operations

/-- A key lists each of its queues once, and nothing is known of the queues to come. -/
structure WellFormed (b : Board α ν) : Prop where
  numbered : ∀ key, ∀ queue ∈ b.listed key, queue < b.count
  nodup : ∀ key, (b.listed key).Nodup
  fresh : ∀ queue, b.count ≤ queue → b.received queue = []

section Kept

variable {b : Board α ν}

theorem WellFormed.send (well : b.WellFormed) (key : α) (message : ν) : (b.send key message).WellFormed where
  numbered := well.numbered
  nodup := well.nodup
  fresh := by
    intro queue above
    have absent : queue ∉ b.listed key := by
      intro member
      have below := well.numbered key queue member
      have above : b.count ≤ queue := above
      omega
    show b.received queue ++ List.replicate ((b.listed key).count queue) message = []
    rw [well.fresh queue above, List.count_eq_zero_of_not_mem absent]
    rfl

variable [DecidableEq α]

theorem mem_add {key k : α} {queue : Nat} :
    queue ∈ (b.add key).listed k ↔ queue ∈ b.listed k ∨ k = key ∧ queue = b.count := by
  by_cases here : k = key
  · simp [add, here]
  · simp [add, here]

theorem remove_of_not_mem {key : α} {queue : Nat} (absent : queue ∉ b.listed key) : b.remove key queue = b := by
  refine Board.ext (funext (fun k => ?_)) rfl rfl
  by_cases here : k = key
  · simp only [remove, here, if_true, List.erase_of_not_mem absent]
  · simp only [remove, here, if_false]

theorem WellFormed.mem_remove (well : b.WellFormed) {key k : α} {queue other : Nat} :
    other ∈ (b.remove key queue).listed k ↔ other ∈ b.listed k ∧ ¬(k = key ∧ other = queue) := by
  by_cases here : k = key
  · simp only [remove, here, if_true, (well.nodup key).mem_erase_iff, true_and]
    exact and_comm
  · simp [remove, here]

theorem WellFormed.add (well : b.WellFormed) (key : α) : (b.add key).WellFormed where
  numbered := by
    intro k queue member
    show queue < b.count + 1
    rcases mem_add.mp member with old | ⟨_, new⟩
    · have below := well.numbered k queue old
      omega
    · omega
  nodup := by
    intro k
    by_cases here : k = key
    · simp only [Board.add, here, if_true, List.nodup_append]
      refine ⟨well.nodup key, List.nodup_singleton _, fun queue old new member same => ?_⟩
      have below := well.numbered key queue old
      have atEnd := List.mem_singleton.mp member
      omega
    · simp only [Board.add, here, if_false]
      exact well.nodup k
  fresh := fun queue above => well.fresh queue (Nat.le_of_succ_le above)

theorem WellFormed.remove (well : b.WellFormed) (key : α) (queue : Nat) : (b.remove key queue).WellFormed where
  numbered := fun k other member => well.numbered k other (well.mem_remove.mp member).1
  nodup := by
    intro k
    by_cases here : k = key
    · simp only [Board.remove, here, if_true]
      exact (well.nodup key).erase queue
    · simp only [Board.remove, here, if_false]
      exact well.nodup k
  fresh := well.fresh

theorem WellFormed.after (well : b.WellFormed) (view : μ → ν) (event : Event α μ) : (b.after view event).WellFormed := by
  cases event with
  | added key => exact well.add key
  | removed key queue => exact well.remove key queue
  | sent key message => exact well.send key (view message)

end Kept

/-- The board lists each queue where its mailbox says, and each has received
what its mailbox says, in that order. -/
structure Agrees [DecidableEq α] (view : μ → ν) (b : Board α ν) (history : List (Event α μ)) : Prop where
  listed : ∀ queue key, queue ∈ b.listed key ↔ (mailbox history queue).home = some key
  received : ∀ queue, b.received queue = (mailbox history queue).messages.map view

section Agrees

variable [DecidableEq α] {view : μ → ν} {b : Board α ν} {history : List (Event α μ)}

theorem Agrees.add (agrees : Agrees view b history) (well : b.WellFormed) (key : α) :
    Agrees view (b.add key) (history ++ [.added key b.count]) where
  listed := by
    intro queue k
    rw [mem_add, mailbox_append, Mailbox.take]
    by_cases new : b.count = queue
    · have absent : queue ∉ b.listed k := fun member => by
        have below := well.numbered k queue member
        omega
      rw [if_pos new]
      simp only [absent, false_or, new, and_true, Option.some.injEq]
      exact eq_comm
    · rw [if_neg new, agrees.listed]
      simp [Ne.symm new]
  received := by
    intro queue
    rw [mailbox_append, Mailbox.take]
    show b.received queue = _
    rw [agrees.received]
    split <;> rfl

theorem Agrees.remove (agrees : Agrees view b history) (well : b.WellFormed) (key : α) (queue : Nat) :
    Agrees view (b.remove key queue) (history ++ [.removed key queue]) where
  listed := by
    intro other k
    rw [well.mem_remove, mailbox_append, Mailbox.take, agrees.listed]
    by_cases here : queue = other ∧ (mailbox history other).home = some key
    · rw [if_pos here, here.2, here.1]
      simp [eq_comm]
    · rw [if_neg here]
      constructor
      · exact fun both => both.1
      · refine fun home => ⟨home, fun same => here ⟨same.2.symm, ?_⟩⟩
        rw [home, same.1]
  received := by
    intro other
    rw [mailbox_append, Mailbox.take]
    show b.received other = _
    rw [agrees.received]
    split <;> rfl

theorem Agrees.send (agrees : Agrees view b history) (well : b.WellFormed) (key : α) (message : μ) :
    Agrees view (b.send key (view message)) (history ++ [.sent key message]) where
  listed := by
    intro queue k
    rw [mailbox_append, Mailbox.take]
    show queue ∈ b.listed k ↔ _
    rw [agrees.listed]
    split <;> rfl
  received := by
    intro queue
    rw [mailbox_append, Mailbox.take]
    show b.received queue ++ List.replicate ((b.listed key).count queue) (view message) = _
    rw [agrees.received]
    by_cases here : (mailbox history queue).home = some key
    · have once := List.count_eq_one_of_mem (well.nodup key) ((agrees.listed queue key).mpr here)
      rw [if_pos here, once, List.map_append]
      rfl
    · have none := List.count_eq_zero_of_not_mem (fun member => here ((agrees.listed queue key).mp member))
      rw [if_neg here, none, List.replicate_zero, List.append_nil]

/-- An event that names a new queue by its number keeps the two in agreement. -/
theorem Agrees.after (agrees : Agrees view b history) (well : b.WellFormed) (event : Event α μ)
    (new : ∀ key queue, event = .added key queue → queue = b.count) :
    Agrees view (b.after view event) (history ++ [event]) := by
  cases event with
  | added key queue =>
    rw [new key queue rfl]
    exact agrees.add well key
  | removed key queue => exact agrees.remove well key queue
  | sent key message => exact agrees.send well key message

end Agrees

/-- What stays of a board: a queue is listed nowhere anew, and where keys are
`kept` it stays listed. -/
structure Later (kept : α → Prop) (b b' : Board α ν) : Prop where
  count : b.count ≤ b'.count
  old : ∀ key, ∀ queue ∈ b'.listed key, queue < b.count → queue ∈ b.listed key
  kept : ∀ key, kept key → ∀ queue ∈ b.listed key, queue ∈ b'.listed key

section Later

variable {kept : α → Prop} {b b' b'' : Board α ν}

theorem Later.of_listed (listed : ∀ key, b'.listed key = b.listed key) (count : b'.count = b.count) : Later kept b b' where
  count := Nat.le_of_eq count.symm
  old := fun key _ member _ => listed key ▸ member
  kept := fun key _ _ member => (listed key).symm ▸ member

theorem Later.refl (b : Board α ν) : Later kept b b := .of_listed (fun _ => rfl) rfl

theorem Later.trans (first : Later kept b b') (second : Later kept b' b'') : Later kept b b'' where
  count := Nat.le_trans first.count second.count
  old := fun key queue member below =>
    first.old key queue (second.old key queue member (Nat.lt_of_lt_of_le below first.count)) below
  kept := fun key isKept queue member => second.kept key isKept queue (first.kept key isKept queue member)

theorem Later.send (b : Board α ν) (key : α) (message : ν) : Later kept b (b.send key message) :=
  .of_listed (fun _ => rfl) rfl

variable [DecidableEq α]

theorem Later.add (b : Board α ν) (key : α) : Later kept b (b.add key) where
  count := Nat.le_succ _
  old := by
    intro k queue member below
    rcases mem_add.mp member with old | ⟨_, new⟩
    · exact old
    · omega
  kept := fun _ _ _ member => mem_add.mpr (Or.inl member)

theorem Later.remove (well : b.WellFormed) {key : α} (temporary : ¬kept key) (queue : Nat) :
    Later kept b (b.remove key queue) where
  count := Nat.le_refl _
  old := fun _ _ member _ => (well.mem_remove.mp member).1
  kept := fun _ isKept _ member => well.mem_remove.mpr ⟨member, fun same => temporary (same.1 ▸ isKept)⟩

end Later

end Board
