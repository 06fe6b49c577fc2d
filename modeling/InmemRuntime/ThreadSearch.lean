import InmemRuntime.Containment
import InmemRuntime.Lib.Paging
import InmemRuntime.RunOps
import InmemRuntime.StreamBoard

namespace InmemRuntime

/-- `is_jsonb_contained(superset, subset)` for a superset that may be no dict: the
first key is looked up in it, and an index that is no position raises. -/
def jsonbContained (superset : PyVal) : PyDict → Except PyError Bool
  | [] => .ok true
  | (key, value) :: rest =>
    match superset with
    | .dict items => .ok (isJsonbContained items ((key, value) :: rest))
    | other => do if ← other.contains key then .error .typeError else .ok false

def ThreadStatus.text : ThreadStatus → String
  | .idle => "idle"
  | .busy => "busy"
  | .interrupted => "interrupted"
  | .error => "error"

/-- `False if sort_order and sort_order.upper() == "ASC" else True` -/
def isReverse (upper : String → String) (sortOrder : Option String) : Bool :=
  !(sortOrder.any (fun order => order ≠ "" && upper order = "ASC"))

namespace Threads

/-- The filters of a search or a count, once the handler has answered. -/
structure ThreadFilter where
  filters : PyVal
  metadata : PyDict
  values : PyDict
  status : Option ThreadStatus

/-- `values and "values" in thread and not is_jsonb_contained(thread["values"], values)`, negated. -/
def ThreadFilter.allowsValues (f : ThreadFilter) (thread : Thread) : Except PyError Bool :=
  if f.values.isEmpty then .ok true
  else match thread.values with
    | none => .ok true
    | some values => jsonbContained values f.values

def ThreadFilter.allowsStatus (f : ThreadFilter) (thread : Thread) : Bool := f.status.all (fun status => thread.status = status)

/-- The body of the filter loops, which `search` and `count` have alike. -/
def ThreadFilter.allows (f : ThreadFilter) (thread : Thread) : Except PyError Bool := do
  if !(← filtersAllow thread.metadata f.filters) then .ok false
  else if !(f.metadata.isEmpty || isJsonbContained thread.metadata f.metadata) then .ok false
  else if !(← f.allowsValues thread) then .ok false
  else .ok (f.allowsStatus thread)

/-- The loop of `search` over the records. A record that is selected gets its `state_updated_at`. -/
def selectThreads (f : ThreadFilter) (idSet : Option (List Uuid)) (threads : Table Thread) :
    List Nat → Table Thread × Except PyError (List Nat)
  | [] => (threads, .ok [])
  | r :: rows =>
    if idSet.any (fun ids => (threads.get r).threadId ∉ ids) then selectThreads f idSet threads rows
    else match f.allows (threads.get r) with
      | .error e => (threads, .error e)
      | .ok false => selectThreads f idSet threads rows
      | .ok true =>
        let (threads, rest) := selectThreads f idSet (threads.update r Thread.withStateUpdatedAt) rows
        (threads, rest.map (fun rows => r :: rows))

/-- The ids and the other filters of `search` together. -/
def ThreadFilter.allowsIn (f : ThreadFilter) (idSet : Option (List Uuid)) (thread : Thread) : Except PyError Bool :=
  if idSet.any (fun ids => thread.threadId ∉ ids) then .ok false else f.allows thread

/-- What the loop selects does not hang on what it writes. -/
theorem selectThreads_selected (f : ThreadFilter) (idSet : Option (List Uuid)) (threads : Table Thread) (rows : List Nat) :
    (selectThreads f idSet threads rows).2 = keepOk (fun r => f.allowsIn idSet (threads.get r)) rows := by
  induction rows generalizing threads with
  | nil => rfl
  | cons r rows ih =>
    have written : keepOk (fun i => f.allowsIn idSet ((threads.update r Thread.withStateUpdatedAt).get i)) rows =
        keepOk (fun i => f.allowsIn idSet (threads.get i)) rows := by
      refine keepOk_congr (fun i _ => ?_)
      rw [Table.update_get]
      split <;> rfl
    rw [selectThreads, keepOk, ThreadFilter.allowsIn]
    split
    · rw [ih]
      exact Eq.symm (by cases keepOk (fun r => f.allowsIn idSet (threads.get r)) rows <;> rfl)
    · cases f.allows (threads.get r) with
      | error e => rfl
      | ok allowed =>
        cases allowed with
        | false =>
          simp only [ih]
          cases keepOk (fun r => f.allowsIn idSet (threads.get r)) rows <;> rfl
        | true =>
          simp only [ih, written]
          cases keepOk (fun r => f.allowsIn idSet (threads.get r)) rows <;> rfl

inductive ThreadSortField where
  | threadId
  | createdAt
  | updatedAt
  | stateUpdatedAt
  | status
deriving DecidableEq

def ThreadSortField.name : ThreadSortField → String
  | .threadId => "thread_id"
  | .createdAt => "created_at"
  | .updatedAt => "updated_at"
  | .stateUpdatedAt => "state_updated_at"
  | .status => "status"

def ThreadSortField.all : List ThreadSortField := [.threadId, .createdAt, .updatedAt, .stateUpdatedAt, .status]

/-- The order of two records by a field. -/
def ThreadSortField.le : ThreadSortField → Thread → Thread → Bool
  | .threadId, a, b => a.threadId.bits ≤ b.threadId.bits
  | .createdAt, a, b => a.createdAt ≤ b.createdAt
  | .updatedAt, a, b => a.updatedAt ≤ b.updatedAt
  | .stateUpdatedAt, a, b => a.stateUpdatedAt.getD a.updatedAt ≤ b.stateUpdatedAt.getD b.updatedAt
  | .status, a, b => a.status.text ≤ b.status.text

structure SearchCall where
  ids : List IdArg
  metadata : PyDict
  values : PyDict
  status : Option ThreadStatus
  limit : Nat
  offset : Nat
  sortBy : Option String
  sortOrder : Option String

def SearchCall.filter (call : SearchCall) (filters : PyVal) : ThreadFilter :=
  ⟨filters, call.metadata, call.values, call.status⟩

section Search

-- `uuid` is `UUID(text)`, `upper` is `str.upper`.
variable (uuid : String → Except PyError Uuid) (upper : String → String)

def searchedId (id : IdArg) : Except PyError Uuid :=
  match ThreadDeliveries.ensureUuid uuid id with
  | .ok threadId => .ok threadId
  | .error _ => .error (.http 400 s!"Invalid thread ID {id.str}")

/-- `id_set`. Without ids there is none. -/
def idSet (ids : List IdArg) : Except PyError (Option (List Uuid)) :=
  if ids.isEmpty then .ok none else (ids.mapM (searchedId uuid)).map some

/-- `sorted_threads` -/
def sortThreads (sortBy sortOrder : Option String) (threads : List Thread) : List Thread :=
  match sortBy.bind (fun name => ThreadSortField.all.find? (fun field => field.name = name)) with
  | some field => sortedBy field.le (isReverse upper sortOrder) threads
  | none => sortedBy ThreadSortField.updatedAt.le true threads

/-- `Threads.search` after the handler: the page that the iterator yields, and the cursor. -/
def searchWith (s : Runtime) (call : SearchCall) (filters : PyVal) : Runtime × Except PyError (Page Thread) :=
  match idSet uuid call.ids with
  | .error e => (s, .error e)
  | .ok ids =>
    let (threads, selected) := selectThreads (call.filter filters) ids s.threads s.threads.rows
    ({ s with threads := threads }, selected.map (fun rows =>
      Page.cut (sortThreads upper call.sortBy call.sortOrder (rows.map threads.get)) call.limit call.offset))

end Search

def countThreads (f : ThreadFilter) (threads : List Thread) : Except PyError Nat := countOk f.allows threads

end Threads

end InmemRuntime
