import InmemRuntime.RecordSearch
import Mathlib.Data.List.Permutation

namespace InmemRuntime

namespace Assistants

def SearchCall.page (call : SearchCall) (limit offset : Nat) : SearchCall := { call with limit := limit, offset := offset }

section Listing

variable {lower upper : String → String} {assertGraphExists : String → Except PyError Unit}

theorem le_ordered (field : SortField) (reverse : Bool) (l : List AssistantRecord) :
    Ordered (field.le lower) reverse (sortedBy (field.le lower) reverse l) := by
  cases field with
  | assistantId =>
    have same : ∀ a b, SortField.le lower .assistantId a b = true ↔ a.assistantId.bits.toNat ≤ b.assistantId.bits.toNat := fun a b => decide_eq_true_iff
    exact sortedBy_key _ same reverse l
  | graphId =>
    have same : ∀ a b, SortField.le lower .graphId a b = true ↔ textKey lower a.graphId ≤ textKey lower b.graphId := fun a b => decide_eq_true_iff
    exact sortedBy_key _ same reverse l
  | name =>
    have same : ∀ a b, SortField.le lower .name a b = true ↔ textKey lower a.name ≤ textKey lower b.name := fun a b => decide_eq_true_iff
    exact sortedBy_key _ same reverse l
  | createdAt =>
    have same : ∀ a b, SortField.le lower .createdAt a b = true ↔ a.createdAt ≤ b.createdAt := fun a b => decide_eq_true_iff
    exact sortedBy_key _ same reverse l
  | updatedAt =>
    have same : ∀ a b, SortField.le lower .updatedAt a b = true ↔ a.updatedAt ≤ b.updatedAt := fun a b => decide_eq_true_iff
    exact sortedBy_key _ same reverse l

theorem sortAssistants_perm (call : SearchCall) (assistants : List AssistantRecord) :
    (sortAssistants lower upper call assistants).Perm assistants := by
  unfold sortAssistants
  split <;> exact sortedBy_perm _ _ _

/-- The sequence is in the order of the field that the call names. -/
def InOrder (lower upper : String → String) (call : SearchCall) (sequence : List AssistantRecord) : Prop :=
  ∀ field, call.field? lower = some field → Ordered (field.le lower) (isReverse upper call.sortOrder) sequence

theorem sortAssistants_inOrder (call : SearchCall) (assistants : List AssistantRecord) :
    InOrder lower upper call (sortAssistants lower upper call assistants) := by
  intro field named
  rw [sortAssistants, named]
  exact le_ordered field _ _

/-- The records that match the filters. -/
def matching (lower : String → String) (assistants : List AssistantRecord) (f : AssistantFilter) (filters : PyVal) :
    List AssistantRecord :=
  assistants.filter (Allowed (f.allows lower filters))

variable {assistants : List AssistantRecord} {call : SearchCall} {filters : PyVal} {page : Page AssistantRecord}

/-- A search that is accepted has its graph and can compare every record. -/
theorem accepted_cases (accepted : searchWith lower upper assertGraphExists assistants call filters = .ok page) :
    assertGraph assertGraphExists call.graphId = .ok () ∧
      keepOk (call.allows lower filters) assistants = .ok (matching lower assistants call.toAssistantFilter filters) := by
  obtain ⟨_, exists_, filtered⟩ := bind_ok accepted
  obtain ⟨kept, filtered, _⟩ := bind_ok filtered
  refine ⟨exists_, ?_⟩
  rw [filtered, keepOk_eq_ok filtered, matching]

theorem assistants_listed (accepted : searchWith lower upper assertGraphExists assistants call filters = .ok page) :
    Page.Listed (fun limit assistants offset =>
        (assistants, searchWith lower upper assertGraphExists assistants (call.page limit offset) filters))
      assistants (matching lower assistants call.toAssistantFilter filters) (InOrder lower upper call) ∧
    countWith lower assertGraphExists assistants call.toAssistantFilter filters =
      .ok (matching lower assistants call.toAssistantFilter filters).length := by
  obtain ⟨exists_, filtered⟩ := accepted_cases accepted
  constructor
  · refine Page.listed_of_cut (sortAssistants_perm call _) (sortAssistants_inOrder call _) (fun limit offset => ?_)
    have graph : assertGraph assertGraphExists (call.page limit offset).graphId = .ok () := exists_
    have kept : keepOk ((call.page limit offset).allows lower filters) assistants =
        .ok (matching lower assistants call.toAssistantFilter filters) := filtered
    rw [searchWith, graph, ok_bind, kept, ok_bind]
    rfl
  · rw [countWith, exists_, ok_bind, countOk_eq, filtered]
    rfl

end Listing

end Assistants

namespace Threads

def SearchCall.page (call : SearchCall) (limit offset : Nat) : SearchCall := { call with limit := limit, offset := offset }

/-- The field that `sort_by` names, in lower case. -/
def SearchCall.field? (call : SearchCall) : Option ThreadSortField :=
  call.sortBy.bind (fun name => ThreadSortField.all.find? (fun field => field.name = name))

/-- A search may complete records of the list. -/
structure Completes (threads threads' : Table Thread) : Prop where
  rows : threads'.rows = threads.rows
  records : ∀ r, threads'.get r = threads.get r ∨ threads'.get r = (threads.get r).withStateUpdatedAt

theorem Completes.refl (threads : Table Thread) : Completes threads threads := ⟨rfl, fun _ => Or.inl rfl⟩

theorem Completes.trans {threads threads' threads'' : Table Thread} (first : Completes threads threads')
    (second : Completes threads' threads'') : Completes threads threads'' where
  rows := second.rows.trans first.rows
  records r := by
    rcases second.records r with same | completed
    · rw [same]
      exact first.records r
    · rw [completed]
      rcases first.records r with same | before
      · exact Or.inr (by rw [same])
      · exact Or.inr (by rw [before]; rfl)

theorem update_completes (threads : Table Thread) (r : Nat) :
    Completes threads (threads.update r Thread.withStateUpdatedAt) where
  rows := rfl
  records i := by
    rw [Table.update_get]
    split
    · exact Or.inr rfl
    · exact Or.inl rfl

theorem Completes.completed {threads threads' : Table Thread} (completes : Completes threads threads') (r : Nat) :
    (threads'.get r).withStateUpdatedAt = (threads.get r).withStateUpdatedAt := by
  rcases completes.records r with same | completed
  · rw [same]
  · rw [completed]
    rfl

theorem Completes.allowsIn {threads threads' : Table Thread} (completes : Completes threads threads') (f : ThreadFilter)
    (idSet : Option (List Uuid)) (r : Nat) : f.allowsIn idSet (threads'.get r) = f.allowsIn idSet (threads.get r) := by
  rcases completes.records r with same | completed
  · rw [same]
  · rw [completed]
    rfl

section Select

variable (f : ThreadFilter) (idSet : Option (List Uuid))

theorem selectThreads_completes (threads : Table Thread) (rows : List Nat) :
    Completes threads (selectThreads f idSet threads rows).1 := by
  induction rows generalizing threads with
  | nil => exact .refl threads
  | cons r rows ih =>
    rw [selectThreads]
    split
    · exact ih threads
    · split
      · exact .refl threads
      · exact ih threads
      · exact (update_completes threads r).trans (ih _)

/-- The records that are selected are completed. -/
theorem selectThreads_completed {threads : Table Thread} {rows selected : List Nat}
    (chosen : (selectThreads f idSet threads rows).2 = .ok selected) :
    ∀ r ∈ selected, (selectThreads f idSet threads rows).1.get r = (threads.get r).withStateUpdatedAt := by
  induction rows generalizing threads selected with
  | nil =>
    cases chosen
    exact fun r member => by cases member
  | cons r rows ih =>
    rw [selectThreads] at chosen ⊢
    split
    · rename_i outside
      rw [if_pos outside] at chosen
      exact ih chosen
    · rename_i inside
      rw [if_neg inside] at chosen
      split
      · rename_i e failed
        rw [failed] at chosen
        cases chosen
      · rename_i rejected
        rw [rejected] at chosen
        exact ih chosen
      · rename_i allowed
        rw [allowed] at chosen
        dsimp only at chosen ⊢
        have here := update_completes threads r
        cases later : (selectThreads f idSet (threads.update r Thread.withStateUpdatedAt) rows).2 with
        | error e =>
          rw [later] at chosen
          cases chosen
        | ok rest =>
          rw [later] at chosen
          rw [← Except.ok.inj chosen, List.forall_mem_cons]
          constructor
          · have after := selectThreads_completes f idSet (threads.update r Thread.withStateUpdatedAt) rows
            rcases after.records r with same | completed
            · rw [same, Table.update_get_self]
            · rw [completed, Table.update_get_self]
              rfl
          · intro i member
            rw [ih later i member, here.completed]

end Select

section Listing

variable {uuid : String → Except PyError Uuid} {upper : String → String}

theorem le_ordered (field : ThreadSortField) (reverse : Bool) (l : List Thread) :
    Ordered field.le reverse (sortedBy field.le reverse l) := by
  cases field with
  | threadId =>
    have same : ∀ a b, ThreadSortField.threadId.le a b = true ↔ a.threadId.bits.toNat ≤ b.threadId.bits.toNat :=
      fun a b => decide_eq_true_iff
    exact sortedBy_key _ same reverse l
  | createdAt =>
    have same : ∀ a b, ThreadSortField.createdAt.le a b = true ↔ a.createdAt ≤ b.createdAt :=
      fun a b => decide_eq_true_iff
    exact sortedBy_key _ same reverse l
  | updatedAt =>
    have same : ∀ a b, ThreadSortField.updatedAt.le a b = true ↔ a.updatedAt ≤ b.updatedAt :=
      fun a b => decide_eq_true_iff
    exact sortedBy_key _ same reverse l
  | stateUpdatedAt =>
    have same : ∀ a b, ThreadSortField.stateUpdatedAt.le a b = true ↔
        a.stateUpdatedAt.getD a.updatedAt ≤ b.stateUpdatedAt.getD b.updatedAt := fun a b => decide_eq_true_iff
    exact sortedBy_key _ same reverse l
  | status =>
    have same : ∀ a b, ThreadSortField.status.le a b = true ↔ a.status.text ≤ b.status.text :=
      fun a b => decide_eq_true_iff
    exact sortedBy_key _ same reverse l

theorem sortThreads_perm (call : SearchCall) (threads : List Thread) :
    (sortThreads upper call.sortBy call.sortOrder threads).Perm threads := by
  unfold sortThreads
  split <;> exact sortedBy_perm _ _ _

def InOrder (upper : String → String) (call : SearchCall) (sequence : List Thread) : Prop :=
  ∀ field, call.field? = some field → Ordered field.le (isReverse upper call.sortOrder) sequence

theorem sortThreads_inOrder (call : SearchCall) (threads : List Thread) :
    InOrder upper call (sortThreads upper call.sortBy call.sortOrder threads) := by
  intro field named
  rw [SearchCall.field?] at named
  rw [sortThreads, named]
  exact le_ordered field _ _

/-- The records that match the filters and are among the ids, as the search leaves them. -/
def matching (threads : List Thread) (f : ThreadFilter) (ids : Option (List Uuid)) : List Thread :=
  (threads.filter (Allowed (f.allowsIn ids))).map Thread.withStateUpdatedAt

variable {s : Runtime} {call : SearchCall} {filters : PyVal} {page : Page Thread} {ids : Option (List Uuid)}

/-- The positions of the records that a search selects. -/
def selection (threads : Table Thread) (f : ThreadFilter) (ids : Option (List Uuid)) : List Nat :=
  threads.rows.filter (Allowed (fun r => f.allowsIn ids (threads.get r)))

theorem selection_values (threads : Table Thread) (f : ThreadFilter) (ids : Option (List Uuid)) :
    (selection threads f ids).map (fun r => (threads.get r).withStateUpdatedAt) = matching threads.values f ids := by
  rw [matching, selection, Table.values, List.filter_map, List.map_map]
  rfl

/-- Every search of the store, before or after others, cuts its page from one list. -/
theorem searchWith_cuts (parsed : idSet uuid call.ids = .ok ids)
    (selects : keepOk (fun r => (call.filter filters).allowsIn ids (s.threads.get r)) s.threads.rows =
      .ok (selection s.threads (call.filter filters) ids)) {threads : Table Thread} (completes : Completes s.threads threads)
    (limit offset : Nat) :
    ∃ threads', Completes s.threads threads' ∧
      searchWith uuid upper { s with threads := threads } (call.page limit offset) filters =
        ({ s with threads := threads' }, .ok (Page.cut (sortThreads upper call.sortBy call.sortOrder
          (matching s.threads.values (call.filter filters) ids)) limit offset)) := by
  have chosen : (selectThreads (call.filter filters) ids threads threads.rows).2 =
      .ok (selection s.threads (call.filter filters) ids) := by
    rw [selectThreads_selected, completes.rows, ← selects]
    exact keepOk_congr (fun r _ => completes.allowsIn _ _ r)
  have after := selectThreads_completes (call.filter filters) ids threads threads.rows
  have records : (selection s.threads (call.filter filters) ids).map
      (selectThreads (call.filter filters) ids threads threads.rows).1.get =
      matching s.threads.values (call.filter filters) ids := by
    rw [← selection_values]
    refine List.map_congr_left (fun r member => ?_)
    rw [selectThreads_completed _ _ chosen r member, completes.completed]
  refine ⟨_, completes.trans after, ?_⟩
  have parsedToo : idSet uuid (call.page limit offset).ids = .ok ids := parsed
  have sameFilter : (call.page limit offset).filter filters = call.filter filters := rfl
  simp only [searchWith, parsedToo, sameFilter, chosen]
  rw [← records]
  rfl

theorem threads_listed (accepted : (searchWith uuid upper s call filters).2 = .ok page) :
    ∃ ids, idSet uuid call.ids = .ok ids ∧
      Page.Listed (fun limit s offset => searchWith uuid upper s (call.page limit offset) filters) s
        (matching s.threads.values (call.filter filters) ids) (InOrder upper call) ∧
      (call.ids = [] → countThreads (call.filter filters) s.threads.values =
        .ok (matching s.threads.values (call.filter filters) ids).length) := by
  rw [searchWith] at accepted
  cases parsed : idSet uuid call.ids with
  | error e =>
    rw [parsed] at accepted
    cases accepted
  | ok ids =>
    rw [parsed] at accepted
    dsimp only at accepted
    rw [selectThreads_selected] at accepted
    cases selected : keepOk (fun r => (call.filter filters).allowsIn ids (s.threads.get r)) s.threads.rows with
    | error e =>
      rw [selected] at accepted
      cases accepted
    | ok rows =>
      have all : rows = selection s.threads (call.filter filters) ids := keepOk_eq_ok selected
      rw [all] at selected
      refine ⟨ids, rfl, ⟨_, sortThreads_perm call _, sortThreads_inOrder call _, fun limit positive => ?_⟩, ?_⟩
      · have cuts : ∀ s' offset, (∃ threads, Completes s.threads threads ∧ s' = { s with threads := threads }) →
            ∃ s'', searchWith uuid upper s' (call.page limit offset) filters = (s'', .ok (Page.cut
              (sortThreads upper call.sortBy call.sortOrder (matching s.threads.values (call.filter filters) ids))
              limit offset)) ∧ ∃ threads, Completes s.threads threads ∧ s'' = { s with threads := threads } := by
          rintro s' offset ⟨threads, completes, rfl⟩
          obtain ⟨threads', after, found⟩ := searchWith_cuts parsed selected completes limit offset
          exact ⟨_, found, threads', after, rfl⟩
        obtain ⟨s', reads, _⟩ := Page.follows_cut positive cuts ⟨s.threads, .refl _, rfl⟩ 0
        exact ⟨s', reads⟩
      · intro every
        have unlimited : ids = none := by
          rw [every] at parsed
          exact (Except.ok.inj parsed).symm
        subst unlimited
        have allowsIn : ∀ thread, (call.filter filters).allowsIn none thread = (call.filter filters).allows thread :=
          fun _ => rfl
        simp only [allowsIn] at selected
        rw [countThreads, Table.values, countOk_map, countOk_eq, selected, ← Table.values, ← selection_values, List.length_map]
        rfl

end Listing

end Threads

namespace Crons

def SearchCall.page (call : SearchCall) (limit offset : Nat) : SearchCall := { call with limit := limit, offset := offset }

section Listing

variable {lower upper : String → String}

theorem le_ordered (field : SortField) (reverse : Bool) (l : List Cron) :
    Ordered (field.le lower) reverse (sortedBy (field.le lower) reverse l) := by
  cases field with
  | cronId =>
    have same : ∀ a b, SortField.le lower .cronId a b = true ↔ lower a.cronId.str ≤ lower b.cronId.str := fun a b => decide_eq_true_iff
    exact sortedBy_key _ same reverse l
  | assistantId =>
    have same : ∀ a b, SortField.le lower .assistantId a b = true ↔ lower a.assistantId.str ≤ lower b.assistantId.str := fun a b => decide_eq_true_iff
    exact sortedBy_key _ same reverse l
  | threadId =>
    have same : ∀ a b, SortField.le lower .threadId a b = true ↔ lower (Runs.strOrNone a.threadId) ≤ lower (Runs.strOrNone b.threadId) := fun a b => decide_eq_true_iff
    exact sortedBy_key _ same reverse l
  | nextRunDate =>
    have same : ∀ a b, SortField.le lower .nextRunDate a b = true ↔ a.nextRunDate ≤ b.nextRunDate := fun a b => decide_eq_true_iff
    exact sortedBy_key _ same reverse l
  | endTime =>
    have same : ∀ a b, SortField.le lower .endTime a b = true ↔ a.endTime.getD minTime ≤ b.endTime.getD minTime := fun a b => decide_eq_true_iff
    exact sortedBy_key _ same reverse l
  | createdAt =>
    have same : ∀ a b, SortField.le lower .createdAt a b = true ↔ a.createdAt ≤ b.createdAt := fun a b => decide_eq_true_iff
    exact sortedBy_key _ same reverse l
  | updatedAt =>
    have same : ∀ a b, SortField.le lower .updatedAt a b = true ↔ a.updatedAt ≤ b.updatedAt := fun a b => decide_eq_true_iff
    exact sortedBy_key _ same reverse l

def InOrder (lower upper : String → String) (call : SearchCall) (sequence : List Cron) : Prop :=
  ∀ field, call.field? lower = some field → Ordered (field.le lower) (isReverse upper call.sortOrder) sequence

/-- A sort that does not raise. -/
theorem sortCrons_spec {call : SearchCall} {crons sorted : List Cron} (sorts : sortCrons lower upper call crons = .ok sorted) :
    sorted.Perm crons ∧ InOrder lower upper call sorted := by
  unfold sortCrons at sorts
  split at sorts
  · rename_i field named
    cases sorts
    refine ⟨sortedBy_perm _ _ _, fun field' named' => ?_⟩
    cases named.symm.trans named'
    exact le_ordered field _ _
  · rename_i unnamed _
    cases sorts
    exact ⟨sortedBy_perm _ _ _, fun field named => absurd named (by simp [unnamed])⟩
  · cases sorts

/-- The records that pass both passes. -/
def matching (s : Runtime) (f : CronFilter) (enabled : Option Bool) (filters threadFilters : PyVal) : List Cron :=
  s.crons.filter (fun cron => Allowed (f.allows enabled filters) cron &&
    (!threadFilters.truthy || Allowed (allowsThread s.threads.values threadFilters) cron))

theorem filterCrons_matching {s : Runtime} {f : CronFilter} {enabled : Option Bool} {filters threadFilters : PyVal}
    {kept : List Cron} (filtered : filterCrons s f enabled filters threadFilters = .ok kept) :
    kept = matching s f enabled filters threadFilters := by
  obtain ⟨first, passed, second⟩ := bind_ok filtered
  have inFirst := keepOk_eq_ok passed
  rw [matching]
  split at second
  · rename_i truthy
    rw [keepOk_eq_ok second, inFirst, List.filter_filter, truthy]
    refine List.filter_congr (fun cron _ => ?_)
    rw [Bool.not_true, Bool.false_or, Bool.and_comm]
  · rename_i falsy
    rw [← Except.ok.inj second, inFirst, Bool.eq_false_iff.mpr falsy]
    refine List.filter_congr (fun cron _ => ?_)
    rw [Bool.not_false, Bool.true_or, Bool.and_true]

variable {s : Runtime} {call : SearchCall} {filters threadFilters : PyVal} {page : Page Cron}

theorem crons_listed (accepted : searchWith lower upper s call filters threadFilters = .ok page) :
    Page.Listed (fun limit s offset => (s, searchWith lower upper s (call.page limit offset) filters threadFilters)) s
      (matching s call.toCronFilter call.enabled filters threadFilters) (InOrder lower upper call) ∧
    (call.enabled = none → countWith s call.toCronFilter filters threadFilters =
      .ok (matching s call.toCronFilter call.enabled filters threadFilters).length) := by
  obtain ⟨kept, filtered, rest⟩ := bind_ok accepted
  obtain ⟨sorted, sorts, _⟩ := bind_ok rest
  have all := filterCrons_matching filtered
  subst all
  obtain ⟨each, inOrder⟩ := sortCrons_spec sorts
  constructor
  · refine Page.listed_of_cut each inOrder (fun limit offset => ?_)
    have same : filterCrons s (call.page limit offset).toCronFilter (call.page limit offset).enabled filters threadFilters =
        .ok (matching s call.toCronFilter call.enabled filters threadFilters) := filtered
    have sortsToo : sortCrons lower upper (call.page limit offset)
        (matching s call.toCronFilter call.enabled filters threadFilters) = .ok sorted := sorts
    rw [searchWith, same, ok_bind, sortsToo, ok_bind, Page.cutAhead_eq]
    rfl
  · intro all
    rw [all] at filtered ⊢
    rw [countWith, filtered, ok_bind]

end Listing

end Crons

/-- Of a search that is accepted, every reader who follows the cursors reads the
matching records once each, in one sequence for all limits, in the order of the
field that is named; and the counts agree. -/
theorem searches_listed (uuid : String → Except PyError Uuid) (lower upper : String → String)
    (assertGraphExists : String → Except PyError Unit) (filters threadFilters : PyVal) :
    (∀ assistants call page, Assistants.searchWith lower upper assertGraphExists assistants call filters = .ok page →
      Page.Listed (fun limit assistants offset =>
          (assistants, Assistants.searchWith lower upper assertGraphExists assistants (call.page limit offset) filters))
        assistants (Assistants.matching lower assistants call.toAssistantFilter filters) (Assistants.InOrder lower upper call) ∧
      Assistants.countWith lower assertGraphExists assistants call.toAssistantFilter filters =
        .ok (Assistants.matching lower assistants call.toAssistantFilter filters).length) ∧
    (∀ s call page, (Threads.searchWith uuid upper s call filters).2 = .ok page →
      ∃ ids, Threads.idSet uuid call.ids = .ok ids ∧
        Page.Listed (fun limit s offset => Threads.searchWith uuid upper s (call.page limit offset) filters) s
          (Threads.matching s.threads.values (call.filter filters) ids) (Threads.InOrder upper call) ∧
        (call.ids = [] → Threads.countThreads (call.filter filters) s.threads.values =
          .ok (Threads.matching s.threads.values (call.filter filters) ids).length)) ∧
    (∀ s call page, Crons.searchWith lower upper s call filters threadFilters = .ok page →
      Page.Listed (fun limit s offset => (s, Crons.searchWith lower upper s (call.page limit offset) filters threadFilters)) s
        (Crons.matching s call.toCronFilter call.enabled filters threadFilters) (Crons.InOrder lower upper call) ∧
      (call.enabled = none → Crons.countWith s call.toCronFilter filters threadFilters =
        .ok (Crons.matching s call.toCronFilter call.enabled filters threadFilters).length)) :=
  ⟨fun _ _ _ accepted => Assistants.assistants_listed accepted, fun _ _ _ accepted => Threads.threads_listed accepted,
    fun _ _ _ accepted => Crons.crons_listed accepted⟩

def versionedRecord (version : Int) : AssistantRecord :=
  { graphId := "agent", config := [], context := .none, metadata := [], name := "agent", description := none
    assistantId := ⟨0⟩, version := version, createdAt := version, updatedAt := version }

/-- Two assistants, the newer one first. -/
def versionedRecords : List AssistantRecord := [versionedRecord 2, versionedRecord 1]

def byVersion : Assistants.SearchCall :=
  { graphId := none, name := none, metadata := [], limit := 2, offset := 0, sortBy := some "version", sortOrder := some "ASC" }

def byCreation : Assistants.SearchCall :=
  { graphId := none, name := none, metadata := [], limit := 1, offset := 0, sortBy := some "created_at", sortOrder := none }

def threadsByCreation : Threads.SearchCall :=
  { ids := [], metadata := [], values := [], status := none, limit := 1, offset := 0, sortBy := some "created_at"
    sortOrder := none }

def cronsByCreation : Crons.SearchCall :=
  { assistantId := none, threadId := none, metadata := [], enabled := none, limit := 1, offset := 0
    sortBy := some "created_at", sortOrder := none }

def threadMade (n : Nat) : Thread := { idleThread ⟨n⟩ with createdAt := n }

def cronMade (n : Nat) : Cron :=
  { cronId := ⟨n⟩, assistantId := ⟨7⟩, threadId := none, userId := none, endTime := none, schedule := "* * * * *"
    timezone := none, payload := [], nextRunDate := 0, metadata := [], onRunCompleted := none, enabled := true
    createdAt := n, updatedAt := n }

/-- Two threads and two crons, the older ones first. -/
def twoOfEach : Runtime := { storeOf [threadMade 1, threadMade 2] with crons := [cronMade 1, cronMade 2] }

/-- The order of two records that differ in their keys. -/
theorem eq_pair_of_ordered {α : Type} {le : α → α → Bool} {a b : α} {sequence : List α}
    (ordered : Ordered le true sequence) (each : sequence.Perm [b, a]) (apart : le a b = false) : sequence = [a, b] := by
  have either : sequence = [b, a] ∨ sequence = [a, b] := by
    simpa using List.mem_permutations'.mpr each
  rcases either with rfl | rfl
  · have wrong := List.pairwise_pair.mp ordered
    rw [if_pos rfl, apart] at wrong
    cases wrong
  · rfl

theorem versionedRecords_accepted : Assistants.searchWith id id (fun _ => .ok ()) versionedRecords byVersion .none =
    .ok (Page.cut (Assistants.sortAssistants id id byVersion versionedRecords) 2 0) := rfl

/-- Readers of pages of one record get the newer one first. -/
theorem searches_listed_pairs :
    ((∃ s', Page.Follows (fun assistants offset =>
        (assistants, Assistants.searchWith id id (fun _ => .ok ()) assistants (byCreation.page 1 offset) .none))
        versionedRecords.reverse 0 [versionedRecord 2, versionedRecord 1] s') ∧
      Assistants.countWith id (fun _ => .ok ()) versionedRecords.reverse byCreation.toAssistantFilter .none = .ok 2) ∧
    ((∃ s', Page.Follows (fun s offset =>
        Threads.searchWith (fun _ => .ok ⟨0⟩) id s (threadsByCreation.page 1 offset) .none)
        twoOfEach 0 [threadMade 2, threadMade 1] s') ∧
      Threads.countThreads (threadsByCreation.filter .none) twoOfEach.threads.values = .ok 2) ∧
    ((∃ s', Page.Follows (fun s offset =>
        (s, Crons.searchWith id id s (cronsByCreation.page 1 offset) .none .none))
        twoOfEach 0 [cronMade 2, cronMade 1] s') ∧
      Crons.countWith twoOfEach cronsByCreation.toCronFilter .none .none = .ok 2) := by
  obtain ⟨assistants, threads, crons⟩ := searches_listed (fun _ => .ok ⟨0⟩) id id (fun _ => .ok ()) .none .none
  refine ⟨?_, ?_, ?_⟩
  · obtain ⟨⟨sequence, each, inOrder, reads⟩, counted⟩ := assistants versionedRecords.reverse byCreation _ rfl
    have two : sequence = [versionedRecord 2, versionedRecord 1] :=
      eq_pair_of_ordered (inOrder .createdAt rfl) each (by decide)
    exact ⟨two ▸ reads 1 le_rfl, counted⟩
  · obtain ⟨ids, parsed, ⟨sequence, each, inOrder, reads⟩, counted⟩ := threads twoOfEach threadsByCreation _ rfl
    cases parsed
    have two : sequence = [threadMade 2, threadMade 1] :=
      eq_pair_of_ordered (inOrder .createdAt rfl) each (by decide)
    exact ⟨two ▸ reads 1 le_rfl, counted rfl⟩
  · obtain ⟨⟨sequence, each, inOrder, reads⟩, counted⟩ := crons twoOfEach cronsByCreation _ rfl
    have two : sequence = [cronMade 2, cronMade 1] := eq_pair_of_ordered (inOrder .createdAt rfl) each (by decide)
    exact ⟨two ▸ reads 1 le_rfl, counted rfl⟩

/-- A field that is not supported is accepted, and the sequence is in the default order. -/
theorem searches_order_default :
    ¬ ∀ (lower upper : String → String) (assertGraphExists : String → Except PyError Unit) (assistants : List AssistantRecord)
      (call : Assistants.SearchCall) (filters : PyVal) (limit : Nat) (sequence : List AssistantRecord),
      call.sortBy = some "version" → call.sortOrder = some "ASC" → 1 ≤ limit →
      Page.Follows (fun assistants offset =>
          (assistants, Assistants.searchWith lower upper assertGraphExists assistants (call.page limit offset) filters))
        assistants 0 sequence assistants →
      sequence.Pairwise (fun a b => a.version ≤ b.version) := by
  intro sorts
  have newestFirst : Assistants.sortAssistants id id byVersion versionedRecords = versionedRecords :=
    List.mergeSort_of_pairwise (by decide)
  have answered : Assistants.searchWith id id (fun _ => .ok ()) versionedRecords (byVersion.page 2 0) .none =
      .ok ⟨versionedRecords, none⟩ := by
    have same : byVersion.page 2 0 = byVersion := rfl
    rw [same, versionedRecords_accepted, newestFirst]
    rfl
  have oldestFirst := sorts id id (fun _ => .ok ()) versionedRecords byVersion .none 2 versionedRecords rfl rfl (by decide)
    (.last (congrArg (Prod.mk versionedRecords) answered))
  exact absurd oldestFirst (by decide)

end InmemRuntime
