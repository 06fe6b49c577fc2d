import InmemRuntime.Lib.Serial
import InmemRuntime.Persistence

namespace InmemRuntime

namespace Persistence

variable {α : Type}

theorem numbered_mem_all {c : SaverDicts} {e : Nat × Nat} (member : e ∈ c.numbered) : e.2 ∈ c.all := by
  simp only [SaverDicts.numbered, List.mem_cons, List.not_mem_nil, or_false] at member
  rcases member with rfl | rfl | rfl <;> simp [SaverDicts.all]

structure WellFormed (s : Persistence α) : Prop where
  named : ∀ key d, s.stores.get? key = some d → d < s.dictCount ∧ (s.dicts d).filename = key
  made : ∀ m, s.memory = some m → ∀ e ∈ m.numbered, e.2 < s.dictCount ∧ (s.dicts e.2).filename = checkpointFile e.1
  started : s.memory ≠ none → s.thread ≠ .notStarted
  unregistered : s.memory = none → ∀ number ∈ [1, 2, 3], s.stores.get? (checkpointFile number) = none

/-- The flush thread goes on, and the registry has the containers of MEMORY. -/
structure Registered (s : Persistence α) : Prop where
  alive : s.thread ≠ .died
  memory : ∀ m, s.memory = some m → ∀ e ∈ m.numbered, s.stores.get? (checkpointFile e.1) = some e.2

theorem Loaded.wellFormed {s : Persistence α} (loaded : Loaded s) : WellFormed s where
  named := loaded.named
  made m given := by cases loaded.unmade.symm.trans given
  started given := absurd loaded.unmade given
  unregistered _ := loaded.unregistered

theorem Loaded.registered {s : Persistence α} (loaded : Loaded s) : Registered s where
  alive := loaded.alive
  memory m given := by cases loaded.unmade.symm.trans given

theorem start_ne_died {thread : FlushThread} : start thread ≠ .died ↔ thread ≠ .died := by
  cases thread <;> simp [start]

theorem start_ne_notStarted (thread : FlushThread) : start thread ≠ .notStarted := by
  cases thread <;> simp [start]

/-- What making containers with some numbers changes: each is registered under its file. -/
structure Makes (made : List (Nat × Nat)) (s s' : Persistence α) : Prop where
  count : s.dictCount ≤ s'.dictCount
  fresh : ∀ e ∈ made, s.dictCount ≤ e.2 ∧ e.2 < s'.dictCount ∧ (s'.dicts e.2).filename = checkpointFile e.1
  kept : ∀ i < s.dictCount, s'.dicts i = s.dicts i
  stores : s'.stores = s.stores.setAll (made.map (fun e => (checkpointFile e.1, e.2)))
  alive : s'.thread ≠ .died ↔ s.thread ≠ .died
  started : s.thread ≠ .notStarted ∨ made ≠ [] → s'.thread ≠ .notStarted
  memory : s'.memory = s.memory

theorem Makes.trans {made made' : List (Nat × Nat)} {s s' s'' : Persistence α} (first : Makes made s s')
    (second : Makes made' s' s'') : Makes (made ++ made') s s'' where
  count := Nat.le_trans first.count second.count
  fresh e member := by
    have count := first.count
    have count' := second.count
    rcases List.mem_append.mp member with old | new
    · obtain ⟨low, high, name⟩ := first.fresh e old
      refine ⟨low, by omega, ?_⟩
      rw [second.kept _ high]
      exact name
    · obtain ⟨low, high, name⟩ := second.fresh e new
      exact ⟨by omega, high, name⟩
  kept i below := by
    have count := first.count
    rw [second.kept i (by omega), first.kept i below]
  stores := by
    rw [second.stores, first.stores, List.map_append, Dict.setAll, Dict.setAll, Dict.setAll, List.foldl_append]
  alive := second.alive.trans first.alive
  started cause := by
    refine second.started ?_
    rcases cause with running | some
    · exact Or.inl (first.started (Or.inl running))
    · by_cases none : made = []
      · exact Or.inr (by simpa [none] using some)
      · exact Or.inl (first.started (Or.inr none))
  memory := second.memory.trans first.memory

theorem numbered_files (c : SaverDicts) :
    ((c.numbered.map (fun e => (checkpointFile e.1, e.2))).map Prod.fst).Nodup := by
  have files : (c.numbered.map (fun e => (checkpointFile e.1, e.2))).map Prod.fst =
      [checkpointFile 1, checkpointFile 2, checkpointFile 3] := rfl
  rw [files]
  decide

section Registry

variable {c : SaverDicts} {s s' : Persistence α}

/-- The registry has the new containers. -/
theorem Makes.registers (makes : Makes c.numbered s s') {e : Nat × Nat} (member : e ∈ c.numbered) :
    s'.stores.get? (checkpointFile e.1) = some e.2 := by
  rw [makes.stores]
  exact Dict.get?_setAll_of_mem (numbered_files c) (List.mem_map.mpr ⟨e, member, rfl⟩)

/-- What is registered is new or has been registered before. -/
theorem Makes.origin (makes : Makes c.numbered s s') {key : String} {d : Nat} (found : s'.stores.get? key = some d) :
    (∃ e ∈ c.numbered, key = checkpointFile e.1 ∧ d = e.2) ∨ s.stores.get? key = some d := by
  by_cases new : key ∈ (c.numbered.map (fun e => (checkpointFile e.1, e.2))).map Prod.fst
  · rw [List.map_map] at new
    obtain ⟨e, member, rfl⟩ := List.mem_map.mp new
    have registered := makes.registers member
    exact Or.inl ⟨e, member, rfl, Option.some.inj (found.symm.trans registered)⟩
  · rw [makes.stores, Dict.get?_setAll_of_not_mem new] at found
    exact Or.inr found

theorem WellFormed.named_after (well : WellFormed s) (makes : Makes c.numbered s s') {key : String} {d : Nat}
    (found : s'.stores.get? key = some d) : d < s'.dictCount ∧ (s'.dicts d).filename = key := by
  rcases makes.origin found with ⟨e, member, rfl, rfl⟩ | old
  · exact (makes.fresh e member).2
  · obtain ⟨below, name⟩ := well.named key d old
    rw [makes.kept d below]
    exact ⟨Nat.lt_of_lt_of_le below makes.count, name⟩

/-- MEMORY keeps its containers when others are registered in their place. -/
theorem WellFormed.makes (well : WellFormed s) (made : s.memory ≠ none) (makes : Makes c.numbered s s') : WellFormed s' where
  named key d found := well.named_after makes found
  made m given e member := by
    obtain ⟨below, name⟩ := well.made m (makes.memory ▸ given) e member
    rw [makes.kept e.2 below]
    exact ⟨Nat.lt_of_lt_of_le below makes.count, name⟩
  started _ := makes.started (Or.inr (List.cons_ne_nil _ _))
  unregistered unmade := absurd (makes.memory ▸ unmade) made

theorem Makes.not_registered (makes : Makes c.numbered s s') (well : WellFormed s) (made : s.memory ≠ none) :
    ¬ Registered s' := by
  intro registered
  obtain ⟨m, given⟩ := Option.ne_none_iff_exists'.mp made
  have storage : (1, m.storage) ∈ m.numbered := List.mem_cons_self ..
  have other : (1, c.storage) ∈ c.numbered := List.mem_cons_self ..
  have here := registered.memory m (makes.memory.trans given) (1, m.storage) storage
  have there := makes.registers other
  have same : m.storage = c.storage := Option.some.inj (here.symm.trans there)
  have old : m.storage < s.dictCount := (well.made m given (1, m.storage) storage).1
  have new : s.dictCount ≤ c.storage := (makes.fresh (1, c.storage) other).1
  omega

end Registry

section Saver

variable [Inhabited α] {s : Persistence α}

theorem factory_makes (s : Persistence α) (number : Nat) (loads : Nat → Bool) :
    Makes [(number, (s.factory number loads).1)] s (s.factory number loads).2 := by
  have first : (s.factory number loads).1 = s.dictCount := by
    unfold factory
    dsimp only
    split
    · rfl
    · split <;> rfl
  rw [first]
  have name : (s.newDict (checkpointFile number)).dicts s.dictCount = ⟨checkpointFile number, default⟩ := if_pos rfl
  have stores : ((s.newDict (checkpointFile number)).registerPersistentDict s.dictCount).stores =
      s.stores.set (checkpointFile number) s.dictCount := by
    rw [registerPersistentDict, name]
    rfl
  have made : Makes [(number, s.dictCount)] s ((s.newDict (checkpointFile number)).registerPersistentDict s.dictCount) := by
    constructor
    case count => exact Nat.le_succ _
    case fresh =>
      intro e member
      rw [List.mem_singleton.mp member]
      exact ⟨Nat.le_refl _, Nat.lt_succ_self _, congrArg PersistentDict.filename name⟩
    case kept => exact fun i below => if_neg (Nat.ne_of_lt below)
    case stores => exact stores
    case alive => exact start_ne_died
    case started => exact fun _ => start_ne_notStarted _
    case memory => rfl
  unfold factory
  dsimp only
  split
  · exact made
  · split
    · refine { made with fresh := fun e member => ?_, kept := fun i below => ?_ }
      · rw [List.mem_singleton.mp member]
        exact ⟨Nat.le_refl _, Nat.lt_succ_self _, congrArg PersistentDict.filename (if_pos rfl)⟩
      · exact (if_neg (Nat.ne_of_lt below)).trans (made.kept i below)
    · exact { made with }

theorem newSaver_makes (s : Persistence α) (loads : Nat → Bool) :
    Makes (s.newSaver loads).1.numbered s (s.newSaver loads).2 :=
  ((factory_makes s 1 loads).trans (factory_makes _ 2 loads)).trans (factory_makes _ 3 loads)

theorem withSaver_makes (s : Persistence α) (loads : Nat → Bool) :
    Makes (s.newSaver loads).1.numbered s (s.withSaver loads) :=
  { newSaver_makes s loads with }

theorem WellFormed.withMemory (well : WellFormed s) (loads : Nat → Bool) : WellFormed (s.withMemory loads) := by
  unfold Persistence.withMemory
  split
  · exact well
  · have makes := newSaver_makes s loads
    constructor
    case named => exact fun key d found => well.named_after makes found
    case made =>
      intro m given e member
      cases given
      exact (makes.fresh e member).2
    case started => exact fun _ => makes.started (Or.inr (List.cons_ne_nil _ _))
    case unregistered => exact fun unmade => absurd unmade (by simp)

theorem withMemory_made (s : Persistence α) (loads : Nat → Bool) : (s.withMemory loads).memory ≠ none := by
  unfold Persistence.withMemory
  split
  · rename_i m given
    rw [given]
    exact Option.some_ne_none m
  · exact Option.some_ne_none _

/-- The first call registers the containers of MEMORY. -/
theorem registered_withMemory (loads : Nat → Bool) : Registered (s.withMemory loads) ↔ Registered s := by
  unfold Persistence.withMemory
  split
  · exact Iff.rfl
  · rename_i unmade
    have makes := newSaver_makes s loads
    constructor
    · intro after
      exact ⟨makes.alive.mp after.alive, fun m given => by cases unmade.symm.trans given⟩
    · intro before
      refine ⟨makes.alive.mpr before.alive, fun m given e member => ?_⟩
      cases given
      exact makes.registers member

theorem WellFormed.checkpointer (well : WellFormed s) (unpackHook : Bool) (loads loads' : Nat → Bool) :
    WellFormed (s.checkpointer unpackHook loads loads') := by
  unfold Persistence.checkpointer
  split
  · exact (well.withMemory loads).makes (withMemory_made s loads) (withSaver_makes _ loads')
  · exact well.withMemory loads

/-- A saver with an `unpack_hook` takes the place of MEMORY in the registry. -/
theorem registered_checkpointer (well : WellFormed s) (unpackHook : Bool) (loads loads' : Nat → Bool) :
    Registered (s.checkpointer unpackHook loads loads') ↔ Registered s ∧ unpackHook = false := by
  unfold Persistence.checkpointer
  split
  · rename_i hooked
    have lost := (withSaver_makes (s.withMemory loads) loads').not_registered (well.withMemory loads) (withMemory_made s loads)
    simp [lost, hooked]
  · rename_i plain
    simp [registered_withMemory, plain]

end Saver

section Flush

variable {truthy : α → Bool} {held : Bool} {s : Persistence α}

theorem flushKeys_quiet {raises : Nat → Bool} {keys : List String}
    (noError : ∀ key ∈ keys, ∀ d, s.store? truthy held key = some d → raises d = false) :
    s.flushKeys truthy held raises keys =
      (keys.filterMap (s.store? truthy held), some (keys.filter (fun key => (s.store? truthy held key).isNone))) := by
  induction keys with
  | nil => rfl
  | cons key keys ih =>
    have rest := ih (fun key member => noError key (List.mem_cons_of_mem _ member))
    rw [flushKeys, rest]
    cases found : s.store? truthy held key with
    | none => simp [found]
    | some d =>
      have passes := noError key (List.mem_cons_self ..) d found
      simp [found, passes]

theorem flushKeys_raises {raises : Nat → Bool} {keys : List String} {key : String} {d : Nat} (member : key ∈ keys)
    (found : s.store? truthy held key = some d) (error : raises d = true) :
    (s.flushKeys truthy held raises keys).2 = none := by
  induction keys with
  | nil => cases member
  | cons first keys ih =>
    rw [flushKeys]
    rcases List.mem_cons.mp member with rfl | later
    · simp [found, error]
    · cases s.store? truthy held first with
      | none => simp [ih later]
      | some other =>
        dsimp only
        split
        · rfl
        · exact ih later

theorem flushKeys_first (raises : Nat → Bool) (keys : List String) :
    (s.flushKeys truthy held raises keys).1 <+: keys.filterMap (s.store? truthy held) := by
  induction keys with
  | nil => exact List.prefix_refl _
  | cons key keys ih =>
    rw [flushKeys]
    cases found : s.store? truthy held key with
    | none => simpa [found] using ih
    | some d =>
      simp only [List.filterMap_cons, found]
      split
      · exact List.nil_prefix
      · exact (List.prefix_cons_inj d).mpr ih

theorem store?_some {key : String} {d : Nat} :
    s.store? truthy held key = some d ↔
      s.stores.get? key = some d ∧ s.isLive held d = true ∧ truthy (s.dicts d).contents = true := by
  rw [store?, Option.filter_eq_some_iff, Bool.and_eq_true]

/-- Under one name at most one dict is synced. -/
theorem WellFormed.filter_stores (well : WellFormed s) {keys : List String} (distinct : keys.Nodup) (name : String) :
    (keys.filterMap (s.store? truthy held)).filter (fun d => (s.dicts d).filename = name) =
      if name ∈ keys then (s.store? truthy held name).toList else [] := by
  induction keys with
  | nil => rfl
  | cons key keys ih =>
    obtain ⟨apart, distinct⟩ := List.nodup_cons.mp distinct
    have rest := ih distinct
    cases found : s.store? truthy held key with
    | none =>
      rw [List.filterMap_cons_none found, rest]
      by_cases same : name = key
      · simp [same, found, apart]
      · simp [same]
    | some d =>
      have named := (well.named key d (store?_some.mp found).1).2
      rw [List.filterMap_cons_some found, List.filter_cons, named, rest]
      by_cases same : name = key
      · simp [same, found, apart]
      · simp [same, Ne.symm same]

variable (truthy held) in
theorem WellFormed.filter_syncs (well : WellFormed s) (running : s.thread = .running) (name : String) :
    (s.syncs truthy held quiet).filter (fun d => (s.dicts d).filename = name) = (s.store? truthy held name).toList := by
  have quietly : ∀ key ∈ s.stores.keys, ∀ d, s.store? truthy held key = some d → quiet d = false :=
    fun _ _ _ _ => rfl
  rw [syncs, if_pos running, flushKeys_quiet quietly]
  refine (well.filter_stores s.stores.nodup name).trans ?_
  split
  · rfl
  · rename_i absent
    have nothing : s.store? truthy held name = none := by
      refine Option.eq_none_iff_forall_ne_some.mpr (fun d found => ?_)
      exact absent (Dict.mem_keys_iff.mpr ⟨d, (store?_some.mp found).1⟩)
    rw [nothing]
    rfl

/-- The last sync under a name decides what the file holds. -/
theorem foldl_sync (ds : List Nat) (files : String → Option α) (name : String) :
    ds.foldl s.sync files name =
      (((ds.filter (fun d => (s.dicts d).filename = name)).getLast?).map (fun d => (s.dicts d).contents)).or (files name) := by
  induction ds generalizing files with
  | nil => rfl
  | cons d ds ih =>
    rw [List.foldl_cons, ih, List.filter_cons]
    by_cases same : (s.dicts d).filename = name
    · cases rest : ds.filter (fun d => (s.dicts d).filename = name) with
      | nil => simp [same, sync]
      | cons e es =>
        have last := List.getLast?_eq_some_getLast (List.cons_ne_nil e es)
        simp [same, last, List.getLast?_cons_cons]
    · simp [same, sync, Ne.symm same]

theorem foldl_erase (d : Dict String Nat) (drop : List String) (key : String) :
    (drop.foldl Dict.erase d).get? key = if key ∈ drop then none else d.get? key := by
  induction drop generalizing d with
  | nil => rfl
  | cons first drop ih =>
    rw [List.foldl_cons, ih]
    by_cases same : key = first
    · simp [same]
    · simp [same, Dict.get?_erase_of_ne _ same]

variable (held) in
/-- The container of MEMORY is found while it is not empty. -/
theorem Registered.found (registered : Registered s) (filled : s.MemoryFilled truthy) {m : SaverDicts}
    (given : s.memory = some m) {e : Nat × Nat} (member : e ∈ m.numbered) :
    s.store? truthy held (checkpointFile e.1) = some e.2 := by
  refine store?_some.mpr ⟨registered.memory m given e member, ?_, filled m given e member⟩
  have inside := numbered_mem_all member
  simp [isLive, given, inside]

variable (truthy held s) in
theorem tick_frame (raises : Nat → Bool) :
    (s.tick truthy held raises).memory = s.memory ∧ (s.tick truthy held raises).dicts = s.dicts ∧
      (s.tick truthy held raises).dictCount = s.dictCount ∧
      (s.tick truthy held raises).files = (s.syncs truthy held raises).foldl s.sync s.files := by
  unfold tick
  split
  · split <;> exact ⟨rfl, rfl, rfl, rfl⟩
  · exact ⟨rfl, rfl, rfl, rfl⟩

theorem tick_stores (raises : Nat → Bool) {key : String} {d : Nat}
    (found : (s.tick truthy held raises).stores.get? key = some d) : s.stores.get? key = some d := by
  unfold tick at found
  split at found
  · split at found
    · exact found
    · rw [foldl_erase] at found
      split at found
      · cases found
      · exact found
  · exact found

variable (truthy held s) in
theorem tick_thread (raises : Nat → Bool) :
    (s.tick truthy held raises).thread = s.thread ∨ (s.tick truthy held raises).thread = .died := by
  unfold tick
  split
  · split
    · exact Or.inr rfl
    · exact Or.inl rfl
  · exact Or.inl rfl

theorem WellFormed.tick (well : WellFormed s) (raises : Nat → Bool) : WellFormed (s.tick truthy held raises) := by
  obtain ⟨memory, dicts, count, _⟩ := tick_frame truthy held s raises
  constructor
  case named =>
    intro key d found
    rw [dicts, count]
    exact well.named key d (tick_stores raises found)
  case made =>
    intro m given e member
    rw [dicts, count]
    exact well.made m (memory ▸ given) e member
  case started =>
    intro made
    rcases tick_thread truthy held s raises with same | died
    · rw [same]
      exact well.started (memory ▸ made)
    · simp [died]
  case unregistered =>
    intro unmade number member
    refine Option.eq_none_iff_forall_ne_some.mpr (fun d found => ?_)
    have absent := well.unregistered (memory ▸ unmade) number member
    cases absent.symm.trans (tick_stores raises found)

/-- A tick leaves the registry right when no `sync` raises and no container of MEMORY is empty. -/
theorem registered_tick (raises : Nat → Bool) :
    Registered (s.tick truthy held raises) ↔ Registered s ∧ Harmless truthy held s (.tick raises) := by
  by_cases running : s.thread = .running
  · by_cases noError : ∀ key d, s.store? truthy held key = some d → raises d = false
    · have flushed := flushKeys_quiet (fun key (_ : key ∈ s.stores.keys) d found => noError key d found)
      have ticked : s.tick truthy held raises =
          { s with
            files := (s.syncs truthy held raises).foldl s.sync s.files
            stores := (s.stores.keys.filter (fun key => (s.store? truthy held key).isNone)).foldl Dict.erase s.stores } := by
        rw [tick, if_pos running, flushed]
      rw [ticked]
      constructor
      · rintro ⟨alive, memory⟩
        have kept : ∀ m, s.memory = some m → ∀ e ∈ m.numbered, s.stores.get? (checkpointFile e.1) = some e.2 ∧
            s.store? truthy held (checkpointFile e.1) ≠ none := by
          intro m given e member
          have found := memory m given e member
          rw [foldl_erase] at found
          split at found
          · cases found
          · rename_i stays
            refine ⟨found, fun nothing => stays (List.mem_filter.mpr ⟨Dict.mem_keys_iff.mpr ⟨_, found⟩, ?_⟩)⟩
            rw [nothing]
            rfl
        refine ⟨⟨alive, fun m given e member => (kept m given e member).1⟩, fun _ => ⟨noError, fun m given e member => ?_⟩⟩
        obtain ⟨found, some⟩ := kept m given e member
        obtain ⟨d, here⟩ := Option.ne_none_iff_exists'.mp some
        obtain ⟨same, _, filled⟩ := store?_some.mp here
        cases found.symm.trans same
        exact filled
      · rintro ⟨registered, harmless⟩
        refine ⟨registered.alive, fun m given e member => ?_⟩
        have found := registered.found held (harmless running).2 given member
        rw [foldl_erase, if_neg (by simp [found])]
        exact registered.memory m given e member
    · push Not at noError
      obtain ⟨key, d, found, error⟩ := noError
      have inside : key ∈ s.stores.keys := Dict.mem_keys_iff.mpr ⟨d, (store?_some.mp found).1⟩
      have raised := flushKeys_raises inside found (by simpa using error)
      have died : (s.tick truthy held raises).thread = .died := by
        rw [tick, if_pos running, raised]
      constructor
      · exact fun after => absurd died after.alive
      · exact fun before => absurd ((before.2 running).1 key d found) error
  · have same : s.tick truthy held raises =
        { s with files := (s.syncs truthy held raises).foldl s.sync s.files } := by
      rw [tick, if_neg running]
    rw [same]
    constructor
    · exact fun after => ⟨⟨after.alive, after.memory⟩, fun here => absurd here running⟩
    · exact fun before => ⟨before.1.alive, before.1.memory⟩

/-- The next tick is right when the registry is, and no container of MEMORY is empty. -/
theorem WellFormed.syncsMemory_iff (well : WellFormed s) (made : s.memory ≠ none) :
    SyncsMemory truthy held s ↔ Registered s ∧ s.MemoryFilled truthy := by
  obtain ⟨m, given⟩ := Option.ne_none_iff_exists'.mp made
  constructor
  · intro syncs
    have running : s.thread = .running := by
      by_contra stopped
      obtain ⟨synced, _, _⟩ := syncs m given (1, m.storage) (List.mem_cons_self ..)
      rw [Persistence.syncs, if_neg stopped] at synced
      cases synced
    have found : ∀ m, s.memory = some m → ∀ e ∈ m.numbered, s.store? truthy held (checkpointFile e.1) = some e.2 := by
      intro m given e member
      obtain ⟨synced, _, _⟩ := syncs m given e member
      rw [well.filter_syncs truthy held running] at synced
      cases stored : s.store? truthy held (checkpointFile e.1) with
      | none =>
        rw [stored] at synced
        cases synced
      | some d =>
        rw [stored] at synced
        exact congrArg some (List.singleton_inj.mp synced)
    refine ⟨⟨by simp [running], fun m given e member => ?_⟩, fun m given e member => ?_⟩
    · exact (store?_some.mp (found m given e member)).1
    · exact (store?_some.mp (found m given e member)).2.2
  · rintro ⟨registered, filled⟩ m given e member
    have running : s.thread = .running := by
      have started := well.started made
      have alive := registered.alive
      cases thread : s.thread with
      | notStarted => exact absurd thread started
      | running => rfl
      | died => exact absurd thread alive
    have found := registered.found held filled given member
    have synced := well.filter_syncs truthy held running (checkpointFile e.1)
    rw [found, Option.toList_some] at synced
    refine ⟨synced, ?_, fun raises d among named => ?_⟩
    · rw [(tick_frame truthy held s quiet).2.2.2, foldl_sync, synced]
      rfl
    · rw [Persistence.syncs, if_pos running] at among
      obtain ⟨key, _, here⟩ := List.mem_filterMap.mp ((flushKeys_first raises _).subset among)
      have key_named := (well.named key d (store?_some.mp here).1).2
      rw [← key_named, named, found] at here
      exact (Option.some.inj here).symm

end Flush

section Run

variable {truthy : α → Bool} {held : Bool} {s : Persistence α}

theorem WellFormed.write (well : WellFormed s) (number : Nat) (contents : α) : WellFormed (s.write number contents) := by
  unfold Persistence.write
  split
  · exact well
  · rename_i d _
    have filename : ∀ i, (if i = d then { s.dicts d with contents := contents } else s.dicts i).filename =
        (s.dicts i).filename := by
      intro i
      split
      · rename_i same
        rw [same]
      · rfl
    exact
      { named := fun key i found => by simpa only [filename] using well.named key i found
        made := fun m given e member => by simpa only [filename] using well.made m given e member
        started := well.started
        unregistered := well.unregistered }

theorem registered_write (number : Nat) (contents : α) : Registered (s.write number contents) ↔ Registered s := by
  unfold Persistence.write
  split
  · exact Iff.rfl
  · exact ⟨fun after => ⟨after.alive, after.memory⟩, fun before => ⟨before.alive, before.memory⟩⟩

variable [Inhabited α]

theorem WellFormed.after (well : WellFormed s) (op : FlushOp α) : WellFormed (s.after truthy held op) := by
  cases op with
  | checkpointer unpackHook loads loads' => exact well.checkpointer unpackHook loads loads'
  | drop saver => exact { well with }
  | write number contents => exact well.write number contents
  | tick raises => exact well.tick raises

theorem registered_after (well : WellFormed s) (op : FlushOp α) :
    Registered (s.after truthy held op) ↔ Registered s ∧ Harmless truthy held s op := by
  cases op with
  | checkpointer unpackHook loads loads' => exact registered_checkpointer well unpackHook loads loads'
  | drop saver =>
    exact ⟨fun after => ⟨⟨after.alive, after.memory⟩, trivial⟩, fun before => ⟨before.1.alive, before.1.memory⟩⟩
  | write number contents => exact (registered_write number contents).trans (and_true _).symm.to_iff
  | tick raises => exact registered_tick raises

theorem WellFormed.run (well : WellFormed s) (ops : List (FlushOp α)) : WellFormed (s.run truthy held ops) := by
  induction ops generalizing s with
  | nil => exact well
  | cons op ops ih => exact ih (well.after op)

/-- A tick does for MEMORY what it should just when no saver has got an
`unpack_hook` so far, no `sync` has raised, and no tick finds or has found a
container of MEMORY empty. -/
theorem flush_syncs_memory_iff (loaded : Loaded s) (ops : List (FlushOp α)) (made : (s.run truthy held ops).memory ≠ none) :
    SyncsMemory truthy held (s.run truthy held ops) ↔
      (∀ before op after, ops = before ++ op :: after → Harmless truthy held (s.run truthy held before) op) ∧
        (s.run truthy held ops).MemoryFilled truthy := by
  rw [(loaded.wellFormed.run ops).syncsMemory_iff made]
  refine and_congr_left (fun _ => ?_)
  exact Serial.foldl_iff (fun well => WellFormed.after well _) (fun well => registered_after well _) loaded.wellFormed
    loaded.registered ops

end Run

section Hooked

def nothingStored : Persistence Nat := ⟨.empty, .notStarted, fun _ => ⟨"", 0⟩, 0, [], fun _ => none, none, []⟩

theorem nothingStored_loaded : Loaded nothingStored where
  named key d found := by cases found
  unmade := rfl
  alive := by decide
  unregistered _ _ := rfl

def isFilled (contents : Nat) : Bool := contents ≠ 0

def fillMemory : List (FlushOp Nat) :=
  [.checkpointer false (fun _ => true) (fun _ => true), .write 1 5, .write 2 5, .write 3 5]

/-- After MEMORY has been filled, a saver with an `unpack_hook` is made. -/
def hookAfter : List (FlushOp Nat) :=
  fillMemory ++ [.tick quiet, .checkpointer true (fun _ => true) (fun _ => true), .write 1 7]

/-- The next tick writes what has been loaded into the new saver over the file of MEMORY. -/
theorem not_syncs_memory :
    ¬ ∀ (truthy : Nat → Bool) (held : Bool) (s : Persistence Nat), Loaded s → ∀ ops : List (FlushOp Nat),
      SyncsMemory truthy held (s.run truthy held ops) := by
  intro always
  have synced := (always isFilled true nothingStored nothingStored_loaded hookAfter ⟨0, 1, 2⟩ rfl (1, 0)
    (List.mem_cons_self ..)).1
  have other : ((nothingStored.run isFilled true hookAfter).syncs isFilled true quiet).filter
      (fun d => ((nothingStored.run isFilled true hookAfter).dicts d).filename = checkpointFile 1) = [3] := by
    decide +kernel
  cases synced.symm.trans other

/-- After MEMORY has been filled, a tick writes it, and one container is written to again. -/
def writeAfter : List (FlushOp Nat) := fillMemory ++ [.tick quiet] ++ [.write 1 6]

theorem fillMemory_filled : (nothingStored.run isFilled true fillMemory).MemoryFilled isFilled := by
  intro m given e member
  cases given
  simp only [SaverDicts.numbered, List.mem_cons, List.not_mem_nil, or_false] at member
  rcases member with rfl | rfl | rfl <;> rfl

theorem writeAfter_filled : (nothingStored.run isFilled true writeAfter).MemoryFilled isFilled := by
  intro m given e member
  cases given
  simp only [SaverDicts.numbered, List.mem_cons, List.not_mem_nil, or_false] at member
  rcases member with rfl | rfl | rfl <;> decide +kernel

theorem syncs_memory_written :
    (nothingStored.run isFilled true writeAfter).files (checkpointFile 1) = some 5 ∧
      SyncsMemory isFilled true (nothingStored.run isFilled true writeAfter) := by
  have made : (nothingStored.run isFilled true writeAfter).memory = some ⟨0, 1, 2⟩ := rfl
  refine ⟨by decide +kernel, (flush_syncs_memory_iff nothingStored_loaded writeAfter (by simp [made])).mpr
    ⟨?_, writeAfter_filled⟩⟩
  refine Serial.forall_split_concat.mpr ⟨Serial.forall_split_concat.mpr ⟨fun before op after split => ?_, ?_⟩, trivial⟩
  · have member : op ∈ fillMemory := split ▸ List.mem_append_right before (List.mem_cons_self ..)
    simp only [fillMemory, List.mem_cons, List.not_mem_nil, or_false] at member
    rcases member with rfl | rfl | rfl | rfl
    · rfl
    all_goals trivial
  · exact fun _ => ⟨fun _ _ _ => rfl, fillMemory_filled⟩

end Hooked

end Persistence

end InmemRuntime
