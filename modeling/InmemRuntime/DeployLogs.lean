import InmemRuntime.DeployRuns

namespace InmemRuntime

namespace Deploy

/-- Where the reader of the operation at `i` waits. -/
def ServerCall.readerAt? (i : Nat) : ServerCall → Option ReaderPoint
  | .reader j point => if j = i then some point else none
  | _ => none

/-- After an earlier log run, the operation is the one of a log whose reader waits at one of these points. -/
def HasLog (decode : List UInt8 → String) (loads : String → Except PyError PyVal)
    (origin : EventLoop DeployLog DeployCall) (op : DeployOperation) (points : List ReaderPoint) : Prop :=
  ∃ h, (deployCalls decode loads).Reaches BeforeTerminal origin ⟨h, points.map .reader⟩ ∧ h.op = op

/-- The operation of the server at `j`, if there is one by now, has gone on from an earlier log run. -/
def LogsAt (decode : List UInt8 → String) (loads : String → Except PyError PyVal)
    (origin : EventLoop DeployLog DeployCall) (j : Nat) (server : DeployServer) (waiting : List ServerCall) : Prop :=
  ∀ d, server.deploys[j]? = some d →
    ∃ points, HasLog decode loads origin d.op points ∧ points.Perm (waiting.filterMap (ServerCall.readerAt? j))

section Logs

variable {decode : List UInt8 → String} {loads : String → Except PyError PyVal} {origin : EventLoop DeployLog DeployCall}
  {op : DeployOperation} {d : Deployment} {points : List ReaderPoint}

theorem hasLog_start : HasLog decode loads ⟨.init, []⟩ .init [.reading] :=
  ⟨.init, .call .start rfl, rfl⟩

/-- Something that runs beside the reader. -/
theorem HasLog.beside (log : HasLog decode loads origin op points) (step : Beside)
    (met : step.event? = none ∨ op.status = .running) : HasLog decode loads origin (step.apply op) points := by
  obtain ⟨h, reach, rfl⟩ := log
  have waits : (points.map DeployCall.reader ++ [.beside step])[(points.map DeployCall.reader).length]? = some (.beside step) :=
    List.getElem?_concat_length
  have called : (deployCalls decode loads).Reaches BeforeTerminal origin
      ⟨h, points.map DeployCall.reader ++ [.beside step]⟩ := .call reach rfl
  have turned := called.turn _ lineHeard waits met
  have after : (deployCalls decode loads).advance ⟨h, points.map DeployCall.reader ++ [.beside step]⟩
      (points.map DeployCall.reader).length (.beside step) lineHeard =
      ⟨h.record (step.apply h.op), points.map DeployCall.reader⟩ := by
    rw [Coroutines.advance]
    simp [deployCalls]
  exact ⟨_, after ▸ turned, rfl⟩

theorem HasLog.drain (log : HasLog decode loads origin op points) (line : Option (List UInt8)) :
    HasLog decode loads origin (drainStderr decode op line).1 points := by
  cases line with
  | none => exact log.beside .stderrEnds (.inl rfl)
  | some rawLine => exact log.beside (.stderrLine (decode rawLine)) (.inl rfl)

/-- The watchdog logs only while the operation runs. -/
theorem HasLog.watch (log : HasLog decode loads origin d.op points) (unwatched : Unwatched d) (timedOut : Bool) (point : WatchdogPoint) :
    HasLog decode loads origin (timeoutWatchdog d timedOut point).1.op points := by
  have warns (watched : d.op.timeoutDone ≠ true) (message : String) (signal : Signal) :
      HasLog decode loads origin (d.warn message signal).op points := by
    refine log.beside (.timeoutLog message) (.inr ?_)
    by_contra ended
    exact watched (unwatched ended)
  cases point with
  | sleeping =>
    rw [timeoutWatchdog]
    split
    · exact log
    · rename_i watched
      split
      · exact warns watched _ _
      · exact log
  | waiting =>
    rw [timeoutWatchdog]
    split
    · exact log
    · rename_i watched
      exact warns (fun done => watched (.inl done)) _ _

/-- A turn of the reader. -/
theorem HasLog.read {point : ReaderPoint} (log : HasLog decode loads origin d.op [point]) (running : d.op.status = .running)
    (heard : Heard) :
    HasLog decode loads origin (d.read decode loads point heard).1.op (d.read decode loads point heard).2.points := by
  have hears (exitCode : Int) :
      HasLog decode loads origin (readSubprocess decode loads d.op point { heard with beside := [], exitCode := exitCode }).1
        (readSubprocess decode loads d.op point { heard with beside := [], exitCode := exitCode }).2.points := by
    obtain ⟨h, reach, same⟩ := log
    have turned := reach.turn 0 { heard with exitCode := exitCode } rfl (show h.op.status = .running from same ▸ running)
    rw [← same]
    refine ⟨h.record (readSubprocess decode loads h.op point { heard with beside := [], exitCode := exitCode }).1, ?_, rfl⟩
    have after : (deployCalls decode loads).advance ⟨h, [point].map DeployCall.reader⟩ 0 (.reader point)
        { heard with exitCode := exitCode } =
        ⟨h.record (readSubprocess decode loads h.op point { heard with beside := [], exitCode := exitCode }).1,
          (readSubprocess decode loads h.op point { heard with beside := [], exitCode := exitCode }).2.points.map
            DeployCall.reader⟩ := by
      rw [Coroutines.advance]
      simp [deployCalls]
    exact after ▸ turned
  unfold Deployment.read
  dsimp only
  split
  · split
    · exact hears _
    · exact log
  · exact hears _

end Logs

section Runs

variable {isDigit : Char → Bool} {str : PyVal → String} {decode : List UInt8 → String}
  {loads : String → Except PyError PyVal} {server : DeployServer} {k : ServerCall} {others waiting : List ServerCall}
  {origin : EventLoop DeployLog DeployCall} {reply : ServerReply} {i j : Nat}

theorem LogsAt.perm (logs : LogsAt decode loads origin j server others) (same : others.Perm waiting) :
    LogsAt decode loads origin j server waiting := by
  intro d at_j
  obtain ⟨points, log, waits⟩ := logs d at_j
  exact ⟨points, log, waits.trans (same.filterMap _)⟩

/-- A call that is no reader comes, or ends. -/
theorem LogsAt.of_readers (logs : LogsAt decode loads origin j server others)
    (same : ∀ i, waiting.filterMap (ServerCall.readerAt? i) = others.filterMap (ServerCall.readerAt? i)) :
    LogsAt decode loads origin j server waiting := by
  intro d at_j
  rw [same]
  exact logs d at_j

theorem readerAt?_none (noReader : k.reader? = none) (i : Nat) : k.readerAt? i = none := by
  cases k with
  | reader => cases noReader
  | _ => rfl

theorem filterMap_readerAt? (i : Nat) {calls : List ServerCall} (noReaders : ∀ j ∈ calls, j.reader? = none) :
    (calls ++ others).filterMap (ServerCall.readerAt? i) = others.filterMap (ServerCall.readerAt? i) := by
  rw [List.filterMap_append, List.filterMap_eq_nil_iff.mpr (fun j member => readerAt?_none (noReaders j member) i),
    List.nil_append]

/-- A turn of a task that is no reader. -/
theorem LogsAt.work (logs : LogsAt decode loads origin j server others) {κ ρ : Type} {call : κ → ServerCall}
    {task : Deployment → Deployment × Turn κ ρ} (noReader : ∀ point, (call point).reader? = none)
    (works : ∀ d points, server.deploys[i]? = some d → HasLog decode loads origin d.op points →
      HasLog decode loads origin (task d).1.op points) :
    LogsAt decode loads origin j (server.work i call task).1 ((server.work i call task).2.points ++ others) := by
  have calm : ∀ k ∈ (server.work i call task).2.points, k.reader? = none := by
    unfold DeployServer.work
    split
    · exact fun k member => absurd member List.not_mem_nil
    · intro k member
      rw [Turn.points_map] at member
      obtain ⟨point, _, rfl⟩ := List.mem_map.mp member
      exact noReader point
  intro d' at_j
  rw [filterMap_readerAt? j calm]
  unfold DeployServer.work at at_j
  split at at_j
  · exact logs d' at_j
  · rename_i d at_i
    rw [update_deploys, Option.map_eq_some_iff] at at_j
    obtain ⟨e, stood, same⟩ := at_j
    obtain ⟨points, log, waits⟩ := logs e stood
    refine ⟨points, ?_, waits⟩
    split at same
    · rename_i here
      subst here
      rw [← same]
      rw [Option.some.inj (stood.symm.trans at_i)] at log
      exact works d points at_i log
    · exact same ▸ log

theorem LogsAt.tail (logs : LogsAt decode loads origin j server (k :: others)) (noReader : k.reader? = none) :
    LogsAt decode loads origin j server others :=
  logs.of_readers (fun i => (List.filterMap_cons_none (readerAt?_none noReader i)).symm)

theorem LogsAt.drainer (logs : LogsAt decode loads origin j server others) (line : Option (List UInt8)) :
    LogsAt decode loads origin j
      (server.work i (fun (_ : Unit) => .drainer i) (fun d =>
        ({ d with op := (drainStderr decode d.op line).1 }, (drainStderr decode d.op line).2))).1
      ((server.work i (fun (_ : Unit) => .drainer i) (fun d =>
        ({ d with op := (drainStderr decode d.op line).1 }, (drainStderr decode d.op line).2))).2.points ++ others) :=
  logs.work (fun _ => rfl) (fun _ _ _ log => log.drain line)

theorem LogsAt.watchdog (logs : LogsAt decode loads origin j server others) (unwatched : ∀ d ∈ server.deploys, Unwatched d)
    (timedOut : Bool) (point : WatchdogPoint) :
    LogsAt decode loads origin j (server.work i (.watchdog i) (fun d => timeoutWatchdog d timedOut point)).1
      ((server.work i (.watchdog i) (fun d => timeoutWatchdog d timedOut point)).2.points ++ others) :=
  logs.work (fun _ => rfl) (fun d _ at_i log => log.watch (unwatched d (List.mem_of_getElem? at_i)) timedOut point)

theorem LogsAt.exits (logs : LogsAt decode loads origin j server others) (code : Int) :
    LogsAt decode loads origin j (server.work i (fun (_ : Unit) => .exits i code) (fun d => (d.exit code, .finished ()))).1
      ((server.work i (fun (_ : Unit) => .exits i code) (fun d => (d.exit code, .finished ()))).2.points ++ others) :=
  logs.work (fun _ => rfl) (fun _ _ _ log => log)

theorem LogsAt.reader {point : ReaderPoint} (logs : LogsAt decode loads origin j server (.reader i point :: others))
    (supervised : Supervised server (.reader i point :: others)) (heard : Heard) :
    LogsAt decode loads origin j (server.work i (.reader i) (fun d => d.read decode loads point heard)).1
      ((server.work i (.reader i) (fun d => d.read decode loads point heard)).2.points ++ others) := by
  have distinct := supervised.readers
  rw [List.filterMap_cons_some (show ServerCall.reader? (.reader i point) = some i from rfl)] at distinct
  have alone : others.filterMap (ServerCall.readerAt? i) = [] := by
    rw [List.filterMap_eq_nil_iff]
    intro k member
    cases k with
    | reader i' point' =>
      have apart : i' ≠ i := by
        rintro rfl
        exact (List.nodup_cons.mp distinct).1 (mem_readers member)
      exact if_neg apart
    | _ => rfl
  obtain ⟨d, at_i, running⟩ := supervised.reading i point List.mem_cons_self
  have goes : server.work i (.reader i) (fun d => d.read decode loads point heard) =
      (server.update i (fun _ => (d.read decode loads point heard).1),
        (d.read decode loads point heard).2.map (.reader i) (fun _ => .ok none)) := by
    rw [DeployServer.work, at_i]
  rw [goes]
  intro d' at_j
  dsimp only at at_j ⊢
  rw [update_deploys, Option.map_eq_some_iff] at at_j
  obtain ⟨e, stood, same⟩ := at_j
  obtain ⟨points, log, waits⟩ := logs e stood
  rw [Turn.points_map, List.filterMap_append, List.filterMap_map]
  split at same
  · rename_i here
    subst here
    rw [Option.some.inj (stood.symm.trans at_i)] at log
    rw [List.filterMap_cons_some (show ServerCall.readerAt? i (.reader i point) = some point from if_pos rfl), alone,
      List.perm_singleton] at waits
    rw [waits] at log
    refine ⟨_, same ▸ log.read running heard, ?_⟩
    have own : ServerCall.readerAt? i ∘ ServerCall.reader i = some := funext (fun _ => if_pos rfl)
    rw [alone, List.append_nil, own, List.filterMap_some]
  · rename_i apart
    have other : ServerCall.readerAt? j ∘ ServerCall.reader i = fun _ => none := funext (fun _ => if_neg apart)
    refine ⟨points, same ▸ log, ?_⟩
    rw [other, List.filterMap_eq_nil_iff.mpr (fun _ _ => rfl), List.nil_append]
    rwa [List.filterMap_cons_none (show ServerCall.readerAt? j (.reader i point) = none from if_neg apart)] at waits

/-- A new operation begins a log. -/
theorem LogsAt.launch (logs : LogsAt decode loads origin j server others) (supervised : Supervised server others)
    (begins : origin = ⟨.init, []⟩ ∨ j < server.deploys.length) (operationId : String) (now : Time) (command : List String) :
    LogsAt decode loads origin j (server.launch (.start operationId now command))
      (.reader server.deploys.length .reading :: others) := by
  intro d at_j
  by_cases new : j = server.deploys.length
  · obtain rfl : origin = ⟨.init, []⟩ := begins.resolve_right (by omega)
    subst new
    have fresh : (server.launch (.start operationId now command)).deploys[server.deploys.length]? =
        some (.start operationId now command) := List.getElem?_concat_length
    cases fresh.symm.trans at_j
    have unread : others.filterMap (ServerCall.readerAt? server.deploys.length) = [] := by
      rw [List.filterMap_eq_nil_iff]
      intro k member
      cases k with
      | reader i point =>
        obtain ⟨e, at_i, _⟩ := supervised.reading i point member
        exact if_neg (Nat.ne_of_lt (List.getElem?_eq_some_iff.mp at_i).1)
      | _ => rfl
    refine ⟨[.reading], hasLog_start, ?_⟩
    rw [List.filterMap_cons_some (show ServerCall.readerAt? _ (.reader server.deploys.length .reading) = some .reading from
      if_pos rfl), unread]
  · have old : server.deploys[j]? = some d := by
      rw [DeployServer.launch] at at_j
      have inside := (List.getElem?_eq_some_iff.mp at_j).1
      rw [List.length_append, List.length_singleton] at inside
      rwa [List.getElem?_append_left (by omega)] at at_j
    obtain ⟨points, log, waits⟩ := logs d old
    refine ⟨points, log, ?_⟩
    rwa [List.filterMap_cons_none
      (show ServerCall.readerAt? j (.reader server.deploys.length .reading) = none from if_neg (Ne.symm new))]

theorem LogsAt.start (logs : LogsAt decode loads origin j server others) (supervised : Supervised server others)
    (begins : origin = ⟨.init, []⟩ ∨ j < server.deploys.length) {out : ServerTurn} (starts : Starts server out) : LogsAt decode loads origin j out.1 (out.2.points ++ others) := by
  cases starts with
  | waits => exact logs.of_readers (fun _ => rfl)
  | ends => exact logs
  | launches => exact (logs.launch supervised begins _ _ _).of_readers (fun _ => rfl)

variable {allowed : DeployServer → List ServerCall → ServerCall → ServerReply → Prop}
  {l l' : EventLoop DeployServer ServerCall} {m : EventLoop DeployLog DeployCall}

theorem logsAt_of_reaches (supervised : Supervised l.state l.waiting)
    (begins : origin = ⟨.init, []⟩ ∨ j < l.state.deploys.length) (logs : LogsAt decode loads origin j l.state l.waiting)
    (later : (deployServer isDigit str decode loads).Reaches allowed l l') :
    (j < l.state.deploys.length → j < l'.state.deploys.length) ∧ LogsAt decode loads origin j l'.state l'.waiting := by
  have kept := later.invariant (P := fun server waiting => Supervised server waiting ∧
      (j < l.state.deploys.length → j < server.deploys.length) ∧ LogsAt decode loads origin j server waiting)
    (fun same held => ⟨held.1.perm same, held.2.1, held.2.2.perm same⟩) (fun {server waiting k} held fresh => ?_)
    (fun {server others k reply} held _ => ?_) ⟨supervised, fun stands => stands, logs⟩
  · exact kept.2
  · refine ⟨supervised_made held.1 fresh, held.2.1, held.2.2.of_readers (fun j => ?_)⟩
    have noReader : k.reader? = none := by
      cases k with
      | reader => cases fresh
      | _ => rfl
    exact List.filterMap_cons_none (readerAt?_none noReader j)
  · obtain ⟨supervised, stays, logs⟩ := held
    obtain ⟨after, moved⟩ := kept_turn isDigit str decode loads reply supervised
    refine ⟨after, fun stands => ?_, ?_⟩
    · obtain ⟨_, at_j, _⟩ := moved j _ (List.getElem?_eq_getElem (stays stands))
      exact (List.getElem?_eq_some_iff.mp at_j).1
    have rest := supervised.tail
    cases k with
    | start p => exact (logs.tail rfl).start rest (begins.imp_right stays) (startDeploy_starts p)
    | reader i point => exact logs.reader supervised reply.heard
    | drainer i => exact (logs.tail rfl).drainer reply.stderrLine
    | watchdog i point => exact (logs.tail rfl).watchdog rest.unwatched reply.timedOut point
    | exits i code => exact (logs.tail rfl).exits code

/-- A log in step with the operation of the server at `j`. -/
structure LogOf (l : EventLoop DeployServer ServerCall) (j : Nat) (m : EventLoop DeployLog DeployCall) : Prop where
  op : ∃ d, l.state.deploys[j]? = some d ∧ m.state.op = d.op
  readers : ∃ points : List ReaderPoint, m.waiting = points.map .reader ∧ points.Perm (l.waiting.filterMap (ServerCall.readerAt? j))

theorem logOf_of_logsAt (stands : j < l.state.deploys.length) (logs : LogsAt decode loads origin j l.state l.waiting) :
    ∃ m, (deployCalls decode loads).Reaches BeforeTerminal origin m ∧ LogOf l j m := by
  have at_j : l.state.deploys[j]? = some l.state.deploys[j] := List.getElem?_eq_getElem stands
  obtain ⟨points, ⟨h, logged, same⟩, waits⟩ := logs _ at_j
  exact ⟨_, logged, ⟨_, at_j, same⟩, points, rfl, waits⟩

/-- In every interleaving of all requests, readers, drainers, watchdogs and
exits, each operation of the server is in step with a log run in which events are
appended only before the terminal status; and as the server goes on, so does any
such run: what was appended stays, and nothing is appended to what has ended. -/
theorem deploys_log_before_terminal (begun : (deployServer isDigit str decode loads).Reaches allowed ⟨.init, []⟩ l)
    (stands : j < l.state.deploys.length) :
    (∃ m, (deployCalls decode loads).Reaches BeforeTerminal ⟨.init, []⟩ m ∧ LogOf l j m) ∧
      ∀ m, (deployCalls decode loads).Reaches BeforeTerminal ⟨.init, []⟩ m → LogOf l j m →
        ∀ l', (deployServer isDigit str decode loads).Reaches allowed l l' →
          ∃ m', (deployCalls decode loads).Reaches BeforeTerminal m m' ∧ LogOf l' j m' ∧ Grows m.state m'.state := by
  have supervised := supervised_of_reaches begun
  constructor
  · have atStart : (deployServer isDigit str decode loads).Reaches allowed ⟨.init, []⟩ ⟨.init, []⟩ := .start
    have noLogs : LogsAt decode loads ⟨.init, []⟩ j DeployServer.init [] := fun _ at_j => by cases at_j
    have logs := (logsAt_of_reaches (supervised_of_reaches atStart) (.inl rfl) noLogs begun).2
    exact logOf_of_logsAt stands logs
  · rintro ⟨h, _⟩ logged ⟨⟨d, at_j, same⟩, points, rfl, waits⟩ l' later
    have logs : LogsAt decode loads ⟨h, points.map .reader⟩ j l.state l.waiting := by
      intro d' at_j'
      cases at_j.symm.trans at_j'
      exact ⟨points, ⟨h, .start, same⟩, waits⟩
    obtain ⟨stays, logs'⟩ := logsAt_of_reaches supervised (.inr stands) logs later
    obtain ⟨m', goesOn, inStep⟩ := logOf_of_logsAt (stays stands) logs'
    have order := (grows_of_reaches inOrder_init logged).1
    exact ⟨m', goesOn, inStep, (grows_of_reaches order goesOn).2⟩

end Runs

theorem deploying_performed : (plainServer.performAll ⟨.init, []⟩ ((deployOnce 0).take 6)).isSome = true := rfl

/-- The operation has been started, and runs. -/
def deploying : EventLoop DeployServer ServerCall :=
  (plainServer.performAll ⟨.init, []⟩ ((deployOnce 0).take 6)).get deploying_performed

/-- The log of an operation that runs is in step with it, and goes on to its end. -/
theorem deploys_log_before_terminal_once :
    ∃ m m' : EventLoop DeployLog DeployCall,
      (deployCalls asciiLine loadsNothing).Reaches BeforeTerminal ⟨.init, []⟩ m ∧ LogOf deploying 0 m ∧
        m.state.op.status = .running ∧ (deployCalls asciiLine loadsNothing).Reaches BeforeTerminal m m' ∧
        LogOf deployedOnce 0 m' ∧ m'.state.op.status = .succeeded := by
  have begun : plainServer.Reaches Coroutines.unrestricted ⟨.init, []⟩ deploying :=
    Coroutines.reaches_of_performAll (Option.some_get deploying_performed).symm
  have finished : (plainServer.performAll deploying ((deployOnce 0).drop 6)).isSome = true := rfl
  have later : plainServer.Reaches Coroutines.unrestricted deploying deployedOnce :=
    .performAll .start (Option.some_get finished).symm
  obtain ⟨⟨m, logged, inStep⟩, goesOn⟩ := deploys_log_before_terminal begun (j := 0) (by decide)
  obtain ⟨m', further, inStep', _⟩ := goesOn m logged inStep deployedOnce later
  obtain ⟨d, at_0, same⟩ := inStep.op
  obtain ⟨d', at_0', same'⟩ := inStep'.op
  refine ⟨m, m', logged, inStep, ?_, further, inStep', ?_⟩
  · rw [same]
    cases at_0
    rfl
  · rw [same']
    cases at_0'
    rfl

end Deploy

end InmemRuntime
