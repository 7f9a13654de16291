import AfroPay.Liquidity

/-! What one step of the rebalancer can do: to the check or the report that takes it, and
to the table. An update of a row never changes what the guard queries see of it. -/
namespace AfroPay.Liquidity
open NumberText Runs

/-- What the guards let through, and that they let it through. -/
theorem checkRebalanceGuards_allowed {settings : Settings} {corridor : CorridorConfig} {requestedAmount : ℚ}
    {dailyCount dailyVolume sourceAmount destinationAmount : Nat} {latest : Option Row}
    (allowed : checkRebalanceGuards settings corridor requestedAmount dailyCount dailyVolume latest =
      .allowed sourceAmount destinationAmount) :
    let amount := min requestedAmount (settings.maxDailyAmount - (dailyVolume : ℚ) / 10 ^ 7)
    (dailyCount : ℚ) < settings.maxRebalances ∧ latest.any corridor.reverses = false ∧ 0 < amount ∧
      sourceAmount = (toFixed 7 (amount / settings.rate corridor.fromAsset corridor.toAsset)).toNat ∧
      destinationAmount = (toFixed 7 amount).toNat := by
  unfold checkRebalanceGuards at allowed
  split at allowed
  · cases allowed
  split at allowed
  · cases allowed
  simp only at allowed
  split at allowed
  · cases allowed
  · rename_i count latest' amount
    cases allowed
    exact ⟨not_le.mp count, by simpa using latest', not_le.mp amount, rfl, rfl⟩

theorem conclude_cases {settings : Settings} {corridor : CorridorConfig} {guard : Guard} {next : Phase}
    (concluded : guard.conclude settings corridor = some next) :
    (∃ reason, next = .skipping reason) ∨
      ∃ dailyCount dailyVolume latest sourceAmount destinationAmount,
        guard.dailyCount = some dailyCount ∧ guard.dailyVolume = some dailyVolume ∧ guard.latest = some latest ∧
        checkRebalanceGuards settings corridor guard.requestedAmount dailyCount dailyVolume latest =
          .allowed sourceAmount destinationAmount ∧
        next = .planning sourceAmount destinationAmount guard.reason := by
  unfold Guard.conclude at concluded
  split at concluded
  · rename_i dailyCount dailyVolume latest count volume last
    split at concluded
    · cases concluded
      exact .inl ⟨_, rfl⟩
    · rename_i sourceAmount destinationAmount allowed
      split at concluded
      · cases concluded
        exact .inl ⟨_, rfl⟩
      · cases concluded
        exact .inr ⟨dailyCount, dailyVolume, latest, sourceAmount, destinationAmount, count, volume, last, allowed, rfl⟩
  · cases concluded

/-- Between the start of its guard queries and the creation of its row. -/
def Phase.isOpen : Phase → Bool
  | .guarding _ | .planning _ _ _ => true
  | _ => false

/-- The row that a check has created. -/
def Phase.holds : Phase → Option Nat
  | .planned id _ _ | .executing id _ _ | .dispatched id | .catching id _ | .failing id => some id
  | _ => none

/-- The reserve is below the threshold. -/
def reserveLow (reserveAmount forecast : ℚ) : Prop :=
  ¬ (forecast ≤ 0 ∨ forecast * liquidityThresholdRatio ≤ reserveAmount)

instance (reserveAmount forecast : ℚ) : Decidable (reserveLow reserveAmount forecast) :=
  inferInstanceAs (Decidable (¬ _))

/-- Everything an action can do for its check. -/
inductive Moves (settings : Settings) (now : Nat) (rows : List Row) (corridor : CorridorConfig) :
    Phase → Action → Effect → Prop where
  | opens (reserveAmount forecast requestedAmount : ℚ) (reason : Reason) (low : reserveLow reserveAmount forecast) :
      Moves settings now rows corridor .observing (.observe reserveAmount forecast)
        ⟨.guarding ⟨requestedAmount, reason, now, none, none, none⟩, rows, []⟩
  | counts (guard : Guard) :
      Moves settings now rows corridor (.guarding guard) .readCount
        ⟨.guarding { guard with
          dailyCount := some (dailyAmounts rows corridor.name (startOfDay guard.startedAt)).length }, rows, []⟩
  | sums (guard : Guard) :
      Moves settings now rows corridor (.guarding guard) .readVolume
        ⟨.guarding { guard with
          dailyVolume := some (dailyAmounts rows corridor.name (startOfDay guard.startedAt)).sum }, rows, []⟩
  | looks (guard : Guard) (row : Option Row) (latest : isLatest rows (corridor.recent guard.startedAt) row = true) :
      Moves settings now rows corridor (.guarding guard) (.readLatest row)
        ⟨.guarding { guard with latest := some row }, rows, []⟩
  | plans (guard : Guard) (sourceAmount destinationAmount : Nat)
      (concluded : guard.conclude settings corridor = some (.planning sourceAmount destinationAmount guard.reason)) :
      Moves settings now rows corridor (.guarding guard) .conclude
        ⟨.planning sourceAmount destinationAmount guard.reason, rows, []⟩
  | skips (reason : Reason) (error : Option String) (next : Phase) (closed : next = .returned ∨ next = .threw) :
      Moves settings now rows corridor (.skipping reason) (.write error)
        ⟨next, rows ++ [skippedRow corridor now reason], []⟩
  | creates (sourceAmount destinationAmount : Nat) (reason : Reason) (error : Option String) (next : Phase)
      (created : next = .planned rows.length sourceAmount destinationAmount ∨ next = .threw) :
      Moves settings now rows corridor (.planning sourceAmount destinationAmount reason) (.write error)
        ⟨next, rows ++ [plannedRow corridor now sourceAmount destinationAmount reason], []⟩
  | marks (id sourceAmount destinationAmount : Nat) (error : Option String) (next : Phase)
      (marked : next = .executing id sourceAmount destinationAmount ∨ ∃ message, next = .catching id message) :
      Moves settings now rows corridor (.planned id sourceAmount destinationAmount) (.write error)
        ⟨next, updateStatus rows id markExecuting, []⟩
  | pushes (id sourceAmount destinationAmount : Nat) (error : Option String) (next : Phase)
      (pushed : next = .dispatched id ∨ ∃ message, next = .catching id message) :
      Moves settings now rows corridor (.executing id sourceAmount destinationAmount) (.execute error)
        ⟨next, rows, [rebalanceJob settings corridor id sourceAmount destinationAmount]⟩
  | fails (id : Nat) (message : String) (error : Option String) (next : Phase)
      (failed : next = .failing id ∨ next = .threw) :
      Moves settings now rows corridor (.catching id message) (.write error)
        ⟨next, updateStatus rows id (markFailed (some message)), []⟩
  | rests (phase next : Phase) (action : Action) (closed : next.isOpen = false)
      (holds : next.holds = none ∨ next.holds = phase.holds ∧ ∃ id message, next = .catching id message) :
      Moves settings now rows corridor phase action ⟨next, rows, []⟩

private theorem onError_rests (phase : Phase) (message : String) :
    (phase.onError message).isOpen = false ∧
      ((phase.onError message).holds = none ∨
        (phase.onError message).holds = phase.holds ∧ ∃ id message', phase.onError message = .catching id message') := by
  cases phase <;> simp [Phase.onError, Phase.isOpen, Phase.holds]

theorem checkCorridor_moves {settings : Settings} {now : Nat} {rows : List Row} {corridor : CorridorConfig}
    {phase : Phase} {action : Action} {effect : Effect}
    (moved : checkCorridor settings now rows corridor phase action = some effect) :
    Moves settings now rows corridor phase action effect := by
  unfold checkCorridor at moved
  split at moved
  · -- The reserve is compared with the threshold.
    simp only at moved
    split at moved
    · cases moved
      exact .rests _ _ _ rfl (.inl rfl)
    · rename_i low
      cases moved
      exact .opens _ _ _ _ low
  · split at moved
    · cases moved
    · cases moved
      exact .counts _
  · split at moved
    · cases moved
    · cases moved
      exact .sums _
  · split at moved
    · cases moved
    split at moved
    · rename_i latest
      cases moved
      exact .looks _ _ latest
    · cases moved
  · obtain ⟨next, concluded, rfl⟩ := Option.map_eq_some_iff.mp moved
    obtain ⟨reason, rfl⟩ | ⟨_, _, _, sourceAmount, destinationAmount, -, -, -, -, rfl⟩ := conclude_cases concluded
    · exact .rests _ _ _ rfl (.inl rfl)
    · exact .plans _ _ _ concluded
  · rename_i reason error
    cases moved
    cases error
    · exact .skips _ _ _ (.inl rfl)
    · exact .skips _ _ _ (.inr rfl)
  · rename_i error
    cases moved
    cases error
    · exact .creates _ _ _ _ _ (.inl rfl)
    · exact .creates _ _ _ _ _ (.inr rfl)
  · rename_i error
    cases moved
    cases error
    · exact .marks _ _ _ _ _ (.inl rfl)
    · exact .marks _ _ _ _ _ (.inr ⟨_, rfl⟩)
  · rename_i error
    cases moved
    cases error
    · exact .pushes _ _ _ _ _ (.inl rfl)
    · exact .pushes _ _ _ _ _ (.inr ⟨_, rfl⟩)
  · cases moved
    exact .rests _ _ _ rfl (.inl rfl)
  · rename_i error
    cases moved
    cases error
    · exact .fails _ _ _ _ (.inl rfl)
    · exact .fails _ _ _ _ (.inr rfl)
  · cases moved
    exact .rests _ _ _ rfl (.inl rfl)
  · cases moved
  · cases moved
  · cases moved
    exact .rests _ _ _ (onError_rests _ _).1 (onError_rests _ _).2
  · cases moved

/-- Everything an action can do for its report. -/
inductive ReportMoves (now : Nat) (rows : List Row) (report : Report) :
    ReportAction → ReportPhase → List Row → Prop where
  | finds (finding : report.phase = .finding) :
      ReportMoves now rows report .findUnique (judge report.result rows[report.rebalanceId]?) rows
  | records (answered : Bool) (next : ReportPhase) (updating : report.phase = .updating) (row : Row)
      (found : rows[report.rebalanceId]? = some row) (settled : next ≠ .finding ∧ next ≠ .updating) :
      ReportMoves now rows report (.update answered) next
        (updateStatus rows report.rebalanceId (recordResult report.result now))
  | ends (action : ReportAction) (answer : Answer) (action_ne : action ≠ .findUnique) :
      ReportMoves now rows report action (.ended answer) rows

theorem recordExecutionResult_moves {now : Nat} {rows rows' : List Row} {report : Report} {action : ReportAction}
    {next : ReportPhase} (moved : recordExecutionResult now rows report action = some (next, rows')) :
    ReportMoves now rows report action next rows' := by
  cases action with
  | findUnique =>
    simp only [recordExecutionResult] at moved
    split at moved
    · rename_i finding
      cases moved
      exact .finds finding
    · cases moved
  | update answered =>
    simp only [recordExecutionResult] at moved
    split at moved
    · rename_i updating
      split at moved
      · cases moved
        exact .ends _ _ (by simp)
      · rename_i row found
        split at moved
        · cases moved
          exact .ends _ _ (by simp)
        · cases moved
          exact .records answered _ updating row found (by cases answered <;> simp)
    · cases moved
  | audit =>
    simp only [recordExecutionResult] at moved
    split at moved
    · cases moved
      exact .ends _ _ (by simp)
    · cases moved
  | fail =>
    simp only [recordExecutionResult] at moved
    split at moved
    · cases moved
    · cases moved
      exact .ends _ _ (by simp)

/-- A step of a check, seen from the whole state. -/
theorem step_check (settings : Settings) (s : State) (id : Nat) (action : Action) :
    step settings s (.check id action) = s ∨ ∃ check effect, s.checks[id]? = some check ∧
      Moves settings s.now s.rows check.corridor check.phase action effect ∧
      step settings s (.check id action) =
        { s with rows := effect.rows, jobs := s.jobs ++ effect.jobs,
                 checks := s.checks.set id { check with phase := effect.phase } } := by
  simp only [step]
  split
  · exact .inl rfl
  · rename_i check found
    split
    · exact .inl rfl
    · rename_i effect moved
      exact .inr ⟨check, effect, found, checkCorridor_moves moved, rfl⟩

/-- A step of a report, seen from the whole state. -/
theorem step_report (settings : Settings) (s : State) (id : Nat) (action : ReportAction) :
    step settings s (.report id action) = s ∨ ∃ report next rows, s.reports[id]? = some report ∧
      ReportMoves s.now s.rows report action next rows ∧
      step settings s (.report id action) =
        { s with rows, reports := s.reports.set id { report with phase := next } } := by
  simp only [step]
  split
  · exact .inl rfl
  · rename_i report found
    split
    · exact .inl rfl
    · rename_i next rows moved
      exact .inr ⟨report, next, rows, found, recordExecutionResult_moves moved, rfl⟩

/-- What the guard queries see of a row. -/
structure Booking where
  corridor : String
  fromAsset : String
  toAsset : String
  amount : Nat
  createdAt : Nat
  skipped : Bool
  deriving DecidableEq

def Row.booking (row : Row) : Booking :=
  ⟨row.corridor, row.fromAsset, row.toAsset, row.amount, row.createdAt, row.status = .skipped⟩

def State.bookings (s : State) : List Booking := s.rows.map Row.booking

def bookingOf (corridor : CorridorConfig) (now amount : Nat) (skipped : Bool) : Booking :=
  ⟨corridor.name, corridor.fromAsset, corridor.toAsset, amount, now, skipped⟩

@[simp] theorem skippedRow_booking (corridor : CorridorConfig) (now : Nat) (reason : Reason) :
    (skippedRow corridor now reason).booking = bookingOf corridor now 0 true := rfl

@[simp] theorem plannedRow_booking (corridor : CorridorConfig) (now sourceAmount destinationAmount : Nat)
    (reason : Reason) :
    (plannedRow corridor now sourceAmount destinationAmount reason).booking =
      bookingOf corridor now destinationAmount false := rfl

/-- The row is there and was not skipped. -/
def Booked (rows : List Row) (id : Nat) : Prop := ∃ row, rows[id]? = some row ∧ row.status ≠ .skipped

/-- An update that leaves alone what the queries see of a booked row. -/
def KeepsBooking (update : Row → Row) : Prop :=
  ∀ row, row.status ≠ .skipped → (update row).booking = row.booking

theorem markExecuting_keeps : KeepsBooking markExecuting := fun row booked => by
  simp [markExecuting, Row.booking, booked]

theorem markFailed_keeps (failureReason : Option String) : KeepsBooking (markFailed failureReason) := fun row booked => by
  simp [markFailed, Row.booking, booked]

theorem recordResult_keeps (result : LiquidityExecutionResult) (now : Nat) : KeepsBooking (recordResult result now) :=
  fun row booked => by
    unfold recordResult
    split
    · simp [markExecuted, Row.booking, booked]
    · exact markFailed_keeps result.error row booked

theorem bookings_update {rows : List Row} {id : Nat} {update : Row → Row} (keeps : KeepsBooking update)
    (booked : Booked rows id) : (updateStatus rows id update).map Row.booking = rows.map Row.booking := by
  obtain ⟨row, found, status⟩ := booked
  apply List.ext_getElem?
  intro i
  rw [updateStatus, List.getElem?_map, List.getElem?_map, List.getElem?_modify]
  by_cases same : id = i
  · subst same
    simp [found, keeps row status]
  · simp [same]

/-- A booked row stays booked as long as bookings are only added. -/
theorem booked_of_bookings {rows rows' : List Row} (kept : rows.map Row.booking <+: rows'.map Row.booking) {id : Nat}
    (booked : Booked rows id) : Booked rows' id := by
  obtain ⟨row, found, status⟩ := booked
  have here : (rows'.map Row.booking)[id]? = some row.booking := by
    obtain ⟨more, longer⟩ := kept
    rw [← longer, List.getElem?_append_left (by simpa using (List.getElem?_eq_some_iff.mp found).1), List.getElem?_map,
      found]
    rfl
  rw [List.getElem?_map, Option.map_eq_some_iff] at here
  obtain ⟨row', found', same⟩ := here
  refine ⟨row', found', fun skipped => status ?_⟩
  have flags := congrArg Booking.skipped same
  simpa [Row.booking, skipped] using flags.symm

/-- Whoever is about to update a row has a booked one. -/
structure Live (s : State) : Prop where
  checks : ∀ (i : Nat) (check : Check) (id : Nat), s.checks[i]? = some check → check.phase.holds = some id →
    Booked s.rows id
  reports : ∀ (i : Nat) (report : Report), s.reports[i]? = some report → report.phase = .updating → Booked s.rows report.rebalanceId

theorem moves_bookings {settings : Settings} {now : Nat} {rows : List Row} {corridor : CorridorConfig} {phase : Phase}
    {action : Action} {effect : Effect} (moves : Moves settings now rows corridor phase action effect)
    (live : ∀ id, phase.holds = some id → Booked rows id) :
    rows.map Row.booking <+: effect.rows.map Row.booking := by
  cases moves with
  | skips => simp
  | creates => simp
  | marks id => exact (bookings_update markExecuting_keeps (live id rfl)).symm ▸ List.prefix_rfl
  | fails id message => exact (bookings_update (markFailed_keeps _) (live id rfl)).symm ▸ List.prefix_rfl
  | _ => exact List.prefix_rfl

theorem moves_live {settings : Settings} {now : Nat} {rows : List Row} {corridor : CorridorConfig} {phase : Phase}
    {action : Action} {effect : Effect} (moves : Moves settings now rows corridor phase action effect)
    (live : ∀ id, phase.holds = some id → Booked rows id) :
    ∀ id, effect.phase.holds = some id → Booked effect.rows id := by
  have kept := moves_bookings moves live
  intro id holds
  cases moves with
  | opens | counts | sums | looks | plans => cases holds
  | skips reason error next closed => rcases closed with rfl | rfl <;> cases holds
  | creates sourceAmount destinationAmount reason error next created =>
    rcases created with rfl | rfl
    · cases holds
      exact ⟨plannedRow corridor now sourceAmount destinationAmount reason, by simp, by simp [plannedRow]⟩
    · cases holds
  | marks held sourceAmount destinationAmount error next marked =>
    have same : some held = some id := by rcases marked with rfl | ⟨message, rfl⟩ <;> exact holds
    exact booked_of_bookings kept (live id same)
  | pushes held sourceAmount destinationAmount error next pushed =>
    have same : some held = some id := by rcases pushed with rfl | ⟨message, rfl⟩ <;> exact holds
    exact live id same
  | fails held message error next failed =>
    rcases failed with rfl | rfl
    · exact booked_of_bookings kept (live id holds)
    · cases holds
  | rests _ next _ closed keeps =>
    rcases keeps with gone | ⟨same, -⟩
    · rw [gone] at holds
      cases holds
    · exact live id (same ▸ holds)

theorem reportMoves_bookings {now : Nat} {rows rows' : List Row} {report : Report} {action : ReportAction}
    {next : ReportPhase} (moves : ReportMoves now rows report action next rows')
    (live : report.phase = .updating → Booked rows report.rebalanceId) :
    rows'.map Row.booking = rows.map Row.booking := by
  cases moves with
  | finds => rfl
  | records answered next updating => exact bookings_update (recordResult_keeps _ _) (live updating)
  | ends => rfl

theorem judge_updating {result : LiquidityExecutionResult} {found : Option Row} (updating : judge result found = .updating) :
    ∃ row, found = some row ∧ row.status = .executing ∧ (result.success = true → falsy result.txHash = false) := by
  unfold judge at updating
  split at updating
  · cases updating
  · rename_i row
    split at updating
    · cases updating
    split at updating
    · cases updating
    split at updating
    · cases updating
    · rename_i executing hash
      exact ⟨row, rfl, not_not.mp executing, fun success => by simpa [success] using hash⟩

theorem reportMoves_live {now : Nat} {rows rows' : List Row} {report : Report} {action : ReportAction}
    {next : ReportPhase} (moves : ReportMoves now rows report action next rows') (updating : next = .updating) :
    Booked rows' report.rebalanceId := by
  cases moves with
  | finds =>
    obtain ⟨row, found, executing, -⟩ := judge_updating updating
    exact ⟨row, found, by simp [executing]⟩
  | records answered next updating' row found settled => exact absurd updating settled.2
  | ends => cases updating

theorem step_live (settings : Settings) (s : State) (event : Event) (live : Live s) : Live (step settings s event) := by
  cases event with
  | tick ms => exact ⟨live.checks, live.reports⟩
  | runHourlyCheck =>
    simp only [step]
    split
    · exact live
    · refine ⟨fun i check id found holds => ?_, live.reports⟩
      rw [List.getElem?_append] at found
      split at found
      · exact live.checks i check id found holds
      · obtain ⟨corridor, -, rfl⟩ := List.mem_map.mp (List.mem_of_getElem? found)
        cases holds
  | releaseLock =>
    simp only [step]
    split
    · split
      · exact ⟨live.checks, live.reports⟩
      · exact live
    · exact live
  | check i action =>
    obtain idle | ⟨check, effect, found, moves, stepped⟩ := step_check settings s i action
    · rw [idle]
      exact live
    · have held := live.checks i check
      have kept := moves_bookings moves (fun id => held id found)
      rw [stepped]
      refine ⟨fun j other id there holds => ?_, fun j report there updating => ?_⟩
      · rw [List.getElem?_set] at there
        split at there
        · split at there
          · cases there
            exact moves_live moves (fun id => held id found) id holds
          · cases there
        · exact booked_of_bookings kept (live.checks j other id there holds)
      · exact booked_of_bookings kept (live.reports j report there updating)
  | recordExecutionResult rebalanceId result =>
    refine ⟨live.checks, fun j report there updating => ?_⟩
    simp only [step, List.getElem?_append] at there
    split at there
    · exact live.reports j report there updating
    · have same := List.mem_singleton.mp (List.mem_of_getElem? there)
      rw [same] at updating
      cases updating
  | report i action =>
    obtain idle | ⟨report, next, rows, found, moves, stepped⟩ := step_report settings s i action
    · rw [idle]
      exact live
    · have same := reportMoves_bookings moves (live.reports i report found)
      have kept : s.rows.map Row.booking <+: rows.map Row.booking := ⟨[], by rw [List.append_nil, same]⟩
      rw [stepped]
      refine ⟨fun j check id there holds => booked_of_bookings kept (live.checks j check id there holds),
        fun j other there updating => ?_⟩
      rw [List.getElem?_set] at there
      split at there
      · split at there
        · cases there
          have booked := reportMoves_live moves updating
          exact booked
        · cases there
      · exact booked_of_bookings kept (live.reports j other there updating)

/-- One of the guard queries of a check answers. -/
inductive Answers (rows : List Row) (corridor : CorridorConfig) (guard : Guard) : Guard → Prop where
  | count : Answers rows corridor guard
      { guard with dailyCount := some (dailyAmounts rows corridor.name (startOfDay guard.startedAt)).length }
  | volume : Answers rows corridor guard
      { guard with dailyVolume := some (dailyAmounts rows corridor.name (startOfDay guard.startedAt)).sum }
  | latest (row : Option Row) (latest : isLatest rows (corridor.recent guard.startedAt) row = true) :
      Answers rows corridor guard { guard with latest := some row }

/-- The state after a check has moved to another phase. -/
def State.become (s : State) (i : Nat) (check : Check) (phase : Phase) : State :=
  { s with checks := s.checks.set i { check with phase } }

/-- The checks after one of them has moved: itself, or another as it was. -/
theorem become_cases {s : State} {i j : Nat} {check other : Check} {next : Phase}
    (there : (s.become i check next).checks[j]? = some other) :
    other = { check with phase := next } ∨ s.checks[j]? = some other := by
  simp only [State.become, List.getElem?_set] at there
  split at there
  · split at there
    · exact .inl (Option.some.inj there).symm
    · cases there
  · exact .inr there

/-- A step as the guards see it: the bookings, and the checks between their queries and
their row. -/
inductive GuardStep (settings : Settings) (s : State) : Event → State → Prop where
  /-- No check opens or goes on; at most a skipped row is added. -/
  | quiet (event : Event) (s' : State) (later : s.now ≤ s'.now)
      (checks : ∀ (i : Nat) (check : Check), s'.checks[i]? = some check → check.phase.isOpen = true →
        s.checks[i]? = some check)
      (bookings : s'.bookings = s.bookings ∨
        ∃ corridor, s'.bookings = s.bookings ++ [bookingOf corridor s.now 0 true]) :
      GuardStep settings s event s'
  | opens (i : Nat) (check : Check) (reserveAmount forecast requestedAmount : ℚ) (reason : Reason)
      (found : s.checks[i]? = some check) (observing : check.phase = .observing)
      (low : reserveLow reserveAmount forecast) :
      GuardStep settings s (.check i (.observe reserveAmount forecast))
        (s.become i check (.guarding ⟨requestedAmount, reason, s.now, none, none, none⟩))
  | reads (i : Nat) (check : Check) (action : Action) (guard guard' : Guard) (found : s.checks[i]? = some check)
      (guarding : check.phase = .guarding guard) (answers : Answers s.rows check.corridor guard guard') :
      GuardStep settings s (.check i action)
        (s.become i check (.guarding guard'))
  | plans (i : Nat) (check : Check) (action : Action) (guard : Guard) (sourceAmount destinationAmount : Nat)
      (found : s.checks[i]? = some check) (guarding : check.phase = .guarding guard)
      (concluded : guard.conclude settings check.corridor =
        some (.planning sourceAmount destinationAmount guard.reason)) :
      GuardStep settings s (.check i action)
        (s.become i check (.planning sourceAmount destinationAmount guard.reason))
  | creates (i : Nat) (check : Check) (action : Action) (sourceAmount destinationAmount : Nat) (reason : Reason)
      (s' : State) (found : s.checks[i]? = some check)
      (planning : check.phase = .planning sourceAmount destinationAmount reason) (now : s'.now = s.now)
      (checks : ∀ (j : Nat) (other : Check), s'.checks[j]? = some other → other.phase.isOpen = true →
        j ≠ i ∧ s.checks[j]? = some other)
      (bookings : s'.bookings = s.bookings ++ [bookingOf check.corridor s.now destinationAmount false]) :
      GuardStep settings s (.check i action) s'

/-- After a step of one check to a closed phase the open ones are the other ones. -/
private theorem open_of_set {checks : List Check} {i j : Nat} {check other : Check} (closed : check.phase.isOpen = false)
    (there : (checks.set i check)[j]? = some other) (isOpen : other.phase.isOpen = true) :
    j ≠ i ∧ checks[j]? = some other := by
  rw [List.getElem?_set] at there
  split at there
  · split at there
    · cases there
      rw [closed] at isOpen
      cases isOpen
    · cases there
  · rename_i differs
    exact ⟨fun same => differs same.symm, there⟩

theorem check_guardStep {settings : Settings} {s : State} (live : Live s) {i : Nat} {check : Check} {action : Action}
    {effect : Effect} (found : s.checks[i]? = some check)
    (moves : Moves settings s.now s.rows check.corridor check.phase action effect) :
    GuardStep settings s (.check i action)
      { s with rows := effect.rows, jobs := s.jobs ++ effect.jobs,
               checks := s.checks.set i { check with phase := effect.phase } } := by
  have held := fun id => live.checks i check id found
  obtain ⟨run, corridor, phase⟩ := check
  have quiet (next : Phase) (rows : List Row) (jobs : List WorkerJobs.Api.LiquidityRebalanceJob)
      (closed : next.isOpen = false) (kept : rows.map Row.booking = s.rows.map Row.booking ∨
        ∃ corridor, rows.map Row.booking = s.rows.map Row.booking ++ [bookingOf corridor s.now 0 true]) :
      GuardStep settings s (.check i action)
        { s with rows, jobs := s.jobs ++ jobs, checks := s.checks.set i ⟨run, corridor, next⟩ } := by
    have isClosed : (⟨run, corridor, next⟩ : Check).phase.isOpen = false := closed
    exact .quiet _ _ le_rfl (fun j other there isOpen => (open_of_set isClosed there isOpen).2) kept
  have jobs (next : Phase) : s.become i ⟨run, corridor, phase⟩ next =
      { s with jobs := s.jobs ++ [], checks := s.checks.set i ⟨run, corridor, next⟩ } := by
    rw [List.append_nil]
    rfl
  cases moves with
  | opens reserveAmount forecast requestedAmount reason low =>
    exact jobs _ ▸ .opens i _ reserveAmount forecast requestedAmount reason found rfl low
  | counts guard => exact jobs _ ▸ .reads i _ _ guard _ found rfl .count
  | sums guard => exact jobs _ ▸ .reads i _ _ guard _ found rfl .volume
  | looks guard row latest => exact jobs _ ▸ .reads i _ _ guard _ found rfl (.latest row latest)
  | plans guard sourceAmount destinationAmount concluded =>
    exact jobs _ ▸ .plans i _ _ guard sourceAmount destinationAmount found rfl concluded
  | skips reason error next closed =>
    refine quiet next _ [] ?_ (.inr ⟨corridor, by simp⟩)
    rcases closed with rfl | rfl <;> rfl
  | creates sourceAmount destinationAmount reason error next created =>
    refine .creates i _ _ sourceAmount destinationAmount reason _ found rfl rfl ?_ (by simp [State.bookings])
    refine fun j other => open_of_set ?_
    rcases created with rfl | rfl <;> rfl
  | marks id sourceAmount destinationAmount error next marked =>
    refine quiet next _ [] ?_ (.inl (bookings_update markExecuting_keeps (held id rfl)))
    rcases marked with rfl | ⟨message, rfl⟩ <;> rfl
  | pushes id sourceAmount destinationAmount error next pushed =>
    refine quiet next _ _ ?_ (.inl rfl)
    rcases pushed with rfl | ⟨message, rfl⟩ <;> rfl
  | fails id message error next failed =>
    refine quiet next _ [] ?_ (.inl (bookings_update (markFailed_keeps _) (held id rfl)))
    rcases failed with rfl | rfl <;> rfl
  | rests _ next _ closed keeps => exact quiet next _ [] closed (.inl rfl)

theorem step_guardStep (settings : Settings) (s : State) (live : Live s) (event : Event) :
    GuardStep settings s event (step settings s event) := by
  have idle : GuardStep settings s event s := .quiet _ _ le_rfl (fun _ _ there _ => there) (.inl rfl)
  cases event with
  | tick ms => exact .quiet _ _ (Nat.le_add_right _ _) (fun _ _ there _ => there) (.inl rfl)
  | runHourlyCheck =>
    simp only [step]
    split
    · exact idle
    · refine .quiet _ _ le_rfl (fun i check there isOpen => ?_) (.inl rfl)
      rw [List.getElem?_append] at there
      split at there
      · exact there
      · obtain ⟨corridor, -, rfl⟩ := List.mem_map.mp (List.mem_of_getElem? there)
        cases isOpen
  | releaseLock =>
    simp only [step]
    split
    · split
      · exact .quiet _ _ le_rfl (fun _ _ there _ => there) (.inl rfl)
      · exact idle
    · exact idle
  | check i action =>
    obtain same | ⟨check, effect, found, moves, stepped⟩ := step_check settings s i action
    · rw [same]
      exact idle
    · rw [stepped]
      exact check_guardStep live found moves
  | recordExecutionResult rebalanceId result =>
    exact .quiet _ _ le_rfl (fun _ _ there _ => there) (.inl rfl)
  | report i action =>
    obtain same | ⟨report, next, rows, found, moves, stepped⟩ := step_report settings s i action
    · rw [same]
      exact idle
    · rw [stepped]
      exact .quiet _ _ le_rfl (fun _ _ there _ => there)
        (.inl (reportMoves_bookings moves (live.reports i report found)))

/-- A check starts its guard queries only while no check of a related corridor is between
its own and its row. -/
def StartsAlone (related : CorridorConfig → CorridorConfig → Prop) (s : State) : Event → Prop
  | .check i (.observe reserveAmount forecast) =>
    ∀ check other, s.checks[i]? = some check → check.phase = .observing → reserveLow reserveAmount forecast →
      other ∈ s.checks → related check.corridor other.corridor → other.phase.isOpen = false
  | _ => True

/-- No two open checks are of related corridors. -/
def OpenAlone (related : CorridorConfig → CorridorConfig → Prop) (s : State) : Prop :=
  ∀ (i j : Nat) (check other : Check), s.checks[i]? = some check → s.checks[j]? = some other →
    check.phase.isOpen = true → other.phase.isOpen = true → related check.corridor other.corridor → j = i

theorem openAlone_start (related : CorridorConfig → CorridorConfig → Prop) (now : Nat) :
    OpenAlone related (State.start now) := by
  simp [OpenAlone, State.start]

variable {related : CorridorConfig → CorridorConfig → Prop}

/-- A check may open, or go on, when no other open check is related to it. -/
private theorem openAlone_become (symmetric : ∀ a b, related a b → related b a) {s : State}
    (alone : OpenAlone related s) {i : Nat} {check : Check} {next : Phase}
    (only : ∀ (j : Nat) (other : Check), s.checks[j]? = some other → other.phase.isOpen = true →
      related check.corridor other.corridor → j = i) : OpenAlone related (s.become i check next) := by
  intro k j first other foundFirst foundOther openFirst openOther same
  simp only [State.become, List.getElem?_set] at foundFirst foundOther
  split at foundFirst
  · rename_i mine
    subst mine
    split at foundFirst
    · cases foundFirst
      split at foundOther
      · exact Eq.symm ‹_›
      · exact only j other foundOther openOther same
    · cases foundFirst
  · split at foundOther
    · rename_i mine
      subst mine
      split at foundOther
      · cases foundOther
        exact (only k first foundFirst openFirst (symmetric _ _ same)).symm
      · cases foundOther
    · exact alone k j first other foundFirst foundOther openFirst openOther same

theorem step_openAlone (symmetric : ∀ a b, related a b → related b a) {settings : Settings} {s s' : State} {event : Event}
    (stepped : GuardStep settings s event s') (starts : StartsAlone related s event) (alone : OpenAlone related s) :
    OpenAlone related s' := by
  cases stepped with
  | quiet _ _ later checks bookings =>
    intro i j check other found there isOpen isOpen' same
    exact alone i j check other (checks i check found isOpen) (checks j other there isOpen') isOpen isOpen' same
  | opens i check reserveAmount forecast requestedAmount reason found observing low =>
    refine openAlone_become symmetric alone fun j other there isOpen same => ?_
    have closed := starts check other found observing low (List.mem_of_getElem? there) same
    rw [closed] at isOpen
    cases isOpen
  | reads i check action guard guard' found guarding answers =>
    exact openAlone_become symmetric alone fun j other there isOpen =>
      alone i j check other found there (by rw [guarding]; rfl) isOpen
  | plans i check action guard sourceAmount destinationAmount found guarding concluded =>
    exact openAlone_become symmetric alone fun j other there isOpen =>
      alone i j check other found there (by rw [guarding]; rfl) isOpen
  | creates i check action sourceAmount destinationAmount reason _ found planning now checks bookings =>
    intro k j first other foundFirst foundOther openFirst openOther same
    exact alone k j first other (checks k first foundFirst openFirst).2 (checks j other foundOther openOther).2 openFirst
      openOther same

end AfroPay.Liquidity
