import AfroPay.NumberText
import AfroPay.Runs
import AfroPay.WorkerJobs

/-! The liquidity rebalancer. An hourly run takes the lock and starts a check of every
corridor; the checks go on side by side, each from one awaited call to the next, and every
call may fail. Workers report results while checks are under way. `Promise.all` gives up at
the first check that throws, and the lock goes back while the others are still going. -/
namespace AfroPay.Liquidity
open NumberText Runs
open Compliance (Network)

def dayMs : Nat := 24 * 60 * 60 * 1000

def liquidityThresholdRatio : ℚ := 1 / 5

def liquidityDefaultMaxDailyRebalances : ℚ := 3

def liquidityDefaultMaxDailyAmount : ℚ := 100000

/-- An entry of `LIQUIDITY_CORRIDORS`: the entry is split at its colons, and entries with an
empty part are dropped. -/
structure CorridorConfig where
  fromAsset : String
  toAsset : String
  fromAsset_valid : fromAsset ≠ "" ∧ ':' ∉ fromAsset.toList
  toAsset_valid : toAsset ≠ "" ∧ ':' ∉ toAsset.toList
  deriving DecidableEq

def CorridorConfig.name (corridor : CorridorConfig) : String := corridor.fromAsset ++ ":" ++ corridor.toAsset

/-- What the service reads from its environment. `getPositiveEnvNumber` falls back on a
positive default when a number is missing or not positive. -/
structure Settings where
  corridors : List CorridorConfig
  maxRebalances : ℚ
  maxDailyAmount : ℚ
  rate : String → String → ℚ
  treasuryPublicKey : Option String
  getReserveAccount : String → Option String
  getIssuer : String → Option String
  network : Network
  maxRebalances_pos : 0 < maxRebalances
  maxDailyAmount_pos : 0 < maxDailyAmount
  rate_pos : ∀ fromAsset toAsset, 0 < rate fromAsset toAsset

/-- The default limits, one rate, and every account and issuer configured. -/
def Settings.configured (corridors : List CorridorConfig) (rate : ℚ) (rate_pos : 0 < rate) : Settings where
  corridors := corridors
  maxRebalances := liquidityDefaultMaxDailyRebalances
  maxDailyAmount := liquidityDefaultMaxDailyAmount
  rate := fun _ _ => rate
  treasuryPublicKey := some "GTREASURY"
  getReserveAccount := fun _ => some "GRESERVE"
  getIssuer := fun _ => some "GISSUER"
  network := .testnet
  maxRebalances_pos := by decide +kernel
  maxDailyAmount_pos := by decide +kernel
  rate_pos := fun _ _ => rate_pos

theorem usdc_valid : "USDC" ≠ "" ∧ ':' ∉ "USDC".toList := by decide +kernel

theorem ngn_valid : "NGN" ≠ "" ∧ ':' ∉ "NGN".toList := by decide +kernel

/-- The rate at which the default list is tried out. -/
theorem rate_one_pos : (0 : ℚ) < 1 := by decide +kernel

/-- The corridors of the default list. -/
def usdcNgn : CorridorConfig := ⟨"USDC", "NGN", usdc_valid, ngn_valid⟩

def usdcGhs : CorridorConfig := ⟨"USDC", "GHS", usdc_valid, by decide +kernel⟩

inductive Status where
  | planned
  | executing
  | executed
  | failed
  | skipped
  deriving DecidableEq

def Status.text : Status → String
  | .planned => "PLANNED"
  | .executing => "EXECUTING"
  | .executed => "EXECUTED"
  | .failed => "FAILED"
  | .skipped => "SKIPPED"

inductive Reason where
  | text (message : String)
  /-- `Reserve ... is below 20% of forecast ...` -/
  | reserveBelow (reserveAmount forecast : ℚ)
  deriving DecidableEq

/-- A `LiquidityRebalance` row. Its id is its position in the table; amounts are stored with
seven places and counted in units of the last. -/
structure Row where
  corridor : String
  fromAsset : String
  toAsset : String
  sourceAmount : Nat
  amount : Nat
  status : Status
  reason : Reason
  txHash : Option String
  failureReason : Option String
  createdAt : Nat
  executedAt : Option Nat
  deriving DecidableEq

inductive Verdict where
  | allowed (sourceAmount destinationAmount : Nat)
  | refused (reason : String)
  deriving DecidableEq

/-- The opposite direction of the corridor. -/
def CorridorConfig.reverses (corridor : CorridorConfig) (row : Row) : Bool :=
  row.fromAsset = corridor.toAsset && row.toAsset = corridor.fromAsset

/-- `checkRebalanceGuards` once its three queries have answered. -/
def checkRebalanceGuards (settings : Settings) (corridor : CorridorConfig) (requestedAmount : ℚ)
    (dailyCount dailyVolume : Nat) (latest : Option Row) : Verdict :=
  if settings.maxRebalances ≤ dailyCount then .refused "Daily rebalance count limit reached"
  else if latest.any corridor.reverses then
    .refused "Opposite-direction rebalance blocked by 24-hour reconciler cooldown"
  else
    let used : ℚ := dailyVolume / 10 ^ 7
    let remaining := settings.maxDailyAmount - used
    let destinationAmount := min requestedAmount remaining
    if destinationAmount ≤ 0 then .refused "Daily rebalance volume limit reached"
    else
      let rate := settings.rate corridor.fromAsset corridor.toAsset
      .allowed (toFixed 7 (destinationAmount / rate)).toNat (toFixed 7 destinationAmount).toNat

/-- A value that JavaScript takes for false: missing, or the empty string. -/
def falsy (value : Option String) : Bool := value.getD "" = ""

def getExecutionConfigError (settings : Settings) (corridor : CorridorConfig) : Option String :=
  if falsy settings.treasuryPublicKey then some "Treasury public key is not configured"
  else if falsy (settings.getReserveAccount corridor.name) then
    some ("Reserve account is not configured for " ++ corridor.name)
  else if corridor.fromAsset ≠ "XLM" ∧ falsy (settings.getIssuer corridor.fromAsset) then
    some ("Issuer is not configured for " ++ corridor.fromAsset)
  else if corridor.toAsset ≠ "XLM" ∧ falsy (settings.getIssuer corridor.toAsset) then
    some ("Issuer is not configured for " ++ corridor.toAsset)
  else none

def skippedRow (corridor : CorridorConfig) (now : Nat) (reason : Reason) : Row where
  corridor := corridor.name
  fromAsset := corridor.fromAsset
  toAsset := corridor.toAsset
  sourceAmount := 0
  amount := 0
  status := .skipped
  reason := reason
  txHash := none
  failureReason := none
  createdAt := now
  executedAt := none

def plannedRow (corridor : CorridorConfig) (now sourceAmount destinationAmount : Nat) (reason : Reason) : Row where
  corridor := corridor.name
  fromAsset := corridor.fromAsset
  toAsset := corridor.toAsset
  sourceAmount := sourceAmount
  amount := destinationAmount
  status := .planned
  reason := reason
  txHash := none
  failureReason := none
  createdAt := now
  executedAt := none

def rebalanceJob (settings : Settings) (corridor : CorridorConfig) (id sourceAmount destinationAmount : Nat) :
    WorkerJobs.Api.LiquidityRebalanceJob where
  rebalanceId := toString id
  corridor := corridor.name
  fromAsset := corridor.fromAsset
  toAsset := corridor.toAsset
  sourceAmount := String.ofList (render 7 sourceAmount)
  destinationMinAmount := String.ofList (render 7 destinationAmount)
  treasuryAccount := settings.treasuryPublicKey.getD ""
  destinationAccount := (settings.getReserveAccount corridor.name).getD ""
  fromAssetIssuer := (settings.getIssuer corridor.fromAsset).getD ""
  toAssetIssuer := (settings.getIssuer corridor.toAsset).getD ""
  network := settings.network

/-- The guard queries of a check: the clock when they were sent, and the answers so far. -/
structure Guard where
  requestedAmount : ℚ
  reason : Reason
  startedAt : Nat
  dailyCount : Option Nat
  dailyVolume : Option Nat
  latest : Option (Option Row)
  deriving DecidableEq

/-- `setUTCHours(0, 0, 0, 0)`. -/
def startOfDay (time : Nat) : Nat := time / dayMs * dayMs

/-- The rows that the count and the volume query of the day range over. -/
def Row.counted (corridor : String) (since : Nat) (row : Row) : Bool :=
  row.corridor = corridor && since ≤ row.createdAt && row.status ≠ .skipped

def dailyAmounts (rows : List Row) (corridor : String) (since : Nat) : List Nat :=
  (rows.filter (Row.counted corridor since)).map Row.amount

/-- The rows among which the third query looks for the latest. -/
def CorridorConfig.recent (corridor : CorridorConfig) (startedAt : Nat) (row : Row) : Bool :=
  startedAt ≤ row.createdAt + dayMs && row.status ≠ .skipped && (row.corridor = corridor.name || corridor.reverses row)

/-- The database may answer the third query with any matching row of the latest time. -/
def isLatest (rows : List Row) (matching : Row → Bool) : Option Row → Bool
  | none => rows.all fun row => !matching row
  | some row => rows.contains row && matching row &&
      rows.all fun other => !matching other || other.createdAt ≤ row.createdAt

/-- Where a check stands: what it is waiting for. -/
inductive Phase where
  /-- The reserve, the forecast and the write of the observation. -/
  | observing
  | guarding (guard : Guard)
  /-- The creation of the `SKIPPED` row. -/
  | skipping (reason : Reason)
  /-- The creation of the `PLANNED` row. -/
  | planning (sourceAmount destinationAmount : Nat) (reason : Reason)
  /-- The update to `EXECUTING`. -/
  | planned (id sourceAmount destinationAmount : Nat)
  /-- The push of the job. -/
  | executing (id sourceAmount destinationAmount : Nat)
  /-- The audit entry of the dispatch. -/
  | dispatched (id : Nat)
  /-- The update to `FAILED`, in the catch block. -/
  | catching (id : Nat) (message : String)
  /-- The audit entry of the failure. -/
  | failing (id : Nat)
  | returned
  | threw
  deriving DecidableEq

/-- What becomes of the call that a check is waiting for. A write or a push can be done and
still end in an error. -/
inductive Action where
  | observe (reserveAmount forecast : ℚ)
  | readCount
  | readVolume
  | readLatest (row : Option Row)
  | conclude
  | write (error : Option String)
  | execute (error : Option String)
  | audit
  | fail (message : String)
  deriving DecidableEq

/-- Only the dispatch stands in a `try` block. -/
def Phase.onError (phase : Phase) (message : String) : Phase :=
  match phase with
  | .planned id _ _ | .executing id _ _ | .dispatched id => .catching id message
  | _ => .threw

def Phase.after (phase next : Phase) : Option String → Phase
  | none => next
  | some message => phase.onError message

def Guard.conclude (settings : Settings) (corridor : CorridorConfig) (guard : Guard) : Option Phase :=
  match guard.dailyCount, guard.dailyVolume, guard.latest with
  | some dailyCount, some dailyVolume, some latest =>
    match checkRebalanceGuards settings corridor guard.requestedAmount dailyCount dailyVolume latest with
    | .refused reason => some (.skipping (.text reason))
    | .allowed sourceAmount destinationAmount =>
      match getExecutionConfigError settings corridor with
      | some configError => some (.skipping (.text configError))
      | none => some (.planning sourceAmount destinationAmount guard.reason)
  | _, _, _ => none

def updateStatus (rows : List Row) (id : Nat) (update : Row → Row) : List Row := rows.modify id update

def markExecuting (row : Row) : Row := { row with status := .executing }

def markFailed (failureReason : Option String) (row : Row) : Row := { row with status := .failed, failureReason }

def markExecuted (txHash : Option String) (now : Nat) (row : Row) : Row :=
  { row with status := .executed, txHash, executedAt := some now }

/-- The phase after an action, the table, and the jobs pushed. An action that the phase does
not wait for does not happen. -/
structure Effect where
  phase : Phase
  rows : List Row
  jobs : List WorkerJobs.Api.LiquidityRebalanceJob

def checkCorridor (settings : Settings) (now : Nat) (rows : List Row) (corridor : CorridorConfig) :
    Phase → Action → Option Effect
  | .observing, .observe reserveAmount forecast =>
    let threshold := forecast * liquidityThresholdRatio
    if forecast ≤ 0 ∨ threshold ≤ reserveAmount then some ⟨.returned, rows, []⟩
    else
      let guard : Guard := ⟨threshold - reserveAmount, .reserveBelow reserveAmount forecast, now, none, none, none⟩
      some ⟨.guarding guard, rows, []⟩
  | .guarding guard, .readCount =>
    if guard.dailyCount.isSome then none
    else
      let amounts := dailyAmounts rows corridor.name (startOfDay guard.startedAt)
      some ⟨.guarding { guard with dailyCount := some amounts.length }, rows, []⟩
  | .guarding guard, .readVolume =>
    if guard.dailyVolume.isSome then none
    else
      let amounts := dailyAmounts rows corridor.name (startOfDay guard.startedAt)
      some ⟨.guarding { guard with dailyVolume := some amounts.sum }, rows, []⟩
  | .guarding guard, .readLatest row =>
    if guard.latest.isSome then none
    else if isLatest rows (corridor.recent guard.startedAt) row then
      some ⟨.guarding { guard with latest := some row }, rows, []⟩
    else none
  | .guarding guard, .conclude => (guard.conclude settings corridor).map fun next => ⟨next, rows, []⟩
  | .skipping reason, .write error =>
    some ⟨(Phase.skipping reason).after .returned error, rows ++ [skippedRow corridor now reason], []⟩
  | .planning sourceAmount destinationAmount reason, .write error =>
    let next := Phase.planned rows.length sourceAmount destinationAmount
    some ⟨(Phase.planning sourceAmount destinationAmount reason).after next error,
      rows ++ [plannedRow corridor now sourceAmount destinationAmount reason], []⟩
  | .planned id sourceAmount destinationAmount, .write error =>
    let next := Phase.executing id sourceAmount destinationAmount
    some ⟨(Phase.planned id sourceAmount destinationAmount).after next error, updateStatus rows id markExecuting, []⟩
  | .executing id sourceAmount destinationAmount, .execute error =>
    some ⟨(Phase.executing id sourceAmount destinationAmount).after (.dispatched id) error, rows,
      [rebalanceJob settings corridor id sourceAmount destinationAmount]⟩
  | .dispatched _, .audit => some ⟨.returned, rows, []⟩
  | .catching id message, .write error =>
    some ⟨(Phase.catching id message).after (.failing id) error, updateStatus rows id (markFailed (some message)), []⟩
  | .failing _, .audit => some ⟨.threw, rows, []⟩
  | .returned, .fail _ | .threw, .fail _ => none
  | phase, .fail message => some ⟨phase.onError message, rows, []⟩
  | _, _ => none

structure LiquidityExecutionResult where
  success : Bool
  txHash : Option String
  error : Option String
  deriving DecidableEq

/-- How a call of `recordExecutionResult` ends. -/
inductive Answer where
  | returned (row : Row)
  | notFoundException (message : String)
  | conflictException (message : String)
  | badRequestException (message : String)
  /-- What the database client or the audit service threw. -/
  | failure
  deriving DecidableEq

inductive ReportPhase where
  | finding
  | updating
  | auditing (updated : Row)
  | ended (answer : Answer)
  deriving DecidableEq

structure Report where
  rebalanceId : Nat
  result : LiquidityExecutionResult
  phase : ReportPhase
  deriving DecidableEq

inductive ReportAction where
  | findUnique
  | update (answered : Bool)
  | audit
  | fail
  deriving DecidableEq

/-- `current.txHash === result.txHash`: `null` of the row is not `undefined` of the result. -/
def sameHash : Option String → Option String → Bool
  | some current, some reported => current = reported
  | _, _ => false

/-- What `recordExecutionResult` does with the row it found. -/
def judge (result : LiquidityExecutionResult) : Option Row → ReportPhase
  | none => .ended (.notFoundException "Liquidity rebalance not found")
  | some current =>
    if current.status = .executed ∧ sameHash current.txHash result.txHash then .ended (.returned current)
    else if current.status ≠ .executing then
      .ended (.conflictException ("Cannot record a result for a rebalance in state " ++ current.status.text))
    else if result.success ∧ falsy result.txHash then
      .ended (.badRequestException "Successful liquidity execution requires a transaction hash")
    else .updating

def recordResult (result : LiquidityExecutionResult) (now : Nat) (row : Row) : Row :=
  if result.success then markExecuted result.txHash now row else markFailed result.error row

/-- `txHash` is unique among the rows. -/
def hashTaken (rows : List Row) (id : Nat) (result : LiquidityExecutionResult) : Bool :=
  result.success && (rows.eraseIdx id).any fun other => sameHash other.txHash result.txHash

def recordExecutionResult (now : Nat) (rows : List Row) (report : Report) :
    ReportAction → Option (ReportPhase × List Row)
  | .findUnique =>
    if report.phase = .finding then some (judge report.result rows[report.rebalanceId]?, rows) else none
  | .update answered =>
    if report.phase = .updating then
      match rows[report.rebalanceId]? with
      | none => some (.ended .failure, rows)
      | some row =>
        if hashTaken rows report.rebalanceId report.result then some (.ended .failure, rows)
        else
          let updated := recordResult report.result now
          some (if answered then .auditing (updated row) else .ended .failure,
            updateStatus rows report.rebalanceId updated)
    else none
  | .audit =>
    match report.phase with
    | .auditing updated => some (.ended (.returned updated), rows)
    | _ => none
  | .fail =>
    match report.phase with
    | .ended _ => none
    | _ => some (.ended .failure, rows)

structure Check where
  run : Nat
  corridor : CorridorConfig
  phase : Phase
  deriving DecidableEq

structure State where
  now : Nat
  rows : List Row
  jobs : List WorkerJobs.Api.LiquidityRebalanceJob
  /-- The run that holds the hourly lock. -/
  lock : Option Nat
  runs : Nat
  checks : List Check
  reports : List Report
  deriving DecidableEq

def State.start (now : Nat) : State := ⟨now, [], [], none, 0, [], []⟩

inductive Event where
  | tick (ms : Nat)
  | runHourlyCheck
  | releaseLock
  | check (id : Nat) (action : Action)
  | recordExecutionResult (rebalanceId : Nat) (result : LiquidityExecutionResult)
  | report (id : Nat) (action : ReportAction)
  deriving DecidableEq

/-- `Promise.all` is settled: every check has returned, or one has thrown. -/
def settled (s : State) (run : Nat) : Bool :=
  (s.checks.all fun check => check.run ≠ run || check.phase = .returned) ||
    s.checks.any fun check => check.run = run && check.phase = .threw

/-- One step of the service and its workers, from any number of instances. -/
def step (settings : Settings) (s : State) : Event → State
  | .tick ms => { s with now := s.now + ms }
  | .runHourlyCheck =>
    match s.lock with
    | some _ => s
    | none =>
      let started := settings.corridors.map fun corridor => ⟨s.runs, corridor, .observing⟩
      { s with lock := some s.runs, runs := s.runs + 1, checks := s.checks ++ started }
  | .releaseLock =>
    match s.lock with
    | some run => if settled s run then { s with lock := none } else s
    | none => s
  | .check id action =>
    match s.checks[id]? with
    | none => s
    | some check =>
      match checkCorridor settings s.now s.rows check.corridor check.phase action with
      | none => s
      | some effect =>
        let checks := s.checks.set id { check with phase := effect.phase }
        { s with rows := effect.rows, jobs := s.jobs ++ effect.jobs, checks }
  | .recordExecutionResult rebalanceId result =>
    { s with reports := s.reports ++ [⟨rebalanceId, result, .finding⟩] }
  | .report id action =>
    match s.reports[id]? with
    | none => s
    | some report =>
      match recordExecutionResult s.now s.rows report action with
      | none => s
      | some (phase, rows) => { s with rows, reports := s.reports.set id { report with phase } }

end AfroPay.Liquidity
