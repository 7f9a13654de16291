import AfroPay.Compliance
import AfroPay.Serde

/-! The jobs the API pushes for the worker, as texts on Redis lists: what
`JSON.stringify` writes and what the worker's structs read from it. The worker pops an
entry before it decodes it, so an entry that does not decode is gone. -/
namespace AfroPay.WorkerJobs
open Json Serde Compliance

def complianceTypeText : ComplianceType → String
  | .freeze => "FREEZE"
  | .clawback => "CLAWBACK"

def networkText : Network → String
  | .testnet => "testnet"
  | .mainnet => "mainnet"

def nullable : Option String → Value
  | some text => .string text
  | none => .null

def complianceJson (job : ComplianceJobPayload String) : Value :=
  .object [("actionId", .string job.actionId), ("actionType", .string (complianceTypeText job.actionType)),
    ("targetAccount", .string job.targetAccount), ("assetCode", .string job.assetCode),
    ("assetIssuer", nullable job.assetIssuer), ("amount", nullable job.amount),
    ("network", .string (networkText job.network))]

/-- The liquidity job as the API builds it. -/
structure Api.LiquidityRebalanceJob where
  rebalanceId : String
  corridor : String
  fromAsset : String
  toAsset : String
  sourceAmount : String
  destinationMinAmount : String
  treasuryAccount : String
  destinationAccount : String
  fromAssetIssuer : String
  toAssetIssuer : String
  network : Network
  deriving DecidableEq

def liquidityJson (job : Api.LiquidityRebalanceJob) : Value :=
  .object [("rebalanceId", .string job.rebalanceId), ("corridor", .string job.corridor),
    ("fromAsset", .string job.fromAsset), ("toAsset", .string job.toAsset),
    ("sourceAmount", .string job.sourceAmount), ("destinationMinAmount", .string job.destinationMinAmount),
    ("treasuryAccount", .string job.treasuryAccount), ("destinationAccount", .string job.destinationAccount),
    ("fromAssetIssuer", .string job.fromAssetIssuer), ("toAssetIssuer", .string job.toAssetIssuer),
    ("network", .string (networkText job.network))]

structure ComplianceJob where
  actionId : String
  actionType : String
  targetAccount : String
  assetCode : String
  assetIssuer : Option String
  amount : Option String
  network : Option String
  deriving DecidableEq

/-- The liquidity job as the worker reads it. -/
structure Worker.LiquidityRebalanceJob where
  rebalanceId : String
  corridor : String
  fromAsset : String
  toAsset : String
  sourceAmount : String
  destinationMinAmount : String
  treasuryAccount : String
  destinationAccount : String
  fromAssetIssuer : String
  toAssetIssuer : String
  network : Option String
  deriving DecidableEq

/-- `ComplianceJob` has no rename rule: its members are expected under the Rust names. -/
def complianceFields : List Field :=
  [⟨"action_id", .string⟩, ⟨"action_type", .string⟩, ⟨"target_account", .string⟩, ⟨"asset_code", .string⟩,
    ⟨"asset_issuer", .option⟩, ⟨"amount", .option⟩, ⟨"network", .option⟩]

/-- `LiquidityRebalanceJob` has `rename_all = "camelCase"`. -/
def liquidityFields : List Field :=
  [⟨camelCase "rebalance_id", .string⟩, ⟨camelCase "corridor", .string⟩, ⟨camelCase "from_asset", .string⟩,
    ⟨camelCase "to_asset", .string⟩, ⟨camelCase "source_amount", .string⟩,
    ⟨camelCase "destination_min_amount", .string⟩, ⟨camelCase "treasury_account", .string⟩,
    ⟨camelCase "destination_account", .string⟩, ⟨camelCase "from_asset_issuer", .string⟩,
    ⟨camelCase "to_asset_issuer", .string⟩, ⟨camelCase "network", .option⟩]

def decodeCompliance (text : List Char) : Except Error ComplianceJob := do
  let seen ← fromStr complianceFields text
  return {
    actionId := ← required seen "action_id"
    actionType := ← required seen "action_type"
    targetAccount := ← required seen "target_account"
    assetCode := ← required seen "asset_code"
    assetIssuer := optional seen "asset_issuer"
    amount := optional seen "amount"
    network := optional seen "network" }

def decodeLiquidity (text : List Char) : Except Error Worker.LiquidityRebalanceJob := do
  let seen ← fromStr liquidityFields text
  return {
    rebalanceId := ← required seen (camelCase "rebalance_id")
    corridor := ← required seen (camelCase "corridor")
    fromAsset := ← required seen (camelCase "from_asset")
    toAsset := ← required seen (camelCase "to_asset")
    sourceAmount := ← required seen (camelCase "source_amount")
    destinationMinAmount := ← required seen (camelCase "destination_min_amount")
    treasuryAccount := ← required seen (camelCase "treasury_account")
    destinationAccount := ← required seen (camelCase "destination_account")
    fromAssetIssuer := ← required seen (camelCase "from_asset_issuer")
    toAssetIssuer := ← required seen (camelCase "to_asset_issuer")
    network := optional seen (camelCase "network") }

/-- A Redis list of job texts. -/
abbrev Queue := List (List Char)

/-- Both executors push to the end of their list. -/
def rpush (queue : Queue) (json : Value) : Queue := queue ++ [stringify json]

/-- `receive_compliance_job` and `receive_liquidity_job`: pop, then decode. -/
def receive {Job : Type} (decode : List Char → Except Error Job) : Queue → Except Error (Option Job) × Queue
  | [] => (.ok none, [])
  | entry :: rest => ((decode entry).map some, rest)

/-- A payload on its way to the worker. -/
inductive Payload where
  | compliance (job : ComplianceJobPayload String)
  | liquidity (job : Api.LiquidityRebalanceJob)
  deriving DecidableEq

/-- The worker's struct has all that the compliance payload has. -/
def ComplianceJob.Same (job : ComplianceJob) (sent : ComplianceJobPayload String) : Prop :=
  job = ⟨sent.actionId, complianceTypeText sent.actionType, sent.targetAccount, sent.assetCode, sent.assetIssuer,
    sent.amount, some (networkText sent.network)⟩

/-- The worker's struct has all that the liquidity payload has. -/
def Worker.LiquidityRebalanceJob.Same (job : Worker.LiquidityRebalanceJob) (sent : Api.LiquidityRebalanceJob) :
    Prop :=
  job = ⟨sent.rebalanceId, sent.corridor, sent.fromAsset, sent.toAsset, sent.sourceAmount,
    sent.destinationMinAmount, sent.treasuryAccount, sent.destinationAccount, sent.fromAssetIssuer,
    sent.toAssetIssuer, some (networkText sent.network)⟩

/-- The text decodes to a job that is the same, and a worker that pops it, once the
entries ahead of it are gone, is given that job. -/
def Carries {Job : Type} (decode : List Char → Except Error Job) (json : Value) (same : Job → Prop) : Prop :=
  ∃ job, decode (stringify json) = .ok job ∧ same job ∧ ∀ ahead behind : Queue,
    receive decode ((rpush ahead json ++ behind).drop ahead.length) = (.ok (some job), behind)

def Payload.Delivered : Payload → Prop
  | .compliance sent => Carries decodeCompliance (complianceJson sent) (·.Same sent)
  | .liquidity sent => Carries decodeLiquidity (liquidityJson sent) (·.Same sent)

theorem carries_of_decode {Job : Type} {decode : List Char → Except Error Job} {json : Value} {same : Job → Prop}
    {job : Job} (decoded : decode (stringify json) = .ok job) (equal : same job) : Carries decode json same := by
  refine ⟨job, decoded, equal, fun ahead behind => ?_⟩
  rw [rpush, List.append_assoc, List.drop_left, List.singleton_append, receive, decoded]
  rfl

/-- The worker looks for `action_id` and finds `actionId`. -/
theorem decodeCompliance_stringify (sent : ComplianceJobPayload String) :
    decodeCompliance (stringify (complianceJson sent)) = .error (.missingField "action_id") := by
  obtain ⟨actionId, actionType, targetAccount, assetCode, assetIssuer, amount, network⟩ := sent
  rw [decodeCompliance, fromStr_stringify]
  -- Of the seven members only `amount` and `network` are known under their own names.
  cases amount <;> rfl

theorem decodeLiquidity_stringify (sent : Api.LiquidityRebalanceJob) :
    ∃ job, decodeLiquidity (stringify (liquidityJson sent)) = .ok job ∧ job.Same sent := by
  refine ⟨_, ?_, rfl⟩
  rw [decodeLiquidity, fromStr_stringify]
  rfl

/-- Every liquidity job reaches the worker as it was sent, and no compliance job does. -/
theorem delivered_iff (payload : Payload) : payload.Delivered ↔ ∃ job, payload = .liquidity job := by
  cases payload with
  | compliance sent =>
    constructor
    · rintro ⟨job, decoded, -⟩
      rw [decodeCompliance_stringify] at decoded
      cases decoded
    · rintro ⟨job, impossible⟩
      cases impossible
  | liquidity sent =>
    refine ⟨fun _ => ⟨sent, rfl⟩, fun _ => ?_⟩
    obtain ⟨job, decoded, same⟩ := decodeLiquidity_stringify sent
    exact carries_of_decode decoded same

/-- An approved freeze is popped and lost. -/
theorem freeze_lost_by_worker : ¬ ∀ payload : Payload, payload.Delivered := by
  intro delivered
  obtain ⟨job, decoded, -⟩ := delivered
    (.compliance ⟨"a1", .freeze, "GTARGET", "USDC", some "GISSUER", none, .testnet⟩)
  rw [decodeCompliance_stringify] at decoded
  cases decoded

end AfroPay.WorkerJobs
