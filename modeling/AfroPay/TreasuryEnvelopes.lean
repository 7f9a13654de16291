import AfroPay.WorkerPayments

/-! What the worker signs for the treasury: clawbacks and freezes with the compliance key, and
the path payments of rebalances with the liquidity key. Each envelope has one operation and one
signature, and its source is the account of the key, whatever the job says. -/
namespace AfroPay.TreasuryEnvelopes
open Base64 Json NumberText Panics RebalanceAmounts StellarAmounts WorkerJobs WorkerPayments XdrAssets

/-- `TrustLineFlags.AUTHORIZED_FLAG`. -/
def trustlineAuthorizedFlag : Nat := 1

inductive OperationBody where
  | pathPaymentStrictSend (sendAsset : XdrAsset) (sendAmount : ℤ) (destination : Uint256) (destAsset : XdrAsset)
      (destMin : ℤ) (path : List XdrAsset)
  | clawback (asset : XdrAsset) (account : Uint256) (amount : ℤ)
  | setTrustLineFlags (trustor : Uint256) (asset : XdrAsset) (clearFlags setFlags : Nat)
  deriving DecidableEq

structure TreasuryOperation where
  sourceAccount : Option Uint256
  body : OperationBody
  deriving DecidableEq

structure TreasuryTransaction where
  sourceAccount : Uint256
  fee : Nat
  seqNum : ℤ
  cond : TimeBounds
  memo : Memo
  operations : List TreasuryOperation
  deriving DecidableEq

structure TreasuryEnvelope where
  tx : TreasuryTransaction
  signatures : List DecoratedSignature
  deriving DecidableEq

/-- The crates, with their XDR for these operations. -/
structure TreasuryCrates extends Crates where
  txHash : TreasuryTransaction → String → Except String Uint256
  writeXdr : TreasuryEnvelope → Except String String
  readXdr : String → Except String TreasuryEnvelope

/-- An envelope is decoded to itself. -/
def TreasuryCrates.Decodes (crates : TreasuryCrates) : Prop :=
  ∀ envelope text, crates.writeXdr envelope = .ok text → crates.readXdr text = .ok envelope

/-- What a key signs is verified with its public key. -/
def TreasuryCrates.Verifies (crates : TreasuryCrates) : Prop :=
  ∀ seed hash, crates.verifies (crates.verifyingKey seed) hash (crates.sign seed hash) = true

section Building

variable (crates : TreasuryCrates) (world : World)

/-- The end that the three builders share: one operation, valid for five minutes, one signature. -/
def signed (seed sourceAccount : Uint256) (seqNum : ℤ) (body : OperationBody) (networkPassphrase : String) :
    Except Failure String := do
  let tx : TreasuryTransaction := ⟨sourceAccount, baseFeeStroops, seqNum, ⟨0, world.now + 300⟩, .none, [⟨none, body⟩]⟩
  let hash ← raise (crates.txHash tx networkPassphrase)
  raise (crates.writeXdr ⟨tx, [⟨(crates.verifyingKey seed).toList.drop 28, crates.sign seed hash⟩]⟩)

def buildClawbackXdr (targetAccount amount assetCode assetIssuer sourceSecret : String) (sequence : ℤ)
    (networkPassphrase : String) : Except Failure String := do
  let seed ← raise (crates.privateKey sourceSecret)
  let account ← raise (crates.publicKey targetAccount)
  let asset ← raise (buildXdrAsset crates.publicKey assetCode assetIssuer)
  let stroops ← outcome (parseStellarAmount world.overflowChecks amount.toList)
  let seqNum ← outcome (uncheckedAdd world.overflowChecks sequence 1)
  signed crates world seed (crates.verifyingKey seed) seqNum (.clawback asset account stroops) networkPassphrase

def buildFreezeXdr (targetAccount assetCode assetIssuer sourceSecret : String) (sequence : ℤ)
    (networkPassphrase : String) : Except Failure String := do
  let seed ← raise (crates.privateKey sourceSecret)
  let trustor ← raise (crates.publicKey targetAccount)
  let asset ← raise (buildXdrAsset crates.publicKey assetCode assetIssuer)
  let seqNum ← outcome (uncheckedAdd world.overflowChecks sequence 1)
  signed crates world seed (crates.verifyingKey seed) seqNum
    (.setTrustLineFlags trustor asset trustlineAuthorizedFlag 0) networkPassphrase

def buildPathPaymentStrictSendXdr (sourceAccount destinationAccount sendAmount destMinAmount sendAssetCode sendAssetIssuer
    destAssetCode destAssetIssuer : String) (sequence : ℤ) (sourceSecret networkPassphrase : String) :
    Except Failure String := do
  let seed ← raise (crates.privateKey sourceSecret)
  let sourcePublic ← raise (crates.publicKey sourceAccount)
  let destination ← raise (crates.publicKey destinationAccount)
  let derived ← raise (derivePublicKey crates.toCrates sourceSecret)
  if derived ≠ sourceAccount then .error (.error "source account does not match signing secret")
  else
    let seqNum ← outcome (uncheckedAdd world.overflowChecks sequence 1)
    let sendAsset ← raise (buildXdrAsset crates.publicKey sendAssetCode sendAssetIssuer)
    let sendStroops ← outcome (parseStellarAmount world.overflowChecks sendAmount.toList)
    let destAsset ← raise (buildXdrAsset crates.publicKey destAssetCode destAssetIssuer)
    let destMin ← outcome (parseStellarAmount world.overflowChecks destMinAmount.toList)
    signed crates world seed sourcePublic seqNum
      (.pathPaymentStrictSend sendAsset sendStroops destination destAsset destMin []) networkPassphrase

def complianceSecret : Option String := (world.env "COMPLIANCE_SECRET_KEY").or (world.env "ISSUER_SECRET_KEY")

/-- `process_compliance_job` up to the submission. The network is the worker's, not the job's. -/
def prepareCompliance (job : ComplianceJob) : Except Failure String :=
  match complianceSecret world with
  | none => .error (.error
      "COMPLIANCE_SECRET_KEY (or ISSUER_SECRET_KEY) must be set to process compliance jobs")
  | some sourceSecret => do
    let sourcePublic ← raise (derivePublicKey crates.toCrates sourceSecret)
    let sequence ← raise (fetchAccountSequence world (horizonUrl world) sourcePublic)
    let issuer := job.assetIssuer.getD ""
    if job.actionType = "CLAWBACK" then
      match job.amount with
      | none => .error (.error "CLAWBACK compliance job requires an amount")
      | some amount =>
        buildClawbackXdr crates world job.targetAccount amount job.assetCode issuer sourceSecret sequence
          (networkPassphrase world)
    else if job.actionType = "FREEZE" then
      buildFreezeXdr crates world job.targetAccount job.assetCode issuer sourceSecret sequence (networkPassphrase world)
    else .error (.error ("Unknown compliance action type: " ++ job.actionType))

def processComplianceJob (job : ComplianceJob) : Run :=
  match prepareCompliance crates world job with
  | .error failure => ⟨none, [], .error failure⟩
  | .ok xdr =>
    match submitXdr world (horizonUrl world) xdr with
    | .error text => ⟨some xdr, [], .error (.error text)⟩
    | .ok hash =>
      ⟨some xdr, ["✅ Compliance " ++ job.actionType ++ " executed — action " ++ job.actionId ++ ": " ++ hash], .ok ()⟩

def rebalancePassphrase (job : Worker.LiquidityRebalanceJob) : String :=
  if job.network = some "mainnet" then publicPassphrase else testnetPassphrase

/-- `process_rebalance_job_inner` up to the submission. -/
def prepareRebalance (job : Worker.LiquidityRebalanceJob) : Except Failure String := do
  raise (validateRebalanceJob job)
  match world.env "LIQUIDITY_TREASURY_SECRET_KEY" with
  | none => .error (.error "LIQUIDITY_TREASURY_SECRET_KEY must be set to process liquidity jobs")
  | some secret =>
    let derived ← raise (derivePublicKey crates.toCrates secret)
    if derived ≠ job.treasuryAccount then
      .error (.error "treasury secret does not match the requested treasury account")
    else
      let sequence ← raise (fetchAccountSequence world (horizonUrl world) job.treasuryAccount)
      buildPathPaymentStrictSendXdr crates world job.treasuryAccount job.destinationAccount job.sourceAmount
        job.destinationMinAmount job.fromAsset job.fromAssetIssuer job.toAsset job.toAssetIssuer sequence secret
        (rebalancePassphrase job)

/-- What the worker submits for a rebalance, and how its processing ends. -/
structure RebalanceRun where
  submitted : Option String
  result : Except Failure String

def processRebalanceJobInner (job : Worker.LiquidityRebalanceJob) : RebalanceRun :=
  match prepareRebalance crates world job with
  | .error failure => ⟨none, .error failure⟩
  | .ok xdr => ⟨some xdr, raise (submitXdr world (horizonUrl world) xdr)⟩

end Building

section Signing

variable {crates : TreasuryCrates} {world : World} {xdr : String}

/-- The envelope has one operation without a source of its own, and one signature, by the key. -/
structure SignedBy (crates : TreasuryCrates) (passphrase : String) (seed source : Uint256) (seqNum : ℤ)
    (body : OperationBody) (envelope : TreasuryEnvelope) : Prop where
  source : envelope.tx.sourceAccount = source
  sequence : envelope.tx.seqNum = seqNum
  operations : envelope.tx.operations = [⟨none, body⟩]
  signature : ∃ hash decorated, crates.txHash envelope.tx passphrase = .ok hash ∧ envelope.signatures = [decorated] ∧
    crates.verifies (crates.verifyingKey seed) hash decorated.signature = true

theorem signed_ok (decodes : crates.Decodes) (verifies : crates.Verifies) {seed source : Uint256} {seqNum : ℤ}
    {body : OperationBody} {passphrase : String}
    (ok : signed crates world seed source seqNum body passphrase = .ok xdr) :
    ∃ envelope, crates.readXdr xdr = .ok envelope ∧ SignedBy crates passphrase seed source seqNum body envelope := by
  simp only [signed, bind_ok, raise_ok] at ok
  obtain ⟨hash, hashed, written⟩ := ok
  exact ⟨_, decodes _ _ written, rfl, rfl, rfl, hash, _, hashed, rfl, verifies seed hash⟩

theorem processComplianceJob_submitted_iff {job : ComplianceJob} :
    (processComplianceJob crates world job).submitted = some xdr ↔ prepareCompliance crates world job = .ok xdr := by
  unfold processComplianceJob
  cases prepareCompliance crates world job with
  | error failure => simp
  | ok prepared =>
    simp only
    split <;> simp

end Signing

section Compliance

/-- The operation that a compliance job asks for. -/
inductive Asks (crates : TreasuryCrates) (job : ComplianceJob) : OperationBody → Prop where
  | clawback (amount : String) (account : Uint256) (asset : XdrAsset) (stroops : ℤ)
      (type : job.actionType = "CLAWBACK") (given : job.amount = some amount) (exact : IsAmount amount.toList stroops)
      (target : crates.publicKey job.targetAccount = .ok account)
      (denotes : Denotes crates.publicKey asset ⟨job.assetCode, job.assetIssuer.getD ""⟩) :
      Asks crates job (.clawback asset account stroops)
  | freeze (trustor : Uint256) (asset : XdrAsset) (type : job.actionType = "FREEZE")
      (target : crates.publicKey job.targetAccount = .ok trustor)
      (denotes : Denotes crates.publicKey asset ⟨job.assetCode, job.assetIssuer.getD ""⟩) :
      Asks crates job (.setTrustLineFlags trustor asset trustlineAuthorizedFlag 0)

/-- The envelope is what the job asks for, from the compliance account and signed by its key. -/
def Settles (crates : TreasuryCrates) (ledger : String → ℤ) (passphrase secret : String) (job : ComplianceJob)
    (envelope : TreasuryEnvelope) : Prop :=
  ∃ seed body, crates.privateKey secret = .ok seed ∧ Asks crates job body ∧
    SignedBy crates passphrase seed (crates.verifyingKey seed)
      (ledger (crates.publicKeyText (crates.verifyingKey seed)) + 1) body envelope

/-- The job's amount, if it has one to claw back, and its asset are plain. -/
structure Unambiguous (job : ComplianceJob) : Prop where
  amount : job.actionType = "CLAWBACK" → ∀ amount, job.amount = some amount → Regular amount.toList
  issuer : job.assetCode = "XLM" → job.assetIssuer.getD "" = ""
  code : (utf8 job.assetCode.toList).getLast? ≠ some 0

variable {crates : TreasuryCrates} {world : World} {job : ComplianceJob} {xdr : String}

/-- What has been read and built when an envelope is ready. -/
structure Ordered (crates : TreasuryCrates) (world : World) (job : ComplianceJob) (xdr secret : String) (seed : Uint256)
    (sequence seqNum : ℤ) (asset : XdrAsset) (body : OperationBody) : Prop where
  held : complianceSecret world = some secret
  decoded : crates.privateKey secret = .ok seed
  fetched : fetchAccountSequence world (horizonUrl world) (crates.publicKeyText (crates.verifyingKey seed)) =
    .ok sequence
  next : uncheckedAdd world.overflowChecks sequence 1 = .ok seqNum
  asset_built : buildXdrAsset crates.publicKey job.assetCode (job.assetIssuer.getD "") = .ok asset
  body_built : (∃ amount account stroops, job.actionType = "CLAWBACK" ∧ job.amount = some amount ∧
      crates.publicKey job.targetAccount = .ok account ∧
      parseStellarAmount world.overflowChecks amount.toList = .ok stroops ∧ body = .clawback asset account stroops) ∨
    ∃ trustor, job.actionType = "FREEZE" ∧ crates.publicKey job.targetAccount = .ok trustor ∧
      body = .setTrustLineFlags trustor asset trustlineAuthorizedFlag 0
  sealed : signed crates world seed (crates.verifyingKey seed) seqNum body (networkPassphrase world) = .ok xdr

theorem prepareCompliance_ok (ready : prepareCompliance crates world job = .ok xdr) :
    ∃ secret seed sequence seqNum asset body, Ordered crates world job xdr secret seed sequence seqNum asset body := by
  unfold prepareCompliance at ready
  split at ready
  · cases ready
  rename_i secret held
  simp only [bind_ok, raise_ok, derivePublicKey_ok] at ready
  obtain ⟨_, ⟨seed, decoded, rfl⟩, sequence, fetched, built⟩ := ready
  split at built
  · rename_i type
    split at built
    · cases built
    rename_i amount given
    simp only [buildClawbackXdr, bind_ok, raise_ok, outcome_ok] at built
    obtain ⟨seed', decoded', account, target, asset, asset_built, stroops, read, seqNum, next, sealed⟩ := built
    obtain rfl := Except.ok.inj (decoded.symm.trans decoded')
    exact ⟨secret, seed, sequence, seqNum, asset, _, held, decoded, fetched, next, asset_built,
      .inl ⟨amount, account, stroops, type, given, target, read, rfl⟩, sealed⟩
  · split at built
    · rename_i type
      simp only [buildFreezeXdr, bind_ok, raise_ok, outcome_ok] at built
      obtain ⟨seed', decoded', trustor, target, asset, asset_built, seqNum, next, sealed⟩ := built
      obtain rfl := Except.ok.inj (decoded.symm.trans decoded')
      exact ⟨secret, seed, sequence, seqNum, asset, _, held, decoded, fetched, next, asset_built,
        .inr ⟨trustor, type, target, rfl⟩, sealed⟩
    · cases built

/-- Of every job for which the worker submits an envelope: it is what the job asks for just
when the job's amount and asset are plain and the account's next sequence number is one. -/
theorem settles_job_iff (crates : TreasuryCrates) (world : World) (ledger : String → ℤ) (job : ComplianceJob)
    (xdr : String) (decodes : crates.Decodes) (verifies : crates.Verifies) (reports : Reports world ledger)
    (reached : (processComplianceJob crates world job).submitted = some xdr) :
    ∃ secret seed, complianceSecret world = some secret ∧ crates.privateKey secret = .ok seed ∧
      ((∃ envelope, crates.readXdr xdr = .ok envelope ∧
          Settles crates ledger (networkPassphrase world) secret job envelope) ↔
        Unambiguous job ∧ ledger (crates.publicKeyText (crates.verifyingKey seed)) < i64Max) := by
  obtain ⟨secret, seed, sequence, seqNum, asset, body, ordered⟩ :=
    prepareCompliance_ok (processComplianceJob_submitted_iff.mp reached)
  obtain rfl := reports _ _ _ ordered.fetched
  obtain ⟨envelope, decoded, sealed⟩ := signed_ok decodes verifies ordered.sealed
  have fits := fetchAccountSequence_fits ordered.fetched
  have exact_next := uncheckedAdd_exact_iff ordered.next
  have assets := denotes_iff ordered.asset_built
  have room : fitsI64 (ledger (crates.publicKeyText (crates.verifyingKey seed)) + 1) ↔
      ledger (crates.publicKeyText (crates.verifyingKey seed)) < i64Max := by
    unfold fitsI64 at *
    omega
  refine ⟨secret, seed, ordered.held, ordered.decoded, ?_⟩
  constructor
  · rintro ⟨envelope', decoded', seed', body', held, asks, settled⟩
    obtain rfl := Except.ok.inj (decoded.symm.trans decoded')
    obtain rfl := Except.ok.inj (ordered.decoded.symm.trans held)
    have bodies : body = body' := by
      have same := sealed.operations.symm.trans settled.operations
      simpa using same
    have next := sealed.sequence.symm.trans settled.sequence
    refine ⟨?_, room.mp (exact_next.mp next)⟩
    rcases ordered.body_built with ⟨amount, account, stroops, type, given, target, read, rfl⟩ | ⟨trustor, type, target, rfl⟩
    · rw [← bodies] at asks
      cases asks with
      | clawback amount' _ _ _ _ given' exact_amount _ denotes =>
        obtain rfl : amount = amount' := Option.some.inj (given.symm.trans given')
        obtain ⟨issuer, code⟩ := assets.mp denotes
        refine ⟨fun _ other given'' => ?_, issuer, code⟩
        obtain rfl : amount = other := Option.some.inj (given.symm.trans given'')
        exact (isAmount_iff read).mp exact_amount
    · rw [← bodies] at asks
      cases asks with
      | freeze _ _ _ _ denotes =>
        obtain ⟨issuer, code⟩ := assets.mp denotes
        refine ⟨fun type' => ?_, issuer, code⟩
        rw [type] at type'
        exact absurd type' (by decide)
  · rintro ⟨unambiguous, below⟩
    have denotes := assets.mpr ⟨unambiguous.issuer, unambiguous.code⟩
    have next := exact_next.mpr (room.mpr below)
    refine ⟨envelope, decoded, seed, body, ordered.decoded, ?_, next ▸ sealed⟩
    rcases ordered.body_built with ⟨amount, account, stroops, type, given, target, read, rfl⟩ | ⟨trustor, type, target, rfl⟩
    · exact .clawback amount account asset stroops type given
        ((isAmount_iff read).mpr (unambiguous.amount type amount given)) target denotes
    · exact .freeze trustor asset type target denotes

end Compliance

section Known

/-- Twelve and a half dollars back from an account. -/
def clawbackJob : ComplianceJob :=
  ⟨"action-1", "CLAWBACK", targetPublic, "USDC", some sourcePublic, some "12.5", some "testnet"⟩

def dollars : XdrAsset := .creditAlphanum4 #v[85, 83, 68, 67] sourceBytes

def naira : XdrAsset := .creditAlphanum4 #v[78, 71, 78, 0] sourceBytes

def knownTransaction (body : OperationBody) : TreasuryTransaction :=
  ⟨sourceBytes, 100, 12346, ⟨0, 1700000300⟩, .none, [⟨none, body⟩]⟩

def clawbackTransaction : TreasuryTransaction := knownTransaction (.clawback dollars targetBytes 125000000)

def clawbackHash : Uint256 :=
  #v[180, 90, 25, 186, 216, 65, 51, 138, 225, 161, 29, 116, 193, 92, 86, 237, 118, 206, 71, 243, 208, 228, 153, 225,
    85, 203, 177, 240, 248, 91, 151, 137]

def clawbackSignature : Signature :=
  #v[27, 167, 36, 197, 243, 203, 183, 103, 207, 192, 81, 196, 84, 104, 42, 110, 94, 167, 163, 185, 122, 44, 163, 174,
    244, 117, 171, 6, 49, 176, 254, 174, 11, 47, 255, 224, 97, 210, 245, 245, 153, 11, 217, 129, 215, 249, 232, 27,
    44, 37, 125, 199, 230, 230, 146, 1, 41, 67, 195, 172, 15, 177, 210, 13]

def clawbackXdr : String :=
  "AAAAAgAAAAByOuWN93C7AibPccGGxBYSGx1EDJuaMepU1Oft1pYqPQAAAGQAAAAAAAAwOgAAAAEAAAAAAAAAAAAAAABlU/IsAAAAAAAAA" ++
  "AEAAAAAAAAAEwAAAAFVU0RDAAAAAHI65Y33cLsCJs9xwYbEFhIbHUQMm5ox6lTU5+3Wlio9AAAAAHaM6WlufmKT04HGTIDK7BcE6o9eOz" ++
  "Y2nQ5RZOBA2L6GAAAAAAdzWUAAAAAAAAAAAdaWKj0AAABAG6ckxfPLt2fPwFHEVGgqbl6no7l6LKOu9HWrBjGw/q4LL//gYdL19ZkL2YH" ++
  "X+egbLCV9x+bmkgEpQ8OsD7HSDQ=="

/-- A tenth of a dollar for at least 150 naira. -/
def rebalanceTransaction : TreasuryTransaction :=
  knownTransaction (.pathPaymentStrictSend dollars 1000000 targetBytes naira 1500000000 [])

def rebalanceHash : Uint256 :=
  #v[147, 244, 84, 229, 81, 230, 239, 95, 139, 225, 106, 202, 97, 3, 137, 118, 129, 181, 113, 63, 121, 44, 101, 66,
    149, 96, 176, 149, 166, 96, 85, 135]

def rebalanceSignature : Signature :=
  #v[207, 38, 217, 61, 107, 165, 42, 151, 30, 20, 15, 99, 10, 245, 246, 1, 83, 59, 121, 249, 142, 211, 209, 111, 46,
    187, 143, 39, 141, 159, 210, 136, 114, 66, 231, 44, 58, 34, 114, 121, 0, 153, 98, 190, 175, 209, 192, 210, 74,
    239, 44, 133, 51, 254, 111, 98, 92, 0, 91, 58, 163, 0, 72, 1]

def rebalanceXdr : String :=
  "AAAAAgAAAAByOuWN93C7AibPccGGxBYSGx1EDJuaMepU1Oft1pYqPQAAAGQAAAAAAAAwOgAAAAEAAAAAAAAAAAAAAABlU/IsAAAAAAAAA" ++
  "AEAAAAAAAAADQAAAAFVU0RDAAAAAHI65Y33cLsCJs9xwYbEFhIbHUQMm5ox6lTU5+3Wlio9AAAAAAAPQkAAAAAAdozpaW5+YpPTgcZMgM" ++
  "rsFwTqj147NjadDlFk4EDYvoYAAAABTkdOAAAAAAByOuWN93C7AibPccGGxBYSGx1EDJuaMepU1Oft1pYqPQAAAABZaC8AAAAAAAAAAAA" ++
  "AAAAB1pYqPQAAAEDPJtk9a6Uqlx4UD2MK9fYBUzt5+Y7T0W8uu48njZ/SiHJC5yw6InJ5AJlivq/RwNJK7yyFM/5vYlwAWzqjAEgB"

def knownSignature (hash : Uint256) : Signature := if hash = clawbackHash then clawbackSignature else rebalanceSignature

def knownEnvelope (tx : TreasuryTransaction) (hash : Uint256) : TreasuryEnvelope :=
  ⟨tx, [⟨[214, 150, 42, 61], knownSignature hash⟩]⟩

/-- The crates on one secret, two accounts and two envelopes. -/
def treasuryCrates : TreasuryCrates where
  toCrates := { knownCrates with
    sign := fun _ hash => knownSignature hash
    verifies := fun key hash signature => key = sourceBytes ∧ signature = knownSignature hash }
  txHash tx passphrase :=
    if passphrase ≠ testnetPassphrase then .error "xdr value max depth limit exceeded"
    else if tx = clawbackTransaction then .ok clawbackHash
    else if tx = rebalanceTransaction then .ok rebalanceHash
    else .error "xdr value max depth limit exceeded"
  writeXdr envelope :=
    if envelope = knownEnvelope clawbackTransaction clawbackHash then .ok clawbackXdr
    else if envelope = knownEnvelope rebalanceTransaction rebalanceHash then .ok rebalanceXdr
    else .error "xdr value max depth limit exceeded"
  readXdr text :=
    if text = clawbackXdr then .ok (knownEnvelope clawbackTransaction clawbackHash)
    else if text = rebalanceXdr then .ok (knownEnvelope rebalanceTransaction rebalanceHash)
    else .error "xdr value invalid"

theorem treasuryCrates_decodes : treasuryCrates.Decodes := by
  have differ : rebalanceXdr ≠ clawbackXdr := by decide +kernel
  intro envelope text written
  simp only [treasuryCrates] at written ⊢
  split at written
  · rename_i same
    rw [same, ← Except.ok.inj written, if_pos rfl]
  split at written
  · rename_i same
    rw [same, ← Except.ok.inj written, if_neg differ, if_pos rfl]
  · cases written

theorem treasuryCrates_verifies : treasuryCrates.Verifies := by
  intro seed hash
  simp [treasuryCrates, knownCrates]

/-- A worker with the compliance key and the key of the treasury. -/
def treasuryWorld : World :=
  { testWorld with
    env := fun name =>
      if name = "COMPLIANCE_SECRET_KEY" ∨ name = "LIQUIDITY_TREASURY_SECRET_KEY" then some sourceSecret else none }

theorem clawback_ready : prepareCompliance treasuryCrates treasuryWorld clawbackJob = .ok clawbackXdr := by
  have held : complianceSecret treasuryWorld = some sourceSecret := by decide +kernel
  have network : networkPassphrase treasuryWorld = testnetPassphrase := by decide +kernel
  have target : treasuryCrates.publicKey targetPublic = .ok targetBytes := by decide +kernel
  have asset : buildXdrAsset treasuryCrates.publicKey "USDC" sourcePublic = .ok dollars := by decide +kernel
  have amount : parseStellarAmount true "12.5".toList = .ok 125000000 := by decide +kernel
  have sealed : signed treasuryCrates treasuryWorld seedBytes sourceBytes 12346 (.clawback dollars targetBytes 125000000)
      testnetPassphrase = .ok clawbackXdr := by
    simp only [signed, bind_ok, raise_ok]
    exact ⟨clawbackHash, by simp only [treasuryCrates]; decide +kernel, by simp only [treasuryCrates]; decide +kernel⟩
  simp only [prepareCompliance, held, network, bind_ok, raise_ok]
  refine ⟨sourcePublic, rfl, 12345, rfl, ?_⟩
  simp only [clawbackJob, buildClawbackXdr, if_true, bind_ok, raise_ok, outcome_ok, Option.getD_some]
  exact ⟨seedBytes, rfl, targetBytes, target, dollars, asset, 125000000, amount, 12346, rfl, sealed⟩

theorem settles_job_iff_clawback :
    ∃ secret seed, complianceSecret treasuryWorld = some secret ∧ treasuryCrates.privateKey secret = .ok seed ∧
      ((∃ envelope, treasuryCrates.readXdr clawbackXdr = .ok envelope ∧
          Settles treasuryCrates (fun _ => 12345) (networkPassphrase treasuryWorld) secret clawbackJob envelope) ↔
        Unambiguous clawbackJob ∧ (12345 : ℤ) < i64Max) :=
  settles_job_iff treasuryCrates treasuryWorld (fun _ => 12345) clawbackJob clawbackXdr treasuryCrates_decodes
    treasuryCrates_verifies testWorld_reports (processComplianceJob_submitted_iff.mpr clawback_ready)

end Known

end AfroPay.TreasuryEnvelopes
