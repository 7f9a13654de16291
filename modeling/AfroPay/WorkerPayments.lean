import AfroPay.Panics
import AfroPay.StellarAmounts
import AfroPay.XdrAssets

/-! How the worker carries out a payment job: the account of its own secret is looked up at
Horizon, a payment from that account is built and signed with that secret, and the envelope
is submitted. Who sends and who signs is the secret's business, not the job's. -/
namespace AfroPay.WorkerPayments
open Base64 Json NumberText Panics PathRouting RebalanceAmounts StellarAmounts XdrAssets

structure TransactionJob where
  sourceWallet : String
  destinationWallet : String
  amount : String
  assetCode : String
  assetIssuer : String
  memo : Option String
  requiresCosign : Bool

inductive Memo where
  | none
  | text (bytes : List UInt8)
  deriving DecidableEq

structure PaymentOp where
  destination : Uint256
  asset : XdrAsset
  amount : ℤ
  deriving DecidableEq

structure Operation where
  sourceAccount : Option Uint256
  body : PaymentOp
  deriving DecidableEq

structure TimeBounds where
  minTime : Nat
  maxTime : Nat
  deriving DecidableEq

structure XdrTransaction where
  sourceAccount : Uint256
  fee : Nat
  seqNum : ℤ
  cond : TimeBounds
  memo : Memo
  operations : List Operation
  deriving DecidableEq

abbrev Signature := Vector UInt8 64

structure DecoratedSignature where
  hint : List UInt8
  signature : Signature
  deriving DecidableEq

structure TransactionEnvelope where
  tx : XdrTransaction
  signatures : List DecoratedSignature
  deriving DecidableEq

/-- What the worker takes from its crates for keys, signatures and XDR. -/
structure Crates where
  /-- `PrivateKey::from_string`. -/
  privateKey : String → Except String Uint256
  /-- `PublicKey::from_string`. -/
  publicKey : String → Except String Uint256
  /-- A public key as `format!` shows it. -/
  publicKeyText : Uint256 → String
  /-- The verifying key of the signing key of a seed. -/
  verifyingKey : Uint256 → Uint256
  /-- `tx.hash` for the network of a passphrase. -/
  hash : XdrTransaction → String → Except String Uint256
  sign : Uint256 → Uint256 → Signature
  /-- The signature of a hash is that of the key. -/
  verifies : Uint256 → Uint256 → Signature → Bool
  toXdrBase64 : TransactionEnvelope → Except String String
  fromXdrBase64 : String → Except String TransactionEnvelope

/-- An envelope is decoded to itself. -/
def Crates.RoundTrips (crates : Crates) : Prop :=
  ∀ envelope text, crates.toXdrBase64 envelope = .ok text → crates.fromXdrBase64 text = .ok envelope

structure Response where
  success : Bool
  status : String
  body : Except String Value

/-- Where a worker runs. -/
structure World where
  env : String → Option String
  /-- Seconds. -/
  now : Nat
  overflowChecks : Bool
  get : String → Except String Response
  /-- The URL and the `tx` of the form. -/
  post : String → String → Except String Response

inductive Failure where
  | error (text : String)
  | panicked (text : String)
  deriving DecidableEq

/-- What `?` makes of a result. -/
def raise {α : Type} : Except String α → Except Failure α
  | .ok value => .ok value
  | .error text => .error (.error text)

def outcome : Parsed → Except Failure ℤ
  | .ok n => .ok n
  | .err error => .error (.error error.text)
  | .panicked => .error (.panicked "attempt to add with overflow")

def baseFeeStroops : Nat := 100

def testnetPassphrase : String := "Test SDF Network ; September 2015"

def publicPassphrase : String := "Public Global Stellar Network ; September 2015"

/-- `value[key]`: the last member of that name, and null if there is none. -/
def Value.index (value : Value) (key : String) : Value :=
  match value with
  | .object members => (members.reverse.lookup key).getD .null
  | _ => .null

def trimEndSlashes (url : String) : String := String.ofList (url.toList.rdropWhile (· = '/'))

section Calls

variable (crates : Crates) (world : World)

def derivePublicKey (secret : String) : Except String String :=
  (crates.privateKey secret).map fun seed => crates.publicKeyText (crates.verifyingKey seed)

def fetchAccountSequence (horizonUrl publicKey : String) : Except String ℤ :=
  match world.get (trimEndSlashes horizonUrl ++ "/accounts/" ++ publicKey) with
  | .error error => .error error
  | .ok response =>
    if ¬ response.success then .error ("Horizon account fetch failed: " ++ response.status)
    else match response.body with
      | .error error => .error error
      | .ok account =>
        match Value.index account "sequence" with
        | .string sequence =>
          match parseI64 sequence.toList with
          | .ok n => .ok n
          | .error error => .error (AmountError.notAnInteger error).text
        | _ => .error "Missing sequence in Horizon account response"

def submitXdr (horizonUrl xdr : String) : Except String String :=
  match world.post (trimEndSlashes horizonUrl ++ "/transactions") xdr with
  | .error error => .error error
  | .ok response =>
    match response.body with
    | .error error => .error error
    | .ok body =>
      if ¬ response.success then
        .error ("Horizon submission failed (" ++ response.status ++ "): " ++ String.ofList (stringify body))
      else match Value.index body "hash" with
        | .string hash => .ok hash
        | _ => .error "Missing tx hash in Horizon response"

def buildXdrMemo (memo : String) : Except String Memo :=
  if 28 < (utf8 memo.toList).length then .error "Stellar text memo must be 28 bytes or fewer"
  else .ok (.text (utf8 memo.toList))

def jobMemo (memo : Option String) : Except String Memo :=
  match memo with
  | none => .ok .none
  | some text => buildXdrMemo text

def buildPaymentXdr (job : TransactionJob) (sourceSecret : String) (sequence : ℤ) (networkPassphrase : String) :
    Except Failure String := do
  let seed ← raise (crates.privateKey sourceSecret)
  let sourcePublic := crates.verifyingKey seed
  let destination ← raise (crates.publicKey job.destinationWallet)
  let amount ← outcome (parseStellarAmount world.overflowChecks job.amount.toList)
  let asset ← raise (buildXdrAsset crates.publicKey job.assetCode job.assetIssuer)
  let seqNum ← outcome (uncheckedAdd world.overflowChecks sequence 1)
  let memo ← raise (jobMemo job.memo)
  let tx : XdrTransaction :=
    ⟨sourcePublic, baseFeeStroops, seqNum, ⟨0, world.now + 300⟩, memo, [⟨none, ⟨destination, asset, amount⟩⟩]⟩
  let txHash ← raise (crates.hash tx networkPassphrase)
  raise (crates.toXdrBase64 ⟨tx, [⟨sourcePublic.toList.drop 28, crates.sign seed txHash⟩]⟩)

def networkPassphrase : String :=
  if (world.env "STELLAR_NETWORK").getD "" = "mainnet" then publicPassphrase else testnetPassphrase

def horizonUrl : String := (world.env "STELLAR_HORIZON_URL").getD "https://horizon-testnet.stellar.org"

/-- `process_job` up to the submission. -/
def prepare (job : TransactionJob) : Except Failure String :=
  match world.env "USER_SECRET_KEY" with
  | none => .error (.panicked "USER_SECRET_KEY must be set: NotPresent")
  | some userSecret => do
    let sourcePublic ← raise (derivePublicKey crates userSecret)
    let sequence ← raise (fetchAccountSequence world (horizonUrl world) sourcePublic)
    buildPaymentXdr crates world job userSecret sequence (networkPassphrase world)

/-- A run of the worker over one job: what it submits, what it prints, and how it ends. -/
structure Run where
  submitted : Option String
  printed : List String
  result : Except Failure Unit

def processJob (job : TransactionJob) : Run :=
  match prepare crates world job with
  | .error failure => ⟨none, [], .error failure⟩
  | .ok xdr =>
    match submitXdr world (horizonUrl world) xdr with
    | .error text => ⟨some xdr, [], .error (.error text)⟩
    | .ok hash =>
      ⟨some xdr, ["✅ Transaction submitted successfully!", "   Hash: " ++ hash,
        "   Signatures: " ++ if job.requiresCosign then "2" else "1"], .ok ()⟩

end Calls

/-- The ledger as Horizon reports it: the sequence numbers of accounts. -/
def Reports (world : World) (ledger : String → ℤ) : Prop :=
  ∀ url account sequence, fetchAccountSequence world url account = .ok sequence → sequence = ledger account

/-- Two of the signatures are by different signers. -/
def Cosigned (crates : Crates) (passphrase : String) (envelope : TransactionEnvelope) : Prop :=
  ∃ txHash, crates.hash envelope.tx passphrase = .ok txHash ∧
    ∃ first second key other, [first, second].Sublist envelope.signatures ∧ key ≠ other ∧
      crates.verifies key txHash first.signature = true ∧ crates.verifies other txHash second.signature = true

/-- The envelope is the payment that the job asks for. -/
structure PaysJob (crates : Crates) (ledger : String → ℤ) (passphrase : String) (job : TransactionJob)
    (envelope : TransactionEnvelope) : Prop where
  source : crates.publicKey job.sourceWallet = .ok envelope.tx.sourceAccount
  payment : ∃ destination asset amount, envelope.tx.operations = [⟨none, ⟨destination, asset, amount⟩⟩] ∧
    crates.publicKey job.destinationWallet = .ok destination ∧
    Denotes crates.publicKey asset ⟨job.assetCode, job.assetIssuer⟩ ∧ IsAmount job.amount.toList amount
  memo : envelope.tx.memo = job.memo.elim .none fun text => .text (utf8 text.toList)
  sequence : envelope.tx.seqNum = ledger (crates.publicKeyText envelope.tx.sourceAccount) + 1
  cosigned : job.requiresCosign = true → Cosigned crates passphrase envelope

/-- The job is one that the worker's secret can carry out: it is that account's own, no one
else has to sign, its amount and asset are plain, and a sequence number is left. -/
structure Suits (crates : Crates) (ledger : String → ℤ) (secret : String) (job : TransactionJob) : Prop where
  own : ∃ seed, crates.privateKey secret = .ok seed ∧
    crates.publicKey job.sourceWallet = .ok (crates.verifyingKey seed) ∧
    ledger (crates.publicKeyText (crates.verifyingKey seed)) < i64Max
  alone : job.requiresCosign = false
  amount : Regular job.amount.toList
  issuer : job.assetCode = "XLM" → job.assetIssuer = ""
  code : (utf8 job.assetCode.toList).getLast? ≠ some 0

section Preparing

variable {crates : Crates} {world : World} {job : TransactionJob} {xdr : String}

theorem raise_ok {α : Type} {result : Except String α} {value : α} : raise result = .ok value ↔ result = .ok value := by
  cases result <;> simp [raise]

theorem outcome_ok {parsed : Parsed} {n : ℤ} : outcome parsed = .ok n ↔ parsed = .ok n := by
  cases parsed <;> simp [outcome]

theorem derivePublicKey_ok {secret text : String} : derivePublicKey crates secret = .ok text ↔
    ∃ seed, crates.privateKey secret = .ok seed ∧ crates.publicKeyText (crates.verifyingKey seed) = text := by
  unfold derivePublicKey
  cases crates.privateKey secret <;> simp [Except.map]

/-- A memo that is taken is taken as it is. -/
theorem jobMemo_ok {memo : Option String} {taken : Memo} (ok : jobMemo memo = .ok taken) :
    taken = memo.elim .none fun text => .text (utf8 text.toList) := by
  cases memo with
  | none =>
    cases ok
    rfl
  | some text =>
    rw [jobMemo, buildXdrMemo] at ok
    split at ok
    · cases ok
    · cases ok
      rfl

/-- A sequence number is read as an `i64`. -/
theorem fetchAccountSequence_fits {url account : String} {sequence : ℤ}
    (ok : fetchAccountSequence world url account = .ok sequence) : fitsI64 sequence := by
  unfold fetchAccountSequence at ok
  split at ok
  · cases ok
  split at ok
  · cases ok
  split at ok
  · cases ok
  split at ok
  · split at ok
    · rename_i read
      cases ok
      obtain ⟨sign, digits, -, -, -, -, range⟩ := parseI64_ok_iff.mp read
      exact range
    · cases ok
  · cases ok

/-- Whatever Horizon answers, what was prepared has been submitted. -/
theorem processJob_submitted_iff :
    (processJob crates world job).submitted = some xdr ↔ prepare crates world job = .ok xdr := by
  unfold processJob
  cases prepare crates world job with
  | error failure => simp
  | ok prepared =>
    simp only
    split <;> simp

/-- What has been read and built when an envelope is ready. -/
structure Prepared (crates : Crates) (world : World) (job : TransactionJob) (xdr secret : String)
    (seed destination : Uint256) (amount sequence seqNum : ℤ) (asset : XdrAsset) (tx : XdrTransaction)
    (txHash : Uint256) : Prop where
  held : world.env "USER_SECRET_KEY" = some secret
  decoded : crates.privateKey secret = .ok seed
  fetched : fetchAccountSequence world (horizonUrl world) (crates.publicKeyText (crates.verifyingKey seed)) =
    .ok sequence
  addressed : crates.publicKey job.destinationWallet = .ok destination
  amount_read : parseStellarAmount world.overflowChecks job.amount.toList = .ok amount
  asset_built : buildXdrAsset crates.publicKey job.assetCode job.assetIssuer = .ok asset
  next : uncheckedAdd world.overflowChecks sequence 1 = .ok seqNum
  tx_built : tx = ⟨crates.verifyingKey seed, baseFeeStroops, seqNum, ⟨0, world.now + 300⟩,
    job.memo.elim .none fun text => .text (utf8 text.toList), [⟨none, ⟨destination, asset, amount⟩⟩]⟩
  encoded : crates.toXdrBase64 ⟨tx, [⟨(crates.verifyingKey seed).toList.drop 28, crates.sign seed txHash⟩]⟩ = .ok xdr

theorem prepare_ok (ready : prepare crates world job = .ok xdr) :
    ∃ secret seed destination amount sequence seqNum asset tx txHash,
      Prepared crates world job xdr secret seed destination amount sequence seqNum asset tx txHash := by
  unfold prepare at ready
  split at ready
  · cases ready
  rename_i secret held
  simp only [buildPaymentXdr, bind_ok, raise_ok, outcome_ok, derivePublicKey_ok] at ready
  obtain ⟨_, ⟨seed, decoded, rfl⟩, sequence, fetched, seed', decoded', destination, destination_ok, amount, amount_ok,
    asset, asset_ok, seqNum, next, memo, memo_ok, txHash, -, encoded⟩ := ready
  rw [decoded] at decoded'
  cases decoded'
  rw [jobMemo_ok memo_ok] at encoded
  exact ⟨secret, seed, destination, amount, sequence, seqNum, asset, _, txHash, held, decoded, fetched, destination_ok,
    amount_ok, asset_ok, next, rfl, encoded⟩

end Preparing

/-- Of every run that submits an envelope: it is the payment that the job asks for just when
the job suits the worker's secret. -/
theorem pays_job_iff (crates : Crates) (world : World) (ledger : String → ℤ) (job : TransactionJob) (xdr : String)
    (round_trips : crates.RoundTrips) (reports : Reports world ledger)
    (reached : (processJob crates world job).submitted = some xdr) :
    (∃ envelope, crates.fromXdrBase64 xdr = .ok envelope ∧
      PaysJob crates ledger (networkPassphrase world) job envelope) ↔
      ∃ secret, world.env "USER_SECRET_KEY" = some secret ∧ Suits crates ledger secret job := by
  obtain ⟨secret, seed, destination, amount, sequence, seqNum, asset, tx, txHash, prepared⟩ :=
    prepare_ok (processJob_submitted_iff.mp reached)
  obtain rfl := reports _ _ _ prepared.fetched
  have decoded := round_trips _ _ prepared.encoded
  have fits := fetchAccountSequence_fits prepared.fetched
  have exact_next := uncheckedAdd_exact_iff prepared.next
  have amounts := isAmount_iff prepared.amount_read
  have assets := denotes_iff prepared.asset_built
  obtain rfl := prepared.tx_built
  have room : fitsI64 (ledger (crates.publicKeyText (crates.verifyingKey seed)) + 1) ↔
      ledger (crates.publicKeyText (crates.verifyingKey seed)) < i64Max := by
    unfold fitsI64 at *
    omega
  constructor
  · rintro ⟨envelope, decoded', pays⟩
    rw [decoded] at decoded'
    cases decoded'
    obtain ⟨destination', asset', amount', operations, -, denotes, is_amount⟩ := pays.payment
    cases operations
    obtain ⟨issuer, code⟩ := assets.mp denotes
    refine ⟨secret, prepared.held, ⟨seed, prepared.decoded, pays.source, room.mp (exact_next.mp pays.sequence)⟩, ?_,
      amounts.mp is_amount, issuer, code⟩
    -- The one signature is not two.
    by_contra cosign
    obtain ⟨-, -, first, second, -, -, both, -⟩ := pays.cosigned (Bool.not_eq_false _ |>.mp cosign)
    have two := both.length_le
    simp at two
  · rintro ⟨secret', held, suits⟩
    obtain rfl : secret = secret' := Option.some.inj (prepared.held.symm.trans held)
    obtain ⟨seed', decoded', own, below⟩ := suits.own
    obtain rfl : seed = seed' := Except.ok.inj (prepared.decoded.symm.trans decoded')
    refine ⟨_, decoded, own, ⟨destination, asset, amount, rfl, prepared.addressed,
      assets.mpr ⟨suits.issuer, suits.code⟩, amounts.mpr suits.amount⟩, rfl, exact_next.mpr (room.mpr below), ?_⟩
    intro cosign
    rw [suits.alone] at cosign
    cases cosign

def sourceSecret : String := "SA2YNBQZ6FJ6OKMOQHZ2BUZBS5ERLSOXFPUCXJ66ASOLFSLG57YPOOHH"

def seedBytes : Uint256 :=
  #v[53, 134, 134, 25, 241, 83, 231, 41, 142, 129, 243, 160, 211, 33, 151, 73, 21, 201, 215, 43, 232, 43, 167, 222, 4,
    156, 178, 201, 102, 239, 240, 247]

/-- A payment of 12.3456789 lumens. -/
def roundTripJob (requiresCosign : Bool) : TransactionJob where
  sourceWallet := sourcePublic
  destinationWallet := targetPublic
  amount := "12.3456789"
  assetCode := "XLM"
  assetIssuer := ""
  memo := some "round-trip"
  requiresCosign := requiresCosign

def roundTripTransaction : XdrTransaction where
  sourceAccount := sourceBytes
  fee := 100
  seqNum := 12346
  cond := ⟨0, 1700000300⟩
  memo := .text (utf8 "round-trip".toList)
  operations := [⟨none, ⟨targetBytes, .native, 123456789⟩⟩]

def roundTripHash : Uint256 :=
  #v[62, 93, 41, 151, 60, 152, 158, 94, 187, 188, 5, 54, 223, 48, 25, 54, 203, 134, 158, 136, 110, 142, 123, 215, 225, 2,
    153, 211, 71, 216, 169, 11]

def roundTripSignature : Signature :=
  #v[23, 17, 56, 86, 222, 204, 82, 193, 115, 134, 152, 196, 91, 25, 247, 79, 134, 232, 158, 88, 75, 104, 26, 159, 85, 56,
    164, 117, 2, 29, 20, 159, 212, 245, 248, 138, 185, 84, 164, 30, 133, 216, 246, 209, 5, 214, 240, 19, 46, 87, 158, 7,
    223, 82, 169, 16, 181, 147, 168, 246, 3, 89, 115, 10]

def roundTripEnvelope : TransactionEnvelope := ⟨roundTripTransaction, [⟨[214, 150, 42, 61], roundTripSignature⟩]⟩

def roundTripXdr : String :=
  "AAAAAgAAAAByOuWN93C7AibPccGGxBYSGx1EDJuaMepU1Oft1pYqPQAAAGQAAAAAAAAwOgAAAAEAAAAAAAAAAAAAAABlU/IsAAAAAQAA" ++
    "AApyb3VuZC10cmlwAAAAAAABAAAAAAAAAAEAAAAAdozpaW5+YpPTgcZMgMrsFwTqj147NjadDlFk4EDYvoYAAAAAAAAAAAdbzRUAAAAA" ++
    "AAAAAdaWKj0AAABAFxE4Vt7MUsFzhpjEWxn3T4bonlhLaBqfVTikdQIdFJ/U9fiKuVSkHoXY9tEF1vATLleeB99SqRC1k6j2A1lzCg=="

/-- The crates on one secret, two accounts and one envelope. -/
def knownCrates : Crates where
  privateKey text := if text = sourceSecret then .ok seedBytes else .error "the strkey is invalid"
  publicKey := knownKeys
  publicKeyText key := if key = sourceBytes then sourcePublic else targetPublic
  verifyingKey _ := sourceBytes
  hash tx passphrase :=
    if tx = roundTripTransaction ∧ passphrase = testnetPassphrase then .ok roundTripHash
    else .error "xdr value max depth limit exceeded"
  sign _ _ := roundTripSignature
  verifies key txHash signature := key = sourceBytes ∧ txHash = roundTripHash ∧ signature = roundTripSignature
  toXdrBase64 envelope :=
    if envelope = roundTripEnvelope then .ok roundTripXdr else .error "xdr value max depth limit exceeded"
  fromXdrBase64 text := if text = roundTripXdr then .ok roundTripEnvelope else .error "xdr value invalid"

theorem knownCrates_decodes : knownCrates.fromXdrBase64 roundTripXdr = .ok roundTripEnvelope := by
  simp only [knownCrates, if_true]

theorem knownCrates_roundTrips : knownCrates.RoundTrips := by
  intro envelope text encoded
  simp only [knownCrates] at encoded
  split at encoded
  · rename_i same
    rw [same, ← Except.ok.inj encoded]
    exact knownCrates_decodes
  · cases encoded

/-- A testnet worker whose account has the sequence number 12345. -/
def testWorld : World where
  env name := if name = "USER_SECRET_KEY" then some sourceSecret else none
  now := 1700000000
  overflowChecks := true
  get _ := .ok ⟨true, "200 OK", .ok (.object [("sequence", .string "12345")])⟩
  post _ _ := .ok ⟨true, "200 OK",
    .ok (.object [("hash", .string "3e5d29973c989e5ebbbc0536df301936cb869e886e8e7bd7e10299d347d8a90b")])⟩

theorem roundTrip_ready (requiresCosign : Bool) :
    prepare knownCrates testWorld (roundTripJob requiresCosign) = .ok roundTripXdr := by
  have destination : knownKeys targetPublic = .ok targetBytes := by decide +kernel
  have amount : parseStellarAmount true "12.3456789".toList = .ok 123456789 := by decide +kernel
  have hashed : knownCrates.hash roundTripTransaction testnetPassphrase = .ok roundTripHash := by
    simp only [knownCrates, and_self, if_true]
  have encoded : knownCrates.toXdrBase64 roundTripEnvelope = .ok roundTripXdr := by
    simp only [knownCrates, if_true]
  have built : buildPaymentXdr knownCrates testWorld (roundTripJob requiresCosign) sourceSecret 12345
      testnetPassphrase = .ok roundTripXdr := by
    simp only [buildPaymentXdr, bind_ok, raise_ok, outcome_ok]
    exact ⟨seedBytes, rfl, targetBytes, destination, 123456789, amount, .native, rfl, 12346, rfl, _, rfl, roundTripHash,
      hashed, encoded⟩
  have held : testWorld.env "USER_SECRET_KEY" = some sourceSecret := by decide +kernel
  have network : networkPassphrase testWorld = testnetPassphrase := by decide +kernel
  simp only [prepare, held, network, bind_ok, raise_ok]
  exact ⟨sourcePublic, rfl, 12345, rfl, built⟩

theorem testWorld_reports : Reports testWorld fun _ => 12345 := by
  intro url account sequence fetched
  have answer : fetchAccountSequence testWorld url account = .ok 12345 := rfl
  rw [answer] at fetched
  exact (Except.ok.inj fetched).symm

theorem pays_job_iff_lumens :
    (∃ envelope, knownCrates.fromXdrBase64 roundTripXdr = .ok envelope ∧
      PaysJob knownCrates (fun _ => 12345) (networkPassphrase testWorld) (roundTripJob false) envelope) ↔
      ∃ secret, testWorld.env "USER_SECRET_KEY" = some secret ∧
        Suits knownCrates (fun _ => 12345) secret (roundTripJob false) :=
  pays_job_iff knownCrates testWorld (fun _ => 12345) (roundTripJob false) roundTripXdr knownCrates_roundTrips
    testWorld_reports (processJob_submitted_iff.mpr (roundTrip_ready false))

/-- A job that a cosigner has to sign is submitted with one signature, and two are printed. -/
theorem cosigner_missing :
    (processJob knownCrates testWorld (roundTripJob true)).submitted = some roundTripXdr ∧
      "   Signatures: 2" ∈ (processJob knownCrates testWorld (roundTripJob true)).printed ∧
      ¬ ∃ envelope, knownCrates.fromXdrBase64 roundTripXdr = .ok envelope ∧
        PaysJob knownCrates (fun _ => 12345) (networkPassphrase testWorld) (roundTripJob true) envelope := by
  refine ⟨processJob_submitted_iff.mpr (roundTrip_ready true), ?_, ?_⟩
  · have answered : submitXdr testWorld (horizonUrl testWorld) roundTripXdr =
        .ok "3e5d29973c989e5ebbbc0536df301936cb869e886e8e7bd7e10299d347d8a90b" := rfl
    simp only [processJob, roundTrip_ready, answered]
    exact List.mem_cons_of_mem _ (List.mem_cons_of_mem _ (List.mem_singleton.mpr (by decide +kernel)))
  rintro ⟨envelope, decoded, pays⟩
  obtain rfl := Except.ok.inj (knownCrates_decodes.symm.trans decoded)
  obtain ⟨-, -, first, second, -, -, both, -⟩ := pays.cosigned rfl
  have two : 2 ≤ 1 := both.length_le
  omega

end AfroPay.WorkerPayments
