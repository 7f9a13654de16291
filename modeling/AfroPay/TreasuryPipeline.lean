import AfroPay.RebalanceDispatch
import AfroPay.TreasuryEnvelopes

/-! A rebalance from its check to its result: the API pushes a job to the Redis list, a worker
pops it, pays it once and calls back, and the API records what it is told. Any number of checks,
workers and callbacks are under way, each call may fail and each callback may be lost. -/
namespace AfroPay.TreasuryPipeline
open Json Liquidity NumberText Panics RebalanceAmounts Runs TreasuryEnvelopes WorkerJobs WorkerPayments XdrAssets

/-- A job that led to an envelope, and what Horizon made of it. -/
structure Submission where
  job : Worker.LiquidityRebalanceJob
  xdr : String
  result : Except Failure String

/-- A result on its way to the API. -/
structure Callback where
  rebalanceId : String
  result : LiquidityExecutionResult

structure Pipeline where
  api : State
  /-- How many jobs have been popped from the list. -/
  popped : Nat
  submissions : List Submission
  callbacks : List Callback

def Pipeline.start (now : Nat) : Pipeline := ⟨State.start now, 0, [], []⟩

inductive Event where
  /-- A step of the API that is not the arrival of a callback. -/
  | api (event : Liquidity.Event)
  /-- A worker takes a job. -/
  | receive (world : World)
  | callback (i : Nat) (arrives : Bool)

/-- The Redis list. -/
def Pipeline.queue (s : Pipeline) : Queue := (s.api.jobs.map fun job => stringify (liquidityJson job)).drop s.popped

/-- `report_result` up to the request. -/
def reportResult (world : World) (job : Worker.LiquidityRebalanceJob) (success : Bool) (txHash error : Option String) :
    Option Callback :=
  match world.env "LIQUIDITY_RESULT_URL" with
  | none => none
  | some url =>
    if isBlank url then none
    else (world.env "LIQUIDITY_WORKER_TOKEN").map fun _ => ⟨job.rebalanceId, ⟨success, txHash, error⟩⟩

/-- What `process_rebalance_job` reports. A panic ends the task before it can. -/
def processRebalanceJob (world : World) (job : Worker.LiquidityRebalanceJob) : Except Failure String → Option Callback
  | .ok txHash => reportResult world job true (some txHash) none
  | .error (.error text) => reportResult world job false none (some text)
  | .error (.panicked _) => none

/-- The envelope exchanges what the row says, from the treasury to the corridor's reserve. -/
def PaysRow (crates : TreasuryCrates) (settings : Settings) (row : Row) (xdr : String) : Prop :=
  ∃ envelope sendAsset destination destAsset, crates.readXdr xdr = .ok envelope ∧
    crates.publicKey (settings.treasuryPublicKey.getD "") = .ok envelope.tx.sourceAccount ∧
    envelope.tx.operations = [⟨none,
      .pathPaymentStrictSend sendAsset row.sourceAmount destination destAsset row.amount []⟩] ∧
    crates.publicKey ((settings.getReserveAccount row.corridor).getD "") = .ok destination ∧
    buildXdrAsset crates.publicKey row.fromAsset ((settings.getIssuer row.fromAsset).getD "") = .ok sendAsset ∧
    buildXdrAsset crates.publicKey row.toAsset ((settings.getIssuer row.toAsset).getD "") = .ok destAsset

/-- Of every state that a run can reach: a rebalance is submitted at most once, with the terms
of its row, and only what was submitted is recorded as executed, under the hash it was given. -/
structure Sound (crates : TreasuryCrates) (settings : Settings) (s : Pipeline) : Prop where
  once : (s.submissions.map fun submission => submission.job.rebalanceId).Nodup
  faithful : ∀ submission ∈ s.submissions, ∃ (id : Nat) (row : Row), submission.job.rebalanceId = toString id ∧
    s.api.rows[id]? = some row ∧
    ((row.sourceAmount : ℤ) ≤ i64Max → (row.amount : ℤ) ≤ i64Max → PaysRow crates settings row submission.xdr)
  executed : ∀ (id : Nat) (row : Row), s.api.rows[id]? = some row → row.status = .executed →
    ∃ submission ∈ s.submissions, submission.job.rebalanceId = toString id ∧
      ∃ txHash, submission.result = .ok txHash ∧ row.txHash = some txHash

section Amounts

/-- An amount that fits is read as itself, if it is read. -/
theorem parseStellarAmount_render {overflowChecks : Bool} {units : Nat} {n : ℤ} (fits : (units : ℤ) ≤ i64Max)
    (read : parseStellarAmount overflowChecks (render 7 units) = .ok n) : n = units := by
  rcases Nat.lt_or_ge units 10 with small | ten
  · have few : ∀ checks : Bool, ∀ m ∈ List.range 10, ∀ read ∈ [parseStellarAmount checks (render 7 m)],
        read = .ok m ∨ read = .err (.notAnInteger .invalidDigit) := by
      decide +kernel
    have cases := few overflowChecks units (List.mem_range.mpr small) _ (List.mem_singleton.mpr rfl)
    rw [read] at cases
    rcases cases with same | refused
    · exact Parsed.ok.inj same
    · cases refused
  · obtain ⟨-, exactly⟩ := (parseStellarAmount_render_iff overflowChecks units).mpr ⟨ten, fits⟩
    exact Parsed.ok.inj (read.symm.trans exactly)

end Amounts

section Preparing

variable {crates : TreasuryCrates} {settings : Settings} {world : World} {job : Worker.LiquidityRebalanceJob} {xdr : String}

theorem processRebalanceJobInner_submitted_iff :
    (processRebalanceJobInner crates world job).submitted = some xdr ↔ prepareRebalance crates world job = .ok xdr := by
  unfold processRebalanceJobInner
  cases prepareRebalance crates world job with
  | error failure => simp
  | ok prepared => simp

/-- A result with a hash is that of an envelope. -/
theorem processRebalanceJobInner_ok {txHash : String} (ok : (processRebalanceJobInner crates world job).result = .ok txHash) :
    ∃ xdr, (processRebalanceJobInner crates world job).submitted = some xdr := by
  unfold processRebalanceJobInner at ok ⊢
  cases prepared : prepareRebalance crates world job with
  | error failure =>
    rw [prepared] at ok
    cases ok
  | ok xdr => exact ⟨xdr, rfl⟩

/-- What has been read and built when the envelope of a rebalance is ready. -/
structure Planned (crates : TreasuryCrates) (world : World) (job : Worker.LiquidityRebalanceJob) (xdr : String)
    (seed source destination : Uint256) (seqNum sendAmount destMin : ℤ) (sendAsset destAsset : XdrAsset) : Prop where
  source_ok : crates.publicKey job.treasuryAccount = .ok source
  destination_ok : crates.publicKey job.destinationAccount = .ok destination
  sendAsset_ok : buildXdrAsset crates.publicKey job.fromAsset job.fromAssetIssuer = .ok sendAsset
  destAsset_ok : buildXdrAsset crates.publicKey job.toAsset job.toAssetIssuer = .ok destAsset
  sendAmount_ok : parseStellarAmount world.overflowChecks job.sourceAmount.toList = .ok sendAmount
  destMin_ok : parseStellarAmount world.overflowChecks job.destinationMinAmount.toList = .ok destMin
  sealed : signed crates world seed source seqNum
    (.pathPaymentStrictSend sendAsset sendAmount destination destAsset destMin []) (rebalancePassphrase job) = .ok xdr

theorem prepareRebalance_ok (ready : prepareRebalance crates world job = .ok xdr) :
    ∃ seed source destination seqNum sendAmount destMin sendAsset destAsset,
      Planned crates world job xdr seed source destination seqNum sendAmount destMin sendAsset destAsset := by
  simp only [prepareRebalance, bind_ok, raise_ok] at ready
  obtain ⟨-, -, ready⟩ := ready
  split at ready
  · cases ready
  simp only [bind_ok, raise_ok] at ready
  obtain ⟨derived, -, ready⟩ := ready
  split at ready
  · cases ready
  simp only [buildPathPaymentStrictSendXdr, bind_ok, raise_ok] at ready
  obtain ⟨sequence, -, seed, -, source, source_ok, destination, destination_ok, derived', -, ready⟩ := ready
  split at ready
  · cases ready
  simp only [bind_ok, raise_ok, outcome_ok] at ready
  obtain ⟨seqNum, -, sendAsset, sendAsset_ok, sendAmount, sendAmount_ok, destAsset, destAsset_ok, destMin, destMin_ok,
    sealed⟩ := ready
  exact ⟨seed, source, destination, seqNum, sendAmount, destMin, sendAsset, destAsset, source_ok, destination_ok,
    sendAsset_ok, destAsset_ok, sendAmount_ok, destMin_ok, sealed⟩

/-- The job of a row is paid as the row says. -/
theorem paysRow_of_prepared (decodes : crates.Decodes) {corridor : CorridorConfig} {id a b : Nat} {row : Row}
    (terms : row.terms = corridor.terms a b) (same : job.Same (rebalanceJob settings corridor id a b))
    (ready : prepareRebalance crates world job = .ok xdr) (source_fits : (row.sourceAmount : ℤ) ≤ i64Max)
    (amount_fits : (row.amount : ℤ) ≤ i64Max) : PaysRow crates settings row xdr := by
  obtain ⟨seed, source, destination, seqNum, sendAmount, destMin, sendAsset, destAsset, planned⟩ :=
    prepareRebalance_ok ready
  have sealed := planned.sealed
  simp only [signed, bind_ok, raise_ok] at sealed
  obtain ⟨hash, -, written⟩ := sealed
  simp only [Row.terms, CorridorConfig.terms, Terms.mk.injEq] at terms
  obtain ⟨name, fromAsset, toAsset, sourceAmount, amount⟩ := terms
  subst same
  have source_ok := planned.source_ok
  have destination_ok := planned.destination_ok
  have sendAsset_ok := planned.sendAsset_ok
  have destAsset_ok := planned.destAsset_ok
  have sendAmount_ok := planned.sendAmount_ok
  have destMin_ok := planned.destMin_ok
  simp only [rebalanceJob, String.toList_ofList] at source_ok destination_ok sendAsset_ok destAsset_ok sendAmount_ok destMin_ok
  rw [← sourceAmount] at sendAmount_ok
  rw [← amount] at destMin_ok
  rw [← name] at destination_ok
  rw [← fromAsset] at sendAsset_ok
  rw [← toAsset] at destAsset_ok
  obtain rfl := parseStellarAmount_render source_fits sendAmount_ok
  obtain rfl := parseStellarAmount_render amount_fits destMin_ok
  exact ⟨_, sendAsset, destination, destAsset, decodes _ _ written, source_ok, rfl, destination_ok, sendAsset_ok, destAsset_ok⟩

end Preparing

section Reporting

variable {world : World} {job : Worker.LiquidityRebalanceJob} {callback : Callback}

/-- A success that is reported is one, with its hash. -/
theorem processRebalanceJob_success {result : Except Failure String}
    (reported : processRebalanceJob world job result = some callback) :
    callback.rebalanceId = job.rebalanceId ∧
      (callback.result.success = true → ∃ txHash, result = .ok txHash ∧ callback.result.txHash = some txHash) := by
  have sent {success : Bool} {txHash error : Option String} (given : reportResult world job success txHash error = some callback) :
      callback = ⟨job.rebalanceId, ⟨success, txHash, error⟩⟩ := by
    unfold reportResult at given
    split at given
    · cases given
    split at given
    · cases given
    · obtain ⟨token, -, rfl⟩ := Option.map_eq_some_iff.mp given
      rfl
  match result with
  | .ok txHash =>
    obtain rfl := sent reported
    exact ⟨rfl, fun _ => ⟨txHash, rfl, rfl⟩⟩
  | .error (.error text) =>
    obtain rfl := sent reported
    exact ⟨rfl, fun impossible => by cases impossible⟩
  | .error (.panicked text) => cases reported

end Reporting

section Running

variable {crates : TreasuryCrates} {settings : Settings}

/-- A result with a hash is that of a submission for the rebalance. -/
def Vouched (submissions : List Submission) (rebalanceId : String) (result : LiquidityExecutionResult) : Prop :=
  result.success = true → ∃ submission ∈ submissions, submission.job.rebalanceId = rebalanceId ∧
    ∃ txHash, submission.result = .ok txHash ∧ result.txHash = some txHash

theorem Vouched.more {submissions : List Submission} {rebalanceId : String} {result : LiquidityExecutionResult}
    (vouched : Vouched submissions rebalanceId result) (later : List Submission) :
    Vouched (submissions ++ later) rebalanceId result := by
  intro success
  obtain ⟨submission, member, rest⟩ := vouched success
  exact ⟨submission, List.mem_append_left later member, rest⟩

/-- The submission is for a job with the terms of a row. -/
def Covered (crates : TreasuryCrates) (settings : Settings) (rows : List Row) (submission : Submission) : Prop :=
  ∃ (id : Nat) (corridor : CorridorConfig) (a b : Nat) (row : Row) (world : World), rows[id]? = some row ∧
    row.terms = corridor.terms a b ∧ submission.job.Same (rebalanceJob settings corridor id a b) ∧
    prepareRebalance crates world submission.job = .ok submission.xdr

/-- What carries the pipeline through every step. -/
structure Accounted (crates : TreasuryCrates) (settings : Settings) (s : Pipeline) : Prop where
  dispatched : Dispatched settings s.api
  popped : s.popped ≤ s.api.jobs.length
  handled : (s.submissions.map fun submission => submission.job.rebalanceId).Sublist (s.api.jobIds.take s.popped)
  covered : ∀ submission ∈ s.submissions, Covered crates settings s.api.rows submission
  truthful : ∀ callback ∈ s.callbacks, Vouched s.submissions callback.rebalanceId callback.result
  reported : ∀ (i : Nat) (report : Report), s.api.reports[i]? = some report →
    Vouched s.submissions (toString report.rebalanceId) report.result
  executed : ∀ (id : Nat) (row : Row), s.api.rows[id]? = some row → row.status = .executed →
    ∃ submission ∈ s.submissions, submission.job.rebalanceId = toString id ∧
      ∃ txHash, submission.result = .ok txHash ∧ row.txHash = some txHash

theorem Covered.later {rows rows' : List Row} {submission : Submission}
    (kept : ∀ (id : Nat) (row : Row), rows[id]? = some row → ∃ row', rows'[id]? = some row' ∧ row'.terms = row.terms)
    (covered : Covered crates settings rows submission) : Covered crates settings rows' submission := by
  obtain ⟨id, corridor, a, b, row, world, there, terms, same, ready⟩ := covered
  obtain ⟨row', there', terms'⟩ := kept id row there
  exact ⟨id, corridor, a, b, row', world, there', terms'.trans terms, same, ready⟩

/-- A step of the API whose new report, if it is one, is vouched for. -/
theorem Accounted.api {s : Pipeline} (accounted : Accounted crates settings s) (event : Liquidity.Event)
    (vouched : ∀ id result, event = .recordExecutionResult id result → Vouched s.submissions (toString id) result) :
    Accounted crates settings { s with api := step settings s.api event } := by
  have jobs : s.api.jobs <+: (step settings s.api event).jobs := by
    rcases step_jobs settings s.api event with same | ⟨_, _, _, _, _, _, _, added, -⟩
    · rw [same]
    · rw [added]
      exact List.prefix_append _ _
  refine ⟨step_dispatched settings s.api event accounted.dispatched, accounted.popped.trans jobs.length_le, ?_, ?_,
    accounted.truthful, ?_, ?_⟩
  · obtain ⟨later, split⟩ := jobs
    have fits : s.popped ≤ s.api.jobIds.length := by simpa [State.jobIds] using accounted.popped
    have grown : (step settings s.api event).jobIds = s.api.jobIds ++ later.map Api.LiquidityRebalanceJob.rebalanceId := by
      rw [State.jobIds, ← split, List.map_append, State.jobIds]
    simp only [grown, List.take_append_of_le_length fits]
    exact accounted.handled
  · exact fun submission member => (accounted.covered submission member).later
      fun id row there => step_terms settings s.api event there
  · intro i report there
    rcases step_report_origin settings s.api event there with ⟨before, found, id, result⟩ | new
    · rw [← id, ← result]
      exact accounted.reported i before found
    · exact vouched _ _ new
  · intro id row there status
    rcases step_executed settings s.api event there status with before | ⟨i, report, found, same, success, hash⟩
    · exact accounted.executed id row before status
    · subst same
      obtain ⟨submission, member, owner, txHash, result, reported⟩ := accounted.reported i report found success
      exact ⟨submission, member, owner, txHash, result, hash.trans reported⟩

/-- The job that a worker receives is the next one that was pushed. -/
theorem receive_next {s : Pipeline} {job : Worker.LiquidityRebalanceJob}
    (received : (WorkerJobs.receive decodeLiquidity s.queue).1 = .ok (some job)) :
    ∃ sent, s.api.jobs[s.popped]? = some sent ∧ job.Same sent := by
  cases waiting : s.queue with
  | nil =>
    rw [waiting] at received
    cases received
  | cons entry rest =>
    rw [waiting] at received
    have first : (s.api.jobs.map fun job => stringify (liquidityJson job))[s.popped]? = some entry := by
      have head : s.queue[0]? = some entry := by rw [waiting]; rfl
      rwa [Pipeline.queue, List.getElem?_drop, Nat.add_zero] at head
    rw [List.getElem?_map] at first
    obtain ⟨sent, there, rfl⟩ := Option.map_eq_some_iff.mp first
    obtain ⟨decoded, read, same⟩ := decodeLiquidity_stringify sent
    rw [WorkerJobs.receive, read] at received
    cases received
    exact ⟨sent, there, same⟩

theorem Accounted.receive {s : Pipeline} (accounted : Accounted crates settings s) (world : World)
    {job : Worker.LiquidityRebalanceJob} (received : (WorkerJobs.receive decodeLiquidity s.queue).1 = .ok (some job)) :
    let processed := processRebalanceJobInner crates world job
    Accounted crates settings { s with
      popped := s.popped + 1
      submissions := s.submissions ++ (processed.submitted.map (⟨job, ·, processed.result⟩)).toList
      callbacks := s.callbacks ++ (processRebalanceJob world job processed.result).toList } := by
  obtain ⟨sent, there, same⟩ := receive_next received
  have bound := (List.getElem?_eq_some_iff.mp there).1
  have next : s.api.jobIds.take (s.popped + 1) = s.api.jobIds.take s.popped ++ [job.rebalanceId] := by
    have id : s.api.jobIds[s.popped]? = some job.rebalanceId := by
      rw [State.jobIds, List.getElem?_map, there, same]
      rfl
    rw [List.take_add_one, id, Option.toList_some]
  intro processed
  refine ⟨accounted.dispatched, bound, ?_, ?_, ?_, ?_, ?_⟩
  · simp only [next, List.map_append]
    refine accounted.handled.append ?_
    cases processed.submitted with
    | none => exact List.nil_sublist _
    | some xdr => exact List.Sublist.refl _
  · intro submission member
    rcases List.mem_append.mp member with old | new
    · exact accounted.covered submission old
    · rw [Option.mem_toList] at new
      obtain ⟨xdr, submitted, rfl⟩ := Option.map_eq_some_iff.mp new
      obtain ⟨id, corridor, a, b, row, found, terms, rfl⟩ :=
        accounted.dispatched.pushed sent (List.mem_of_getElem? there)
      exact ⟨id, corridor, a, b, row, world, found, terms, same, processRebalanceJobInner_submitted_iff.mp submitted⟩
  · intro callback member
    rcases List.mem_append.mp member with old | new
    · exact (accounted.truthful callback old).more _
    · rw [Option.mem_toList] at new
      obtain ⟨owner, truth⟩ := processRebalanceJob_success new
      intro success
      obtain ⟨txHash, result, hash⟩ := truth success
      obtain ⟨xdr, submitted⟩ := processRebalanceJobInner_ok result
      refine ⟨⟨job, xdr, processed.result⟩, List.mem_append_right _ ?_, owner.symm, txHash, result, hash⟩
      rw [Option.mem_toList]
      exact Option.map_eq_some_iff.mpr ⟨xdr, submitted, rfl⟩
  · exact fun i report found => (accounted.reported i report found).more _
  · intro id row found status
    obtain ⟨submission, member, rest⟩ := accounted.executed id row found status
    exact ⟨submission, List.mem_append_left _ member, rest⟩

theorem Accounted.sound (decodes : crates.Decodes) {s : Pipeline} (accounted : Accounted crates settings s) :
    Sound crates settings s := by
  refine ⟨?_, ?_, accounted.executed⟩
  · exact accounted.handled.nodup (accounted.dispatched.once.sublist (List.take_sublist _ _))
  · intro submission member
    obtain ⟨id, corridor, a, b, row, world, there, terms, same, ready⟩ := accounted.covered submission member
    refine ⟨id, row, ?_, there, paysRow_of_prepared decodes terms same ready⟩
    rw [same]
    rfl

end Running

end AfroPay.TreasuryPipeline
