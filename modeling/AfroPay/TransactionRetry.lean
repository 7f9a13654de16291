import AfroPay.Settlement

/-! The attempts of one job of the `transactions` queue, one after the other: what
`handleSendTransaction` makes of the row in each of them, when Bull delivers the job
again, and when `routeFailedJobToDlq` adds it to the dead-letter queue. The adds to the
dead-letter queue succeed, as Bull's own bookkeeping does. -/
namespace AfroPay.Retry
open Transfer Settlement Runs

def transactionMaxAttempts : Nat := 3

def transactionQueueName : String := "transactions"

def transactionDlqJobName : String := "failed-transaction"

/-- How the calls of one attempt to the outside end. Those it does not get to do not
matter. -/
structure Attempt where
  findUnique : Bool
  acquire : Bool
  /-- The fraud service's score and flag, or a failure. -/
  score : Option (ℚ × Bool)
  /-- The update in which the fraud check ends. -/
  persist : Bool
  /-- The hash, or a failure. -/
  processOnChain : Option String
  /-- The update to `SUCCESS`. -/
  succeed : Bool
  /-- The update to `FAILED` in the catch block. -/
  fail : Bool
  release : Bool
  deriving DecidableEq

inductive Submission where
  | unreached
  | threw
  | returned (hash : String)
  deriving DecidableEq

/-- What an attempt leaves of the row, whether it threw, what became of its submission,
and whether the fraud or the integrity check stopped it. -/
structure Attempted where
  row : Transaction
  threw : Bool
  submission : Submission
  stopped : Bool
  deriving DecidableEq

inductive FraudCheck where
  | threw
  | blocked (row : Transaction)
  | passed (row : Transaction) (riskScore : ℚ) (flagged : Bool)
  deriving DecidableEq

def runFraudCheck (row : Transaction) (attempt : Attempt) : FraudCheck :=
  if !attempt.persist then .threw
  else match attempt.score with
    -- Fail closed: an unreachable fraud service blocks the transaction.
    | none => .blocked { row with status := .failed, riskScore := none, flagged := false }
    | some (riskScore, flagged) =>
      if riskScore ≥ fraudBlockThreshold then
        .blocked { row with status := .failed, riskScore := some riskScore, flagged := true }
      else if riskScore ≥ fraudReviewThreshold then
        .blocked { row with status := .pendingReview, riskScore := some riskScore, flagged := true }
      else .passed { row with riskScore := some riskScore, flagged } riskScore flagged

/-- The catch block: it records `FAILED` and throws on. -/
def caught (row : Transaction) (attempt : Attempt) (submission : Submission) : Attempted :=
  ⟨if attempt.fail then { row with status := .failed } else row, true, submission, false⟩

/-- The try block around `processOnChain`, for a row that has passed the fraud check. -/
def submit (row : Transaction) (attempt : Attempt) (riskScore : ℚ) (flagged : Bool) : Attempted :=
  match attempt.processOnChain with
  | none => caught row attempt .threw
  | some hash =>
    if attempt.succeed then
      ⟨{ row with status := .success, stellarTxHash := some hash, riskScore := some riskScore, flagged },
        false, .returned hash, false⟩
    else caught row attempt (.returned hash)

def processTransaction (job : JobData) (row : Transaction) (attempt : Attempt) : Attempted :=
  match assertTransactionAmountIntegrity job.body.amount row.amount with
  | .error _ => ⟨row, true, .unreached, true⟩
  | .ok _ =>
    match runFraudCheck row attempt with
    | .threw => ⟨row, true, .unreached, false⟩
    | .blocked row => ⟨row, false, .unreached, true⟩
    | .passed row riskScore flagged => submit row attempt riskScore flagged

def handleSendTransaction (job : JobData) (row : Transaction) (attempt : Attempt) : Attempted :=
  if !attempt.findUnique then ⟨row, true, .unreached, false⟩
  else if row.status.terminal then ⟨row, false, .unreached, false⟩
  else if !attempt.acquire then ⟨row, true, .unreached, false⟩
  else
    let result := processTransaction job row attempt
    { result with threw := result.threw || !attempt.release }

/-- A job as `sendTransfer` enqueues it for the row it has just created. -/
structure Job where
  id : String
  data : JobData
  row : Transaction
  created : row.status = .pending

structure TransactionDlqPayload where
  originalQueue : String
  originalJobId : String
  payload : JobData
  attemptsMade : Nat
  maxAttempts : Nat
  deriving DecidableEq

/-- The entry's job id on the dead-letter queue. -/
def dlqJobId (jobId : String) (attemptsMade : Nat) : String :=
  transactionDlqJobName ++ ":" ++ jobId ++ ":" ++ toString attemptsMade

/-- Bull adds no second job under an id. -/
def addUnlessPresent (dlq : List (String × TransactionDlqPayload)) (id : String) (payload : TransactionDlqPayload) :
    List (String × TransactionDlqPayload) :=
  if dlq.any fun entry => entry.1 = id then dlq else (id, payload) :: dlq

/-- Listens to every failed attempt and lets those with attempts left pass. -/
def routeFailedJobToDlq (job : Job) (attempts : Option Nat) (attemptsMade : Nat)
    (dlq : List (String × TransactionDlqPayload)) : List (String × TransactionDlqPayload) :=
  let maxAttempts := attempts.getD transactionMaxAttempts
  if 0 < maxAttempts ∧ attemptsMade < maxAttempts then dlq
  else addUnlessPresent dlq (dlqJobId job.id attemptsMade)
    ⟨transactionQueueName, job.id, job.data, attemptsMade, maxAttempts⟩

inductive Stage where
  | waiting
  | completed
  | failed
  deriving DecidableEq

/-- The job in Bull, its row, the dead-letter queue, and whether a check has stopped the
transfer. -/
structure State where
  row : Transaction
  attemptsMade : Nat
  stage : Stage
  dlq : List (String × TransactionDlqPayload)
  stopped : Bool
  deriving DecidableEq

def Job.start (job : Job) : State := ⟨job.row, 0, .waiting, [], false⟩

/-- Bull runs one attempt of a waiting job, and delivers it again after an error as long
as attempts are left. -/
def step (job : Job) (s : State) (attempt : Attempt) : State :=
  match s.stage with
  | .waiting =>
    let result := handleSendTransaction job.data s.row attempt
    let stopped := s.stopped || result.stopped
    if result.threw then
      ⟨result.row, s.attemptsMade + 1, if s.attemptsMade + 1 < transactionMaxAttempts then .waiting else .failed,
        routeFailedJobToDlq job (some transactionMaxAttempts) (s.attemptsMade + 1) s.dlq, stopped⟩
    else ⟨result.row, s.attemptsMade, .completed, s.dlq, stopped⟩
  | .completed | .failed => s

/-- Everything an attempt can come to. -/
inductive Attempts (job : JobData) (row : Transaction) (attempt : Attempt) : Attempted → Prop where
  | throws : Attempts job row attempt ⟨row, true, .unreached, false⟩
  | refuses : Attempts job row attempt ⟨row, true, .unreached, true⟩
  | skips (loaded : attempt.findUnique) (terminal : row.status.terminal) :
      Attempts job row attempt ⟨row, false, .unreached, false⟩
  | blocks (later : Transaction) (threw : Bool) (status : later.status.terminal) :
      Attempts job row attempt ⟨later, threw, .unreached, true⟩
  | succeeds (later : Transaction) (threw : Bool) (hash : String) (status : later.status = .success) :
      Attempts job row attempt ⟨later, threw, .returned hash, false⟩
  | aborts (later : Transaction) (submission : Submission) (reached : submission ≠ .unreached)
      (status : later.status = .failed ∨ later.status = row.status) :
      Attempts job row attempt ⟨later, true, submission, false⟩

theorem caught_cases (job : JobData) (row later : Transaction) (attempt : Attempt) (submission : Submission)
    (released : Bool) (reached : submission ≠ .unreached) (same : later.status = row.status) :
    Attempts job row attempt { caught later attempt submission with
      threw := (caught later attempt submission).threw || released } := by
  refine .aborts _ submission reached ?_
  simp only [caught]
  split
  · exact .inl rfl
  · exact .inr same

theorem submit_cases (job : JobData) (row later : Transaction) (attempt : Attempt) (riskScore : ℚ)
    (flagged released : Bool) (same : later.status = row.status) :
    Attempts job row attempt { submit later attempt riskScore flagged with
      threw := (submit later attempt riskScore flagged).threw || released } := by
  unfold submit
  cases attempt.processOnChain with
  | none => exact caught_cases job row later attempt .threw released (by simp) same
  | some hash =>
    cases written : attempt.succeed with
    | true => exact .succeeds _ _ hash rfl
    | false => exact caught_cases job row later attempt (.returned hash) released (by simp) same

theorem processTransaction_cases (job : JobData) (row : Transaction) (attempt : Attempt) (released : Bool) :
    Attempts job row attempt { processTransaction job row attempt with
      threw := (processTransaction job row attempt).threw || released } := by
  unfold processTransaction
  split
  · exact .refuses
  · unfold runFraudCheck
    cases attempt.persist with
    | false => exact .throws
    | true =>
      rcases attempt.score with _ | ⟨riskScore, flagged⟩
      · exact .blocks _ _ rfl
      · simp only [Bool.not_true, Bool.false_eq_true, if_false]
        by_cases high : riskScore ≥ fraudBlockThreshold
        · rw [if_pos high]
          exact .blocks _ _ rfl
        · rw [if_neg high]
          by_cases medium : riskScore ≥ fraudReviewThreshold
          · rw [if_pos medium]
            exact .blocks _ _ rfl
          · rw [if_neg medium]
            exact submit_cases job row { row with riskScore := some riskScore, flagged } attempt riskScore flagged
              released rfl

theorem handle_cases (job : JobData) (row : Transaction) (attempt : Attempt) :
    Attempts job row attempt (handleSendTransaction job row attempt) := by
  unfold handleSendTransaction
  split
  · exact .throws
  · rename_i loaded
    split
    · rename_i terminal
      exact .skips (by simpa using loaded) terminal
    · split
      · exact .throws
      · exact processTransaction_cases job row attempt _

/-- An attempt whose submission threw is followed by attempts that submit again, throw or
are stopped by a check, until one has succeeded or none is left; and once Bull is done,
the row is `SUCCESS`, a check has stopped the transfer, or there is exactly one
dead-letter entry, which is the job's. -/
def RetryComplete (job : Job) (attempts : List Attempt) : Prop :=
  (∀ early attempt middle next late, attempts = early ++ attempt :: middle ++ next :: late →
    (run (step job) job.start early).stage = .waiting →
    (handleSendTransaction job.data (run (step job) job.start early).row attempt).submission = .threw →
      let s := run (step job) job.start (early ++ attempt :: middle)
      let result := handleSendTransaction job.data s.row next
      s.stage = .waiting → result.submission ≠ .unreached ∨ result.threw ∨ result.stopped ∨ s.stopped ∨
        s.row.status = .success) ∧
  ((run (step job) job.start attempts).stage ≠ .waiting →
    (run (step job) job.start attempts).row.status = .success ∨ (run (step job) job.start attempts).stopped ∨
      ∃ id entry, (run (step job) job.start attempts).dlq = [(id, entry)] ∧ entry.originalJobId = job.id)

/-- The attempt reads a row that says `FAILED` although no check has stopped the transfer. -/
def readsFailure (s : State) (attempt : Attempt) : Bool :=
  s.stage = .waiting && attempt.findUnique && s.row.status = .failed && !s.stopped

/-- While a job waits it has attempts left and no dead-letter entry, and only a check
puts its row in review. -/
structure Waits (s : State) : Prop where
  fresh : s.stage = .waiting → s.dlq = [] ∧ s.attemptsMade < transactionMaxAttempts
  held : s.row.status = .pendingReview → s.stopped

theorem waits_start (job : Job) : Waits job.start := by
  refine ⟨fun _ => ⟨rfl, Nat.zero_lt_succ _⟩, fun review => ?_⟩
  cases job.created.symm.trans review

/-- A routed attempt with attempts left adds nothing, the last one adds its entry. -/
theorem routeFailedJobToDlq_empty (job : Job) (attemptsMade : Nat) :
    routeFailedJobToDlq job (some transactionMaxAttempts) attemptsMade [] =
      if attemptsMade < transactionMaxAttempts then [] else [(dlqJobId job.id attemptsMade,
        ⟨transactionQueueName, job.id, job.data, attemptsMade, transactionMaxAttempts⟩)] := by
  have positive : 0 < transactionMaxAttempts := by decide
  simp [routeFailedJobToDlq, addUnlessPresent, positive]

theorem step_done {job : Job} {s : State} (done : s.stage ≠ .waiting) (attempt : Attempt) :
    step job s attempt = s := by
  unfold step
  split
  · rename_i waiting
    exact absurd waiting done
  · rfl
  · rfl

theorem run_done {job : Job} {s : State} (done : s.stage ≠ .waiting) (attempts : List Attempt) :
    run (step job) s attempts = s := by
  refine run_invariant (fun reached => reached = s) ?_ rfl attempts
  rintro reached attempt rfl
  exact step_done done attempt

/-- One attempt of a waiting job. -/
theorem step_waiting {job : Job} {s : State} (waiting : s.stage = .waiting) (waits : Waits s) (attempt : Attempt) :
    let result := handleSendTransaction job.data s.row attempt
    step job s attempt =
      if result.threw then
        ⟨result.row, s.attemptsMade + 1, if s.attemptsMade + 1 < transactionMaxAttempts then .waiting else .failed,
          if s.attemptsMade + 1 < transactionMaxAttempts then [] else [(dlqJobId job.id (s.attemptsMade + 1),
            ⟨transactionQueueName, job.id, job.data, s.attemptsMade + 1, transactionMaxAttempts⟩)],
          s.stopped || result.stopped⟩
      else ⟨result.row, s.attemptsMade, .completed, [], s.stopped || result.stopped⟩ := by
  simp only [step, waiting, (waits.fresh waiting).1, routeFailedJobToDlq_empty]

theorem Attempts.held {job : JobData} {row : Transaction} {attempt : Attempt} {result : Attempted} {stopped : Bool}
    (attempts : Attempts job row attempt result) (held : row.status = .pendingReview → stopped) :
    result.row.status = .pendingReview → stopped || result.stopped := by
  cases attempts with
  | throws => simpa using held
  | refuses => simp
  | skips => simpa using held
  | blocks => simp
  | succeeds later threw hash status => simp [status]
  | aborts later submission reached status =>
    rcases status with failed | same
    · simp [failed]
    · simpa [same] using held

theorem Waits.step {job : Job} {s : State} (waits : Waits s) (attempt : Attempt) : Waits (step job s attempt) := by
  by_cases waiting : s.stage = .waiting
  · have review := (handle_cases job.data s.row attempt).held waits.held
    rw [step_waiting waiting waits]
    split
    · refine ⟨?_, review⟩
      by_cases left : s.attemptsMade + 1 < transactionMaxAttempts
      · simp [left]
      · simp [left]
    · exact ⟨by simp, review⟩
  · rwa [step_done waiting]

theorem waits_run (job : Job) (attempts : List Attempt) : Waits (run (step job) job.start attempts) :=
  run_invariant Waits (fun _ attempt waits => waits.step attempt) (waits_start job) attempts

/-- What the job comes to if it is done. -/
def Settles (job : Job) (s : State) : Prop :=
  s.stage ≠ .waiting → s.row.status = .success ∨ s.stopped ∨
    ∃ id entry, s.dlq = [(id, entry)] ∧ entry.originalJobId = job.id

/-- A settled row that is no unexplained failure has succeeded or was stopped. -/
theorem terminal_cases {row : Transaction} {stopped : Bool} (terminal : row.status.terminal)
    (held : row.status = .pendingReview → stopped) (explained : row.status = .failed → stopped) :
    row.status = .success ∨ stopped := by
  cases status : row.status with
  | success => exact .inl rfl
  | failed => exact .inr (explained status)
  | pendingReview => exact .inr (held status)
  | pending => simp [status, Status.terminal] at terminal
  | retrying => simp [status, Status.terminal] at terminal

/-- An attempt that returns without having read a failure has succeeded or was stopped. -/
theorem Attempts.returned {job : JobData} {row : Transaction} {attempt : Attempt} {result : Attempted}
    {stopped : Bool} (attempts : Attempts job row attempt result) (held : row.status = .pendingReview → stopped)
    (unread : attempt.findUnique → row.status = .failed → stopped) (returned : result.threw = false) :
    result.row.status = .success ∨ (stopped || result.stopped) := by
  cases attempts with
  | throws => cases returned
  | refuses => cases returned
  | skips loaded terminal => simpa using terminal_cases terminal held (unread loaded)
  | blocks => exact .inr (by simp)
  | succeeds later threw hash status => exact .inl status
  | aborts => cases returned

/-- An attempt that reads no failure submits, throws or is stopped, unless that has
happened. -/
theorem Attempts.goes_on {job : JobData} {row : Transaction} {attempt : Attempt} {result : Attempted}
    {stopped : Bool} (attempts : Attempts job row attempt result) (held : row.status = .pendingReview → stopped)
    (unread : attempt.findUnique → row.status = .failed → stopped) : result.submission ≠ .unreached ∨ result.threw ∨
      result.stopped ∨ stopped ∨ row.status = .success := by
  cases attempts with
  | throws => exact .inr (.inl rfl)
  | refuses => exact .inr (.inl rfl)
  | skips loaded terminal => exact .inr (.inr (.inr (terminal_cases terminal held (unread loaded)).symm))
  | blocks => exact .inr (.inr (.inl rfl))
  | succeeds later threw hash status => exact .inl (by simp)
  | aborts later submission reached => exact .inl reached

theorem readsFailure_false {s : State} {attempt : Attempt} (unread : readsFailure s attempt = false)
    (waiting : s.stage = .waiting) : attempt.findUnique → s.row.status = .failed → s.stopped := by
  intro loaded failed
  simpa [readsFailure, waiting, loaded, failed] using unread

theorem settles_step {job : Job} {s : State} {attempt : Attempt} (waits : Waits s) (settles : Settles job s)
    (unread : readsFailure s attempt = false) : Settles job (step job s attempt) := by
  by_cases waiting : s.stage = .waiting
  · rw [step_waiting waiting waits]
    split
    · intro done
      by_cases left : s.attemptsMade + 1 < transactionMaxAttempts
      · simp [left] at done
      · exact .inr (.inr ⟨_, _, by simp only [left, if_false]; rfl, rfl⟩)
    · rename_i returned
      intro _
      rcases (handle_cases job.data s.row attempt).returned waits.held (readsFailure_false unread waiting)
        (by simpa using returned) with success | stopped
      · exact .inl success
      · exact .inr (.inl stopped)
  · rwa [step_done waiting]

/-- The guard takes the failure for the end of the job. -/
theorem step_readsFailure (job : Job) {s : State} {attempt : Attempt} (waits : Waits s)
    (read : readsFailure s attempt = true) :
    step job s attempt = ⟨s.row, s.attemptsMade, .completed, [], false⟩ := by
  simp only [readsFailure, Bool.and_eq_true, decide_eq_true_eq, Bool.not_eq_true'] at read
  obtain ⟨⟨⟨waiting, loaded⟩, failed⟩, unstopped⟩ := read
  have skipped : handleSendTransaction job.data s.row attempt = ⟨s.row, false, .unreached, false⟩ := by
    simp [handleSendTransaction, loaded, failed, Status.terminal]
  rw [step_waiting waiting waits, skipped]
  simp [unstopped]

/-- A job is retried and dead-lettered as it should be exactly if no attempt of it reads
the `FAILED` that the catch block of an earlier attempt has written. -/
theorem retry_complete_iff (job : Job) (attempts : List Attempt) :
    RetryComplete job attempts ↔
      Throughout (step job) (fun s attempt => readsFailure s attempt = false) job.start attempts := by
  constructor
  · rintro ⟨-, settles⟩
    refine throughout_of_at fun before attempt after split => ?_
    by_contra read
    rw [Bool.not_eq_false] at read
    have ended := step_readsFailure job (waits_run job before) read
    have final : run (step job) job.start attempts =
        ⟨(run (step job) job.start before).row, (run (step job) job.start before).attemptsMade, .completed, [],
          false⟩ := by
      rw [split, run_append, run_cons, ended]
      exact run_done (by simp) after
    rw [final] at settles
    simp only [readsFailure, Bool.and_eq_true, decide_eq_true_eq] at read
    rcases settles (by simp) with success | stopped | ⟨id, entry, single, -⟩
    · cases read.1.2.symm.trans success
    · cases stopped
    · cases single
  · intro unread
    constructor
    · intro early attempt middle next late split _ _ s result waiting
      have here : readsFailure s next = false := by
        rw [split] at unread
        exact (throughout_at unread).2
      have waits : Waits s := waits_run job _
      exact (handle_cases job.data s.row next).goes_on waits.held (readsFailure_false here waiting)
    · have final := run_invariant_of (fun s => Waits s ∧ Settles job s)
        (fun s attempt held meets => ⟨held.1.step attempt, settles_step held.1 held.2 meets⟩)
        ⟨waits_start job, fun done => absurd rfl done⟩ unread
      exact final.2

/-- A job for a row of 5 USDC, and an attempt of it in which the chain refuses the
submission and everything else works. -/
def sendJob : Job :=
  let user : UserId := ⟨"u1", u1_colonFree⟩
  ⟨"send:u1:k1", ⟨0, user, ⟨"GDEST", "5", "USDC", none, none⟩⟩,
    ⟨user, "w1", "GDEST", "5", "USDC", none, none, some "k1", .pending, none, none, false, 0⟩, rfl⟩

def refusedByChain : Attempt := ⟨true, true, some (1 / 10, false), true, none, true, true, true⟩

/-- The chain refuses the first submission. The second attempt reads `FAILED`, returns, and
the job is over without a second submission and without a dead-letter entry. -/
theorem failed_submission_never_retried :
    ¬ ∀ (job : Job) (attempts : List Attempt), RetryComplete job attempts := by
  intro complete
  have settles := (complete sendJob [refusedByChain, refusedByChain]).2
  have ended : run (step sendJob) sendJob.start [refusedByChain, refusedByChain] =
      ⟨{ sendJob.row with status := .failed, riskScore := some (1 / 10) }, 1, .completed, [], false⟩ := by
    decide +kernel
  rw [ended] at settles
  rcases settles (by simp) with success | stopped | ⟨id, entry, single, -⟩
  · cases success
  · cases stopped
  · cases single

section Worker
variable {id : Nat} {job : JobData}

/-- The settlement of the row with one worker at a phase of its work. -/
def working (s : Settlement.State) (id : Nat) (job : JobData) (phase : Phase) : Settlement.State :=
  { s with workers := s.workers.insert id ⟨job, phase⟩ }

/-- From this phase on the worker can end with this row and these hashes. -/
def Finishes (s : Settlement.State) (id : Nat) (job : JobData) (phase : Phase) (row : Transaction)
    (hashes : List String) : Prop :=
  ∃ outcomes : List Outcome,
    let after := run Settlement.step (working s id job phase) (outcomes.map (.work id))
    after.row = row ∧ after.hashes = hashes ∧ after.phase id = .gone

theorem finishes_gone (s : Settlement.State) : Finishes s id job .gone s.row s.hashes :=
  ⟨[], rfl, rfl, by simp [working, State.phase]⟩

theorem Finishes.before {s : Settlement.State} {phase : Phase} {row : Transaction} {hashes : List String}
    (outcome : Outcome) (effect : Effect)
    (moves : workerStep (working s id job phase) id ⟨job, phase⟩ outcome = effect)
    (rest : Finishes { s with row := effect.row, lock := effect.lock, hashes := effect.hash.toList ++ s.hashes } id job
      effect.next row hashes) : Finishes s id job phase row hashes := by
  obtain ⟨outcomes, ended⟩ := rest
  refine ⟨outcome :: outcomes, ?_⟩
  have stepped : Settlement.step (working s id job phase) (.work id outcome) =
      working { s with row := effect.row, lock := effect.lock, hashes := effect.hash.toList ++ s.hashes } id job
        effect.next := by
    simp only [Settlement.step, working, AList.lookup_insert, State.apply, AList.insert_insert]
    rw [← moves]
    rfl
  rw [List.map_cons, run_cons, stepped]
  exact ended

def Submission.hashes : Submission → List String
  | .returned hash => [hash]
  | _ => []

theorem finishes_release (s : Settlement.State) : Finishes s id job .release s.row s.hashes :=
  .before .failed ⟨.gone, s.row, s.lock, none⟩ rfl (finishes_gone _)

theorem finishes_caught (s : Settlement.State) (attempt : Attempt) (submission : Submission) (hash : Option String) :
    Finishes s id job (.abort hash) (caught s.row attempt submission).row s.hashes := by
  unfold caught
  split
  · exact .before .done ⟨.release, { s.row with status := .failed }, s.lock, none⟩ rfl (finishes_release _)
  · exact .before .failed ⟨.release, s.row, s.lock, none⟩ rfl (finishes_release _)

/-- A fraud check that ends without its update leaves the row alone. -/
theorem finishes_unpersisted (s : Settlement.State) (score : Option (ℚ × Bool)) :
    Finishes s id job .score s.row s.hashes := by
  have leaves : ∀ riskScore flagged, Finishes s id job (tier riskScore flagged) s.row s.hashes := by
    intro riskScore flagged
    unfold tier
    split
    · exact .before .failed ⟨.release, s.row, s.lock, none⟩ rfl (finishes_release _)
    · split <;> exact .before .failed ⟨.release, s.row, s.lock, none⟩ rfl (finishes_release _)
  rcases score with _ | ⟨riskScore, flagged⟩
  · refine .before .failed ⟨.block none false, s.row, s.lock, none⟩ rfl ?_
    exact .before .failed ⟨.release, s.row, s.lock, none⟩ rfl (finishes_release _)
  · exact .before (.scored riskScore flagged) ⟨tier riskScore flagged, s.row, s.lock, none⟩ rfl
      (leaves riskScore flagged)

/-- What an attempt makes of a row that has passed the fraud check. -/
theorem finishes_submit (s : Settlement.State) (attempt : Attempt) (riskScore : ℚ) (flagged : Bool) :
    Finishes s id job (.submit riskScore flagged) (submit s.row attempt riskScore flagged).row
      ((submit s.row attempt riskScore flagged).submission.hashes ++ s.hashes) := by
  unfold submit
  cases attempt.processOnChain with
  | none => exact .before .failed ⟨.abort none, s.row, s.lock, none⟩ rfl (finishes_caught _ attempt .threw none)
  | some hash =>
    refine .before (.submitted hash) ⟨.confirm hash riskScore flagged, s.row, s.lock, some hash⟩ rfl ?_
    simp only
    split
    · exact .before .done ⟨.release, { s.row with
        status := .success, stellarTxHash := some hash, riskScore := some riskScore, flagged }, s.lock, none⟩ rfl
        (finishes_release _)
    · exact .before .failed ⟨.abort (some hash), s.row, s.lock, none⟩ rfl
        (finishes_caught { s with hashes := hash :: s.hashes } attempt (.returned hash) (some hash))

theorem finishes_process (s : Settlement.State) (attempt : Attempt) :
    Finishes s id job (.verify s.row) (processTransaction job s.row attempt).row
      ((processTransaction job s.row attempt).submission.hashes ++ s.hashes) := by
  unfold processTransaction
  cases checked : assertTransactionAmountIntegrity job.body.amount s.row.amount with
  | error message =>
    exact .before .done ⟨.release, s.row, s.lock, none⟩ (by simp [workerStep, working, checked]) (finishes_release _)
  | ok _ =>
    refine .before .done ⟨.score, s.row, s.lock, none⟩ (by simp [workerStep, working, checked]) ?_
    unfold runFraudCheck
    cases attempt.persist with
    | false => exact finishes_unpersisted _ attempt.score
    | true =>
      simp only [Bool.not_true, Bool.false_eq_true, if_false]
      rcases attempt.score with _ | ⟨riskScore, flagged⟩
      · refine .before .failed ⟨.block none false, s.row, s.lock, none⟩ rfl ?_
        exact .before .done ⟨.release, { s.row with status := .failed, riskScore := none, flagged := false },
          s.lock, none⟩ rfl (finishes_release _)
      · refine .before (.scored riskScore flagged) ⟨tier riskScore flagged, s.row, s.lock, none⟩ rfl ?_
        unfold tier
        simp only
        by_cases high : riskScore ≥ fraudBlockThreshold
        · simp only [if_pos high]
          exact .before .done ⟨.release, { s.row with
            status := .failed, riskScore := some riskScore, flagged := true }, s.lock, none⟩ rfl (finishes_release _)
        · simp only [if_neg high]
          by_cases medium : riskScore ≥ fraudReviewThreshold
          · simp only [if_pos medium]
            exact .before .done ⟨.release, { s.row with
              status := .pendingReview, riskScore := some riskScore, flagged := true }, s.lock, none⟩ rfl
              (finishes_release _)
          · simp only [if_neg medium]
            exact .before .done ⟨.submit riskScore flagged, { s.row with riskScore := some riskScore, flagged },
              s.lock, none⟩ rfl (finishes_submit { s with row := { s.row with riskScore := some riskScore, flagged } }
                attempt riskScore flagged)

/-- An attempt is a worker of the settlement that runs alone: some outcomes of its steps
bring it to the same row and the same hash. -/
theorem attempt_is_worker_run (s : Settlement.State) (attempt : Attempt) (free : s.lock = none) :
    Finishes s id job .load (handleSendTransaction job s.row attempt).row
      ((handleSendTransaction job s.row attempt).submission.hashes ++ s.hashes) := by
  unfold handleSendTransaction
  cases attempt.findUnique with
  | false => exact .before .failed ⟨.gone, s.row, s.lock, none⟩ rfl (finishes_gone _)
  | true =>
    simp only [Bool.not_true, Bool.false_eq_true, if_false]
    by_cases terminal : s.row.status.terminal = true
    · simp only [terminal, if_true]
      exact .before .done ⟨.gone, s.row, s.lock, none⟩ (by simp [workerStep, working, terminal]) (finishes_gone _)
    · simp only [terminal]
      refine .before .done ⟨.acquire s.row, s.row, s.lock, none⟩ (by simp [workerStep, working, terminal]) ?_
      cases attempt.acquire with
      | false => exact .before .failed ⟨.gone, s.row, s.lock, none⟩ rfl (finishes_gone _)
      | true =>
        refine .before .done ⟨.verify s.row, s.row, some id, none⟩ (by simp [workerStep, working, free]) ?_
        exact finishes_process { s with lock := some id } attempt

end Worker

end AfroPay.Retry
