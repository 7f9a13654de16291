import AfroPay.KeyedStore
import AfroPay.Runs
import AfroPay.TransferData
import Mathlib.Data.Rat.Cast.Order

/-! The settlement of one transaction row by any number of workers, as
`handleSendTransaction`, `processTransaction` and `runFraudCheck` take their
steps, beside any number of `updateRiskScore` calls. A worker is one delivery of
a job: a first run, a retry, a stalled redelivery or a replay from the dead-letter
queue. The lock is taken for exclusive here; the lease that it is in Redis stands in
`LeasedSettlement`. Audit and log calls never throw and are left out. -/
namespace AfroPay.Settlement
open KeyedStore Transfer Runs

/-- At or above this score a transaction is rejected outright. -/
def fraudBlockThreshold : ℚ := 4 / 5

/-- At or above this score a transaction is held for manual review. -/
def fraudReviewThreshold : ℚ := 1 / 2

/-- Where a worker stands. `row` is the snapshot it loaded. -/
inductive Phase where
  | load
  | acquire (row : Transaction)
  | verify (row : Transaction)
  | score
  /-- About to write `FAILED`, for a high score or an unreachable fraud service. -/
  | block (riskScore : Option ℚ) (flagged : Bool)
  /-- About to write `PENDING_REVIEW`. -/
  | hold (riskScore : ℚ)
  /-- About to persist a low score. -/
  | clear (riskScore : ℚ) (flagged : Bool)
  /-- About to call `processOnChain`. -/
  | submit (riskScore : ℚ) (flagged : Bool)
  /-- About to write `SUCCESS` with the hash it was given. -/
  | confirm (hash : String) (riskScore : ℚ) (flagged : Bool)
  /-- In the catch block, about to write `FAILED`; with the hash, if it had one. -/
  | abort (hash : Option String)
  | release
  | gone
  deriving DecidableEq

/-- One delivery of a job. -/
structure Worker where
  job : JobData
  phase : Phase
  deriving DecidableEq

/-- Where an `updateRiskScore` call stands: `write` carries whether the row it
read makes it a hold. -/
inductive RiskPhase where
  | read
  | write (holds : Bool)
  | gone
  deriving DecidableEq

structure RiskCall where
  riskScore : ℚ
  flagged : Bool
  phase : RiskPhase
  deriving DecidableEq

/-- One row with its lock, its workers and its risk calls. `hashes` are the
hashes `processOnChain` has returned, newest first; `holds` counts the risk calls
that have written `PENDING_REVIEW`. -/
structure State where
  row : Transaction
  /-- A perfect lock, which only a worker that is gone can lose. That is an assumption of the
  law of one submission alone; a real lease can run out under its worker. -/
  lock : Option Nat
  workers : Store Nat Worker
  risks : Store Nat RiskCall
  hashes : List String
  holds : Nat

/-- A row nobody has worked on yet. -/
def State.created (row : Transaction) : State := ⟨row, none, ∅, ∅, [], 0⟩

/-- How a step's call to the outside ends: it succeeds, it fails, the fraud
service answers, or the chain returns a hash. -/
inductive Outcome where
  | done
  | failed
  | scored (riskScore : ℚ) (flagged : Bool)
  | submitted (hash : String)
  deriving DecidableEq

/-- What one step of a worker leaves of the shared state, and where it stands next. -/
structure Effect where
  next : Phase
  row : Transaction
  lock : Option Nat
  hash : Option String

/-- The three-tier policy on a fraud score. -/
def tier (riskScore : ℚ) (flagged : Bool) : Phase :=
  if riskScore ≥ fraudBlockThreshold then .block (some riskScore) true
  else if riskScore ≥ fraudReviewThreshold then .hold riskScore
  else .clear riskScore flagged

/-- One step of a worker. An exception inside the lock leaves through `release`,
one outside it ends the delivery. -/
def workerStep (s : State) (id : Nat) (worker : Worker) (outcome : Outcome) : Effect :=
  let stay : Phase → Effect := fun next => ⟨next, s.row, s.lock, none⟩
  match worker.phase, outcome with
  | .load, .done => stay (if s.row.status.terminal then .gone else .acquire s.row)
  | .load, _ => stay .gone
  | .acquire row, .done => if s.lock = none then ⟨.verify row, s.row, some id, none⟩ else stay .gone
  | .acquire _, _ => stay .gone
  | .verify row, _ =>
    match assertTransactionAmountIntegrity worker.job.body.amount row.amount with
    | .ok _ => stay .score
    | .error _ => stay .release
  | .score, .scored riskScore flagged => stay (tier riskScore flagged)
  -- Fail closed: an unreachable fraud service blocks the transaction.
  | .score, _ => stay (.block none false)
  | .block riskScore flagged, .done =>
    ⟨.release, { s.row with status := .failed, riskScore, flagged }, s.lock, none⟩
  | .hold riskScore, .done =>
    ⟨.release, { s.row with status := .pendingReview, riskScore := some riskScore, flagged := true },
      s.lock, none⟩
  | .clear riskScore flagged, .done =>
    ⟨.submit riskScore flagged, { s.row with riskScore := some riskScore, flagged }, s.lock, none⟩
  | .block _ _, _ | .hold _, _ | .clear _ _, _ => stay .release
  | .submit riskScore flagged, .submitted hash =>
    ⟨.confirm hash riskScore flagged, s.row, s.lock, some hash⟩
  | .submit _ _, _ => stay (.abort none)
  | .confirm hash riskScore flagged, .done =>
    ⟨.release, { s.row with
      status := .success, stellarTxHash := some hash, riskScore := some riskScore, flagged },
      s.lock, none⟩
  | .confirm hash _ _, _ => stay (.abort (some hash))
  | .abort _, .done => ⟨.release, { s.row with status := .failed }, s.lock, none⟩
  | .abort _, _ => stay .release
  | .release, .done => ⟨.gone, s.row, if s.lock = some id then none else s.lock, none⟩
  | .release, _ => stay .gone
  | .gone, _ => stay .gone

/-- The state after a worker's step. -/
def State.apply (s : State) (id : Nat) (worker : Worker) (effect : Effect) : State :=
  { s with
    row := effect.row, lock := effect.lock, hashes := effect.hash.toList ++ s.hashes
    workers := s.workers.insert id { worker with phase := effect.next } }

/-- The write of `updateRiskScore`: score and flag always, the status for a hold. -/
def RiskCall.written (call : RiskCall) (holds : Bool) (row : Transaction) : Transaction :=
  { row with
    riskScore := some call.riskScore, flagged := call.flagged
    status := if holds then .pendingReview else row.status }

/-- One step of an `updateRiskScore` call: it reads the row, then writes it. -/
def riskStep (s : State) (id : Nat) (call : RiskCall) (succeeds : Bool) : State :=
  let become : RiskPhase → Store Nat RiskCall := fun phase => s.risks.insert id { call with phase }
  match call.phase, succeeds with
  | .read, true =>
    let open' := s.row.status = .pending ∨ s.row.status = .retrying
    { s with risks := become (.write (call.flagged && decide open')) }
  | .write holds, true =>
    { s with
      row := call.written holds s.row, risks := become .gone
      holds := if holds then s.holds + 1 else s.holds }
  | _, _ => { s with risks := become .gone }

/-- One event at a transaction: a job is delivered, a worker takes a step or
crashes, the lease of a worker that is gone runs out, a risk call arrives or
takes a step. -/
inductive Event where
  | deliver (worker : Nat) (job : JobData)
  | work (worker : Nat) (outcome : Outcome)
  | crash (worker : Nat)
  | expireLock
  | updateRiskScore (call : Nat) (riskScore : ℚ) (flagged : Bool)
  | risk (call : Nat) (succeeds : Bool)
  deriving DecidableEq

/-- Where a worker stands; one that was never started is gone. -/
def State.phase (s : State) (id : Nat) : Phase := (s.workers.lookup id).elim .gone Worker.phase

def step (s : State) : Event → State
  | .deliver id job =>
    match s.workers.lookup id with
    | none => { s with workers := s.workers.insert id ⟨job, .load⟩ }
    | some _ => s
  | .work id outcome =>
    match s.workers.lookup id with
    | some worker => s.apply id worker (workerStep s id worker outcome)
    | none => s
  | .crash id =>
    match s.workers.lookup id with
    | some worker => { s with workers := s.workers.insert id { worker with phase := .gone } }
    | none => s
  | .expireLock =>
    match s.lock with
    | some holder => if s.phase holder = .gone then { s with lock := none } else s
    | none => s
  | .updateRiskScore id riskScore flagged =>
    match s.risks.lookup id with
    | none => { s with risks := s.risks.insert id ⟨riskScore, flagged, .read⟩ }
    | some _ => s
  | .risk id succeeds =>
    match s.risks.lookup id with
    | some call => riskStep s id call succeeds
    | none => s

end AfroPay.Settlement
