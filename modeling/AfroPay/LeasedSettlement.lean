import AfroPay.PunctualLocks
import AfroPay.SettlementSafety

/-! The settlement of one transaction row behind the lease it really takes:
`handleSendTransaction` runs `processTransaction` in `withLock`, whose commands travel to
Redis and whose answers travel back while the clock goes on. A delivery and its call of
`withLock` share an id. -/
namespace AfroPay.LeasedSettlement
open KeyedStore LeaseStore Transfer Runs Settlement

/-- One row with its deliveries, and the leases they take. -/
structure State where
  locks : LockService.State
  row : Transaction
  workers : Store Nat Worker
  risks : Store Nat RiskCall
  hashes : List String
  holds : Nat

/-- A row nobody has worked on yet. -/
def State.created (row : Transaction) : State := ⟨.empty, row, ∅, ∅, [], 0⟩

/-- What is delivered and called for the transaction, and what happens at its lock. -/
inductive Event where
  | deliver (worker : Nat) (job : JobData)
  /-- A delivery that does not wait for its lock takes a step. -/
  | work (worker : Nat) (outcome : Outcome)
  | crash (worker : Nat)
  | tick (ms : Nat)
  /-- Redis executes the command that the delivery waits for. -/
  | execute (worker : Nat)
  /-- Its answer arrives, or its connection fails. -/
  | answer (worker : Nat) (arrives : Bool)
  | beat (worker : Nat)
  | extend (worker : Nat)
  | renewed (worker : Nat) (arrives : Bool)
  | updateRiskScore (call : Nat) (riskScore : ℚ) (flagged : Bool)
  | risk (call : Nat) (succeeds : Bool)
  deriving DecidableEq

/-- Whether `processTransaction` ends in an exception. -/
def throws : Phase → Outcome → Bool
  | .block _ _, .done | .hold _, .done | .confirm _ _ _, .done => false
  | _, _ => true

/-- Where a delivery goes on when its call of `withLock` has moved: with the lock its
work starts, and with the end of the call it is over. -/
def resume : LockService.Phase → Phase → Phase
  | .working, .acquire row => .verify row
  | .returned _ _, _ => .gone
  | _, phase => phase

/-- A delivery that waits for Redis. -/
def waits : Phase → Bool
  | .acquire _ | .release => true
  | _ => false

def State.lock (s : State) (event : LockService.Event) : State := { s with locks := LockService.step s.locks event }

variable (key : String)

/-- The transaction as the processor's steps see it. -/
def State.desk (s : State) : Settlement.State :=
  ⟨s.row, holder s.locks.leases s.locks.now key, s.workers, s.risks, s.hashes, s.holds⟩

/-- What a step of the processor leaves; the leases are not its own to change. -/
def State.put (s : State) (desk : Settlement.State) : State :=
  { s with row := desk.row, workers := desk.workers, risks := desk.risks, hashes := desk.hashes, holds := desk.holds }

/-- A step on the transaction that leaves its lock alone. -/
def State.process (s : State) (event : Settlement.Event) : State := s.put (Settlement.step (s.desk key) event)

/-- A delivery that comes to its lock, or to the end of its work, calls on Redis. -/
def atLock (id : Nat) (threw : Bool) : Phase → Option LockService.Event
  | .acquire _ => some (.withLock id key LockService.lockTtlMs)
  | .release => some (.workEnds id threw)
  | _ => none

def step (s : State) : Event → State
  | .deliver id job => s.process key (.deliver id job)
  | .work id outcome =>
    let phase := (s.desk key).phase id
    let after := s.process key (.work id outcome)
    if waits phase then s
    else (atLock key id (throws phase outcome) ((after.desk key).phase id)).elim after after.lock
  | .crash id => (s.process key (.crash id)).lock (.crash id)
  | .tick ms => s.lock (.tick ms)
  | .execute id => s.lock (.execute id)
  | .answer id arrives =>
    let after := s.lock (.answer id arrives)
    match after.locks.calls.lookup id, after.workers.lookup id with
    | some call, some worker =>
      { after with workers := after.workers.insert id { worker with phase := resume call.phase worker.phase } }
    | _, _ => after
  | .beat id => s.lock (.beat id)
  | .extend id => s.lock (.extend id)
  | .renewed id arrives => s.lock (.renewed id arrives)
  | .updateRiskScore id riskScore flagged => s.process key (.updateRiskScore id riskScore flagged)
  | .risk id succeeds => s.process key (.risk id succeeds)

/-- A call whose failure ends its delivery before it knows how its command went. -/
def cutOff : LockService.Phase → Bool
  | .acquiring | .acquired | .releasing _ => true
  | _ => false

/-- The event as one of a perfect lock: a lease is taken and let go of when Redis executes
the command, a command whose connection fails ends its delivery like a crash, and a lease
that runs out under nobody expires. -/
def mirror (s : State) : Event → Option Settlement.Event
  | .deliver id job => some (.deliver id job)
  | .work id outcome => if waits ((s.desk key).phase id) then none else some (.work id outcome)
  | .crash id => some (.crash id)
  | .tick ms => if holder s.locks.leases (s.locks.now + ms) key = none then some .expireLock else none
  | .execute id =>
    match (s.locks.calls.lookup id).map LockService.Call.phase with
    | some .acquiring | some (.releasing _) => some (.work id .done)
    | _ => none
  | .answer id false => if (s.locks.calls.lookup id).any (cutOff ·.phase) then some (.crash id) else none
  | .answer _ true | .beat _ | .extend _ | .renewed _ _ => none
  | .updateRiskScore id riskScore flagged => some (.updateRiskScore id riskScore flagged)
  | .risk id succeeds => some (.risk id succeeds)

/-- The clock spares the lease of every delivery between its grant and its release. -/
def punctual (s : State) : Event → Bool
  | .tick ms => LockService.punctual s.locks (.tick ms)
  | _ => true

end AfroPay.LeasedSettlement
