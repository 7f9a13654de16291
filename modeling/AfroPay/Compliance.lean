import AfroPay.KeyedStore
import AfroPay.Runs

/-! Compliance actions: any number of `requestAction`, `approve`, `reject` and
`recordExecutionResult` calls over the action and approval tables. Every database
call and the push to the executor is one step; a call that fails at a step or
crashes there takes no further one. The approval table enforces its unique
constraint. User rows belong to the rest of the system and may read differently
each time; audit calls never throw and are left out. -/
namespace AfroPay.Compliance
open KeyedStore Runs

/-- Distinct officers that must sign before an action is executed. -/
def requiredComplianceApprovals : Nat := 2

inductive ComplianceType where
  | freeze
  | clawback
  deriving DecidableEq

inductive Status where
  | pendingApproval
  | approved
  | executing
  | executed
  | failed
  | rejected
  deriving DecidableEq

inductive UserRole where
  | user
  | admin
  deriving DecidableEq

/-- The part of a user row that `assertAdmin` selects. -/
structure User where
  role : UserRole
  erasedAt : Option Nat
  deriving DecidableEq

/-- The body of a freeze or clawback request. -/
structure ActionDto where
  targetAccount : String
  assetCode : String
  assetIssuer : Option String
  amount : Option String
  reason : Option String
  deriving DecidableEq

/-- A row of the `ComplianceAction` table, stored under its id. -/
structure Action where
  type : ComplianceType
  status : Status
  targetAccount : String
  assetCode : String
  assetIssuer : Option String
  amount : Option String
  reason : Option String
  requestedBy : String
  txHash : Option String
  deriving DecidableEq

inductive Network where
  | testnet
  | mainnet
  deriving DecidableEq

/-- What the executor is handed. Ids are numbers in the tables here and texts on
the wire. -/
structure ComplianceJobPayload (Id : Type) where
  actionId : Id
  actionType : ComplianceType
  targetAccount : String
  assetCode : String
  assetIssuer : Option String
  amount : Option String
  network : Network
  deriving DecidableEq

/-- `STELLAR_NETWORK` decides, and anything but "mainnet" means testnet. -/
def networkOf (stellarNetwork : Option String) : Network :=
  if stellarNetwork = some "mainnet" then .mainnet else .testnet

inductive Operation where
  | requestAction (type : ComplianceType) (dto : ActionDto)
  | approve (actionId : Nat)
  | reject (actionId : Nat)
  | recordExecutionResult (actionId : Nat) (txHash : String) (succeeded : Bool)
  deriving DecidableEq

/-- Where a call stands. `row` is the action as `loadAction` returned it. -/
inductive Phase where
  | assertAdmin
  | createAction
  | firstApproval (actionId : Nat)
  | loadAction
  | findApproval (actionId : Nat) (row : Action)
  | insertApproval (actionId : Nat) (row : Action)
  | countApprovals (actionId : Nat) (row : Action)
  /-- In `execute`, about to write `APPROVED`. -/
  | markApproved (actionId : Nat) (row : Action)
  /-- In `execute`, about to call the executor. -/
  | dispatch (actionId : Nat) (row : Action)
  | markExecuting (actionId : Nat)
  | markRejected (actionId : Nat)
  | markResult (actionId : Nat) (txHash : String) (succeeded : Bool)
  /-- About to read the action once more to return it. -/
  | getAction
  | gone
  deriving DecidableEq

/-- One call. `user` is the row that `assertAdmin` accepted. -/
structure Call where
  officerId : String
  operation : Operation
  user : Option User
  phase : Phase
  deriving DecidableEq

/-- The tables, the calls, the jobs handed to the executor and those of them that
reached its queue. An approval is stored with the call that inserted it. -/
structure State where
  actions : Store Nat Action
  nextId : Nat
  approvals : Store (Nat × String) Nat
  calls : Store Nat Call
  handed : List (ComplianceJobPayload Nat)
  pushed : List (ComplianceJobPayload Nat)

def State.empty : State := ⟨∅, 0, ∅, ∅, [], []⟩

/-- `assertAdmin` accepts a user that exists, is an administrator and is not erased. -/
def isAdmin : Option User → Bool
  | some user => user.role = .admin && user.erasedAt.isNone
  | none => false

/-- The officers who have approved an action. -/
def State.approvers (s : State) (actionId : Nat) : List String :=
  (s.approvals.keys.filter fun key => key.1 = actionId).map Prod.snd

/-- The row `requestAction` creates. -/
def newAction (officerId : String) (type : ComplianceType) (dto : ActionDto) : Action :=
  ⟨type, .pendingApproval, dto.targetAccount, dto.assetCode, dto.assetIssuer, dto.amount, dto.reason,
    officerId, none⟩

/-- The job `execute` builds from the row it was given. -/
def newJob (network : Network) (actionId : Nat) (row : Action) : ComplianceJobPayload Nat :=
  ⟨actionId, row.type, row.targetAccount, row.assetCode, row.assetIssuer, row.amount, network⟩

/-- The row with the worker's result. -/
def Action.recorded (row : Action) (txHash : String) (succeeded : Bool) : Action :=
  { row with
    status := if succeeded then .executed else .failed
    txHash := if succeeded then some txHash else row.txHash }

/-- How a step's call to the outside ends: it succeeds, it fails, or the user table
returns a row. -/
inductive Outcome where
  | done
  | failed
  | user (row : Option User)
  deriving DecidableEq

def State.become (s : State) (id : Nat) (call : Call) (phase : Phase) : State :=
  { s with calls := s.calls.insert id { call with phase } }

/-- An update by id; it throws when there is no such row. -/
def State.update (s : State) (actionId : Nat) (write : Action → Action) (id : Nat) (call : Call)
    (next : Phase) : State :=
  match s.actions.lookup actionId with
  | some row => { s with actions := s.actions.insert actionId (write row) }.become id call next
  | none => s.become id call .gone

/-- The insert of an approval; it throws when the officer has one. -/
def State.sign (s : State) (actionId : Nat) (id : Nat) (call : Call) (next : Phase) : State :=
  match s.approvals.lookup (actionId, call.officerId) with
  | none => { s with approvals := s.approvals.insert (actionId, call.officerId) id }.become id call next
  | some _ => s.become id call .gone

/-- Where a call goes on with the row it has loaded, if its guard lets it. -/
def loaded (operation : Operation) (row : Action) : Phase :=
  match operation with
  | .requestAction _ _ => .gone
  | .approve actionId => if row.status = .pendingApproval then .findApproval actionId row else .gone
  | .reject actionId => if row.status = .pendingApproval then .markRejected actionId else .gone
  | .recordExecutionResult actionId txHash succeeded =>
    if row.status = .executing ∨ row.status = .approved then .markResult actionId txHash succeeded else .gone

/-- The action a call works on, once it has one. -/
def Operation.actionId : Operation → Option Nat
  | .requestAction _ _ => none
  | .approve actionId | .reject actionId | .recordExecutionResult actionId _ _ => some actionId

/-- One step of a call. -/
def callStep (network : Network) (s : State) (id : Nat) (call : Call) (outcome : Outcome) : State :=
  match call.phase, outcome with
  | .assertAdmin, .user row =>
    if isAdmin row then
      s.become id { call with user := row }
        (match call.operation with
          | .requestAction _ _ => .createAction
          | _ => .loadAction)
    else s.become id call .gone
  | .createAction, .done =>
    match call.operation with
    | .requestAction type dto =>
      { s with
        actions := s.actions.insert s.nextId (newAction call.officerId type dto)
        nextId := s.nextId + 1 }.become id call (.firstApproval s.nextId)
    | _ => s.become id call .gone
  -- The requesting officer is the first signer of the action.
  | .firstApproval actionId, .done => s.sign actionId id call .getAction
  | .loadAction, .done =>
    match call.operation.actionId.bind s.actions.lookup with
    | some row => s.become id call (loaded call.operation row)
    | none => s.become id call .gone
  | .findApproval actionId row, .done =>
    s.become id call
      (if (s.approvals.lookup (actionId, call.officerId)).isSome then .gone else .insertApproval actionId row)
  | .insertApproval actionId row, .done => s.sign actionId id call (.countApprovals actionId row)
  | .countApprovals actionId row, .done =>
    s.become id call
      (if requiredComplianceApprovals ≤ (s.approvers actionId).length then .markApproved actionId row
      else .getAction)
  | .markApproved actionId row, .done =>
    s.update actionId (fun held => { held with status := .approved }) id call (.dispatch actionId row)
  | .dispatch actionId row, .done =>
    { s with
      handed := newJob network actionId row :: s.handed
      pushed := newJob network actionId row :: s.pushed }.become id call (.markExecuting actionId)
  | .dispatch actionId row, _ =>
    { s with handed := newJob network actionId row :: s.handed }.become id call .gone
  | .markExecuting actionId, .done =>
    s.update actionId (fun held => { held with status := .executing }) id call .getAction
  | .markRejected actionId, .done =>
    s.update actionId (fun held => { held with status := .rejected }) id call .gone
  | .markResult actionId txHash succeeded, .done =>
    s.update actionId (fun held => held.recorded txHash succeeded) id call .gone
  | _, _ => s.become id call .gone

/-- One event: a call arrives, takes a step or crashes. -/
inductive Event where
  | request (id : Nat) (officerId : String) (operation : Operation)
  | proceed (id : Nat) (outcome : Outcome)
  | crash (id : Nat)
  deriving DecidableEq

/-- The worker's results are recorded without an officer; everything else starts
with `assertAdmin`. -/
def Operation.first : Operation → Phase
  | .recordExecutionResult _ _ _ => .loadAction
  | _ => .assertAdmin

def step (network : Network) (s : State) : Event → State
  | .request id officerId operation =>
    match s.calls.lookup id with
    | none => { s with calls := s.calls.insert id ⟨officerId, operation, none, operation.first⟩ }
    | some _ => s
  | .proceed id outcome =>
    match s.calls.lookup id with
    | some call => callStep network s id call outcome
    | none => s
  | .crash id =>
    match s.calls.lookup id with
    | some call => s.become id call .gone
    | none => s

/-- The job an event hands to the executor, whether or not the push succeeds. -/
def dispatches (network : Network) (s : State) : Event → Option (ComplianceJobPayload Nat)
  | .proceed id _ =>
    match s.calls.lookup id with
    | some ⟨_, _, _, .dispatch actionId row⟩ => some (newJob network actionId row)
    | _ => none
  | _ => none

end AfroPay.Compliance
