import AfroPay.KeyedStore
import AfroPay.Panics
import AfroPay.Runs

/-! The governor contract: stakes set by the admin, proposals, votes weighed by
stake and the execution of passed proposals. -/
namespace AfroPay.Governor
open Panics KeyedStore Runs

variable {Address : Type} [DecidableEq Address]

def defaultFeeBps : Nat := 100

def storageVersionCurrent : Nat := 3

def u32Max : Nat := 2 ^ 32 - 1

inductive ProposalState where
  | pending
  | active
  | defeated
  | succeeded
  | executed
  deriving DecidableEq

inductive ProposalAction where
  | setFeeBps
  | addAmmPair
  deriving DecidableEq

structure Proposal (Address : Type) where
  id : Nat
  proposer : Address
  description : String
  action : ProposalAction
  value : Nat
  state : ProposalState
  forVotes : Int
  againstVotes : Int
  deriving DecidableEq

inductive VoteStatus where
  | notVoted
  | votedFor
  | votedAgainst
  deriving DecidableEq

/-- Instance storage. A map that was never stored reads as empty everywhere;
only `migrate` asks whether the executors are there. -/
structure World (Address : Type) where
  admin : Option Address
  threshold : Option Int
  proposalCount : Option Nat
  proposals : Store Nat (Proposal Address)
  stakes : Store Address Int
  votes : Store (Nat × Address) VoteStatus
  feeBps : Option Nat
  ammPairCount : Option Nat
  storageVersion : Option Nat
  executors : Option (Store Address Bool)

def World.deployed : World Address := ⟨none, none, none, ∅, ∅, ∅, none, none, none, none⟩

def requireAuth (auths : List Address) (address : Address) : Except String Unit :=
  panicIf (address ∉ auths) "Error(Auth, InvalidAction)"

/-- The admin check that `migrate`, `add_executor`, `remove_executor` and `set_stake` repeat. -/
def assertAdmin (w : World Address) (admin : Address) : Except String Unit := do
  let storedAdmin ← expect "contract not initialized" w.admin
  panicIf (admin ≠ storedAdmin) "unauthorized admin"

/-- Also forgets what was proposed before. -/
def initializeGovernor (w : World Address) (auths : List Address) (admin : Address) (threshold : Int) :
    Except String (World Address) := do
  panicIf (w.admin.isSome) "contract already initialized"
  requireAuth auths admin
  pure ⟨some admin, some threshold, some 0, ∅, ∅, ∅, some defaultFeeBps, some 0, some storageVersionCurrent,
    some ∅⟩

def migrate (w : World Address) (auths : List Address) (admin : Address) : Except String (World Address) := do
  requireAuth auths admin
  assertAdmin w admin
  let currentVersion := w.storageVersion.getD 1
  panicIf (currentVersion > storageVersionCurrent) "storage version is newer than this contract"
  let w := if w.executors.isNone then { w with executors := some ∅ } else w
  if currentVersion < storageVersionCurrent then
    pure { w with storageVersion := some storageVersionCurrent }
  else pure w

def addExecutor (w : World Address) (auths : List Address) (admin executor : Address) :
    Except String (World Address) := do
  requireAuth auths admin
  assertAdmin w admin
  pure { w with executors := some ((w.executors.getD ∅).insert executor true) }

def removeExecutor (w : World Address) (auths : List Address) (admin executor : Address) :
    Except String (World Address) := do
  requireAuth auths admin
  assertAdmin w admin
  pure { w with executors := some ((w.executors.getD ∅).erase executor) }

/-- The explicit allowlist. -/
def allowlisted (w : World Address) (caller : Address) : Bool :=
  ((w.executors.getD ∅).lookup caller).getD false

def isExecutor (w : World Address) (proposalId : Nat) (executor : Address) : Bool :=
  if w.admin = some executor then true
  else
    match w.proposals.lookup proposalId with
    | some proposal => if proposal.proposer = executor then true else allowlisted w executor
    | none => allowlisted w executor

def setStake (w : World Address) (auths : List Address) (admin voter : Address) (amount : Int) :
    Except String (World Address) := do
  requireAuth auths admin
  assertAdmin w admin
  panicIf (amount < 0) "stake must be non-negative"
  pure { w with stakes := w.stakes.insert voter amount }

def getStake (w : World Address) (voter : Address) : Int := (w.stakes.lookup voter).getD 0

/-- Returns the new proposal's id. -/
def propose (w : World Address) (auths : List Address) (proposer : Address) (description : String)
    (action : ProposalAction) (value : Nat) : Except String (World Address × Nat) := do
  requireAuth auths proposer
  panicIf (getStake w proposer < w.threshold.getD 0) "stake below threshold"
  let proposalCount ← fitU64 "attempt to add with overflow" (w.proposalCount.getD 0 + 1)
  let proposal : Proposal Address := ⟨proposalCount, proposer, description, action, value, .pending, 0, 0⟩
  pure ({ w with
    proposalCount := some proposalCount
    proposals := w.proposals.insert proposalCount proposal }, proposalCount)

/-- The tally with one more vote. -/
def addVote (proposal : Proposal Address) (support : Bool) (stake : Int) : Except String (Proposal Address) :=
  if support then do
    let forVotes ← fit "attempt to add with overflow" (proposal.forVotes + stake)
    pure { proposal with forVotes }
  else do
    let againstVotes ← fit "attempt to add with overflow" (proposal.againstVotes + stake)
    pure { proposal with againstVotes }

/-- Returns whether the vote was counted. Its weight is the stake of the moment. -/
def castVote (w : World Address) (auths : List Address) (voter : Address) (proposalId : Nat) (support : Bool) :
    Except String (World Address × Bool) := do
  requireAuth auths voter
  let proposal ← expect "proposal not found" (w.proposals.lookup proposalId)
  if proposal.state ≠ .pending ∧ proposal.state ≠ .active then return (w, false)
  if (w.votes.lookup (proposalId, voter)).isSome then return (w, false)
  let stake := getStake w voter
  if stake ≤ 0 then return (w, false)
  let proposal ← addVote proposal support stake
  let proposal := if proposal.state = .pending then { proposal with state := .active } else proposal
  pure ({ w with
    proposals := w.proposals.insert proposalId proposal
    votes := w.votes.insert (proposalId, voter) (if support then .votedFor else .votedAgainst) }, true)

/-- What a passed proposal does. -/
def applyAction (w : World Address) (proposal : Proposal Address) : Except String (World Address) :=
  match proposal.action with
  | .setFeeBps => pure { w with feeBps := some proposal.value }
  | .addAmmPair => do
    let count := w.ammPairCount.getD 0 + 1
    panicIf (u32Max < count) "attempt to add with overflow"
    pure { w with ammPairCount := some count }

/-- Returns whether the proposal was executed. -/
def execute (w : World Address) (auths : List Address) (caller : Address) (proposalId : Nat) :
    Except String (World Address × Bool) := do
  requireAuth auths caller
  let proposal ← expect "proposal not found" (w.proposals.lookup proposalId)
  let storedAdmin ← expect "contract not initialized" w.admin
  let isAllowlisted := if caller = storedAdmin ∨ caller = proposal.proposer then true else allowlisted w caller
  panicIf (isAllowlisted = false) "unauthorized executor"
  if proposal.state ≠ .active then return (w, false)
  if proposal.forVotes ≤ proposal.againstVotes then
    return ({ w with proposals := w.proposals.insert proposalId { proposal with state := .defeated } }, false)
  let proposal := { proposal with state := .succeeded }
  let w ← applyAction w proposal
  let proposal := { proposal with state := .executed }
  pure ({ w with proposals := w.proposals.insert proposalId proposal }, true)

def getProposal (w : World Address) (proposalId : Nat) : Option (Proposal Address) :=
  w.proposals.lookup proposalId

def getFeeBps (w : World Address) : Nat := w.feeBps.getD 100

def getAmmPairCount (w : World Address) : Nat := w.ammPairCount.getD 0

inductive Call (Address : Type) where
  | initializeGovernor (admin : Address) (threshold : Int)
  | migrate (admin : Address)
  | addExecutor (admin executor : Address)
  | removeExecutor (admin executor : Address)
  | setStake (admin voter : Address) (amount : Int)
  | propose (proposer : Address) (description : String) (action : ProposalAction) (value : Nat)
  | castVote (voter : Address) (proposalId : Nat) (support : Bool)
  | execute (caller : Address) (proposalId : Nat)

/-- A call and the addresses that authorised it. -/
structure Event (Address : Type) where
  auths : List Address
  call : Call Address

def exec (w : World Address) (event : Event Address) : Except String (World Address) :=
  match event.call with
  | .initializeGovernor admin threshold => initializeGovernor w event.auths admin threshold
  | .migrate admin => migrate w event.auths admin
  | .addExecutor admin executor => addExecutor w event.auths admin executor
  | .removeExecutor admin executor => removeExecutor w event.auths admin executor
  | .setStake admin voter amount => setStake w event.auths admin voter amount
  | .propose proposer description action value =>
    Prod.fst <$> propose w event.auths proposer description action value
  | .castVote voter proposalId support => Prod.fst <$> castVote w event.auths voter proposalId support
  | .execute caller proposalId => Prod.fst <$> execute w event.auths caller proposalId

/-- A panicking call is rolled back. -/
def step (w : World Address) (event : Event Address) : World Address :=
  match exec w event with
  | .ok after => after
  | .error _ => w

end AfroPay.Governor
