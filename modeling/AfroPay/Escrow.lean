import AfroPay.KeyedStore
import AfroPay.Runs
import AfroPay.TokenLedger

/-! The remittance escrow contract, function by function. As for staking, a call
returns the world it leaves or the panic that rolls it back. The ledger sequence
and the timestamp are two clocks that move together. Entry TTLs are not modelled. -/
namespace AfroPay.Escrow
open Panics KeyedStore TokenLedger Runs

variable {Address : Type} [DecidableEq Address]

def storageVersionCurrent : Nat := 2

def minTwapSamples : Nat := 10

/-- Five per cent. -/
def maxTwapDeviationBps : Int := 500

def minLedgerGap : Nat := 2

structure PriceFeedState where
  lastPrice : Int
  twap : Int
  cumulativePrice : Int
  sampleCount : Nat
  lastLedger : Nat
  isSuspended : Bool
  deriving DecidableEq

structure EscrowRecord (Address : Type) where
  depositor : Address
  recipient : Address
  amount : Int
  asset : Address
  releaseTimestamp : Nat
  createdAt : Nat
  isReleased : Bool
  isRefunded : Bool
  deriving DecidableEq

/-- A transfer out of the contract, with the time it was made and the addresses
that authorised the call. -/
structure Payout (Address : Type) where
  escrowId : Nat
  asset : Address
  recipient : Address
  amount : Int
  time : Nat
  auths : List Address

/-- Contract storage, token ledgers and clocks, with the escrow ids issued and
the payouts made so far, newest first. -/
structure World (Address : Type) where
  self : Address
  sequence : Nat
  timestamp : Nat
  admin : Option Address
  storageVersion : Option Nat
  escrowCounter : Nat
  escrows : Store Nat (EscrowRecord Address)
  priceFeed : Option PriceFeedState
  userActionLedger : Store Address Nat
  ledger : Ledger Address
  issued : List Nat
  payouts : List (Payout Address)

/-- A freshly deployed contract: any address, any clocks, any token balances. -/
def World.deployed (self : Address) (sequence timestamp : Nat) (balances : Address → Address → Nat) :
    World Address :=
  ⟨self, sequence, timestamp, none, none, 0, ∅, none, ∅, fun asset holder => balances asset holder, [], []⟩

/-- `Address::require_auth`. The contract never calls itself, so its own
address authorises nothing. -/
def requireAuth (w : World Address) (auths : List Address) (address : Address) : Except String Unit :=
  panicIf (address ∉ auths ∨ address = w.self) "Error(Auth, InvalidAction)"

/-- The distance of the last price from the average, in basis points. -/
def deviationBps (lastPrice twap : Int) : Except String Int := do
  let difference ← fit "attempt to subtract with overflow" (lastPrice - twap)
  let distance ← fit "attempt to negate with overflow" |difference|
  let scaled ← fit "attempt to multiply with overflow" (distance * 10000)
  panicIf (twap = 0) "attempt to divide by zero"
  fit "attempt to divide with overflow" (scaled.tdiv twap)

def validatePriceGuard (w : World Address) : Except String Unit :=
  match w.priceFeed with
  | none => pure ()
  | some feed => do
    panicIf feed.isSuspended "price feed suspended: TWAP drift exceeds 5% threshold"
    if minTwapSamples ≤ feed.sampleCount ∧ 0 < feed.twap then
      let deviation ← deviationBps feed.lastPrice feed.twap
      panicIf (deviation > maxTwapDeviationBps) "price feed deviates beyond slippage limits"

def enforceUserBlockDelay (w : World Address) (user : Address) : Except String (World Address) := do
  panicIf (∃ last ∈ w.userActionLedger.lookup user, w.sequence ≤ last + minLedgerGap - 1)
    "flash-loan guard blocked: same-ledger or consecutive-ledger replay"
  pure { w with userActionLedger := w.userActionLedger.insert user w.sequence }

/-- The feed before its first price: that price counts once here and once more
when it is recorded. -/
def PriceFeedState.opening (spotPrice : Int) : PriceFeedState :=
  ⟨spotPrice, spotPrice, spotPrice, 0, 0, false⟩

/-- Average and suspension flag for a feed that has just recorded a price. A
suspended feed stays suspended. -/
def PriceFeedState.averaged (feed : PriceFeedState) : Except String PriceFeedState := do
  let twap ← fit "attempt to divide with overflow" (feed.cumulativePrice.tdiv feed.sampleCount)
  if minTwapSamples ≤ feed.sampleCount then
    let deviation ← deviationBps feed.lastPrice twap
    pure { feed with twap, isSuspended := if deviation > maxTwapDeviationBps then true else feed.isSuspended }
  else pure { feed with twap }

/-- Returns the new average. `update_price_feed` and `record_price` are this call
under other names. -/
def updatePrice (w : World Address) (spotPrice : Int) : Except String (World Address × Int) := do
  panicIf (spotPrice ≤ 0) "spot price must be positive"
  let feed := w.priceFeed.getD (.opening spotPrice)
  panicIf (feed.lastLedger ≠ 0 ∧ w.sequence ≤ feed.lastLedger)
    "price update attempted in the same ledger block"
  let cumulativePrice ← fit "attempt to add with overflow" (feed.cumulativePrice + spotPrice)
  let sampleCount ← fitU64 "attempt to add with overflow" (feed.sampleCount + 1)
  let feed ← { feed with cumulativePrice, sampleCount, lastPrice := spotPrice }.averaged
  pure ({ w with priceFeed := some { feed with lastLedger := w.sequence } }, feed.twap)

def priceGuardStatus (w : World Address) : Bool :=
  match w.priceFeed with
  | some feed => !feed.isSuspended
  | none => true

def initializeAdmin (w : World Address) (auths : List Address) (admin : Address) :
    Except String (World Address) := do
  panicIf (w.admin.isSome) "contract already initialized"
  requireAuth w auths admin
  pure { w with admin := some admin, storageVersion := some storageVersionCurrent }

def migrate (w : World Address) (auths : List Address) (admin : Address) :
    Except String (World Address) := do
  requireAuth w auths admin
  let storedAdmin ← expect "contract not initialized" w.admin
  panicIf (admin ≠ storedAdmin) "unauthorized admin"
  let currentVersion := w.storageVersion.getD 1
  panicIf (currentVersion > storageVersionCurrent) "storage version is newer than this contract"
  if currentVersion < storageVersionCurrent then
    pure { w with storageVersion := some storageVersionCurrent }
  else pure w

/-- Returns the new escrow's id. -/
def deposit (w : World Address) (auths : List Address) (sender : Address) (amount : Int)
    (asset recipient : Address) (releaseTimestamp : Nat) : Except String (World Address × Nat) := do
  requireAuth w auths sender
  panicIf (amount ≤ 0) "amount must be positive"
  validatePriceGuard w
  let w ← enforceUserBlockDelay w sender
  panicIf (releaseTimestamp ≤ w.timestamp) "release_timestamp must be in the future"
  let ledger ← transfer w.ledger asset sender w.self amount
  let counter ← fitU64 "attempt to add with overflow" (w.escrowCounter + 1)
  let record : EscrowRecord Address :=
    ⟨sender, recipient, amount, asset, releaseTimestamp, w.timestamp, false, false⟩
  pure ({ w with
    ledger, escrowCounter := counter, escrows := w.escrows.insert counter record
    issued := counter :: w.issued }, counter)

/-- A transfer of a record's amount out of the contract. -/
def payOut (w : World Address) (auths : List Address) (escrowId : Nat) (record : EscrowRecord Address)
    (recipient : Address) : Except String (World Address) := do
  let ledger ← transfer w.ledger record.asset w.self recipient record.amount
  pure { w with
    ledger
    payouts := ⟨escrowId, record.asset, recipient, record.amount, w.timestamp, auths⟩ :: w.payouts }

/-- Callable by anyone; the block delay is charged to the depositor. -/
def release (w : World Address) (auths : List Address) (escrowId : Nat) : Except String (World Address) := do
  let record ← expect "escrow not found" (w.escrows.lookup escrowId)
  panicIf record.isReleased "escrow already released"
  panicIf record.isRefunded "escrow already refunded"
  validatePriceGuard w
  let w ← enforceUserBlockDelay w record.depositor
  panicIf (w.timestamp < record.releaseTimestamp) "release timestamp not reached"
  let w ← payOut w auths escrowId record record.recipient
  pure { w with escrows := w.escrows.insert escrowId { record with isReleased := true } }

/-- The one way out that does not consult the price guard. -/
def refund (w : World Address) (auths : List Address) (escrowId : Nat) : Except String (World Address) := do
  let record ← expect "escrow not found" (w.escrows.lookup escrowId)
  requireAuth w auths record.depositor
  panicIf record.isReleased "escrow already released"
  panicIf record.isRefunded "escrow already refunded"
  panicIf (w.timestamp ≥ record.releaseTimestamp) "cannot refund after release timestamp"
  let w ← payOut w auths escrowId record record.depositor
  pure { w with escrows := w.escrows.insert escrowId { record with isRefunded := true } }

/-- The contract's state-changing entry points. -/
inductive Call (Address : Type) where
  | initializeAdmin (admin : Address)
  | migrate (admin : Address)
  | updatePrice (spotPrice : Int)
  | deposit (sender : Address) (amount : Int) (asset recipient : Address) (releaseTimestamp : Nat)
  | release (escrowId : Nat)
  | refund (escrowId : Nat)

def exec (w : World Address) (auths : List Address) : Call Address → Except String (World Address)
  | .initializeAdmin admin => initializeAdmin w auths admin
  | .migrate admin => migrate w auths admin
  | .updatePrice spotPrice => Prod.fst <$> updatePrice w spotPrice
  | .deposit sender amount asset recipient releaseTimestamp =>
    Prod.fst <$> deposit w auths sender amount asset recipient releaseTimestamp
  | .release escrowId => release w auths escrowId
  | .refund escrowId => refund w auths escrowId

/-- One event on the network: a call with the addresses that authorised it, the
clocks moving on, or token activity of other parties. -/
inductive Event (Address : Type) where
  | call (auths : List Address) (call : Call Address)
  | advance (ledgers seconds : Nat)
  | token (activity : Activity Address)

/-- A panicking call is rolled back. -/
def step (w : World Address) : Event Address → World Address
  | .call auths call =>
    match exec w auths call with
    | .ok after => after
    | .error _ => w
  | .advance ledgers seconds =>
    { w with sequence := w.sequence + ledgers, timestamp := w.timestamp + seconds }
  | .token activity => { w with ledger := activity.apply w.self w.ledger }

end AfroPay.Escrow
