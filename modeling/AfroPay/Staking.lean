import AfroPay.KeyedStore
import AfroPay.Runs
import AfroPay.TokenLedger

/-! The timelocked staking contract, function by function. A world holds the
contract's storage, the token ledgers it calls and the ledger clock; a call
returns the world it leaves or the panic that rolls it back. Entry TTLs are not
modelled: an entry that expires is restored unchanged before its next use. -/
namespace AfroPay.Staking
open Panics KeyedStore TokenLedger Runs

variable {Address : Type} [DecidableEq Address]

def storageVersionCurrent : Nat := 1

/-- Yields are scaled by `10^7`. -/
def fixedPointPrecision : Int := 10000000

def penaltyBasisPoints : Int := 1000

def basisPointsDenominator : Int := 10000

def maxLockDuration : Nat := 365 * 24 * 60 * 60

def minLockDuration : Nat := 24 * 60 * 60

/-- A staking pool for one asset. `createdAt` is overwritten with the time of
every accumulator update. -/
structure PoolInfo (Address : Type) where
  asset : Address
  treasury : Address
  rewardRate : Int
  totalStaked : Int
  accRewardPerShare : Int
  createdAt : Nat
  isActive : Bool
  deriving DecidableEq

/-- One staker's position within a pool. -/
structure StakerInfo where
  amount : Int
  lockStart : Nat
  lockDuration : Nat
  rewardDebt : Int
  deriving DecidableEq

/-- Why the contract paid tokens out. -/
inductive Purpose where
  | reward
  | penalty
  | principal
  deriving DecidableEq

/-- A token transfer out of the contract, as its transfer event records it,
together with the pool and the reason. -/
structure Payment (Address : Type) where
  poolId : Nat
  purpose : Purpose
  asset : Address
  recipient : Address
  amount : Int
  deriving DecidableEq

/-- Contract storage, token ledgers, ledger time and the payments made so far,
newest first. -/
structure World (Address : Type) where
  self : Address
  now : Nat
  admin : Option Address
  storageVersion : Option Nat
  poolCounter : Nat
  pools : Store Nat (PoolInfo Address)
  stakes : Store (Nat × Address) StakerInfo
  ledger : Ledger Address
  payments : List (Payment Address)

/-- A freshly deployed contract: any address, any time, any token balances. -/
def World.deployed (self : Address) (now : Nat) (ledger : Ledger Address) : World Address :=
  ⟨self, now, none, none, 0, ∅, ∅, ledger, []⟩

/-- `Address::require_auth`. The contract never calls itself, so its own
address authorises nothing. -/
def requireAuth (w : World Address) (auths : List Address) (address : Address) : Except String Unit :=
  panicIf (address ∉ auths ∨ address = w.self) "Error(Auth, InvalidAction)"

def safeMul (a b : Int) : Except String Int := fit "arithmetic overflow in multiplication" (a * b)

def safeAdd (a b : Int) : Except String Int := fit "arithmetic overflow in addition" (a + b)

def safeDiv (a b : Int) : Except String Int := do
  panicIf (b = 0) "arithmetic error: division by zero"
  fit "attempt to divide with overflow" (a.tdiv b)

def assertAdmin (w : World Address) (address : Address) : Except String Unit := do
  let admin ← expect "contract not initialized" w.admin
  panicIf (address ≠ admin) "unauthorized: not admin"

def getPool (w : World Address) (poolId : Nat) : Except String (PoolInfo Address) :=
  expect s!"pool {poolId} not found" (w.pools.lookup poolId)

def World.setPool (w : World Address) (poolId : Nat) (pool : PoolInfo Address) : World Address :=
  { w with pools := w.pools.insert poolId pool }

/-- The accumulator `update_pool` computes for the current time. -/
def accrue (pool : PoolInfo Address) (now : Nat) : Except String Int :=
  if pool.totalStaked > 0 ∧ pool.rewardRate > 0 then
    let elapsed := now - pool.createdAt
    if elapsed > 0 then do
      let totalReward ← safeMul pool.rewardRate elapsed
      let scaled ← safeMul totalReward fixedPointPrecision
      let increment ← safeDiv scaled pool.totalStaked
      safeAdd pool.accRewardPerShare increment
    else pure pool.accRewardPerShare
  else pure pool.accRewardPerShare

def updatePool (w : World Address) (poolId : Nat) : Except String (World Address) := do
  let pool ← getPool w poolId
  let acc ← accrue pool w.now
  -- Always written, so the next interval starts now even when nothing accrued.
  pure (w.setPool poolId { pool with accRewardPerShare := acc, createdAt := w.now })

/-- The debt is subtracted as it is stored: an accumulator value, not an amount
of tokens. -/
def calculatePendingReward (amount rewardDebt acc : Int) : Except String Int :=
  if amount ≤ 0 then pure 0
  else do
    let product ← safeMul amount acc
    let reward ← safeDiv product fixedPointPrecision
    let pending ← fit "attempt to subtract with overflow" (reward - rewardDebt)
    pure (if pending < 0 then 0 else pending)

def calculatePenalty (amount : Int) : Except String Int := do
  let product ← safeMul amount penaltyBasisPoints
  let quotient := product.tdiv basisPointsDenominator
  let remainder := product.tmod basisPointsDenominator
  if remainder > 0 then fit "attempt to add with overflow" (quotient + 1) else pure quotient

def addToPoolStaked (w : World Address) (poolId : Nat) (delta : Int) : Except String (World Address) := do
  let pool ← getPool w poolId
  let staked ← safeAdd pool.totalStaked delta
  pure (w.setPool poolId { pool with totalStaked := staked })

def subFromPoolStaked (w : World Address) (poolId : Nat) (delta : Int) : Except String (World Address) := do
  let pool ← getPool w poolId
  let staked ← fit "attempt to subtract with overflow" (pool.totalStaked - delta)
  pure (w.setPool poolId { pool with totalStaked := staked })

/-- The reward token is the pool's own asset. -/
def getRewardTokenForPool (w : World Address) (poolId : Nat) : Except String Address := do
  let pool ← getPool w poolId
  pure pool.asset

/-- A token transfer from the contract, recorded with its purpose. -/
def pay (w : World Address) (poolId : Nat) (purpose : Purpose) (asset recipient : Address)
    (amount : Int) : Except String (World Address) := do
  let ledger ← transfer w.ledger asset w.self recipient amount
  pure { w with ledger, payments := ⟨poolId, purpose, asset, recipient, amount⟩ :: w.payments }

/-- The reward transfer that `stake`, `claim_rewards` and `withdraw` share. -/
def payReward (w : World Address) (poolId : Nat) (recipient : Address) (pending : Int) :
    Except String (World Address) :=
  if pending > 0 then do
    let rewardToken ← getRewardTokenForPool w poolId
    pay w poolId .reward rewardToken recipient pending
  else pure w

/-- The penalty `withdraw` takes: 10% before the lock ends, nothing after. -/
def earlyPenalty (now : Nat) (staker : StakerInfo) (amount : Int) : Except String Int :=
  let lockEnd := saturatingAdd staker.lockStart staker.lockDuration
  if now < lockEnd then calculatePenalty amount else pure 0

/-- The penalty transfer of `withdraw`. -/
def payPenalty (w : World Address) (poolId : Nat) (pool : PoolInfo Address) (penalty : Int) :
    Except String (World Address) :=
  if penalty > 0 then pay w poolId .penalty pool.asset pool.treasury penalty else pure w

def initializeAdmin (w : World Address) (auths : List Address) (admin : Address) :
    Except String (World Address) := do
  panicIf (w.admin.isSome) "contract already initialized"
  requireAuth w auths admin
  pure { w with admin := some admin, storageVersion := some storageVersionCurrent }

def migrate (w : World Address) (auths : List Address) (admin : Address) :
    Except String (World Address) := do
  requireAuth w auths admin
  let storedAdmin ← expect "contract not initialized" w.admin
  panicIf (admin ≠ storedAdmin) "unauthorized admin"
  let currentVersion := w.storageVersion.getD 1
  panicIf (currentVersion > storageVersionCurrent) "storage version is newer than this contract"
  if currentVersion < storageVersionCurrent then
    pure { w with storageVersion := some storageVersionCurrent }
  else pure w

/-- Returns the new pool's id. -/
def createPool (w : World Address) (auths : List Address) (admin asset treasury : Address)
    (rewardRate : Int) : Except String (World Address × Nat) := do
  requireAuth w auths admin
  assertAdmin w admin
  panicIf (rewardRate < 0) "reward_rate must be non-negative"
  let poolId ← fitU64 "attempt to add with overflow" (w.poolCounter + 1)
  let pool : PoolInfo Address := ⟨asset, treasury, rewardRate, 0, 0, w.now, true⟩
  pure ({ w with poolCounter := poolId }.setPool poolId pool, poolId)

def deactivatePool (w : World Address) (auths : List Address) (admin : Address) (poolId : Nat) :
    Except String (World Address) := do
  requireAuth w auths admin
  assertAdmin w admin
  let pool ← getPool w poolId
  pure (w.setPool poolId { pool with isActive := false })

def setRewardRate (w : World Address) (auths : List Address) (admin : Address) (poolId : Nat)
    (newRate : Int) : Except String (World Address) := do
  requireAuth w auths admin
  assertAdmin w admin
  panicIf (newRate < 0) "reward_rate must be non-negative"
  let w ← updatePool w poolId
  let pool ← getPool w poolId
  pure (w.setPool poolId { pool with rewardRate := newRate })

def stake (w : World Address) (auths : List Address) (sender : Address) (poolId : Nat)
    (amount : Int) (lockDuration : Nat) : Except String (World Address) := do
  requireAuth w auths sender
  panicIf (amount ≤ 0) "amount must be positive"
  panicIf (lockDuration < minLockDuration ∨ lockDuration > maxLockDuration)
    "lock_duration must be between 1 day and 365 days"
  let w ← updatePool w poolId
  let pool ← getPool w poolId
  panicIf (pool.isActive = false) "pool is not active"
  let ledger ← transfer w.ledger pool.asset sender w.self amount
  let w := { w with ledger }
  let staker := (w.stakes.lookup (poolId, sender)).getD ⟨0, w.now, lockDuration, pool.accRewardPerShare⟩
  let pending ← calculatePendingReward staker.amount staker.rewardDebt pool.accRewardPerShare
  let w ← payReward w poolId sender pending
  let effectiveDuration := if staker.amount > 0 then
      let remaining := saturatingAdd staker.lockStart staker.lockDuration - w.now
      max remaining lockDuration
    else lockDuration
  let staked ← fit "attempt to add with overflow" (staker.amount + amount)
  let staker : StakerInfo := ⟨staked, w.now, effectiveDuration, pool.accRewardPerShare⟩
  addToPoolStaked { w with stakes := w.stakes.insert (poolId, sender) staker } poolId amount

def claimRewards (w : World Address) (auths : List Address) (sender : Address) (poolId : Nat) :
    Except String (World Address) := do
  requireAuth w auths sender
  let w ← updatePool w poolId
  let staker ← expect "no stake found" (w.stakes.lookup (poolId, sender))
  let pool ← getPool w poolId
  let pending ← calculatePendingReward staker.amount staker.rewardDebt pool.accRewardPerShare
  if pending > 0 then
    -- The snapshot is stored before the transfer, and only when something is paid.
    let staker := { staker with rewardDebt := pool.accRewardPerShare }
    payReward { w with stakes := w.stakes.insert (poolId, sender) staker } poolId sender pending
  else pure w

def withdraw (w : World Address) (auths : List Address) (sender : Address) (poolId : Nat)
    (amount : Int) : Except String (World Address) := do
  requireAuth w auths sender
  panicIf (amount ≤ 0) "amount must be positive"
  let w ← updatePool w poolId
  let staker ← expect "no stake found" (w.stakes.lookup (poolId, sender))
  panicIf (staker.amount < amount) "insufficient staked balance"
  let pool ← getPool w poolId
  let pending ← calculatePendingReward staker.amount staker.rewardDebt pool.accRewardPerShare
  let w ← payReward w poolId sender pending
  let rewardDebt := if pending > 0 then pool.accRewardPerShare else staker.rewardDebt
  let penalty ← earlyPenalty w.now staker amount
  let netAmount ← fit "attempt to subtract with overflow" (amount - penalty)
  let w ← payPenalty w poolId pool penalty
  let w ← pay w poolId .principal pool.asset sender netAmount
  let remaining ← fit "attempt to subtract with overflow" (staker.amount - amount)
  let stakes := if remaining = 0 then w.stakes.erase (poolId, sender)
    else w.stakes.insert (poolId, sender) { staker with amount := remaining, rewardDebt }
  subFromPoolStaked { w with stakes } poolId amount

/-- Also advances the pool: the source calls `update_pool` here as everywhere else. -/
def getPendingRewards (w : World Address) (poolId : Nat) (staker : Address) :
    Except String (World Address × Int) := do
  let w ← updatePool w poolId
  match w.stakes.lookup (poolId, staker) with
  | none => pure (w, 0)
  | some info =>
    let pool ← getPool w poolId
    let pending ← calculatePendingReward info.amount info.rewardDebt pool.accRewardPerShare
    pure (w, pending)

/-- The contract's state-changing entry points. -/
inductive Call (Address : Type) where
  | initializeAdmin (admin : Address)
  | migrate (admin : Address)
  | createPool (admin asset treasury : Address) (rewardRate : Int)
  | deactivatePool (admin : Address) (poolId : Nat)
  | setRewardRate (admin : Address) (poolId : Nat) (newRate : Int)
  | stake (sender : Address) (poolId : Nat) (amount : Int) (lockDuration : Nat)
  | claimRewards (sender : Address) (poolId : Nat)
  | withdraw (sender : Address) (poolId : Nat) (amount : Int)
  | getPendingRewards (poolId : Nat) (staker : Address)

def exec (w : World Address) (auths : List Address) : Call Address → Except String (World Address)
  | .initializeAdmin admin => initializeAdmin w auths admin
  | .migrate admin => migrate w auths admin
  | .createPool admin asset treasury rewardRate =>
    Prod.fst <$> createPool w auths admin asset treasury rewardRate
  | .deactivatePool admin poolId => deactivatePool w auths admin poolId
  | .setRewardRate admin poolId newRate => setRewardRate w auths admin poolId newRate
  | .stake sender poolId amount lockDuration => stake w auths sender poolId amount lockDuration
  | .claimRewards sender poolId => claimRewards w auths sender poolId
  | .withdraw sender poolId amount => withdraw w auths sender poolId amount
  | .getPendingRewards poolId staker => Prod.fst <$> getPendingRewards w poolId staker

/-- One event on the network: a call with the addresses that authorised it, the
clock moving on, or token activity of other parties. -/
inductive Event (Address : Type) where
  | call (auths : List Address) (call : Call Address)
  | advance (seconds : Nat)
  | token (activity : Activity Address)

/-- A panicking call is rolled back. -/
def step (w : World Address) : Event Address → World Address
  | .call auths call =>
    match exec w auths call with
    | .ok after => after
    | .error _ => w
  | .advance seconds => { w with now := w.now + seconds }
  | .token activity => { w with ledger := activity.apply w.self w.ledger }

end AfroPay.Staking
