import AfroPay.StakingBookkeeping

/-! The settling calls of the staking contract in two halves. A plan is computed
from one pool record, one stake entry and the clock; carrying it out moves the
tokens and writes the records. Each call succeeds exactly when its plan can be
made and carried out, and does what the plan says. -/
namespace AfroPay.Staking
open Panics KeyedStore TokenLedger

variable {Address : Type}

/-- What becomes of the staker's entry. -/
inductive EntryUpdate where
  | keep
  | store (info : StakerInfo)
  | remove

def EntryUpdate.apply [DecidableEq Address] (stakes : Store (Nat × Address) StakerInfo) (key : Nat × Address) :
    EntryUpdate → Store (Nat × Address) StakerInfo
  | .keep => stakes
  | .store info => stakes.insert key info
  | .remove => stakes.erase key

/-- What a settling call has decided before it moves any token. -/
structure Plan (Address : Type) where
  acc : Int
  update : EntryUpdate
  delta : Int
  deposit : Option Int
  payouts : List (Payment Address)

/-- The reward transfer, when there is something to pay. -/
def rewardPayout (poolId : Nat) (asset recipient : Address) (pending : Int) : List (Payment Address) :=
  if pending > 0 then [⟨poolId, .reward, asset, recipient, pending⟩] else []

/-- The penalty and principal transfers of a withdrawal. -/
def withdrawalPayouts (poolId : Nat) (asset treasury recipient : Address) (amount penalty : Int) :
    List (Payment Address) :=
  (if penalty > 0 then [⟨poolId, .penalty, asset, treasury, penalty⟩] else []) ++
    [⟨poolId, .principal, asset, recipient, amount - penalty⟩]

def planStake (pool : PoolInfo Address) (entry : Option StakerInfo) (now : Nat) (sender : Address) (poolId : Nat)
    (amount : Int) (lockDuration : Nat) : Except String (Plan Address) := do
  panicIf (amount ≤ 0) "amount must be positive"
  panicIf (lockDuration < minLockDuration ∨ lockDuration > maxLockDuration)
    "lock_duration must be between 1 day and 365 days"
  let acc ← accrue pool now
  panicIf (pool.isActive = false) "pool is not active"
  let staker := entry.getD ⟨0, now, lockDuration, acc⟩
  let pending ← calculatePendingReward staker.amount staker.rewardDebt acc
  let effectiveDuration := if staker.amount > 0 then
      max (saturatingAdd staker.lockStart staker.lockDuration - now) lockDuration
    else lockDuration
  let staked ← fit "attempt to add with overflow" (staker.amount + amount)
  pure ⟨acc, .store ⟨staked, now, effectiveDuration, acc⟩, amount, some amount,
    rewardPayout poolId pool.asset sender pending⟩

def planClaim (pool : PoolInfo Address) (entry : Option StakerInfo) (now : Nat) (sender : Address) (poolId : Nat) :
    Except String (Plan Address) := do
  let acc ← accrue pool now
  let staker ← expect "no stake found" entry
  let pending ← calculatePendingReward staker.amount staker.rewardDebt acc
  pure ⟨acc, if pending > 0 then .store { staker with rewardDebt := acc } else .keep, 0, none,
    rewardPayout poolId pool.asset sender pending⟩

def planWithdraw (pool : PoolInfo Address) (entry : Option StakerInfo) (now : Nat) (sender : Address) (poolId : Nat)
    (amount : Int) : Except String (Plan Address) := do
  panicIf (amount ≤ 0) "amount must be positive"
  let acc ← accrue pool now
  let staker ← expect "no stake found" entry
  panicIf (staker.amount < amount) "insufficient staked balance"
  let pending ← calculatePendingReward staker.amount staker.rewardDebt acc
  let rewardDebt := if pending > 0 then acc else staker.rewardDebt
  let penalty ← earlyPenalty now staker amount
  let _ ← fit "attempt to subtract with overflow" (amount - penalty)
  let remaining ← fit "attempt to subtract with overflow" (staker.amount - amount)
  pure ⟨acc, if remaining = 0 then .remove else .store { staker with amount := remaining, rewardDebt }, -amount,
    none, rewardPayout poolId pool.asset sender pending ++
      withdrawalPayouts poolId pool.asset pool.treasury sender amount penalty⟩

/-- The plan of a settling call. -/
def planOf (call : Call Address) (pool : PoolInfo Address) (entry : Option StakerInfo) (now : Nat) :
    Except String (Plan Address) :=
  match call with
  | .stake sender poolId amount lockDuration => planStake pool entry now sender poolId amount lockDuration
  | .claimRewards sender poolId => planClaim pool entry now sender poolId
  | .withdraw sender poolId amount => planWithdraw pool entry now sender poolId amount
  | _ => .error "settles no staker"

variable [DecidableEq Address]

/-- The payments of a plan, one transfer after the other. -/
def payAll (contract : Address) (ledger : Ledger Address) : List (Payment Address) →
    Except String (Ledger Address)
  | [] => pure ledger
  | payment :: rest => do
    let ledger ← transfer ledger payment.asset contract payment.recipient payment.amount
    payAll contract ledger rest

def takeDeposit (w : World Address) (asset sender : Address) : Option Int → Except String (Ledger Address)
  | some amount => transfer w.ledger asset sender w.self amount
  | none => pure w.ledger

/-- The record of a pool once a plan for it was carried out. -/
def PoolInfo.settled (pool : PoolInfo Address) (plan : Plan Address) (now : Nat) : PoolInfo Address :=
  { pool with accRewardPerShare := plan.acc, createdAt := now, totalStaked := pool.totalStaked + plan.delta }

/-- The world a plan leaves, given the ledger after its transfers. -/
def World.settled (w : World Address) (poolId : Nat) (sender : Address) (pool : PoolInfo Address)
    (plan : Plan Address) (ledger : Ledger Address) : World Address :=
  { w with
    pools := w.pools.insert poolId (pool.settled plan w.now)
    stakes := plan.update.apply w.stakes (poolId, sender)
    ledger
    payments := plan.payouts.reverse ++ w.payments }

/-- The pool's new total; a claim does not write it. -/
def newTotal (total delta : Int) : Except String Int :=
  if delta = 0 then pure total else fit "arithmetic overflow in addition" (total + delta)

/-- The transfers of a plan and the check on the pool's new total. -/
def carryOut (w : World Address) (poolId : Nat) (sender : Address) (pool : PoolInfo Address)
    (plan : Plan Address) : Except String (World Address) := do
  let ledger ← takeDeposit w pool.asset sender plan.deposit
  let ledger ← payAll w.self ledger plan.payouts
  let _ ← newTotal pool.totalStaked plan.delta
  pure (w.settled poolId sender pool plan ledger)

section Equations
variable {w after : World Address} {auths : List Address} {sender recipient : Address} {poolId : Nat}
  {pool : PoolInfo Address} {amount : Int}

theorem payAll_append (contract : Address) (ledger : Ledger Address) (first second : List (Payment Address)) :
    payAll contract ledger (first ++ second) =
      payAll contract ledger first >>= fun ledger => payAll contract ledger second := by
  induction first generalizing ledger with
  | nil => rfl
  | cons payment rest ih =>
    simp only [List.cons_append, payAll, ih, bind_assoc]

/-- A world after some payments. -/
def World.paid (w : World Address) (payouts : List (Payment Address)) (ledger : Ledger Address) : World Address :=
  { w with ledger, payments := payouts.reverse ++ w.payments }

omit [DecidableEq Address] in
@[simp] theorem paid_pools (payouts : List (Payment Address)) (ledger : Ledger Address) :
    (w.paid payouts ledger).pools = w.pools := rfl

private theorem payReward_iff {asset : Address} {pending : Int}
    (found : ∃ pool, w.pools.lookup poolId = some pool ∧ pool.asset = asset) :
    payReward w poolId recipient pending = .ok after ↔ ∃ ledger,
      payAll w.self w.ledger (rewardPayout poolId asset recipient pending) = .ok ledger ∧
        w.paid (rewardPayout poolId asset recipient pending) ledger = after := by
  obtain ⟨pool, found, rfl⟩ := found
  unfold payReward rewardPayout
  split
  · simp only [bind_ok, getRewardTokenForPool, getPool_ok, found, pure_ok, pay_ok, payAll]
    constructor
    · rintro ⟨_, ⟨_, same, rfl⟩, ledger, moved, rfl⟩
      cases same
      exact ⟨ledger, ⟨ledger, moved, rfl⟩, rfl⟩
    · rintro ⟨_, ⟨ledger, moved, rfl⟩, rfl⟩
      exact ⟨_, ⟨pool, rfl, rfl⟩, ledger, moved, rfl⟩
  · simp only [payAll, pure_ok]
    constructor
    · rintro rfl
      exact ⟨w.ledger, rfl, rfl⟩
    · rintro ⟨_, rfl, rfl⟩
      rfl

private theorem payPenalty_iff {penalty : Int} :
    (∃ slashed, payPenalty w poolId pool penalty = .ok slashed ∧
      pay slashed poolId .principal pool.asset recipient (amount - penalty) = .ok after) ↔
    ∃ ledger,
      payAll w.self w.ledger (withdrawalPayouts poolId pool.asset pool.treasury recipient amount penalty) =
        .ok ledger ∧
      w.paid (withdrawalPayouts poolId pool.asset pool.treasury recipient amount penalty) ledger = after := by
  unfold payPenalty withdrawalPayouts
  split
  · simp only [pay_ok, payAll, List.cons_append, List.nil_append, bind_ok, pure_ok]
    constructor
    · rintro ⟨_, ⟨ledger, first, rfl⟩, ledger', second, rfl⟩
      exact ⟨ledger', ⟨ledger, first, ledger', second, rfl⟩, rfl⟩
    · rintro ⟨_, ⟨ledger, first, ledger', second, rfl⟩, rfl⟩
      exact ⟨_, ⟨ledger, first, rfl⟩, ledger', second, rfl⟩
  · simp only [pay_ok, payAll, List.nil_append, bind_ok, pure_ok]
    constructor
    · rintro ⟨_, rfl, ledger, moved, rfl⟩
      exact ⟨ledger, ⟨ledger, moved, rfl⟩, rfl⟩
    · rintro ⟨_, ⟨ledger, moved, rfl⟩, rfl⟩
      exact ⟨w, rfl, ledger, moved, rfl⟩

theorem newTotal_ok {total delta new : Int} :
    newTotal total delta = .ok new ↔ new = total + delta ∧
      (delta ≠ 0 → i128Min ≤ total + delta ∧ total + delta ≤ i128Max) := by
  unfold newTotal
  split
  · next zero =>
    rw [pure_ok, zero, add_zero]
    simp [eq_comm]
  · next moved =>
    rw [fit_ok]
    constructor
    · rintro ⟨rfl, fits⟩
      exact ⟨rfl, fun _ => fits⟩
    · rintro ⟨rfl, fits⟩
      exact ⟨rfl, fits moved⟩

theorem carryOut_ok {plan : Plan Address} : carryOut w poolId sender pool plan = .ok after ↔
    ∃ deposited ledger, takeDeposit w pool.asset sender plan.deposit = .ok deposited ∧
      payAll w.self deposited plan.payouts = .ok ledger ∧
      (plan.delta ≠ 0 → i128Min ≤ pool.totalStaked + plan.delta ∧ pool.totalStaked + plan.delta ≤ i128Max) ∧
      w.settled poolId sender pool plan ledger = after := by
  simp only [carryOut, bind_ok, newTotal_ok, pure_ok]
  constructor
  · rintro ⟨deposited, taken, ledger, moved, _, ⟨-, fits⟩, rfl⟩
    exact ⟨deposited, ledger, taken, moved, fits, rfl⟩
  · rintro ⟨deposited, ledger, taken, moved, fits, rfl⟩
    exact ⟨deposited, taken, ledger, moved, _, ⟨rfl, fits⟩, rfl⟩

/-- Successful calls in two halves. -/
def Settling (w : World Address) (auths : List Address) (sender : Address) (poolId : Nat)
    (planned : PoolInfo Address → Except String (Plan Address)) (after : World Address) : Prop :=
  sender ∈ auths ∧ sender ≠ w.self ∧ ∃ pool plan, w.pools.lookup poolId = some pool ∧ planned pool = .ok plan ∧
    carryOut w poolId sender pool plan = .ok after

theorem claimRewards_iff : claimRewards w auths sender poolId = .ok after ↔
    Settling w auths sender poolId
      (planClaim · (w.stakes.lookup (poolId, sender)) w.now sender poolId) after := by
  simp only [claimRewards, Settling, planClaim, carryOut_ok, bind_ok, requireAuth_ok, updatePool_ok,
    expect_ok, getPool_ok, pure_ok]
  constructor
  · rintro ⟨-, ⟨signed, outside⟩, _, ⟨pool, acc, found, accrued, rfl⟩, prior, stored, _, lookup, pending, priced, ok⟩
    rw [setPool_lookup] at lookup
    cases lookup
    have paid : ∃ ledger, payAll w.self w.ledger (rewardPayout poolId pool.asset sender pending) = .ok ledger ∧
        w.settled poolId sender pool ⟨acc, if pending > 0 then .store { prior with rewardDebt := acc } else .keep, 0,
          none, rewardPayout poolId pool.asset sender pending⟩ ledger = after := by
      split at ok
      · next paying =>
        obtain ⟨ledger, moved, rfl⟩ := (payReward_iff ⟨_, AList.lookup_insert _, rfl⟩).mp ok
        exact ⟨ledger, moved, by simp [World.settled, PoolInfo.settled, World.paid, World.setPool, EntryUpdate.apply, paying]⟩
      · next idle =>
        obtain rfl := pure_ok.mp ok
        exact ⟨w.ledger, by simp [rewardPayout, idle, payAll, pure, Except.pure],
          by simp [World.settled, PoolInfo.settled, World.setPool, EntryUpdate.apply, idle, rewardPayout]⟩
    obtain ⟨ledger, moved, leaves⟩ := paid
    exact ⟨signed, outside, pool, _, found, ⟨acc, accrued, prior, stored, pending, priced, rfl⟩, w.ledger, ledger, rfl,
      moved, by simp, leaves⟩
  · rintro ⟨signed, outside, pool, _, found, ⟨acc, accrued, prior, stored, pending, priced, rfl⟩, _, ledger, taken,
      moved, -, rfl⟩
    obtain rfl := pure_ok.mp taken
    refine ⟨(), ⟨signed, outside⟩, _, ⟨pool, acc, found, accrued, rfl⟩, prior, stored, _, setPool_lookup _ _ _,
      pending, priced, ?_⟩
    split
    · next paying =>
      refine (payReward_iff ?_).mpr ⟨ledger, moved, ?_⟩
      · exact ⟨_, AList.lookup_insert _, rfl⟩
      · simp [World.settled, PoolInfo.settled, World.paid, World.setPool, EntryUpdate.apply]
    · next idle =>
      have same : w.ledger = ledger := by simpa [rewardPayout, idle, payAll, pure_ok] using moved
      rw [pure_ok]
      simp [World.settled, PoolInfo.settled, World.setPool, EntryUpdate.apply, idle, rewardPayout, ← same]

theorem withdraw_iff : withdraw w auths sender poolId amount = .ok after ↔
    Settling w auths sender poolId
      (planWithdraw · (w.stakes.lookup (poolId, sender)) w.now sender poolId amount) after := by
  simp only [withdraw, Settling, planWithdraw, carryOut_ok, subFromPoolStaked, bind_ok, requireAuth_ok, panicIf_ok,
    updatePool_ok, expect_ok, getPool_ok, fit_ok, pure_ok, exists_const]
  constructor
  · rintro ⟨⟨signed, outside⟩, positive, _, ⟨pool, acc, found, accrued, rfl⟩, prior, stored, enough, _, lookup,
      pending, priced, rewarded, rewarding, penalty, penalised, _, ⟨rfl, net⟩, slashed, slashing, _, paying,
      _, ⟨rfl, left⟩, pool', lookup', _, ⟨rfl, fits⟩, rfl⟩
    rw [setPool_lookup] at lookup
    cases lookup
    obtain ⟨ledger, first, rfl⟩ := (payReward_iff ⟨_, AList.lookup_insert _, rfl⟩).mp rewarding
    obtain ⟨ledger', second, rfl⟩ := payPenalty_iff.mp ⟨slashed, slashing, paying⟩
    rw [paid_pools, paid_pools, setPool_lookup] at lookup'
    cases lookup'
    refine ⟨signed, outside, pool, _, found, ⟨positive, acc, accrued, prior, stored, enough, pending, priced, penalty,
      penalised, _, ⟨rfl, net⟩, _, ⟨rfl, left⟩, rfl⟩, w.ledger, ledger', rfl, ?_, ?_, ?_⟩
    · rw [payAll_append, bind_ok]
      exact ⟨ledger, first, second⟩
    · exact fun _ => fits
    · simp only [World.settled, PoolInfo.settled, World.paid, World.setPool, ← sub_eq_add_neg]
      split <;> simp [EntryUpdate.apply]
  · rintro ⟨signed, outside, pool, _, found, ⟨positive, acc, accrued, prior, stored, enough, pending, priced, penalty,
      penalised, _, ⟨rfl, net⟩, _, ⟨rfl, left⟩, rfl⟩, _, ledger', taken, moved, fits, rfl⟩
    obtain rfl := pure_ok.mp taken
    rw [payAll_append, bind_ok] at moved
    obtain ⟨ledger, first, second⟩ := moved
    let accruing : PoolInfo Address := { pool with accRewardPerShare := acc, createdAt := w.now }
    let rewarded := (w.setPool poolId accruing).paid (rewardPayout poolId pool.asset sender pending) ledger
    have rewarding : payReward (w.setPool poolId accruing) poolId sender pending = .ok rewarded :=
      (payReward_iff ⟨_, setPool_lookup _ _ _, rfl⟩).mpr ⟨ledger, first, rfl⟩
    have paying : ∃ slashed, payPenalty rewarded poolId accruing penalty = .ok slashed ∧
        pay slashed poolId .principal accruing.asset sender (amount - penalty) = .ok (rewarded.paid
          (withdrawalPayouts poolId pool.asset pool.treasury sender amount penalty) ledger') :=
      payPenalty_iff.mpr ⟨ledger', second, rfl⟩
    obtain ⟨slashed, slashing, paying⟩ := paying
    have withdrawn : pool.totalStaked + -amount = pool.totalStaked - amount := (sub_eq_add_neg _ _).symm
    refine ⟨⟨signed, outside⟩, positive, _, ⟨pool, acc, found, accrued, rfl⟩, prior, stored, enough, _,
      setPool_lookup _ _ _, pending, priced, _, rewarding, penalty, penalised, _, ⟨rfl, net⟩, slashed, slashing, _,
      paying, _, ⟨rfl, left⟩, _, setPool_lookup _ _ _, _, ⟨rfl, withdrawn ▸ fits (by simpa using (by omega : amount ≠ 0))⟩, ?_⟩
    simp only [World.settled, PoolInfo.settled, World.paid, World.setPool, rewarded, accruing, ← sub_eq_add_neg]
    split <;> simp [EntryUpdate.apply]

theorem stake_iff {lockDuration : Nat} : stake w auths sender poolId amount lockDuration = .ok after ↔
    Settling w auths sender poolId
      (planStake · (w.stakes.lookup (poolId, sender)) w.now sender poolId amount lockDuration) after := by
  simp only [stake, Settling, planStake, carryOut_ok, addToPoolStaked, safeAdd, bind_ok, requireAuth_ok, panicIf_ok,
    updatePool_ok, getPool_ok, fit_ok, pure_ok, exists_const]
  constructor
  · rintro ⟨⟨signed, outside⟩, positive, range, _, ⟨pool, acc, found, accrued, rfl⟩, _, lookup, active, deposited,
      taken, pending, priced, rewarded, rewarding, _, ⟨rfl, held⟩, pool', lookup', _, ⟨rfl, fits⟩, rfl⟩
    rw [setPool_lookup] at lookup
    cases lookup
    obtain ⟨ledger, moved, rfl⟩ := (payReward_iff ⟨_, AList.lookup_insert _, rfl⟩).mp rewarding
    rw [paid_pools, setPool_lookup] at lookup'
    cases lookup'
    refine ⟨signed, outside, pool, _, found, ⟨positive, range, acc, accrued, active, pending, priced, _, ⟨rfl, held⟩,
      rfl⟩, deposited, ledger, taken, moved, fun _ => fits, ?_⟩
    simp [World.settled, PoolInfo.settled, World.paid, World.setPool, EntryUpdate.apply]
  · rintro ⟨signed, outside, pool, _, found, ⟨positive, range, acc, accrued, active, pending, priced, _, ⟨rfl, held⟩,
      rfl⟩, deposited, ledger, taken, moved, fits, rfl⟩
    let accruing : PoolInfo Address := { pool with accRewardPerShare := acc, createdAt := w.now }
    let funded : World Address := { w.setPool poolId accruing with ledger := deposited }
    have rewarding : payReward funded poolId sender pending =
        .ok (funded.paid (rewardPayout poolId pool.asset sender pending) ledger) := by
      refine (payReward_iff ?_).mpr ⟨ledger, moved, rfl⟩
      exact ⟨accruing, setPool_lookup w poolId accruing, rfl⟩
    refine ⟨⟨signed, outside⟩, positive, range, _, ⟨pool, acc, found, accrued, rfl⟩, _, setPool_lookup _ _ _, active,
      deposited, taken, pending, priced, _, rewarding, _, ⟨rfl, held⟩, _, setPool_lookup _ _ _, _,
      ⟨rfl, fits (by simpa using (by omega : amount ≠ 0))⟩, ?_⟩
    simp [World.settled, PoolInfo.settled, World.paid, World.setPool, EntryUpdate.apply, funded, accruing]

/-- A settling call succeeds exactly when its plan can be made and carried out. -/
theorem settling_iff {call : Call Address} (who : call.settles = some (poolId, sender)) :
    exec w auths call = .ok after ↔
      Settling w auths sender poolId (planOf call · (w.stakes.lookup (poolId, sender)) w.now) after := by
  cases call with
  | stake from' id amount lockDuration =>
    cases who
    exact stake_iff
  | claimRewards from' id =>
    cases who
    exact claimRewards_iff
  | withdraw from' id amount =>
    cases who
    exact withdraw_iff
  | _ => cases who

end Equations

/-- What an update leaves under its key. -/
def EntryUpdate.result (held : Option StakerInfo) : EntryUpdate → Option StakerInfo
  | .keep => held
  | .store info => some info
  | .remove => none

theorem lookup_apply (update : EntryUpdate) (stakes : Store (Nat × Address) StakerInfo)
    (key other : Nat × Address) :
    (update.apply stakes key).lookup other =
      if other = key then update.result (stakes.lookup key) else stakes.lookup other := by
  by_cases same : other = key
  · subst same
    cases update <;> simp [EntryUpdate.apply, EntryUpdate.result]
  · cases update <;> simp [EntryUpdate.apply, same, AList.lookup_insert_ne, AList.lookup_erase_ne]

section Plans
variable {call : Call Address} {pool other : PoolInfo Address} {entry : Option StakerInfo} {now : Nat}
  {plan : Plan Address}

omit [DecidableEq Address] in
/-- A plan depends on the pool only through its accrual, its asset, its treasury and whether it is active. -/
theorem planOf_congr (accrues : accrue other now = accrue pool now) (asset : other.asset = pool.asset)
    (treasury : other.treasury = pool.treasury) (isActive : other.isActive = pool.isActive) :
    planOf call other entry now = planOf call pool entry now := by
  cases call <;> simp only [planOf, planStake, planClaim, planWithdraw, accrues, asset, treasury, isActive]

omit [DecidableEq Address] in
/-- The same for plans that succeed, when the two accruals succeed alike. -/
theorem planOf_ok_congr (accrues : ∀ acc, accrue other now = .ok acc ↔ accrue pool now = .ok acc)
    (asset : other.asset = pool.asset) (treasury : other.treasury = pool.treasury)
    (isActive : other.isActive = pool.isActive) :
    planOf call other entry now = .ok plan ↔ planOf call pool entry now = .ok plan := by
  cases call <;>
    simp only [planOf, planStake, planClaim, planWithdraw, bind_ok, accrues, asset, treasury, isActive]

omit [DecidableEq Address] in
/-- Accruing twice at one time is accruing once. -/
theorem accrue_again {acc : Int} (totalStaked : Int) : accrue { pool with
    accRewardPerShare := acc, createdAt := now, totalStaked } now = .ok acc := by
  unfold accrue
  simp [pure, Except.pure]

omit [DecidableEq Address] in
theorem planOf_acc (planned : planOf call pool entry now = .ok plan) : accrue pool now = .ok plan.acc := by
  cases call with
  | stake sender poolId amount lockDuration =>
    simp only [planOf, planStake, bind_ok, pure_ok] at planned
    obtain ⟨-, -, -, -, acc, accrued, -, -, -, -, -, -, rfl⟩ := planned
    exact accrued
  | claimRewards sender poolId =>
    simp only [planOf, planClaim, bind_ok, pure_ok] at planned
    obtain ⟨acc, accrued, -, -, -, -, rfl⟩ := planned
    exact accrued
  | withdraw sender poolId amount =>
    simp only [planOf, planWithdraw, bind_ok, pure_ok] at planned
    obtain ⟨-, -, acc, accrued, -, -, -, -, -, -, -, -, -, -, -, -, rfl⟩ := planned
    exact accrued
  | _ => cases planned

omit [DecidableEq Address] in
/-- The plan of a second call at the same time is the one it would have had first. -/
theorem planOf_after (accrued : accrue pool now = .ok plan.acc) :
    planOf call (pool.settled plan now) entry now = planOf call pool entry now :=
  planOf_congr ((accrue_again _).trans accrued.symm) rfl rfl rfl

end Plans

section Accrual
omit [DecidableEq Address]
variable {pool : PoolInfo Address}

/-- The pool emits rewards for the time since its last update. -/
def Earning (pool : PoolInfo Address) (now : Nat) : Prop :=
  0 < pool.totalStaked ∧ 0 < pool.rewardRate ∧ pool.createdAt < now

instance (pool : PoolInfo Address) (now : Nat) : Decidable (Earning pool now) :=
  inferInstanceAs (Decidable (_ ∧ _))

/-- What the pool emitted since its last update, scaled. -/
def emitted (pool : PoolInfo Address) (now : Nat) : Int :=
  pool.rewardRate * ((now - pool.createdAt : Nat) : Int) * fixedPointPrecision

/-- The accumulator brought up to the present, without bounds on its size. -/
def accumulated (pool : PoolInfo Address) (now : Nat) : Int :=
  if Earning pool now then pool.accRewardPerShare + emitted pool now / pool.totalStaked else pool.accRewardPerShare

theorem emitted_nonneg (now : Nat) (rate : 0 ≤ pool.rewardRate) : 0 ≤ emitted pool now :=
  mul_nonneg (mul_nonneg rate (Int.natCast_nonneg _)) (by decide)

theorem accumulated_nonneg (now : Nat) (rate : 0 ≤ pool.rewardRate) (acc : 0 ≤ pool.accRewardPerShare) :
    pool.accRewardPerShare ≤ accumulated pool now ∧ 0 ≤ accumulated pool now := by
  unfold accumulated
  split
  · next earning =>
    have quotient := Int.ediv_nonneg (emitted_nonneg now rate) earning.1.le
    omega
  · exact ⟨le_rfl, acc⟩

/-- Accrual succeeds when the scaled emission and the new accumulator fit. -/
theorem accrue_iff (rate : 0 ≤ pool.rewardRate) (nonneg : 0 ≤ pool.accRewardPerShare) {acc : Int} :
    accrue pool now = .ok acc ↔ acc = accumulated pool now ∧
      (Earning pool now → emitted pool now ≤ i128Max ∧ accumulated pool now ≤ i128Max) := by
  by_cases earning : Earning pool now
  · have elapsed : 0 < now - pool.createdAt := by have := earning.2.2; omega
    have unscaled : 0 ≤ pool.rewardRate * ((now - pool.createdAt : Nat) : Int) :=
      mul_nonneg rate (Int.natCast_nonneg _)
    have scaled : emitted pool now = pool.rewardRate * ((now - pool.createdAt : Nat) : Int) * 10000000 := rfl
    have quotient := Int.ediv_nonneg (emitted_nonneg now rate) earning.1.le
    have smaller := Int.ediv_le_self pool.totalStaked (emitted_nonneg now rate)
    have low : i128Min ≤ 0 := by decide
    have now' : accumulated pool now = pool.accRewardPerShare + emitted pool now / pool.totalStaked := if_pos earning
    have divided : (pool.rewardRate * ((now - pool.createdAt : Nat) : Int) * fixedPointPrecision).tdiv
        pool.totalStaked = emitted pool now / pool.totalStaked := Int.tdiv_eq_ediv_of_nonneg (emitted_nonneg now rate)
    have active : pool.totalStaked > 0 ∧ pool.rewardRate > 0 := ⟨earning.1, earning.2.1⟩
    simp only [accrue, active, and_self, ↓reduceIte, gt_iff_lt, elapsed, bind_ok, safeMul, safeAdd, safeDiv, panicIf_ok,
      fit_ok, exists_const]
    rw [now']
    constructor
    · rintro ⟨_, ⟨rfl, -⟩, _, ⟨rfl, -, fits⟩, _, ⟨-, rfl, -⟩, rfl, -, within⟩
      rw [divided] at within ⊢
      exact ⟨rfl, fun _ => ⟨fits, within⟩⟩
    · rintro ⟨rfl, fits⟩
      obtain ⟨fits, within⟩ := fits earning
      refine ⟨_, ⟨rfl, by omega, by omega⟩, _, ⟨rfl, low.trans (emitted_nonneg now rate), fits⟩, _,
        ⟨earning.1.ne', rfl, ?_⟩, ?_, by omega, within⟩
      · rw [divided]
        exact ⟨low.trans quotient, smaller.trans fits⟩
      · rw [divided]
  · have same : accrue pool now = .ok pool.accRewardPerShare := by
      unfold accrue
      split
      · next active =>
        have still : ¬ now - pool.createdAt > 0 := by
          intro elapsed
          exact earning ⟨active.1, active.2, by omega⟩
        simp [still, pure, Except.pure]
      · rfl
    rw [same, accumulated, if_neg earning]
    simp [earning, eq_comm]

end Accrual

end AfroPay.Staking
