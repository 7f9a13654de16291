import AfroPay.Staking
import Mathlib.Algebra.Order.Ring.Int
import Mathlib.Tactic.Linarith
import Mathlib.Tactic.Ring

/-! What each successful staking call does, once and for all. The three calls
that settle a staker share one shape: the pool accrues, the staker is paid what
is pending, and one stake entry is replaced. -/
namespace AfroPay.Staking
open Panics KeyedStore TokenLedger

variable {Address : Type}

theorem getPool_ok {w : World Address} {poolId : Nat} {pool : PoolInfo Address} :
    getPool w poolId = .ok pool ↔ w.pools.lookup poolId = some pool := expect_ok

@[simp] theorem setPool_lookup (w : World Address) (poolId : Nat) (pool : PoolInfo Address) :
    (w.setPool poolId pool).pools.lookup poolId = some pool := AList.lookup_insert _

@[simp] theorem setPool_setPool (w : World Address) (poolId : Nat) (first second : PoolInfo Address) :
    (w.setPool poolId first).setPool poolId second = w.setPool poolId second := by
  simp [World.setPool]

@[simp] theorem setPool_stakes (w : World Address) (poolId : Nat) (pool : PoolInfo Address) :
    (w.setPool poolId pool).stakes = w.stakes := rfl

theorem safeDiv_ok {a b quotient : Int} (ok : safeDiv a b = .ok quotient) : quotient = a.tdiv b := by
  simp only [safeDiv, bind_ok, panicIf_ok, fit_ok] at ok
  obtain ⟨-, -, rfl, -⟩ := ok
  rfl

/-- The accumulator moves by the whole reward of the interval divided by the
staked total, rounded down, and only while something is staked. -/
theorem accrue_cases {pool : PoolInfo Address} {now : Nat} {acc : Int}
    (ok : accrue pool now = .ok acc) :
    (0 < pool.totalStaked ∧ 0 < pool.rewardRate ∧ pool.createdAt < now ∧
      acc = pool.accRewardPerShare + (pool.rewardRate * ((now - pool.createdAt : Nat) : Int) *
        fixedPointPrecision).tdiv pool.totalStaked) ∨
    (¬ (0 < pool.totalStaked ∧ 0 < pool.rewardRate ∧ pool.createdAt < now) ∧
      acc = pool.accRewardPerShare) := by
  unfold accrue at ok
  split at ok
  · rename_i earning
    simp only at ok
    split at ok
    · rename_i passed
      simp only [bind_ok, safeMul, safeAdd, fit_ok] at ok
      obtain ⟨_, ⟨rfl, -⟩, _, ⟨rfl, -⟩, increment, divided, rfl, -⟩ := ok
      rw [safeDiv_ok divided]
      exact .inl ⟨earning.1, earning.2, by omega, rfl⟩
    · refine .inr ⟨by omega, ?_⟩
      exact (pure_ok.mp ok).symm
  · rename_i idle
    refine .inr ⟨by tauto, ?_⟩
    exact (pure_ok.mp ok).symm

/-- The reward an interval emits, in whole tokens: nothing while the pool is empty. -/
def emission (pool : PoolInfo Address) (seconds : Nat) : Int :=
  if 0 < pool.totalStaked then pool.rewardRate * seconds else 0

theorem emission_nonneg {pool : PoolInfo Address} (rate : 0 ≤ pool.rewardRate) (seconds : Nat) :
    0 ≤ emission pool seconds := by
  unfold emission
  split
  · exact mul_nonneg rate (Int.natCast_nonneg seconds)
  · exact le_rfl

/-- Accrual never lowers the accumulator and never credits the stakers with more
than the interval emitted. -/
theorem accrue_bounds {pool : PoolInfo Address} {now : Nat} {acc : Int}
    (rate : 0 ≤ pool.rewardRate) (ok : accrue pool now = .ok acc) :
    pool.accRewardPerShare ≤ acc ∧
      pool.totalStaked * (acc - pool.accRewardPerShare) ≤
        emission pool (now - pool.createdAt) * fixedPointPrecision := by
  rcases accrue_cases ok with ⟨staked, -, -, rfl⟩ | ⟨-, rfl⟩
  · have numerator : 0 ≤ pool.rewardRate * ((now - pool.createdAt : Nat) : Int) * fixedPointPrecision :=
      mul_nonneg (mul_nonneg rate (Int.natCast_nonneg _)) (by decide)
    rw [Int.tdiv_eq_ediv_of_nonneg numerator]
    have quotient := Int.ediv_nonneg numerator staked.le
    have rounded := @Int.mul_ediv_self_le (pool.rewardRate * ((now - pool.createdAt : Nat) : Int) *
      fixedPointPrecision) _ staked.ne'
    refine ⟨by omega, ?_⟩
    simpa [emission, staked] using rounded
  · refine ⟨le_rfl, ?_⟩
    have emitted := emission_nonneg rate (now - pool.createdAt)
    simpa using mul_nonneg emitted (by decide : (0 : Int) ≤ fixedPointPrecision)

theorem accrue_same_time {pool : PoolInfo Address} {now : Nat} {acc : Int}
    (ok : accrue pool now = .ok acc) (same : now ≤ pool.createdAt) : acc = pool.accRewardPerShare := by
  rcases accrue_cases ok with ⟨-, -, passed, -⟩ | ⟨-, rfl⟩
  · omega
  · rfl

theorem updatePool_ok {w after : World Address} {poolId : Nat} :
    updatePool w poolId = .ok after ↔ ∃ pool acc, w.pools.lookup poolId = some pool ∧
      accrue pool w.now = .ok acc ∧
      w.setPool poolId { pool with accRewardPerShare := acc, createdAt := w.now } = after := by
  simp only [updatePool, bind_ok, getPool_ok, pure_ok]
  constructor
  · rintro ⟨pool, found, acc, accrued, rfl⟩
    exact ⟨pool, acc, found, accrued, rfl⟩
  · rintro ⟨pool, acc, found, accrued, rfl⟩
    exact ⟨pool, found, acc, accrued, rfl⟩

/-- What the code pays: the scaled share of the accumulator, less the raw debt. -/
theorem calculatePendingReward_ok {amount debt acc pending : Int} (positive : 0 < amount)
    (accumulated : 0 ≤ acc) (ok : calculatePendingReward amount debt acc = .ok pending) :
    pending = max 0 (amount * acc / fixedPointPrecision - debt) := by
  simp only [calculatePendingReward, not_le.mpr positive, ↓reduceIte, bind_ok, safeMul, fit_ok,
    pure_ok] at ok
  obtain ⟨_, ⟨rfl, -⟩, reward, divided, _, ⟨rfl, -⟩, rfl⟩ := ok
  rw [safeDiv_ok divided, Int.tdiv_eq_ediv_of_nonneg (mul_nonneg positive.le accumulated)]
  split <;> omega

theorem calculatePendingReward_nonneg {amount debt acc pending : Int}
    (ok : calculatePendingReward amount debt acc = .ok pending) : 0 ≤ pending := by
  unfold calculatePendingReward at ok
  split at ok
  · exact (pure_ok.mp ok).le
  · simp only [bind_ok, pure_ok] at ok
    obtain ⟨_, -, _, -, _, -, rfl⟩ := ok
    split <;> omega

theorem calculatePendingReward_empty {debt acc pending : Int}
    (ok : calculatePendingReward 0 debt acc = .ok pending) : pending = 0 := by
  have done : (pure 0 : Except String Int) = .ok pending := by simpa [calculatePendingReward] using ok
  exact (pure_ok.mp done).symm

variable [DecidableEq Address]

theorem requireAuth_ok {w : World Address} {auths : List Address} {address : Address} {done : Unit} :
    requireAuth w auths address = .ok done ↔ address ∈ auths ∧ address ≠ w.self := by
  rw [requireAuth, panicIf_ok]
  tauto

/-- Rewards one pool has paid, among the recorded payments. -/
def poolRewards (payments : List (Payment Address)) (poolId : Nat) : Int :=
  (payments.map fun p => if p.purpose = .reward ∧ p.poolId = poolId then p.amount else 0).sum

/-- Rewards paid in one asset over all pools, among the recorded payments. -/
def assetRewards (payments : List (Payment Address)) (asset : Address) : Int :=
  (payments.map fun p => if p.purpose = .reward ∧ p.asset = asset then p.amount else 0).sum

/-- Token movements of one call: the reward it records, and a bound on what the
contract's balance of the pool's asset loses. Other balances do not fall. -/
structure Moves (contract : Address) (poolId : Nat) (asset : Address) (reward lost : Int)
    (ledger : Ledger Address) (payments : List (Payment Address))
    (ledger' : Ledger Address) (payments' : List (Payment Address)) : Prop where
  rewards : ∀ id, poolRewards payments' id = poolRewards payments id + if id = poolId then reward else 0
  inAsset : ∀ token, assetRewards payments' token =
    assetRewards payments token + if token = asset then reward else 0
  balance : ∀ token, ledger token contract ≤ ledger' token contract + if token = asset then lost else 0

section Movement
variable {contract : Address} {poolId : Nat} {asset : Address} {ledger ledger' ledger'' : Ledger Address}
variable {payments payments' payments'' : List (Payment Address)}

theorem Moves.nothing : Moves contract poolId asset 0 0 ledger payments ledger payments := by
  constructor <;> simp

theorem Moves.trans (first : Moves contract poolId asset reward lost ledger payments ledger' payments')
    (second : Moves contract poolId asset reward' lost' ledger' payments' ledger'' payments'') :
    Moves contract poolId asset (reward + reward') (lost + lost') ledger payments ledger'' payments'' where
  rewards id := by
    rw [second.rewards, first.rewards]
    split <;> omega
  inAsset token := by
    rw [second.inAsset, first.inAsset]
    split <;> omega
  balance token := by
    have before := first.balance token
    have after := second.balance token
    split at before <;> simp_all <;> omega

theorem Moves.sums (moves : Moves contract poolId asset reward lost ledger payments ledger' payments')
    (rewarded : reward = reward') (loss : lost = lost') :
    Moves contract poolId asset reward' lost' ledger payments ledger' payments' :=
  rewarded ▸ loss ▸ moves

/-- A deposit into the contract. -/
theorem Moves.deposit (poolId : Nat) (payments : List (Payment Address))
    (moved : transfer ledger asset sender contract amount = .ok ledger')
    (distinct : sender ≠ contract) : Moves contract poolId asset 0 (-amount) ledger payments ledger' payments where
  rewards id := by simp
  inAsset token := by simp
  balance token := by
    by_cases same : token = asset
    · subst same
      rw [transfer_received moved distinct]
      simp
    · rw [transfer_elsewhere moved (.inl same)]
      simp [same]

/-- A payment by the contract, which may go to the contract itself. -/
theorem Moves.payment (poolId : Nat) (purpose : Purpose) (payments : List (Payment Address))
    (moved : transfer ledger asset contract recipient amount = .ok ledger') :
    Moves contract poolId asset (if purpose = .reward then amount else 0) amount ledger payments
      ledger' (⟨poolId, purpose, asset, recipient, amount⟩ :: payments) where
  rewards id := by
    simp only [poolRewards, List.map_cons, List.sum_cons]
    grind
  inAsset token := by
    simp only [assetRewards, List.map_cons, List.sum_cons]
    grind
  balance token := by
    have positive := (transfer_ok.mp moved).1
    by_cases same : token = asset
    · subst same
      rw [transfer_paid moved]
      split <;> simp
      omega
    · rw [transfer_elsewhere moved (.inl same)]
      simp [same]

theorem pay_ok {w after : World Address} {purpose : Purpose} {recipient : Address} {amount : Int} :
    pay w poolId purpose asset recipient amount = .ok after ↔
      ∃ ledger, transfer w.ledger asset w.self recipient amount = .ok ledger ∧
        { w with ledger, payments := ⟨poolId, purpose, asset, recipient, amount⟩ :: w.payments } =
          after := by
  simp only [pay, bind_ok, pure_ok]

/-- Paying the pending reward touches only the ledger and the payment record. -/
theorem payReward_effect {w after : World Address} {pool : PoolInfo Address} {pending : Int}
    (ok : payReward w poolId recipient pending = .ok after)
    (found : w.pools.lookup poolId = some pool) (nonneg : 0 ≤ pending) :
    ∃ ledger payments, { w with ledger, payments } = after ∧
      Moves w.self poolId pool.asset pending pending w.ledger w.payments ledger payments := by
  unfold payReward at ok
  split at ok
  · simp only [bind_ok, getRewardTokenForPool, getPool_ok, pure_ok, pay_ok] at ok
    obtain ⟨_, ⟨held, lookup, rfl⟩, ledger, moved, rfl⟩ := ok
    rw [found] at lookup
    cases lookup
    exact ⟨_, _, rfl, by simpa using Moves.payment poolId .reward w.payments moved⟩
  · obtain rfl : pending = 0 := by omega
    obtain rfl := pure_ok.mp ok
    exact ⟨_, _, rfl, Moves.nothing⟩

/-- The penalty goes to the treasury, which may be the contract itself. -/
theorem payPenalty_effect {w after : World Address} {pool : PoolInfo Address} {penalty : Int}
    (ok : payPenalty w poolId pool penalty = .ok after) (nonneg : 0 ≤ penalty) :
    ∃ ledger payments, { w with ledger, payments } = after ∧
      Moves w.self poolId pool.asset 0 penalty w.ledger w.payments ledger payments := by
  unfold payPenalty at ok
  split at ok
  · obtain ⟨ledger, moved, rfl⟩ := pay_ok.mp ok
    exact ⟨_, _, rfl, by simpa using Moves.payment poolId .penalty w.payments moved⟩
  · obtain rfl : penalty = 0 := by omega
    obtain rfl := pure_ok.mp ok
    exact ⟨_, _, rfl, Moves.nothing⟩

theorem calculatePenalty_nonneg {amount penalty : Int} (positive : 0 < amount)
    (ok : calculatePenalty amount = .ok penalty) : 0 ≤ penalty := by
  simp only [calculatePenalty, bind_ok, safeMul, fit_ok] at ok
  obtain ⟨product, ⟨rfl, -⟩, ok⟩ := ok
  have quotient : 0 ≤ (amount * penaltyBasisPoints).tdiv basisPointsDenominator :=
    Int.tdiv_nonneg (mul_nonneg positive.le (by decide)) (by decide)
  split at ok
  · obtain ⟨rfl, -⟩ := fit_ok.mp ok
    omega
  · exact (pure_ok.mp ok) ▸ quotient

theorem earlyPenalty_nonneg {now : Nat} {staker : StakerInfo} {amount penalty : Int}
    (positive : 0 < amount) (ok : earlyPenalty now staker amount = .ok penalty) : 0 ≤ penalty := by
  simp only [earlyPenalty] at ok
  split at ok
  · exact calculatePenalty_nonneg positive ok
  · exact (pure_ok.mp ok).le

/-- One settlement of a staker: the pool accrues to the current time, the
pending reward leaves the contract, and the staker's entry becomes `entry`. -/
structure Settles (w after : World Address) (poolId : Nat) (sender : Address)
    (pool : PoolInfo Address) (acc pending delta : Int) (entry : Option StakerInfo) : Prop where
  found : w.pools.lookup poolId = some pool
  accrued : accrue pool w.now = .ok acc
  frame : after = { w with
    pools := w.pools.insert poolId { pool with
      accRewardPerShare := acc, createdAt := w.now, totalStaked := pool.totalStaked + delta }
    stakes := after.stakes, ledger := after.ledger, payments := after.payments }
  moves : Moves w.self poolId pool.asset pending (pending - delta) w.ledger w.payments
    after.ledger after.payments
  unstaked : w.stakes.lookup (poolId, sender) = none → pending = 0
  pays : ∀ prior, w.stakes.lookup (poolId, sender) = some prior →
    calculatePendingReward prior.amount prior.rewardDebt acc = .ok pending
  stakes : Replaces w.stakes after.stakes (poolId, sender) entry
  amounts : entry.elim 0 StakerInfo.amount =
    (w.stakes.lookup (poolId, sender)).elim 0 StakerInfo.amount + delta
  positive : ∀ info, entry = some info →
    (∀ prior, w.stakes.lookup (poolId, sender) = some prior → 0 < prior.amount) → 0 < info.amount
  -- The snapshot is refreshed by every stake, but by the other calls only when they pay.
  debt : ∀ info, entry = some info → info.rewardDebt = acc ∨ pending = 0 ∧ delta ≤ 0 ∧
    ∃ prior, w.stakes.lookup (poolId, sender) = some prior ∧ info.rewardDebt = prior.rewardDebt

theorem Settles.pending_nonneg {w after : World Address}
    (settles : Settles w after poolId sender pool acc pending delta entry) : 0 ≤ pending := by
  cases prior : w.stakes.lookup (poolId, sender) with
  | none => exact (settles.unstaked prior).ge
  | some info => exact calculatePendingReward_nonneg (settles.pays info prior)

theorem Settles.pools_eq {w after : World Address}
    (settles : Settles w after poolId sender pool acc pending delta entry) :
    after.pools = w.pools.insert poolId { pool with
      accRewardPerShare := acc, createdAt := w.now, totalStaked := pool.totalStaked + delta } :=
  congrArg World.pools settles.frame

theorem Settles.now_eq {w after : World Address}
    (settles : Settles w after poolId sender pool acc pending delta entry) : after.now = w.now := by
  rw [settles.frame]

theorem Settles.self_eq {w after : World Address}
    (settles : Settles w after poolId sender pool acc pending delta entry) : after.self = w.self := by
  rw [settles.frame]

theorem Settles.counter_eq {w after : World Address}
    (settles : Settles w after poolId sender pool acc pending delta entry) :
    after.poolCounter = w.poolCounter := by
  rw [settles.frame]

theorem stake_settles {w after : World Address} {amount : Int}
    (ok : stake w auths sender poolId amount lockDuration = .ok after) :
    ∃ pool acc pending entry, Settles w after poolId sender pool acc pending amount entry := by
  simp only [stake, bind_ok, requireAuth_ok, panicIf_ok, updatePool_ok, getPool_ok, fit_ok,
    addToPoolStaked, safeAdd, pure_ok, exists_const] at ok
  obtain ⟨⟨-, outside⟩, positive, -, _, ⟨pool, acc, found, accrued, rfl⟩, _, lookup, -, ledger, moved,
    pending, priced, paid, payment, _, ⟨rfl, -⟩, pool', lookup', _, ⟨rfl, -⟩, rfl⟩ := ok
  rw [setPool_lookup] at lookup
  cases lookup
  have nonneg := calculatePendingReward_nonneg priced
  obtain ⟨ledger', payments, rfl, moves⟩ := payReward_effect payment (AList.lookup_insert _) nonneg
  rw [show World.pools _ = (w.setPool poolId _).pools from rfl, setPool_lookup] at lookup'
  cases lookup'
  refine ⟨pool, acc, pending, _, found, accrued, ?_, ?_, ?_, ?_, replaces_insert _ _ _,
    ?_, ?_, fun info same => .inl (by cases same; rfl)⟩
  · simp [World.setPool]
  · have gained := Moves.deposit poolId w.payments moved outside
    exact (gained.trans moves).sums (zero_add pending) (by ring)
  · intro absent
    simp only [setPool_stakes, absent, Option.getD_none] at priced
    exact calculatePendingReward_empty priced
  · intro prior stored
    simpa only [setPool_stakes, stored, Option.getD_some] using priced
  · cases stored : w.stakes.lookup (poolId, sender) <;> simp [stored]
  · rintro info same kept
    cases same
    cases stored : w.stakes.lookup (poolId, sender) with
    | none =>
      simp only [setPool_stakes, stored, Option.getD_none]
      omega
    | some prior =>
      have held := kept prior stored
      simp only [setPool_stakes, stored, Option.getD_some]
      omega

theorem claimRewards_settles {w after : World Address}
    (ok : claimRewards w auths sender poolId = .ok after) :
    ∃ pool acc pending entry, Settles w after poolId sender pool acc pending 0 entry := by
  simp only [claimRewards, bind_ok, requireAuth_ok, updatePool_ok, expect_ok, getPool_ok] at ok
  obtain ⟨-, -, _, ⟨pool, acc, found, accrued, rfl⟩, prior, stored, _, lookup, pending, priced, ok⟩ := ok
  rw [setPool_lookup] at lookup
  cases lookup
  have held : w.stakes.lookup (poolId, sender) = some prior := stored
  have nonneg := calculatePendingReward_nonneg priced
  have pays : ∀ info, w.stakes.lookup (poolId, sender) = some info →
      calculatePendingReward info.amount info.rewardDebt acc = .ok pending := by
    rintro info same
    rw [held] at same
    cases same
    exact priced
  split at ok
  · obtain ⟨ledger, payments, rfl, moves⟩ := payReward_effect ok (AList.lookup_insert _) nonneg
    refine ⟨pool, acc, pending, _, found, accrued, ?_, moves.sums rfl (sub_zero _).symm, by simp [held],
      pays, replaces_insert _ _ _, by simp [held], ?_, fun info same => .inl (by cases same; rfl)⟩
    · simp [World.setPool]
    · rintro info same kept
      cases same
      exact kept prior held
  · obtain rfl : pending = 0 := by omega
    obtain rfl := pure_ok.mp ok
    refine ⟨pool, acc, 0, _, found, accrued, ?_, Moves.nothing, by simp [held],
      pays, replaces_self _ _, by simp, ?_, ?_⟩
    · simp [World.setPool]
    · exact fun info same kept => kept info same
    · exact fun info same => .inr ⟨rfl, le_rfl, info, same, rfl⟩

theorem withdraw_settles {w after : World Address} {amount : Int}
    (ok : withdraw w auths sender poolId amount = .ok after) :
    ∃ pool acc pending entry, Settles w after poolId sender pool acc pending (-amount) entry := by
  simp only [withdraw, bind_ok, requireAuth_ok, panicIf_ok, updatePool_ok, expect_ok, getPool_ok,
    fit_ok, pay_ok, subFromPoolStaked, pure_ok, exists_const] at ok
  obtain ⟨-, positive, _, ⟨pool, acc, found, accrued, rfl⟩, prior, stored, enough, _, lookup, pending,
    priced, paid, payment, penalty, penalised, _, ⟨rfl, -⟩, slashed, slashing, _, ⟨ledger'', moved, rfl⟩,
    remaining, ⟨rfl, -⟩, _, lookup', _, ⟨rfl, -⟩, rfl⟩ := ok
  rw [setPool_lookup] at lookup
  cases lookup
  have held : w.stakes.lookup (poolId, sender) = some prior := stored
  have nonneg := calculatePendingReward_nonneg priced
  obtain ⟨ledger, payments, rfl, rewardMoves⟩ := payReward_effect payment (AList.lookup_insert _) nonneg
  obtain ⟨ledger', payments', rfl, penaltyMoves⟩ :=
    payPenalty_effect slashing (earlyPenalty_nonneg (by omega) penalised)
  have netMoves := Moves.payment poolId .principal payments' moved
  rw [show World.pools _ = (w.setPool poolId _).pools from rfl, setPool_lookup] at lookup'
  cases lookup'
  refine ⟨pool, acc, pending,
    if prior.amount - amount = 0 then none else some { prior with
      amount := prior.amount - amount, rewardDebt := if pending > 0 then acc else prior.rewardDebt },
    found, accrued, ?_, ?_, by simp [held], ?_, ?_, ?_, ?_, ?_⟩
  · simp [World.setPool, sub_eq_add_neg]
  · exact ((rewardMoves.trans penaltyMoves).trans netMoves).sums (by simp) (by ring)
  · rintro info same
    rw [held] at same
    cases same
    exact priced
  · simp only [World.setPool]
    split
    · exact replaces_erase _ _
    · exact replaces_insert _ _ _
  · rw [held]
    split <;> simp <;> omega
  · rintro info same kept
    split at same
    · cases same
    · cases same
      simp only
      omega
  · rintro info same
    split at same
    · cases same
    · cases same
      by_cases paying : pending > 0
      · exact .inl (if_pos paying)
      · exact .inr ⟨by omega, by omega, prior, held, if_neg paying⟩

end Movement

/-- The pool and staker a call settles, if it settles one. -/
def Call.settles : Call Address → Option (Nat × Address)
  | .stake sender poolId _ _ => some (poolId, sender)
  | .claimRewards sender poolId => some (poolId, sender)
  | .withdraw sender poolId _ => some (poolId, sender)
  | _ => none

/-- Everything a successful call can do to the world. -/
inductive Effect (w : World Address) : Call Address → World Address → Prop where
  | administered (idle : call.settles = none) :
      Effect w call { w with admin := admin, storageVersion := version }
  | created (idle : call.settles = none) (rate : 0 ≤ rewardRate) :
      Effect w call ({ w with poolCounter := w.poolCounter + 1 }.setPool (w.poolCounter + 1)
        ⟨asset, treasury, rewardRate, 0, 0, w.now, true⟩)
  | deactivated (pool : PoolInfo Address) (idle : call.settles = none) (found : w.pools.lookup poolId = some pool) :
      Effect w call (w.setPool poolId { pool with isActive := false })
  | refreshed (pool : PoolInfo Address) (idle : call.settles = none)
      (found : w.pools.lookup poolId = some pool) (accrued : accrue pool w.now = .ok acc)
      (rate : newRate = pool.rewardRate ∨ 0 ≤ newRate) :
      Effect w call (w.setPool poolId { pool with
        accRewardPerShare := acc, createdAt := w.now, rewardRate := newRate })
  | settled (who : call.settles = some (poolId, sender))
      (settles : Settles w after poolId sender pool acc pending delta entry) : Effect w call after

theorem exec_effect {w after : World Address} {call : Call Address}
    (ok : exec w auths call = .ok after) : Effect w call after := by
  cases call with
  | initializeAdmin admin =>
    simp only [exec, initializeAdmin, bind_ok, pure_ok] at ok
    obtain ⟨-, -, -, -, rfl⟩ := ok
    exact .administered rfl
  | migrate admin =>
    simp only [exec, migrate, bind_ok] at ok
    obtain ⟨-, -, -, -, -, -, -, -, ok⟩ := ok
    split at ok
    · obtain rfl := pure_ok.mp ok
      exact .administered rfl
    · obtain rfl := pure_ok.mp ok
      exact .administered rfl
  | createPool admin asset treasury rewardRate =>
    simp only [exec, createPool, map_fst_ok, bind_ok, panicIf_ok, fitU64_ok, pure_ok,
      Prod.mk.injEq] at ok
    obtain ⟨-, -, -, -, -, -, rate, _, ⟨rfl, -⟩, rfl, -⟩ := ok
    exact .created rfl (not_lt.mp rate)
  | deactivatePool admin poolId =>
    simp only [exec, deactivatePool, bind_ok, getPool_ok, pure_ok] at ok
    obtain ⟨-, -, -, -, pool, found, rfl⟩ := ok
    exact .deactivated pool rfl found
  | setRewardRate admin poolId newRate =>
    simp only [exec, setRewardRate, bind_ok, panicIf_ok, updatePool_ok, getPool_ok, pure_ok] at ok
    obtain ⟨-, -, -, -, -, rate, _, ⟨pool, acc, found, accrued, rfl⟩, _, lookup, rfl⟩ := ok
    rw [setPool_lookup] at lookup
    cases lookup
    rw [setPool_setPool]
    exact .refreshed pool rfl found accrued (.inr (not_lt.mp rate))
  | stake sender poolId amount lockDuration =>
    obtain ⟨pool, acc, pending, entry, settles⟩ := stake_settles ok
    exact .settled rfl settles
  | claimRewards sender poolId =>
    obtain ⟨pool, acc, pending, entry, settles⟩ := claimRewards_settles ok
    exact .settled rfl settles
  | withdraw sender poolId amount =>
    obtain ⟨pool, acc, pending, entry, settles⟩ := withdraw_settles ok
    exact .settled rfl settles
  | getPendingRewards poolId staker =>
    simp only [exec, getPendingRewards, map_fst_ok, bind_ok, updatePool_ok] at ok
    obtain ⟨_, _, ⟨pool, acc, found, accrued, rfl⟩, ok⟩ := ok
    have kept : w.setPool poolId { pool with accRewardPerShare := acc, createdAt := w.now } = after := by
      split at ok
      · exact (Prod.mk.inj (pure_ok.mp ok)).1
      · simp only [bind_ok, pure_ok, Prod.mk.injEq] at ok
        obtain ⟨-, -, -, -, same, -⟩ := ok
        exact same
    obtain rfl := kept
    exact .refreshed pool rfl found accrued (.inl rfl)

end AfroPay.Staking
