import AfroPay.StakingPlans
import AfroPay.StakingSolvency
import Mathlib.Algebra.Group.Pi.Basic

/-! When a staker gets principal back. A withdrawal accrues the pool and pays the
pending reward before it returns anything, so it fails when that arithmetic
leaves 128 bits or when the balance does not cover reward and principal. -/
namespace AfroPay.Staking
open Panics KeyedStore TokenLedger Runs

variable {Address : Type} [DecidableEq Address]

/-- What is pending for an entry at an accumulator. -/
def pendingOf (info : StakerInfo) (acc : Int) : Int :=
  max 0 (info.amount * acc / fixedPointPrecision - info.rewardDebt)

/-- The entry is still locked. -/
def Locked (info : StakerInfo) (now : Nat) : Prop :=
  now < saturatingAdd info.lockStart info.lockDuration

instance (info : StakerInfo) (now : Nat) : Decidable (Locked info now) :=
  inferInstanceAs (Decidable (_ < _))

/-- A tenth of the amount, rounded up, while the entry is locked. -/
def penaltyOf (info : StakerInfo) (now : Nat) (amount : Int) : Int :=
  if Locked info now then (amount + 9) / 10 else 0

/-- Accrual, pending reward and penalty stay within 128 bits, and the balance
covers the pending reward together with the withdrawn principal. A penalty that
goes back to the contract itself does not have to be covered twice. -/
structure Withdrawable (w : World Address) (pool : PoolInfo Address) (info : StakerInfo) (amount : Int) : Prop where
  accrual : Earning pool w.now → emitted pool w.now ≤ i128Max
  share : info.amount * accumulated pool w.now ≤ i128Max
  penalty : Locked info w.now → amount * penaltyBasisPoints ≤ i128Max
  funds : pendingOf info (accumulated pool w.now) +
    (if pool.treasury = w.self then max (penaltyOf info w.now amount) (amount - penaltyOf info w.now amount)
      else amount) ≤ w.ledger pool.asset w.self

section Arithmetic
omit [DecidableEq Address]
variable {info : StakerInfo} {now : Nat}

/-- The pending reward can be computed when the share fits; an entry is never negative. -/
private theorem pending_iff {acc pending : Int} (positive : 0 < info.amount) (nonneg : 0 ≤ acc)
    (debt : 0 ≤ info.rewardDebt ∧ info.rewardDebt ≤ acc) :
    calculatePendingReward info.amount info.rewardDebt acc = .ok pending ↔
      pending = pendingOf info acc ∧ info.amount * acc ≤ i128Max := by
  have product : 0 ≤ info.amount * acc := mul_nonneg positive.le nonneg
  have quotient := Int.ediv_nonneg product (by decide : (0 : Int) ≤ fixedPointPrecision)
  have smaller := Int.ediv_le_self fixedPointPrecision product
  have low : i128Min ≤ 0 := by decide
  have symmetric : i128Min = -i128Max - 1 := by decide
  have above : acc ≤ info.amount * acc := le_mul_of_one_le_left nonneg positive
  simp only [calculatePendingReward, not_le.mpr positive, ↓reduceIte, bind_ok, safeMul, safeDiv, panicIf_ok, fit_ok,
    pure_ok, exists_const]
  constructor
  · rintro ⟨_, ⟨rfl, -, fits⟩, _, ⟨-, rfl, -⟩, _, ⟨rfl, -⟩, rfl⟩
    rw [Int.tdiv_eq_ediv_of_nonneg product]
    refine ⟨?_, fits⟩
    unfold pendingOf
    split <;> omega
  · rintro ⟨rfl, fits⟩
    refine ⟨_, ⟨rfl, by omega, fits⟩, _, ⟨by decide, rfl, ?_⟩, _, ⟨rfl, ?_⟩, ?_⟩
    · rw [Int.tdiv_eq_ediv_of_nonneg product]
      omega
    · rw [Int.tdiv_eq_ediv_of_nonneg product]
      omega
    · rw [Int.tdiv_eq_ediv_of_nonneg product]
      unfold pendingOf
      split <;> omega

theorem earlyPenalty_iff {amount penalty : Int} (positive : 0 < amount) :
    earlyPenalty now info amount = .ok penalty ↔ penalty = penaltyOf info now amount ∧
      (Locked info now → amount * penaltyBasisPoints ≤ i128Max) := by
  have low : i128Min ≤ 0 := by decide
  have product : 0 ≤ amount * penaltyBasisPoints := mul_nonneg positive.le (by decide)
  have tenth : (amount * penaltyBasisPoints).tdiv basisPointsDenominator = amount / 10 := by
    rw [Int.tdiv_eq_ediv_of_nonneg product]
    simp only [penaltyBasisPoints, basisPointsDenominator]
    omega
  have rest : (amount * penaltyBasisPoints).tmod basisPointsDenominator = amount % 10 * 1000 := by
    rw [Int.tmod_eq_emod_of_nonneg product]
    simp only [penaltyBasisPoints, basisPointsDenominator]
    omega
  by_cases locked : Locked info now
  · have thousand : amount * penaltyBasisPoints = amount * 1000 := rfl
    have locked' : now < saturatingAdd info.lockStart info.lockDuration := locked
    simp only [earlyPenalty, locked', ↓reduceIte, calculatePenalty, bind_ok, safeMul, fit_ok, penaltyOf, if_pos locked]
    constructor
    · rintro ⟨_, ⟨rfl, -, fits⟩, rounded⟩
      refine ⟨?_, fun _ => fits⟩
      rw [tenth, rest] at rounded
      split at rounded
      · obtain ⟨rfl, -⟩ := fit_ok.mp rounded
        omega
      · have exact' := pure_ok.mp rounded
        omega
    · rintro ⟨rfl, fits⟩
      have fits := fits locked
      refine ⟨_, ⟨rfl, by omega, fits⟩, ?_⟩
      rw [tenth, rest]
      split
      · rw [fit_ok]
        omega
      · rw [pure_ok]
        omega
  · have locked' : ¬ now < saturatingAdd info.lockStart info.lockDuration := locked
    simp only [earlyPenalty, locked', ↓reduceIte, pure_ok, penaltyOf, if_neg locked]
    simp [locked, eq_comm]

end Arithmetic

/-- The transfers of a withdrawal succeed when the balance covers them. -/
private theorem payouts_iff {contract asset treasury recipient : Address} {ledger : Ledger Address} (poolId : Nat)
    {pending amount penalty : Int} (outside : recipient ≠ contract) (nonneg : 0 ≤ pending)
    (slash : 0 ≤ penalty ∧ penalty ≤ amount) :
    (∃ after, payAll contract ledger (rewardPayout poolId asset recipient pending ++
        withdrawalPayouts poolId asset treasury recipient amount penalty) = .ok after) ↔
      pending + (if treasury = contract then max penalty (amount - penalty) else amount) ≤ ledger asset contract := by
  have elsewhere : contract ≠ recipient := outside.symm
  by_cases paying : pending > 0 <;> by_cases slashing : penalty > 0 <;> by_cases back : treasury = contract
  all_goals
    have back' : contract = treasury ↔ treasury = contract := eq_comm
    simp [rewardPayout, withdrawalPayouts, paying, slashing, payAll, bind_ok, transfer_flow, flow, elsewhere,
      back, back']
    try omega

/-- Stakers are outside the contract, and staked totals fit in 128 bits. -/
structure Positions (w : World Address) : Prop where
  outside : ∀ key info, w.stakes.lookup key = some info → key.2 ≠ w.self
  bounded : ∀ poolId pool, w.pools.lookup poolId = some pool → pool.totalStaked ≤ i128Max

private theorem Positions.setPool {w after : World Address} {poolId : Nat} {pool : PoolInfo Address}
    (positions : Positions w) (self : after.self = w.self) (stakes : after.stakes = w.stakes)
    (pools : after.pools = w.pools.insert poolId pool) (bound : pool.totalStaked ≤ i128Max) : Positions after := by
  refine ⟨by rw [stakes, self]; exact positions.outside, ?_⟩
  intro id stored lookup
  rw [pools] at lookup
  rcases lookup_insert_some.mp lookup with ⟨-, rfl⟩ | ⟨-, lookup⟩
  · exact bound
  · exact positions.bounded id stored lookup

private theorem Positions.settled {w after : World Address} {auths : List Address} {poolId : Nat} {sender : Address}
    {planned : PoolInfo Address → Except String (Plan Address)} (positions : Positions w)
    (settling : Settling w auths sender poolId planned after) : Positions after := by
  obtain ⟨-, outside, pool, plan, found, -, carried⟩ := settling
  obtain ⟨_, ledger, -, -, fits, rfl⟩ := carryOut_ok.mp carried
  refine ⟨?_, ?_⟩
  · intro key info lookup
    simp only [World.settled, lookup_apply] at lookup
    split at lookup
    · next same =>
      subst same
      exact outside
    · exact positions.outside key info lookup
  · intro id stored lookup
    rcases lookup_insert_some.mp lookup with ⟨-, rfl⟩ | ⟨-, lookup⟩
    · by_cases still : plan.delta = 0
      · simpa [PoolInfo.settled, still] using positions.bounded poolId pool found
      · exact (fits still).2
    · exact positions.bounded id stored lookup

private theorem positions_step (w : World Address) (event : Event Address) (positions : Positions w) :
    Positions (step w event) := by
  cases event with
  | advance seconds => exact ⟨positions.outside, positions.bounded⟩
  | token activity => exact ⟨positions.outside, positions.bounded⟩
  | call auths call =>
    simp only [step]
    split
    · next after ok =>
      cases who : call.settles with
      | some key => exact positions.settled ((settling_iff who).mp ok)
      | none =>
        cases exec_effect ok with
        | administered => exact ⟨positions.outside, positions.bounded⟩
        | created => exact positions.setPool rfl rfl rfl (show (0 : Int) ≤ i128Max by decide)
        | deactivated pool _ found => exact positions.setPool rfl rfl rfl (positions.bounded _ pool found)
        | refreshed pool _ found => exact positions.setPool rfl rfl rfl (positions.bounded _ pool found)
        | settled some' => simp [who] at some'
    · exact positions

private theorem positions_run (self : Address) (now : Nat) (ledger : Ledger Address) (events : List (Event Address)) :
    Positions (run step (World.deployed self now ledger) events) := by
  apply run_invariant Positions positions_step
  exact ⟨by simp [World.deployed], by simp [World.deployed]⟩

/-- The entry is part of its pool's total. -/
private theorem amount_le_total {w : World Address} (books : Books w) {poolId : Nat} {sender : Address}
    {pool : PoolInfo Address} {info : StakerInfo} (found : w.pools.lookup poolId = some pool)
    (stored : w.stakes.lookup (poolId, sender) = some info) : info.amount ≤ pool.totalStaked := by
  have part : stakeIn poolId (poolId, sender) info ≤ total w.stakes (stakeIn poolId) := by
    apply le_total (stakeIn poolId) stored
    intro key held lookup
    unfold stakeIn
    split
    · exact (books.stakes key held lookup).positive.le
    · exact le_rfl
  rw [(books.pools poolId pool found).staked]
  simpa [stakeIn] using part

private theorem withdraw_iff_withdrawable {w : World Address} (books : Books w) (positions : Positions w)
    {auths : List Address} {sender : Address} {poolId : Nat} {pool : PoolInfo Address} {info : StakerInfo}
    {amount : Int} (found : w.pools.lookup poolId = some pool)
    (stored : w.stakes.lookup (poolId, sender) = some info) (signed : sender ∈ auths) (positive : 0 < amount)
    (within : amount ≤ info.amount) :
    (∃ after, withdraw w auths sender poolId amount = .ok after) ↔ Withdrawable w pool info amount := by
  have outside := positions.outside _ _ stored
  have total := positions.bounded poolId pool found
  have part := amount_le_total books found stored
  obtain ⟨-, rate, nonneg, -, -⟩ := books.pools poolId pool found
  obtain ⟨staked, debtNonneg, -⟩ := books.stakes _ _ stored
  have debt := books.stakes_exist stored found
  have grows := accumulated_nonneg w.now rate nonneg
  have priced : ∀ pending, calculatePendingReward info.amount info.rewardDebt (accumulated pool w.now) = .ok pending ↔
      pending = pendingOf info (accumulated pool w.now) ∧ info.amount * accumulated pool w.now ≤ i128Max :=
    fun _ => pending_iff staked grows.2 ⟨debtNonneg, debt.trans grows.1⟩
  have slash : 0 ≤ penaltyOf info w.now amount ∧ penaltyOf info w.now amount ≤ amount := by
    unfold penaltyOf
    split <;> omega
  have owed : 0 ≤ pendingOf info (accumulated pool w.now) := le_max_left _ _
  have low : i128Min ≤ 0 := by decide
  simp only [withdraw_iff, Settling, planWithdraw, carryOut_ok, bind_ok, panicIf_ok, expect_ok, fit_ok, pure_ok,
    exists_const, stored]
  constructor
  · rintro ⟨_, -, -, _, _, lookup, ⟨-, acc, accrued, _, same, -, pending, calculated, penalty, penalised, _, ⟨rfl, -⟩,
      _, ⟨rfl, -⟩, rfl⟩, _, ledger, taken, moved, -, rfl⟩
    rw [found] at lookup
    cases lookup
    cases same
    obtain ⟨rfl, accrual⟩ := (accrue_iff rate nonneg).mp accrued
    obtain ⟨rfl, share⟩ := (priced pending).mp calculated
    obtain ⟨rfl, early⟩ := (earlyPenalty_iff positive).mp penalised
    obtain rfl := pure_ok.mp taken
    exact ⟨fun earning => (accrual earning).1, share, early,
      (payouts_iff poolId outside owed slash).mp ⟨ledger, moved⟩⟩
  · rintro ⟨accrual, share, early, funds⟩
    have small : accumulated pool w.now ≤ i128Max := (le_mul_of_one_le_left grows.2 staked).trans share
    have accrued := (accrue_iff rate nonneg).mpr ⟨rfl, fun earning => ⟨accrual earning, small⟩⟩
    have calculated := (priced _).mpr ⟨rfl, share⟩
    have penalised : earlyPenalty w.now info amount = .ok (penaltyOf info w.now amount) :=
      (earlyPenalty_iff positive).mpr ⟨rfl, early⟩
    obtain ⟨ledger, moved⟩ := (payouts_iff poolId outside owed slash).mpr funds
    refine ⟨_, signed, outside, pool, _, found, ⟨by omega, _, accrued, info, rfl, by omega, _, calculated, _,
      penalised, _, ⟨rfl, by omega, by omega⟩, _, ⟨rfl, by omega, by omega⟩, rfl⟩, w.ledger, ledger, rfl, moved,
      fun _ => ⟨?_, ?_⟩, rfl⟩
    · simp only
      omega
    · simp only
      omega

/-- At every point of every run a staker gets a part of the stake back exactly
when accrual, reward and penalty fit in 128 bits and the balance covers them. -/
theorem withdrawal_succeeds_iff (self : Address) (now : Nat) (ledger : Ledger Address) (events : List (Event Address))
    (auths : List Address) (sender : Address) (poolId : Nat) (info : StakerInfo) (amount : Int)
    (stored : (run step (World.deployed self now ledger) events).stakes.lookup (poolId, sender) = some info)
    (signed : sender ∈ auths) (positive : 0 < amount) (within : amount ≤ info.amount) :
    ∃ pool, (run step (World.deployed self now ledger) events).pools.lookup poolId = some pool ∧
      ((∃ after, withdraw (run step (World.deployed self now ledger) events) auths sender poolId amount = .ok after) ↔
        Withdrawable (run step (World.deployed self now ledger) events) pool info amount) := by
  have books := books_run self now ledger events
  have positions := positions_run self now ledger events
  obtain ⟨-, -, pool, found, -⟩ := books.stakes _ _ stored
  exact ⟨pool, found, withdraw_iff_withdrawable books positions found stored signed positive within⟩

/-- Five seconds after staking 10000 at a rate of 1000, with 5000 tokens provided for rewards. -/
def fundedRun : List (Event Nat) :=
  [.token (.mint 1 4 10000), .token (.mint 1 0 5000), .call [2] (.initializeAdmin 2), .call [2] (.createPool 2 1 3 1000),
    .call [4] (.stake 4 1 10000 86400), .advance 5]

theorem fundedRun_withdraws :
    (∃ after, withdraw (run step (World.deployed 0 0 fun _ _ => 0) fundedRun) [4] 4 1 10000 = .ok after) ∧
    ∃ pool, (run step (World.deployed 0 0 fun _ _ => 0) fundedRun).pools.lookup 1 = some pool ∧
      ((∃ after, withdraw (run step (World.deployed 0 0 fun _ _ => 0) fundedRun) [4] 4 1 10000 = .ok after) ↔
        Withdrawable (run step (World.deployed 0 0 fun _ _ => 0) fundedRun) pool ⟨10000, 0, 86400, 0⟩ 10000) := by
  refine ⟨?_, ?_⟩
  · have ok : (withdraw (run step (World.deployed 0 0 fun _ _ => 0) fundedRun) [4] 4 1 10000).isOk = true := by
      decide +kernel
    cases result : withdraw (run step (World.deployed 0 0 fun _ _ => 0) fundedRun) [4] 4 1 10000 with
    | ok after => exact ⟨after, rfl⟩
    | error message => simp [result, Except.isOk, Except.toBool] at ok
  · exact withdrawal_succeeds_iff 0 0 _ fundedRun [4] 4 1 ⟨10000, 0, 86400, 0⟩ 10000 (by decide +kernel) (by decide)
      (by decide) (by decide)

/-- Without funds for the reward, the staker of the unfunded run cannot take the principal out. -/
theorem unfunded_principal_is_stuck :
    ¬ ∀ (events : List (Event Nat)) (sender poolId : Nat) (info : StakerInfo) (amount : Int),
      (run step (World.deployed 0 0 fun _ _ => 0) events).stakes.lookup (poolId, sender) = some info →
      0 < amount → amount ≤ info.amount →
      ∃ after, withdraw (run step (World.deployed 0 0 fun _ _ => 0) events) [sender] sender poolId amount = .ok after := by
  intro withdrawable
  have stored : (run step (World.deployed 0 0 fun _ _ => 0) (unfundedRun.take 5)).stakes.lookup (1, 4) =
      some ⟨10000, 0, 86400, 0⟩ := by decide +kernel
  obtain ⟨after, ok⟩ := withdrawable (unfundedRun.take 5) 4 1 _ 10000 stored (by decide) (by decide)
  have fails : (withdraw (run step (World.deployed 0 0 fun _ _ => 0) (unfundedRun.take 5)) [4] 4 1 10000).isOk = false := by
    decide +kernel
  simp [ok, Except.isOk, Except.toBool] at fails

end AfroPay.Staking
