import AfroPay.StakingWithdrawal
import Mathlib.Data.Rat.Floor

/-! What a withdrawal takes and what a further stake does to the lock. The penalty is a tenth
of what is withdrawn before the lock ends, rounded up each time, and the lock only moves
forward; its end is capped where 64 bits end. -/
namespace AfroPay.Staking
open Panics KeyedStore TokenLedger Runs

variable {Address : Type}

/-- When the lock of an entry ends. -/
def StakerInfo.lockEnd (info : StakerInfo) : Nat := saturatingAdd info.lockStart info.lockDuration

/-- What one withdrawal of an amount leaves and pays. -/
structure Withdrawal [DecidableEq Address] (w after : World Address) (poolId : Nat) (owner : Address) (amount : Int)
    (info : StakerInfo) (pool : PoolInfo Address) (penalty : Int) : Prop where
  stored : w.stakes.lookup (poolId, owner) = some info
  found : w.pools.lookup poolId = some pool
  entry : (after.stakes.lookup (poolId, owner)).elim 0 StakerInfo.amount = info.amount - amount
  lock : ∀ left, after.stakes.lookup (poolId, owner) = some left → left.lockEnd = info.lockEnd
  staked : ∃ later, after.pools.lookup poolId = some later ∧ later.totalStaked = pool.totalStaked - amount
  penalty_eq : penalty = if w.now < info.lockEnd then ⌈(amount : ℚ) / 10⌉ else 0
  penalty_range : 0 ≤ penalty ∧ penalty ≤ amount
  -- The net amount goes out last, after the penalty if there is one and the pending reward.
  paid : ∃ rewards : List (Payment Address), (∀ payment ∈ rewards, payment.purpose = .reward) ∧
    after.payments = ⟨poolId, .principal, pool.asset, owner, amount - penalty⟩ ::
      ((if 0 < penalty then [⟨poolId, .penalty, pool.asset, pool.treasury, penalty⟩] else []) ++ rewards ++ w.payments)

/-- Penalties among the recorded payments. -/
def penalties (payments : List (Payment Address)) : Int :=
  (payments.map fun p => if p.purpose = .penalty then p.amount else 0).sum

theorem penalties_append (first second : List (Payment Address)) :
    penalties (first ++ second) = penalties first + penalties second := by
  simp [penalties]

/-- The amount and the penalty of a withdrawal by the owner of an entry before its lock ends. -/
def earlyWithdrawal [DecidableEq Address] (poolId : Nat) (owner : Address) (w : World Address) :
    Event Address → Option (Int × Int)
  | .call auths (.withdraw sender id amount) =>
    match withdraw w auths sender id amount, w.stakes.lookup (poolId, owner) with
    | .ok after, some info =>
      if id = poolId ∧ sender = owner ∧ w.now < info.lockEnd then
        some (amount, penalties after.payments - penalties w.payments)
      else none
    | _, _ => none
  | _ => none

theorem penaltyOf_eq (info : StakerInfo) (now : Nat) (amount : Int) :
    penaltyOf info now amount = if now < info.lockEnd then ⌈(amount : ℚ) / 10⌉ else 0 := by
  have ceil := Rat.ceil_intCast_div_natCast amount 10
  push_cast at ceil
  have tenth : (amount + 9) / 10 = ⌈(amount : ℚ) / 10⌉ := by omega
  rw [penaltyOf, tenth]
  rfl

variable [DecidableEq Address] {w after : World Address} {auths : List Address} {owner : Address} {poolId : Nat}
  {amount : Int}

theorem withdrawal_of_ok (ok : withdraw w auths owner poolId amount = .ok after) :
    ∃ info pool penalty, Withdrawal w after poolId owner amount info pool penalty := by
  obtain ⟨-, -, pool, plan, found, planned, carried⟩ := withdraw_iff.mp ok
  simp only [planWithdraw, bind_ok, panicIf_ok, exists_const, expect_ok, fit_ok, pure_ok] at planned
  obtain ⟨positive, acc, -, info, stored, -, pending, -, penalty, penalised, _, ⟨rfl, -⟩, _, ⟨rfl, -⟩, rfl⟩ := planned
  obtain ⟨-, ledger, -, -, -, rfl⟩ := carryOut_ok.mp carried
  obtain ⟨rfl, -⟩ := (earlyPenalty_iff (not_le.mp positive)).mp penalised
  refine ⟨info, pool, _, stored, found, ?_, ?_, ⟨_, AList.lookup_insert _, sub_eq_add_neg _ _⟩, penaltyOf_eq _ _ _, ?_, ?_⟩
  · rw [World.settled, lookup_apply, if_pos rfl]
    split
    · rename_i none
      exact none.symm
    · rfl
  · rw [World.settled, lookup_apply, if_pos rfl]
    intro left found'
    split at found'
    · cases found'
    · cases found'
      rfl
  · unfold penaltyOf
    split <;> omega
  · refine ⟨rewardPayout poolId pool.asset owner pending, ?_, ?_⟩
    · intro payment member
      unfold rewardPayout at member
      split at member
      · rw [List.mem_singleton.mp member]
      · cases member
    · simp only [World.settled, rewardPayout, withdrawalPayouts, gt_iff_lt]
      split <;> split <;> rfl

/-- The recorded penalty is the one computed, and the amount that left the entry covers it. -/
theorem Withdrawal.slashed {info : StakerInfo} {pool : PoolInfo Address} {penalty : Int}
    (withdrawal : Withdrawal w after poolId owner amount info pool penalty) :
    penalties after.payments - penalties w.payments = penalty := by
  obtain ⟨rewards, rewarding, paid⟩ := withdrawal.paid
  have none : penalties rewards = 0 := by
    refine List.sum_eq_zero fun share member => ?_
    obtain ⟨payment, listed, rfl⟩ := List.mem_map.mp member
    simp [rewarding payment listed]
  have nonneg := withdrawal.penalty_range.1
  rw [paid, ← List.singleton_append, penalties_append, penalties_append, penalties_append, none]
  split
  · simp [penalties]
  · simp [penalties]
    omega

theorem earlyWithdrawal_some {event : Event Address} {entry : Int × Int}
    (early : earlyWithdrawal poolId owner w event = some entry) : entry.2 = ⌈(entry.1 : ℚ) / 10⌉ := by
  unfold earlyWithdrawal at early
  split at early
  · rename_i auths sender id amount
    split at early
    · rename_i after info ok stored
      split at early
      · rename_i due
        obtain ⟨rfl, rfl, locked⟩ := due
        cases early
        obtain ⟨info', pool, penalty, withdrawal⟩ := withdrawal_of_ok ok
        rw [withdrawal.stored] at stored
        cases stored
        simp only
        rw [withdrawal.slashed, withdrawal.penalty_eq, if_pos locked]
      · cases early
    · cases early
  · cases early

/-- Rounding up each part takes at least as much as rounding up the whole. -/
theorem ceil_sum_le (amounts : List Int) :
    ⌈((amounts.sum : Int) : ℚ) / 10⌉ ≤ (amounts.map fun amount : Int => ⌈(amount : ℚ) / 10⌉).sum := by
  induction amounts with
  | nil => simp
  | cons amount rest ih =>
    rw [List.sum_cons, List.map_cons, List.sum_cons, Int.cast_add, add_div]
    exact (Int.ceil_add_le _ _).trans (add_le_add_right ih _)

theorem journal_early (poolId : Nat) (owner : Address) (w : World Address) (events : List (Event Address)) :
    ∀ entry ∈ journal step (earlyWithdrawal poolId owner) w events, entry.2 = ⌈(entry.1 : ℚ) / 10⌉ := by
  induction events generalizing w with
  | nil => simp [journal]
  | cons event rest ih =>
    intro entry member
    rcases List.mem_append.mp member with here | later
    · exact earlyWithdrawal_some (Option.mem_toList.mp here)
    · exact ih (step w event) entry later

/-- A further stake of an entry moves the end of its lock to the later of the old end and the new one. -/
theorem stake_lockEnd {info : StakerInfo} {lockDuration : Nat} (stored : w.stakes.lookup (poolId, owner) = some info)
    (held : 0 < info.amount) (ok : stake w auths owner poolId amount lockDuration = .ok after) :
    ∃ later, after.stakes.lookup (poolId, owner) = some later ∧
      later.lockEnd = max info.lockEnd (saturatingAdd w.now lockDuration) := by
  obtain ⟨-, -, pool, plan, found, planned, carried⟩ := stake_iff.mp ok
  simp only [planStake, stored, Option.getD_some, bind_ok, panicIf_ok, exists_const, fit_ok, pure_ok] at planned
  obtain ⟨-, -, acc, -, -, pending, -, _, ⟨rfl, -⟩, rfl⟩ := planned
  obtain ⟨-, ledger, -, -, -, rfl⟩ := carryOut_ok.mp carried
  refine ⟨_, (lookup_apply _ _ _ _).trans (if_pos rfl), ?_⟩
  rw [if_pos held]
  simp only [StakerInfo.lockEnd, saturatingAdd]
  omega

/-- At every point of every run: a withdrawal takes its amount from the entry and the total and pays
it out with its penalty, early withdrawals of an entry pay at least a tenth of their sum, and a
further stake moves the end of the lock to the later of the old end and the new one. -/
theorem lock_law (self : Address) (now : Nat) (ledger : Ledger Address) (events : List (Event Address)) :
    let w := run step (World.deployed self now ledger) events
    (∀ auths owner poolId amount after, withdraw w auths owner poolId amount = .ok after →
      ∃ info pool penalty, Withdrawal w after poolId owner amount info pool penalty) ∧
    (∀ poolId owner later (picked : List (Int × Int)), picked.Sublist (journal step (earlyWithdrawal poolId owner) w later) →
      ⌈(((picked.map Prod.fst).sum : Int) : ℚ) / 10⌉ ≤ (picked.map Prod.snd).sum) ∧
    ∀ auths owner poolId amount lockDuration info after, w.stakes.lookup (poolId, owner) = some info →
      stake w auths owner poolId amount lockDuration = .ok after →
        ∃ later, after.stakes.lookup (poolId, owner) = some later ∧
          later.lockEnd = max info.lockEnd (saturatingAdd w.now lockDuration) := by
  intro w
  refine ⟨fun _ _ _ _ _ ok => withdrawal_of_ok ok, ?_, ?_⟩
  · intro poolId owner later picked sublist
    have rounded : picked.map Prod.snd = (picked.map Prod.fst).map fun amount : Int => ⌈(amount : ℚ) / 10⌉ := by
      rw [List.map_map]
      exact List.map_congr_left fun entry member => journal_early poolId owner w later entry (sublist.subset member)
    rw [rounded]
    exact ceil_sum_le _
  · intro auths owner poolId amount lockDuration info after stored ok
    exact stake_lockEnd stored ((books_run self now ledger events).stakes _ _ stored).positive ok

/-- Two days before 64 bits of seconds end, a stake for one day; another one half a day before the end. -/
def lastDays : List (Event Nat) :=
  [.token (.mint 1 4 100), .call [2] (.initializeAdmin 2), .call [2] (.createPool 2 1 3 0),
    .call [4] (.stake 4 1 50 86400), .advance 129600]

/-- The second lock ends before its day is over. -/
theorem lock_cut_short : ∃ info later,
    (run step (World.deployed 0 (2 ^ 64 - 1 - 172800) fun _ _ => 0) lastDays).stakes.lookup (1, 4) = some info ∧
      (step (run step (World.deployed 0 (2 ^ 64 - 1 - 172800) fun _ _ => 0) lastDays)
        (.call [4] (.stake 4 1 50 86400))).stakes.lookup (1, 4) = some later ∧
      later.amount = 100 ∧
      ¬ max info.lockEnd ((run step (World.deployed 0 (2 ^ 64 - 1 - 172800) fun _ _ => 0) lastDays).now + 86400) ≤
        later.lockEnd := by
  refine ⟨⟨50, 2 ^ 64 - 1 - 172800, 86400, 0⟩, ⟨100, 2 ^ 64 - 1 - 43200, 86400, 0⟩, by decide +kernel, by decide +kernel,
    rfl, by decide +kernel⟩

end AfroPay.Staking
