import AfroPay.StakingEffects

/-! The books of the staking contract: every pool's staked total is the sum of
its stake entries, entries are positive and belong to existing pools, and no
snapshot runs ahead of its pool's accumulator. These hold after every run. -/
namespace AfroPay.Staking
open Panics KeyedStore TokenLedger Runs

variable {Address : Type} [DecidableEq Address]

/-- What one stake entry counts toward the total of a pool. -/
def stakeIn (poolId : Nat) (key : Nat × Address) (info : StakerInfo) : Int :=
  if key.1 = poolId then info.amount else 0

/-- The books of one pool agree with the stake entries and the clock. -/
structure PoolBooks (w : World Address) (poolId : Nat) (pool : PoolInfo Address) : Prop where
  issued : poolId ≤ w.poolCounter
  rate : 0 ≤ pool.rewardRate
  accumulated : 0 ≤ pool.accRewardPerShare
  updated : pool.createdAt ≤ w.now
  staked : pool.totalStaked = total w.stakes (stakeIn poolId)

/-- A stake entry is positive and its snapshot lies within its pool's history. -/
structure StakeBooks (w : World Address) (key : Nat × Address) (info : StakerInfo) : Prop where
  positive : 0 < info.amount
  debtNonneg : 0 ≤ info.rewardDebt
  known : ∃ pool, w.pools.lookup key.1 = some pool ∧ info.rewardDebt ≤ pool.accRewardPerShare

/-- The contract's storage is consistent. -/
structure Books (w : World Address) : Prop where
  pools : ∀ poolId pool, w.pools.lookup poolId = some pool → PoolBooks w poolId pool
  stakes : ∀ key info, w.stakes.lookup key = some info → StakeBooks w key info

theorem Books.stakes_exist {w : World Address} (books : Books w)
    (held : w.stakes.lookup key = some info) (found : w.pools.lookup key.1 = some pool) :
    info.rewardDebt ≤ pool.accRewardPerShare := by
  obtain ⟨known, lookup, bound⟩ := (books.stakes key info held).known
  rw [found] at lookup
  cases lookup
  exact bound

theorem books_deployed (self : Address) (now : Nat) (ledger : Ledger Address) :
    Books (World.deployed self now ledger) := by
  constructor <;> intro _ _ lookup <;> simp [World.deployed] at lookup

/-- The books do not depend on the token ledgers or the administrator, and time
only moves on. -/
theorem Books.frame {w after : World Address} (books : Books w) (pools : after.pools = w.pools)
    (stakes : after.stakes = w.stakes) (counter : after.poolCounter = w.poolCounter)
    (later : w.now ≤ after.now) : Books after := by
  constructor
  · intro id pool lookup
    rw [pools] at lookup
    obtain ⟨issued, rate, accumulated, updated, staked⟩ := books.pools id pool lookup
    exact ⟨counter ▸ issued, rate, accumulated, updated.trans later, stakes ▸ staked⟩
  · intro key info held
    rw [stakes] at held
    obtain ⟨positive, nonneg, known⟩ := books.stakes key info held
    exact ⟨positive, nonneg, pools ▸ known⟩

/-- The id the next pool gets is free. -/
theorem Books.unused {w : World Address} (books : Books w) :
    w.pools.lookup (w.poolCounter + 1) = none := by
  cases lookup : w.pools.lookup (w.poolCounter + 1) with
  | none => rfl
  | some pool =>
    have issued := (books.pools _ pool lookup).issued
    omega

/-- A pool that does not exist yet has no stake entries. -/
theorem Books.unissued {w : World Address} (books : Books w) (fresh : w.poolCounter < poolId) :
    total w.stakes (stakeIn poolId) = 0 := by
  have none_here : ∀ key info, w.stakes.lookup key = some info → stakeIn poolId key info = 0 := by
    intro key info held
    obtain ⟨pool, lookup, -⟩ := (books.stakes key info held).known
    have issued := (books.pools key.1 pool lookup).issued
    simp only [stakeIn, ite_eq_right_iff]
    omega
  calc total w.stakes (stakeIn poolId) = total w.stakes (fun _ _ => 0) := total_congr none_here
    _ = 0 := by simp [total]

/-- Overwriting a pool with the same staked total and a later accumulator keeps
the books. -/
theorem Books.setPool {w : World Address} (books : Books w) {before : PoolInfo Address}
    (found : w.pools.lookup poolId = some before) (rate : 0 ≤ pool.rewardRate)
    (later : before.accRewardPerShare ≤ pool.accRewardPerShare) (updated : pool.createdAt ≤ w.now)
    (staked : pool.totalStaked = before.totalStaked) : Books (w.setPool poolId pool) := by
  have old := books.pools poolId before found
  constructor
  · intro id stored lookup
    obtain ⟨rfl, rfl⟩ | ⟨-, kept⟩ := lookup_insert_some.mp lookup
    · exact ⟨old.issued, rate, old.accumulated.trans later, updated, staked.trans old.staked⟩
    · obtain ⟨issued, rate, accumulated, updated, staked⟩ := books.pools id stored kept
      exact ⟨issued, rate, accumulated, updated, staked⟩
  · intro key info held
    obtain ⟨positive, nonneg, known, lookup, bound⟩ := books.stakes key info held
    refine ⟨positive, nonneg, ?_⟩
    by_cases same : key.1 = poolId
    · rw [same, found] at lookup
      cases lookup
      exact ⟨pool, by rw [same, setPool_lookup], bound.trans later⟩
    · exact ⟨known, by rw [World.setPool, AList.lookup_insert_ne same]; exact lookup, bound⟩

theorem Books.created {w : World Address} (books : Books w) (rate : 0 ≤ rewardRate) :
    Books ({ w with poolCounter := w.poolCounter + 1 }.setPool (w.poolCounter + 1)
      ⟨asset, treasury, rewardRate, 0, 0, w.now, true⟩) := by
  constructor
  · intro id stored lookup
    obtain ⟨rfl, rfl⟩ | ⟨-, kept⟩ := lookup_insert_some.mp lookup
    · exact ⟨le_rfl, rate, le_rfl, le_rfl, (books.unissued (Nat.lt_succ_self _)).symm⟩
    · obtain ⟨issued, rate, accumulated, updated, staked⟩ := books.pools id stored kept
      exact ⟨issued.trans (Nat.le_succ _), rate, accumulated, updated, staked⟩
  · intro key info held
    obtain ⟨positive, nonneg, known, lookup, bound⟩ := books.stakes key info held
    have issued := (books.pools key.1 known lookup).issued
    have distinct : key.1 ≠ w.poolCounter + 1 := by omega
    exact ⟨positive, nonneg, known, by rw [World.setPool, AList.lookup_insert_ne distinct]; exact lookup, bound⟩

/-- The staked total of a pool follows the one entry a settlement replaces. -/
theorem Settles.staked {w after : World Address}
    (settles : Settles w after poolId sender pool acc pending delta entry) (id : Nat) :
    total after.stakes (stakeIn id) = total w.stakes (stakeIn id) + if id = poolId then delta else 0 := by
  rw [settles.stakes.totals (stakeIn id)]
  have amounts := settles.amounts
  by_cases same : id = poolId
  · subst same
    cases entry <;> cases prior : w.stakes.lookup (id, sender) <;>
      simp_all [contribution, stakeIn] <;> omega
  · have elsewhere : ¬ poolId = id := fun h => same h.symm
    cases entry <;> cases prior : w.stakes.lookup (poolId, sender) <;>
      simp [contribution, stakeIn, prior, same, elsewhere]

theorem Books.settled {w after : World Address} (books : Books w)
    (settles : Settles w after poolId sender pool acc pending delta entry) : Books after := by
  have old := books.pools poolId pool settles.found
  have later := (accrue_bounds old.rate settles.accrued).1
  have here : after.pools.lookup poolId = some { pool with
      accRewardPerShare := acc, createdAt := w.now, totalStaked := pool.totalStaked + delta } := by
    rw [settles.pools_eq, AList.lookup_insert]
  have elsewhere : ∀ id, id ≠ poolId → after.pools.lookup id = w.pools.lookup id := by
    intro id distinct
    rw [settles.pools_eq, AList.lookup_insert_ne distinct]
  constructor
  · intro id stored lookup
    by_cases same : id = poolId
    · subst same
      rw [here] at lookup
      cases lookup
      refine ⟨settles.counter_eq ▸ old.issued, old.rate, old.accumulated.trans later,
        settles.now_eq.ge, ?_⟩
      rw [settles.staked, ← old.staked, if_pos rfl]
    · rw [elsewhere id same] at lookup
      obtain ⟨issued, rate, accumulated, updated, staked⟩ := books.pools id stored lookup
      refine ⟨settles.counter_eq ▸ issued, rate, accumulated, settles.now_eq ▸ updated, ?_⟩
      rw [settles.staked, if_neg same, add_zero, staked]
  · intro key info held
    by_cases mine : key = (poolId, sender)
    · subst mine
      rw [settles.stakes.here] at held
      refine ⟨settles.positive info held fun prior stored => (books.stakes _ prior stored).positive, ?_, ?_⟩
      · rcases settles.debt info held with fresh | ⟨-, -, prior, stored, kept⟩
        · rw [fresh]
          exact old.accumulated.trans later
        · rw [kept]
          exact (books.stakes _ prior stored).debtNonneg
      · refine ⟨_, here, ?_⟩
        rcases settles.debt info held with fresh | ⟨-, -, prior, stored, kept⟩
        · exact fresh.le
        · rw [kept]
          exact (books.stakes_exist stored settles.found).trans later
    · rw [settles.stakes.elsewhere key mine] at held
      obtain ⟨positive, nonneg, known, lookup, bound⟩ := books.stakes key info held
      refine ⟨positive, nonneg, ?_⟩
      by_cases same : key.1 = poolId
      · rw [same, settles.found] at lookup
        cases lookup
        exact ⟨_, same ▸ here, bound.trans later⟩
      · exact ⟨known, (elsewhere _ same).trans lookup, bound⟩

/-- One call keeps the books. -/
theorem Books.effect {w after : World Address} {call : Call Address} (books : Books w)
    (effect : Effect w call after) : Books after := by
  cases effect with
  | administered => exact books.frame rfl rfl rfl le_rfl
  | created _ rate => exact books.created rate
  | deactivated pool _ found =>
    have old := books.pools _ pool found
    exact books.setPool found old.rate le_rfl old.updated rfl
  | refreshed pool _ found accrued rate =>
    have old := books.pools _ pool found
    refine books.setPool found ?_ (accrue_bounds old.rate accrued).1 le_rfl rfl
    rcases rate with same | nonneg
    · exact same ▸ old.rate
    · exact nonneg
  | settled _ settles => exact books.settled settles

/-- One event keeps the books; a rejected call changes nothing. -/
theorem books_step {w : World Address} (books : Books w) (event : Event Address) :
    Books (step w event) := by
  cases event with
  | call auths call =>
    simp only [step]
    split
    · rename_i after ok
      exact books.effect (exec_effect ok)
    · exact books
  | advance seconds => exact books.frame rfl rfl rfl (Nat.le_add_right _ _)
  | token activity => exact books.frame rfl rfl rfl le_rfl

/-- The books hold in every reachable world. -/
theorem books_run (self : Address) (now : Nat) (ledger : Ledger Address) (events : List (Event Address)) :
    Books (run step (World.deployed self now ledger) events) :=
  run_invariant Books (fun _ event books => books_step books event) (books_deployed self now ledger) events

/-- The pool is still there, and its accumulator is no lower. -/
def Accumulates (poolId : Nat) (floor : Int) (w : World Address) : Prop :=
  ∃ pool, w.pools.lookup poolId = some pool ∧ floor ≤ pool.accRewardPerShare

omit [DecidableEq Address] in
/-- Overwriting one pool with a later accumulator lowers none. -/
private theorem Accumulates.insert {w after : World Address} {id : Nat} {before pool : PoolInfo Address}
    (accumulates : Accumulates poolId floor w) (found : w.pools.lookup id = some before)
    (pools : after.pools = w.pools.insert id pool) (later : before.accRewardPerShare ≤ pool.accRewardPerShare) :
    Accumulates poolId floor after := by
  obtain ⟨held, lookup, bound⟩ := accumulates
  unfold Accumulates
  rw [pools]
  by_cases same : poolId = id
  · subst same
    rw [found] at lookup
    cases lookup
    exact ⟨pool, AList.lookup_insert _, bound.trans later⟩
  · exact ⟨held, by rwa [AList.lookup_insert_ne same], bound⟩

theorem Accumulates.effect {w after : World Address} {call : Call Address} (books : Books w)
    (accumulates : Accumulates poolId floor w) (effect : Effect w call after) :
    Accumulates poolId floor after := by
  cases effect with
  | administered => exact accumulates
  | created _ rate =>
    obtain ⟨held, lookup, bound⟩ := accumulates
    have issued := (books.pools poolId held lookup).issued
    have older : poolId ≠ w.poolCounter + 1 := by omega
    exact ⟨held, by rw [World.setPool, AList.lookup_insert_ne older]; exact lookup, bound⟩
  | deactivated pool _ found => exact accumulates.insert found rfl le_rfl
  | refreshed pool _ found accrued rate =>
    have old := books.pools _ pool found
    exact accumulates.insert found rfl (accrue_bounds old.rate accrued).1
  | settled _ settles =>
    have old := books.pools _ _ settles.found
    exact accumulates.insert settles.found settles.pools_eq (accrue_bounds old.rate settles.accrued).1

theorem accumulates_step {w : World Address} (books : Books w) (accumulates : Accumulates poolId floor w)
    (event : Event Address) : Accumulates poolId floor (step w event) := by
  cases event with
  | call auths call =>
    simp only [step]
    split
    · rename_i after ok
      exact accumulates.effect books (exec_effect ok)
    · exact accumulates
  | advance seconds => exact accumulates
  | token activity => exact accumulates

/-- In every reachable world the staked totals are the sums of the stake
entries, entries are positive, totals and rates are not negative, and no
accumulator was ever higher before. -/
theorem staking_books (self : Address) (now : Nat) (ledger : Ledger Address) (events : List (Event Address)) :
    let start := World.deployed self now ledger
    let w := run step start events
    (∀ poolId pool, w.pools.lookup poolId = some pool →
      pool.totalStaked = total w.stakes (stakeIn poolId) ∧ 0 ≤ pool.totalStaked ∧ 0 ≤ pool.rewardRate) ∧
    (∀ key info, w.stakes.lookup key = some info → 0 < info.amount) ∧
    ∀ before later : List (Event Address), events = before ++ later → ∀ poolId pool,
      (run step start before).pools.lookup poolId = some pool →
        Accumulates poolId pool.accRewardPerShare w := by
  intro start w
  have books : Books w := books_run self now ledger events
  refine ⟨?_, fun key info held => (books.stakes key info held).positive, ?_⟩
  · intro poolId pool found
    have old := books.pools poolId pool found
    refine ⟨old.staked, ?_, old.rate⟩
    rw [old.staked]
    apply total_nonneg
    intro key info held
    unfold stakeIn
    split
    · exact (books.stakes key info held).positive.le
    · exact le_rfl
  · intro before later split poolId pool found
    have initial : Books (run step start before) ∧ Accumulates poolId pool.accRewardPerShare (run step start before) :=
      ⟨books_run self now ledger before, pool, found, le_rfl⟩
    have final := run_invariant
      (fun world : World Address => Books world ∧ Accumulates poolId pool.accRewardPerShare world)
      (fun _ event kept => ⟨books_step kept.1 event, accumulates_step kept.1 kept.2 event⟩) initial later
    rw [← run_append, ← split] at final
    exact final.2

end AfroPay.Staking
