import AfroPay.StakingBookkeeping
import Mathlib.Data.Rat.Cast.Order
import Mathlib.Tactic.FieldSimp

/-! The reward law of the staking contract. A settlement owes the staker the
accumulator's rise since the previous settlement, scaled by the stake. The code
subtracts the stored snapshot without scaling it, so the law holds exactly as
far as scaling the snapshot would change nothing. -/
namespace AfroPay.Staking
open Panics KeyedStore TokenLedger Runs

variable {Address : Type} [DecidableEq Address]

/-- Where and when a staker was last settled. -/
structure Mark where
  acc : Int
  time : Nat
  deriving DecidableEq

/-- A world with what an observer remembers of its run: each staker's last
settlement, and what each pool has emitted while something was staked in it. -/
structure Tracked (Address : Type) where
  world : World Address
  marks : Store (Nat × Address) Mark
  emitted : Nat → Int

def Tracked.deployed (self : Address) (now : Nat) (ledger : Ledger Address) : Tracked Address :=
  ⟨World.deployed self now ledger, ∅, fun _ => 0⟩

/-- The pool's accumulator, zero before it exists. -/
def accumulator (w : World Address) (poolId : Nat) : Int :=
  (w.pools.lookup poolId).elim 0 PoolInfo.accRewardPerShare

/-- What the pool emits over the coming seconds. -/
def emits (w : World Address) (seconds poolId : Nat) : Int :=
  (w.pools.lookup poolId).elim 0 fun pool => emission pool seconds

/-- The marks after a call that left the world as `after`. -/
def marked (marks : Store (Nat × Address) Mark) (after : World Address) :
    Option (Nat × Address) → Store (Nat × Address) Mark
  | some key => marks.insert key ⟨accumulator after key.1, after.now⟩
  | none => marks

/-- One event of the contract, observed. -/
def track (t : Tracked Address) : Event Address → Tracked Address
  | .call auths call =>
    match exec t.world auths call with
    | .ok after => ⟨after, marked t.marks after call.settles, t.emitted⟩
    | .error _ => t
  | .advance seconds =>
    ⟨step t.world (.advance seconds), t.marks, fun id => t.emitted id + emits t.world seconds id⟩
  | .token activity => ⟨step t.world (.token activity), t.marks, t.emitted⟩

/-- Observing a run does not change it. -/
theorem track_world (t : Tracked Address) (event : Event Address) :
    (track t event).world = step t.world event := by
  cases event with
  | call auths call =>
    simp only [track, step]
    cases exec t.world auths call <;> rfl
  | advance seconds => rfl
  | token activity => rfl

/-- The law for one settlement: a non-negative payment within one unit of the
accumulator's rise times the stake, and nothing for a claim at a time at which
the staker was settled already. -/
structure FairlySettled (t : Tracked Address) (after : World Address) (call : Call Address)
    (key : Nat × Address) : Prop where
  nonneg : 0 ≤ poolRewards after.payments key.1 - poolRewards t.world.payments key.1
  fair : |((poolRewards after.payments key.1 - poolRewards t.world.payments key.1 : Int) : ℚ) -
      ((t.world.stakes.lookup key).elim 0 StakerInfo.amount : Int) *
        ((accumulator after key.1 : Int) - ((t.marks.lookup key).elim 0 Mark.acc : Int)) /
          (fixedPointPrecision : Int)| ≤ 1
  once : call = .claimRewards key.2 key.1 →
    (t.marks.lookup key).map Mark.time = some t.world.now →
    poolRewards after.payments key.1 - poolRewards t.world.payments key.1 = 0

/-- If the event is a successful settling call, it settles fairly. -/
def Fair (t : Tracked Address) : Event Address → Prop
  | .call auths call => ∀ after key, exec t.world auths call = .ok after → call.settles = some key →
    FairlySettled t after call key
  | _ => True

/-- The reward law of a run: every settlement is fair, and no pool has paid more
than it emitted. -/
def RewardLaw (start : Tracked Address) (events : List (Event Address)) : Prop :=
  Throughout track Fair start events ∧
    ∀ poolId, poolRewards (run track start events).world.payments poolId ≤
      (run track start events).emitted poolId

/-- Scaling the snapshot the way the accumulator is scaled would not change it. -/
def DebtScaled (info : StakerInfo) : Prop :=
  info.rewardDebt = 0 ∨ info.amount = fixedPointPrecision

/-- The staker whom the event would settle holds no entry, or one whose snapshot
is already at its own scale. -/
def SettlesScaled (t : Tracked Address) : Event Address → Prop
  | .call _ call => ∀ key ∈ call.settles, ∀ info ∈ t.world.stakes.lookup key, DebtScaled info
  | _ => True

instance (info : StakerInfo) : Decidable (DebtScaled info) :=
  inferInstanceAs (Decidable (info.rewardDebt = 0 ∨ info.amount = fixedPointPrecision))

instance (t : Tracked Address) : ∀ event, Decidable (SettlesScaled t event)
  | .call _ call => inferInstanceAs
      (Decidable (∀ key ∈ call.settles, ∀ info ∈ t.world.stakes.lookup key, DebtScaled info))
  | .advance _ => isTrue trivial
  | .token _ => isTrue trivial

theorem precision_pos : 0 < fixedPointPrecision := by decide

/-- Two quotients rounded down differ by less than one unit from the exact difference. -/
private theorem rounded_difference (x y : Int) :
    |((x / fixedPointPrecision - y / fixedPointPrecision : Int) : ℚ) -
      ((x : ℚ) - (y : ℚ)) / (fixedPointPrecision : Int)| ≤ 1 := by
  have positive : (0 : ℚ) < (fixedPointPrecision : Int) := by exact_mod_cast precision_pos
  have split : ((x / fixedPointPrecision - y / fixedPointPrecision : Int) : ℚ) -
      ((x : ℚ) - (y : ℚ)) / (fixedPointPrecision : Int) =
        ((y % fixedPointPrecision - x % fixedPointPrecision : Int) : ℚ) / (fixedPointPrecision : Int) := by
    rw [Int.emod_def, Int.emod_def]
    push_cast
    field_simp
    ring
  have xRest := Int.emod_nonneg x precision_pos.ne'
  have xBelow := Int.emod_lt_of_pos x precision_pos
  have yRest := Int.emod_nonneg y precision_pos.ne'
  have yBelow := Int.emod_lt_of_pos y precision_pos
  rw [split, abs_le, le_div_iff₀ positive, div_le_iff₀ positive]
  constructor
  · have lower : -fixedPointPrecision ≤ y % fixedPointPrecision - x % fixedPointPrecision := by omega
    have lifted : ((-fixedPointPrecision : Int) : ℚ) ≤
        ((y % fixedPointPrecision - x % fixedPointPrecision : Int) : ℚ) := by exact_mod_cast lower
    simpa using lifted
  · have upper : y % fixedPointPrecision - x % fixedPointPrecision ≤ fixedPointPrecision := by omega
    have lifted : ((y % fixedPointPrecision - x % fixedPointPrecision : Int) : ℚ) ≤
        (fixedPointPrecision : Int) := by exact_mod_cast upper
    simpa using lifted

private theorem DebtScaled.product {info : StakerInfo} (scaled : DebtScaled info) :
    info.amount * info.rewardDebt = fixedPointPrecision * info.rewardDebt := by
  rcases scaled with none | unit
  · simp [none]
  · rw [unit]

private theorem DebtScaled.quotient {info : StakerInfo} (scaled : DebtScaled info) :
    info.amount * info.rewardDebt / fixedPointPrecision = info.rewardDebt := by
  rw [scaled.product, Int.mul_ediv_cancel_left _ precision_pos.ne']

private theorem scaled_mono {amount low high : Int} (positive : 0 ≤ amount) (le : low ≤ high) :
    amount * low / fixedPointPrecision ≤ amount * high / fixedPointPrecision :=
  Int.ediv_le_ediv precision_pos (mul_le_mul_of_nonneg_left le positive)

/-- A snapshot at its own scale stands for the accumulator at the last settlement. -/
def Snapshot (info : StakerInfo) (acc : Int) : Prop :=
  info.rewardDebt ≤ acc ∧
    (info.rewardDebt = acc ∨ info.amount * acc / fixedPointPrecision ≤ info.rewardDebt)

/-- With a scaled snapshot the code pays the difference of two scaled accumulators. -/
theorem pending_of_scaled {info : StakerInfo} {last acc pending : Int} (positive : 0 < info.amount)
    (nonneg : 0 ≤ acc) (later : last ≤ acc) (snapshot : Snapshot info last) (scaled : DebtScaled info)
    (pays : calculatePendingReward info.amount info.rewardDebt acc = .ok pending) :
    pending = info.amount * acc / fixedPointPrecision - info.amount * last / fixedPointPrecision := by
  have debt : info.amount * last / fixedPointPrecision = info.rewardDebt := by
    obtain ⟨bound, same | covered⟩ := snapshot
    · rw [← same]
      exact scaled.quotient
    · refine le_antisymm covered ?_
      calc info.rewardDebt = info.amount * info.rewardDebt / fixedPointPrecision := scaled.quotient.symm
        _ ≤ info.amount * last / fixedPointPrecision := scaled_mono positive.le bound
  have rises := scaled_mono positive.le later
  rw [calculatePendingReward_ok positive nonneg pays]
  omega

/-- With a scaled snapshot the payment is covered by the stake's share of the rise. -/
theorem pending_covered {info : StakerInfo} {acc pending : Int} (positive : 0 < info.amount)
    (bound : info.rewardDebt ≤ acc) (nonneg : 0 ≤ acc) (scaled : DebtScaled info)
    (pays : calculatePendingReward info.amount info.rewardDebt acc = .ok pending) :
    fixedPointPrecision * pending ≤ info.amount * (acc - info.rewardDebt) := by
  have rises := scaled_mono positive.le bound
  rw [scaled.quotient] at rises
  have rounded := @Int.mul_ediv_self_le (info.amount * acc) _ precision_pos.ne'
  have exact := scaled.product
  rw [calculatePendingReward_ok positive nonneg pays, max_eq_right (by omega)]
  linarith [mul_sub fixedPointPrecision (info.amount * acc / fixedPointPrecision) info.rewardDebt,
    mul_sub info.amount acc info.rewardDebt]

/-- A mark lies in the past of its pool; a mark of this very second still shows
the pool's accumulator. -/
structure MarkBooks (w : World Address) (key : Nat × Address) (mark : Mark) : Prop where
  past : mark.time ≤ w.now
  known : ∃ pool, w.pools.lookup key.1 = some pool ∧ mark.acc ≤ pool.accRewardPerShare ∧
    (mark.time = w.now → w.now ≤ pool.createdAt ∧ mark.acc = pool.accRewardPerShare)

/-- Every mark is in order, and every stake entry has one its snapshot stands for. -/
structure Marked (t : Tracked Address) : Prop where
  marks : ∀ key mark, t.marks.lookup key = some mark → MarkBooks t.world key mark
  stakes : ∀ key info, t.world.stakes.lookup key = some info →
    ∃ mark, t.marks.lookup key = some mark ∧ Snapshot info mark.acc

omit [DecidableEq Address] in
/-- Replacing a pool keeps a mark in order when the accumulator only rises, and
does not rise twice within a second. -/
theorem MarkBooks.insert {w after : World Address} {before pool : PoolInfo Address}
    (books : MarkBooks w key mark) (found : w.pools.lookup poolId = some before)
    (pools : after.pools = w.pools.insert poolId pool) (time : after.now = w.now)
    (rises : before.accRewardPerShare ≤ pool.accRewardPerShare)
    (settled : w.now ≤ before.createdAt →
      w.now ≤ pool.createdAt ∧ before.accRewardPerShare = pool.accRewardPerShare) :
    MarkBooks after key mark := by
  obtain ⟨past, known, lookup, bound, fresh⟩ := books
  refine ⟨time ▸ past, ?_⟩
  rw [pools, time]
  by_cases same : key.1 = poolId
  · rw [same, found] at lookup
    cases lookup
    refine ⟨pool, by rw [same, AList.lookup_insert], bound.trans rises, ?_⟩
    intro now
    obtain ⟨updated, level⟩ := fresh now
    obtain ⟨stays, kept⟩ := settled updated
    exact ⟨stays, level.trans kept⟩
  · exact ⟨known, by rw [AList.lookup_insert_ne same, lookup], bound, fresh⟩

theorem Marked.frame {t : Tracked Address} (books : Marked t) (after : World Address)
    (emitted : Nat → Int) (pools : after.pools = t.world.pools)
    (stakes : after.stakes = t.world.stakes) (later : t.world.now ≤ after.now) :
    Marked ⟨after, t.marks, emitted⟩ := by
  refine ⟨?_, by simpa [stakes] using books.stakes⟩
  intro key mark lookup
  obtain ⟨past, known, found, bound, fresh⟩ := books.marks key mark lookup
  refine ⟨past.trans later, known, pools ▸ found, bound, ?_⟩
  intro (now : mark.time = after.now)
  have same : mark.time = t.world.now := by omega
  exact now ▸ same ▸ fresh same

theorem Marked.created {t : Tracked Address} (books : Books t.world) (marked : Marked t)
    (pool : PoolInfo Address) :
    Marked ⟨{ t.world with poolCounter := t.world.poolCounter + 1 }.setPool (t.world.poolCounter + 1) pool,
      t.marks, t.emitted⟩ := by
  refine ⟨?_, marked.stakes⟩
  intro key mark lookup
  obtain ⟨past, known, found, bound, fresh⟩ := marked.marks key mark lookup
  have issued := (books.pools key.1 known found).issued
  have distinct : key.1 ≠ t.world.poolCounter + 1 := by omega
  exact ⟨past, known, (AList.lookup_insert_ne distinct).trans found, bound, fresh⟩

omit [DecidableEq Address] in
private theorem accrue_settled {pool : PoolInfo Address} {now : Nat} {acc : Int}
    (accrued : accrue pool now = .ok acc) (same : now ≤ pool.createdAt) :
    now ≤ now ∧ pool.accRewardPerShare = acc := ⟨le_rfl, (accrue_same_time accrued same).symm⟩

/-- The snapshot a settlement leaves stands for the accumulator it settled at. -/
theorem Settles.snapshot {w after : World Address} (books : Books w)
    (settles : Settles w after poolId sender pool acc pending delta (some info)) :
    Snapshot info acc := by
  have old := books.pools poolId pool settles.found
  have later := (accrue_bounds old.rate settles.accrued).1
  rcases settles.debt info rfl with fresh | ⟨unpaid, shrinks, prior, stored, kept⟩
  · exact ⟨fresh.le, .inl fresh⟩
  · have positive := (books.stakes _ prior stored).positive
    have bound := (books.stakes_exist stored settles.found).trans later
    have pays := calculatePendingReward_ok positive (old.accumulated.trans later)
      (settles.pays prior stored)
    have smaller : info.amount ≤ prior.amount := by
      have amounts := settles.amounts
      simp only [stored, Option.elim_some] at amounts
      omega
    refine ⟨kept ▸ bound, .inr ?_⟩
    calc info.amount * acc / fixedPointPrecision
        ≤ prior.amount * acc / fixedPointPrecision := Int.ediv_le_ediv precision_pos
          (mul_le_mul_of_nonneg_right smaller (old.accumulated.trans later))
      _ ≤ info.rewardDebt := by rw [kept]; omega

theorem Marked.settled {t : Tracked Address} {after : World Address} (books : Books t.world)
    (marked : Marked t)
    (settles : Settles t.world after poolId sender pool acc pending delta entry) :
    Marked ⟨after, t.marks.insert (poolId, sender) ⟨acc, after.now⟩, t.emitted⟩ := by
  have old := books.pools poolId pool settles.found
  have later := (accrue_bounds old.rate settles.accrued).1
  have here : after.pools.lookup poolId = some { pool with
      accRewardPerShare := acc, createdAt := t.world.now, totalStaked := pool.totalStaked + delta } := by
    rw [settles.pools_eq, AList.lookup_insert]
  constructor
  · intro key mark lookup
    obtain ⟨rfl, rfl⟩ | ⟨-, kept⟩ := lookup_insert_some.mp lookup
    · exact ⟨le_rfl, _, here, le_rfl, fun _ => ⟨settles.now_eq.le, rfl⟩⟩
    · exact (marked.marks key mark kept).insert settles.found settles.pools_eq settles.now_eq later
        (accrue_settled settles.accrued)
  · intro key info held
    by_cases mine : key = (poolId, sender)
    · subst mine
      have stored : entry = some info := settles.stakes.here.symm.trans held
      subst stored
      exact ⟨_, AList.lookup_insert _, settles.snapshot books⟩
    · have kept := settles.stakes.elsewhere key mine
      obtain ⟨mark, lookup, snapshot⟩ := marked.stakes key info (kept.symm.trans held)
      exact ⟨mark, (AList.lookup_insert_ne mine).trans lookup, snapshot⟩

theorem Settles.accumulator_eq {w after : World Address}
    (settles : Settles w after poolId sender pool acc pending delta entry) :
    accumulator after poolId = acc := by
  simp [accumulator, settles.pools_eq]

theorem Marked.effect {t : Tracked Address} {after : World Address} {call : Call Address}
    (books : Books t.world) (tracked : Marked t) (effect : Effect t.world call after) :
    Marked ⟨after, marked t.marks after call.settles, t.emitted⟩ := by
  cases effect with
  | administered idle =>
    rw [idle]
    exact tracked.frame { t.world with admin := _, storageVersion := _ } _ rfl rfl le_rfl
  | created idle rate =>
    rw [idle]
    exact tracked.created books _
  | deactivated pool idle found =>
    rw [idle]
    refine ⟨?_, tracked.stakes⟩
    intro key mark lookup
    exact (tracked.marks key mark lookup).insert found rfl rfl le_rfl fun updated => ⟨updated, rfl⟩
  | refreshed pool idle found accrued rate =>
    rw [idle]
    refine ⟨?_, tracked.stakes⟩
    intro key mark lookup
    have old := books.pools _ pool found
    exact (tracked.marks key mark lookup).insert found rfl rfl (accrue_bounds old.rate accrued).1
      (accrue_settled accrued)
  | settled who settles =>
    have done := tracked.settled books settles
    simpa only [who, marked, settles.accumulator_eq] using done

theorem marked_step {t : Tracked Address} (books : Books t.world) (tracked : Marked t)
    (event : Event Address) : Marked (track t event) := by
  cases event with
  | call auths call =>
    simp only [track]
    split
    · rename_i after ok
      exact tracked.effect books (exec_effect ok)
    · exact tracked
  | advance seconds =>
    exact tracked.frame (step t.world (.advance seconds)) _ rfl rfl (Nat.le_add_right _ _)
  | token activity => exact tracked.frame (step t.world (.token activity)) _ rfl rfl le_rfl

/-- What one stake entry could still claim at the given accumulator, scaled up. -/
def claimOn (poolId : Nat) (acc : Int) (key : Nat × Address) (info : StakerInfo) : Int :=
  if key.1 = poolId then info.amount * (acc - info.rewardDebt) else 0

/-- What all stakers of a pool could still claim, scaled up. -/
def owed (w : World Address) (poolId : Nat) : Int :=
  total w.stakes (claimOn poolId (accumulator w poolId))

/-- What the pool has emitted since its last accrual. -/
def unaccrued (w : World Address) (poolId : Nat) : Int :=
  (w.pools.lookup poolId).elim 0 fun pool => emission pool (w.now - pool.createdAt)

/-- Rewards paid, rewards owed and emissions not accrued yet are all covered by
what the pool emitted. -/
def Backed (t : Tracked Address) : Prop :=
  ∀ poolId, fixedPointPrecision * poolRewards t.world.payments poolId + owed t.world poolId +
    fixedPointPrecision * unaccrued t.world poolId ≤ fixedPointPrecision * t.emitted poolId

omit [DecidableEq Address] in
/-- A risen accumulator raises every claim in proportion to its stake. -/
theorem claims_rise (stakes : Store (Nat × Address) StakerInfo) (poolId : Nat) (acc risen : Int) :
    total stakes (claimOn poolId risen) =
      total stakes (claimOn poolId acc) + total stakes (stakeIn poolId) * (risen - acc) := by
  rw [← total_mul_right, ← total_add]
  refine congrArg (total stakes) (funext fun key => funext fun info => ?_)
  unfold claimOn stakeIn
  split
  · ring
  · ring

/-- What the stakers can claim after accrual was owed or emitted before it. -/
theorem accrual_backed {w : World Address} (books : Books w) (found : w.pools.lookup poolId = some pool)
    (accrued : accrue pool w.now = .ok acc) :
    total w.stakes (claimOn poolId acc) ≤ owed w poolId + fixedPointPrecision * unaccrued w poolId := by
  have old := books.pools poolId pool found
  have bound := (accrue_bounds old.rate accrued).2
  rw [owed, claims_rise w.stakes poolId (accumulator w poolId) acc, ← old.staked]
  simp only [accumulator, unaccrued, found, Option.elim_some]
  linarith

omit [DecidableEq Address] in
@[simp] theorem emission_zero (pool : PoolInfo Address) : emission pool 0 = 0 := by
  simp [emission]

omit [DecidableEq Address] in
theorem emission_add (pool : PoolInfo Address) (first second : Nat) :
    emission pool (first + second) = emission pool first + emission pool second := by
  unfold emission
  split
  · push_cast
    ring
  · rfl

/-- What a scaled settlement pays, together with what the staker can claim
afterwards, is at most what the staker could claim before. -/
theorem Settles.covers {w after : World Address} (books : Books w)
    (settles : Settles w after poolId sender pool acc pending delta entry)
    (scaled : ∀ info, w.stakes.lookup (poolId, sender) = some info → DebtScaled info) :
    fixedPointPrecision * pending + entry.elim 0 (claimOn poolId acc (poolId, sender)) ≤
      contribution w.stakes (claimOn poolId acc) (poolId, sender) := by
  have old := books.pools poolId pool settles.found
  have later := (accrue_bounds old.rate settles.accrued).1
  cases prior : w.stakes.lookup (poolId, sender) with
  | none =>
    rw [settles.unstaked prior, contribution_none prior]
    cases left : entry with
    | none => simp
    | some info =>
      -- A first stake starts at the current accumulator, with nothing to claim.
      rcases settles.debt info left with fresh | ⟨-, -, held, stored, -⟩
      · simp [claimOn, fresh]
      · rw [prior] at stored
        cases stored
  | some held =>
    have positive := (books.stakes _ held prior).positive
    have bound := (books.stakes_exist prior settles.found).trans later
    have covered := pending_covered positive bound (old.accumulated.trans later) (scaled held prior)
      (settles.pays held prior)
    rw [contribution_some prior]
    cases left : entry with
    | none => simpa [claimOn] using covered
    | some info =>
      rcases settles.debt info left with fresh | ⟨unpaid, shrinks, stored, lookup, kept⟩
      · simpa [claimOn, fresh] using covered
      · rw [prior] at lookup
        cases lookup
        have amounts := settles.amounts
        simp only [left, prior, Option.elim_some] at amounts
        simp only [claimOn, ↓reduceIte, Option.elim_some, unpaid, mul_zero, zero_add, kept]
        exact mul_le_mul_of_nonneg_right (by omega) (by omega)

theorem Backed.settled {t : Tracked Address} {after : World Address} (books : Books t.world)
    (backed : Backed t)
    (settles : Settles t.world after poolId sender pool acc pending delta entry)
    (scaled : ∀ info, t.world.stakes.lookup (poolId, sender) = some info → DebtScaled info)
    (marks : Store (Nat × Address) Mark) : Backed ⟨after, marks, t.emitted⟩ := by
  intro id
  have before := backed id
  simp only [settles.moves.rewards id, owed, settles.stakes.totals]
  by_cases same : id = poolId
  · subst same
    have accrual := accrual_backed books settles.found settles.accrued
    have covers := settles.covers books scaled
    have nothing : unaccrued after id = 0 := by simp [unaccrued, settles.pools_eq, settles.now_eq]
    rw [settles.accumulator_eq, nothing, if_pos rfl]
    linarith
  · have elsewhere : after.pools.lookup id = t.world.pools.lookup id := by
      rw [settles.pools_eq, AList.lookup_insert_ne same]
    have level : accumulator after id = accumulator t.world id := by simp [accumulator, elsewhere]
    have pending : unaccrued after id = unaccrued t.world id := by
      simp [unaccrued, elsewhere, settles.now_eq]
    have unmoved : ∀ acc, entry.elim 0 (claimOn id acc (poolId, sender)) =
        contribution t.world.stakes (claimOn id acc) (poolId, sender) := by
      intro acc
      cases entry <;> cases held : t.world.stakes.lookup (poolId, sender) <;>
        simp [contribution, claimOn, held, Ne.symm same]
    rw [level, pending, if_neg same, unmoved]
    unfold owed at before
    linarith

theorem Backed.refreshed {t : Tracked Address} (books : Books t.world) (backed : Backed t)
    (found : t.world.pools.lookup poolId = some pool) (accrued : accrue pool t.world.now = .ok acc)
    (newRate : Int) : Backed ⟨t.world.setPool poolId { pool with
      accRewardPerShare := acc, createdAt := t.world.now, rewardRate := newRate },
      t.marks, t.emitted⟩ := by
  intro id
  have before := backed id
  by_cases same : id = poolId
  · subst same
    have accrual := accrual_backed books found accrued
    simp only [owed, accumulator, unaccrued, World.setPool, AList.lookup_insert, Option.elim_some,
      Nat.sub_self, emission_zero, mul_zero, add_zero]
    linarith
  · simp only [owed, accumulator, unaccrued, World.setPool, AList.lookup_insert_ne same] at before ⊢
    exact before

theorem Backed.created {t : Tracked Address} (books : Books t.world) (backed : Backed t) :
    Backed ⟨{ t.world with poolCounter := t.world.poolCounter + 1 }.setPool (t.world.poolCounter + 1)
      ⟨asset, treasury, rewardRate, 0, 0, t.world.now, true⟩, t.marks, t.emitted⟩ := by
  intro id
  have before := backed id
  by_cases same : id = t.world.poolCounter + 1
  · subst same
    simp only [owed, accumulator, unaccrued, World.setPool, AList.lookup_insert, books.unused,
      Option.elim_some, Option.elim_none, Nat.sub_self, emission_zero] at before ⊢
    exact before
  · simp only [owed, accumulator, unaccrued, World.setPool, AList.lookup_insert_ne same] at before ⊢
    exact before

theorem Backed.effect {t : Tracked Address} {after : World Address} {call : Call Address}
    (books : Books t.world) (backed : Backed t) (effect : Effect t.world call after)
    (scaled : ∀ key ∈ call.settles, ∀ info ∈ t.world.stakes.lookup key, DebtScaled info) :
    Backed ⟨after, marked t.marks after call.settles, t.emitted⟩ := by
  cases effect with
  | administered idle => exact backed
  | created idle rate => exact backed.created books
  | deactivated pool idle found =>
    rename_i poolId
    intro id
    have before := backed id
    by_cases same : id = poolId
    · subst same
      simp only [owed, accumulator, unaccrued, World.setPool, AList.lookup_insert, found,
        Option.elim_some, emission] at before ⊢
      exact before
    · simp only [owed, accumulator, unaccrued, World.setPool, AList.lookup_insert_ne same] at before ⊢
      exact before
  | refreshed pool idle found accrued rate => exact backed.refreshed books found accrued _
  | settled who settles =>
    exact backed.settled books settles (scaled _ who) _

theorem backed_step {t : Tracked Address} (books : Books t.world) (backed : Backed t)
    (event : Event Address) (scaled : SettlesScaled t event) : Backed (track t event) := by
  cases event with
  | call auths call =>
    simp only [track]
    split
    · rename_i after ok
      exact backed.effect books (exec_effect ok) scaled
    · exact backed
  | advance seconds =>
    intro id
    have before := backed id
    have time : unaccrued (step t.world (.advance seconds)) id =
        unaccrued t.world id + emits t.world seconds id := by
      cases found : t.world.pools.lookup id with
      | none => simp [unaccrued, emits, step, found]
      | some pool =>
        have updated := (books.pools id pool found).updated
        simp only [unaccrued, emits, step, found, Option.elim_some]
        rw [show t.world.now + seconds - pool.createdAt = t.world.now - pool.createdAt + seconds by omega,
          emission_add]
    simp only [track, time, mul_add]
    simp only [owed, accumulator, step] at before ⊢
    linarith
  | token activity => exact backed

/-- A settlement of a staker whose snapshot is scaled is fair. -/
theorem Settles.fair {t : Tracked Address} {after : World Address} (books : Books t.world)
    (tracked : Marked t) (call : Call Address)
    (settles : Settles t.world after poolId sender pool acc pending delta entry)
    (scaled : ∀ info, t.world.stakes.lookup (poolId, sender) = some info → DebtScaled info) :
    FairlySettled t after call (poolId, sender) := by
  have old := books.pools poolId pool settles.found
  have later := (accrue_bounds old.rate settles.accrued).1
  have paid : poolRewards after.payments poolId - poolRewards t.world.payments poolId = pending := by
    have rewards := settles.moves.rewards poolId
    simp only [↓reduceIte] at rewards
    omega
  cases prior : t.world.stakes.lookup (poolId, sender) with
  | none =>
    have nothing := settles.unstaked prior
    exact ⟨by rw [paid, nothing], by simp [paid, nothing, prior], fun _ _ => by rw [paid, nothing]⟩
  | some info =>
    obtain ⟨mark, lookup, snapshot⟩ := tracked.stakes _ info prior
    obtain ⟨past, known, found, bound, fresh⟩ := tracked.marks _ mark lookup
    have same : known = pool := Option.some.inj (found.symm.trans settles.found)
    subst same
    have due := pending_of_scaled (books.stakes _ info prior).positive (old.accumulated.trans later)
      (bound.trans later) snapshot (scaled info prior) (settles.pays info prior)
    refine ⟨paid ▸ settles.pending_nonneg, ?_, ?_⟩
    · have rounded := rounded_difference (info.amount * acc) (info.amount * mark.acc)
      simp only [paid, due, prior, lookup, settles.accumulator_eq, Option.elim_some]
      push_cast at rounded ⊢
      rwa [mul_sub]
    · rintro - now
      simp only [lookup, Option.map_some, Option.some.injEq] at now
      obtain ⟨updated, level⟩ := fresh now
      rw [paid, due, accrue_same_time settles.accrued updated, level, sub_self]

/-- What holds of an observed run whose settlements were all scaled. -/
structure Lawful (t : Tracked Address) : Prop where
  books : Books t.world
  tracked : Marked t
  backed : Backed t

theorem lawful_deployed (self : Address) (now : Nat) (ledger : Ledger Address) :
    Lawful (Tracked.deployed self now ledger) where
  books := books_deployed self now ledger
  tracked := by
    constructor <;> intro _ _ lookup <;> simp [Tracked.deployed, World.deployed] at lookup
  backed := by
    intro id
    simp [Tracked.deployed, World.deployed, poolRewards, owed, unaccrued]

theorem lawful_step {t : Tracked Address} (lawful : Lawful t) (event : Event Address)
    (scaled : SettlesScaled t event) : Lawful (track t event) where
  books := track_world t event ▸ books_step lawful.books event
  tracked := marked_step lawful.books lawful.tracked event
  backed := backed_step lawful.books lawful.backed event scaled

theorem Lawful.fair {t : Tracked Address} (lawful : Lawful t) (event : Event Address)
    (scaled : SettlesScaled t event) : Fair t event := by
  cases event with
  | call auths call =>
    intro after key ok who
    cases exec_effect ok with
    | settled settling settles =>
      cases who.symm.trans settling
      exact settles.fair lawful.books lawful.tracked call (scaled _ who)
    | administered idle => cases who.symm.trans idle
    | created idle => cases who.symm.trans idle
    | deactivated pool idle => cases who.symm.trans idle
    | refreshed pool idle => cases who.symm.trans idle
  | advance seconds => trivial
  | token activity => trivial

/-- What the stakers can still claim is never negative, so payments alone are
within the emission. -/
theorem Lawful.within_emission {t : Tracked Address} (lawful : Lawful t) (poolId : Nat) :
    poolRewards t.world.payments poolId ≤ t.emitted poolId := by
  have backed := lawful.backed poolId
  have claims : 0 ≤ owed t.world poolId := by
    apply total_nonneg
    intro key info held
    unfold claimOn
    split
    · rename_i here
      obtain ⟨positive, -, pool, found, bound⟩ := lawful.books.stakes key info held
      rw [here] at found
      simp only [accumulator, found, Option.elim_some]
      exact mul_nonneg positive.le (by omega)
    · exact le_rfl
  have fresh : 0 ≤ unaccrued t.world poolId := by
    cases found : t.world.pools.lookup poolId with
    | none => simp [unaccrued, found]
    | some pool =>
      simp only [unaccrued, found, Option.elim_some]
      exact emission_nonneg (lawful.books.pools poolId pool found).rate _
  have scale := precision_pos
  nlinarith

/-- In every run in which each staker is settled only with an entry whose
snapshot is zero or whose stake is one whole unit of precision, every settlement
pays what the accumulator owes and no pool pays more than it emitted. -/
theorem reward_law_of_scaled (self : Address) (now : Nat) (ledger : Ledger Address)
    (events : List (Event Address))
    (scaled : Throughout track SettlesScaled (Tracked.deployed self now ledger) events) :
    RewardLaw (Tracked.deployed self now ledger) events := by
  have initial := lawful_deployed self now ledger
  refine ⟨throughout_of Lawful (fun _ event lawful => lawful_step lawful event)
    (fun _ event lawful => lawful.fair event) initial scaled, ?_⟩
  exact (run_invariant_of Lawful (fun _ event lawful => lawful_step lawful event) initial
    scaled).within_emission

/-- Staker 4 puts an amount into a funded pool that emits 1000 a second, waits 100
seconds and claims. -/
def claimRun (amount : Nat) : List (Event Nat) :=
  [.token (.mint 1 4 amount), .token (.mint 1 0 1000000), .call [2] (.initializeAdmin 2),
    .call [2] (.createPool 2 1 3 1000), .call [4] (.stake 4 1 amount 86400), .advance 100,
    .call [4] (.claimRewards 4 1)]

/-- The law covers a staker of exactly one unit of precision, who claims twice at
one time and once more later. -/
theorem reward_law_of_unit_stake :
    Throughout track SettlesScaled (Tracked.deployed 0 0 fun _ _ => 0)
      (claimRun 10000000 ++ [.call [4] (.claimRewards 4 1), .advance 50, .call [4] (.claimRewards 4 1)]) ∧
    RewardLaw (Tracked.deployed 0 0 fun _ _ => 0)
      (claimRun 10000000 ++ [.call [4] (.claimRewards 4 1), .advance 50, .call [4] (.claimRewards 4 1)]) := by
  have scaled : Throughout track SettlesScaled (Tracked.deployed 0 0 fun _ _ => 0)
      (claimRun 10000000 ++ [.call [4] (.claimRewards 4 1), .advance 50, .call [4] (.claimRewards 4 1)]) := by
    decide +kernel
  exact ⟨scaled, reward_law_of_scaled 0 0 _ _ scaled⟩

/-- With twice the unit of precision at stake, a second claim in the same second
pays half the first claim again. -/
theorem second_claim_pays_again :
    ¬ ∀ events : List (Event Nat), RewardLaw (Tracked.deployed 0 0 fun _ _ => 0) events := by
  intro law
  have fair := (throughout_at (law (claimRun 20000000 ++ [.call [4] (.claimRewards 4 1)])).1).2
  have paid : (exec (run track (Tracked.deployed 0 0 fun _ _ => 0) (claimRun 20000000)).world [4]
      (.claimRewards 4 1)).toOption.map (fun after => poolRewards after.payments 1) = some 150000 := by
    decide +kernel
  have before : poolRewards (run track (Tracked.deployed 0 0 fun _ _ => 0)
      (claimRun 20000000)).world.payments 1 = 100000 := by decide +kernel
  have settled : ((run track (Tracked.deployed 0 0 fun _ _ => 0) (claimRun 20000000)).marks.lookup
      (1, 4)).map Mark.time = some 100 := by decide +kernel
  cases ok : exec (run track (Tracked.deployed 0 0 fun _ _ => 0) (claimRun 20000000)).world [4]
      (.claimRewards 4 1) with
  | error text => simp [ok, Except.toOption] at paid
  | ok after =>
    have once := (fair after (1, 4) ok rfl).once rfl settled
    simp only [ok, Except.toOption, Option.map_some, Option.some.injEq] at paid
    rw [paid, before] at once
    cases once

end AfroPay.Staking
