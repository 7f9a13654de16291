import AfroPay.StakingPlans

/-! Reward queries inserted into a run. `get_pending_rewards` brings the pool up
to the present, dropping the remainder of a division each time, so the run with
the queries is compared with the run without them pool by pool. A later update
is unharmed as long as the remainders do not make up a step of the accumulator. -/
namespace AfroPay.Staking
open Panics KeyedStore TokenLedger Runs

variable {Address : Type}

/-- An event of the original run, or a query inserted into it. Where a query falls into time that
passes, the original run advances in two parts. -/
inductive Entry (Address : Type) where
  | own (event : Event Address)
  | view (auths : List Address) (poolId : Nat) (staker : Address)

def Entry.event : Entry Address → Event Address
  | .own event => event
  | .view auths poolId staker => .call auths (.getPendingRewards poolId staker)

def Entry.original : Entry Address → Option (Event Address)
  | .own event => some event
  | .view _ _ _ => none

/-- The pool whose accumulator a call brings up to the present. -/
def Call.updates : Call Address → Option Nat
  | .setRewardRate _ poolId _ => some poolId
  | .stake _ poolId _ _ => some poolId
  | .claimRewards _ poolId => some poolId
  | .withdraw _ poolId _ => some poolId
  | .getPendingRewards poolId _ => some poolId
  | _ => none

/-- The run without the queries beside the run with them. -/
structure Twin (Address : Type) where
  bare : World Address
  viewed : World Address

/-- What the queries dropped: the emission between the two updates, less what they credited. -/
def dropped (bare viewed : PoolInfo Address) : Int :=
  bare.rewardRate * ((viewed.createdAt - bare.createdAt : Nat) : Int) * fixedPointPrecision -
    bare.totalStaked * (viewed.accRewardPerShare - bare.accRewardPerShare)

/-- An update now does not notice the queries: the emission they divided also
fits in 128 bits as a whole, and the remainders stay below one step. -/
def Unharmed (bare viewed : PoolInfo Address) (now : Nat) : Prop :=
  Earning bare now → emitted viewed now ≤ i128Max → emitted bare now ≤ i128Max ∧
    dropped bare viewed + emitted viewed now % viewed.totalStaked < viewed.totalStaked

instance (bare viewed : PoolInfo Address) (now : Nat) : Decidable (Unharmed bare viewed now) :=
  inferInstanceAs (Decidable (_ → _))

/-- The condition on an entry of the run: queries are free, and the calls of the
original run find the pool they update unharmed. -/
def Neutral (twin : Twin Address) : Entry Address → Prop
  | .own (.call _ call) => ∀ poolId ∈ call.updates, ∀ bare ∈ twin.bare.pools.lookup poolId,
    ∀ viewed ∈ twin.viewed.pools.lookup poolId, Unharmed bare viewed twin.bare.now
  | _ => True

instance (twin : Twin Address) (entry : Entry Address) : Decidable (Neutral twin entry) :=
  match entry with
  | .own (.call _ call) => inferInstanceAs (Decidable (∀ poolId ∈ call.updates,
      ∀ bare ∈ twin.bare.pools.lookup poolId, ∀ viewed ∈ twin.viewed.pools.lookup poolId, Unharmed bare viewed _))
  | .own (.advance _) => isTrue trivial
  | .own (.token _) => isTrue trivial
  | .view _ _ _ => isTrue trivial

/-- The second pool record is the first one after some queries. -/
structure Ahead (bare viewed : PoolInfo Address) : Prop where
  asset : viewed.asset = bare.asset
  treasury : viewed.treasury = bare.treasury
  rewardRate : viewed.rewardRate = bare.rewardRate
  totalStaked : viewed.totalStaked = bare.totalStaked
  isActive : viewed.isActive = bare.isActive
  later : bare.createdAt ≤ viewed.createdAt
  grows : bare.accRewardPerShare ≤ viewed.accRewardPerShare
  bounded : viewed.accRewardPerShare ≤ i128Max
  short : 0 < bare.totalStaked → 0 < bare.rewardRate → 0 ≤ dropped bare viewed
  idle : ¬ (0 < bare.totalStaked ∧ 0 < bare.rewardRate) → viewed.accRewardPerShare = bare.accRewardPerShare

section Pools
variable {bare viewed pool : PoolInfo Address} {now : Nat}

theorem Ahead.refl (bounded : pool.accRewardPerShare ≤ i128Max) : Ahead pool pool := by
  refine ⟨rfl, rfl, rfl, rfl, rfl, Nat.le_refl _, Int.le_refl _, bounded, ?_, fun _ => rfl⟩
  intro _ _
  simp [dropped]

private theorem accumulated_eq (now : Nat) (staked : 0 < pool.totalStaked) (paying : 0 < pool.rewardRate) :
    accumulated pool now = pool.accRewardPerShare + emitted pool now / pool.totalStaked := by
  unfold accumulated
  split
  · rfl
  · next idle =>
    have none : now - pool.createdAt = 0 := by
      have still : ¬ pool.createdAt < now := fun past => idle ⟨staked, paying, past⟩
      omega
    simp [emitted, none]

/-- The emission since the earlier update splits at the later one. -/
private theorem Ahead.emitted_split (ahead : Ahead bare viewed) (past : viewed.createdAt ≤ now) :
    emitted bare now = dropped bare viewed +
      bare.totalStaked * (viewed.accRewardPerShare - bare.accRewardPerShare) + emitted viewed now := by
  have split : ((now - bare.createdAt : Nat) : Int) =
      ((viewed.createdAt - bare.createdAt : Nat) : Int) + ((now - viewed.createdAt : Nat) : Int) := by
    have := ahead.later
    omega
  simp only [emitted, dropped, split, ahead.rewardRate]
  ring

/-- With the remainders below one step, both pools reach the same accumulator. -/
private theorem Ahead.accumulated_eq (ahead : Ahead bare viewed) (past : viewed.createdAt ≤ now)
    (staked : 0 < bare.totalStaked) (paying : 0 < bare.rewardRate)
    (below : dropped bare viewed + emitted viewed now % viewed.totalStaked < viewed.totalStaked) :
    accumulated viewed now = accumulated bare now := by
  have staked' : 0 < viewed.totalStaked := by rw [ahead.totalStaked]; exact staked
  have paying' : 0 < viewed.rewardRate := by rw [ahead.rewardRate]; exact paying
  rw [Staking.accumulated_eq now staked paying, Staking.accumulated_eq now staked' paying', ahead.emitted_split past]
  rw [ahead.totalStaked] at below ⊢
  have whole := Int.emod_add_mul_ediv (emitted viewed now) bare.totalStaked
  have nonneg := Int.emod_nonneg (emitted viewed now) staked.ne'
  have lost := ahead.short staked paying
  have regroup : dropped bare viewed + bare.totalStaked * (viewed.accRewardPerShare - bare.accRewardPerShare) +
      emitted viewed now = (dropped bare viewed + emitted viewed now % bare.totalStaked) +
        bare.totalStaked * (viewed.accRewardPerShare - bare.accRewardPerShare +
          emitted viewed now / bare.totalStaked) := by
    rw [mul_add]
    omega
  rw [regroup, Int.add_mul_ediv_left _ _ staked.ne', Int.ediv_eq_zero_of_lt (by omega) below]
  omega

/-- An update succeeds in both runs or in neither, and computes the same accumulator. -/
private theorem Ahead.accrues (ahead : Ahead bare viewed) (rate : 0 ≤ bare.rewardRate)
    (nonneg : 0 ≤ bare.accRewardPerShare) (past : viewed.createdAt ≤ now) (unharmed : Unharmed bare viewed now)
    {acc : Int} : accrue viewed now = .ok acc ↔ accrue bare now = .ok acc := by
  have rate' : 0 ≤ viewed.rewardRate := by rw [ahead.rewardRate]; exact rate
  have earlier := ahead.later
  rw [accrue_iff rate' (nonneg.trans ahead.grows), accrue_iff rate nonneg]
  by_cases earning : Earning bare now
  · have ⟨staked, paying, _⟩ := earning
    have lost := ahead.short staked paying
    have credited := mul_nonneg staked.le (sub_nonneg.mpr ahead.grows)
    have split := ahead.emitted_split past
    by_cases fits : emitted viewed now ≤ i128Max
    · obtain ⟨whole, below⟩ := unharmed earning fits
      have same := ahead.accumulated_eq past staked paying below
      have bound : ¬ Earning viewed now → accumulated viewed now ≤ i128Max := by
        intro still
        rw [accumulated, if_neg still]
        exact ahead.bounded
      rw [same] at bound ⊢
      by_cases moving : Earning viewed now
      · simp [moving, earning, fits, whole]
      · simp [moving, earning, whole, bound moving]
    · have moving : Earning viewed now := by
        refine ⟨by rw [ahead.totalStaked]; exact staked, by rw [ahead.rewardRate]; exact paying, ?_⟩
        by_contra still
        have none : now - viewed.createdAt = 0 := by omega
        exact fits (by simp [emitted, none, i128Max])
      have exceeds : ¬ emitted bare now ≤ i128Max := by omega
      simp [moving, earning, fits, exceeds]
  · have same : viewed.accRewardPerShare = bare.accRewardPerShare := by
      by_cases active : 0 < bare.totalStaked ∧ 0 < bare.rewardRate
      · obtain ⟨staked, paying⟩ := active
        have together : viewed.createdAt - bare.createdAt = 0 := by
          have still : ¬ bare.createdAt < now := fun past => earning ⟨staked, paying, past⟩
          omega
        have lost := ahead.short staked paying
        simp only [dropped, together, Int.ofNat_zero, mul_zero, zero_mul, zero_sub, Int.neg_nonneg] at lost
        have level := nonpos_of_mul_nonpos_right lost staked
        have grows := ahead.grows
        omega
      · exact ahead.idle active
    have still : ¬ Earning viewed now := by
      rintro ⟨staked, paying, moved⟩
      rw [ahead.totalStaked] at staked
      rw [ahead.rewardRate] at paying
      exact earning ⟨staked, paying, by omega⟩
    simp [accumulated, earning, still, same]

private theorem Ahead.accrued_bound (ahead : Ahead bare viewed) (rate : 0 ≤ viewed.rewardRate)
    (nonneg : 0 ≤ viewed.accRewardPerShare) {acc : Int} (accrued : accrue viewed now = .ok acc) : acc ≤ i128Max := by
  obtain ⟨rfl, fits⟩ := (accrue_iff rate nonneg).mp accrued
  by_cases earning : Earning viewed now
  · exact (fits earning).2
  · rw [accumulated, if_neg earning]
    exact ahead.bounded

/-- A query keeps the pool ahead: it adds the remainder of its division to what was dropped. -/
private theorem Ahead.queried (ahead : Ahead bare viewed) (rate : 0 ≤ bare.rewardRate)
    (nonneg : 0 ≤ bare.accRewardPerShare) (past : viewed.createdAt ≤ now) {acc : Int}
    (accrued : accrue viewed now = .ok acc) :
    Ahead bare { viewed with accRewardPerShare := acc, createdAt := now } := by
  have rate' : 0 ≤ viewed.rewardRate := by rw [ahead.rewardRate]; exact rate
  have bound := ahead.accrued_bound rate' (nonneg.trans ahead.grows) accrued
  obtain ⟨rfl, -⟩ := (accrue_iff rate' (nonneg.trans ahead.grows)).mp accrued
  have grown := (accumulated_nonneg now rate' (nonneg.trans ahead.grows)).1
  refine ⟨ahead.asset, ahead.treasury, ahead.rewardRate, ahead.totalStaked, ahead.isActive, ahead.later.trans past,
    ahead.grows.trans grown, bound, ?_, ?_⟩
  · intro staked paying
    have split := ahead.emitted_split past
    have lost := ahead.short staked paying
    have whole := Int.emod_add_mul_ediv (emitted viewed now) bare.totalStaked
    have rest := Int.emod_nonneg (emitted viewed now) staked.ne'
    have reached : accumulated viewed now = viewed.accRewardPerShare + emitted viewed now / viewed.totalStaked := by
      apply Staking.accumulated_eq
      · rw [ahead.totalStaked]
        exact staked
      · rw [ahead.rewardRate]
        exact paying
    rw [ahead.totalStaked] at reached
    have next : dropped bare { viewed with accRewardPerShare := accumulated viewed now, createdAt := now } =
        emitted bare now - bare.totalStaked * (accumulated viewed now - bare.accRewardPerShare) := rfl
    rw [next, reached]
    have regroup : bare.totalStaked * (viewed.accRewardPerShare + emitted viewed now / bare.totalStaked -
        bare.accRewardPerShare) = bare.totalStaked * (viewed.accRewardPerShare - bare.accRewardPerShare) +
          bare.totalStaked * (emitted viewed now / bare.totalStaked) := by
      ring
    omega
  · intro inactive
    have still : ¬ Earning viewed now := by
      rintro ⟨staked, paying, -⟩
      rw [ahead.totalStaked] at staked
      rw [ahead.rewardRate] at paying
      exact inactive ⟨staked, paying⟩
    rw [accumulated, if_neg still]
    exact ahead.idle inactive

end Pools

variable [DecidableEq Address]

/-- The worlds differ only in pools that queries have brought forward. -/
def Twins (bare viewed : World Address) : Prop :=
  ∃ pools, viewed = { bare with pools } ∧
    ∀ poolId, Option.Rel Ahead (bare.pools.lookup poolId) (pools.lookup poolId)

/-- A call succeeds in both worlds or in neither, and leaves twins. -/
structure Agree (bare viewed : Except String (World Address)) : Prop where
  follows : ∀ after, bare = .ok after → ∃ after', viewed = .ok after' ∧ Twins after after'
  leads : ∀ after', viewed = .ok after' → ∃ after, bare = .ok after

section Worlds
variable {w v : World Address} {auths : List Address} {poolId : Nat}

omit [DecidableEq Address] in
private theorem rel_insert {pools others : Store Nat (PoolInfo Address)} {pool other : PoolInfo Address}
    (before : ∀ id, Option.Rel Ahead (pools.lookup id) (others.lookup id)) (ahead : Ahead pool other) (id : Nat) :
    Option.Rel Ahead ((pools.insert poolId pool).lookup id) ((others.insert poolId other).lookup id) := by
  by_cases same : id = poolId
  · subst same
    simpa using Option.Rel.some ahead
  · simpa [AList.lookup_insert_ne same] using before id

omit [DecidableEq Address] in
private theorem rel_lookup {held other : Option (PoolInfo Address)} (related : Option.Rel Ahead held other) :
    (held = none ∧ other = none) ∨ ∃ bare viewed, held = some bare ∧ other = some viewed ∧ Ahead bare viewed := by
  cases related with
  | none => exact .inl ⟨rfl, rfl⟩
  | some ahead => exact .inr ⟨_, _, rfl, rfl, ahead⟩

/-- The pool a call of the original run updates: missing in both worlds, or accruing alike. -/
private theorem update_alike {pools : Store Nat (PoolInfo Address)} (books : Books w)
    (books' : Books { w with pools }) (related : ∀ id, Option.Rel Ahead (w.pools.lookup id) (pools.lookup id))
    (unharmed : ∀ bare ∈ w.pools.lookup poolId, ∀ viewed ∈ pools.lookup poolId, Unharmed bare viewed w.now) :
    (w.pools.lookup poolId = none ∧ pools.lookup poolId = none) ∨
      ∃ bare viewed, w.pools.lookup poolId = some bare ∧ pools.lookup poolId = some viewed ∧ Ahead bare viewed ∧
        (∀ acc, accrue viewed w.now = .ok acc ↔ accrue bare w.now = .ok acc) ∧
        ∀ acc, accrue bare w.now = .ok acc → acc ≤ i128Max := by
  rcases rel_lookup (related poolId) with none | ⟨bare, viewed, found, found', ahead⟩
  · exact .inl none
  · obtain ⟨-, rate, nonneg, -, -⟩ := books.pools poolId bare found
    obtain ⟨-, rate', nonneg', past, -⟩ := books'.pools poolId viewed found'
    have alike : ∀ acc, accrue viewed w.now = .ok acc ↔ accrue bare w.now = .ok acc :=
      fun _ => ahead.accrues rate nonneg past (unharmed bare found viewed found')
    refine .inr ⟨bare, viewed, found, found', ahead, alike, ?_⟩
    intro acc accrued
    exact ahead.accrued_bound rate' nonneg' ((alike acc).mpr accrued)

theorem getPendingRewards_iff {w after : World Address} {staker : Address} {reward : Int} :
    getPendingRewards w poolId staker = .ok (after, reward) ↔ ∃ pool acc, w.pools.lookup poolId = some pool ∧
      accrue pool w.now = .ok acc ∧
      (match w.stakes.lookup (poolId, staker) with
        | none => pure 0
        | some info => calculatePendingReward info.amount info.rewardDebt acc) = Except.ok reward ∧
      w.setPool poolId { pool with accRewardPerShare := acc, createdAt := w.now } = after := by
  have kept : ∀ pool, (w.setPool poolId pool).stakes = w.stakes := fun _ => rfl
  simp only [getPendingRewards, bind_ok, updatePool_ok]
  constructor
  · rintro ⟨_, ⟨pool, acc, found, accrued, rfl⟩, ok⟩
    refine ⟨pool, acc, found, accrued, ?_⟩
    cases stored : w.stakes.lookup (poolId, staker) with
    | none =>
      simp only [kept, stored, pure_ok, Prod.mk.injEq] at ok
      exact ⟨pure_ok.mpr ok.2, ok.1⟩
    | some info =>
      simp only [kept, stored, bind_ok, getPool_ok, setPool_lookup, pure_ok, Prod.mk.injEq] at ok
      obtain ⟨_, lookup, _, priced, leaves, rfl⟩ := ok
      cases lookup
      exact ⟨priced, leaves⟩
  · rintro ⟨pool, acc, found, accrued, priced, rfl⟩
    refine ⟨_, ⟨pool, acc, found, accrued, rfl⟩, ?_⟩
    cases stored : w.stakes.lookup (poolId, staker) with
    | none =>
      simp only [stored, pure_ok] at priced
      simp only [kept, stored, priced, pure_ok]
    | some info =>
      simp only [stored] at priced
      simp only [kept, stored, bind_ok, getPool_ok, setPool_lookup, pure_ok]
      exact ⟨_, rfl, reward, priced, rfl⟩

section Calls
variable {pools : Store Nat (PoolInfo Address)} {call : Call Address}
  (books : Books w) (books' : Books { w with pools })
  (related : ∀ id, Option.Rel Ahead (w.pools.lookup id) (pools.lookup id))
  (unharmed : ∀ bare ∈ w.pools.lookup poolId, ∀ viewed ∈ pools.lookup poolId, Unharmed bare viewed w.now)

include books books' related unharmed

/-- Calls that update a pool agree when what they compute depends on the pool
only through its accrual, and they leave twins. -/
private theorem agree_update {Result : Type} {bare viewed : Except String (World Address)}
    (computes : PoolInfo Address → Result → Prop) (leaves leaves' : PoolInfo Address → Result → World Address)
    (ok : ∀ after, bare = .ok after ↔ ∃ pool result, w.pools.lookup poolId = some pool ∧ computes pool result ∧
      leaves pool result = after)
    (ok' : ∀ after, viewed = .ok after ↔ ∃ pool result, pools.lookup poolId = some pool ∧ computes pool result ∧
      leaves' pool result = after)
    (alike : ∀ p q result, Ahead p q → (∀ acc, accrue q w.now = .ok acc ↔ accrue p w.now = .ok acc) →
      (computes q result ↔ computes p result))
    (twins : ∀ p q result, Ahead p q → (∀ acc, accrue p w.now = .ok acc → acc ≤ i128Max) → computes p result →
      Twins (leaves p result) (leaves' q result)) : Agree bare viewed := by
  rcases update_alike books books' related unharmed with ⟨missing, missing'⟩ | ⟨p, q, found, found', ahead, accrues, bound⟩
  · constructor
    · intro after done
      obtain ⟨pool, -, lookup, -⟩ := (ok after).mp done
      simp [missing] at lookup
    · intro after done
      obtain ⟨pool, -, lookup, -⟩ := (ok' after).mp done
      simp [missing'] at lookup
  · constructor
    · intro after done
      obtain ⟨_, result, lookup, computed, rfl⟩ := (ok after).mp done
      rw [found] at lookup
      cases lookup
      have computed' := (alike p q result ahead accrues).mpr computed
      exact ⟨_, (ok' _).mpr ⟨q, result, found', computed', rfl⟩, twins p q result ahead bound computed⟩
    · intro after done
      obtain ⟨_, result, lookup, computed, rfl⟩ := (ok' after).mp done
      rw [found'] at lookup
      cases lookup
      exact ⟨_, (ok _).mpr ⟨p, result, found, (alike p q result ahead accrues).mp computed, rfl⟩⟩

private theorem agree_settling {sender : Address} (who : call.settles = some (poolId, sender)) :
    Agree (exec w auths call) (exec { w with pools } auths call) := by
  let computes (pool : PoolInfo Address) (result : Plan Address × Ledger Address) : Prop :=
    sender ∈ auths ∧ sender ≠ w.self ∧ planOf call pool (w.stakes.lookup (poolId, sender)) w.now = .ok result.1 ∧
      (∃ deposited, takeDeposit w pool.asset sender result.1.deposit = .ok deposited ∧
        payAll w.self deposited result.1.payouts = .ok result.2) ∧
      (result.1.delta ≠ 0 → i128Min ≤ pool.totalStaked + result.1.delta ∧ pool.totalStaked + result.1.delta ≤ i128Max)
  have succeeds : ∀ (store : Store Nat (PoolInfo Address)) (after : World Address),
      exec { w with pools := store } auths call = .ok after ↔ ∃ pool result, store.lookup poolId = some pool ∧
        computes pool result ∧
          World.settled { w with pools := store } poolId sender pool result.1 result.2 = after := by
    intro store after
    rw [settling_iff who]
    constructor
    · rintro ⟨signed, outside, pool, plan, found, ready, carried⟩
      obtain ⟨deposited, ledger, taken, moved, fits, rfl⟩ := carryOut_ok.mp carried
      exact ⟨pool, (plan, ledger), found, ⟨signed, outside, ready, ⟨deposited, taken, moved⟩, fits⟩, rfl⟩
    · rintro ⟨pool, ⟨plan, ledger⟩, found, ⟨signed, outside, ready, ⟨deposited, taken, moved⟩, fits⟩, rfl⟩
      exact ⟨signed, outside, pool, plan, found, ready, carryOut_ok.mpr ⟨deposited, ledger, taken, moved, fits, rfl⟩⟩
  refine agree_update books books' related unharmed computes _ _ (succeeds w.pools) (succeeds pools) ?_ ?_
  · intro p q result ahead accrues
    simp only [computes, planOf_ok_congr accrues ahead.asset ahead.treasury ahead.isActive, ahead.asset,
      ahead.totalStaked]
  · intro p q result ahead bound computed
    refine ⟨_, rfl, ?_⟩
    have same : q.settled result.1 w.now = p.settled result.1 w.now := by
      simp only [PoolInfo.settled, ahead.asset, ahead.treasury, ahead.rewardRate, ahead.totalStaked, ahead.isActive]
    rw [show World.now { w with pools } = w.now from rfl, same]
    exact rel_insert related (Ahead.refl (bound result.1.acc (planOf_acc computed.2.2.1)))

private theorem agree_setRewardRate (admin : Address) (newRate : Int) :
    Agree (setRewardRate w auths admin poolId newRate) (setRewardRate { w with pools } auths admin poolId newRate) := by
  let computes (pool : PoolInfo Address) (acc : Int) : Prop :=
    (admin ∈ auths ∧ admin ≠ w.self) ∧ w.admin = some admin ∧ 0 ≤ newRate ∧ accrue pool w.now = .ok acc
  have succeeds : ∀ (store : Store Nat (PoolInfo Address)) (after : World Address),
      setRewardRate { w with pools := store } auths admin poolId newRate = .ok after ↔
        ∃ pool acc, store.lookup poolId = some pool ∧ computes pool acc ∧ World.setPool { w with pools := store } poolId
          { pool with accRewardPerShare := acc, createdAt := w.now, rewardRate := newRate } = after := by
    intro store after
    simp only [setRewardRate, assertAdmin, bind_ok, requireAuth_ok, expect_ok, panicIf_ok, updatePool_ok, getPool_ok,
      pure_ok, exists_const]
    constructor
    · rintro ⟨auth, ⟨_, stored, same⟩, rate, _, ⟨pool, acc, found, accrued, rfl⟩, _, lookup, rfl⟩
      rw [setPool_lookup] at lookup
      cases lookup
      rw [not_not] at same
      exact ⟨pool, acc, found, ⟨auth, same ▸ stored, not_lt.mp rate, accrued⟩, by rw [setPool_setPool]⟩
    · rintro ⟨pool, acc, found, ⟨auth, stored, rate, accrued⟩, rfl⟩
      refine ⟨auth, ⟨admin, stored, by simp⟩, not_lt.mpr rate, _, ⟨pool, acc, found, accrued, rfl⟩, _,
        setPool_lookup _ _ _, by rw [setPool_setPool]⟩
  refine agree_update books books' related unharmed computes _ _ (succeeds w.pools) (succeeds pools) ?_ ?_
  · intro p q acc ahead accrues
    simp only [computes, accrues]
  · intro p q acc ahead bound computed
    refine ⟨_, rfl, ?_⟩
    simp only [ahead.asset, ahead.treasury, ahead.totalStaked, ahead.isActive]
    exact rel_insert related (Ahead.refl (bound acc computed.2.2.2))

private theorem agree_getPendingRewards (staker : Address) :
    Agree (Prod.fst <$> getPendingRewards w poolId staker)
      (Prod.fst <$> getPendingRewards { w with pools } poolId staker) := by
  let computes (pool : PoolInfo Address) (acc : Int) : Prop :=
    accrue pool w.now = .ok acc ∧ ∃ reward, (match w.stakes.lookup (poolId, staker) with
      | none => pure 0
      | some info => calculatePendingReward info.amount info.rewardDebt acc) = Except.ok reward
  have succeeds : ∀ (store : Store Nat (PoolInfo Address)) (after : World Address),
      Prod.fst <$> getPendingRewards { w with pools := store } poolId staker = .ok after ↔
        ∃ pool acc, store.lookup poolId = some pool ∧ computes pool acc ∧ World.setPool { w with pools := store } poolId
          { pool with accRewardPerShare := acc, createdAt := w.now } = after := by
    intro store after
    rw [map_fst_ok]
    constructor
    · rintro ⟨reward, ok⟩
      obtain ⟨pool, acc, found, accrued, priced, leaves⟩ := getPendingRewards_iff.mp ok
      exact ⟨pool, acc, found, ⟨accrued, reward, priced⟩, leaves⟩
    · rintro ⟨pool, acc, found, ⟨accrued, reward, priced⟩, leaves⟩
      exact ⟨reward, getPendingRewards_iff.mpr ⟨pool, acc, found, accrued, priced, leaves⟩⟩
  refine agree_update books books' related unharmed computes _ _ (succeeds w.pools) (succeeds pools) ?_ ?_
  · intro p q acc ahead accrues
    simp only [computes, accrues]
  · intro p q acc ahead bound computed
    refine ⟨_, rfl, ?_⟩
    simp only [ahead.asset, ahead.treasury, ahead.rewardRate, ahead.totalStaked, ahead.isActive]
    exact rel_insert related (Ahead.refl (bound acc computed.1))

end Calls

variable {pools : Store Nat (PoolInfo Address)} {call : Call Address}

omit [DecidableEq Address] in
/-- A call that leaves the pools alone agrees with itself. -/
private theorem agree_aside {bare viewed : Except String (World Address)} (same : viewed = (fun after : World Address =>
      { after with pools }) <$> bare) (aside : ∀ after, bare = .ok after → after.pools = w.pools)
    (related : ∀ id, Option.Rel Ahead (w.pools.lookup id) (pools.lookup id)) : Agree bare viewed := by
  subst same
  cases bare with
  | error message => exact ⟨by simp, by simp [Functor.map, Except.map]⟩
  | ok after =>
    refine ⟨?_, fun _ _ => ⟨after, rfl⟩⟩
    intro _ done
    cases done
    refine ⟨_, rfl, pools, rfl, ?_⟩
    rw [aside after rfl]
    exact related

private theorem agree_createPool (related : ∀ id, Option.Rel Ahead (w.pools.lookup id) (pools.lookup id))
    (admin asset treasury : Address) (rewardRate : Int) :
    Agree (Prod.fst <$> createPool w auths admin asset treasury rewardRate)
      (Prod.fst <$> createPool { w with pools } auths admin asset treasury rewardRate) := by
  simp only [createPool]
  constructor
  · intro after ok
    simp only [map_fst_ok, bind_ok, pure_ok, Prod.mk.injEq] at ok ⊢
    obtain ⟨_, _, auth, _, known, _, rate, poolId, fits, rfl, rfl⟩ := ok
    refine ⟨_, ⟨_, _, auth, _, known, _, rate, _, fits, rfl, rfl⟩, _, rfl, ?_⟩
    exact rel_insert related (Ahead.refl (show (0 : Int) ≤ i128Max by decide))
  · intro after ok
    simp only [map_fst_ok, bind_ok, pure_ok, Prod.mk.injEq] at ok ⊢
    obtain ⟨_, _, auth, _, known, _, rate, poolId, fits, rfl, rfl⟩ := ok
    exact ⟨_, _, _, auth, _, known, _, rate, _, fits, rfl, rfl⟩

private theorem agree_deactivatePool (related : ∀ id, Option.Rel Ahead (w.pools.lookup id) (pools.lookup id))
    (admin : Address) (poolId : Nat) :
    Agree (deactivatePool w auths admin poolId) (deactivatePool { w with pools } auths admin poolId) := by
  simp only [deactivatePool]
  constructor
  · intro after ok
    simp only [bind_ok, getPool_ok, pure_ok] at ok ⊢
    obtain ⟨_, auth, _, known, pool, found, rfl⟩ := ok
    obtain ⟨missing, -⟩ | ⟨_, viewed, found', lookup, ahead⟩ := rel_lookup (related poolId)
    · simp [missing] at found
    · rw [found'] at found
      cases found
      refine ⟨_, ⟨_, auth, _, known, viewed, lookup, rfl⟩, _, rfl, rel_insert related ?_⟩
      exact ⟨ahead.asset, ahead.treasury, ahead.rewardRate, ahead.totalStaked, rfl, ahead.later, ahead.grows,
        ahead.bounded, ahead.short, ahead.idle⟩
  · intro after ok
    simp only [bind_ok, getPool_ok, pure_ok] at ok ⊢
    obtain ⟨_, auth, _, known, pool, found, rfl⟩ := ok
    obtain ⟨-, missing⟩ | ⟨bare, _, lookup, found', -⟩ := rel_lookup (related poolId)
    · simp [missing] at found
    · exact ⟨_, _, auth, _, known, bare, lookup, rfl⟩

private theorem exec_agree (books : Books w) (books' : Books { w with pools })
    (related : ∀ id, Option.Rel Ahead (w.pools.lookup id) (pools.lookup id))
    (unharmed : ∀ poolId ∈ call.updates, ∀ bare ∈ w.pools.lookup poolId, ∀ viewed ∈ pools.lookup poolId,
      Unharmed bare viewed w.now) : Agree (exec w auths call) (exec { w with pools } auths call) := by
  cases call with
  | initializeAdmin admin =>
    refine agree_aside ?_ ?_ related
    · simp [exec, initializeAdmin, requireAuth]
    · intro after ok
      simp only [exec, initializeAdmin, bind_ok, pure_ok] at ok
      obtain ⟨-, -, -, -, rfl⟩ := ok
      rfl
  | migrate admin =>
    refine agree_aside ?_ ?_ related
    · simp only [exec, migrate, requireAuth, map_bind]
      split <;> rfl
    · intro after ok
      simp only [exec, migrate, bind_ok] at ok
      obtain ⟨-, -, -, -, -, -, -, -, ok⟩ := ok
      split at ok <;> obtain rfl := pure_ok.mp ok <;> rfl
  | createPool admin asset treasury rewardRate => exact agree_createPool related admin asset treasury rewardRate
  | deactivatePool admin poolId => exact agree_deactivatePool related admin poolId
  | setRewardRate admin poolId newRate =>
    exact agree_setRewardRate books books' related (unharmed poolId rfl) admin newRate
  | stake sender poolId amount lockDuration => exact agree_settling books books' related (unharmed poolId rfl) rfl
  | claimRewards sender poolId => exact agree_settling books books' related (unharmed poolId rfl) rfl
  | withdraw sender poolId amount => exact agree_settling books books' related (unharmed poolId rfl) rfl
  | getPendingRewards poolId staker => exact agree_getPendingRewards books books' related (unharmed poolId rfl) staker

end Worlds

/-- An entry in both runs: a query happens only in the second. -/
def Twin.step (twin : Twin Address) : Entry Address → Twin Address
  | .own event => ⟨Staking.step twin.bare event, Staking.step twin.viewed event⟩
  | .view auths poolId staker => ⟨twin.bare, Staking.step twin.viewed (.call auths (.getPendingRewards poolId staker))⟩

/-- Both runs keep their books, and their worlds are twins. -/
structure Aligned (twin : Twin Address) : Prop where
  bare : Books twin.bare
  viewed : Books twin.viewed
  twins : Twins twin.bare twin.viewed

private theorem twins_own {w v : World Address} (books : Books w) (books' : Books v) (twins : Twins w v)
    (event : Event Address) (neutral : Neutral ⟨w, v⟩ (.own event)) : Twins (step w event) (step v event) := by
  obtain ⟨pools, rfl, related⟩ := twins
  cases event with
  | advance seconds => exact ⟨pools, rfl, related⟩
  | token activity => exact ⟨pools, rfl, related⟩
  | call auths call =>
    have agree : Agree (exec w auths call) (exec { w with pools } auths call) :=
      exec_agree books books' related neutral
    simp only [step]
    cases result : exec w auths call with
    | ok after =>
      obtain ⟨after', result', twins⟩ := agree.follows after result
      rw [result']
      exact twins
    | error message =>
      cases result' : exec { w with pools } auths call with
      | ok after' =>
        obtain ⟨after, ok⟩ := agree.leads after' result'
        rw [result] at ok
        cases ok
      | error message' => exact ⟨pools, rfl, related⟩

private theorem twins_view {w v : World Address} (books : Books w) (books' : Books v) (twins : Twins w v)
    (auths : List Address) (poolId : Nat) (staker : Address) :
    Twins w (step v (.call auths (.getPendingRewards poolId staker))) := by
  obtain ⟨pools, rfl, related⟩ := twins
  simp only [step, exec]
  split
  · next after ok =>
    obtain ⟨reward, ok⟩ := map_fst_ok.mp ok
    obtain ⟨pool, acc, found, accrued, -, rfl⟩ := getPendingRewards_iff.mp ok
    refine ⟨_, rfl, ?_⟩
    intro id
    by_cases same : id = poolId
    · subst same
      obtain ⟨-, missing⟩ | ⟨bare, _, lookup, found', ahead⟩ := rel_lookup (related id)
      · simp [missing] at found
      · rw [found'] at found
        cases found
        obtain ⟨-, rate, nonneg, -, -⟩ := books.pools id bare lookup
        obtain ⟨-, -, -, past, -⟩ := books'.pools id pool found'
        rw [lookup, AList.lookup_insert]
        exact .some (ahead.queried rate nonneg past accrued)
    · rw [AList.lookup_insert_ne same]
      exact related id
  · exact ⟨pools, rfl, related⟩

private theorem aligned_step (twin : Twin Address) (entry : Entry Address) (aligned : Aligned twin)
    (neutral : Neutral twin entry) : Aligned (twin.step entry) := by
  obtain ⟨bare, viewed, twins⟩ := aligned
  cases entry with
  | own event => exact ⟨books_step bare event, books_step viewed event, twins_own bare viewed twins event neutral⟩
  | view auths poolId staker =>
    exact ⟨bare, books_step viewed (.call auths (.getPendingRewards poolId staker)),
      twins_view bare viewed twins auths poolId staker⟩

/-- The pair of runs is the run without the queries beside the one with them. -/
private theorem twin_run (twin : Twin Address) (entries : List (Entry Address)) :
    run Twin.step twin entries =
      ⟨run step twin.bare (entries.filterMap Entry.original), run step twin.viewed (entries.map Entry.event)⟩ := by
  induction entries generalizing twin with
  | nil => rfl
  | cons entry rest ih =>
    rw [run_cons, ih]
    cases entry <;> rfl

/-- Queries inserted anywhere change no payment, no stake entry and no balance,
as long as each update of the original run finds its pool unharmed. -/
theorem queries_change_nothing (self : Address) (now : Nat) (ledger : Ledger Address) (entries : List (Entry Address))
    (neutral : Throughout Twin.step Neutral ⟨World.deployed self now ledger, World.deployed self now ledger⟩ entries) :
    let bare := run step (World.deployed self now ledger) (entries.filterMap Entry.original)
    let viewed := run step (World.deployed self now ledger) (entries.map Entry.event)
    viewed.payments = bare.payments ∧ viewed.stakes = bare.stakes ∧ viewed.ledger = bare.ledger := by
  intro bare viewed
  have fresh : Aligned (⟨World.deployed self now ledger, World.deployed self now ledger⟩ : Twin Address) := by
    refine ⟨books_deployed self now ledger, books_deployed self now ledger, ∅, rfl, ?_⟩
    intro poolId
    simp [World.deployed]
  have aligned := run_invariant_of Aligned aligned_step fresh neutral
  rw [twin_run] at aligned
  obtain ⟨pools, same, -⟩ := aligned.twins
  have same : viewed = { bare with pools } := same
  rw [same]
  exact ⟨rfl, rfl, rfl⟩

/-- One staker of a funded pool that emits one token a second claims after 30
seconds; somebody asks for the pending reward after the first second. -/
def queriedOnce (staked : Nat) : List (Entry Nat) :=
  [.own (.token (.mint 1 4 staked)), .own (.token (.mint 1 0 1000)), .own (.call [2] (.initializeAdmin 2)),
    .own (.call [2] (.createPool 2 1 3 1)), .own (.call [4] (.stake 4 1 staked 86400)), .own (.advance 1),
    .view [] 1 4, .own (.advance 29), .own (.call [4] (.claimRewards 4 1))]

/-- With a stake that divides the emission of a second, the query is free. -/
theorem queriedOnce_exact :
    let bare := run step (World.deployed 0 0 fun _ _ => 0) ((queriedOnce 5000000).filterMap Entry.original)
    let viewed := run step (World.deployed 0 0 fun _ _ => 0) ((queriedOnce 5000000).map Entry.event)
    bare.payments = [⟨1, .reward, 1, 4, 30⟩] ∧
      viewed.payments = bare.payments ∧ viewed.stakes = bare.stakes ∧ viewed.ledger = bare.ledger := by
  intro bare viewed
  exact ⟨by decide +kernel, queries_change_nothing 0 0 (fun _ _ => 0) (queriedOnce 5000000) (by decide +kernel)⟩

/-- With a larger stake the query drops two thirds of a step, and the claim pays 28 instead of 30. -/
theorem queriedOnce_loses_reward :
    ¬ ∀ entries : List (Entry Nat),
      (run step (World.deployed 0 0 fun _ _ => 0) (entries.map Entry.event)).payments =
        (run step (World.deployed 0 0 fun _ _ => 0) (entries.filterMap Entry.original)).payments := by
  intro neutral
  have fewer : (run step (World.deployed 0 0 fun _ _ => 0) ((queriedOnce 15000000).map Entry.event)).payments ≠
      (run step (World.deployed 0 0 fun _ _ => 0) ((queriedOnce 15000000).filterMap Entry.original)).payments := by
    decide +kernel
  exact fewer (neutral (queriedOnce 15000000))

end AfroPay.Staking
