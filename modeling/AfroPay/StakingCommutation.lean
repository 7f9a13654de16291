import AfroPay.StakingPlans
import Mathlib.Algebra.Group.Pi.Basic
import Mathlib.Algebra.BigOperators.Group.List.Basic

/-! Two users settling at the same ledger time. The first call accrues the pool
up to the moment and the second finds nothing left to accrue, so each makes the
plan it would have made alone, and plans of different stakers add up. -/
namespace AfroPay.Staking
open Panics KeyedStore TokenLedger

variable {Address : Type} [DecidableEq Address]

/-- What the recorded payments took out of the contract in one asset. -/
def assetPaid (payments : List (Payment Address)) (asset : Address) : Int :=
  (payments.map fun payment => if payment.asset = asset then payment.amount else 0).sum

/-- The contract holds enough of every token for what both calls pay. -/
def Enough (w first second : World Address) : Prop :=
  ∀ asset, (assetPaid first.payments asset - assetPaid w.payments asset) +
    (assetPaid second.payments asset - assetPaid w.payments asset) ≤ w.ledger asset w.self

/-- The same pool records, stake entries and balances, and the same payments up to their order. -/
structure SameOutcome (w other : World Address) : Prop where
  pools : ∀ poolId, w.pools.lookup poolId = other.pools.lookup poolId
  stakes : ∀ key, w.stakes.lookup key = other.stakes.lookup key
  ledger : w.ledger = other.ledger
  payments : w.payments.Perm other.payments
  rest : w.self = other.self ∧ w.now = other.now ∧ w.admin = other.admin ∧
    w.storageVersion = other.storageVersion ∧ w.poolCounter = other.poolCounter

section Transfers
variable {contract : Address} {ledger after : Ledger Address} {payouts : List (Payment Address)}

/-- What some payments add to each balance. -/
def payoutFlow (contract : Address) (payouts : List (Payment Address)) : Ledger Address :=
  (payouts.map fun payment => flow payment.asset contract payment.recipient payment.amount).sum

omit [DecidableEq Address] in
private theorem flow_nothing (ledger : Ledger Address) : ledger + 0 = ledger := by
  funext token account
  simp

private theorem payoutFlow_cons (payment : Payment Address) (rest : List (Payment Address)) :
    payoutFlow contract (payment :: rest) =
      flow payment.asset contract payment.recipient payment.amount + payoutFlow contract rest := by
  simp [payoutFlow]

private theorem payAll_flow (done : payAll contract ledger payouts = .ok after) :
    ledger + payoutFlow contract payouts = after ∧ ∀ payment ∈ payouts, 0 ≤ payment.amount := by
  induction payouts generalizing ledger with
  | nil =>
    obtain rfl := pure_ok.mp done
    exact ⟨flow_nothing ledger, by simp⟩
  | cons payment rest ih =>
    simp only [payAll, bind_ok, transfer_flow] at done
    obtain ⟨_, ⟨nonneg, -, rfl⟩, done⟩ := done
    obtain ⟨rfl, others⟩ := ih done
    rw [payoutFlow_cons]
    exact ⟨(add_assoc _ _ _).symm, by simpa using ⟨nonneg, others⟩⟩

private theorem assetPaid_recorded (payouts payments : List (Payment Address)) (asset : Address) :
    assetPaid (payouts.reverse ++ payments) asset = assetPaid payouts asset + assetPaid payments asset := by
  simp [assetPaid, List.sum_reverse]

private theorem assetPaid_nonneg (nonneg : ∀ payment ∈ payouts, 0 ≤ payment.amount) (asset : Address) :
    0 ≤ assetPaid payouts asset := by
  apply List.sum_nonneg
  intro amount member
  obtain ⟨payment, paid, rfl⟩ := List.mem_map.mp member
  split
  · exact nonneg payment paid
  · exact le_rfl

/-- Payments that the contract's balances cover in total all succeed. -/
private theorem payAll_of_enough (nonneg : ∀ payment ∈ payouts, 0 ≤ payment.amount)
    (enough : ∀ asset, assetPaid payouts asset ≤ ledger asset contract) :
    payAll contract ledger payouts = .ok (ledger + payoutFlow contract payouts) := by
  induction payouts generalizing ledger with
  | nil => exact pure_ok.mpr (flow_nothing ledger).symm
  | cons payment rest ih =>
    have first : 0 ≤ payment.amount := nonneg payment (by simp)
    have others : ∀ later ∈ rest, 0 ≤ later.amount := fun later member => nonneg later (by simp [member])
    have split : ∀ asset, assetPaid (payment :: rest) asset =
        (if payment.asset = asset then payment.amount else 0) + assetPaid rest asset := by
      intro asset
      simp [assetPaid]
    simp only [payAll, bind_ok, transfer_flow]
    refine ⟨_, ⟨first, ?_, rfl⟩, ?_⟩
    · have here := enough payment.asset
      have left := assetPaid_nonneg others payment.asset
      rw [split, if_pos rfl] at here
      omega
    · rw [payoutFlow_cons, ← add_assoc]
      apply ih others
      intro asset
      have here := enough asset
      rw [split] at here
      simp only [Pi.add_apply, flow]
      grind

/-- Payments raise every balance but the contract's own, which falls by what was paid at most. -/
private theorem payoutFlow_bounds (contract : Address) (nonneg : ∀ payment ∈ payouts, 0 ≤ payment.amount)
    (asset account : Address) :
    (account ≠ contract → 0 ≤ payoutFlow contract payouts asset account) ∧
      -assetPaid payouts asset ≤ payoutFlow contract payouts asset contract := by
  induction payouts with
  | nil => simp [payoutFlow, assetPaid]
  | cons payment rest ih =>
    have first : 0 ≤ payment.amount := nonneg payment (by simp)
    obtain ⟨others, own⟩ := ih fun later member => nonneg later (by simp [member])
    have split : assetPaid (payment :: rest) asset =
        (if payment.asset = asset then payment.amount else 0) + assetPaid rest asset := by simp [assetPaid]
    rw [payoutFlow_cons, split]
    simp only [Pi.add_apply, flow]
    grind

/-- What a deposit adds to each balance. -/
def depositFlow (asset sender contract : Address) : Option Int → Ledger Address
  | some amount => flow asset sender contract amount
  | none => 0

private theorem takeDeposit_ok {w : World Address} {asset sender : Address} {deposit : Option Int} :
    takeDeposit w asset sender deposit = .ok after ↔
      (∀ amount, deposit = some amount → 0 ≤ amount ∧ amount ≤ w.ledger asset sender) ∧
        w.ledger + depositFlow asset sender w.self deposit = after := by
  cases deposit with
  | none => simp [takeDeposit, depositFlow, pure_ok]
  | some amount =>
    simp only [takeDeposit, transfer_flow, depositFlow, Option.some.injEq, forall_eq', and_assoc]

private theorem depositFlow_bounds (asset : Address) {sender : Address} {deposit : Option Int}
    (nonneg : ∀ amount, deposit = some amount → 0 ≤ amount) (outside : sender ≠ contract) (token account : Address) :
    (account ≠ sender → 0 ≤ depositFlow asset sender contract deposit token account) ∧
      0 ≤ depositFlow asset sender contract deposit token contract := by
  cases deposit with
  | none => simp [depositFlow]
  | some amount =>
    have positive := nonneg amount rfl
    simp only [depositFlow, flow]
    grind

end Transfers

section Carried
variable {w after : World Address} {poolId : Nat} {sender : Address} {pool : PoolInfo Address} {plan : Plan Address}

/-- What a plan adds to each balance. -/
def planFlow (contract : Address) (pool : PoolInfo Address) (sender : Address) (plan : Plan Address) : Ledger Address :=
  depositFlow pool.asset sender contract plan.deposit + payoutFlow contract plan.payouts

/-- What must hold of the balances and the total for a plan to be carried out. -/
private theorem carryOut_flow (done : carryOut w poolId sender pool plan = .ok after) :
    w.settled poolId sender pool plan (w.ledger + planFlow w.self pool sender plan) = after ∧
      (∀ amount, plan.deposit = some amount → 0 ≤ amount ∧ amount ≤ w.ledger pool.asset sender) ∧
      (∀ payment ∈ plan.payouts, 0 ≤ payment.amount) ∧
      (plan.delta ≠ 0 → i128Min ≤ pool.totalStaked + plan.delta ∧ pool.totalStaked + plan.delta ≤ i128Max) := by
  obtain ⟨deposited, ledger, taken, moved, fits, rfl⟩ := carryOut_ok.mp done
  obtain ⟨funds, rfl⟩ := takeDeposit_ok.mp taken
  obtain ⟨rfl, nonneg⟩ := payAll_flow moved
  refine ⟨?_, funds, nonneg, fits⟩
  rw [planFlow, add_assoc]

private theorem carryOut_of_enough
    (funds : ∀ amount, plan.deposit = some amount → 0 ≤ amount ∧ amount ≤ w.ledger pool.asset sender)
    (outside : sender ≠ w.self) (nonneg : ∀ payment ∈ plan.payouts, 0 ≤ payment.amount)
    (fits : plan.delta ≠ 0 → i128Min ≤ pool.totalStaked + plan.delta ∧ pool.totalStaked + plan.delta ≤ i128Max)
    (enough : ∀ asset, assetPaid plan.payouts asset ≤ w.ledger asset w.self) :
    ∃ after, carryOut w poolId sender pool plan = .ok after := by
  have taken := takeDeposit_ok.mpr ⟨funds, rfl⟩
  have covered : ∀ asset, assetPaid plan.payouts asset ≤
      (w.ledger + depositFlow pool.asset sender w.self plan.deposit) asset w.self := by
    intro asset
    have more := (depositFlow_bounds pool.asset (fun amount same => (funds amount same).1) outside asset w.self).2
    have here := enough asset
    simp only [Pi.add_apply]
    omega
  exact ⟨_, carryOut_ok.mpr ⟨_, _, taken, payAll_of_enough nonneg covered, fits, rfl⟩⟩

/-- What another user's settlement makes of a pool record. -/
def PoolInfo.beside (pool : PoolInfo Address) (poolId other : Nat) (plan : Plan Address) (now : Nat) :
    PoolInfo Address :=
  if poolId = other then pool.settled plan now else pool

omit [DecidableEq Address] in
private theorem beside_asset (other : Nat) (now : Nat) : (pool.beside poolId other plan now).asset = pool.asset := by
  unfold PoolInfo.beside
  split <;> rfl

/-- After another user's settlement a call finds its pool, perhaps already accrued, and plans as before. -/
private theorem plan_beside (ledger : Ledger Address) {other : Nat} {user : Address} {pool' : PoolInfo Address}
    (found : w.pools.lookup poolId = some pool) (accrued : accrue pool w.now = .ok plan.acc)
    (found' : w.pools.lookup other = some pool') (users : user ≠ sender) (call : Call Address) :
    (w.settled poolId sender pool plan ledger).pools.lookup other = some (pool'.beside other poolId plan w.now) ∧
      planOf call (pool'.beside other poolId plan w.now)
          ((w.settled poolId sender pool plan ledger).stakes.lookup (other, user)) w.now =
        planOf call pool' (w.stakes.lookup (other, user)) w.now := by
  have entry : (w.settled poolId sender pool plan ledger).stakes.lookup (other, user) =
      w.stakes.lookup (other, user) := by
    simp only [World.settled, lookup_apply]
    rw [if_neg fun same => users (Prod.mk.inj same).2]
  rw [entry]
  by_cases same : other = poolId
  · subst same
    rw [found] at found'
    cases found'
    simp only [PoolInfo.beside, ↓reduceIte]
    exact ⟨AList.lookup_insert _, planOf_after accrued⟩
  · simp only [PoolInfo.beside, same, ↓reduceIte, and_true]
    simp only [World.settled]
    rw [AList.lookup_insert_ne same]
    exact found'

/-- The world after both plans. -/
private theorem settled_beside {other : Nat} {user : Address} {pool' : PoolInfo Address} {plan' : Plan Address}
    {ledger : Ledger Address} {auths : List Address} {call : Call Address} {both : World Address}
    (found : w.pools.lookup poolId = some pool) (accrued : accrue pool w.now = .ok plan.acc)
    (found' : w.pools.lookup other = some pool') (users : user ≠ sender) (who : call.settles = some (other, user))
    (planned : planOf call pool' (w.stakes.lookup (other, user)) w.now = .ok plan')
    (done : exec (w.settled poolId sender pool plan ledger) auths call = .ok both) :
    (w.settled poolId sender pool plan ledger).settled other user (pool'.beside other poolId plan w.now) plan'
        (ledger + planFlow w.self pool' user plan') = both ∧
      (plan'.delta ≠ 0 → i128Min ≤ (pool'.beside other poolId plan w.now).totalStaked + plan'.delta ∧
        (pool'.beside other poolId plan w.now).totalStaked + plan'.delta ≤ i128Max) := by
  obtain ⟨later, replanned⟩ := plan_beside ledger found accrued found' users call
  obtain ⟨-, -, _, _, foundAfter, plannedAfter, carried⟩ := (settling_iff who).mp done
  rw [later] at foundAfter
  cases foundAfter
  have same := plannedAfter.symm.trans (replanned.trans planned)
  cases same
  obtain ⟨rfl, -, -, fits⟩ := carryOut_flow carried
  refine ⟨?_, fits⟩
  simp only [planFlow, beside_asset]
  rfl

/-- A plan lowers no balance but its sender's and the contract's own, and the latter by its payments at most. -/
private theorem planFlow_bounds (contract : Address)
    (deposit : ∀ amount, plan.deposit = some amount → 0 ≤ amount ∧ amount ≤ w.ledger pool.asset sender)
    (nonneg : ∀ payment ∈ plan.payouts, 0 ≤ payment.amount) (outside : sender ≠ contract) (asset account : Address) :
    (account ≠ sender → account ≠ contract → 0 ≤ planFlow contract pool sender plan asset account) ∧
      -assetPaid plan.payouts asset ≤ planFlow contract pool sender plan asset contract := by
  have deposited := depositFlow_bounds pool.asset (fun amount same => (deposit amount same).1) outside asset account
  have paid := payoutFlow_bounds contract nonneg asset account
  simp only [planFlow, Pi.add_apply]
  constructor
  · intro notSender notContract
    have more := deposited.1 notSender
    have rest := paid.1 notContract
    omega
  · omega

omit [DecidableEq Address] in
/-- The totals fit in the other order when they fit in this one. -/
private theorem fits_beside {other : Nat} {pool' : PoolInfo Address} {plan' : Plan Address} {now : Nat}
    (found : w.pools.lookup poolId = some pool) (found' : w.pools.lookup other = some pool')
    (fits : plan.delta ≠ 0 → i128Min ≤ pool.totalStaked + plan.delta ∧ pool.totalStaked + plan.delta ≤ i128Max)
    (fits' : plan'.delta ≠ 0 → i128Min ≤ (pool'.beside other poolId plan now).totalStaked + plan'.delta ∧
      (pool'.beside other poolId plan now).totalStaked + plan'.delta ≤ i128Max) (moved : plan.delta ≠ 0) :
    i128Min ≤ (pool.beside poolId other plan' now).totalStaked + plan.delta ∧
      (pool.beside poolId other plan' now).totalStaked + plan.delta ≤ i128Max := by
  by_cases same : poolId = other
  · subst same
    rw [found] at found'
    cases found'
    simp only [PoolInfo.beside, ↓reduceIte, PoolInfo.settled] at fits' ⊢
    by_cases still : plan'.delta = 0
    · rw [still, add_zero]
      exact fits moved
    · rw [add_right_comm]
      exact fits' still
  · simp only [PoolInfo.beside, same, ↓reduceIte]
    exact fits moved

/-- Plans of different users leave the same records in either order. -/
private theorem settled_swap {other : Nat} {user : Address} {pool' : PoolInfo Address} {plan' : Plan Address}
    {first second : Ledger Address} (found : w.pools.lookup poolId = some pool)
    (accrued : accrue pool w.now = .ok plan.acc) (found' : w.pools.lookup other = some pool')
    (accrued' : accrue pool' w.now = .ok plan'.acc) (users : user ≠ sender) {one two : Ledger Address}
    (balances : one = two) :
    SameOutcome
      ((w.settled poolId sender pool plan first).settled other user (pool'.beside other poolId plan w.now) plan' one)
      ((w.settled other user pool' plan' second).settled poolId sender (pool.beside poolId other plan' w.now) plan
        two) := by
  refine ⟨?_, ?_, balances, ?_, rfl, rfl, rfl, rfl, rfl⟩
  · intro id
    simp only [World.settled]
    by_cases same : other = poolId
    · subst same
      rw [found] at found'
      cases found'
      have equal : plan.acc = plan'.acc := Except.ok.inj (accrued.symm.trans accrued')
      by_cases here : id = other
      · subst here
        simp [PoolInfo.beside, PoolInfo.settled, equal, add_right_comm]
      · simp [AList.lookup_insert_ne here]
    · have same' : poolId ≠ other := fun equal => same equal.symm
      simp only [PoolInfo.beside, same, same', ↓reduceIte]
      by_cases here : id = other
      · subst here
        simp [AList.lookup_insert_ne same]
      · by_cases there : id = poolId
        · subst there
          simp [AList.lookup_insert_ne here]
        · simp [AList.lookup_insert_ne here, AList.lookup_insert_ne there]
  · intro key
    have distinct : (other, user) ≠ (poolId, sender) := fun same => users (Prod.mk.inj same).2
    simp only [World.settled, lookup_apply, distinct, distinct.symm, ↓reduceIte]
    by_cases here : key = (other, user)
    · subst here
      simp [distinct]
    · simp [here]
  · exact List.perm_append_comm_assoc _ _ _

end Carried

/-- Two users' stake, claim or withdraw calls at one ledger time, each able to go
first and successful in one order: when the contract holds enough for both, the
other order succeeds too, and whenever it does both orders end alike. -/
theorem same_time_calls_commute {w first both second : World Address} {auths auths' : List Address}
    {call call' : Call Address} {poolId poolId' : Nat} {user user' : Address}
    (who : call.settles = some (poolId, user)) (who' : call'.settles = some (poolId', user'))
    (users : user ≠ user') (one : exec w auths call = .ok first) (two : exec first auths' call' = .ok both)
    (alone : exec w auths' call' = .ok second) :
    (Enough w first second → ∃ other, exec second auths call = .ok other) ∧
      ∀ other, exec second auths call = .ok other → SameOutcome both other := by
  obtain ⟨signed, outside, pool, plan, found, planned, carried⟩ := (settling_iff who).mp one
  obtain ⟨-, outside', pool', plan', found', planned', carried'⟩ := (settling_iff who').mp alone
  obtain ⟨rfl, deposit, nonneg, fits⟩ := carryOut_flow carried
  obtain ⟨rfl, deposit', nonneg', -⟩ := carryOut_flow carried'
  have accrued := planOf_acc planned
  have accrued' := planOf_acc planned'
  obtain ⟨rfl, fits'⟩ := settled_beside found accrued found' users.symm who' planned' two
  refine ⟨fun enough => ?_, fun other done => ?_⟩
  · obtain ⟨later, replanned⟩ := plan_beside (w.ledger + planFlow w.self pool' user' plan') found' accrued' found users
      call
    have bounds := planFlow_bounds w.self deposit' nonneg' outside'
    have carries : ∃ other, carryOut (w.settled poolId' user' pool' plan' (w.ledger + planFlow w.self pool' user' plan'))
        poolId user (pool.beside poolId poolId' plan' w.now) plan = .ok other := by
      refine carryOut_of_enough ?_ outside nonneg (fits_beside found found' fits fits') ?_
      · intro amount same
        obtain ⟨positive, held⟩ := deposit amount same
        have more := (bounds pool.asset user).1 users outside
        rw [beside_asset]
        refine ⟨positive, ?_⟩
        simp only [World.settled, Pi.add_apply]
        omega
      · intro asset
        have covered := enough asset
        have more := (bounds asset user).2
        simp only [World.settled, assetPaid_recorded] at covered
        simp only [World.settled, Pi.add_apply]
        omega
    obtain ⟨other, carried⟩ := carries
    exact ⟨other, (settling_iff who).mpr ⟨signed, outside, _, plan, later, replanned.trans planned, carried⟩⟩
  · obtain ⟨rfl, -⟩ := settled_beside found' accrued' found users who planned done
    apply settled_swap found accrued found' accrued' users.symm
    rw [add_assoc, add_assoc, add_comm (planFlow w.self pool user plan)]

/-- A call that succeeds leaves what the step leaves. -/
theorem exec_step {w : World Address} {auths : List Address} {call : Call Address}
    (succeeds : (exec w auths call).isOk) : exec w auths call = .ok (step w (.call auths call)) := by
  cases done : exec w auths call with
  | error text => simp [done, Except.isOk, Except.toBool] at succeeds
  | ok after => simp [step, done]

/-- Token 1, administrator 2, treasury 3; stakers 4 and 5 share a funded pool. -/
def sharedPool : World Nat :=
  Runs.run step (World.deployed 0 0 fun _ _ => 0)
    [.token (.mint 1 0 1000000), .token (.mint 1 4 10000), .token (.mint 1 5 20000), .call [2] (.initializeAdmin 2),
      .call [2] (.createPool 2 1 3 1000), .call [4] (.stake 4 1 10000 86400), .call [5] (.stake 5 1 5000 86400),
      .advance 60]

/-- One staker withdraws early while the other adds to the stake. -/
theorem sharedPool_commutes :
    let w := sharedPool
    let withdrawal : Call Nat := .withdraw 4 1 3000
    let addition : Call Nat := .stake 5 1 7000 86400
    let both := step (step w (.call [4] withdrawal)) (.call [5] addition)
    (exec (step w (.call [5] addition)) [4] withdrawal).isOk ∧
      ∀ other, exec (step w (.call [5] addition)) [4] withdrawal = .ok other → SameOutcome both other := by
  intro w withdrawal addition both
  refine ⟨by decide +kernel, ?_⟩
  have one : exec w [4] withdrawal = .ok (step w (.call [4] withdrawal)) := exec_step (by decide +kernel)
  have two : exec (step w (.call [4] withdrawal)) [5] addition = .ok both := exec_step (by decide +kernel)
  have alone : exec w [5] addition = .ok (step w (.call [5] addition)) := exec_step (by decide +kernel)
  exact (same_time_calls_commute rfl rfl (by decide) one two alone).2

end AfroPay.Staking
