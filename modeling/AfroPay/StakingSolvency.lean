import AfroPay.StakingBookkeeping

/-! Who backs the stakers' principal. Rewards leave the same balance the stakes
entered, and no call compares a reward with the principal it would eat into.
What the contract does keep is an account: its balance, the rewards it has paid,
the staked totals and the funding it received from outside always agree. -/
namespace AfroPay.Staking
open Panics KeyedStore TokenLedger Runs

variable {Address : Type} [DecidableEq Address]

/-- The principal owed in one asset: the staked totals of all its pools. -/
def principal (w : World Address) (asset : Address) : Int :=
  total w.pools fun _ pool => if pool.asset = asset then pool.totalStaked else 0

/-- What one event adds to the contract's balance from outside the contract. -/
def inflow (w : World Address) (event : Event Address) (asset : Address) : Int :=
  match event with
  | .token activity => activity.apply w.self w.ledger asset w.self - w.ledger asset w.self
  | _ => 0

/-- The extra funding a run brings in: donations and mints to the contract. -/
def funding (w : World Address) : List (Event Address) → Address → Int
  | [], _ => 0
  | event :: rest, asset => inflow w event asset + funding (step w event) rest asset

/-- Balance and paid rewards together account for the principal and the funds. -/
def Accounted (w : World Address) (asset : Address) (funds : Int) : Prop :=
  principal w asset + funds ≤ w.ledger asset w.self + assetRewards w.payments asset

/-- Overwriting a pool without touching its asset or staked total moves no principal. -/
theorem Accounted.setPool {w : World Address} {before pool : PoolInfo Address}
    (accounted : Accounted w asset funds) (found : w.pools.lookup poolId = some before)
    (token : pool.asset = before.asset) (staked : pool.totalStaked = before.totalStaked) :
    Accounted (w.setPool poolId pool) asset funds := by
  have same : principal (w.setPool poolId pool) asset = principal w asset := by
    simp only [principal, World.setPool, total_insert, contribution_some found, token, staked]
    ring
  unfold Accounted at accounted ⊢
  rw [same]
  exact accounted

theorem principal_created {w : World Address} (books : Books w) (token : Address) :
    principal ({ w with poolCounter := w.poolCounter + 1 }.setPool (w.poolCounter + 1)
      ⟨asset, treasury, rewardRate, 0, 0, w.now, true⟩) token = principal w token := by
  simp [principal, World.setPool, total_insert, contribution_none books.unused]

theorem principal_settled {w after : World Address}
    (settles : Settles w after poolId sender pool acc pending delta entry) (token : Address) :
    principal after token = principal w token + if token = pool.asset then delta else 0 := by
  simp only [principal, settles.pools_eq, total_insert, contribution_some settles.found]
  by_cases same : token = pool.asset
  · simp only [same, ↓reduceIte]
    ring
  · simp [same, Ne.symm same]

/-- A settlement moves the balance by the stake change and the reward, and
records the reward. -/
theorem accounted_settled {w after : World Address}
    (settles : Settles w after poolId sender pool acc pending delta entry)
    (accounted : Accounted w asset funds) : Accounted after asset funds := by
  have balance := settles.moves.balance asset
  have rewards := settles.moves.inAsset asset
  unfold Accounted at accounted ⊢
  rw [principal_settled settles, settles.self_eq, rewards]
  split at balance <;> simp_all <;> omega

theorem accounted_effect {w after : World Address} {call : Call Address} (books : Books w)
    (effect : Effect w call after) (accounted : Accounted w asset funds) :
    Accounted after asset funds := by
  cases effect with
  | administered => exact accounted
  | created _ rate =>
    unfold Accounted at accounted ⊢
    rw [principal_created books]
    exact accounted
  | deactivated pool _ found => exact accounted.setPool found rfl rfl
  | refreshed pool _ found accrued rate => exact accounted.setPool found rfl rfl
  | settled _ settles => exact accounted_settled settles accounted

theorem accounted_step {w : World Address} (books : Books w) (event : Event Address)
    (accounted : Accounted w asset funds) :
    Accounted (step w event) asset (funds + inflow w event asset) := by
  cases event with
  | call auths call =>
    simp only [step, inflow, add_zero]
    split
    · rename_i after ok
      exact accounted_effect books (exec_effect ok) accounted
    · exact accounted
  | advance seconds =>
    simp only [inflow, add_zero]
    exact accounted
  | token activity =>
    simp only [Accounted, step, inflow, principal] at accounted ⊢
    omega

theorem accounted_run {w : World Address} (books : Books w) (events : List (Event Address))
    (accounted : Accounted w asset funds) :
    Accounted (run step w events) asset (funds + funding w events asset) := by
  induction events generalizing w funds with
  | nil => simpa [funding] using accounted
  | cons event rest ih =>
    have later := ih (books_step books event) (accounted_step books event accounted)
    rw [add_assoc] at later
    exact later

theorem run_self (w : World Address) (events : List (Event Address)) : (run step w events).self = w.self := by
  refine run_invariant (fun after : World Address => after.self = w.self) ?_ rfl events
  intro after event same
  cases event with
  | call auths call =>
    simp only [step]
    split
    · rename_i next ok
      cases exec_effect ok with
      | settled _ settles => exact settles.self_eq.trans same
      | _ => exact same
    · exact same
  | advance seconds => exact same
  | token activity => exact same

/-- In every reachable world the contract's balance of an asset is at least the
principal staked in it plus the funds it holds for rewards, less the rewards
already paid; so the principal is whole as long as the rewards paid have not
exceeded those funds. -/
theorem balance_covers_principal_less_rewards (self : Address) (now : Nat) (ledger : Ledger Address)
    (events : List (Event Address)) (asset : Address) :
    let start := World.deployed self now ledger
    let w := run step start events
    let funds := ledger asset self + funding start events asset
    principal w asset + funds - assetRewards w.payments asset ≤ w.ledger asset self ∧
      (assetRewards w.payments asset ≤ funds → principal w asset ≤ w.ledger asset self) := by
  intro start w funds
  have initial : Accounted start asset (ledger asset self) := by
    simp [Accounted, start, World.deployed, principal, assetRewards]
  have final : Accounted w asset funds := accounted_run (books_deployed self now ledger) events initial
  have same : w.self = self := run_self start events
  unfold Accounted at final
  rw [same] at final
  exact ⟨by omega, fun _ => by omega⟩

/-- Token 1, administrator 2, treasury 3; staker 4 puts 10000 into a pool that
emits 1000 a second and claims five seconds later, with no reward funding. -/
def unfundedRun : List (Event Nat) :=
  [.token (.mint 1 4 10000), .call [2] (.initializeAdmin 2), .call [2] (.createPool 2 1 3 1000),
    .call [4] (.stake 4 1 10000 86400), .advance 5, .call [4] (.claimRewards 4 1)]

/-- The reward of the unfunded run is taken out of the staker's own principal. -/
theorem unfunded_reward_eats_principal :
    ¬ ∀ (events : List (Event Nat)) (asset : Nat),
      principal (run step (World.deployed 0 0 fun _ _ => 0) events) asset ≤
        (run step (World.deployed 0 0 fun _ _ => 0) events).ledger asset 0 := by
  intro solvent
  have broken : ¬ principal (run step (World.deployed 0 0 fun _ _ => 0) unfundedRun) 1 ≤
      (run step (World.deployed 0 0 fun _ _ => 0) unfundedRun).ledger 1 0 := by decide +kernel
  exact broken (solvent unfundedRun 1)

end AfroPay.Staking
