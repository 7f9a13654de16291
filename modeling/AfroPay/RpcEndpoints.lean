import AfroPay.KeyedStore
import AfroPay.Runs
import Mathlib.Data.List.Sort
import Mathlib.Data.Rat.Cast.Order
import Mathlib.Algebra.Order.Sub.Unbundled.Basic

/-! The pools of RPC endpoints: `RpcPool` of the worker and `RpcClientService` of the API. They
are one design written twice, so what they share is written once and what they do differently
is an `Implementation`. An endpoint is named by its place in the pool. Weights and balances are
exact, and time is counted in milliseconds. -/
namespace AfroPay.Rpc
open KeyedStore

inductive RpcEndpointKind where
  | horizon
  | soroban
  deriving DecidableEq

inductive RpcHealthStatus where
  | healthy
  | degraded
  | unhealthy
  | rateLimited
  deriving DecidableEq

structure RpcEndpointConfig where
  id : String
  kind : RpcEndpointKind
  weight : ℚ
  deriving DecidableEq

/-- The worker's heights are unsigned integers and the API's are numbers. -/
structure RpcEndpointState (Height : Type) where
  config : RpcEndpointConfig
  status : RpcHealthStatus
  latencyMs : Option Nat
  blockHeight : Option Height
  consecutiveFailures : Nat
  lastError : Option String
  rateLimitedUntil : Option Nat
  routingBalance : ℚ
  deriving DecidableEq

variable {Height : Type} {n : Nat}

scoped instance place_lawfulBEq : LawfulBEq (Fin n) := inferInstance

scoped instance twoPlaces_neZero : NeZero 2 := ⟨two_ne_zero⟩

/-- An endpoint that has not been tried yet. -/
def RpcEndpointConfig.fresh (config : RpcEndpointConfig) : RpcEndpointState Height :=
  ⟨config, .degraded, none, none, 0, none, none, 0⟩

/-- Healthy or degraded. -/
def RpcEndpointState.working (endpoint : RpcEndpointState Height) : Bool :=
  endpoint.status = .healthy ∨ endpoint.status = .degraded

abbrev Endpoints (n : Nat) (Height : Type) := Fin n → RpcEndpointState Height

def effectiveWeight (endpoint : RpcEndpointState Height) : ℚ :=
  endpoint.config.weight * (1000 / (max (endpoint.latencyMs.getD 1000) 1 : Nat))

/-- The heights remembered for a kind of endpoint, whatever has become of the endpoint. -/
def heights (endpoints : Endpoints n Height) (kind : RpcEndpointKind) : List Height :=
  (List.finRange n).filterMap fun i =>
    if (endpoints i).config.kind = kind then (endpoints i).blockHeight else none

def highestBlock [LinearOrder Height] (endpoints : Endpoints n Height) (kind : RpcEndpointKind) : Option Height :=
  (heights endpoints kind).max?

/-- More than `maxBlockLag` below the highest block, where both heights are known. -/
def RpcEndpointState.lags [LinearOrder Height] [Sub Height] (endpoint : RpcEndpointState Height)
    (highest : Option Height) (maxBlockLag : Height) : Bool :=
  match highest, endpoint.blockHeight with
  | some best, some height => maxBlockLag < best - height
  | _, _ => false

/-- A request or a poll that ended well. Only polls report a height. -/
def markSuccess (latencyMs : Nat) (height : Option Height) (endpoint : RpcEndpointState Height) :
    RpcEndpointState Height :=
  { endpoint with
    status := .healthy, latencyMs := some latencyMs, blockHeight := height.or endpoint.blockHeight
    consecutiveFailures := 0, lastError := none, rateLimitedUntil := none }

def markFailure (cooldown now : Nat) (error : String) (rateLimited : Bool) (endpoint : RpcEndpointState Height) :
    RpcEndpointState Height :=
  let failed := { endpoint with
    consecutiveFailures := endpoint.consecutiveFailures + 1, lastError := some error }
  if rateLimited then { failed with status := .rateLimited, rateLimitedUntil := some (now + cooldown) }
  else { failed with status := if 2 ≤ failed.consecutiveFailures then .unhealthy else .degraded }

/-- A second failure in a row takes an endpoint down. -/
theorem markFailure_down {endpoint : RpcEndpointState Height} (failed : 1 ≤ endpoint.consecutiveFailures)
    (cooldown now : Nat) (error : String) (rateLimited : Bool) :
    (markFailure cooldown now error rateLimited endpoint).working = false := by
  have twice : 2 ≤ endpoint.consecutiveFailures + 1 := by omega
  cases rateLimited <;> simp [markFailure, twice, RpcEndpointState.working]

theorem markFailure_limited (endpoint : RpcEndpointState Height) (cooldown now : Nat) (error : String) :
    (markFailure cooldown now error true endpoint).working = false := by
  simp [markFailure, RpcEndpointState.working]

/-- A rule that picks one of the candidates with the highest balance. -/
structure TieBreak where
  choose : {n : Nat} → (Fin n → ℚ) → Fin n → List (Fin n) → Fin n
  member : ∀ {n : Nat} (balance : Fin n → ℚ) (first : Fin n) (rest : List (Fin n)),
    choose balance first rest ∈ first :: rest
  highest : ∀ {n : Nat} (balance : Fin n → ℚ) (first : Fin n) (rest : List (Fin n)),
    ∀ i ∈ first :: rest, balance i ≤ balance (choose balance first rest)

/-- The places of a kind that a test lets through, in order. -/
def candidates (routable : RpcEndpointState Height → Bool) (endpoints : Endpoints n Height)
    (kind : RpcEndpointKind) : List (Fin n) :=
  (List.finRange n).filter fun i => (endpoints i).config.kind = kind ∧ routable (endpoints i)

/-- The order of the ranking: the selected endpoint before all others, and these by falling weight. -/
def ranksBefore (endpoints : Endpoints n Height) (selected : Fin n) (left right : Fin n) : Prop :=
  left = selected ∨ right ≠ selected ∧ effectiveWeight (endpoints right) ≤ effectiveWeight (endpoints left)

instance (endpoints : Endpoints n Height) (selected : Fin n) : DecidableRel (ranksBefore endpoints selected) :=
  fun _ _ => inferInstanceAs (Decidable (_ ∨ _))

/-- The balances of the candidates raised by their weights, and the total charged to the selected one. -/
def charge (endpoints : Endpoints n Height) (ranked : List (Fin n)) (select : (Fin n → ℚ) → Fin n) :
    Fin n × Endpoints n Height :=
  let total := (ranked.map fun i => effectiveWeight (endpoints i)).sum
  let raised : Endpoints n Height := fun i =>
    if i ∈ ranked then
      { endpoints i with routingBalance := (endpoints i).routingBalance + effectiveWeight (endpoints i) }
    else endpoints i
  let selected := select fun i => (raised i).routingBalance
  (selected, Function.update raised selected
    { raised selected with routingBalance := (raised selected).routingBalance - total })

/-- The candidates, best first, and the endpoints with their new balances. -/
def rank (tieBreak : TieBreak) (routable : RpcEndpointState Height → Bool) (endpoints : Endpoints n Height)
    (kind : RpcEndpointKind) : List (Fin n) × Endpoints n Height :=
  match candidates routable endpoints kind with
  | first :: second :: rest =>
    let ranked := first :: second :: rest
    let charged := charge endpoints ranked fun balance => tieBreak.choose balance first (second :: rest)
    (ranked.insertionSort (ranksBefore endpoints charged.1), charged.2)
  | few => (few, endpoints)

/-- The endpoints are the same but for their routing balances. -/
def SameButBalance (left right : Endpoints n Height) : Prop :=
  ∀ i, { left i with routingBalance := 0 } = { right i with routingBalance := 0 }

theorem sameButBalance_refl (endpoints : Endpoints n Height) : SameButBalance endpoints endpoints := fun _ => rfl

theorem SameButBalance.trans {left middle right : Endpoints n Height} (first : SameButBalance left middle)
    (second : SameButBalance middle right) : SameButBalance left right :=
  fun i => (first i).trans (second i)

theorem status_of_same {left right : RpcEndpointState Height}
    (same : { left with routingBalance := 0 } = { right with routingBalance := 0 }) : left.status = right.status := by
  simpa using congrArg RpcEndpointState.status same

theorem working_of_status {left right : RpcEndpointState Height} (same : left.status = right.status) :
    left.working = right.working := by
  rw [RpcEndpointState.working, RpcEndpointState.working, same]

theorem charge_keeps (endpoints : Endpoints n Height) (ranked : List (Fin n)) (select : (Fin n → ℚ) → Fin n) :
    SameButBalance (charge endpoints ranked select).2 endpoints := by
  intro i
  simp only [charge, Function.update_apply]
  split
  · rename_i same
    rw [same]
    split <;> rfl
  · split <;> rfl

theorem mem_candidates {routable : RpcEndpointState Height → Bool} {endpoints : Endpoints n Height}
    {kind : RpcEndpointKind} {i : Fin n} :
    i ∈ candidates routable endpoints kind ↔
      (endpoints i).config.kind = kind ∧ routable (endpoints i) = true := by
  simp [candidates]

theorem candidates_nodup (routable : RpcEndpointState Height → Bool) (endpoints : Endpoints n Height)
    (kind : RpcEndpointKind) : (candidates routable endpoints kind).Nodup :=
  (List.nodup_finRange n).filter _

theorem rank_perm (tieBreak : TieBreak) (routable : RpcEndpointState Height → Bool) (endpoints : Endpoints n Height)
    (kind : RpcEndpointKind) :
    (rank tieBreak routable endpoints kind).1.Perm (candidates routable endpoints kind) := by
  unfold rank
  split
  · rename_i first second rest shape
    rw [shape]
    exact List.perm_insertionSort _ _
  · exact List.Perm.refl _

theorem rank_keeps (tieBreak : TieBreak) (routable : RpcEndpointState Height → Bool) (endpoints : Endpoints n Height)
    (kind : RpcEndpointKind) : SameButBalance (rank tieBreak routable endpoints kind).2 endpoints := by
  unfold rank
  split
  · rename_i first second rest _
    exact charge_keeps endpoints (first :: second :: rest) fun balance => tieBreak.choose balance first (second :: rest)
  · exact sameButBalance_refl endpoints

/-- With at most one candidate there is nothing to balance. -/
theorem rank_few (tieBreak : TieBreak) {routable : RpcEndpointState Height → Bool} {endpoints : Endpoints n Height}
    {kind : RpcEndpointKind} (few : (candidates routable endpoints kind).length ≤ 1) :
    (rank tieBreak routable endpoints kind).2 = endpoints := by
  unfold rank
  split
  · rename_i shape
    rw [shape] at few
    simp at few
  · rfl

end AfroPay.Rpc
