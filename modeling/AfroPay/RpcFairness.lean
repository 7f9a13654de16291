import AfroPay.RpcPools
import AfroPay.SmoothRoundRobin
import Mathlib.Data.Finset.Card

/-! The shares of the traffic. As long as the routable endpoints of a kind and their weights stay
the same, every ranking is a round of smooth weighted round-robin, whichever of several highest
balances it takes. -/
namespace AfroPay.Rpc
open Runs SmoothRoundRobin

variable {Height : Type} {n : Nat}

/-- A call of the ranking: its time, and what became of the endpoints since the call before. Only
rankings move balances. -/
structure Call (n : Nat) (Height : Type) where
  now : Nat
  change : Endpoints n Height → Endpoints n Height
  keeps : ∀ endpoints i, (change endpoints i).routingBalance = (endpoints i).routingBalance

theorem head_insertionSort {α : Type*} {r : α → α → Prop} [DecidableRel r] {least : α} {items : List α}
    (member : least ∈ items) (before : ∀ item, r least item) (only : ∀ item, r item least → item = least) :
    (items.insertionSort r).head? = some least := by
  induction items with
  | nil => cases member
  | cons item rest ih =>
    rw [List.insertionSort_cons]
    cases shape : rest.insertionSort r with
    | nil =>
      have empty : rest = [] := by
        have perm := List.perm_insertionSort r rest
        rw [shape] at perm
        exact (List.nil_perm.mp perm)
      rw [empty, List.mem_singleton] at member
      simp [member]
    | cons first others =>
      rw [List.orderedInsert_cons]
      by_cases here : least ∈ rest
      · have head := ih here
        rw [shape, List.head?_cons, Option.some_inj] at head
        subst head
        split
        · rename_i ordered
          simp [only item ordered]
        · rfl
      · have same : item = least := (List.mem_cons.mp member).resolve_right here |>.symm
        rw [same, if_pos (before first)]
        rfl

/-- What a charge leaves on the balances of the candidates. -/
theorem charge_balance {endpoints : Endpoints n Height} {ranked : List (Fin n)} {select : (Fin n → ℚ) → Fin n}
    (unique : ranked.Nodup) {i : Fin n} (member : i ∈ ranked) :
    ((charge endpoints ranked select).2 i).routingBalance =
      (endpoints i).routingBalance + effectiveWeight (endpoints i) -
        if i = (charge endpoints ranked select).1 then ∑ j ∈ ranked.toFinset, effectiveWeight (endpoints j) else 0 := by
  have total : ∑ j ∈ ranked.toFinset, effectiveWeight (endpoints j) =
      (ranked.map fun j => effectiveWeight (endpoints j)).sum := List.sum_toFinset _ unique
  rw [total]
  by_cases same : i = (charge endpoints ranked select).1
  · rw [if_pos same]
    simp only [charge] at same ⊢
    rw [← same]
    rw [Function.update_self, if_pos member]
  · rw [if_neg same]
    simp only [charge] at same ⊢
    rw [Function.update_of_ne same, if_pos member, sub_zero]

/-- The charged candidate has the highest raised balance when `select` finds one. -/
theorem charge_highest {endpoints : Endpoints n Height} {ranked : List (Fin n)} {select : (Fin n → ℚ) → Fin n}
    (highest : ∀ balance : Fin n → ℚ, ∀ i ∈ ranked, balance i ≤ balance (select balance))
    (chosen : (charge endpoints ranked select).1 ∈ ranked) {i : Fin n} (member : i ∈ ranked) :
    (endpoints i).routingBalance + effectiveWeight (endpoints i) ≤
      (endpoints (charge endpoints ranked select).1).routingBalance +
        effectiveWeight (endpoints (charge endpoints ranked select).1) := by
  have raised := highest (fun j => ((if j ∈ ranked then
      { endpoints j with routingBalance := (endpoints j).routingBalance + effectiveWeight (endpoints j) }
    else endpoints j : RpcEndpointState Height)).routingBalance) i member
  simp only [charge] at chosen ⊢
  rwa [if_pos member, if_pos chosen] at raised

section Rank
variable {tieBreak : TieBreak} {routable : RpcEndpointState Height → Bool} {endpoints : Endpoints n Height}
variable {kind : RpcEndpointKind}

/-- Among several candidates one with the highest raised balance comes first and is charged the
total weight. -/
theorem rank_round (several : 2 ≤ (candidates routable endpoints kind).length) :
    ∃ first rest, (rank tieBreak routable endpoints kind).1 = first :: rest ∧
      Round (candidates routable endpoints kind).toFinset (fun i => effectiveWeight (endpoints i))
        (fun i => (endpoints i).routingBalance) first
        (fun i => ((rank tieBreak routable endpoints kind).2 i).routingBalance) := by
  have unique := candidates_nodup routable endpoints kind
  unfold rank
  split
  case h_2 few =>
    exfalso
    cases shape : candidates routable endpoints kind with
    | nil => simp [shape] at several
    | cons first rest =>
      cases rest with
      | nil => simp [shape] at several
      | cons second rest => exact few first second rest shape
  case h_1 first second rest shape =>
    rw [shape] at unique
    rw [shape]
    generalize select : (fun balance : Fin n → ℚ => tieBreak.choose balance first (second :: rest)) = choose
    have chosen : (charge endpoints (first :: second :: rest) choose).1 ∈ first :: second :: rest := by
      rw [← select]
      exact tieBreak.member _ _ _
    have head := @head_insertionSort _ (ranksBefore endpoints (charge endpoints (first :: second :: rest) choose).1) _
      _ (first :: second :: rest) chosen (fun _ => .inl rfl) (fun item ordered => by
        rcases ordered with same | ⟨other, -⟩
        · exact same
        · exact absurd rfl other)
    obtain ⟨others, sorted⟩ := List.head?_eq_some_iff.mp head
    refine ⟨_, others, sorted, List.mem_toFinset.mpr chosen, fun i member => ?_, fun i member => ?_⟩
    · refine charge_highest (fun balance j held => ?_) chosen (List.mem_toFinset.mp member)
      rw [← select]
      exact tieBreak.highest balance first (second :: rest) j held
    · exact charge_balance unique (List.mem_toFinset.mp member)

end Rank

section Calls
variable [LinearOrder Height] [Sub Height] [Zero Height]
variable (implementation : Implementation Height) (settings : Settings Height) (kind : RpcEndpointKind)

/-- The endpoints after a call. -/
def select (endpoints : Endpoints n Height) (call : Call n Height) : Endpoints n Height :=
  (implementation.rank settings call.now (call.change endpoints) kind).2

/-- The list that a call returns. -/
def order (endpoints : Endpoints n Height) (call : Call n Height) : List (Fin n) :=
  (implementation.rank settings call.now (call.change endpoints) kind).1

/-- The lists that calls return one after another. -/
def orders (start : Endpoints n Height) (calls : List (Call n Height)) : List (List (Fin n)) :=
  journal (select implementation settings kind)
    (fun endpoints call => some (order implementation settings kind endpoints call)) start calls

/-- A call finds the given endpoints routable and no others, with the given weights. -/
def Steady (members : Finset (Fin n)) (weight : Fin n → ℚ) (endpoints : Endpoints n Height) (call : Call n Height) :
    Prop :=
  let ready := call.change endpoints
  (candidates (implementation.routable settings ready call.now kind) ready kind).toFinset = members ∧
    ∀ i ∈ members, effectiveWeight (ready i) = weight i

instance (members : Finset (Fin n)) (weight : Fin n → ℚ) (endpoints : Endpoints n Height) (call : Call n Height) :
    Decidable (Steady implementation settings kind members weight endpoints call) :=
  inferInstanceAs (Decidable (_ ∧ _))

/-- Smooth weighted round-robin over a fixed set of routable endpoints, from zero balances. -/
structure Fair (members : Finset (Fin n)) (weight : Fin n → ℚ) (start : Endpoints n Height)
    (calls : List (Call n Height)) : Prop where
  sum_zero : ∑ i ∈ members, (run (select implementation settings kind) start calls i).routingBalance = 0
  above : ∀ i ∈ members, -∑ j ∈ members, weight j <
    (run (select implementation settings kind) start calls i).routingBalance
  permutation : ∀ order ∈ orders implementation settings kind start calls, (order : Multiset (Fin n)) = members.val
  cycles : ∀ shares : Fin n → ℕ, (∀ i ∈ members, weight i = shares i) →
    ∀ m, calls.length = m * ∑ i ∈ members, shares i → ∀ i ∈ members,
      (run (select implementation settings kind) start calls i).routingBalance = 0 ∧
        ((orders implementation settings kind start calls).filterMap List.head?).count i = m * shares i

/-- Every sequence of rankings over a fixed set of two or more routable endpoints with fixed
positive weights is fair. -/
def FairRouting : Prop :=
  ∀ (n : Nat) (settings : Settings Height) (kind : RpcEndpointKind) (members : Finset (Fin n)) (weight : Fin n → ℚ)
    (start : Endpoints n Height) (calls : List (Call n Height)), 2 ≤ members.card → (∀ i ∈ members, 0 < weight i) →
    (∀ i ∈ members, (start i).routingBalance = 0) →
    Throughout (select implementation settings kind) (Steady implementation settings kind members weight) start calls →
    Fair implementation settings kind members weight start calls

variable {implementation settings kind} {members : Finset (Fin n)} {weight : Fin n → ℚ}
variable {endpoints start : Endpoints n Height} {call : Call n Height} {calls : List (Call n Height)}

theorem Steady.order_perm (steady : Steady implementation settings kind members weight endpoints call) :
    (order implementation settings kind endpoints call : Multiset (Fin n)) = members.val := by
  have perm := rank_perm implementation.tieBreak
    (implementation.routable settings (call.change endpoints) call.now kind) (call.change endpoints) kind
  rw [← steady.1, List.toFinset_val, (candidates_nodup _ _ _).dedup]
  exact Multiset.coe_eq_coe.mpr perm

theorem Steady.round (steady : Steady implementation settings kind members weight endpoints call)
    (several : 2 ≤ members.card) :
    ∃ first rest, order implementation settings kind endpoints call = first :: rest ∧
      Round members weight (fun i => (endpoints i).routingBalance) first
        (fun i => (select implementation settings kind endpoints call i).routingBalance) := by
  have enough : 2 ≤ (candidates (implementation.routable settings (call.change endpoints) call.now kind)
      (call.change endpoints) kind).length := by
    rw [← List.toFinset_card_of_nodup (candidates_nodup _ _ _), steady.1]
    exact several
  obtain ⟨first, rest, shape, round⟩ := @rank_round _ _ implementation.tieBreak _ _ _ enough
  rw [steady.1] at round
  simp only [call.keeps] at round
  exact ⟨first, rest, shape, round.congr steady.2⟩

theorem rounds_of_steady (several : 2 ≤ members.card)
    (steady : Throughout (select implementation settings kind)
      (Steady implementation settings kind members weight) start calls) :
    Rounds members weight (fun i => (start i).routingBalance)
        ((orders implementation settings kind start calls).filterMap List.head?)
        (fun i => (run (select implementation settings kind) start calls i).routingBalance) ∧
      ((orders implementation settings kind start calls).filterMap List.head?).length = calls.length := by
  induction calls generalizing start with
  | nil => exact ⟨.none _, rfl⟩
  | cons call rest ih =>
    obtain ⟨first, others, shape, round⟩ := steady.1.round several
    obtain ⟨later, length⟩ := ih steady.2
    have next : orders implementation settings kind start (call :: rest) =
        order implementation settings kind start call ::
          orders implementation settings kind (select implementation settings kind start call) rest := rfl
    rw [next, shape, List.filterMap_cons_some (List.head?_cons ..), run_cons]
    exact ⟨.more round later, by simp [length]⟩

theorem orders_perm
    (steady : Throughout (select implementation settings kind)
      (Steady implementation settings kind members weight) start calls) :
    ∀ order ∈ orders implementation settings kind start calls, (order : Multiset (Fin n)) = members.val := by
  induction calls generalizing start with
  | nil => exact fun _ listed => nomatch listed
  | cons call rest ih =>
    intro listed member
    rcases List.mem_cons.mp member with rfl | later
    · exact steady.1.order_perm
    · exact ih steady.2 listed later

theorem fairRouting (implementation : Implementation Height) : FairRouting implementation := by
  intro n settings kind members weight start calls several positive zero steady
  obtain ⟨rounds, heads⟩ := rounds_of_steady several steady
  have bounded := rounds.bounded positive (bounded_zero positive zero)
  refine ⟨bounded.sum_zero, bounded.above, orders_perm steady, ?_⟩
  intro shares whole m full i member
  have sharesPos : ∀ j ∈ members, 0 < shares j := by
    intro j held
    have := positive j held
    rw [whole j held] at this
    exact_mod_cast this
  obtain ⟨counted, balance⟩ := (rounds.congr whole).cycles sharesPos zero (heads.trans full) member
  exact ⟨balance, counted⟩

/-- Whatever rule breaks ties, the worker's rankings and the API's are fair. -/
theorem routing_fair (tieBreak : TieBreak) :
    FairRouting rustPool ∧ FairRouting apiClient ∧
      FairRouting { rustPool with tieBreak := tieBreak } ∧ FairRouting { apiClient with tieBreak := tieBreak } :=
  ⟨fairRouting _, fairRouting _, fairRouting _, fairRouting _⟩

/-- Two endpoints of the worker, one with twice the weight of the other, over one cycle. -/
theorem routing_fair_pair :
    Fair rustPool ⟨3, 60000, Nat.zero_le 3⟩ .horizon Finset.univ (fun i => if i = 0 then 1 else 2)
      (fun i : Fin 2 => (⟨if i = 0 then "first" else "second", .horizon, if i = 0 then 1 else 2⟩ : RpcEndpointConfig).fresh)
      (List.replicate 3 ⟨0, id, fun _ _ => rfl⟩) :=
  (routing_fair takeLast).1 2 _ _ _ _ _ _ (by decide) (by decide) (by decide) (by decide +kernel)

end Calls

end AfroPay.Rpc
