import Mathlib.Algebra.BigOperators.Group.Finset.Basic
import Mathlib.Algebra.BigOperators.Ring.Finset
import Mathlib.Algebra.Order.BigOperators.Group.Finset
import Mathlib.Algebra.Order.Archimedean.Basic
import Mathlib.Algebra.Order.Ring.Cast
import Mathlib.Tactic.Linarith
import Mathlib.Tactic.Ring

/-! Smooth weighted round-robin. In every round each member's balance rises by its weight, a
member with the highest balance is chosen, and the chosen one pays the total weight. Which of
several highest balances is chosen is left open. -/
namespace AfroPay.SmoothRoundRobin

variable {ι K : Type*} [DecidableEq ι] [CommRing K] [LinearOrder K]
variable {members : Finset ι} {weight : ι → K}

/-- One round, from the balances before it to those after it. Balances of others are not constrained. -/
structure Round (members : Finset ι) (weight balance : ι → K) (chosen : ι) (after : ι → K) : Prop where
  member : chosen ∈ members
  highest : ∀ i ∈ members, balance i + weight i ≤ balance chosen + weight chosen
  settled : ∀ i ∈ members, after i = balance i + weight i - if i = chosen then ∑ j ∈ members, weight j else 0

/-- Rounds one after another, with the members they choose. -/
inductive Rounds (members : Finset ι) (weight : ι → K) : (ι → K) → List ι → (ι → K) → Prop where
  | none (balance : ι → K) : Rounds members weight balance [] balance
  | more {balance between after : ι → K} {chosen : ι} {rest : List ι} (round : Round members weight balance chosen between)
      (later : Rounds members weight between rest after) : Rounds members weight balance (chosen :: rest) after

/-- Only the weights of the members count. -/
theorem Round.congr {other balance after : ι → K} {chosen : ι} (round : Round members weight balance chosen after)
    (same : ∀ i ∈ members, weight i = other i) : Round members other balance chosen after := by
  refine ⟨round.member, fun i member => ?_, fun i member => ?_⟩
  · rw [← same i member, ← same chosen round.member]
    exact round.highest i member
  · rw [round.settled i member, same i member, Finset.sum_congr rfl same]

theorem Round.sum_eq {balance after : ι → K} {chosen : ι} (round : Round members weight balance chosen after) :
    ∑ i ∈ members, after i = ∑ i ∈ members, balance i := by
  have paid : ∑ i ∈ members, (if i = chosen then ∑ j ∈ members, weight j else 0) = ∑ j ∈ members, weight j := by
    rw [Finset.sum_ite_eq' members chosen, if_pos round.member]
  rw [Finset.sum_congr rfl round.settled, Finset.sum_sub_distrib, Finset.sum_add_distrib, paid, add_sub_cancel_right]

theorem Rounds.congr {other balance after : ι → K} {chosen : List ι} (rounds : Rounds members weight balance chosen after)
    (same : ∀ i ∈ members, weight i = other i) : Rounds members other balance chosen after := by
  induction rounds with
  | none balance => exact .none balance
  | more round _ ih => exact .more (round.congr same) ih

theorem Rounds.chosen_mem {balance after : ι → K} {chosen : List ι} (rounds : Rounds members weight balance chosen after) :
    ∀ i ∈ chosen, i ∈ members := by
  induction rounds with
  | none => simp
  | more round _ ih =>
    intro i listed
    rcases List.mem_cons.mp listed with rfl | later
    · exact round.member
    · exact ih i later

/-- What a member has gained is its weight for every round, less the total for every round
that chose it. -/
theorem Rounds.balance_eq {balance after : ι → K} {chosen : List ι} (rounds : Rounds members weight balance chosen after)
    {i : ι} (member : i ∈ members) :
    after i = balance i + chosen.length * weight i - chosen.count i * ∑ j ∈ members, weight j := by
  induction rounds with
  | none => simp
  | @more balance between after head rest round _ ih =>
    rw [ih, round.settled i member, List.length_cons, List.count_cons]
    by_cases same : i = head
    · subst same
      simp only [if_true, beq_self_eq_true, Nat.cast_add, Nat.cast_one]
      ring
    · have other : (head == i) = false := by simpa using fun equal => same equal.symm
      simp only [if_neg same, other, Bool.false_eq_true, if_false, Nat.cast_add, Nat.cast_one, Nat.cast_zero]
      ring

theorem count_sum {chosen : List ι} (inside : ∀ i ∈ chosen, i ∈ members) :
    ∑ i ∈ members, chosen.count i = chosen.length := by
  induction chosen with
  | nil => simp
  | cons head rest ih =>
    have single : ∑ i ∈ members, (if (head == i) = true then 1 else 0) = 1 := by
      simp only [beq_iff_eq]
      rw [Finset.sum_ite_eq members head, if_pos (inside head List.mem_cons_self)]
    simp only [List.count_cons, Finset.sum_add_distrib, List.length_cons]
    rw [ih fun i later => inside i (List.mem_cons_of_mem head later), single]

variable [IsStrictOrderedRing K]

/-- Balances that cancel out, each above minus the total weight. -/
structure Bounded (members : Finset ι) (weight balance : ι → K) : Prop where
  sum_zero : ∑ i ∈ members, balance i = 0
  above : ∀ i ∈ members, -∑ j ∈ members, weight j < balance i

/-- The raised balances add up to the total weight, so the highest one is positive and
can pay it without falling to minus the total. -/
theorem Round.bounded {balance after : ι → K} {chosen : ι} (round : Round members weight balance chosen after)
    (positive : ∀ i ∈ members, 0 < weight i) (before : Bounded members weight balance) :
    Bounded members weight after := by
  refine ⟨round.sum_eq.trans before.sum_zero, fun i member => ?_⟩
  have total : 0 < ∑ j ∈ members, weight j := Finset.sum_pos positive ⟨chosen, round.member⟩
  rw [round.settled i member]
  by_cases same : i = chosen
  · have raised : ∑ j ∈ members, (balance j + weight j) = ∑ j ∈ members, weight j := by
      rw [Finset.sum_add_distrib, before.sum_zero, zero_add]
    have lifted : 0 < balance chosen + weight chosen := by
      by_contra low
      have none : ∑ j ∈ members, (balance j + weight j) ≤ 0 :=
        Finset.sum_nonpos fun j held => (round.highest j held).trans (not_lt.mp low)
      rw [raised] at none
      exact absurd total (not_lt.mpr none)
    rw [if_pos same, same]
    linarith
  · have low := before.above i member
    have gain := positive i member
    rw [if_neg same, sub_zero]
    linarith

omit [DecidableEq ι] in
theorem bounded_zero {balance : ι → K} (positive : ∀ i ∈ members, 0 < weight i)
    (zero : ∀ i ∈ members, balance i = 0) : Bounded members weight balance := by
  refine ⟨Finset.sum_eq_zero zero, fun i member => ?_⟩
  rw [zero i member, neg_lt_zero]
  exact Finset.sum_pos positive ⟨i, member⟩

theorem Rounds.bounded {balance after : ι → K} {chosen : List ι} (rounds : Rounds members weight balance chosen after)
    (positive : ∀ i ∈ members, 0 < weight i) (before : Bounded members weight balance) :
    Bounded members weight after := by
  induction rounds with
  | none => exact before
  | more round _ ih => exact ih (round.bounded positive before)

/-- With whole weights the rounds repeat: after any number of full cycles every member was
chosen in proportion to its weight and all balances are zero again. -/
theorem Rounds.cycles {shares : ι → ℕ} {balance after : ι → K} {chosen : List ι}
    (rounds : Rounds members (fun i => (shares i : K)) balance chosen after)
    (positive : ∀ i ∈ members, 0 < shares i) (zero : ∀ i ∈ members, balance i = 0) {cycles : ℕ}
    (full : chosen.length = cycles * ∑ i ∈ members, shares i) {i : ι} (member : i ∈ members) :
    chosen.count i = cycles * shares i ∧ after i = 0 := by
  have weights : ∀ j ∈ members, (0 : K) < shares j := fun j held => Nat.cast_pos.mpr (positive j held)
  have total : ∑ j ∈ members, (shares j : K) = ((∑ j ∈ members, shares j : ℕ) : K) := by push_cast; rfl
  have totalPos : 0 < ∑ j ∈ members, shares j := Finset.sum_pos positive ⟨i, member⟩
  have bound := rounds.bounded weights (bounded_zero weights zero)
  -- No member can be ahead of its share by a whole round, or its balance would be too low.
  have atMost : ∀ j ∈ members, chosen.count j ≤ cycles * shares j := by
    intro j held
    have low := bound.above j held
    rw [rounds.balance_eq held, zero j held, total, full] at low
    by_contra beyond
    have ahead : cycles * shares j + 1 ≤ chosen.count j := by omega
    have scaled : (cycles * shares j + 1) * (∑ j ∈ members, shares j) ≤ chosen.count j * ∑ j ∈ members, shares j :=
      Nat.mul_le_mul_right _ ahead
    have cast : ((cycles * shares j + 1) * (∑ j ∈ members, shares j) : K) ≤
        chosen.count j * ((∑ j ∈ members, shares j : ℕ) : K) := by exact_mod_cast scaled
    push_cast at low cast
    linarith
  have sums : ∑ j ∈ members, chosen.count j = ∑ j ∈ members, cycles * shares j := by
    rw [count_sum rounds.chosen_mem, full, Finset.mul_sum]
  have exact : chosen.count i = cycles * shares i :=
    (Finset.sum_eq_sum_iff_of_le atMost).mp sums i member
  refine ⟨exact, ?_⟩
  rw [rounds.balance_eq member, zero i member, exact, full, total]
  push_cast
  ring

omit [IsStrictOrderedRing K] in
theorem Rounds.append {balance after : ι → K} {early late : List ι}
    (rounds : Rounds members weight balance (early ++ late) after) :
    ∃ between, Rounds members weight balance early between ∧ Rounds members weight between late after := by
  induction early generalizing balance with
  | nil => exact ⟨balance, .none balance, rounds⟩
  | cons first rest ih =>
    cases rounds with
    | more round later =>
      obtain ⟨between, before, behind⟩ := ih later
      exact ⟨between, .more round before, behind⟩

/-- From no balances at all is one member chosen for ever when there is another: the balance of the
other keeps rising, and that of the first does not. -/
theorem rounds_not_constant [Archimedean K] (positive : ∀ i ∈ members, 0 < weight i) (balance : ι → K)
    {chosen other : ι} (others : other ∈ members) (differ : other ≠ chosen) :
    ∃ count, ∀ after, ¬ Rounds members weight balance (List.replicate count chosen) after := by
  have gain := positive other others
  obtain ⟨count, large⟩ := Archimedean.arch (weight chosen + balance chosen - balance other) gain
  refine ⟨count + 1, fun after rounds => ?_⟩
  rw [List.replicate_succ'] at rounds
  obtain ⟨between, before, last⟩ := rounds.append
  obtain ⟨round, -⟩ : ∃ _ : Round members weight between chosen after, True := by
    cases last with
    | more round later =>
      cases later
      exact ⟨round, trivial⟩
  have highest := round.highest other others
  rw [before.balance_eq others, before.balance_eq round.member, List.length_replicate, List.count_replicate_self,
    List.count_replicate, if_neg (by simpa using fun same => differ same.symm), Nat.cast_zero, zero_mul, sub_zero] at highest
  have enough : weight chosen + weight other ≤ ∑ j ∈ members, weight j := by
    rw [← Finset.sum_pair differ.symm]
    refine Finset.sum_le_sum_of_subset_of_nonneg (fun i held => ?_) fun i held _ => (positive i held).le
    rcases Finset.mem_insert.mp held with rfl | last
    · exact round.member
    · rwa [Finset.mem_singleton.mp last]
  have grows : (count : K) * (weight chosen + weight other) ≤ count * ∑ j ∈ members, weight j :=
    mul_le_mul_of_nonneg_left enough (Nat.cast_nonneg count)
  have lifted : 0 ≤ (count : K) * weight other := mul_nonneg (Nat.cast_nonneg count) gain.le
  rw [nsmul_eq_mul] at large
  rw [mul_add] at grows
  linarith

end AfroPay.SmoothRoundRobin
