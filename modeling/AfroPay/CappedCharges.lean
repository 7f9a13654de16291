import Mathlib.Algebra.Order.Group.Defs
import Mathlib.Algebra.Order.Group.MinMax

/-! Charges on an amount: a raw charge that is kept between two bounds and never exceeds
the amount. Whatever the bounds, the charge grows with the amount and does not shrink when
the amount is split, provided the raw charge is so and is at most the amount. -/
namespace AfroPay.CappedCharges

variable {A : Type*} [LinearOrder A]

/-- The least bound, the raw charge or the most bound, whichever is in the middle, up to the amount. -/
def charge (raw : A → A) (least most amount : A) : A :=
  min amount (max least (min (raw amount) most))

variable {raw : A → A} {least most : A}

theorem charge_le (amount : A) : charge raw least most amount ≤ amount := min_le_left _ _

theorem charge_mono {less amount : A} (le : less ≤ amount) (grows : raw less ≤ raw amount) :
    charge raw least most less ≤ charge raw least most amount :=
  min_le_min le (max_le_max le_rfl (min_le_min_right most grows))

/-- Where the raw charge is out of reach of the upper bound, the bound is charged. -/
theorem charge_capped (bounds : least ≤ most) {amount : A} (above : most ≤ raw amount) :
    charge raw least most amount = min amount most := by
  rw [charge, min_eq_right above, max_eq_right bounds]

/-- Below the upper bound, charging the bound instead makes a difference unless the amount is
charged anyway or the bounds agree. -/
theorem charge_eq_min_iff (bounds : least ≤ most) {amount : A} (below : raw amount < most)
    (within : raw amount ≤ amount) :
    charge raw least most amount = min amount most ↔ amount ≤ least ∨ raw amount = amount ∨ least = most := by
  rw [charge, min_eq_left below.le]
  constructor
  · intro same
    by_contra other
    push Not at other
    obtain ⟨above, short, apart⟩ := other
    have inner : max least (raw amount) < amount := max_lt above (lt_of_le_of_ne within short)
    have inside : max least (raw amount) < most := max_lt (lt_of_le_of_ne bounds apart) below
    rw [min_eq_right inner.le] at same
    exact absurd same (lt_min inner inside).ne
  · rintro (small | whole | same)
    · rw [min_eq_left (small.trans (le_max_left _ _)), min_eq_left (small.trans bounds)]
    · rw [whole] at below ⊢
      rw [min_eq_left (le_max_right _ _), min_eq_left below.le]
    · rw [same, max_eq_left below.le]

section Splitting
variable [AddCommGroup A] [IsOrderedAddMonoid A] {x y : A}

private theorem min_add_le {a b bound : A} (a_nonneg : 0 ≤ a) (b_nonneg : 0 ≤ b) (bound_nonneg : 0 ≤ bound) :
    min (a + b) bound ≤ min a bound + min b bound := by
  rcases le_total a bound with below | above
  · rw [min_eq_left below]
    rcases le_total b bound with below' | above'
    · rw [min_eq_left below']
      exact min_le_left _ _
    · rw [min_eq_right above']
      exact (min_le_right _ _).trans (le_add_of_nonneg_left a_nonneg)
  · rw [min_eq_right above]
    exact (min_le_right _ _).trans (le_add_of_nonneg_right (le_min b_nonneg bound_nonneg))

/-- What is charged of two parts is at least what is charged of the whole. -/
theorem charge_add_le (low : 0 ≤ least) (bounds : least ≤ most) (x_nonneg : 0 ≤ x) (y_nonneg : 0 ≤ y)
    (raw_x : 0 ≤ raw x ∧ raw x ≤ x) (raw_y : 0 ≤ raw y ∧ raw y ≤ y) (parts : raw (x + y) ≤ raw x + raw y) :
    charge raw least most (x + y) ≤ charge raw least most x + charge raw least most y := by
  have high := low.trans bounds
  have inner_nonneg : ∀ amount, 0 ≤ max least (min (raw amount) most) := fun _ => low.trans (le_max_left _ _)
  -- The bounded charge of the whole against a bound for either part.
  have bounded : ∀ {a b : A}, 0 ≤ a → 0 ≤ b → raw x ≤ a → raw y ≤ b →
      min (raw (x + y)) most ≤ min a most + min b most := by
    intro a b a_nonneg b_nonneg a_above b_above
    exact (min_le_min_right most (parts.trans (add_le_add a_above b_above))).trans
      (min_add_le a_nonneg b_nonneg high)
  have split : ∀ {a b : A}, least ≤ a + b → min (raw (x + y)) most ≤ a + b →
      charge raw least most (x + y) ≤ a + b :=
    fun low_part raw_part => (min_le_right _ _).trans (max_le low_part raw_part)
  rcases le_total x (max least (min (raw x) most)) with x_small | x_large
  · rw [charge.eq_def raw least most x, min_eq_left x_small]
    rcases le_total y (max least (min (raw y) most)) with y_small | y_large
    · rw [charge.eq_def raw least most y, min_eq_left y_small]
      exact charge_le _
    · rw [charge.eq_def raw least most y, min_eq_right y_large]
      refine split ((le_max_left _ _).trans (le_add_of_nonneg_left x_nonneg)) ?_
      exact (bounded x_nonneg raw_y.1 raw_x.2 le_rfl).trans (add_le_add (min_le_left _ _) (le_max_right _ _))
  · rw [charge.eq_def raw least most x, min_eq_right x_large]
    rcases le_total y (max least (min (raw y) most)) with y_small | y_large
    · rw [charge.eq_def raw least most y, min_eq_left y_small]
      refine split ((le_max_left _ _).trans (le_add_of_nonneg_right y_nonneg)) ?_
      exact (bounded raw_x.1 y_nonneg le_rfl raw_y.2).trans (add_le_add (le_max_right _ _) (min_le_left _ _))
    · rw [charge.eq_def raw least most y, min_eq_right y_large]
      refine split ((le_max_left _ _).trans (le_add_of_nonneg_right (inner_nonneg y))) ?_
      exact (bounded raw_x.1 raw_y.1 le_rfl le_rfl).trans (add_le_add (le_max_right _ _) (le_max_right _ _))

end Splitting

end AfroPay.CappedCharges
