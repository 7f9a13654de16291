import AfroPay.CappedCharges
import AfroPay.KeyedStore
import AfroPay.Panics
import AfroPay.Runs
import Mathlib.Algebra.Order.Floor.Ring
import Mathlib.Data.Rat.Floor
import Mathlib.Tactic.Linarith
import Mathlib.Tactic.NormNum

/-! The fee and conversion primitives, function by function: fees that round up and
conversions that round down, both in basis points, and the store of conversion rates.
Entry TTLs are not modelled. -/
namespace AfroPay.FeePrimitives
open Panics KeyedStore Runs CappedCharges

/-- `10_000` basis points are 100%. -/
def basisPointsDenominator : Int := 10000

structure FeeConfig (Address : Type) where
  baseFeeRate : Int
  minFee : Int
  maxFee : Int
  feeRecipient : Address

structure ConversionRate where
  assetA : String
  assetB : String
  rate : Int
  updatedAt : Nat
  deriving DecidableEq

structure FeeResult where
  amount : Int
  rateUsed : Int
  convertedAmount : Option Int
  deriving DecidableEq

variable {Address : Type}

/-- `i128::checked_mul`. -/
def checkedMul (a b : Int) : Option Int :=
  if i128Min ≤ a * b ∧ a * b ≤ i128Max then some (a * b) else none

/-- The fee of `compute_fee` before its bounds. -/
def rawFee (amount : Int) (config : FeeConfig Address) : Except String Int :=
  match checkedMul amount config.baseFeeRate with
  | some product =>
    let quotient := product.tdiv basisPointsDenominator
    let remainder := product.tmod basisPointsDenominator
    if remainder > 0 then fit "attempt to add with overflow" (quotient + 1) else pure quotient
  | none => pure config.maxFee

def computeFee (amount : Int) (config : FeeConfig Address) : Except String FeeResult := do
  panicIf (amount < 0) "amount must be non-negative"
  panicIf (config.baseFeeRate < 0 ∨ config.baseFeeRate > basisPointsDenominator)
    "base_fee_rate must be between 0 and 10_000 basis points (0%-100%)"
  panicIf (config.minFee < 0 ∨ config.maxFee < 0) "min_fee and max_fee must be non-negative"
  panicIf (config.minFee > config.maxFee) "min_fee must not exceed max_fee"
  let rawFee ← rawFee amount config
  let clampedFee := if rawFee < config.minFee then config.minFee
    else if rawFee > config.maxFee then config.maxFee
    else rawFee
  let finalFee := if clampedFee > amount then amount else clampedFee
  pure ⟨finalFee, config.baseFeeRate, none⟩

def applyConversion (amount : Int) (rate : ConversionRate) : Except String Int := do
  panicIf (amount < 0) "amount must be non-negative"
  panicIf (rate.rate < 0) "conversion rate must be non-negative"
  let product ← expect "currency conversion overflow: amount too large for given rate"
    (checkedMul amount rate.rate)
  pure (product.tdiv basisPointsDenominator)

def calculateFee (amount : Int) (config : FeeConfig Address) : Except String FeeResult :=
  computeFee amount config

def convertCurrency (amount : Int) (fromAsset toAsset : String) (rate : ConversionRate) : Except String Int := do
  panicIf (rate.assetA ≠ fromAsset ∨ rate.assetB ≠ toAsset) "Asset mismatch in conversion rate"
  applyConversion amount rate

def calculateFeeWithConversion (amount : Int) (fromAsset toAsset : String) (feeConfig : FeeConfig Address)
    (conversionRate : ConversionRate) : Except String FeeResult := do
  let convertedAmount ← convertCurrency amount fromAsset toAsset conversionRate
  let feeResult ← calculateFee convertedAmount feeConfig
  pure { feeResult with convertedAmount := some convertedAmount }

/-- The stored rates and the ledger timestamp. -/
structure World where
  timestamp : Nat
  rates : Store String ConversionRate

def World.deployed (timestamp : Nat) : World := ⟨timestamp, ∅⟩

/-- Stored under the source asset alone. -/
def setConversionRate (w : World) (assetA assetB : String) (rate : Int) : World :=
  { w with rates := w.rates.insert assetA ⟨assetA, assetB, rate, w.timestamp⟩ }

def getConversionRate (w : World) (assetA : String) : Except String ConversionRate :=
  expect "Conversion rate not found for asset" (w.rates.lookup assetA)

/-- A rate is set, or time passes. -/
inductive Event where
  | setConversionRate (assetA assetB : String) (rate : Int)
  | advance (seconds : Nat)
  deriving DecidableEq

def step (w : World) : Event → World
  | .setConversionRate assetA assetB rate => setConversionRate w assetA assetB rate
  | .advance seconds => { w with timestamp := w.timestamp + seconds }

/-- The configurations that the contract accepts. -/
structure FeeConfig.Valid (config : FeeConfig Address) : Prop where
  rate_nonneg : 0 ≤ config.baseFeeRate
  rate_le : config.baseFeeRate ≤ basisPointsDenominator
  min_nonneg : 0 ≤ config.minFee
  min_le_max : config.minFee ≤ config.maxFee

/-- The share of an amount at a rate, rounded up. -/
def ceilShare (rate amount : Int) : Int := ⌈((amount * rate : Int) : ℚ) / basisPointsDenominator⌉

/-- The share of an amount at a rate, rounded down. -/
def floorShare (rate amount : Int) : Int := ⌊((amount * rate : Int) : ℚ) / basisPointsDenominator⌋

/-- The fee over unbounded integers. -/
def exactFee (config : FeeConfig Address) (amount : Int) : Int :=
  charge (ceilShare config.baseFeeRate) config.minFee config.maxFee amount

section Rounding
variable {rate x y product : Int}

theorem ceil_of_remainder (nonneg : 0 ≤ product) :
    (if product.tmod basisPointsDenominator > 0 then product.tdiv basisPointsDenominator + 1
      else product.tdiv basisPointsDenominator) = ⌈(product : ℚ) / basisPointsDenominator⌉ := by
  have denominator : basisPointsDenominator = (10000 : Nat) := rfl
  rw [Int.tmod_eq_emod_of_nonneg nonneg, Int.tdiv_eq_ediv_of_nonneg nonneg, denominator, Int.cast_natCast,
    Rat.ceil_intCast_div_natCast]
  split <;> omega

theorem floor_of_quotient (nonneg : 0 ≤ product) :
    product.tdiv basisPointsDenominator = ⌊(product : ℚ) / basisPointsDenominator⌋ := by
  have denominator : basisPointsDenominator = (10000 : Nat) := rfl
  rw [Int.tdiv_eq_ediv_of_nonneg nonneg, denominator, Int.cast_natCast, Rat.floor_intCast_div_natCast]

theorem ceilShare_nonneg (rate_nonneg : 0 ≤ rate) (nonneg : 0 ≤ x) : 0 ≤ ceilShare rate x := by
  refine Int.ceil_nonneg (div_nonneg ?_ (by norm_num [basisPointsDenominator]))
  exact_mod_cast mul_nonneg nonneg rate_nonneg

theorem ceilShare_mono (rate_nonneg : 0 ≤ rate) (le : x ≤ y) : ceilShare rate x ≤ ceilShare rate y := by
  refine Int.ceil_mono (div_le_div_of_nonneg_right ?_ (by norm_num [basisPointsDenominator]))
  exact_mod_cast mul_le_mul_of_nonneg_right le rate_nonneg

theorem ceilShare_add_le (rate x y : Int) : ceilShare rate (x + y) ≤ ceilShare rate x + ceilShare rate y := by
  rw [ceilShare, add_mul, Int.cast_add, add_div]
  exact Int.ceil_add_le _ _

/-- At most the amount itself, and less than it unless the rate is 100% or the amount small. -/
theorem ceilShare_le (rate_le : rate ≤ basisPointsDenominator) (nonneg : 0 ≤ x) : ceilShare rate x ≤ x := by
  refine Int.ceil_le.mpr ((div_le_iff₀ (by norm_num [basisPointsDenominator])).mpr ?_)
  exact_mod_cast mul_le_mul_of_nonneg_left rate_le nonneg

theorem floorShare_add_le (rate x y : Int) : floorShare rate x + floorShare rate y ≤ floorShare rate (x + y) := by
  rw [floorShare, floorShare, floorShare, add_mul, Int.cast_add, add_div]
  exact Int.le_floor_add _ _

end Rounding

section Fees
variable {config : FeeConfig Address} {amount : Int}

theorem checkedMul_of_nonneg {a b : Int} (a_nonneg : 0 ≤ a) (b_nonneg : 0 ≤ b) :
    checkedMul a b = if a * b ≤ i128Max then some (a * b) else none := by
  have low : i128Min ≤ a * b := (by decide : i128Min ≤ 0).trans (mul_nonneg a_nonneg b_nonneg)
  simp only [checkedMul, low, true_and]

theorem rawFee_eq (valid : config.Valid) (nonneg : 0 ≤ amount) :
    rawFee amount config = .ok (if amount * config.baseFeeRate ≤ i128Max then
      ceilShare config.baseFeeRate amount else config.maxFee) := by
  have product_nonneg := mul_nonneg nonneg valid.rate_nonneg
  rw [rawFee, checkedMul_of_nonneg nonneg valid.rate_nonneg]
  by_cases fits : amount * config.baseFeeRate ≤ i128Max
  · have rounded := ceil_of_remainder product_nonneg
    have quotient : (amount * config.baseFeeRate).tdiv basisPointsDenominator =
        amount * config.baseFeeRate / 10000 := Int.tdiv_eq_ediv_of_nonneg product_nonneg
    simp only [if_pos fits]
    rw [ceilShare, ← rounded]
    split
    · refine fit_ok.mpr ⟨rfl, ?_⟩
      unfold i128Min i128Max at *
      omega
    · rfl
  · simp only [if_neg fits]
    rfl

/-- A valid configuration charges the exact fee, or up to the maximum where the product does not fit. -/
theorem computeFee_eq (valid : config.Valid) (nonneg : 0 ≤ amount) :
    computeFee amount config = .ok ⟨if amount * config.baseFeeRate ≤ i128Max then exactFee config amount
      else min amount config.maxFee, config.baseFeeRate, none⟩ := by
  have raw := rawFee_eq valid nonneg
  obtain ⟨rate_nonneg, rate_le, min_nonneg, min_le_max⟩ := valid
  simp only [computeFee, bind_ok, panicIf_ok, exists_const, raw, pure_ok]
  refine ⟨not_lt.mpr nonneg, by omega, by omega, not_lt.mpr min_le_max, _, rfl, ?_⟩
  -- The two bounds and the cap on the principal, as the code applies them.
  have bounded : ∀ fee : Int,
      (if (if fee < config.minFee then config.minFee else if fee > config.maxFee then config.maxFee else fee) > amount
        then amount
        else if fee < config.minFee then config.minFee else if fee > config.maxFee then config.maxFee else fee) =
        min amount (max config.minFee (min fee config.maxFee)) := by
    intro fee
    split <;> split <;> omega
  rw [bounded]
  split
  · rfl
  · rw [min_self, max_eq_right min_le_max]

/-- The fee charged, apart from the rate it reports. -/
def feeOf (config : FeeConfig Address) (amount : Int) : Int :=
  if amount * config.baseFeeRate ≤ i128Max then exactFee config amount else min amount config.maxFee

theorem feeOf_le (config : FeeConfig Address) (amount : Int) : feeOf config amount ≤ amount := by
  unfold feeOf
  split
  · exact charge_le amount
  · exact min_le_left _ _

/-- The greater amount may leave the range of the product, the lesser one then need not. -/
theorem feeOf_mono (valid : config.Valid) {less : Int} (le : less ≤ amount) :
    feeOf config less ≤ feeOf config amount := by
  have products := mul_le_mul_of_nonneg_right le valid.rate_nonneg
  by_cases fits : amount * config.baseFeeRate ≤ i128Max
  · rw [feeOf, feeOf, if_pos (products.trans fits), if_pos fits]
    exact charge_mono le (ceilShare_mono valid.rate_nonneg le)
  · rw [feeOf.eq_def config amount, if_neg fits]
    refine le_min ((feeOf_le config less).trans le) ?_
    unfold feeOf
    split
    · exact (min_le_right _ _).trans (max_le valid.min_le_max (min_le_right _ _))
    · exact min_le_right _ _

/-- Out of range, the share is the amount itself at a rate of 100% only. -/
theorem ceilShare_eq_iff (rate_le : config.baseFeeRate ≤ basisPointsDenominator)
    (overflows : ¬ amount * config.baseFeeRate ≤ i128Max) (nonneg : 0 ≤ amount) :
    ceilShare config.baseFeeRate amount = amount ↔ config.baseFeeRate = basisPointsDenominator := by
  have denominator : basisPointsDenominator = (10000 : Nat) := rfl
  rw [ceilShare, denominator, Int.cast_natCast, Rat.ceil_intCast_div_natCast]
  rw [denominator] at rate_le
  constructor
  · intro whole
    by_contra partial_rate
    have below : amount * config.baseFeeRate ≤ amount * 9999 := mul_le_mul_of_nonneg_left (by omega) nonneg
    unfold i128Max at overflows
    omega
  · intro full
    rw [full]
    omega

/-- An amount is charged the exact fee, and no lesser amount is charged more. -/
def ChargesExactly (config : FeeConfig Address) (amount : Int) : Prop :=
  ∃ result, computeFee amount config = .ok result ∧ result.amount = exactFee config amount ∧
    ∀ less lessResult, 0 ≤ less → less ≤ amount → computeFee less config = .ok lessResult →
      lessResult.amount ≤ result.amount

/-- A fee is always charged, never less for more, and it is the exact one unless the product
overflows and the maximum, which is then charged, is not what the exact fee comes to. -/
theorem charges_exactly_iff (config : FeeConfig Address) (amount : Int) (valid : config.Valid) (nonneg : 0 ≤ amount) :
    ChargesExactly config amount ↔ amount * config.baseFeeRate ≤ i128Max ∨
      config.maxFee ≤ ceilShare config.baseFeeRate amount ∨ config.minFee = config.maxFee ∨
      amount ≤ config.minFee ∨ config.baseFeeRate = basisPointsDenominator := by
  have charged : ChargesExactly config amount ↔ feeOf config amount = exactFee config amount := by
    constructor
    · rintro ⟨result, ok, exact', -⟩
      rw [computeFee_eq valid nonneg] at ok
      cases ok
      exact exact'
    · intro exact'
      refine ⟨_, computeFee_eq valid nonneg, exact', fun less lessResult less_nonneg le ok => ?_⟩
      rw [computeFee_eq valid less_nonneg] at ok
      cases ok
      exact feeOf_mono valid le
  rw [charged, feeOf]
  by_cases fits : amount * config.baseFeeRate ≤ i128Max
  · simp only [fits, if_true, true_or]
  simp only [fits, if_false, false_or]
  by_cases capped : config.maxFee ≤ ceilShare config.baseFeeRate amount
  · simp only [exactFee, charge_capped valid.min_le_max capped, capped, true_or]
  · rw [eq_comm, exactFee, charge_eq_min_iff valid.min_le_max (not_le.mp capped) (ceilShare_le valid.rate_le nonneg),
      ceilShare_eq_iff valid.rate_le fits nonneg]
    tauto

/-- One per cent, and no maximum to speak of. -/
def uncapped : FeeConfig Nat := ⟨100, 0, i128Max, 7⟩

theorem uncapped_valid : uncapped.Valid := ⟨by decide, by decide, by decide, by decide⟩

theorem charges_exactly_iff_thousand :
    ChargesExactly uncapped 1000 ↔ 1000 * uncapped.baseFeeRate ≤ i128Max ∨
      uncapped.maxFee ≤ ceilShare uncapped.baseFeeRate 1000 ∨ uncapped.minFee = uncapped.maxFee ∨
      1000 ≤ uncapped.minFee ∨ uncapped.baseFeeRate = basisPointsDenominator :=
  charges_exactly_iff uncapped 1000 uncapped_valid (by decide)

/-- The largest amount is charged away whole at one per cent. -/
theorem whole_principal_charged :
    computeFee i128Max uncapped = .ok ⟨i128Max, 100, none⟩ ∧
      exactFee uncapped i128Max < i128Max / 99 ∧ ¬ ChargesExactly uncapped i128Max := by
  have charged : computeFee i128Max uncapped = .ok ⟨i128Max, 100, none⟩ := by decide +kernel
  have less : exactFee uncapped i128Max < i128Max / 99 := by decide +kernel
  refine ⟨charged, less, ?_⟩
  rintro ⟨result, ok, exact', -⟩
  rw [charged] at ok
  cases ok
  rw [← exact'] at less
  exact absurd less (by decide)

end Fees

section Splitting
variable {config : FeeConfig Address} {x y : Int}

theorem exactFee_add_le (valid : config.Valid) (x_nonneg : 0 ≤ x) (y_nonneg : 0 ≤ y) :
    exactFee config (x + y) ≤ exactFee config x + exactFee config y := by
  have share : ∀ {amount : Int}, 0 ≤ amount →
      0 ≤ ceilShare config.baseFeeRate amount ∧ ceilShare config.baseFeeRate amount ≤ amount :=
    fun nonneg => ⟨ceilShare_nonneg valid.rate_nonneg nonneg, ceilShare_le valid.rate_le nonneg⟩
  exact charge_add_le valid.min_nonneg valid.min_le_max x_nonneg y_nonneg (share x_nonneg) (share y_nonneg)
    (ceilShare_add_le _ x y)

theorem computeFee_exact (valid : config.Valid) (nonneg : 0 ≤ x) (fits : x * config.baseFeeRate ≤ i128Max) :
    computeFee x config = .ok ⟨exactFee config x, config.baseFeeRate, none⟩ := by
  rw [computeFee_eq valid nonneg, if_pos fits]

theorem applyConversion_ok {rate : ConversionRate} {converted : Int} :
    applyConversion x rate = .ok converted ↔
      0 ≤ x ∧ 0 ≤ rate.rate ∧ x * rate.rate ≤ i128Max ∧ floorShare rate.rate x = converted := by
  simp only [applyConversion, bind_ok, panicIf_ok, exists_const, expect_ok, pure_ok, not_lt]
  constructor
  · rintro ⟨nonneg, rate_nonneg, product, multiplied, rfl⟩
    rw [checkedMul_of_nonneg nonneg rate_nonneg] at multiplied
    split at multiplied
    · rename_i fits
      cases multiplied
      exact ⟨nonneg, rate_nonneg, fits, (floor_of_quotient (mul_nonneg nonneg rate_nonneg)).symm⟩
    · cases multiplied
  · rintro ⟨nonneg, rate_nonneg, fits, rfl⟩
    refine ⟨nonneg, rate_nonneg, x * rate.rate, ?_, floor_of_quotient (mul_nonneg nonneg rate_nonneg)⟩
    rw [checkedMul_of_nonneg nonneg rate_nonneg, if_pos fits]

theorem floorShare_mul_le (rate x : Int) : floorShare rate x * basisPointsDenominator ≤ x * rate := by
  have below : ((floorShare rate x : Int) : ℚ) ≤ ((x * rate : Int) : ℚ) / basisPointsDenominator := Int.floor_le _
  rw [le_div_iff₀ (by norm_num [basisPointsDenominator])] at below
  exact_mod_cast below

/-- Converting at a rate and back at one that does not exceed its inverse gains nothing. -/
theorem round_trip_le {rate back : Int} (x_nonneg : 0 ≤ x) (back_nonneg : 0 ≤ back)
    (inverse : rate * back ≤ basisPointsDenominator * basisPointsDenominator) :
    floorShare back (floorShare rate x) ≤ x := by
  have there := mul_le_mul_of_nonneg_right (floorShare_mul_le rate x) back_nonneg
  have again := floorShare_mul_le back (floorShare rate x)
  have whole := mul_le_mul_of_nonneg_left inverse x_nonneg
  simp only [basisPointsDenominator] at *
  nlinarith only [there, again, whole]

/-- Splitting a payment never lowers the fee, splitting a conversion never yields more, and
neither does converting back and forth. -/
theorem splitting_gains_nothing :
    (∀ (config : FeeConfig Address) (x y : Int), config.Valid → 0 ≤ x → 0 ≤ y →
      (x + y) * config.baseFeeRate ≤ i128Max → ∃ whole left right, computeFee (x + y) config = .ok whole ∧
        computeFee x config = .ok left ∧ computeFee y config = .ok right ∧
        whole.amount ≤ left.amount + right.amount) ∧
    (∀ (rate : ConversionRate) (x y : Int), 0 ≤ rate.rate → 0 ≤ x → 0 ≤ y → (x + y) * rate.rate ≤ i128Max →
      ∃ whole left right, applyConversion (x + y) rate = .ok whole ∧ applyConversion x rate = .ok left ∧
        applyConversion y rate = .ok right ∧ left + right ≤ whole) ∧
    ∀ (rate back : ConversionRate) (x there again : Int), 0 ≤ x → rate.rate * back.rate ≤ 10 ^ 8 →
      applyConversion x rate = .ok there → applyConversion there back = .ok again → again ≤ x := by
  refine ⟨?_, ?_, ?_⟩
  · intro config x y valid x_nonneg y_nonneg fits
    have left : x * config.baseFeeRate ≤ (x + y) * config.baseFeeRate :=
      mul_le_mul_of_nonneg_right (by omega) valid.rate_nonneg
    have right : y * config.baseFeeRate ≤ (x + y) * config.baseFeeRate :=
      mul_le_mul_of_nonneg_right (by omega) valid.rate_nonneg
    exact ⟨_, _, _, computeFee_exact valid (by omega) fits, computeFee_exact valid x_nonneg (left.trans fits),
      computeFee_exact valid y_nonneg (right.trans fits), exactFee_add_le valid x_nonneg y_nonneg⟩
  · intro rate x y rate_nonneg x_nonneg y_nonneg fits
    have left : x * rate.rate ≤ (x + y) * rate.rate := mul_le_mul_of_nonneg_right (by omega) rate_nonneg
    have right : y * rate.rate ≤ (x + y) * rate.rate := mul_le_mul_of_nonneg_right (by omega) rate_nonneg
    exact ⟨_, _, _, applyConversion_ok.mpr ⟨by omega, rate_nonneg, fits, rfl⟩,
      applyConversion_ok.mpr ⟨x_nonneg, rate_nonneg, left.trans fits, rfl⟩,
      applyConversion_ok.mpr ⟨y_nonneg, rate_nonneg, right.trans fits, rfl⟩, floorShare_add_le rate.rate x y⟩
  · intro rate back x there again x_nonneg inverse converted returned
    obtain ⟨-, -, -, rfl⟩ := applyConversion_ok.mp converted
    obtain ⟨-, back_nonneg, -, rfl⟩ := applyConversion_ok.mp returned
    exact round_trip_le x_nonneg back_nonneg inverse

def dollarsToNaira : ConversionRate := ⟨"USD", "NGN", 16000000, 0⟩

def nairaToDollars : ConversionRate := ⟨"NGN", "USD", 6, 0⟩

theorem splitting_gains_nothing_parts :
    (∃ whole left right, computeFee (150 + 250) uncapped = .ok whole ∧ computeFee 150 uncapped = .ok left ∧
      computeFee 250 uncapped = .ok right ∧ whole.amount ≤ left.amount + right.amount) ∧
    (∃ whole left right, applyConversion (1001 + 1002) nairaToDollars = .ok whole ∧
      applyConversion 1001 nairaToDollars = .ok left ∧ applyConversion 1002 nairaToDollars = .ok right ∧
      left + right ≤ whole) ∧
    applyConversion 10000 dollarsToNaira = .ok 16000000 ∧ applyConversion 16000000 nairaToDollars = .ok 9600 ∧
      (9600 : Int) ≤ 10000 := by
  obtain ⟨fees, conversions, round_trips⟩ := @splitting_gains_nothing Nat
  refine ⟨fees uncapped 150 250 uncapped_valid (by decide) (by decide) (by decide),
    conversions nairaToDollars 1001 1002 (by decide) (by decide) (by decide) (by decide), by decide +kernel,
    by decide +kernel, ?_⟩
  exact round_trips dollarsToNaira nairaToDollars 10000 16000000 9600 (by decide) (by decide) (by decide +kernel)
    (by decide +kernel)

end Splitting

end AfroPay.FeePrimitives
