import AfroPay.NumberText
import AfroPay.TransferData
import Mathlib.Algebra.Field.Rat
import Mathlib.Algebra.Order.Monoid.WithTop
import Mathlib.Algebra.Order.Ring.Rat
import Mathlib.Data.NNRat.Defs

/-! The daily limit check of the KYC service. Amounts are exact rationals, with
one infinite value for JavaScript's `Infinity`; rounding of floating-point numbers
is not modelled. -/
namespace AfroPay.Kyc
open NumberText ScriptText Transfer

inductive KycTier where
  | none
  | basic
  | full
  deriving DecidableEq

/-- Daily limit in dollars. -/
def getLimitForTier : KycTier → ℚ
  | .none => 100
  | .basic => 5000
  | .full => 50000

/-- The values `parseFloat` can return. -/
inductive Number where
  | nan
  | infinity (negative : Bool)
  | finite (value : ℚ)
  deriving DecidableEq

/-- The longest decimal prefix after white space; what follows it is ignored. -/
def parseFloat (text : List Char) : Number :=
  let (negative, rest) := splitSign (text.dropWhile isStrWhiteSpace)
  if "Infinity".toList.isPrefixOf rest then .infinity negative
  else match readDecimal rest with
    | some (magnitude, _) => .finite (if negative then -magnitude else magnitude)
    | none => .nan

/-- Upper case of the letters that have an ASCII capital; any other character is
looked up as it stands. -/
def toUpper (c : Char) : Char :=
  if 'a' ≤ c ∧ c ≤ 'z' then Char.ofNat (c.toNat - 32)
  else if c = 'ſ' then 'S'
  else if c = 'ı' then 'I'
  else c

/-- Dollars, with a value for infinite amounts. -/
abbrev Usd := WithTop ℚ

/-- Dollars for an amount that is not negative. -/
def convert (rates : String → Option ℚ≥0) (numericAmount : Usd) (assetCode : String) : Except String Usd :=
  if assetCode = "" then .error "Asset code is required"
  else
    let normalizedAsset := String.ofList ((trim assetCode.toList).map toUpper)
    if normalizedAsset = "USD" ∨ normalizedAsset = "USDC" then .ok numericAmount
    else match rates normalizedAsset with
      | some rate =>
        if rate = 0 then .error s!"Unable to normalize {normalizedAsset} to USD for KYC calculation"
        else .ok (numericAmount.map (· * rate))
      | none => .error s!"Unable to normalize {normalizedAsset} to USD for KYC calculation"

/-- `rates` quotes one dollar price for an asset code, if there is one. -/
def normalizeAmountToUsd (rates : String → Option ℚ≥0) (amount assetCode : String) : Except String Usd :=
  match parseFloat amount.toList with
  | .nan | .infinity true => .error "Invalid amount"
  | .infinity false => convert rates ⊤ assetCode
  | .finite value => if value < 0 then .error "Invalid amount" else convert rates value assetCode

/-- The dollars spent on settled rows: the sum over the rows `getDailySpent` finds. -/
def getDailySpent (rates : String → Option ℚ≥0) (rows : List Transaction) : Except String Usd := do
  let values ← rows.mapM fun row => normalizeAmountToUsd rates row.amount row.assetCode
  pure values.sum

/-- The check of one request against the settled rows of its day. -/
def assertWithinDailyLimit (rates : String → Option ℚ≥0) (tier : Option KycTier) (rows : List Transaction)
    (amountUsd : Usd) : Except String Unit := do
  let dailySpent ← getDailySpent rates rows
  let limit := getLimitForTier (tier.getD .none)
  if dailySpent + amountUsd > (limit : Usd) then throw "Transaction limit exceeded"

end AfroPay.Kyc
