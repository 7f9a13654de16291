import AfroPay.ScriptText
import Mathlib.Data.Rat.Defs
import Mathlib.Tactic.Common

/-! The records of the transfer pipeline: the transaction row, the request body,
the queue job, and the check that binds a job's amount to its row. -/
namespace AfroPay.Transfer
open ScriptText

/-- A user id is a UUID; what the pipeline relies on is that it holds no colon. -/
abbrev UserId := { id : String // ':' ∉ id.toList }

theorem u1_colonFree : ':' ∉ "u1".toList := by decide

/-- Lifecycle of a transaction row. -/
inductive Status where
  | pending
  | retrying
  | success
  | failed
  | pendingReview
  deriving DecidableEq

/-- The states at which the processor skips a job. -/
def Status.terminal : Status → Bool
  | .success | .failed | .pendingReview => true
  | .pending | .retrying => false

/-- The body of a send request. -/
structure SendDto where
  destinationPublicKey : String
  amount : String
  assetCode : String
  assetIssuer : Option String
  memo : Option String
  deriving DecidableEq

/-- A row of the `Transaction` table, stored under its id. `createdAt` counts days. -/
structure Transaction where
  userId : UserId
  walletId : String
  destination : String
  amount : String
  assetCode : String
  assetIssuer : Option String
  memo : Option String
  idempotencyKey : Option String
  status : Status
  stellarTxHash : Option String
  riskScore : Option ℚ
  flagged : Bool
  createdAt : Nat
  deriving DecidableEq

/-- The data of a job on the `transactions` queue. -/
structure JobData where
  txId : Nat
  userId : UserId
  body : SendDto
  deriving DecidableEq

/-- `/^0+(?=\d)/` removed from a run of digits: one digit always stays. -/
def stripLeadingZeros : List Char → List Char
  | '0' :: digit :: rest => stripLeadingZeros (digit :: rest)
  | digits => digits

def stripTrailingZeros (digits : List Char) : List Char :=
  (digits.reverse.dropWhile (· = '0')).reverse

/-- The match of `/^(\d+)(?:\.(\d+))?$/`: the whole digits and the fraction digits. -/
def matchDecimal (text : List Char) : Option (List Char × List Char) :=
  let whole := text.takeWhile Char.isDigit
  match text.dropWhile Char.isDigit with
  | [] => if whole = [] then none else some (whole, [])
  | '.' :: fraction =>
    if whole = [] ∨ fraction = [] ∨ ¬ fraction.all Char.isDigit then none else some (whole, fraction)
  | _ => none

/-- The decimal without leading or trailing zeros. -/
def canonicalAmount (value : String) : Except String (List Char) :=
  match matchDecimal (trim value.toList) with
  | none => .error "Transaction amount integrity check failed"
  | some (whole, fraction) =>
    let whole := stripLeadingZeros whole
    let fraction := stripTrailingZeros fraction
    .ok (if fraction = [] then whole else whole ++ '.' :: fraction)

def assertTransactionAmountIntegrity (approvedAmount persistedAmount : String) : Except String Unit := do
  let approved ← canonicalAmount approvedAmount
  let persisted ← canonicalAmount persistedAmount
  if approved ≠ persisted then throw "Transaction amount changed before submission"

end AfroPay.Transfer
