import AfroPay.Panics
import Mathlib.Algebra.Order.Ring.Int
import Mathlib.Tactic.Linarith

/-! Token ledgers as a contract sees them: a transfer moves exactly the stated
amount and fails when the balance is short. A holder's balance falls only
through transfers and burns of its own, so everything other parties do can only
raise it. -/
namespace AfroPay.TokenLedger
open Panics

variable {Address : Type} [DecidableEq Address]

/-- Balances by token contract, then holder. -/
abbrev Ledger (Address : Type) := Address → Address → Int

/-- Add a signed amount to one balance. -/
def credit (ledger : Ledger Address) (asset holder : Address) (amount : Int) : Ledger Address :=
  fun token account => if token = asset ∧ account = holder then ledger token account + amount
    else ledger token account

/-- The SEP-41 `transfer`. -/
def transfer (ledger : Ledger Address) (asset sender recipient : Address) (amount : Int) :
    Except String (Ledger Address) := do
  panicIf (amount < 0) "amount must be non-negative"
  panicIf (ledger asset sender < amount) "insufficient balance"
  pure (credit (credit ledger asset sender (-amount)) asset recipient amount)

theorem transfer_ok {ledger after : Ledger Address} {asset sender recipient : Address} {amount : Int} :
    transfer ledger asset sender recipient amount = .ok after ↔
      0 ≤ amount ∧ amount ≤ ledger asset sender ∧
        credit (credit ledger asset sender (-amount)) asset recipient amount = after := by
  simp only [transfer, bind_ok, panicIf_ok, pure_ok, exists_const, not_lt]

/-- A transfer between other accounts leaves a balance alone. -/
theorem transfer_elsewhere {ledger after : Ledger Address} {asset sender recipient token account : Address}
    {amount : Int} (moved : transfer ledger asset sender recipient amount = .ok after)
    (elsewhere : token ≠ asset ∨ account ≠ sender ∧ account ≠ recipient) :
    after token account = ledger token account := by
  obtain ⟨-, -, rfl⟩ := transfer_ok.mp moved
  rcases elsewhere with other | ⟨notSender, notRecipient⟩
  · simp [credit, other]
  · simp [credit, notSender, notRecipient]

/-- The receiving contract gains exactly the amount. -/
theorem transfer_received {ledger after : Ledger Address} {asset sender recipient : Address} {amount : Int}
    (moved : transfer ledger asset sender recipient amount = .ok after) (distinct : sender ≠ recipient) :
    after asset recipient = ledger asset recipient + amount := by
  obtain ⟨-, -, rfl⟩ := transfer_ok.mp moved
  simp [credit, distinct.symm]

/-- The paying account loses exactly the amount, or nothing when it pays itself. -/
theorem transfer_paid {ledger after : Ledger Address} {asset sender recipient : Address} {amount : Int}
    (moved : transfer ledger asset sender recipient amount = .ok after) :
    after asset sender = if recipient = sender then ledger asset sender
      else ledger asset sender - amount := by
  obtain ⟨-, -, rfl⟩ := transfer_ok.mp moved
  by_cases same : recipient = sender
  · simp [credit, same]
  · simp [credit, Ne.symm same, same, sub_eq_add_neg]

/-- What a transfer adds to each balance. -/
def flow (asset sender recipient : Address) (amount : Int) : Ledger Address := fun token account =>
  (if token = asset ∧ account = recipient then amount else 0) - if token = asset ∧ account = sender then amount else 0

/-- Transfers add up, so their order does not matter for the balances they leave. -/
theorem transfer_flow {ledger after : Ledger Address} {asset sender recipient : Address} {amount : Int} :
    transfer ledger asset sender recipient amount = .ok after ↔
      0 ≤ amount ∧ amount ≤ ledger asset sender ∧ ledger + flow asset sender recipient amount = after := by
  have same : credit (credit ledger asset sender (-amount)) asset recipient amount =
      ledger + flow asset sender recipient amount := by
    funext token account
    simp only [credit, flow, Pi.add_apply]
    grind
  rw [transfer_ok, same]

/-- Token calls by parties other than the contract under study. -/
inductive Activity (Address : Type) where
  | mint (asset recipient : Address) (amount : Nat)
  | transfer (asset sender recipient : Address) (amount : Int)
  | burn (asset holder : Address) (amount : Nat)
  deriving DecidableEq

/-- The ledger after a token call that `self` did not make. A failing call, and
one that would spend `self`'s balance without its authorisation, change nothing. -/
def Activity.apply (self : Address) (ledger : Ledger Address) : Activity Address → Ledger Address
  | .mint asset recipient amount => credit ledger asset recipient amount
  | .transfer asset sender recipient amount =>
    if sender = self then ledger
    else match TokenLedger.transfer ledger asset sender recipient amount with
      | .ok after => after
      | .error _ => ledger
  | .burn asset holder amount =>
    if holder = self ∨ ledger asset holder < amount then ledger
    else credit ledger asset holder (-amount)

/-- What others do never lowers the contract's balance. -/
theorem activity_keeps_balance (self asset : Address) (ledger : Ledger Address)
    (activity : Activity Address) : ledger asset self ≤ activity.apply self ledger asset self := by
  cases activity with
  | mint token recipient amount =>
    simp only [Activity.apply, credit]
    split <;> omega
  | transfer token sender recipient amount =>
    by_cases own : sender = self
    · simp [Activity.apply, own]
    · cases moved : TokenLedger.transfer ledger token sender recipient amount with
      | error text => simp [Activity.apply, own, moved]
      | ok after =>
        simp only [Activity.apply, own, ↓reduceIte, moved]
        by_cases here : asset = token ∧ self = recipient
        · obtain ⟨rfl, rfl⟩ := here
          rw [transfer_received moved own]
          have positive := (transfer_ok.mp moved).1
          omega
        · rw [transfer_elsewhere moved (by grind)]
  | burn token holder amount =>
    simp only [Activity.apply]
    split
    · exact le_rfl
    · simp only [credit]
      split <;> grind

end AfroPay.TokenLedger
