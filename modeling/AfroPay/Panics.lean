import Mathlib.Algebra.Group.Int.Defs
import Mathlib.Algebra.Group.Nat.Defs
import Mathlib.Order.Basic
import Mathlib.Tactic.Common

/-! Fallible calls with checked machine integers. A call that panics returns
its panic text and changes nothing; the lemmas take a successful call apart
into its successful parts. -/
namespace AfroPay.Panics

variable {α β : Type}

/-- Stop with a panic text when the condition holds. -/
def panicIf (condition : Prop) [Decidable condition] (text : String) : Except String Unit :=
  if condition then .error text else .ok ()

/-- The value of an option, or a panic with the given text. -/
def expect (text : String) : Option α → Except String α
  | some value => .ok value
  | none => .error text

def i128Min : Int := -(2 ^ 127)

def i128Max : Int := 2 ^ 127 - 1

def u64Max : Nat := 2 ^ 64 - 1

/-- The exact result of a 128-bit operation, or a panic when it is out of range. -/
def fit (text : String) (exact : Int) : Except String Int :=
  if i128Min ≤ exact ∧ exact ≤ i128Max then .ok exact else .error text

/-- The exact result of a 64-bit unsigned operation, or a panic when it is out of range. -/
def fitU64 (text : String) (exact : Nat) : Except String Nat :=
  if exact ≤ u64Max then .ok exact else .error text

/-- `u64::saturating_add`. -/
def saturatingAdd (a b : Nat) : Nat := min (a + b) u64Max

theorem bind_ok {Failure : Type} {call : Except Failure α} {next : α → Except Failure β} {result : β} :
    (call >>= next) = .ok result ↔ ∃ value, call = .ok value ∧ next value = .ok result := by
  cases call <;> simp [bind, Except.bind]

theorem pure_ok {Failure : Type} {value result : α} :
    (pure value : Except Failure α) = .ok result ↔ value = result := by
  simp [pure, Except.pure]

theorem map_fst_ok {Failure : Type} {call : Except Failure (α × β)} {result : α} :
    (Prod.fst <$> call) = .ok result ↔ ∃ value, call = .ok (result, value) := by
  cases call <;> simp [Functor.map, Except.map, Prod.ext_iff]

theorem panicIf_ok {condition : Prop} [Decidable condition] {text : String} {done : Unit} :
    panicIf condition text = .ok done ↔ ¬ condition := by
  unfold panicIf
  split <;> simp_all

theorem expect_ok {text : String} {found : Option α} {value : α} :
    expect text found = .ok value ↔ found = some value := by
  cases found <;> simp [expect]

theorem fit_ok {text : String} {exact value : Int} :
    fit text exact = .ok value ↔ exact = value ∧ i128Min ≤ value ∧ value ≤ i128Max := by
  unfold fit
  split
  · simp only [Except.ok.injEq]
    constructor
    · rintro rfl
      exact ⟨rfl, by assumption⟩
    · exact fun h => h.1
  · simp only [reduceCtorEq, false_iff]
    rintro ⟨rfl, within⟩
    contradiction

theorem fitU64_ok {text : String} {exact value : Nat} :
    fitU64 text exact = .ok value ↔ exact = value ∧ value ≤ u64Max := by
  unfold fitU64
  split
  · simp only [Except.ok.injEq]
    constructor
    · rintro rfl
      exact ⟨rfl, by assumption⟩
    · exact fun h => h.1
  · simp only [reduceCtorEq, false_iff]
    rintro ⟨rfl, within⟩
    contradiction

end AfroPay.Panics
