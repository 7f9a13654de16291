import Mathlib.Data.List.GetD
import Mathlib.Data.Nat.Bits
import Mathlib.Tactic.Linarith

/-! The Groth16 compliance circuit. Its range check folds over the bits from the most significant
one down, but lets the later bit overrule: the lowest bit in which amount and limit differ decides,
where the highest one should. -/
namespace AfroPay.ComplianceCircuit

/-- The comparison loop over bits `i - 1` down to `0`; `le` is what the bits above left. -/
def compareFrom (amountBits limitBits : List Bool) : (i : Nat) → (le : Bool) → Bool
  | 0, le => le
  | i + 1, le =>
    let aLess := !amountBits.getD i false && limitBits.getD i false
    let eq := amountBits.getD i false == limitBits.getD i false
    compareFrom amountBits limitBits i (aLess || (eq && le))

/-- `le` after the loop, which starts from true at the last of the amount's bits. -/
def compareBits (amountBits limitBits : List Bool) : Bool := compareFrom amountBits limitBits amountBits.length true

/-- Value of little-endian bits. -/
def value : List Bool → Nat
  | [] => 0
  | b :: rest => b.toNat + 2 * value rest

/-- The second list's bit at the lowest index where the two differ. -/
def lowest : List Bool → List Bool → Option Bool
  | a :: as, b :: bs => if a = b then lowest as bs else some b
  | _, _ => none

/-- The second list's bit at the highest index where the two differ. -/
def highest : List Bool → List Bool → Option Bool
  | a :: as, b :: bs => (highest as bs).or (if a = b then none else some b)
  | _, _ => none

/-- Induction over two lists of one length. -/
theorem equal_lengths {motive : (as bs : List Bool) → as.length = bs.length → Prop} (nil : motive [] [] rfl)
    (cons : ∀ (a b : Bool) (as bs : List Bool) (length : as.length = bs.length), motive as bs length →
      motive (a :: as) (b :: bs) (congrArg (· + 1) length)) :
    ∀ (as bs : List Bool) (length : as.length = bs.length), motive as bs length
  | [], [], _ => nil
  | a :: as, b :: bs, length => cons a b as bs (by simpa using length) (equal_lengths nil cons as bs _)

theorem lowest_append {as bs : List Bool} (length : as.length = bs.length) (a b : Bool) :
    lowest (as ++ [a]) (bs ++ [b]) = (lowest as bs).or (if a = b then none else some b) := by
  induction as, bs, length using equal_lengths with
  | nil => rfl
  | cons x y xs ys _ ih =>
    simp only [List.cons_append, lowest]
    split
    · exact ih
    · rfl

/-- The loop's step: every bit taken in overrules the ones above it, unless it is equal. -/
theorem compareFrom_eq {as bs : List Bool} (length : as.length = bs.length) {i : Nat} (within : i ≤ as.length)
    (le : Bool) : compareFrom as bs i le = (lowest (as.take i) (bs.take i)).getD le := by
  induction i generalizing le with
  | zero => rfl
  | succ i ih =>
    have inA : i < as.length := within
    have inB : i < bs.length := by omega
    rw [compareFrom, ih (by omega), List.take_succ_eq_append_getElem inA, List.take_succ_eq_append_getElem inB,
      lowest_append (by simp [length])]
    simp only [List.getD_eq_getElem _ _ inA, List.getD_eq_getElem _ _ inB]
    cases lowest (as.take i) (bs.take i) with
    | some decided => rfl
    | none => cases as[i] <;> cases bs[i] <;> simp

/-- The circuit's comparison is decided by the lowest bit that differs. -/
theorem compareBits_eq {as bs : List Bool} (length : as.length = bs.length) :
    compareBits as bs = (lowest as bs).getD true := by
  rw [compareBits, compareFrom_eq length le_rfl, List.take_length, length, List.take_length]

theorem lowest_eq_none {as bs : List Bool} (length : as.length = bs.length) : lowest as bs = none ↔ as = bs := by
  induction as, bs, length using equal_lengths with
  | nil => simp [lowest]
  | cons x y xs ys _ ih =>
    rw [lowest]
    split
    case isTrue same => simpa [same] using ih
    case isFalse differ => simp [differ]

/-- The order of the values is decided by the highest bit that differs. -/
theorem highest_decides {as bs : List Bool} (length : as.length = bs.length) :
    match highest as bs with
    | none => as = bs
    | some true => value as < value bs
    | some false => value bs < value as := by
  induction as, bs, length using equal_lengths with
  | nil => simp [highest]
  | cons x y xs ys _ ih =>
    have x_le := Bool.toNat_le x
    have y_le := Bool.toNat_le y
    simp only [highest]
    cases above : highest xs ys with
    | some decided =>
      -- the bits below add one at most, which does not make up for the two of a bit above
      rw [above] at ih
      cases decided with
      | true =>
        simp only [value, Option.some_or] at ih ⊢
        omega
      | false =>
        simp only [value, Option.some_or] at ih ⊢
        omega
    | none =>
      rw [above] at ih
      subst ih
      cases x <;> cases y <;> simp [value]

theorem value_le_iff {as bs : List Bool} (length : as.length = bs.length) :
    value as ≤ value bs ↔ highest as bs ≠ some false := by
  have decides := highest_decides length
  cases found : highest as bs with
  | none =>
    rw [found] at decides
    simp [decides]
  | some decided =>
    rw [found] at decides
    cases decided with
    | true => simpa using le_of_lt decides
    | false => simpa using decides

theorem highest_eq_none {as bs : List Bool} (length : as.length = bs.length) : highest as bs = none ↔ as = bs := by
  have decides := highest_decides length
  constructor
  · intro found
    rwa [found] at decides
  · rintro rfl
    cases found : highest as as with
    | none => rfl
    | some decided =>
      rw [found] at decides
      cases decided <;> exact absurd decides (lt_irrefl _)

/-- The comparison is right exactly when the lowest and the highest differing bit agree. -/
theorem compareBits_correct_iff {as bs : List Bool} (length : as.length = bs.length) :
    (compareBits as bs = true ↔ value as ≤ value bs) ↔ lowest as bs = highest as bs := by
  rw [compareBits_eq length, value_le_iff length]
  have none_iff := (lowest_eq_none length).trans (highest_eq_none length).symm
  cases low : lowest as bs with
  | none => simp [none_iff.mp low]
  | some l =>
    cases high : highest as bs with
    | none => simp [none_iff.mpr high] at low
    | some h => cases l <;> cases h <;> simp

/-- The scalar field of a curve by its modulus and the number of bits its elements take. -/
structure ScalarField where
  modulus : Nat
  bits : Nat
  fits : modulus ≤ 2 ^ bits

abbrev ScalarField.Element (f : ScalarField) := Fin f.modulus

/-- `Fr` of BLS12-381. -/
def fr : ScalarField where
  modulus := 0x73eda753299d7d483339d80809a1d80553bda402fffe5bfeffffffff00000001
  bits := 255
  fits := by decide +kernel

structure Circuit (f : ScalarField) where
  commitment : Option f.Element
  maxLimit : Option f.Element
  amount : Option f.Element
  salt : Option f.Element

inductive SynthesisError where
  | assignmentMissing
  deriving Repr, DecidableEq

def assigned {α : Type} : Option α → Except SynthesisError α
  | some x => .ok x
  | none => .error .assignmentMissing

/-- What `to_bits_le` enforces of the bits it allocates: their weighted sum is the element, and
they are below the modulus. -/
def isBitsLe (f : ScalarField) (x : f.Element) (bits : List Bool) : Bool :=
  bits.length = f.bits ∧ value bits % f.modulus = x ∧ value bits < f.modulus

section Circuits
variable {f : ScalarField} (poseidon : f.Element → f.Element → f.Element)

/-- The constraints as a predicate on the bits the prover allocates. -/
def generateConstraints (circuit : Circuit f) : Except SynthesisError (List Bool → List Bool → Bool) := do
  let commitment ← assigned circuit.commitment
  let maxLimit ← assigned circuit.maxLimit
  let amount ← assigned circuit.amount
  let salt ← assigned circuit.salt
  return fun amountBits limitBits => commitment = poseidon amount salt && isBitsLe f amount amountBits &&
    isBitsLe f maxLimit limitBits && compareBits amountBits limitBits

/-- Some allocation of bits satisfies the constraints. -/
def Satisfiable (commitment maxLimit amount salt : f.Element) : Prop :=
  ∃ system amountBits limitBits,
    generateConstraints poseidon ⟨some commitment, some maxLimit, some amount, some salt⟩ = .ok system ∧
      system amountBits limitBits = true

/-- The bits of an element. -/
def toBitsLe (x : f.Element) : List Bool := (List.range f.bits).map fun i => x.val.testBit i

/-- Values of lists of one length are equal only for equal lists. -/
theorem value_injective {as bs : List Bool} (length : as.length = bs.length) (same : value as = value bs) : as = bs := by
  have decides := highest_decides length
  cases found : highest as bs with
  | none => rwa [found] at decides
  | some decided =>
    rw [found] at decides
    cases decided <;> omega

private theorem value_bitsOf (x n : Nat) : value ((List.range n).map fun i => x.testBit i) = x % 2 ^ n := by
  induction n generalizing x with
  | zero => simp [value, Nat.mod_one]
  | succ n ih =>
    have shifted : ((List.range n).map fun i => x.testBit (i + 1)) = (List.range n).map fun i => (x / 2).testBit i := by
      simp [Nat.testBit_succ]
    rw [List.range_succ_eq_map, List.map_cons, List.map_map, value]
    simp only [Function.comp_def, Nat.succ_eq_add_one, shifted, ih, Nat.testBit_zero]
    rw [pow_succ', Nat.mod_mul]
    rcases Nat.mod_two_eq_zero_or_one x with parity | parity <;> simp [parity]

theorem value_toBitsLe (x : f.Element) : value (toBitsLe x) = x := by
  rw [toBitsLe, value_bitsOf, Nat.mod_eq_of_lt (lt_of_lt_of_le x.isLt f.fits)]

theorem length_toBitsLe (x : f.Element) : (toBitsLe x).length = f.bits := by simp [toBitsLe]

/-- The enforced bits are the element's own. -/
theorem isBitsLe_iff (x : f.Element) (bits : List Bool) : isBitsLe f x bits = true ↔ bits = toBitsLe x := by
  rw [isBitsLe, decide_eq_true_eq]
  constructor
  · rintro ⟨length, residue, reduced⟩
    rw [Nat.mod_eq_of_lt reduced] at residue
    exact value_injective (length.trans (length_toBitsLe x).symm) (residue.trans (value_toBitsLe x).symm)
  · rintro rfl
    rw [value_toBitsLe, Nat.mod_eq_of_lt x.isLt]
    exact ⟨length_toBitsLe x, rfl, x.isLt⟩

/-- The circuit is satisfiable by the opening of the commitment whose bits pass the loop. -/
theorem satisfiable_iff (commitment maxLimit amount salt : f.Element) :
    Satisfiable poseidon commitment maxLimit amount salt ↔
      commitment = poseidon amount salt ∧ compareBits (toBitsLe amount) (toBitsLe maxLimit) = true := by
  constructor
  · rintro ⟨system, amountBits, limitBits, generated, satisfied⟩
    obtain rfl := Except.ok.inj generated
    simp only [Bool.and_eq_true, decide_eq_true_eq, isBitsLe_iff] at satisfied
    obtain ⟨⟨⟨opened, rfl⟩, rfl⟩, compared⟩ := satisfied
    exact ⟨opened, compared⟩
  · rintro ⟨opened, compared⟩
    refine ⟨_, toBitsLe amount, toBitsLe maxLimit, rfl, ?_⟩
    simp only [Bool.and_eq_true, decide_eq_true_eq, isBitsLe_iff]
    exact ⟨⟨⟨opened, trivial⟩, trivial⟩, compared⟩

/-- Loop and circuit decide amount against limit exactly when the lowest bit in which the two
differ says the same as the highest one. A commitment that does not open is refused in any case. -/
theorem range_check_exact :
    (∀ (n : Nat) (amountBits limitBits : List Bool), amountBits.length = n → limitBits.length = n →
      ((compareBits amountBits limitBits = true ↔ value amountBits ≤ value limitBits) ↔
        lowest amountBits limitBits = highest amountBits limitBits)) ∧
    (∀ commitment maxLimit amount salt : f.Element,
      ((Satisfiable poseidon commitment maxLimit amount salt ↔
          commitment = poseidon amount salt ∧ amount ≤ maxLimit) ↔
        commitment ≠ poseidon amount salt ∨
          lowest (toBitsLe amount) (toBitsLe maxLimit) = highest (toBitsLe amount) (toBitsLe maxLimit))) := by
  refine ⟨?_, ?_⟩
  · rintro n amountBits limitBits amount_length limit_length
    exact compareBits_correct_iff (amount_length.trans limit_length.symm)
  · intro commitment maxLimit amount salt
    have correct := compareBits_correct_iff ((length_toBitsLe amount).trans (length_toBitsLe maxLimit).symm)
    rw [value_toBitsLe, value_toBitsLe, ← Fin.le_def] at correct
    rw [satisfiable_iff, ← correct]
    by_cases opened : commitment = poseidon amount salt
    · simp [opened]
    · simp [opened]

end Circuits

/-- An amount of 1 under the limit of the crate's own test is refused, and 2 passes a limit of 1. -/
theorem test_amount_refused :
    compareBits (toBitsLe (f := fr) ⟨1, by decide +kernel⟩) (toBitsLe (f := fr) ⟨200000, by decide +kernel⟩) = false ∧
    compareBits [false, true] [true, false] = true ∧ value [true, false] < value [false, true] ∧
    ¬ ∀ (n : Nat) (amountBits limitBits : List Bool), amountBits.length = n → limitBits.length = n →
      (compareBits amountBits limitBits = true ↔ value amountBits ≤ value limitBits) := by
  refine ⟨by decide +kernel, by decide, by decide, fun exact => ?_⟩
  have wrong := exact 2 [false, true] [true, false] rfl rfl
  exact absurd (wrong.mp (by decide)) (by decide)

end AfroPay.ComplianceCircuit
