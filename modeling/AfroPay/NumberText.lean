import Mathlib.Algebra.Order.Floor.Semiring
import Mathlib.Data.List.TakeWhile
import Mathlib.Data.Rat.Floor
import Mathlib.Tactic.Common
import Mathlib.Tactic.Linarith
import Mathlib.Tactic.Ring

/-! Numbers as text: how JavaScript rounds a number to a fixed number of places and renders
it, and how Rust reads a 64-bit integer and a float. A number with a fixed number of places
is given by its count of units of the last place. -/
namespace AfroPay.NumberText

/-- The units of the last place that `toFixed(places)` shows, ties going up. -/
def toFixed (places : Nat) (x : ℚ) : ℤ := ⌊x * 10 ^ places + 1 / 2⌋

/-- The number that a list of decimal digits denotes. -/
def value (digits : List Char) : Nat := Nat.ofDigitChars 10 digits 0

/-- The decimal digits without their trailing zeros. -/
def significant (n : Nat) : List Char := ((Nat.toDigits 10 n).reverse.dropWhile (· = '0')).reverse

/-- `e+21`, `e-7` and the like. -/
def exponentText (exponent : ℤ) : List Char :=
  'e' :: (if 0 ≤ exponent then '+' else '-') :: Nat.toDigits 10 exponent.natAbs

/-- `String(x)` for the number of `units` units of the last of `places` places. With `d` the
significant digits and `point` the position of the decimal point in them, the text is
positional for `-6 < point ≤ 21` and exponential otherwise. -/
def render (places units : Nat) : List Char :=
  let digits := significant units
  let point : ℤ := (Nat.toDigits 10 units).length - places
  if units = 0 then ['0']
  else if digits.length ≤ point ∧ point ≤ 21 then digits ++ List.replicate (point - digits.length).toNat '0'
  else if 0 < point ∧ point ≤ 21 then digits.take point.toNat ++ '.' :: digits.drop point.toNat
  else if -6 < point ∧ point ≤ 0 then '0' :: '.' :: (List.replicate (-point).toNat '0' ++ digits)
  else match digits with
    | [digit] => digit :: exponentText (point - 1)
    | digit :: rest => digit :: '.' :: (rest ++ exponentText (point - 1))
    | [] => []

def i64Min : ℤ := -(2 ^ 63)

def i64Max : ℤ := 2 ^ 63 - 1

/-- What `str::parse` says of a text that is no integer of the type. -/
inductive ParseIntError where
  | empty
  | invalidDigit
  | posOverflow
  | negOverflow
  deriving DecidableEq

/-- An optional sign before the digits. -/
inductive Sign where
  | none
  | plus
  | minus
  deriving DecidableEq

def Sign.text : Sign → List Char
  | .none => []
  | .plus => ['+']
  | .minus => ['-']

def Sign.apply : Sign → Nat → ℤ
  | .minus, n => -n
  | _, n => n

@[simp] theorem Sign.apply_none (n : Nat) : Sign.none.apply n = n := rfl

/-- What a number of this sign is too large for the type in. -/
def Sign.overflow : Sign → ParseIntError
  | .minus => .negOverflow
  | _ => .posOverflow

/-- The digits one after another, up to the first that is none or takes the number out of the type. -/
def checkedDigits (sign : Sign) : Nat → List Char → Except ParseIntError ℤ
  | result, [] => .ok (sign.apply result)
  | result, c :: rest =>
    if ¬ c.isDigit then .error .invalidDigit
    else
      let next := result * 10 + value [c]
      if i64Min ≤ sign.apply next ∧ sign.apply next ≤ i64Max then checkedDigits sign next rest
      else .error sign.overflow

/-- `str::parse::<i64>`. -/
def parseI64 : List Char → Except ParseIntError ℤ
  | [] => .error .empty
  | first :: rest =>
    if (first = '-' ∨ first = '+') ∧ rest = [] then .error .invalidDigit
    else if first = '-' then checkedDigits .minus 0 rest
    else if first = '+' then checkedDigits .plus 0 rest
    else checkedDigits .none 0 (first :: rest)

/-- A parsed float, before it is rounded to the nearest double. -/
inductive F64 where
  | nan
  | infinite (negative : Bool)
  | number (x : ℚ)
  deriving DecidableEq

/-- `x <= 0.0` after rounding: half of the least positive double still rounds to zero, and
no comparison with NaN holds. -/
def F64.nonPositive : F64 → Bool
  | .nan => false
  | .infinite negative => negative
  | .number x => x ≤ 1 / 2 ^ 1075

def splitSign : List Char → Bool × List Char
  | '-' :: rest => (true, rest)
  | '+' :: rest => (false, rest)
  | text => (false, text)

/-- The exponent part `('e' | 'E') [sign] Digit+` that a text begins with, and what follows; none at all
counts as zero. -/
def readExponent : List Char → ℤ × List Char
  | [] => (0, [])
  | mark :: rest =>
    let (negative, tail) := splitSign rest
    let digits := tail.takeWhile Char.isDigit
    if (mark = 'e' ∨ mark = 'E') ∧ digits ≠ [] then
      (if negative then -(value digits : ℤ) else value digits, tail.dropWhile Char.isDigit)
    else (0, mark :: rest)

/-- The decimal `Digit* ['.' Digit*] Exp?` that a text begins with, with at least one digit before the
exponent, and what follows. -/
def readDecimal (text : List Char) : Option (ℚ × List Char) :=
  let whole := text.takeWhile Char.isDigit
  let (frac, tail) := match text.dropWhile Char.isDigit with
    | '.' :: rest => (rest.takeWhile Char.isDigit, rest.dropWhile Char.isDigit)
    | rest => ([], rest)
  if whole = [] ∧ frac = [] then none
  else
    let (exponent, rest) := readExponent tail
    some (((value (whole ++ frac) : ℚ) / 10 ^ frac.length) * (10 : ℚ) ^ exponent, rest)

/-- A text that is a decimal to its end. -/
def parseDecimal (text : List Char) : Option ℚ :=
  match readDecimal text with
  | some (x, []) => some x
  | _ => none

/-- `str::parse::<f64>`. -/
def parseF64 (text : List Char) : Option F64 :=
  let (negative, body) := splitSign text
  let word := String.ofList (body.map Char.toLower)
  if word = "inf" ∨ word = "infinity" then some (.infinite negative)
  else if word = "nan" then some .nan
  else (parseDecimal body).map fun x => .number (if negative then -x else x)

theorem value_append (a b : List Char) : value (a ++ b) = value a * 10 ^ b.length + value b := by
  unfold value
  rw [Nat.ofDigitChars_append, Nat.ofDigitChars_eq_ofDigitChars_zero, mul_comm]

theorem value_cons (c : Char) (rest : List Char) : value (c :: rest) = value [c] * 10 ^ rest.length + value rest :=
  value_append [c] rest

theorem value_singleton {c : Char} (isDigit : c.isDigit = true) : value [c] + '0'.toNat = c.toNat ∧ value [c] < 10 := by
  have range := Char.isDigit_iff_toNat.mp isDigit
  have digit : value [c] = c.toNat - '0'.toNat := by simp [value, Nat.ofDigitChars_cons]
  have zero : '0'.toNat = 48 := rfl
  have nine : '9'.toNat = 57 := rfl
  omega

/-- A run of digits stays below the power of ten of its length. -/
theorem value_lt {digits : List Char} (isDigit : ∀ c ∈ digits, c.isDigit = true) :
    value digits < 10 ^ digits.length := by
  induction digits with
  | nil => exact Nat.one_pos
  | cons c rest ih =>
    have below := ih fun d mem => isDigit d (List.mem_cons_of_mem _ mem)
    have single := (value_singleton (isDigit c List.mem_cons_self)).2
    rw [value_cons, List.length_cons, pow_succ]
    nlinarith only [below, single]

/-- Runs of digits of one length differ in their value. -/
theorem value_injective {a b : List Char} (a_digits : ∀ c ∈ a, c.isDigit = true) (b_digits : ∀ c ∈ b, c.isDigit = true)
    (length : a.length = b.length) (same : value a = value b) : a = b := by
  induction a generalizing b with
  | nil => exact (List.eq_nil_of_length_eq_zero length.symm).symm
  | cons c rest ih =>
    obtain ⟨d, others, rfl⟩ := List.exists_cons_of_length_eq_add_one length.symm
    have rest_digits := fun e member => a_digits e (List.mem_cons_of_mem c member)
    have other_digits := fun e member => b_digits e (List.mem_cons_of_mem d member)
    have shorter : rest.length = others.length := Nat.succ.inj length
    obtain ⟨c_value, -⟩ := value_singleton (a_digits c List.mem_cons_self)
    obtain ⟨d_value, -⟩ := value_singleton (b_digits d List.mem_cons_self)
    have rest_lt := value_lt rest_digits
    have other_lt := value_lt other_digits
    rw [value_cons, value_cons d, shorter, mul_comm, mul_comm (value [d])] at same
    rw [shorter] at rest_lt
    have power : 0 < 10 ^ others.length := by positivity
    have heads := congrArg (· / 10 ^ others.length) same
    simp only [Nat.mul_add_div power, Nat.div_eq_of_lt rest_lt, Nat.div_eq_of_lt other_lt, add_zero] at heads
    have tails : value rest = value others := by
      rw [heads] at same
      exact Nat.add_left_cancel same
    rw [ih rest_digits other_digits shorter tails, Char.toNat_inj.mp (by omega : c.toNat = d.toNat)]

@[simp] theorem value_zeros (count : Nat) : value (List.replicate count '0') = 0 := by
  simp [value]

@[simp] theorem value_toDigits (n : Nat) : value (Nat.toDigits 10 n) = n :=
  Nat.ofDigitChars_ten_toDigits

theorem isDigit_of_mem_toDigits {n : Nat} {c : Char} (mem : c ∈ Nat.toDigits 10 n) : c.isDigit = true :=
  Nat.isDigit_of_mem_toDigits (by decide) (by decide) mem

/-- Only zeros are cut off. -/
theorem toDigits_eq_significant (n : Nat) :
    Nat.toDigits 10 n =
      significant n ++ List.replicate ((Nat.toDigits 10 n).length - (significant n).length) '0' := by
  have parts := List.takeWhile_append_dropWhile (p := (· = '0')) (l := (Nat.toDigits 10 n).reverse)
  have split : Nat.toDigits 10 n =
      significant n ++ ((Nat.toDigits 10 n).reverse.takeWhile (· = '0')).reverse := by
    rw [significant, ← List.reverse_append, parts, List.reverse_reverse]
  have zeros : ((Nat.toDigits 10 n).reverse.takeWhile (· = '0')).reverse =
      List.replicate ((Nat.toDigits 10 n).reverse.takeWhile (· = '0')).length '0' := by
    rw [List.eq_replicate_iff]
    refine ⟨List.length_reverse, fun c mem => ?_⟩
    simpa using List.mem_takeWhile_imp (List.mem_reverse.mp mem)
  have length := congrArg List.length split
  rw [List.length_append, List.length_reverse] at length
  rw [show (Nat.toDigits 10 n).length - (significant n).length =
    ((Nat.toDigits 10 n).reverse.takeWhile (· = '0')).length by omega, ← zeros]
  exact split

theorem length_significant_le (n : Nat) : (significant n).length ≤ (Nat.toDigits 10 n).length := by
  have length := congrArg List.length (toDigits_eq_significant n)
  rw [List.length_append] at length
  omega

theorem significant_ne_nil {n : Nat} (positive : 0 < n) : significant n ≠ [] := by
  intro empty
  have digits := toDigits_eq_significant n
  rw [empty, List.nil_append] at digits
  have zero := congrArg value digits
  rw [value_toDigits, value_zeros] at zero
  omega

/-- A positional text: digits, and a point with further digits unless there are none. -/
def positional (whole frac : List Char) : List Char :=
  whole ++ if frac = [] then [] else '.' :: frac

/-- The parts of a positional text and the units they stand for. -/
structure Denotes (places : Nat) (whole frac : List Char) (units : Nat) : Prop where
  whole_ne : whole ≠ []
  whole_digits : ∀ c ∈ whole, c.isDigit = true
  frac_digits : ∀ c ∈ frac, c.isDigit = true
  frac_length : frac.length ≤ places
  units : value whole * 10 ^ places + value (frac ++ List.replicate (places - frac.length) '0') = units

/-- The digits after the point, filled up with zeros. -/
theorem Denotes.filled {places units : Nat} {whole frac : List Char} (denotes : Denotes places whole frac units) :
    (frac ++ List.replicate (places - frac.length) '0').length = places ∧
      ∀ c ∈ frac ++ List.replicate (places - frac.length) '0', c.isDigit = true := by
  have short := denotes.frac_length
  constructor
  · rw [List.length_append, List.length_replicate]
    omega
  · intro c mem
    rcases List.mem_append.mp mem with digit | zero
    · exact denotes.frac_digits c digit
    · rw [List.eq_of_mem_replicate zero]
      rfl

/-- They stay below one unit of the whole part. -/
theorem Denotes.filled_lt {places units : Nat} {whole frac : List Char} (denotes : Denotes places whole frac units) :
    value (frac ++ List.replicate (places - frac.length) '0') < 10 ^ places := by
  obtain ⟨length, isDigit⟩ := denotes.filled
  have below := value_lt isDigit
  rwa [length] at below

/-- It is enough that both parts, filled up with zeros, are the digits of the number after
some leading zeros. -/
theorem denotes_of_digits (gap : Nat) {places units : Nat} {whole frac : List Char} (whole_ne : whole ≠ [])
    (frac_length : frac.length ≤ places)
    (parts : whole ++ (frac ++ List.replicate (places - frac.length) '0') =
      List.replicate gap '0' ++ Nat.toDigits 10 units) : Denotes places whole frac units := by
  have isDigit : ∀ c ∈ List.replicate gap '0' ++ Nat.toDigits 10 units, c.isDigit = true := by
    intro c mem
    rcases List.mem_append.mp mem with zero | digit
    · rw [List.eq_of_mem_replicate zero]
      rfl
    · exact isDigit_of_mem_toDigits digit
  rw [← parts] at isDigit
  refine ⟨whole_ne, fun c mem => isDigit c (List.mem_append_left _ mem),
    fun c mem => isDigit c (List.mem_append_right _ (List.mem_append_left _ mem)), frac_length, ?_⟩
  have length : (frac ++ List.replicate (places - frac.length) '0').length = places := by
    rw [List.length_append, List.length_replicate]
    omega
  have exact := congrArg value parts
  rw [value_append, value_append (List.replicate gap '0'), value_zeros, value_toDigits, length] at exact
  omega

/-- Between the two exponential ranges the text is positional and exact. -/
theorem render_positional {places units : Nat} (positive : 0 < units)
    (low : places < (Nat.toDigits 10 units).length + 6) (high : (Nat.toDigits 10 units).length ≤ places + 21) :
    ∃ whole frac, render places units = positional whole frac ∧ Denotes places whole frac units := by
  have digits := toDigits_eq_significant units
  have shorter := length_significant_le units
  have nonempty := significant_ne_nil positive
  have length := List.length_pos_iff.mpr nonempty
  simp only [render, if_neg positive.ne']
  split
  · -- All significant digits stand before the point.
    rename_i before
    refine ⟨significant units ++
      List.replicate ((Nat.toDigits 10 units).length - places - (significant units).length) '0', [], ?_,
      denotes_of_digits 0 (by simp [nonempty]) (by simp) ?_⟩
    · rw [positional, if_pos rfl, List.append_nil]
      congr 2
      omega
    · rw [List.append_assoc, List.nil_append, ← List.replicate_add, List.replicate_zero, List.nil_append]
      convert digits.symm using 3
      simp only [List.length_nil]
      omega
  split
  · -- The point stands among them.
    rename_i within
    obtain ⟨cut, cutEq⟩ : ∃ cut : Nat, ((Nat.toDigits 10 units).length : ℤ) - places = cut :=
      ⟨(Nat.toDigits 10 units).length - places, by omega⟩
    rw [cutEq, Int.toNat_natCast]
    have rest : (significant units).drop cut ≠ [] := by
      rw [Ne, List.drop_eq_nil_iff]
      omega
    refine ⟨(significant units).take cut, (significant units).drop cut, by rw [positional, if_neg rest],
      denotes_of_digits 0 ?_ ?_ ?_⟩
    · rw [Ne, List.take_eq_nil_iff]
      simp only [nonempty, or_false]
      omega
    · rw [List.length_drop]
      omega
    · rw [← List.append_assoc, List.take_append_drop, List.length_drop, List.replicate_zero, List.nil_append]
      convert digits.symm using 3
      omega
  split
  · -- Zeros fill the gap between the point and the first digit.
    rename_i after
    obtain ⟨gap, gapEq⟩ : ∃ gap : Nat, -(((Nat.toDigits 10 units).length : ℤ) - places) = gap :=
      ⟨places - (Nat.toDigits 10 units).length, by omega⟩
    rw [gapEq, Int.toNat_natCast]
    refine ⟨['0'], List.replicate gap '0' ++ significant units, by simp [positional, nonempty],
      denotes_of_digits (gap + 1) (by simp) ?_ ?_⟩
    · rw [List.length_append, List.length_replicate]
      omega
    · rw [List.length_append, List.length_replicate, List.replicate_succ, List.append_assoc, List.cons_append,
        List.cons_append, List.nil_append]
      congr 2
      convert digits.symm using 3
      omega
  · exfalso
    omega

private theorem sign_not_digit {c : Char} (digit : c.isDigit = true) : c ≠ '-' ∧ c ≠ '+' ∧ c ≠ '.' := by
  refine ⟨?_, ?_, ?_⟩ <;> (rintro rfl; revert digit; decide)

/-- What is no further from zero than a number of the type is one of the type. -/
theorem Sign.apply_inside {sign : Sign} {n m : Nat} (le : n ≤ m)
    (inside : i64Min ≤ sign.apply m ∧ sign.apply m ≤ i64Max) : i64Min ≤ sign.apply n ∧ sign.apply n ≤ i64Max := by
  unfold i64Min i64Max at *
  cases sign <;> simp only [Sign.apply] at * <;> omega

/-- The digits are read when all are some and the number is of the type; no part of it is larger. -/
theorem checkedDigits_ok_iff {sign : Sign} {result : Nat} {text : List Char} {n : ℤ}
    (inside : i64Min ≤ sign.apply result ∧ sign.apply result ≤ i64Max) : checkedDigits sign result text = .ok n ↔
      (∀ c ∈ text, c.isDigit = true) ∧ sign.apply (result * 10 ^ text.length + value text) = n ∧
        i64Min ≤ n ∧ n ≤ i64Max := by
  induction text generalizing result with
  | nil =>
    have read : checkedDigits sign result [] = .ok (sign.apply result) := rfl
    have nothing : value [] = 0 := rfl
    simp only [read, Except.ok.injEq, List.not_mem_nil, false_implies, implies_true, true_and, List.length_nil, pow_zero,
      mul_one, nothing, Nat.add_zero]
    exact ⟨fun same => ⟨same, same ▸ inside⟩, And.left⟩
  | cons c rest ih =>
    have whole : result * 10 ^ (c :: rest).length + value (c :: rest) =
        (result * 10 + value [c]) * 10 ^ rest.length + value rest := by
      rw [value_cons c rest, List.length_cons]
      ring
    rw [whole, List.forall_mem_cons]
    by_cases digit : c.isDigit = true
    · by_cases fits : i64Min ≤ sign.apply (result * 10 + value [c]) ∧ sign.apply (result * 10 + value [c]) ≤ i64Max
      · simp only [checkedDigits, digit, not_true_eq_false, if_false, fits, and_self, if_true]
        rw [ih fits]
        simp only [true_and]
      · simp only [checkedDigits, digit, not_true_eq_false, if_false, if_neg fits, reduceCtorEq, false_iff]
        rintro ⟨-, rfl, range⟩
        refine fits (Sign.apply_inside ?_ range)
        exact (Nat.le_mul_of_pos_right _ (Nat.pow_pos (by decide))).trans (Nat.le_add_right _ _)
    · simp only [checkedDigits, digit, not_false_eq_true, if_true, reduceCtorEq, false_iff]
      rintro ⟨⟨isDigit, -⟩, -⟩
      exact isDigit.elim

/-- The texts of integers: an optional sign and digits, within range. -/
theorem parseI64_ok_iff {text : List Char} {n : ℤ} : parseI64 text = .ok n ↔
    ∃ (sign : Sign) (digits : List Char), text = sign.text ++ digits ∧ digits ≠ [] ∧ (∀ c ∈ digits, c.isDigit = true) ∧
      sign.apply (value digits) = n ∧ i64Min ≤ n ∧ n ≤ i64Max := by
  have zero (sign : Sign) : i64Min ≤ sign.apply 0 ∧ sign.apply 0 ≤ i64Max := by
    cases sign <;> decide
  have read (sign : Sign) (digits : List Char) : checkedDigits sign 0 digits = .ok n ↔
      (∀ c ∈ digits, c.isDigit = true) ∧ sign.apply (value digits) = n ∧ i64Min ≤ n ∧ n ≤ i64Max := by
    rw [checkedDigits_ok_iff (zero sign), Nat.zero_mul, Nat.zero_add]
  constructor
  · intro ok
    cases text with
    | nil => cases ok
    | cons first rest =>
      rw [parseI64] at ok
      split at ok
      · cases ok
      rename_i bare
      split at ok
      · rename_i minus
        exact ⟨.minus, rest, congrArg (· :: rest) minus, fun none => bare ⟨.inl minus, none⟩, (read _ _).mp ok⟩
      split at ok
      · rename_i plus
        exact ⟨.plus, rest, congrArg (· :: rest) plus, fun none => bare ⟨.inr plus, none⟩, (read _ _).mp ok⟩
      · exact ⟨.none, first :: rest, rfl, List.cons_ne_nil _ _, (read _ _).mp ok⟩
  · rintro ⟨sign, digits, rfl, nonempty, accepted⟩
    have ok := (read sign digits).mpr accepted
    cases sign with
    | none =>
      obtain ⟨first, rest, rfl⟩ := List.exists_cons_of_ne_nil nonempty
      obtain ⟨minus, plus, -⟩ := sign_not_digit (accepted.1 first List.mem_cons_self)
      rw [Sign.text, List.nil_append, parseI64, if_neg (by simp [minus, plus]), if_neg minus, if_neg plus]
      exact ok
    | plus =>
      rw [Sign.text, List.singleton_append, parseI64, if_neg (by simp [nonempty]), if_neg (by decide), if_pos rfl]
      exact ok
    | minus =>
      rw [Sign.text, List.singleton_append, parseI64, if_neg (by simp [nonempty]), if_pos rfl]
      exact ok

/-- A run of digits is read as its value. -/
theorem parseI64_digits {digits : List Char} (nonempty : digits ≠ []) (isDigit : ∀ c ∈ digits, c.isDigit = true)
    (fits : (value digits : ℤ) ≤ i64Max) : parseI64 digits = .ok (value digits : ℤ) :=
  parseI64_ok_iff.mpr ⟨.none, digits, rfl, nonempty, isDigit, rfl, by unfold i64Min; omega, fits⟩

-- the overflow comes before the letter, as the digits are read one after another
example : parseI64 "9999999999999999999x".toList = .error .posOverflow := by decide

theorem takeWhile_digits {digits : List Char} (rest : List Char) (isDigit : ∀ c ∈ digits, c.isDigit = true)
    (stop : ∀ c ∈ rest.head?, c.isDigit = false) :
    (digits ++ rest).takeWhile Char.isDigit = digits ∧ (digits ++ rest).dropWhile Char.isDigit = rest := by
  rw [List.takeWhile_append_of_pos isDigit, List.dropWhile_append_of_pos isDigit]
  cases rest with
  | nil => simp
  | cons c rest =>
    have no : c.isDigit = false := stop c rfl
    simp [no]

/-- Zeros that fill up the digits after the point do not change what the text stands for. -/
theorem value_filled {places : Nat} {whole frac : List Char} (short : frac.length ≤ places) :
    (value (whole ++ frac) : ℚ) / 10 ^ frac.length =
      ((value whole * 10 ^ places + value (frac ++ List.replicate (places - frac.length) '0') : Nat) : ℚ) /
        10 ^ places := by
  have scaled : value whole * 10 ^ places + value (frac ++ List.replicate (places - frac.length) '0') =
      value (whole ++ frac) * 10 ^ (places - frac.length) := by
    rw [value_append, value_append, List.length_replicate, value_zeros, Nat.add_zero, Nat.add_mul, Nat.mul_assoc,
      ← pow_add, Nat.add_sub_cancel' short]
  have split : (10 : ℚ) ^ places = 10 ^ frac.length * 10 ^ (places - frac.length) := by
    rw [← pow_add, Nat.add_sub_cancel' short]
  rw [scaled, split, Nat.cast_mul, Nat.cast_pow, Nat.cast_ofNat, mul_div_mul_right _ _ (by positivity)]

/-- The same number, whether it is read with the places of its text or with all places. -/
theorem value_of_denotes {places units : Nat} {whole frac : List Char} (denotes : Denotes places whole frac units) :
    (value (whole ++ frac) : ℚ) / 10 ^ frac.length = (units : ℚ) / 10 ^ places := by
  rw [value_filled denotes.frac_length, denotes.units]

/-- A decimal that begins with a digit has no sign. -/
theorem splitSign_positional {whole frac : List Char} (rest : List Char) (whole_ne : whole ≠ [])
    (whole_digits : ∀ c ∈ whole, c.isDigit = true) :
    splitSign (positional whole frac ++ rest) = (false, positional whole frac ++ rest) := by
  obtain ⟨first, others, rfl⟩ := List.exists_cons_of_ne_nil whole_ne
  obtain ⟨minus, plus, -⟩ := sign_not_digit (whole_digits first List.mem_cons_self)
  rw [positional, List.cons_append, List.cons_append]
  unfold splitSign
  split <;> simp_all

/-- A decimal ends where neither a digit nor a point nor an exponent follows. -/
theorem readDecimal_positional {whole frac rest : List Char} (whole_ne : whole ≠ [])
    (whole_digits : ∀ c ∈ whole, c.isDigit = true) (frac_digits : ∀ c ∈ frac, c.isDigit = true)
    (stops : ∀ c ∈ rest.head?, c.isDigit = false ∧ c ≠ '.' ∧ c ≠ 'e' ∧ c ≠ 'E') :
    readDecimal (positional whole frac ++ rest) = some ((value (whole ++ frac) : ℚ) / 10 ^ frac.length, rest) := by
  have digitless : ∀ c ∈ rest.head?, c.isDigit = false := fun c member => (stops c member).1
  have plain : readExponent rest = (0, rest) := by
    cases rest with
    | nil => rfl
    | cons c rest =>
      obtain ⟨-, -, lower, upper⟩ := stops c rfl
      simp [readExponent, lower, upper]
  by_cases none : frac = []
  · subst none
    obtain ⟨taken, dropped⟩ := takeWhile_digits rest whole_digits digitless
    simp only [positional, if_true, List.append_nil, readDecimal, taken, dropped]
    split
    · rename_i after
      exact absurd rfl (stops '.' rfl).2.1
    · simp [plain, whole_ne]
  · obtain ⟨taken, dropped⟩ := takeWhile_digits ('.' :: (frac ++ rest)) whole_digits (by simp)
    obtain ⟨fracTaken, fracDropped⟩ := takeWhile_digits rest frac_digits digitless
    simp only [positional, if_neg none, List.append_assoc, List.cons_append, readDecimal, taken, dropped, fracTaken,
      fracDropped, whole_ne, false_and, if_false, plain, zpow_zero, mul_one]

theorem parseDecimal_positional {places units : Nat} {whole frac : List Char}
    (denotes : Denotes places whole frac units) :
    parseDecimal (positional whole frac) = some ((units : ℚ) / 10 ^ places) := by
  have stops : ∀ c ∈ ([] : List Char).head?, c.isDigit = false ∧ c ≠ '.' ∧ c ≠ 'e' ∧ c ≠ 'E' := by simp
  have read := readDecimal_positional denotes.whole_ne denotes.whole_digits denotes.frac_digits stops
  rw [List.append_nil] at read
  rw [parseDecimal, read, value_of_denotes denotes]

theorem parseF64_positional {places units : Nat} {whole frac : List Char} (denotes : Denotes places whole frac units) :
    parseF64 (positional whole frac) = some (.number ((units : ℚ) / 10 ^ places)) := by
  obtain ⟨first, rest, wholeEq⟩ := List.exists_cons_of_ne_nil denotes.whole_ne
  have digit : first.isDigit = true := denotes.whole_digits first (by rw [wholeEq]; exact List.mem_cons_self)
  obtain ⟨tail, textEq⟩ : ∃ tail, positional whole frac = first :: tail := ⟨_, by rw [positional, wholeEq]; rfl⟩
  have unsigned : splitSign (positional whole frac) = (false, positional whole frac) := by
    simpa only [List.append_nil] using splitSign_positional [] denotes.whole_ne denotes.whole_digits
  have lower : first.toLower = first := by
    refine dif_neg ?_
    rintro ⟨upper, -⟩
    have below := (Char.isDigit_iff_toNat.mp digit).2
    have above : 'A'.toNat ≤ first.toNat := UInt32.le_iff_toNat_le.mp upper
    exact absurd (Nat.le_trans above below) (by decide)
  have word : ∀ letter letters, letter.isDigit = false →
      String.ofList ((positional whole frac).map Char.toLower) ≠ String.ofList (letter :: letters) := by
    intro letter letters no same
    rw [textEq, List.map_cons, lower, String.ofList_inj] at same
    cases same
    rw [digit] at no
    cases no
  simp only [parseF64, unsigned]
  rw [if_neg, if_neg, parseDecimal_positional denotes]
  · rfl
  · exact word 'n' ['a', 'n'] rfl
  · exact not_or.mpr ⟨word 'i' ['n', 'f'] rfl, word 'i' ['n', 'f', 'i', 'n', 'i', 't', 'y'] rfl⟩

end AfroPay.NumberText
