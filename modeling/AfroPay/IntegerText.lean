import AfroPay.ScriptText
import Mathlib.Data.Nat.Size
import Mathlib.Tactic.Linarith

/-! Unbounded integers as text and as bytes: the radix texts JavaScript and Python print, the
texts `BigInt` accepts, and big-endian bytes either from hexadecimal digits or by division. -/
namespace AfroPay.IntegerText
open ScriptText

def digitValue (c : Char) : Option Nat :=
  if '0' ≤ c ∧ c ≤ '9' then some (c.toNat - '0'.toNat)
  else if 'a' ≤ c ∧ c ≤ 'f' then some (c.toNat - 'a'.toNat + 10)
  else if 'A' ≤ c ∧ c ≤ 'F' then some (c.toNat - 'A'.toNat + 10)
  else none

def readDigits (radix : Nat) (total : Nat) : List Char → Option Nat
  | [] => some total
  | c :: rest =>
    match digitValue c with
    | some digit => if digit < radix then readDigits radix (total * radix + digit) rest else none
    | none => none

/-- A literal needs at least one digit. -/
def readNumeral (radix : Nat) (digits : List Char) : Option Nat :=
  if digits = [] then none else readDigits radix 0 digits

/-- `BigInt(text)`, with nothing for a `SyntaxError`. Only decimals may carry a sign. -/
def bigInt (text : List Char) : Option Int :=
  match trim text with
  | [] => some 0
  | '0' :: 'x' :: digits | '0' :: 'X' :: digits => (readNumeral 16 digits).map Int.ofNat
  | '0' :: 'o' :: digits | '0' :: 'O' :: digits => (readNumeral 8 digits).map Int.ofNat
  | '0' :: 'b' :: digits | '0' :: 'B' :: digits => (readNumeral 2 digits).map Int.ofNat
  | '-' :: digits => (readNumeral 10 digits).map fun n => -(n : Int)
  | '+' :: digits => (readNumeral 10 digits).map Int.ofNat
  | digits => (readNumeral 10 digits).map Int.ofNat

/-- `n.toString(radix)`. -/
def toText (radix : Nat) (n : Int) : List Char :=
  if n < 0 then '-' :: Nat.toDigits radix n.natAbs else Nat.toDigits radix n.natAbs

/-- Python's `hex(n)`. -/
def hex (n : Int) : List Char :=
  if n < 0 then '-' :: '0' :: 'x' :: Nat.toDigits 16 n.natAbs else '0' :: 'x' :: Nat.toDigits 16 n.natAbs

/-- Python's `n.bit_length()`. -/
def bitLength (n : Int) : Nat := n.natAbs.size

/-- `Buffer.from(text, 'hex')`: decoding stops at the first pair that is not two digits. -/
def fromHex : List Char → List UInt8
  | a :: b :: rest =>
    match digitValue a, digitValue b with
    | some high, some low => UInt8.ofNat (high * 16 + low) :: fromHex rest
    | _, _ => []
  | _ => []

/-- `buffer.toString('hex')`. -/
def toHex (bytes : List UInt8) : List Char :=
  bytes.flatMap fun byte => [Nat.digitChar (byte.toNat / 16), Nat.digitChar (byte.toNat % 16)]

/-- A leading zero makes the number of digits even. -/
def padEven (digits : List Char) : List Char := if digits.length % 2 = 1 then '0' :: digits else digits

/-- Python's `n.to_bytes(length, "big")` of a number that fits. -/
def toBytes : (length : Nat) → (n : Nat) → List UInt8
  | 0, _ => []
  | length + 1, n => toBytes length (n / 256) ++ [UInt8.ofNat (n % 256)]

/-- Python's `int.from_bytes(bytes, "big")`. -/
def ofBytes (bytes : List UInt8) : Nat := bytes.foldl (fun n byte => n * 256 + byte.toNat) 0

@[simp] theorem length_toBytes (length n : Nat) : (toBytes length n).length = length := by
  induction length generalizing n with
  | zero => rfl
  | succ length ih => rw [toBytes, List.length_append, ih, List.length_singleton]

/-- The bytes read back as what fits into so many. -/
theorem ofBytes_toBytes (length n : Nat) : ofBytes (toBytes length n) = n % 256 ^ length := by
  induction length generalizing n with
  | zero => rw [pow_zero, Nat.mod_one]; rfl
  | succ length ih =>
    simp only [ofBytes] at ih ⊢
    have digit : (UInt8.ofNat (n % 256)).toNat = n % 256 := by simp
    rw [toBytes, List.foldl_append, ih, List.foldl_cons, List.foldl_nil, digit, pow_succ', Nat.mod_mul]
    omega

@[simp] theorem digitValue_digitChar {digit : Nat} (small : digit < 16) :
    digitValue (Nat.digitChar digit) = some digit := by
  have table : ∀ d ∈ List.range 16, digitValue (Nat.digitChar d) = some d := by decide
  exact table digit (List.mem_range.mpr small)

/-- Hexadecimal texts of bytes read back. -/
theorem fromHex_toHex (bytes : List UInt8) : fromHex (toHex bytes) = bytes := by
  induction bytes with
  | nil => rfl
  | cons byte rest ih =>
    have small : byte.toNat < 256 := byte.toNat_lt
    have whole : UInt8.ofNat (byte.toNat / 16 * 16 + byte.toNat % 16) = byte := by
      rw [Nat.div_add_mod', UInt8.ofNat_toNat]
    rw [toHex] at ih ⊢
    simp only [List.flatMap_cons, List.cons_append, List.nil_append, fromHex]
    rw [digitValue_digitChar (by omega), digitValue_digitChar (by omega), ih]
    simp only [whole]

theorem isHex_of_mem_toHex {bytes : List UInt8} {c : Char} (member : c ∈ toHex bytes) : (digitValue c).isSome := by
  obtain ⟨byte, -, pair⟩ := List.mem_flatMap.mp member
  have small : byte.toNat < 256 := byte.toNat_lt
  simp only [List.mem_cons, List.not_mem_nil, or_false] at pair
  rcases pair with rfl | rfl
  · rw [digitValue_digitChar (by omega)]
    rfl
  · rw [digitValue_digitChar (by omega)]
    rfl

theorem readDigits_append (radix total : Nat) (a b : List Char) :
    readDigits radix total (a ++ b) = (readDigits radix total a).bind fun n => readDigits radix n b := by
  induction a generalizing total with
  | nil => rfl
  | cons c rest ih =>
    simp only [List.cons_append, readDigits]
    cases digitValue c with
    | none => rfl
    | some digit =>
      dsimp only
      split
      · exact ih _
      · rfl

/-- Printed digits read back as the number, in any radix up to sixteen. -/
theorem readDigits_toDigits {radix : Nat} (one_lt : 1 < radix) (le : radix ≤ 16) (n : Nat) :
    readDigits radix 0 (Nat.toDigits radix n) = some n := by
  induction n using Nat.base_induction radix one_lt with
  | single m small =>
    rw [Nat.toDigits_of_lt_base small]
    simp only [readDigits, digitValue_digitChar (lt_of_lt_of_le small le), if_pos small]
    simp
  | digit m k small positive ih =>
    rw [← Nat.toDigits_append_toDigits one_lt positive small, readDigits_append, ih,
      Nat.toDigits_of_lt_base small]
    simp only [Option.bind_some, readDigits, digitValue_digitChar (lt_of_lt_of_le small le), if_pos small]
    rw [mul_comm]

theorem readNumeral_toDigits {radix : Nat} (one_lt : 1 < radix) (le : radix ≤ 16) (n : Nat) :
    readNumeral radix (Nat.toDigits radix n) = some n := by
  rw [readNumeral, if_neg Nat.toDigits_ne_nil, readDigits_toDigits one_lt le]

/-- Every printed digit is the character of a digit below the radix. -/
theorem digit_of_mem_toDigits {radix : Nat} (one_lt : 1 < radix) {n : Nat} {c : Char}
    (mem : c ∈ Nat.toDigits radix n) : ∃ digit < radix, c = Nat.digitChar digit := by
  induction n using Nat.base_induction radix one_lt with
  | single m small =>
    rw [Nat.toDigits_of_lt_base small, List.mem_singleton] at mem
    exact ⟨m, small, mem⟩
  | digit m k small positive ih =>
    rw [← Nat.toDigits_append_toDigits one_lt positive small, Nat.toDigits_of_lt_base small,
      List.mem_append, List.mem_singleton] at mem
    rcases mem with mem | mem
    · exact ih mem
    · exact ⟨k, small, mem⟩

private theorem digitChar_not_space {digit : Nat} (small : digit < 16) :
    isStrWhiteSpace (Nat.digitChar digit) = false := by
  have table : ∀ d ∈ List.range 16, isStrWhiteSpace (Nat.digitChar d) = false := by decide
  exact table digit (List.mem_range.mpr small)

private theorem toDigits_visible {radix : Nat} (one_lt : 1 < radix) (le : radix ≤ 16) (n : Nat) :
    ∀ c ∈ Nat.toDigits radix n, isStrWhiteSpace c = false := by
  intro c mem
  obtain ⟨digit, small, rfl⟩ := digit_of_mem_toDigits one_lt mem
  exact digitChar_not_space (lt_of_lt_of_le small le)

/-- Only a leading sign makes a number negative. -/
theorem bigInt_nonneg {rest : List Char} {n : Int} (read : bigInt ('0' :: rest) = some n) : 0 ≤ n := by
  obtain ⟨kept, trimmed⟩ := trim_cons (show isStrWhiteSpace '0' = false by decide) rest
  rw [bigInt, trimmed] at read
  split at read
  all_goals simp_all
  all_goals omega

/-- `BigInt` reads what Python's `hex` printed. -/
theorem bigInt_hex {n : Int} (nonneg : 0 ≤ n) : bigInt (hex n) = some n := by
  obtain ⟨m, rfl⟩ := Int.eq_ofNat_of_zero_le nonneg
  have visible : ∀ c ∈ '0' :: 'x' :: Nat.toDigits 16 m, isStrWhiteSpace c = false := by
    intro c mem
    rw [List.mem_cons, List.mem_cons] at mem
    rcases mem with rfl | rfl | mem
    · decide
    · decide
    · exact toDigits_visible (by decide) (by decide) m c mem
  rw [hex, if_neg (by omega), Int.natAbs_natCast, bigInt, trim_visible visible]
  have read : readNumeral 16 (Nat.toDigits 16 m) = some m := readNumeral_toDigits (by decide) (by decide) m
  simp only [read]
  rfl

private theorem first_digit (n : Nat) : ∃ digit < 10, ∃ rest, Nat.toDigits 10 n = Nat.digitChar digit :: rest ∧
    ∀ c ∈ rest, ∃ d < 10, c = Nat.digitChar d := by
  have digits : ∀ c ∈ Nat.toDigits 10 n, ∃ d < 10, c = Nat.digitChar d := fun c mem =>
    digit_of_mem_toDigits (by decide) mem
  cases text : Nat.toDigits 10 n with
  | nil => exact absurd text Nat.toDigits_ne_nil
  | cons c rest =>
    rw [text] at digits
    obtain ⟨digit, small, rfl⟩ := digits c List.mem_cons_self
    exact ⟨digit, small, rest, rfl, fun c mem => digits c (List.mem_cons_of_mem _ mem)⟩

/-- `BigInt` reads what Python's `str` printed. -/
theorem bigInt_decimal {n : Int} (nonneg : 0 ≤ n) : bigInt (toText 10 n) = some n := by
  obtain ⟨m, rfl⟩ := Int.eq_ofNat_of_zero_le nonneg
  have read : readNumeral 10 (Nat.toDigits 10 m) = some m := readNumeral_toDigits (by decide) (by decide) m
  obtain ⟨digit, small, rest, text, others⟩ := first_digit m
  -- a decimal digit starts neither a sign nor, followed by another one, a radix prefix
  have notSign : Nat.digitChar digit ≠ '-' ∧ Nat.digitChar digit ≠ '+' := by
    have table : ∀ d ∈ List.range 10, Nat.digitChar d ≠ '-' ∧ Nat.digitChar d ≠ '+' := by decide
    exact table digit (List.mem_range.mpr small)
  have notRadix : ∀ c ∈ rest, c ∉ ['x', 'X', 'o', 'O', 'b', 'B'] := by
    intro c mem
    obtain ⟨d, lt, rfl⟩ := others c mem
    have table : ∀ d ∈ List.range 10, Nat.digitChar d ∉ ['x', 'X', 'o', 'O', 'b', 'B'] := by decide
    exact table d (List.mem_range.mpr lt)
  rw [toText, if_neg (by omega), Int.natAbs_natCast, bigInt, trim_visible (toDigits_visible (by decide) (by decide) m)]
  rw [text] at read ⊢
  split <;> simp_all

/-- As many binary digits as bits. -/
theorem length_toText_two {n : Int} (positive : 0 < n) : (toText 2 n).length = bitLength n := by
  obtain ⟨m, rfl⟩ := Int.eq_ofNat_of_zero_le positive.le
  have some_bits : 0 < m.size := Nat.size_pos.mpr (by omega)
  rw [toText, if_neg (by omega), bitLength, Int.natAbs_natCast]
  apply le_antisymm
  · exact (Nat.length_toDigits_le_iff (by decide) some_bits).mpr (Nat.lt_size_self m)
  · exact Nat.size_le.mpr ((Nat.length_toDigits_le_iff (by decide) Nat.length_toDigits_pos).mp le_rfl)

private theorem fromHex_append {digits : List Char} (even : digits.length % 2 = 0)
    (isDigit : ∀ c ∈ digits, ∃ d < 16, c = Nat.digitChar d) (rest : List Char) :
    fromHex (digits ++ rest) = fromHex digits ++ fromHex rest := by
  induction digits using fromHex.induct with
  | case1 a b tail high low ha hb ih =>
    have tail_even : tail.length % 2 = 0 := by
      simp only [List.length_cons] at even
      omega
    have tail_digits := ih tail_even fun c mem => isDigit c (List.mem_cons_of_mem _ (List.mem_cons_of_mem _ mem))
    simp only [List.cons_append, fromHex, ha, hb, tail_digits]
  | case2 a b tail unread =>
    obtain ⟨high, high_lt, rfl⟩ := isDigit a List.mem_cons_self
    obtain ⟨low, low_lt, rfl⟩ := isDigit b (List.mem_cons_of_mem _ List.mem_cons_self)
    exact absurd (digitValue_digitChar low_lt) (unread high low (digitValue_digitChar high_lt))
  | case3 text short =>
    match text, short with
    | [], _ => rfl
    | [c], _ => simp at even
    | a :: b :: tail, short => exact absurd rfl (short a b tail)

private theorem toDigits_byte {n : Nat} (large : 256 ≤ n) : Nat.toDigits 16 n =
    Nat.toDigits 16 (n / 256) ++ [Nat.digitChar (n / 16 % 16), Nat.digitChar (n % 16)] := by
  rw [Nat.toDigits_of_base_le (by decide) (show 16 ≤ n by omega),
    Nat.toDigits_of_base_le (by decide) (show 16 ≤ n / 16 by omega), Nat.div_div_eq_div_mul, List.append_assoc]
  rfl

private theorem size_byte {n : Nat} (large : 256 ≤ n) : n.size = (n / 256).size + 8 := by
  have wide : 8 < n.size := Nat.lt_size.mpr (by omega)
  apply le_antisymm
  · rw [Nat.size_le, pow_add]
    have quotient := Nat.lt_size_self (n / 256)
    omega
  · suffices (n / 256).size ≤ n.size - 8 by omega
    rw [Nat.size_le, Nat.div_lt_iff_lt_mul (by decide), ← show 2 ^ 8 = 256 from rfl, ← pow_add,
      Nat.sub_add_cancel wide.le]
    exact Nat.lt_size_self n

private theorem padEven_append_pair (digits : List Char) (a b : Char) :
    padEven (digits ++ [a, b]) = padEven digits ++ [a, b] := by
  simp only [padEven, List.length_append, List.length_cons, List.length_nil]
  split <;> split <;> first | rfl | omega

private theorem padEven_digits {n : Nat} : (padEven (Nat.toDigits 16 n)).length % 2 = 0 ∧
    ∀ c ∈ padEven (Nat.toDigits 16 n), ∃ d < 16, c = Nat.digitChar d := by
  have digits : ∀ c ∈ Nat.toDigits 16 n, ∃ d < 16, c = Nat.digitChar d := fun c mem =>
    digit_of_mem_toDigits (by decide) mem
  unfold padEven
  split
  case isTrue odd =>
    refine ⟨by rw [List.length_cons]; omega, fun c mem => ?_⟩
    rcases List.mem_cons.mp mem with rfl | mem
    · exact ⟨0, by decide, rfl⟩
    · exact digits c mem
  case isFalse even => exact ⟨by omega, digits⟩

private theorem fromHex_pair {high low : Nat} (high_lt : high < 16) (low_lt : low < 16) :
    fromHex [Nat.digitChar high, Nat.digitChar low] = [UInt8.ofNat (high * 16 + low)] := by
  simp only [fromHex, digitValue_digitChar high_lt, digitValue_digitChar low_lt]

/-- Hexadecimal digits in pairs are the big-endian bytes of the number, as many as its bits need
and at least one. -/
theorem fromHex_toDigits (n : Nat) :
    fromHex (padEven (Nat.toDigits 16 n)) = toBytes (max 1 ((n.size + 7) / 8)) n := by
  induction n using Nat.strong_induction_on with
  | _ n ih =>
    by_cases small : n < 256
    · have one : max 1 ((n.size + 7) / 8) = 1 := by
        have bits : n.size ≤ 8 := Nat.size_le.mpr small
        omega
      have pair : padEven (Nat.toDigits 16 n) = [Nat.digitChar (n / 16), Nat.digitChar (n % 16)] := by
        by_cases single : n < 16
        · rw [Nat.toDigits_of_lt_base single, Nat.div_eq_of_lt single, Nat.mod_eq_of_lt single]
          rfl
        · rw [Nat.toDigits_of_base_le (by decide) (by omega), Nat.toDigits_of_lt_base (by omega)]
          simp [padEven]
      rw [one, pair, fromHex_pair (by omega) (by omega), Nat.div_add_mod' n 16]
      simp [toBytes, Nat.mod_eq_of_lt small]
    · have large : 256 ≤ n := by omega
      have more : max 1 ((n.size + 7) / 8) = max 1 (((n / 256).size + 7) / 8) + 1 := by
        have bits := size_byte large
        have some_bits : 0 < (n / 256).size := Nat.size_pos.mpr (by omega)
        omega
      have value : n / 16 % 16 * 16 + n % 16 = n % 256 := by omega
      rw [toDigits_byte large, padEven_append_pair, fromHex_append padEven_digits.1 padEven_digits.2,
        ih (n / 256) (by omega), fromHex_pair (by omega) (by omega), value, more]
      rfl

end AfroPay.IntegerText
