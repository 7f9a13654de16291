import AfroPay.AmountAgreement

/-! Which texts the worker reads as an amount. Both sides of the point go through an integer
parser that takes a sign, and the two integers are added unchecked, so that more texts are
read than the plain decimals that fit. -/
namespace AfroPay.StellarAmounts
open NumberText RebalanceAmounts AmountAgreement

/-- The text that `[0-9]+(\.[0-9]{0,7})?` matches, in its parts. -/
structure Plain (text whole frac : List Char) : Prop where
  split : Split text whole frac
  whole_ne : whole ≠ []
  whole_digits : ∀ c ∈ whole, c.isDigit = true
  frac_digits : ∀ c ∈ frac, c.isDigit = true
  frac_length : frac.length ≤ 7

/-- Just the plain decimals that fit are read, as the stroops they stand for, and no text
makes the worker panic. -/
def ReadsExactly (overflowChecks : Bool) (text : List Char) : Prop :=
  (∀ n, parseStellarAmount overflowChecks text = .ok n ↔
    ∃ whole frac, Plain text whole frac ∧ (n : ℚ) = decimalValue whole frac * 10 ^ 7 ∧ n ≤ i64Max) ∧
  parseStellarAmount overflowChecks text ≠ .panicked

def scale : Sign → ℤ
  | .minus => -1
  | _ => 1

/-- The text is a decimal, perhaps with a sign, and stands for this many stroops. -/
def IsAmount (text : List Char) (stroops : ℤ) : Prop :=
  ∃ sign whole frac, Split text (sign.text ++ whole) frac ∧ whole ≠ [] ∧ (∀ c ∈ whole, c.isDigit = true) ∧
    (∀ c ∈ frac, c.isDigit = true) ∧ (stroops : ℚ) = scale sign * (decimalValue whole frac * 10 ^ 7)

/-- Only the whole part has a sign, a negative amount is whole, and the sum fits. -/
def Regular (text : List Char) : Prop :=
  ∀ sign whole fracSign frac, Loose text sign whole fracSign frac →
    fracSign = .none ∧ (sign = .minus → value frac = 0) ∧
      (sign ≠ .minus → (value whole : ℤ) * 10000000 + value (filled .none frac) ≤ i64Max)

/-- What is read has no sign and fits when it is added up. -/
def Unsigned (text : List Char) : Prop :=
  ∀ sign whole fracSign frac, Loose text sign whole fracSign frac →
    sign = .none ∧ fracSign = .none ∧ (value whole : ℤ) * 10000000 + value (filled .none frac) ≤ i64Max

section Reading

variable {overflowChecks : Bool} {text whole frac : List Char} {sign fracSign : Sign}

/-- The filled fraction is the fraction in stroops. -/
theorem decimalValue_stroops (short : frac.length ≤ 7) :
    decimalValue whole frac * 10 ^ 7 = ((value whole * 10000000 + value (filled .none frac) : ℤ) : ℚ) := by
  rw [decimalValue, value_filled short, div_mul_cancel₀ _ (by positivity)]
  push_cast [filled, Sign.text]
  norm_num

theorem apply_eq (sign : Sign) (n : Nat) : sign.apply n = scale sign * n := by
  cases sign <;> simp [Sign.apply, scale]

/-- A plain text is read without signs, if its whole part fits. -/
theorem Plain.loose (plain : Plain text whole frac) (fits : (value whole : ℤ) * 10000000 ≤ i64Max) :
    Loose text .none whole .none frac :=
  ⟨plain.split, plain.whole_ne, plain.whole_digits, plain.frac_digits, plain.frac_length,
    by unfold i64Min; rw [Sign.apply_none]; omega, fits⟩

theorem Loose.plain (loose : Loose text .none whole .none frac) : Plain text whole frac :=
  ⟨loose.split, loose.whole_ne, loose.whole_digits, loose.frac_digits, loose.frac_length⟩

theorem plain_unique {whole' frac' : List Char} (first : Plain text whole frac) (second : Plain text whole' frac') :
    whole = whole' ∧ frac = frac' :=
  split_unique first.split second.split

/-- What is read without a sign in the fraction. -/
theorem Loose.read_eq (loose : Loose text sign whole .none frac)
    (fits : sign ≠ .minus → (value whole : ℤ) * 10000000 + value (filled .none frac) ≤ i64Max) :
    parseStellarAmount overflowChecks text =
      .ok (sign.apply (value whole) * 10000000 + value (filled .none frac)) := by
  have below := filled_lt loose.frac_digits loose.frac_length
  have whole_fits := loose.fits
  rw [loose.read, uncheckedAdd, Sign.apply_none]
  refine if_pos ?_
  rw [apply_eq] at *
  unfold fitsI64 i64Min i64Max at *
  cases sign with
  | minus =>
    simp only [scale] at *
    omega
  | none =>
    have sum := fits (by decide)
    simp only [scale] at *
    omega
  | plus =>
    have sum := fits (by decide)
    simp only [scale] at *
    omega

/-- Without signs the sum of the parts is read, if it fits. -/
theorem Plain.read (plain : Plain text whole frac)
    (fits : (value whole : ℤ) * 10000000 + value (filled .none frac) ≤ i64Max) :
    parseStellarAmount overflowChecks text = .ok (value whole * 10000000 + value (filled .none frac)) :=
  (plain.loose (by omega)).read_eq fun _ => fits

/-- A text that is plain has no signs. -/
theorem Loose.unsigned {whole' frac' : List Char} (loose : Loose text sign whole fracSign frac)
    (plain : Plain text whole' frac') : sign = .none ∧ fracSign = .none := by
  obtain ⟨rfl, rfl⟩ := split_unique loose.split plain.split
  exact ⟨sign_of_digits plain.whole_digits, sign_of_digits plain.frac_digits⟩

end Reading

/-- The worker reads just the plain decimals that fit, each exactly, unless the text has a
sign that the integer parser takes, or its two parts fit and their sum does not. -/
theorem reads_exactly_iff (overflowChecks : Bool) (text : List Char) :
    ReadsExactly overflowChecks text ↔ Unsigned text := by
  constructor
  · rintro ⟨exact_only, no_panic⟩ sign whole fracSign frac loose
    have read : parseStellarAmount overflowChecks text = _ := loose.read
    cases result : parseStellarAmount overflowChecks text with
    | err error =>
      rw [read, uncheckedAdd] at result
      split_ifs at result
    | panicked => exact absurd result no_panic
    | ok n =>
      obtain ⟨whole', frac', plain, denoted, fits⟩ := (exact_only n).mp result
      obtain ⟨rfl, rfl⟩ := loose.unsigned plain
      obtain ⟨rfl, rfl⟩ := plain_unique loose.plain plain
      rw [decimalValue_stroops plain.frac_length] at denoted
      have units : n = value whole * 10000000 + value (filled .none frac) := by exact_mod_cast denoted
      exact ⟨rfl, rfl, units ▸ fits⟩
  · intro unsigned
    have read : (∃ error, parseStellarAmount overflowChecks text = .err error) ∨ ∃ whole frac, Plain text whole frac ∧
        (value whole : ℤ) * 10000000 + value (filled .none frac) ≤ i64Max := by
      rcases loose_or_refused overflowChecks text with refused | ⟨sign, whole, fracSign, frac, loose⟩
      · exact .inl refused
      · obtain ⟨rfl, rfl, fits⟩ := unsigned _ _ _ _ loose
        exact .inr ⟨whole, frac, loose.plain, fits⟩
    refine ⟨fun n => ⟨fun ok => ?_, ?_⟩, fun panicked => ?_⟩
    · rcases read with ⟨error, refused⟩ | ⟨whole, frac, plain, fits⟩
      · rw [refused] at ok
        cases ok
      · rw [plain.read fits] at ok
        cases ok
        exact ⟨whole, frac, plain, (decimalValue_stroops plain.frac_length).symm, fits⟩
    · rintro ⟨whole, frac, plain, denoted, fits⟩
      rw [decimalValue_stroops plain.frac_length] at denoted
      have units : n = value whole * 10000000 + value (filled .none frac) := by exact_mod_cast denoted
      rw [units] at fits ⊢
      exact plain.read fits
    · rcases read with ⟨error, refused⟩ | ⟨whole, frac, plain, fits⟩
      · rw [refused] at panicked
        cases panicked
      · rw [plain.read fits] at panicked
        cases panicked

section Amounts

variable {text whole frac : List Char} {sign fracSign : Sign} {stroops : ℤ}

theorem denoted_iff (short : frac.length ≤ 7) :
    (stroops : ℚ) = scale sign * (decimalValue whole frac * 10 ^ 7) ↔
      stroops = scale sign * (value whole * 10000000 + value (filled .none frac)) := by
  rw [decimalValue_stroops short]
  exact_mod_cast Iff.rfl

/-- What a text without a sign in its fraction stands for. -/
theorem Loose.isAmount_iff (loose : Loose text sign whole fracSign frac) :
    IsAmount text stroops ↔ fracSign = .none ∧
      stroops = scale sign * (value whole * 10000000 + value (filled .none frac)) := by
  constructor
  · rintro ⟨sign', whole', frac', split, -, whole_digits, frac_digits, denoted⟩
    obtain ⟨whole_eq, rfl⟩ := split_unique loose.split split
    obtain ⟨rfl, rfl⟩ := signed_unique loose.whole_digits whole_digits whole_eq
    obtain rfl := sign_of_digits frac_digits
    exact ⟨rfl, (denoted_iff loose.frac_length).mp denoted⟩
  · rintro ⟨rfl, denoted⟩
    exact ⟨sign, whole, frac, loose.split, loose.whole_ne, loose.whole_digits, loose.frac_digits,
      (denoted_iff loose.frac_length).mpr denoted⟩

/-- An amount that is read is the one its text stands for just when the text is regular. -/
theorem isAmount_iff {overflowChecks : Bool} (ok : parseStellarAmount overflowChecks text = .ok stroops) :
    IsAmount text stroops ↔ Regular text := by
  obtain ⟨error, refused⟩ | ⟨sign, whole, fracSign, frac, loose⟩ := loose_or_refused overflowChecks text
  · rw [refused] at ok
    cases ok
  rw [loose.isAmount_iff]
  constructor
  · rintro ⟨rfl, denoted⟩ sign' whole' fracSign' frac' loose'
    obtain ⟨rfl, rfl, rfl, rfl⟩ := loose.unique loose'
    refine ⟨rfl, ?_, fun unsigned => ?_⟩
    · rintro rfl
      rw [loose.read_eq (fun other => absurd rfl other), apply_eq] at ok
      have read := Parsed.ok.inj ok
      rw [← filled_zero_iff]
      simp only [scale] at read denoted
      omega
    · have range := (parseStellarAmount_range ok).2
      cases sign <;> simp only [scale, ne_eq, not_true_eq_false] at * <;> omega
  · intro regular
    obtain ⟨rfl, whole_if_minus, fits⟩ := regular _ _ _ _ loose
    rw [loose.read_eq fits, apply_eq] at ok
    have read := Parsed.ok.inj ok
    rw [← filled_zero_iff] at whole_if_minus
    refine ⟨rfl, ?_⟩
    cases sign with
    | minus =>
      have none := whole_if_minus rfl
      simp only [scale] at read ⊢
      omega
    | none =>
      simp only [scale] at read ⊢
      omega
    | plus =>
      simp only [scale] at read ⊢
      omega

end Amounts

/-- The sign of a whole part of zero is lost: minus one half is read as one half. -/
theorem negative_half_read : ¬ ReadsExactly true "-0.5".toList := by
  rintro ⟨exact_only, -⟩
  obtain ⟨whole, frac, plain, -⟩ := (exact_only 5000000).mp (by decide +kernel)
  have signed : Split "-0.5".toList "-0".toList "5".toList := split_iff.mpr (by decide +kernel)
  obtain ⟨rfl, -⟩ := split_unique plain.split signed
  exact absurd (plain.whole_digits '-' (by decide +kernel)) (by decide)

end AfroPay.StellarAmounts
