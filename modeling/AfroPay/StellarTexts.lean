import AfroPay.RebalanceAmounts

/-! The texts that the worker's amount parser reads up to its last addition. Both sides of
the point go through an integer parser that takes a sign. -/
namespace AfroPay.StellarAmounts
open NumberText RebalanceAmounts

/-- `split_once('.')`, with nothing after a point that is not there. -/
def Split (text whole frac : List Char) : Prop :=
  '.' ∉ whole ∧ (text = whole ∧ frac = [] ∨ text = whole ++ '.' :: frac)

/-- The digits after the point, filled up to seven characters with the sign among them. -/
def filled (sign : Sign) (frac : List Char) : List Char :=
  frac ++ List.replicate (7 - (sign.text ++ frac).length) '0'

/-- The text that is read up to the addition: either part may have a sign. -/
structure Loose (text : List Char) (sign : Sign) (whole : List Char) (fracSign : Sign) (frac : List Char) : Prop where
  split : Split text (sign.text ++ whole) (fracSign.text ++ frac)
  whole_ne : whole ≠ []
  whole_digits : ∀ c ∈ whole, c.isDigit = true
  frac_digits : ∀ c ∈ frac, c.isDigit = true
  frac_length : (fracSign.text ++ frac).length ≤ 7
  fits : fitsI64 (sign.apply (value whole) * 10000000)

section Splitting

theorem split_iff {text whole frac : List Char} : Split text whole frac ↔
    text.takeWhile (· ≠ '.') = whole ∧ (text.dropWhile (· ≠ '.')).drop 1 = frac := by
  constructor
  · rintro ⟨no_point, parts⟩
    have before : ∀ c ∈ whole, decide (c ≠ '.') = true := fun c member =>
      decide_eq_true fun point => no_point (point ▸ member)
    rcases parts with ⟨rfl, rfl⟩ | rfl
    · rw [List.takeWhile_eq_self_iff.mpr before, List.dropWhile_eq_nil_iff.mpr before]
      exact ⟨rfl, rfl⟩
    · rw [List.takeWhile_append_of_pos before, List.dropWhile_append_of_pos before]
      simp
  · rintro ⟨rfl, rfl⟩
    refine ⟨fun point => by simpa using List.mem_takeWhile_imp point, ?_⟩
    have both := List.takeWhile_append_dropWhile (p := (· ≠ '.')) (l := text)
    have stopped := List.head?_dropWhile_not (· ≠ '.') text
    cases rest : text.dropWhile (· ≠ '.') with
    | nil =>
      rw [rest, List.append_nil] at both
      exact .inl ⟨both.symm, rfl⟩
    | cons c frac =>
      rw [rest] at both stopped
      have point : c = '.' := by simpa using stopped
      subst point
      exact .inr both.symm

theorem split_unique {text whole frac whole' frac' : List Char} (first : Split text whole frac)
    (second : Split text whole' frac') : whole = whole' ∧ frac = frac' := by
  obtain ⟨rfl, rfl⟩ := split_iff.mp first
  obtain ⟨rfl, rfl⟩ := split_iff.mp second
  exact ⟨rfl, rfl⟩

theorem sign_not_digit {sign : Sign} {c : Char} (member : c ∈ sign.text) : c.isDigit = false := by
  cases sign with
  | none => cases member
  | plus =>
    rw [List.mem_singleton.mp member]
    rfl
  | minus =>
    rw [List.mem_singleton.mp member]
    rfl

theorem sign_ends {sign : Sign} {start digits : List Char} (digits_only : ∀ c ∈ digits, c.isDigit = true)
    (same : sign.text = start ++ digits) : digits = [] := by
  refine List.eq_nil_iff_forall_not_mem.mpr fun c member => ?_
  have digit := digits_only c member
  rw [sign_not_digit (same ▸ List.mem_append_right _ member)] at digit
  cases digit

/-- What comes before the filling begins with the sign. -/
theorem signed_of_filled {sign : Sign} {text filling digits : List Char}
    (filling_digits : ∀ c ∈ filling, c.isDigit = true) (same : text ++ filling = sign.text ++ digits) :
    ∃ frac, text = sign.text ++ frac ∧ digits = frac ++ filling := by
  rcases List.append_eq_append_iff.mp same with ⟨between, sign_eq, filling_eq⟩ | ⟨frac, text_eq, digits_eq⟩
  · obtain rfl := sign_ends (fun c member => filling_digits c (filling_eq ▸ List.mem_append_left _ member)) sign_eq
    exact ⟨[], by rw [sign_eq, List.append_nil, List.append_nil], filling_eq.symm⟩
  · exact ⟨frac, text_eq, digits_eq⟩

theorem sign_of_digits {sign : Sign} {rest : List Char} (digits_only : ∀ c ∈ sign.text ++ rest, c.isDigit = true) :
    sign = .none := by
  cases sign with
  | none => rfl
  | plus => exact absurd (digits_only '+' List.mem_cons_self) (by decide)
  | minus => exact absurd (digits_only '-' List.mem_cons_self) (by decide)

/-- The sign and the digits of a text are its own. -/
theorem signed_unique {sign sign' : Sign} {digits digits' : List Char} (digits_only : ∀ c ∈ digits, c.isDigit = true)
    (digits_only' : ∀ c ∈ digits', c.isDigit = true) (same : sign.text ++ digits = sign'.text ++ digits') :
    sign = sign' ∧ digits = digits' := by
  obtain ⟨rest, sign_eq, digits_eq⟩ := signed_of_filled digits_only same
  obtain rfl := sign_ends (fun c member => digits_only' c (digits_eq ▸ List.mem_append_left _ member)) sign_eq
  rw [List.append_nil] at sign_eq
  refine ⟨?_, digits_eq.symm⟩
  cases sign <;> cases sign' <;> first | rfl | cases sign_eq

theorem byteLength_signed {sign : Sign} {digits : List Char} (digits_only : ∀ c ∈ digits, c.isDigit = true) :
    byteLength (sign.text ++ digits) = (sign.text ++ digits).length := by
  have bytes : byteLength (sign.text ++ digits) = byteLength sign.text + byteLength digits := by
    simp [byteLength]
  have sign_bytes : byteLength sign.text = sign.text.length := by cases sign <;> rfl
  rw [bytes, sign_bytes, byteLength_digits digits_only, List.length_append]

end Splitting

section Filling

variable {sign : Sign} {frac : List Char}

theorem filled_digits (frac_digits : ∀ c ∈ frac, c.isDigit = true) : ∀ c ∈ filled sign frac, c.isDigit = true := by
  intro c member
  rcases List.mem_append.mp member with digit | zero
  · exact frac_digits c digit
  · rw [List.eq_of_mem_replicate zero]
    rfl

theorem filled_length (short : (sign.text ++ frac).length ≤ 7) :
    (filled sign frac).length = 7 - sign.text.length := by
  rw [filled, List.length_append, List.length_replicate]
  rw [List.length_append] at *
  omega

theorem filled_ne (short : (sign.text ++ frac).length ≤ 7) : filled sign frac ≠ [] := by
  have length := filled_length short
  have one : sign.text.length ≤ 1 := by cases sign <;> decide
  rintro empty
  rw [empty, List.length_nil] at length
  omega

theorem filled_lt (frac_digits : ∀ c ∈ frac, c.isDigit = true) (short : (sign.text ++ frac).length ≤ 7) :
    value (filled sign frac) < 10 ^ 7 := by
  have below : value (filled sign frac) < 10 ^ (filled sign frac).length := value_lt (filled_digits frac_digits)
  rw [filled_length short] at below
  exact below.trans_le (Nat.pow_le_pow_right (by decide) (by omega))

theorem filled_zero_iff : value (filled .none frac) = 0 ↔ value frac = 0 := by
  rw [filled, value_append, value_zeros, Nat.add_zero, Nat.mul_eq_zero]
  simp

end Filling

section Reading

variable {overflowChecks : Bool} {text whole frac : List Char} {sign fracSign : Sign}

theorem sign_fits {digits : List Char} (sign : Sign) (small : value digits < 10 ^ 7) :
    i64Min ≤ sign.apply (value digits) ∧ sign.apply (value digits) ≤ i64Max := by
  cases sign <;> simp only [Sign.apply] <;> unfold i64Min i64Max <;> omega

/-- Such a text is read up to the addition. -/
theorem Loose.read (loose : Loose text sign whole fracSign frac) :
    parseStellarAmount overflowChecks text =
      uncheckedAdd overflowChecks (sign.apply (value whole) * 10000000)
        (fracSign.apply (value (filled fracSign frac))) := by
  obtain ⟨whole_eq, frac_eq⟩ := split_iff.mp loose.split
  have bytes : byteLength (fracSign.text ++ frac) = (fracSign.text ++ frac).length :=
    byteLength_signed loose.frac_digits
  have short := loose.frac_length
  have fits := loose.fits
  have whole_read : parseI64 (sign.text ++ whole) = .ok (sign.apply (value whole)) :=
    parseI64_ok_iff.mpr ⟨sign, whole, rfl, loose.whole_ne, loose.whole_digits, rfl, by
      unfold fitsI64 i64Min i64Max at *; omega⟩
  have frac_read : parseI64 (fracSign.text ++ frac ++ List.replicate (7 - byteLength (fracSign.text ++ frac)) '0') =
      .ok (fracSign.apply (value (filled fracSign frac))) := by
    refine parseI64_ok_iff.mpr ⟨fracSign, filled fracSign frac, ?_, filled_ne short, filled_digits loose.frac_digits,
      rfl, sign_fits fracSign (filled_lt loose.frac_digits short)⟩
    rw [bytes, filled, List.append_assoc]
  unfold parseStellarAmount
  simp only [whole_eq, frac_eq, whole_read, frac_read]
  rw [if_neg (by omega), if_neg (not_not.mpr fits)]

/-- Every other text is refused. -/
theorem loose_or_refused (overflowChecks : Bool) (text : List Char) :
    (∃ error, parseStellarAmount overflowChecks text = .err error) ∨
      ∃ sign whole fracSign frac, Loose text sign whole fracSign frac := by
  unfold parseStellarAmount
  simp only
  split
  · exact .inl ⟨_, rfl⟩
  rename_i places
  split
  · exact .inl ⟨_, rfl⟩
  rename_i whole_ok
  split
  · exact .inl ⟨_, rfl⟩
  rename_i product
  split
  · exact .inl ⟨_, rfl⟩
  rename_i frac_ok
  obtain ⟨sign, whole, whole_eq, whole_ne, whole_digits, rfl, -⟩ := parseI64_ok_iff.mp whole_ok
  obtain ⟨fracSign, digits, frac_eq, -, digits_only, -⟩ := parseI64_ok_iff.mp frac_ok
  obtain ⟨frac, signed, rfl⟩ := signed_of_filled (fun c zero => by rw [List.eq_of_mem_replicate zero]; rfl) frac_eq
  have frac_digits : ∀ c ∈ frac, c.isDigit = true := fun c member => digits_only c (List.mem_append_left _ member)
  rw [signed, byteLength_signed frac_digits] at places
  exact .inr ⟨sign, whole, fracSign, frac, split_iff.mpr ⟨whole_eq, signed⟩, whole_ne, whole_digits, frac_digits,
    not_lt.mp places, not_not.mp product⟩

theorem Loose.unique {sign' fracSign' : Sign} {whole' frac' : List Char} (first : Loose text sign whole fracSign frac)
    (second : Loose text sign' whole' fracSign' frac') :
    sign = sign' ∧ whole = whole' ∧ fracSign = fracSign' ∧ frac = frac' := by
  obtain ⟨whole_eq, frac_eq⟩ := split_unique first.split second.split
  obtain ⟨signs, wholes⟩ := signed_unique first.whole_digits second.whole_digits whole_eq
  obtain ⟨fracSigns, fracs⟩ := signed_unique first.frac_digits second.frac_digits frac_eq
  exact ⟨signs, wholes, fracSigns, fracs⟩

end Reading

end AfroPay.StellarAmounts
