import AfroPay.AmountAgreement

/-! The integrity check compares canonical forms. Two amounts have the same one exactly when
they stand for the same number. -/
namespace AfroPay.AmountAgreement
open NumberText ScriptText Transfer

section Leading
variable {digits v v' : List Char}

theorem stripLeadingZeros_padded (digits : List Char) :
    ∃ count, digits = List.replicate count '0' ++ stripLeadingZeros digits := by
  fun_induction stripLeadingZeros digits with
  | case1 digit rest ih =>
    obtain ⟨count, padded⟩ := ih
    refine ⟨count + 1, ?_⟩
    rw [List.replicate_succ, List.cons_append, ← padded]
  | case2 digits => exact ⟨0, rfl⟩

theorem stripLeadingZeros_ne_nil (nonempty : digits ≠ []) : stripLeadingZeros digits ≠ [] := by
  fun_induction stripLeadingZeros digits with
  | case1 digit rest ih => exact ih (List.cons_ne_nil digit rest)
  | case2 digits => exact nonempty

/-- No zero is left in front of another digit. -/
theorem stripLeadingZeros_bare (digits : List Char) (digit : Char) (rest : List Char) :
    stripLeadingZeros digits ≠ '0' :: digit :: rest := by
  fun_induction stripLeadingZeros digits with
  | case1 first others ih => exact ih
  | case2 digits other =>
    rintro rfl
    exact other digit rest rfl

theorem stripLeadingZeros_digits (isDigit : ∀ c ∈ digits, c.isDigit = true) :
    ∀ c ∈ stripLeadingZeros digits, c.isDigit = true := by
  obtain ⟨count, padded⟩ := stripLeadingZeros_padded digits
  intro c member
  exact isDigit c (padded ▸ List.mem_append_right _ member)

theorem value_stripLeadingZeros (digits : List Char) : value (stripLeadingZeros digits) = value digits := by
  obtain ⟨count, padded⟩ := stripLeadingZeros_padded digits
  have padded_value := congrArg value padded
  rw [value_append, value_zeros, zero_mul, zero_add] at padded_value
  exact padded_value.symm

/-- Digits of the same value, the shorter of them not empty and the longer one without a leading zero. -/
theorem eq_of_value_of_le (v_digits : ∀ c ∈ v, c.isDigit = true) (v'_digits : ∀ c ∈ v', c.isDigit = true)
    (nonempty : v ≠ []) (bare : ∀ digit rest, v' ≠ '0' :: digit :: rest) (shorter : v.length ≤ v'.length)
    (same : value v = value v') : v = v' := by
  have padded : List.replicate (v'.length - v.length) '0' ++ v = v' := by
    refine value_injective ?_ v'_digits ?_ ?_
    · intro c member
      rcases List.mem_append.mp member with zero | digit
      · rw [List.eq_of_mem_replicate zero]
        rfl
      · exact v_digits c digit
    · rw [List.length_append, List.length_replicate, Nat.sub_add_cancel shorter]
    · rw [value_append, value_zeros, zero_mul, zero_add, same]
  cases gap : v'.length - v.length with
  | zero => simpa [gap] using padded
  | succ more =>
    -- The digit after the first zero of the longer run would be one of the shorter run.
    obtain ⟨first, others, rfl⟩ := List.exists_cons_of_ne_nil nonempty
    rw [gap, List.replicate_succ, List.cons_append] at padded
    cases more with
    | zero => exact absurd padded.symm (bare first others)
    | succ fewer => exact absurd padded.symm (bare '0' _)

theorem stripLeadingZeros_eq {digits' : List Char} (isDigit : ∀ c ∈ digits, c.isDigit = true)
    (isDigit' : ∀ c ∈ digits', c.isDigit = true) (nonempty : digits ≠ []) (nonempty' : digits' ≠ [])
    (same : value digits = value digits') : stripLeadingZeros digits = stripLeadingZeros digits' := by
  have values : value (stripLeadingZeros digits) = value (stripLeadingZeros digits') := by
    rw [value_stripLeadingZeros, value_stripLeadingZeros, same]
  have digit := stripLeadingZeros_digits isDigit
  have digit' := stripLeadingZeros_digits isDigit'
  rcases le_total (stripLeadingZeros digits).length (stripLeadingZeros digits').length with shorter | longer
  · exact eq_of_value_of_le digit digit' (stripLeadingZeros_ne_nil nonempty) (stripLeadingZeros_bare digits') shorter values
  · exact (eq_of_value_of_le digit' digit (stripLeadingZeros_ne_nil nonempty') (stripLeadingZeros_bare digits) longer
      values.symm).symm

end Leading

section Trailing
variable {digits f f' : List Char}

theorem stripTrailingZeros_padded (digits : List Char) :
    ∃ count, digits = stripTrailingZeros digits ++ List.replicate count '0' := by
  have parts := List.takeWhile_append_dropWhile (p := (· = '0')) (l := digits.reverse)
  refine ⟨(digits.reverse.takeWhile (· = '0')).length, ?_⟩
  have zeros : List.replicate (digits.reverse.takeWhile (· = '0')).length '0' =
      (digits.reverse.takeWhile (· = '0')).reverse := by
    refine (List.eq_replicate_iff.mpr ⟨List.length_reverse, fun c member => ?_⟩).symm
    simpa using List.mem_takeWhile_imp (List.mem_reverse.mp member)
  rw [stripTrailingZeros, zeros, ← List.reverse_append, parts, List.reverse_reverse]

theorem stripTrailingZeros_bare (digits rest : List Char) : stripTrailingZeros digits ≠ rest ++ ['0'] := by
  intro ends
  have head := List.head?_dropWhile_not (· = '0') digits.reverse
  have shape : digits.reverse.dropWhile (· = '0') = '0' :: rest.reverse := by
    rw [← List.reverse_reverse (digits.reverse.dropWhile (· = '0')), ← stripTrailingZeros, ends]
    simp
  rw [shape] at head
  simp at head

theorem stripTrailingZeros_digits (isDigit : ∀ c ∈ digits, c.isDigit = true) :
    ∀ c ∈ stripTrailingZeros digits, c.isDigit = true := by
  obtain ⟨count, padded⟩ := stripTrailingZeros_padded digits
  intro c member
  exact isDigit c (padded ▸ List.mem_append_left _ member)

/-- As parts of one, the digits stand for the same with and without the zeros. -/
theorem value_stripTrailingZeros (digits : List Char) :
    value (stripTrailingZeros digits) * 10 ^ digits.length = value digits * 10 ^ (stripTrailingZeros digits).length := by
  obtain ⟨count, padded⟩ := stripTrailingZeros_padded digits
  have length := congrArg List.length padded
  have padded_value := congrArg value padded
  rw [value_append, value_zeros, add_zero, List.length_replicate] at padded_value
  rw [List.length_append, List.length_replicate] at length
  rw [padded_value, length, pow_add]
  ring

/-- Parts of one that are equal, the shorter with no more digits and the longer without a trailing zero. -/
theorem eq_of_part_of_le (f_digits : ∀ c ∈ f, c.isDigit = true) (f'_digits : ∀ c ∈ f', c.isDigit = true)
    (bare : ∀ rest, f' ≠ rest ++ ['0']) (shorter : f.length ≤ f'.length)
    (same : value f * 10 ^ f'.length = value f' * 10 ^ f.length) : f = f' := by
  have padded : f ++ List.replicate (f'.length - f.length) '0' = f' := by
    refine value_injective ?_ f'_digits ?_ ?_
    · intro c member
      rcases List.mem_append.mp member with digit | zero
      · exact f_digits c digit
      · rw [List.eq_of_mem_replicate zero]
        rfl
    · rw [List.length_append, List.length_replicate, Nat.add_sub_cancel' shorter]
    · rw [value_append, value_zeros, add_zero, List.length_replicate]
      refine Nat.eq_of_mul_eq_mul_right (Nat.pow_pos (n := f.length) (by decide : 0 < 10)) ?_
      rw [mul_assoc, ← pow_add, Nat.sub_add_cancel shorter, same]
  cases gap : f'.length - f.length with
  | zero => simpa [gap] using padded
  | succ more =>
    rw [gap, List.replicate_succ', ← List.append_assoc] at padded
    exact absurd padded.symm (bare _)

theorem stripTrailingZeros_eq {digits' : List Char} (isDigit : ∀ c ∈ digits, c.isDigit = true)
    (isDigit' : ∀ c ∈ digits', c.isDigit = true)
    (same : value digits * 10 ^ digits'.length = value digits' * 10 ^ digits.length) :
    stripTrailingZeros digits = stripTrailingZeros digits' := by
  have stripped : value (stripTrailingZeros digits) * 10 ^ (stripTrailingZeros digits').length =
      value (stripTrailingZeros digits') * 10 ^ (stripTrailingZeros digits).length := by
    have first := value_stripTrailingZeros digits
    have second := value_stripTrailingZeros digits'
    have power : 0 < 10 ^ digits.length * 10 ^ digits'.length := by positivity
    refine Nat.eq_of_mul_eq_mul_right power ?_
    calc value (stripTrailingZeros digits) * 10 ^ (stripTrailingZeros digits').length *
          (10 ^ digits.length * 10 ^ digits'.length)
        = (value (stripTrailingZeros digits) * 10 ^ digits.length) * 10 ^ (stripTrailingZeros digits').length *
            10 ^ digits'.length := by ring
      _ = (value digits * 10 ^ digits'.length) * 10 ^ (stripTrailingZeros digits).length *
            10 ^ (stripTrailingZeros digits').length := by rw [first]; ring
      _ = (value digits' * 10 ^ (stripTrailingZeros digits').length) * 10 ^ (stripTrailingZeros digits).length *
            10 ^ digits.length := by rw [same]; ring
      _ = value (stripTrailingZeros digits') * 10 ^ (stripTrailingZeros digits).length *
            (10 ^ digits.length * 10 ^ digits'.length) := by rw [← second]; ring
  have digit := stripTrailingZeros_digits isDigit
  have digit' := stripTrailingZeros_digits isDigit'
  rcases le_total (stripTrailingZeros digits).length (stripTrailingZeros digits').length with shorter | longer
  · exact eq_of_part_of_le digit digit' (stripTrailingZeros_bare digits') shorter stripped
  · exact (eq_of_part_of_le digit' digit (stripTrailingZeros_bare digits) longer stripped.symm).symm

end Trailing

section Forms
variable {amount : String} {lead whole frac trail whole' frac' : List Char}

/-- The digits before the point and the part of one after it. -/
theorem decimalValue_parts (whole frac : List Char) :
    decimalValue whole frac = value whole + value frac / 10 ^ frac.length := by
  have power : (10 : ℚ) ^ frac.length ≠ 0 := by positivity
  rw [decimalValue, value_append]
  push_cast
  field_simp

theorem decimalValue_strip (whole frac : List Char) :
    decimalValue (stripLeadingZeros whole) (stripTrailingZeros frac) = decimalValue whole frac := by
  have parts : (value (stripTrailingZeros frac) : ℚ) * 10 ^ frac.length =
      value frac * 10 ^ (stripTrailingZeros frac).length := by
    exact_mod_cast value_stripTrailingZeros frac
  rw [decimalValue_parts, decimalValue_parts, value_stripLeadingZeros,
    (div_eq_div_iff (by positivity) (by positivity)).mpr parts]

/-- A number determines its digits before the point and the part of one after it. -/
theorem decimalValue_inj (frac_digits : ∀ c ∈ frac, c.isDigit = true) (frac'_digits : ∀ c ∈ frac', c.isDigit = true)
    (same : decimalValue whole frac = decimalValue whole' frac') :
    value whole = value whole' ∧ value frac * 10 ^ frac'.length = value frac' * 10 ^ frac.length := by
  have below : (value frac : ℚ) / 10 ^ frac.length < 1 := by
    rw [div_lt_one (by positivity)]
    exact_mod_cast value_lt frac_digits
  have below' : (value frac' : ℚ) / 10 ^ frac'.length < 1 := by
    rw [div_lt_one (by positivity)]
    exact_mod_cast value_lt frac'_digits
  have above : 0 ≤ (value frac : ℚ) / 10 ^ frac.length := by positivity
  have above' : 0 ≤ (value frac' : ℚ) / 10 ^ frac'.length := by positivity
  rw [decimalValue_parts, decimalValue_parts] at same
  have wholes : value whole = value whole' := by
    have less : (value whole : ℚ) < value whole' + 1 := by linarith only [same, above, below']
    have more : (value whole' : ℚ) < value whole + 1 := by linarith only [same, above', below]
    have less' : value whole < value whole' + 1 := by exact_mod_cast less
    have more' : value whole' < value whole + 1 := by exact_mod_cast more
    omega
  refine ⟨wholes, ?_⟩
  rw [wholes, add_right_inj, div_eq_div_iff (by positivity) (by positivity)] at same
  exact_mod_cast same

theorem canonicalAmount_decimal (decimal : Decimal amount.toList lead whole frac trail) :
    canonicalAmount amount = .ok (positional (stripLeadingZeros whole) (stripTrailingZeros frac)) := by
  have trimmed : trim amount.toList = positional whole frac := by
    rw [decimal.parts]
    exact trim_spaces decimal.lead_space decimal.trail_space (by simp [positional, decimal.whole_ne])
      (positional_not_space decimal.whole_digits decimal.frac_digits)
  rw [canonicalAmount, trimmed, matchDecimal_positional decimal.whole_ne decimal.whole_digits decimal.frac_digits]
  simp only [positional]
  split <;> simp_all

theorem canonicalAmount_ok_iff : (∃ canonical, canonicalAmount amount = .ok canonical) ↔ IsDecimal amount := by
  constructor
  · rintro ⟨canonical, ok⟩
    rw [← assertIntegrity_iff, assertTransactionAmountIntegrity, ok]
    simp [bind, Except.bind, pure, Except.pure]
  · rintro ⟨lead, whole, frac, trail, decimal⟩
    exact ⟨_, canonicalAmount_decimal decimal⟩

/-- Canonical forms are decimals themselves, of the same number. -/
theorem decimal_canonical (decimal : Decimal amount.toList lead whole frac trail) :
    Decimal (String.ofList (positional (stripLeadingZeros whole) (stripTrailingZeros frac))).toList []
      (stripLeadingZeros whole) (stripTrailingZeros frac) [] :=
  ⟨by simp, by simp, by simp, stripLeadingZeros_ne_nil decimal.whole_ne, stripLeadingZeros_digits decimal.whole_digits,
    stripTrailingZeros_digits decimal.frac_digits⟩

theorem canonicalAmount_again {canonical : List Char} (ok : canonicalAmount amount = .ok canonical) :
    canonicalAmount (String.ofList canonical) = .ok canonical := by
  obtain ⟨lead, whole, frac, trail, decimal⟩ := canonicalAmount_ok_iff.mp ⟨canonical, ok⟩
  rw [canonicalAmount_decimal decimal] at ok
  cases ok
  have whole_digits := stripLeadingZeros_digits decimal.whole_digits
  have frac_digits := stripTrailingZeros_digits decimal.frac_digits
  have wholes : stripLeadingZeros (stripLeadingZeros whole) = stripLeadingZeros whole :=
    stripLeadingZeros_eq whole_digits decimal.whole_digits (stripLeadingZeros_ne_nil decimal.whole_ne) decimal.whole_ne
      (value_stripLeadingZeros whole)
  have fracs : stripTrailingZeros (stripTrailingZeros frac) = stripTrailingZeros frac :=
    stripTrailingZeros_eq frac_digits decimal.frac_digits (value_stripTrailingZeros frac)
  rw [canonicalAmount_decimal (decimal_canonical decimal), wholes, fracs]

theorem canonicalAmount_eq_iff {other : String} {x y : ℚ} (first : StandsFor amount x) (second : StandsFor other y) :
    canonicalAmount amount = canonicalAmount other ↔ x = y := by
  obtain ⟨lead, whole, frac, trail, decimal, rfl⟩ := first
  obtain ⟨lead', whole', frac', trail', decimal', rfl⟩ := second
  rw [canonicalAmount_decimal decimal, canonicalAmount_decimal decimal', Except.ok.injEq]
  constructor
  · intro same
    have matched := matchDecimal_positional (stripLeadingZeros_ne_nil decimal.whole_ne)
      (stripLeadingZeros_digits decimal.whole_digits) (stripTrailingZeros_digits decimal.frac_digits)
    rw [same, matchDecimal_positional (stripLeadingZeros_ne_nil decimal'.whole_ne)
      (stripLeadingZeros_digits decimal'.whole_digits) (stripTrailingZeros_digits decimal'.frac_digits)] at matched
    obtain ⟨wholes, fracs⟩ := Prod.mk.inj (Option.some.inj matched)
    rw [← decimalValue_strip whole frac, ← decimalValue_strip whole' frac', wholes, fracs]
  · intro same
    obtain ⟨wholes, fracs⟩ := decimalValue_inj decimal.frac_digits decimal'.frac_digits same
    rw [stripLeadingZeros_eq decimal.whole_digits decimal'.whole_digits decimal.whole_ne decimal'.whole_ne wholes,
      stripTrailingZeros_eq decimal.frac_digits decimal'.frac_digits fracs]

theorem assertIntegrity_ok_iff {approved persisted : String} :
    assertTransactionAmountIntegrity approved persisted = .ok () ↔
      ∃ canonical, canonicalAmount approved = .ok canonical ∧ canonicalAmount persisted = .ok canonical := by
  unfold assertTransactionAmountIntegrity
  cases canonicalAmount approved with
  | error message => simp [bind, Except.bind]
  | ok canonical =>
    cases canonicalAmount persisted with
    | error message => simp [bind, Except.bind]
    | ok other =>
      by_cases same : canonical = other
      · simp [same, bind, Except.bind, pure, Except.pure]
      · simp [same, Ne.symm same, bind, Except.bind, throw, throwThe, MonadExceptOf.throw]

end Forms

/-- The check passes exactly two decimals that stand for the same number; canonical forms are their
own, and decimals share one exactly when they stand for the same number. -/
theorem integrity_exact :
    (∀ approved persisted, assertTransactionAmountIntegrity approved persisted = .ok () ↔
      ∃ x, StandsFor approved x ∧ StandsFor persisted x) ∧
    (∀ amount canonical, canonicalAmount amount = .ok canonical →
      canonicalAmount (String.ofList canonical) = .ok canonical) ∧
    ∀ amount other x y, StandsFor amount x → StandsFor other y →
      (canonicalAmount amount = canonicalAmount other ↔ x = y) := by
  refine ⟨fun approved persisted => ?_, fun _ _ => canonicalAmount_again, fun _ _ _ _ => canonicalAmount_eq_iff⟩
  rw [assertIntegrity_ok_iff]
  constructor
  · rintro ⟨canonical, ok, ok'⟩
    obtain ⟨lead, whole, frac, trail, decimal⟩ := canonicalAmount_ok_iff.mp ⟨canonical, ok⟩
    obtain ⟨lead', whole', frac', trail', decimal'⟩ := canonicalAmount_ok_iff.mp ⟨canonical, ok'⟩
    have first : StandsFor approved (decimalValue whole frac) := ⟨lead, whole, frac, trail, decimal, rfl⟩
    have second : StandsFor persisted (decimalValue whole' frac') := ⟨lead', whole', frac', trail', decimal', rfl⟩
    have same := (canonicalAmount_eq_iff first second).mp (ok.trans ok'.symm)
    exact ⟨_, first, same ▸ second⟩
  · rintro ⟨x, first, second⟩
    have same := (canonicalAmount_eq_iff first second).mpr rfl
    obtain ⟨lead, whole, frac, trail, decimal, rfl⟩ := first
    exact ⟨_, canonicalAmount_decimal decimal, same ▸ canonicalAmount_decimal decimal⟩

end AfroPay.AmountAgreement
