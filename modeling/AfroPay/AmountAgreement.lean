import AfroPay.Kyc
import AfroPay.StellarTexts

/-! One amount, read three times: as a float prefix by the limit check, as a decimal by the
integrity check, and as two integers by the worker. -/
namespace AfroPay.AmountAgreement
open Kyc NumberText RebalanceAmounts ScriptText StellarAmounts Transfer

/-- The parts of a decimal text: white space, digits, a point and further digits unless there
are none, and white space. -/
structure Decimal (text lead whole frac trail : List Char) : Prop where
  parts : text = lead ++ (positional whole frac ++ trail)
  lead_space : ∀ c ∈ lead, isStrWhiteSpace c = true
  trail_space : ∀ c ∈ trail, isStrWhiteSpace c = true
  whole_ne : whole ≠ []
  whole_digits : ∀ c ∈ whole, c.isDigit = true
  frac_digits : ∀ c ∈ frac, c.isDigit = true

/-- The decimal value of two runs of digits. -/
def decimalValue (whole frac : List Char) : ℚ := (value (whole ++ frac) : ℚ) / 10 ^ frac.length

def IsDecimal (amount : String) : Prop := ∃ lead whole frac trail, Decimal amount.toList lead whole frac trail

/-- The text is a decimal and stands for the number. -/
def StandsFor (amount : String) (x : ℚ) : Prop :=
  ∃ lead whole frac trail, Decimal amount.toList lead whole frac trail ∧ x = decimalValue whole frac

/-- All three readers take the amount for the number it stands for. -/
def Agree (overflowChecks : Bool) (rates : String → Option ℚ≥0) (amount assetCode : String) (amountUsd : Usd) : Prop :=
  ∃ x, StandsFor amount x ∧ assertTransactionAmountIntegrity amount amount = .ok () ∧
    convert rates (x : Usd) assetCode = .ok amountUsd ∧
    ∀ stroops, parseStellarAmount overflowChecks amount.toList = .ok stroops → (stroops : ℚ) = 10 ^ 7 * x

/-- The whole part fits the worker's integer and the amount does not: between
922337203685.4775808 and 922337203685.9999999, without white space. -/
def Wraps (amount : String) : Prop :=
  ∃ whole frac units, amount.toList = positional whole frac ∧ Denotes 7 whole frac units ∧
    2 ^ 63 ≤ units ∧ units < 922337203686 * 10 ^ 7

section Characters

theorem space_not_read {c : Char} (space : isStrWhiteSpace c = true) :
    c.isDigit = false ∧ c ≠ '.' ∧ c ≠ '-' ∧ c ≠ '+' ∧ c ≠ 'e' ∧ c ≠ 'E' := by
  refine ⟨?_, ?_, ?_, ?_, ?_, ?_⟩
  · by_contra digit
    rw [visible_of_isDigit (Bool.not_eq_false _ |>.mp digit)] at space
    cases space
  all_goals
    rintro rfl
    revert space
    decide

theorem positional_not_space {whole frac : List Char} (whole_digits : ∀ c ∈ whole, c.isDigit = true)
    (frac_digits : ∀ c ∈ frac, c.isDigit = true) : ∀ c ∈ positional whole frac, isStrWhiteSpace c = false := by
  intro c member
  by_contra space
  have unread := space_not_read (Bool.not_eq_false _ |>.mp space)
  rcases List.mem_append.mp member with digit | after
  · rw [whole_digits c digit] at unread
    exact Bool.noConfusion unread.1
  · split at after
    · cases after
    · rcases List.mem_cons.mp after with point | digit
      · exact unread.2.1 point
      · rw [frac_digits c digit] at unread
        exact Bool.noConfusion unread.1

end Characters

section Integrity

theorem matchDecimal_positional {whole frac : List Char} (whole_ne : whole ≠ [])
    (whole_digits : ∀ c ∈ whole, c.isDigit = true) (frac_digits : ∀ c ∈ frac, c.isDigit = true) :
    matchDecimal (positional whole frac) = some (whole, frac) := by
  obtain ⟨taken, dropped⟩ := takeWhile_digits (if frac = [] then [] else '.' :: frac) whole_digits (by
    intro c member
    split at member
    · cases member
    · cases member
      rfl)
  rw [matchDecimal, positional, taken, dropped]
  by_cases none : frac = []
  · simp [none, whole_ne]
  · have all : frac.all Char.isDigit = true := List.all_eq_true.mpr frac_digits
    simp [none, whole_ne, all]

/-- What the pattern matches is a decimal without white space. -/
theorem matchDecimal_some {text whole frac : List Char} (matched : matchDecimal text = some (whole, frac)) :
    text = positional whole frac ∧ whole ≠ [] ∧ (∀ c ∈ whole, c.isDigit = true) ∧
      ∀ c ∈ frac, c.isDigit = true := by
  have split := List.takeWhile_append_dropWhile (p := Char.isDigit) (l := text)
  have digits : ∀ c ∈ text.takeWhile Char.isDigit, c.isDigit = true := fun c member => List.mem_takeWhile_imp member
  unfold matchDecimal at matched
  cases rest : text.dropWhile Char.isDigit with
  | nil =>
    rw [rest, List.append_nil] at split
    simp only [rest] at matched
    split at matched
    · cases matched
    · rename_i whole_ne
      cases matched
      exact ⟨by simpa [positional] using split.symm, whole_ne, digits, fun _ member => nomatch member⟩
  | cons c fraction =>
    rw [rest] at split
    simp only [rest] at matched
    split at matched
    · rename_i shape
      cases shape
    · rename_i fraction' shape
      cases shape
      split at matched
      · cases matched
      · rename_i refused
        rw [not_or, not_or, not_not, List.all_eq_true] at refused
        cases matched
        refine ⟨?_, refused.1, digits, refused.2.2⟩
        rw [positional, if_neg refused.2.1]
        exact split.symm
    · cases matched

theorem assertIntegrity_iff (amount : String) :
    assertTransactionAmountIntegrity amount amount = .ok () ↔ IsDecimal amount := by
  have canonical : assertTransactionAmountIntegrity amount amount = .ok () ↔
      (matchDecimal (trim amount.toList)).isSome := by
    cases matched : matchDecimal (trim amount.toList) with
    | none => simp [assertTransactionAmountIntegrity, canonicalAmount, matched, bind, Except.bind]
    | some parts => simp [assertTransactionAmountIntegrity, canonicalAmount, matched, bind, Except.bind, pure, Except.pure]
  rw [canonical]
  constructor
  · intro isSome
    obtain ⟨⟨whole, frac⟩, matched⟩ := Option.isSome_iff_exists.mp isSome
    obtain ⟨shape, whole_ne, whole_digits, frac_digits⟩ := matchDecimal_some matched
    obtain ⟨lead, trail, parts, lead_space, trail_space⟩ := trim_parts amount.toList
    rw [shape] at parts
    exact ⟨lead, whole, frac, trail, parts, lead_space, trail_space, whole_ne, whole_digits, frac_digits⟩
  · rintro ⟨lead, whole, frac, trail, decimal⟩
    rw [decimal.parts, trim_spaces decimal.lead_space decimal.trail_space (by simp [positional, decimal.whole_ne])
      (positional_not_space decimal.whole_digits decimal.frac_digits),
      matchDecimal_positional decimal.whole_ne decimal.whole_digits decimal.frac_digits]
    rfl

end Integrity

section Limit

/-- Of a decimal text the longest prefix is all of it. -/
theorem parseFloat_decimal {text lead whole frac trail : List Char} (decimal : Decimal text lead whole frac trail) :
    parseFloat text = .finite (decimalValue whole frac) := by
  obtain ⟨first, others, whole_eq⟩ := List.exists_cons_of_ne_nil decimal.whole_ne
  have digit : first.isDigit = true := decimal.whole_digits first (whole_eq ▸ List.mem_cons_self)
  have bare : ∀ c ∈ (positional whole frac ++ trail).head?, isStrWhiteSpace c = false := by
    intro c member
    rw [List.head?_append_of_ne_nil _ (by simp [positional, decimal.whole_ne])] at member
    exact positional_not_space decimal.whole_digits decimal.frac_digits c (List.mem_of_mem_head? member)
  have unsigned : splitSign (positional whole frac ++ trail) = (false, positional whole frac ++ trail) :=
    splitSign_positional trail decimal.whole_ne decimal.whole_digits
  have word : "Infinity".toList.isPrefixOf (positional whole frac ++ trail) = false := by
    rw [positional, whole_eq, List.cons_append, List.cons_append]
    have other : 'I' ≠ first := by
      rintro rfl
      revert digit
      decide
    simp [List.isPrefixOf, other]
  have stops : ∀ c ∈ trail.head?, c.isDigit = false ∧ c ≠ '.' ∧ c ≠ 'e' ∧ c ≠ 'E' := by
    intro c member
    obtain ⟨digitless, point, -, -, lower, upper⟩ := space_not_read (decimal.trail_space c (List.mem_of_mem_head? member))
    exact ⟨digitless, point, lower, upper⟩
  rw [parseFloat, decimal.parts, dropWhile_spaces decimal.lead_space bare, unsigned]
  simp only [word, Bool.false_eq_true, if_false,
    readDecimal_positional decimal.whole_ne decimal.whole_digits decimal.frac_digits stops, decimalValue]

/-- The limit check counts what the text stands for. -/
theorem normalizeAmountToUsd_decimal {amount : String} {lead whole frac trail : List Char}
    (decimal : Decimal amount.toList lead whole frac trail) (rates : String → Option ℚ≥0) (assetCode : String) :
    normalizeAmountToUsd rates amount assetCode = convert rates (decimalValue whole frac : ℚ) assetCode := by
  have nonneg : ¬ decimalValue whole frac < 0 := not_lt.mpr (div_nonneg (Nat.cast_nonneg _) (by positivity))
  rw [normalizeAmountToUsd, parseFloat_decimal decimal]
  exact if_neg nonneg

end Limit

section Worker

theorem signed_not_space {sign : Sign} {digits : List Char} (digits_only : ∀ c ∈ digits, c.isDigit = true) :
    ∀ c ∈ sign.text ++ digits, isStrWhiteSpace c = false := by
  intro c member
  by_contra space
  obtain ⟨not_digit, -, minus, plus, -⟩ := space_not_read (Bool.not_eq_false _ |>.mp space)
  rcases List.mem_append.mp member with signed | digit
  · cases sign with
    | none => cases signed
    | plus => exact plus (List.mem_singleton.mp signed)
    | minus => exact minus (List.mem_singleton.mp signed)
  · rw [digits_only c digit] at not_digit
    cases not_digit

/-- The worker reads no white space. -/
theorem parseStellarAmount_not_space {overflowChecks : Bool} {amount : List Char} {stroops : ℤ}
    (ok : parseStellarAmount overflowChecks amount = .ok stroops) : ∀ c ∈ amount, isStrWhiteSpace c = false := by
  obtain ⟨error, refused⟩ | ⟨sign, whole, fracSign, frac, loose⟩ := loose_or_refused overflowChecks amount
  · rw [refused] at ok
    cases ok
  obtain ⟨-, ⟨whole_only, -⟩ | both⟩ := loose.split
  · rw [whole_only]
    exact signed_not_space loose.whole_digits
  · intro c member
    rw [both] at member
    rcases List.mem_append.mp member with before | after
    · exact signed_not_space loose.whole_digits c before
    · rcases List.mem_cons.mp after with rfl | later
      · rfl
      · exact signed_not_space loose.frac_digits c later

end Worker

/-- What the worker reads of a decimal without white space has at most seven places, and its
whole part fits. -/
theorem parseStellarAmount_bounds {overflowChecks : Bool} {whole frac : List Char} {stroops : ℤ}
    (whole_digits : ∀ c ∈ whole, c.isDigit = true)
    (ok : parseStellarAmount overflowChecks (positional whole frac) = .ok stroops) :
    frac.length ≤ 7 ∧ (value whole : ℤ) * 10000000 ≤ i64Max := by
  obtain ⟨error, refused⟩ | ⟨sign, whole', fracSign, frac', loose⟩ := loose_or_refused overflowChecks (positional whole frac)
  · rw [refused] at ok
    cases ok
  obtain ⟨rfl, rfl⟩ := split_unique loose.split (split_iff.mpr (positional_split frac whole_digits))
  obtain rfl := sign_of_digits whole_digits
  exact ⟨loose.frac_length, loose.fits.2⟩

theorem standsFor_unique {amount : String} {x y : ℚ} (first : StandsFor amount x) (second : StandsFor amount y) :
    x = y := by
  obtain ⟨_, _, _, _, decimal, rfl⟩ := first
  obtain ⟨_, _, _, _, decimal', rfl⟩ := second
  have same := (parseFloat_decimal decimal).symm.trans (parseFloat_decimal decimal')
  exact Number.finite.inj same

/-- A decimal that the worker reads is the one its integer stands for, unless the last
addition wrapped around. -/
theorem parseStellarAmount_stroops {overflowChecks : Bool} {amount : String} {x : ℚ} {stroops : ℤ}
    (stands : StandsFor amount x) (sound : overflowChecks = true ∨ ¬ Wraps amount)
    (ok : parseStellarAmount overflowChecks amount.toList = .ok stroops) : (stroops : ℚ) = 10 ^ 7 * x := by
  obtain ⟨lead, whole, frac, trail, decimal, rfl⟩ := stands
  have bare := parseStellarAmount_not_space ok
  rw [decimal.parts] at bare
  have no_lead : lead = [] := by
    refine List.eq_nil_iff_forall_not_mem.mpr fun c member => ?_
    have space := decimal.lead_space c member
    rw [bare c (List.mem_append_left _ member)] at space
    cases space
  have no_trail : trail = [] := by
    refine List.eq_nil_iff_forall_not_mem.mpr fun c member => ?_
    have space := decimal.trail_space c member
    rw [bare c (List.mem_append_right _ (List.mem_append_right _ member))] at space
    cases space
  have text : amount.toList = positional whole frac := by
    rw [decimal.parts, no_lead, no_trail, List.nil_append, List.append_nil]
  rw [text] at ok
  obtain ⟨places, fits⟩ := parseStellarAmount_bounds decimal.whole_digits ok
  obtain ⟨units, exact⟩ : ∃ units,
      value whole * 10 ^ 7 + value (frac ++ List.replicate (7 - frac.length) '0') = units := ⟨_, rfl⟩
  have denotes : Denotes 7 whole frac units :=
    ⟨decimal.whole_ne, decimal.whole_digits, decimal.frac_digits, places, exact⟩
  rw [decimalValue, value_of_denotes denotes, mul_div_cancel₀ _ (by norm_num)]
  by_cases small : (units : ℤ) ≤ i64Max
  · rw [parseStellarAmount_positional denotes small] at ok
    cases ok
    exact Int.cast_natCast units
  · rcases sound with checked | unwrapped
    · rw [checked, parseStellarAmount_added denotes fits, uncheckedAdd, add_sub_cancel,
        if_neg (fun range => small range.2)] at ok
      cases ok
    · refine absurd ⟨whole, frac, units, text, denotes, ?_, ?_⟩ unwrapped
      · unfold i64Max at small
        omega
      · have below := denotes.filled_lt
        unfold i64Max at fits
        omega

/-- The three readers agree on every accepted amount that is a decimal, except where the
worker's last addition wraps around. -/
theorem amounts_agree_iff (overflowChecks : Bool) (rates : String → Option ℚ≥0) (amount assetCode : String)
    (amountUsd : Usd) (accepted : normalizeAmountToUsd rates amount assetCode = .ok amountUsd) :
    Agree overflowChecks rates amount assetCode amountUsd ↔
      IsDecimal amount ∧ (overflowChecks = true ∨ ¬ Wraps amount) := by
  constructor
  · rintro ⟨x, stands, integrity, -, worker⟩
    refine ⟨(assertIntegrity_iff amount).mp integrity, ?_⟩
    cases overflowChecks with
    | true => exact .inl rfl
    | false =>
      refine .inr fun wraps => ?_
      obtain ⟨whole, frac, units, text, denotes, low, high⟩ := wraps
      have fits : (value whole : ℤ) * 10000000 ≤ i64Max := by
        have exact := denotes.units
        unfold i64Max
        omega
      have stands' : StandsFor amount (decimalValue whole frac) :=
        ⟨[], whole, frac, [], ⟨by simpa using text, by simp, by simp, denotes.whole_ne, denotes.whole_digits,
          denotes.frac_digits⟩, rfl⟩
      obtain ⟨stroops, parsed⟩ : ∃ stroops, parseStellarAmount false amount.toList = .ok stroops := by
        rw [text, parseStellarAmount_added denotes fits, uncheckedAdd]
        split
        · exact ⟨_, rfl⟩
        · exact ⟨_, rfl⟩
      have read := worker stroops parsed
      rw [standsFor_unique stands stands', decimalValue, value_of_denotes denotes,
        mul_div_cancel₀ _ (by norm_num)] at read
      have large : stroops = units := by exact_mod_cast read
      have range := (parseStellarAmount_range parsed).2
      unfold i64Max at range
      omega
  · rintro ⟨decimal, sound⟩
    have integrity := (assertIntegrity_iff amount).mpr decimal
    obtain ⟨lead, whole, frac, trail, parts⟩ := decimal
    have stands : StandsFor amount (decimalValue whole frac) := ⟨lead, whole, frac, trail, parts, rfl⟩
    refine ⟨decimalValue whole frac, stands, integrity, ?_, fun _ ok => parseStellarAmount_stroops stands sound ok⟩
    rw [← accepted, normalizeAmountToUsd_decimal parts]

def noRates : String → Option ℚ≥0 := fun _ => none

theorem amounts_agree_iff_decimal :
    Agree false noRates "25.50" "USD" ((51 / 2 : ℚ) : Usd) ↔ IsDecimal "25.50" ∧ (false = true ∨ ¬ Wraps "25.50") :=
  amounts_agree_iff false noRates "25.50" "USD" ((51 / 2 : ℚ) : Usd) (by decide +kernel)

/-- What follows the number is counted as nothing and then refused. -/
theorem trailing_text_accepted :
    normalizeAmountToUsd noRates "5abc" "USD" = .ok ((5 : ℚ) : Usd) ∧
      ¬ Agree true noRates "5abc" "USD" ((5 : ℚ) : Usd) := by
  refine ⟨by decide +kernel, ?_⟩
  rintro ⟨x, -, integrity, -⟩
  have refused : assertTransactionAmountIntegrity "5abc" "5abc" =
      .error "Transaction amount integrity check failed" := by decide +kernel
  rw [refused] at integrity
  cases integrity

/-- A large amount that becomes a negative one. -/
example : parseStellarAmount false "922337203685.9999999".toList = .ok (-9223372036849551617) := by decide +kernel

end AfroPay.AmountAgreement
