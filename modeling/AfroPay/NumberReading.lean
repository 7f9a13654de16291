import AfroPay.CalendarDates

/-! `Number(text)` in exact arithmetic, and the texts of numbers with a fixed number of places,
which are read back as these numbers with or without the zeros at their end. -/
namespace AfroPay.NumberReading
open IntegerText NumberText WebText CalendarDates ScriptText

/-- `Number(text)`, with nothing for `NaN` and the infinities. -/
def number (text : List Char) : Option ℚ :=
  match trim text with
  | [] => some 0
  | '0' :: 'x' :: digits | '0' :: 'X' :: digits => (readNumeral 16 digits).map fun n : Nat => (n : ℚ)
  | '0' :: 'o' :: digits | '0' :: 'O' :: digits => (readNumeral 8 digits).map fun n : Nat => (n : ℚ)
  | '0' :: 'b' :: digits | '0' :: 'B' :: digits => (readNumeral 2 digits).map fun n : Nat => (n : ℚ)
  | body =>
    let (negative, digits) := splitSign body
    (parseDecimal digits).map fun x => signed negative x

/-- The digits of so many units with the point, all places filled. -/
def fixedText (places units : Nat) : List Char :=
  Nat.toDigits 10 (units / 10 ^ places) ++ '.' :: padDigits places (units % 10 ^ places)

/-- `text.replace(/\.?0+$/, '')` -/
def stripZeros (text : List Char) : List Char :=
  if text.getLast? ≠ some '0' then text
  else match text.reverse.dropWhile (· = '0') with
    | '.' :: rest => rest.reverse
    | rest => rest.reverse

variable {places units : Nat} {whole frac : List Char}

theorem value_padDigits (width n : Nat) : value (padDigits width n) = n := by
  rw [padDigits, value_append, value_zeros, Nat.zero_mul, Nat.zero_add, value_toDigits]

/-- A text of digits and a point is read as the number it stands for. -/
theorem number_positional (denotes : Denotes places whole frac units) :
    number (positional whole frac) = some ((units : ℚ) / 10 ^ places) := by
  have chars : ∀ c ∈ positional whole frac, c.isDigit = true ∨ c = '.' := by
    intro c member
    rcases List.mem_append.mp member with digit | rest
    · exact .inl (denotes.whole_digits c digit)
    · split at rest
      · cases rest
      · rcases List.mem_cons.mp rest with point | digit
        · exact .inr point
        · exact .inl (denotes.frac_digits c digit)
  have visible : ∀ c ∈ positional whole frac, isStrWhiteSpace c = false := by
    intro c member
    rcases chars c member with digit | rfl
    · exact visible_of_isDigit digit
    · decide
  have foreign (mark : Char) (other : mark.isDigit = false) (point : mark ≠ '.') : mark ∉ positional whole frac := by
    intro member
    rcases chars mark member with digit | same
    · rw [other] at digit
      cases digit
    · exact point same
  have nonempty : positional whole frac ≠ [] := by
    simp [positional, denotes.whole_ne]
  have unsigned : splitSign (positional whole frac) = (false, positional whole frac) := by
    simpa only [List.append_nil] using splitSign_positional [] denotes.whole_ne denotes.whole_digits
  rw [number, trim_visible visible]
  have marked {mark : Char} {digits : List Char} (other : mark.isDigit = false) (point : mark ≠ '.') :
      positional whole frac ≠ '0' :: mark :: digits := by
    intro shape
    exact foreign mark other point (shape ▸ List.mem_cons_of_mem _ List.mem_cons_self)
  split
  · rename_i shape
    exact absurd shape nonempty
  · rename_i shape
    exact absurd shape (marked (by decide) (by decide))
  · rename_i shape
    exact absurd shape (marked (by decide) (by decide))
  · rename_i shape
    exact absurd shape (marked (by decide) (by decide))
  · rename_i shape
    exact absurd shape (marked (by decide) (by decide))
  · rename_i shape
    exact absurd shape (marked (by decide) (by decide))
  · rename_i shape
    exact absurd shape (marked (by decide) (by decide))
  · simp only [unsigned, parseDecimal_positional denotes, Option.map_some, signed]
    rfl

/-- The zeros behind the last other digit go, and the point with them if no digit is left. -/
theorem stripZeros_append (whole : List Char) {kept : List Char} (count : Nat) (last : kept.getLast? ≠ some '0')
    (nonempty : kept ++ List.replicate count '0' ≠ []) (isDigit : ∀ c ∈ kept, c.isDigit = true) :
    stripZeros (whole ++ '.' :: (kept ++ List.replicate count '0')) = positional whole kept := by
  cases count with
  | zero =>
    rw [List.replicate_zero, List.append_nil] at nonempty ⊢
    have ends : (whole ++ '.' :: kept).getLast? = kept.getLast? := by
      rw [List.getLast?_append_of_ne_nil _ (List.cons_ne_nil _ _), List.getLast?_cons_of_ne_nil nonempty]
    rw [stripZeros, if_pos (ends ▸ last), positional, if_neg nonempty]
  | succ count =>
    have ends : (whole ++ '.' :: (kept ++ List.replicate (count + 1) '0')).getLast? = some '0' := by
      rw [List.replicate_succ', ← List.append_assoc, ← List.cons_append, ← List.append_assoc]
      exact List.getLast?_concat
    have reversed : (whole ++ '.' :: (kept ++ List.replicate (count + 1) '0')).reverse.dropWhile (· = '0') =
        (kept.reverse ++ '.' :: whole.reverse).dropWhile (· = '0') := by
      simp only [List.reverse_append, List.reverse_cons, List.reverse_replicate, List.append_assoc, List.singleton_append]
      rw [List.dropWhile_append_of_pos fun c member => by simpa using List.eq_of_mem_replicate member]
    rw [stripZeros, if_neg (not_not.mpr ends), reversed]
    rcases List.eq_nil_or_concat' kept with rfl | ⟨front, digit, rfl⟩
    · simp [positional]
    · rw [List.getLast?_concat] at last
      have other : digit ≠ '0' := fun same => last (congrArg some same)
      have point : digit ≠ '.' := by
        rintro rfl
        exact absurd (isDigit '.' (by simp)) (by decide)
      simp only [List.reverse_append, List.reverse_singleton, List.cons_append]
      rw [List.dropWhile_cons_of_neg (by simpa using other)]
      simp [positional, point]

/-- The text without the zeros at its end stands for the same units. -/
theorem stripZeros_fixedText (positive : 0 < places) (units : Nat) :
    ∃ whole frac, stripZeros (fixedText places units) = positional whole frac ∧ Denotes places whole frac units := by
  have small : units % 10 ^ places < 10 ^ places := Nat.mod_lt _ (by positivity)
  have length := length_padDigits small positive
  generalize padded : padDigits places (units % 10 ^ places) = digits at length
  have isDigit : ∀ c ∈ digits, c.isDigit = true := fun c member => isDigit_padDigits (padded ▸ member)
  have nonempty : digits ≠ [] := List.ne_nil_of_length_pos (length ▸ positive)
  -- The digits are those that are kept and the zeros behind them.
  obtain ⟨kept, count, split, last⟩ :
      ∃ kept count, digits = kept ++ List.replicate count '0' ∧ kept.getLast? ≠ some '0' := by
    refine ⟨(digits.reverse.dropWhile (· = '0')).reverse, (digits.reverse.takeWhile (· = '0')).length, ?_, ?_⟩
    · have zeros : digits.reverse.takeWhile (· = '0') =
          List.replicate (digits.reverse.takeWhile (· = '0')).length '0' := by
        refine List.eq_replicate_of_mem fun c member => ?_
        simpa using List.mem_takeWhile_imp member
      have parts := congrArg List.reverse (List.takeWhile_append_dropWhile (p := (· = '0')) (l := digits.reverse))
      rw [List.reverse_append, List.reverse_reverse, zeros, List.reverse_replicate] at parts
      exact parts.symm
    · rw [List.getLast?_reverse]
      intro same
      have stops := List.head?_dropWhile_not (fun c : Char => decide (c = '0')) digits.reverse
      rw [same] at stops
      simp at stops
  subst split
  have short : kept.length ≤ places := by
    rw [← length, List.length_append]
    omega
  have filled : places - kept.length = count := by
    rw [← length, List.length_append, List.length_replicate]
    omega
  refine ⟨Nat.toDigits 10 (units / 10 ^ places), kept, ?_, Nat.toDigits_ne_nil,
    fun c member => isDigit_of_mem_toDigits member, fun c member => isDigit c (List.mem_append_left _ member), short, ?_⟩
  · rw [fixedText, padded]
    exact stripZeros_append _ count last nonempty fun c member => isDigit c (List.mem_append_left _ member)
  · rw [filled, ← padded, value_padDigits, value_toDigits]
    exact Nat.div_add_mod' units (10 ^ places)

end AfroPay.NumberReading
