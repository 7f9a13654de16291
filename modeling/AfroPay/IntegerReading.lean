import AfroPay.IntegerText

/-! Python's `int` beside JavaScript's `BigInt`: what both read of a plain numeral, with an
optional sign and an optional hexadecimal mark. -/
namespace AfroPay.IntegerText
open ScriptText

/-- White space that `int` skips on both sides. -/
def isSpacePy (c : Char) : Bool :=
  c.toNat ∈ [0x20, 0x85, 0xA0, 0x1680, 0x2028, 0x2029, 0x202F, 0x205F, 0x3000] ∨
    (0x9 ≤ c.toNat ∧ c.toNat ≤ 0xD) ∨ (0x2000 ≤ c.toNat ∧ c.toNat ≤ 0x200A)

def strip (text : List Char) : List Char :=
  ((text.dropWhile isSpacePy).reverse.dropWhile isSpacePy).reverse

/-- `sys.get_int_max_str_digits()`, for conversions whose radix is not a power of two. -/
def intMaxStrDigits : Nat := 4300

/-- The mark of a radix and one underscore after it. -/
def dropMark (radix : Nat) (text : List Char) : List Char :=
  if radix = 16 then
    match text with
    | '0' :: 'x' :: '_' :: rest | '0' :: 'X' :: '_' :: rest => rest
    | '0' :: 'x' :: rest | '0' :: 'X' :: rest => rest
    | _ => text
  else text

/-- Digits of a numeral, in groups that single underscores may separate. -/
def ungroup (text : List Char) : Option (List Char) :=
  let groups := text.splitOn '_'
  if [] ∈ groups then none else some groups.flatten

/-- A numeral without its sign, or the message of the `ValueError` about the text it is taken from. -/
def readUnsigned (radix : Nat) (text digits : List Char) : Except String Nat :=
  let shown := String.ofList text
  let invalid := s!"invalid literal for int() with base {radix}: '{shown}'"
  match ungroup (dropMark radix digits) with
  | none => .error invalid
  | some digits =>
    match readDigits radix 0 digits with
    | none => .error invalid
    | some n =>
      let length := digits.length
      if radix = 10 ∧ intMaxStrDigits < length then
        .error (s!"Exceeds the limit (4300 digits) for integer string conversion: value has {length} digits; " ++
          "use sys.set_int_max_str_digits() to increase the limit")
      else .ok n

/-- Python's `int(text, radix)` for radix 10 and 16. Digits of other scripts are not modelled. -/
def pyInt (radix : Nat) (text : List Char) : Except String Int :=
  match strip text with
  | '-' :: digits => (readUnsigned radix text digits).map fun n : Nat => -(n : Int)
  | '+' :: digits => (readUnsigned radix text digits).map Int.ofNat
  | digits => (readUnsigned radix text digits).map Int.ofNat

/-- An optional sign, an optional mark and digits. -/
def numeral (negative : Bool) (mark digits : List Char) : List Char :=
  (if negative then ['-'] else []) ++ (mark ++ digits)

/-- A hexadecimal text as `hex` writes it, up to the case of its digits, zeros before them and
the mark, which may be missing. -/
def Hexadecimal (text : List Char) : Prop :=
  ∃ negative, ∃ mark ∈ [[], ['0', 'x']], ∃ digits, digits ≠ [] ∧ (∀ c ∈ digits, (digitValue c).isSome) ∧
    text = numeral negative mark digits

/-- A decimal text as `str` writes it, up to zeros before its digits. -/
def Decimal (text : List Char) : Prop :=
  ∃ negative digits, digits ≠ [] ∧ (∀ c ∈ digits, ∃ d < 10, digitValue c = some d) ∧ text = numeral negative [] digits

/-- The text starts with a minus sign. -/
def Signed (text : List Char) : Prop := text.head? = some '-'

instance (text : List Char) : Decidable (Signed text) := inferInstanceAs (Decidable (_ = _))

/-- How many digits a numeral has. -/
def digitCount (text : List Char) : Nat := (text.filter (· ≠ '-')).length

def hexValue (text : List Char) : Int := ((pyInt 16 text).toOption).getD 0

def decimalValue (text : List Char) : Int := (bigInt text).getD 0

section Characters
variable {c : Char}

theorem digit_code (digit : (digitValue c).isSome) :
    (48 ≤ c.toNat ∧ c.toNat ≤ 57) ∨ (97 ≤ c.toNat ∧ c.toNat ≤ 102) ∨ (65 ≤ c.toNat ∧ c.toNat ≤ 70) := by
  unfold digitValue at digit
  split at digit
  · next range => exact .inl range
  · split at digit
    · next range => exact .inr (.inl range)
    · split at digit
      · next range => exact .inr (.inr range)
      · simp at digit

theorem digitValue_lt {digit : Nat} (read : digitValue c = some digit) : digit < 16 := by
  have zero : '0'.toNat = 48 := rfl
  have lower : 'a'.toNat = 97 := rfl
  have upper : 'A'.toNat = 65 := rfl
  unfold digitValue at read
  split at read
  · next range =>
    have code : c.toNat ≤ 57 := range.2
    cases read
    omega
  · split at read
    · next range =>
      have code : c.toNat ≤ 102 := range.2
      cases read
      omega
    · split at read
      · next range =>
        have code : c.toNat ≤ 70 := range.2
        cases read
        omega
      · cases read

theorem digit_ne (digit : (digitValue c).isSome) : c ≠ '-' ∧ c ≠ '+' ∧ c ≠ '_' ∧ c ≠ 'x' ∧ c ≠ 'X' := by
  refine ⟨?_, ?_, ?_, ?_, ?_⟩ <;> rintro rfl <;> simp [digitValue] at digit

theorem digit_visible (digit : (digitValue c).isSome) : isStrWhiteSpace c = false ∧ isSpacePy c = false := by
  have code := digit_code digit
  simp only [isStrWhiteSpace, isSpacePy, List.mem_cons, List.not_mem_nil, or_false, decide_eq_false_iff_not]
  omega

end Characters

private theorem strip_visible {text : List Char} (visible : ∀ c ∈ text, isSpacePy c = false) : strip text = text := by
  rw [strip, dropWhile_visible visible, dropWhile_visible (by simpa using visible), List.reverse_reverse]

private theorem ungroup_digits {digits : List Char} (nonempty : digits ≠ [])
    (digit : ∀ c ∈ digits, (digitValue c).isSome) : ungroup digits = some digits := by
  have whole : digits.splitOn '_' = [digits] := by
    apply List.splitOn_eq_singleton_of_beq_eq_false
    intro c mem
    simpa using (digit_ne (digit c mem)).2.2.1
  simp [ungroup, whole, nonempty.symm]

/-- Digits below the radix always read. -/
private theorem readDigits_total {radix : Nat} {digits : List Char}
    (digit : ∀ c ∈ digits, ∃ d < radix, digitValue c = some d) (total : Nat) :
    ∃ n, readDigits radix total digits = some n := by
  induction digits generalizing total with
  | nil => exact ⟨total, rfl⟩
  | cons c rest ih =>
    obtain ⟨d, small, value⟩ := digit c List.mem_cons_self
    obtain ⟨n, read⟩ := ih (fun c mem => digit c (List.mem_cons_of_mem _ mem)) (total * radix + d)
    exact ⟨n, by simp [readDigits, value, small, read]⟩

section Numerals
variable {radix : Nat} {negative : Bool} {mark digits : List Char} {n : Nat}

private theorem numeral_visible (plain : mark ∈ [[], ['0', 'x']]) (digit : ∀ c ∈ digits, (digitValue c).isSome) :
    ∀ c ∈ numeral negative mark digits, isStrWhiteSpace c = false ∧ isSpacePy c = false := by
  intro c mem
  simp only [numeral, List.mem_append] at mem
  rcases mem with sign | marked | mem
  · cases negative
    · simp at sign
    · simp only [↓reduceIte, List.mem_singleton] at sign
      subst sign
      decide
  · have known : c = '0' ∨ c = 'x' := by
      simp only [List.mem_cons, List.not_mem_nil, or_false] at plain
      rcases plain with rfl | rfl
      · simp at marked
      · simpa using marked
    rcases known with rfl | rfl <;> decide
  · exact digit_visible (digit c mem)

/-- A numeral without a sign starts with a digit. -/
private theorem unsigned_head (plain : mark ∈ [[], ['0', 'x']]) (nonempty : digits ≠ [])
    (digit : ∀ c ∈ digits, (digitValue c).isSome) :
    ∃ c rest, mark ++ digits = c :: rest ∧ (digitValue c).isSome := by
  simp only [List.mem_cons, List.not_mem_nil, or_false] at plain
  rcases plain with rfl | rfl
  · cases digits with
    | nil => exact absurd rfl nonempty
    | cons c rest => exact ⟨c, rest, rfl, digit c List.mem_cons_self⟩
  · exact ⟨'0', 'x' :: digits, rfl, rfl⟩

/-- Python reads the sign and then the rest. -/
private theorem pyInt_numeral (plain : mark ∈ [[], ['0', 'x']]) (nonempty : digits ≠ [])
    (digit : ∀ c ∈ digits, (digitValue c).isSome) :
    pyInt radix (numeral negative mark digits) =
      (readUnsigned radix (numeral negative mark digits) (mark ++ digits)).map fun n : Nat =>
        if negative then -(n : Int) else n := by
  have stripped : strip (numeral negative mark digits) = numeral negative mark digits :=
    strip_visible fun c mem => (numeral_visible plain digit c mem).2
  obtain ⟨c, rest, shape, first⟩ := unsigned_head plain nonempty digit
  obtain ⟨minus, plus, -⟩ := digit_ne first
  unfold pyInt
  rw [stripped]
  cases negative with
  | true => simp [numeral]
  | false =>
    have text : numeral false mark digits = c :: rest := by simp [numeral, shape]
    rw [text, shape]
    split
    · next same => exact absurd (List.cons.inj same).1 minus
    · next same => exact absurd (List.cons.inj same).1 plus
    · rfl

private theorem dropMark_digits (plain : mark ∈ [[], ['0', 'x']]) (digit : ∀ c ∈ digits, (digitValue c).isSome) :
    dropMark 16 (mark ++ digits) = digits := by
  have second : ∀ a c rest, digits = a :: c :: rest → c ≠ 'x' ∧ c ≠ 'X' := by
    rintro a c rest rfl
    exact (digit_ne (digit c (by simp))).2.2.2
  have grouped : ∀ rest, digits ≠ '_' :: rest := by
    rintro rest rfl
    exact (digit_ne (digit '_' List.mem_cons_self)).2.2.1 rfl
  simp only [List.mem_cons, List.not_mem_nil, or_false] at plain
  rcases plain with rfl | rfl
  · simp only [dropMark, ↓reduceIte, List.nil_append]
    split
    · exact absurd rfl (second _ _ _ rfl).1
    · exact absurd rfl (second _ _ _ rfl).2
    · exact absurd rfl (second _ _ _ rfl).1
    · exact absurd rfl (second _ _ _ rfl).2
    · rfl
  · simp only [dropMark, ↓reduceIte, List.cons_append, List.nil_append]

private theorem signed_numeral (plain : mark ∈ [[], ['0', 'x']]) (nonempty : digits ≠ [])
    (digit : ∀ c ∈ digits, (digitValue c).isSome) : Signed (numeral negative mark digits) ↔ negative = true := by
  obtain ⟨c, rest, shape, first⟩ := unsigned_head plain nonempty digit
  cases negative with
  | true => simp [Signed, numeral]
  | false => simpa [Signed, numeral, shape] using (digit_ne first).1

end Numerals

/-- What a hexadecimal text is made of, and what it is worth. -/
structure HexParts (text : List Char) where
  negative : Bool
  mark : List Char
  digits : List Char
  magnitude : Nat
  plain : mark ∈ [[], ['0', 'x']]
  nonempty : digits ≠ []
  digit : ∀ c ∈ digits, (digitValue c).isSome
  shape : text = numeral negative mark digits
  read : readDigits 16 0 digits = some magnitude
  python : pyInt 16 text = .ok (if negative then -(magnitude : Int) else magnitude)
  signed : Signed text ↔ negative = true

theorem Hexadecimal.parts {text : List Char} (hexadecimal : Hexadecimal text) : Nonempty (HexParts text) := by
  obtain ⟨negative, mark, plain, digits, nonempty, digit, rfl⟩ := hexadecimal
  have small : ∀ c ∈ digits, ∃ d < 16, digitValue c = some d := by
    intro c mem
    obtain ⟨d, value⟩ := Option.isSome_iff_exists.mp (digit c mem)
    exact ⟨d, digitValue_lt value, value⟩
  obtain ⟨n, read⟩ := readDigits_total small 0
  refine ⟨⟨negative, mark, digits, n, plain, nonempty, digit, rfl, read, ?_, signed_numeral plain nonempty digit⟩⟩
  rw [pyInt_numeral plain nonempty digit, readUnsigned, dropMark_digits plain digit]
  simp [ungroup_digits nonempty digit, read, Except.map]

theorem HexParts.value {text : List Char} (parts : HexParts text) :
    hexValue text = if parts.negative then -(parts.magnitude : Int) else parts.magnitude := by
  simp [hexValue, parts.python, Except.toOption]

/-- Python reads every hexadecimal text. -/
theorem Hexadecimal.python {text : List Char} (hexadecimal : Hexadecimal text) :
    pyInt 16 text = .ok (hexValue text) := by
  obtain ⟨parts⟩ := hexadecimal.parts
  rw [parts.value, parts.python]

theorem Hexadecimal.nonneg {text : List Char} (hexadecimal : Hexadecimal text) (unsigned : ¬ Signed text) :
    0 ≤ hexValue text := by
  obtain ⟨parts⟩ := hexadecimal.parts
  have positive : parts.negative = false := by simpa [parts.signed] using unsigned
  simp [parts.value, positive]

theorem HexParts.visible {text : List Char} (parts : HexParts text) : ∀ c ∈ text, isStrWhiteSpace c = false := by
  intro c mem
  rw [parts.shape] at mem
  exact (numeral_visible parts.plain parts.digit c mem).1

private theorem decimal_ne {c : Char} {d : Nat} (small : d < 10) (value : digitValue c = some d) :
    c ∉ ['x', 'X', 'o', 'O', 'b', 'B'] := by
  intro mem
  simp only [List.mem_cons, List.not_mem_nil, or_false] at mem
  rcases mem with rfl | rfl | rfl | rfl | rfl | rfl <;> simp [digitValue] at value <;> omega

/-- JavaScript reads decimal digits behind an optional sign. -/
private theorem bigInt_numeral {negative : Bool} {digits : List Char} {n : Nat} (nonempty : digits ≠ [])
    (small : ∀ c ∈ digits, ∃ d < 10, digitValue c = some d) (read : readDigits 10 0 digits = some n) :
    bigInt (numeral negative [] digits) = some (if negative then -(n : Int) else n) := by
  have digit : ∀ c ∈ digits, (digitValue c).isSome := by
    intro c mem
    obtain ⟨d, -, value⟩ := small c mem
    rw [value]
    rfl
  have visible : ∀ c ∈ numeral negative [] digits, isStrWhiteSpace c = false :=
    fun c mem => (numeral_visible List.mem_cons_self digit c mem).1
  have literal : readNumeral 10 digits = some n := by simp [readNumeral, nonempty, read]
  rw [bigInt, trim_visible visible]
  cases negative with
  | true => simp [numeral, literal]
  | false =>
    obtain ⟨c, rest, shape, first⟩ := unsigned_head List.mem_cons_self nonempty digit
    obtain ⟨minus, plus, -⟩ := digit_ne first
    have radixless : ∀ c ∈ digits, c ∉ ['x', 'X', 'o', 'O', 'b', 'B'] := by
      intro c mem
      obtain ⟨d, lt, value⟩ := small c mem
      exact decimal_ne lt value
    rw [List.nil_append] at shape
    subst shape
    simp only [numeral, Bool.false_eq_true, ↓reduceIte, List.nil_append]
    split <;> simp_all

private theorem digitCount_numeral {negative : Bool} {digits : List Char}
    (digit : ∀ c ∈ digits, (digitValue c).isSome) : digitCount (numeral negative [] digits) = digits.length := by
  have kept : digits.filter (· ≠ '-') = digits := by
    apply List.filter_eq_self.mpr
    intro c mem
    simpa using (digit_ne (digit c mem)).1
  cases negative <;> simp [digitCount, numeral] <;> simpa using congrArg List.length kept

/-- What a decimal text is worth in JavaScript, and when Python reads the same. -/
theorem Decimal.reads {text : List Char} (decimal : Decimal text) :
    bigInt text = some (decimalValue text) ∧
      ∀ n, pyInt 10 text = .ok n ↔ n = decimalValue text ∧ digitCount text ≤ intMaxStrDigits := by
  obtain ⟨negative, digits, nonempty, small, rfl⟩ := decimal
  have digit : ∀ c ∈ digits, (digitValue c).isSome := by
    intro c mem
    obtain ⟨d, -, value⟩ := small c mem
    rw [value]
    rfl
  obtain ⟨n, read⟩ := readDigits_total small 0
  have script : bigInt (numeral negative [] digits) = some (if negative then -(n : Int) else n) :=
    bigInt_numeral nonempty small read
  have worth : decimalValue (numeral negative [] digits) = if negative then -(n : Int) else n := by
    simp [decimalValue, script]
  refine ⟨by rw [script, worth], ?_⟩
  intro value
  have whole : ungroup (dropMark 10 digits) = some digits := ungroup_digits nonempty digit
  rw [pyInt_numeral List.mem_cons_self nonempty digit, worth, digitCount_numeral digit, readUnsigned, List.nil_append]
  by_cases long : intMaxStrDigits < digits.length
  · simp [whole, read, long, Except.map]
  · simp [whole, read, long, Except.map, eq_comm, Nat.le_of_not_lt long]

end AfroPay.IntegerText
