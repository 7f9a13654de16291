import AfroPay.Base64
import AfroPay.IntegerText
import AfroPay.Json
import AfroPay.LossyText
import AfroPay.NumberText

/-! Text as a web service reads it: UTF-16 lengths, lenient base64, URL-encoded parameters, the
number JavaScript makes of a JSON value, and the text it gives a time. None of the readers
fails on malformed text. -/
namespace AfroPay.WebText
open Base64 IntegerText LossyText NumberText ScriptText

/-- `text.length`, in UTF-16 code units. -/
def utf16Length (text : String) : Nat := (text.toList.map fun c => if c.toNat < 0x10000 then 1 else 2).sum

/-- `text.split(separator)`. -/
def split (separator : Char) : List Char → List (List Char)
  | [] => [[]]
  | c :: rest =>
    match split separator rest with
    | [] => [[c]]
    | first :: others => if c = separator then [] :: first :: others else (c :: first) :: others

section Base64

/-- The six bits of a character of either base64 alphabet. -/
def sextetValue (c : Char) : Option Nat :=
  if 'A' ≤ c ∧ c ≤ 'Z' then some (c.toNat - 65)
  else if 'a' ≤ c ∧ c ≤ 'z' then some (c.toNat - 71)
  else if '0' ≤ c ∧ c ≤ '9' then some (c.toNat + 4)
  else if c = '+' ∨ c = '-' then some 62
  else if c = '/' ∨ c = '_' then some 63
  else none

/-- Four groups of six bits are three bytes; what is left over is cut to whole bytes. -/
def joinSextets : List Nat → List UInt8
  | a :: b :: c :: d :: rest =>
    UInt8.ofNat (a * 4 + b / 16) :: UInt8.ofNat (b % 16 * 16 + c / 4) :: UInt8.ofNat (c % 4 * 64 + d) ::
      joinSextets rest
  | [a, b, c] => [UInt8.ofNat (a * 4 + b / 16), UInt8.ofNat (b % 16 * 16 + c / 4)]
  | [a, b] => [UInt8.ofNat (a * 4 + b / 16)]
  | _ => []

/-- `Buffer.from(text, 'base64')`: padding ends the text, other foreign characters are skipped. -/
def decodeBase64 (text : List Char) : List UInt8 :=
  joinSextets ((text.takeWhile (· ≠ '=')).filterMap sextetValue)

/-- `buffer.toString('base64url')`. -/
def encodeBase64Url (bytes : List UInt8) : List Char :=
  ((encode bytes).filter (· ≠ '=')).map fun c => if c = '+' then '-' else if c = '/' then '_' else c

/-- Minus and underscore are replaced by the characters of the standard alphabet. -/
def fromUrlAlphabet (text : List Char) : List Char :=
  text.map fun c => if c = '-' then '+' else if c = '_' then '/' else c

/-- Padding to a multiple of four characters. -/
def padBase64 (text : List Char) : List Char :=
  let length := utf16Length (String.ofList text)
  if length % 4 = 0 then text else text ++ List.replicate (4 - length % 4) '='

end Base64

section UrlEncoded

/-- Two hexadecimal digits after a percent sign are a byte. -/
def percentDecode : List UInt8 → List UInt8
  | 0x25 :: a :: b :: rest =>
    match digitValue (Char.ofNat a.toNat), digitValue (Char.ofNat b.toNat) with
    | some high, some low => UInt8.ofNat (high * 16 + low) :: percentDecode rest
    | _, _ => 0x25 :: percentDecode (a :: b :: rest)
  | byte :: rest => byte :: percentDecode rest
  | [] => []

def decodeComponent (text : List Char) : String :=
  String.ofList (decodeUtf8 (percentDecode (utf8 (text.map fun c => if c = '+' then ' ' else c))))

/-- `new URLSearchParams(query)`. -/
def urlSearchParams (query : List Char) : List (String × String) :=
  ((split '&' query).filter (· ≠ [])).map fun pair =>
    (decodeComponent (pair.takeWhile (· ≠ '=')), decodeComponent ((pair.dropWhile (· ≠ '=')).drop 1))

end UrlEncoded

section Numbers

/-- The integer nearest to `x`, the even one of two. -/
def roundHalfEven (x : ℚ) : ℤ :=
  let below := ⌊x⌋
  if x - below < 1 / 2 then below
  else if 1 / 2 < x - below then below + 1
  else if below % 2 = 0 then below else below + 1

/-- The exponent of the largest power of two that is not above a positive `x`. -/
def binaryExponent (x : ℚ) : ℤ :=
  let guess : ℤ := (Nat.log2 x.num.natAbs : ℤ) - Nat.log2 x.den
  if (2 : ℚ) ^ guess ≤ x then guess else guess - 1

/-- The double nearest to `x`, with nothing for an infinite one. -/
def toDouble (x : ℚ) : Option ℚ :=
  if x = 0 then some 0
  else
    let unit : ℚ := 2 ^ max (binaryExponent |x| - 52) (-1074)
    let nearest := roundHalfEven (x / unit) * unit
    if |nearest| < 2 ^ 1024 then some nearest else none

def signed (negative : Bool) (x : ℚ) : ℚ := if negative then -x else x

/-- The value of a JSON number. -/
def numberValue (literal : Json.Literal) : Option ℚ :=
  let (negative, body) := splitSign literal.text
  (parseDecimal body).bind fun x => toDouble (signed negative x)

/-- `Number(text)`, with nothing for `NaN` and the infinities. -/
def stringToNumber (text : List Char) : Option ℚ :=
  match trim text with
  | [] => some 0
  | '0' :: 'x' :: digits | '0' :: 'X' :: digits => (readNumeral 16 digits).bind fun n : Nat => toDouble n
  | '0' :: 'o' :: digits | '0' :: 'O' :: digits => (readNumeral 8 digits).bind fun n : Nat => toDouble n
  | '0' :: 'b' :: digits | '0' :: 'B' :: digits => (readNumeral 2 digits).bind fun n : Nat => toDouble n
  | body =>
    let (negative, digits) := splitSign body
    (parseDecimal digits).bind fun x => toDouble (signed negative x)

/-- The number of the only item of an array, which is converted by way of its text. -/
def itemToNumber : Json.Value → Option ℚ
  | .null => some 0
  | .number literal => numberValue literal
  | .string text => stringToNumber text.toList
  | .array [] => some 0
  | .array [item] => itemToNumber item
  | .array _ | .bool _ | .object _ => none

/-- `Number(value)`, with nothing for `NaN`, the infinities and a value that cannot be converted. -/
def toNumber : Json.Value → Option ℚ
  | .bool value => some (if value then 1 else 0)
  | value => itemToNumber value

/-- A positive number is not written with a leading zero. -/
theorem toDigits_cons {n : Nat} (positive : 0 < n) : ∃ c rest, Nat.toDigits 10 n = c :: rest ∧ c ≠ '0' ∧ c ≠ '-' := by
  induction n using Nat.base_induction 10 (by decide) with
  | single n small =>
    have table : ∀ d < 10, 0 < d → Nat.digitChar d ≠ '0' ∧ Nat.digitChar d ≠ '-' := by decide
    exact ⟨_, [], Nat.toDigits_of_lt_base small, table n small positive⟩
  | digit n digit small above ih =>
    obtain ⟨c, rest, text, first⟩ := ih above
    rw [← Nat.toDigits_append_toDigits (by decide) above small, text]
    exact ⟨c, _, rfl, first⟩

theorem isNumber_toDigits (n : Nat) : Json.isNumber (Nat.toDigits 10 n) := by
  rcases Nat.eq_zero_or_pos n with rfl | positive
  · decide
  have digits : ∀ c ∈ Nat.toDigits 10 n, c.isDigit = true := fun c member => isDigit_of_mem_toDigits member
  obtain ⟨c, rest, text, zero, minus⟩ := toDigits_cons positive
  rw [text] at digits ⊢
  have chars : (c :: rest).all Json.isNumberChar := by
    apply List.all_eq_true.mpr
    intro d member
    simp [Json.isNumberChar, digits d member]
  have taken : (c :: rest).takeWhile Char.isDigit = c :: rest := List.takeWhile_eq_self_iff.mpr digits
  have dropped : (c :: rest).dropWhile Char.isDigit = [] := List.dropWhile_eq_nil_iff.mpr digits
  have unsigned : Json.isUnsigned (c :: rest) := by
    unfold Json.isUnsigned
    split
    · rename_i same
      cases same
      exact absurd rfl zero
    · rw [taken, dropped]
      simpa [Json.isDigits, Json.isFraction, Json.isExponent] using digits
  unfold Json.isNumber
  rw [chars, Bool.true_and]
  split
  · rename_i same
    cases same
    exact absurd rfl minus
  · exact unsigned

/-- The text of a natural number. -/
def natLiteral (n : Nat) : Json.Literal := ⟨Nat.toDigits 10 n, isNumber_toDigits n⟩

/-- The member of an object; of several with one key the last counts. -/
def getMember (value : Json.Value) (key : String) : Option Json.Value :=
  match value with
  | .object members => (members.reverse.find? (·.1 = key)).map (·.2)
  | _ => none

end Numbers

section Dates

/-- A number with at least so many digits. -/
def padDigits (width n : Nat) : List Char :=
  List.replicate (width - (Nat.toDigits 10 n).length) '0' ++ Nat.toDigits 10 n

/-- Year, month and day, from the days since the first of January 1970. Years are counted from
the first of March, in eras of 400 of them. -/
def civilDate (days : Nat) : Nat × Nat × Nat :=
  let shifted := days + 719468
  let dayOfEra := shifted % 146097
  let yearOfEra := (dayOfEra - dayOfEra / 1460 + dayOfEra / 36524 - dayOfEra / 146096) / 365
  let dayOfYear := dayOfEra - (365 * yearOfEra + yearOfEra / 4 - yearOfEra / 100)
  let shiftedMonth := (5 * dayOfYear + 2) / 153
  let month := if shiftedMonth < 10 then shiftedMonth + 3 else shiftedMonth - 9
  let year := shifted / 146097 * 400 + yearOfEra + if month ≤ 2 then 1 else 0
  (year, month, dayOfYear - (153 * shiftedMonth + 2) / 5 + 1)

def yearText (year : Nat) : List Char := if year ≤ 9999 then padDigits 4 year else '+' :: padDigits 6 year

/-- `date.toISOString()`, of milliseconds since the beginning of 1970. -/
def toISOString (ms : Nat) : String :=
  let (year, month, day) := civilDate (ms / 86400000)
  String.ofList (yearText year ++ '-' :: padDigits 2 month ++ '-' :: padDigits 2 day ++
    'T' :: padDigits 2 (ms / 3600000 % 24) ++ ':' :: padDigits 2 (ms / 60000 % 60) ++
    ':' :: padDigits 2 (ms / 1000 % 60) ++ '.' :: padDigits 3 (ms % 1000) ++ ['Z'])

-- the last day of a February, to the millisecond
example : toISOString 951868799999 = "2000-02-29T23:59:59.999Z" := by decide +kernel

end Dates

end AfroPay.WebText
