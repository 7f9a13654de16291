import AfroPay.Base64
import Mathlib.Tactic.IntervalCases

/-! Bytes read as UTF-8, with a replacement character for every longest part that begins a
character and does not end it. -/
namespace AfroPay.LossyText
open Base64

/-- What a sequence of bytes still needs: how many bytes, the bits so far, and the bounds of
the next byte. -/
structure Utf8State where
  needed : Nat
  code : Nat
  lower : Nat
  upper : Nat

def replacement : Char := Char.ofNat 0xFFFD

/-- The first byte of a sequence: a character, or what has to follow. -/
def leadByte (byte : Nat) : Char ⊕ Utf8State :=
  if byte < 0x80 then .inl (Char.ofNat byte)
  else if 0xC2 ≤ byte ∧ byte ≤ 0xDF then .inr ⟨1, byte - 0xC0, 0x80, 0xBF⟩
  else if byte = 0xE0 then .inr ⟨2, 0, 0xA0, 0xBF⟩
  else if byte = 0xED then .inr ⟨2, 0xD, 0x80, 0x9F⟩
  else if 0xE1 ≤ byte ∧ byte ≤ 0xEF then .inr ⟨2, byte - 0xE0, 0x80, 0xBF⟩
  else if byte = 0xF0 then .inr ⟨3, 0, 0x90, 0xBF⟩
  else if byte = 0xF4 then .inr ⟨3, 4, 0x80, 0x8F⟩
  else if 0xF1 ≤ byte ∧ byte ≤ 0xF3 then .inr ⟨3, byte - 0xF0, 0x80, 0xBF⟩
  else .inl replacement

/-- Reads on from a sequence that has begun, if one has. A byte that cannot continue it ends
it with a replacement character and is read again as a first byte. -/
def decodeUtf8From : Option Utf8State → List UInt8 → List Char
  | none, [] => []
  | some _, [] => [replacement]
  | none, byte :: rest =>
    match leadByte byte.toNat with
    | .inl c => c :: decodeUtf8From none rest
    | .inr state => decodeUtf8From (some state) rest
  | some state, byte :: rest =>
    if state.lower ≤ byte.toNat ∧ byte.toNat ≤ state.upper then
      let code := state.code * 64 + byte.toNat % 64
      if state.needed ≤ 1 then Char.ofNat code :: decodeUtf8From none rest
      else decodeUtf8From (some ⟨state.needed - 1, code, 0x80, 0xBF⟩) rest
    else match leadByte byte.toNat with
      | .inl c => replacement :: c :: decodeUtf8From none rest
      | .inr next => replacement :: decodeUtf8From (some next) rest

/-- `buffer.toString('utf8')`. -/
def decodeUtf8 (bytes : List UInt8) : List Char := decodeUtf8From none bytes

/-- A byte that fits is taken into the sequence that has begun. -/
theorem decodeUtf8From_fits {state : Utf8State} {n : Nat} {rest : List UInt8} (small : n < 256)
    (fits : state.lower ≤ n ∧ n ≤ state.upper) : decodeUtf8From (some state) (UInt8.ofNat n :: rest) =
      if state.needed ≤ 1 then Char.ofNat (state.code * 64 + n % 64) :: decodeUtf8From none rest
      else decodeUtf8From (some ⟨state.needed - 1, state.code * 64 + n % 64, 0x80, 0xBF⟩) rest := by
  rw [decodeUtf8From, UInt8.toNat_ofNat_of_lt' small, if_pos fits]

theorem decodeUtf8From_lead {state : Utf8State} {n : Nat} {rest : List UInt8} (small : n < 256)
    (lead : leadByte n = .inr state) :
    decodeUtf8From none (UInt8.ofNat n :: rest) = decodeUtf8From (some state) rest := by
  rw [decodeUtf8From, UInt8.toNat_ofNat_of_lt' small, lead]

theorem leadByte_two {high : Nat} (wide : 2 ≤ high) (below : high < 32) :
    leadByte (high + 0xC0) = .inr ⟨1, high, 0x80, 0xBF⟩ := by
  interval_cases high <;> rfl

theorem leadByte_three {high : Nat} (below : high < 16) : leadByte (high + 0xE0) =
    .inr ⟨2, high, if high = 0 then 0xA0 else 0x80, if high = 13 then 0x9F else 0xBF⟩ := by
  interval_cases high <;> rfl

theorem leadByte_four {high : Nat} (below : high < 5) : leadByte (high + 0xF0) =
    .inr ⟨3, high, if high = 0 then 0x90 else 0x80, if high = 4 then 0x8F else 0xBF⟩ := by
  interval_cases high <;> rfl

/-- A character is read off the bytes it was written to. -/
theorem decodeUtf8From_encode (c : Char) (rest : List UInt8) :
    decodeUtf8From none (String.utf8EncodeChar c ++ rest) = c :: decodeUtf8From none rest := by
  have valid : c.val.toNat < 0xD800 ∨ 0xDFFF < c.val.toNat ∧ c.val.toNat < 0x110000 := c.valid
  have self : Char.ofNat c.val.toNat = c := Char.ofNat_toNat c
  unfold String.utf8EncodeChar
  generalize c.val.toNat = n at valid self
  simp only
  split
  · have plain : leadByte n = .inl c := by
      rw [leadByte, if_pos (by omega), self]
    rw [List.singleton_append, decodeUtf8From, UInt8.toNat_ofNat_of_lt' (by simp [UInt8.size]; omega), plain]
  split
  · simp only [List.cons_append, List.nil_append]
    rw [decodeUtf8From_lead (by omega) (leadByte_two (by omega) (by omega)),
      decodeUtf8From_fits (by omega) (by dsimp only; omega), if_pos (Nat.le_refl 1),
      show n / 64 % 32 * 64 + (n % 64 + 128) % 64 = n by omega, self]
  split
  · simp only [List.cons_append, List.nil_append]
    rw [decodeUtf8From_lead (by omega) (leadByte_three (by omega)),
      decodeUtf8From_fits (by omega) (by dsimp only; split <;> split <;> omega), if_neg (by simp),
      decodeUtf8From_fits (by omega) (by dsimp only; omega), if_pos (by simp),
      show (n / 4096 % 16 * 64 + (n / 64 % 64 + 128) % 64) * 64 + (n % 64 + 128) % 64 = n by omega, self]
  · simp only [List.cons_append, List.nil_append]
    rw [decodeUtf8From_lead (by omega) (leadByte_four (by omega)),
      decodeUtf8From_fits (by omega) (by dsimp only; split <;> split <;> omega), if_neg (by simp),
      decodeUtf8From_fits (by omega) (by dsimp only; omega), if_neg (by simp),
      decodeUtf8From_fits (by omega) (by dsimp only; omega), if_pos (by simp),
      show ((n / 262144 % 8 * 64 + (n / 4096 % 64 + 128) % 64) * 64 + (n / 64 % 64 + 128) % 64) * 64 +
        (n % 64 + 128) % 64 = n by omega, self]

/-- Whole characters are decoded to themselves. -/
theorem decodeUtf8_utf8 (text : List Char) : decodeUtf8 (utf8 text) = text := by
  induction text with
  | nil => rfl
  | cons c text ih =>
    have encoded : utf8 (c :: text) = String.utf8EncodeChar c ++ utf8 text := List.flatMap_cons
    rw [decodeUtf8, encoded, decodeUtf8From_encode]
    exact congrArg (c :: ·) ih

end AfroPay.LossyText
