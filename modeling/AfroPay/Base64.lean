import Mathlib.Tactic.Common

/-! Base64 with padding and UTF-8, as `Buffer` converts between bytes and text: how long
either becomes, and that base64 text is one byte a character. -/
namespace AfroPay.Base64

def alphabet : List Char := "ABCDEFGHIJKLMNOPQRSTUVWXYZabcdefghijklmnopqrstuvwxyz0123456789+/".toList

/-- The character of six bits. -/
def sextet (bits : Nat) : Char := alphabet.getD bits 'A'

/-- `buffer.toString('base64')`. -/
def encode : List UInt8 → List Char
  | [] => []
  | [a] => [sextet (a.toNat / 4), sextet (a.toNat % 4 * 16), '=', '=']
  | [a, b] =>
    [sextet (a.toNat / 4), sextet (a.toNat % 4 * 16 + b.toNat / 16), sextet (b.toNat % 16 * 4), '=']
  | a :: b :: c :: rest =>
    sextet (a.toNat / 4) :: sextet (a.toNat % 4 * 16 + b.toNat / 16) :: sextet (b.toNat % 16 * 4 + c.toNat / 64) ::
      sextet (c.toNat % 64) :: encode rest

/-- `Buffer.from(text)`. -/
def utf8 (text : List Char) : List UInt8 := text.flatMap String.utf8EncodeChar

/-- Three bytes become four characters. -/
theorem length_encode (bytes : List UInt8) : (encode bytes).length = 4 * ((bytes.length + 2) / 3) := by
  fun_induction encode bytes with
  | case1 => rfl
  | case2 a => simp
  | case3 a b => simp
  | case4 a b c rest ih =>
    simp only [List.length_cons, ih]
    omega

theorem sextet_mem (bits : Nat) : sextet bits ∈ alphabet := by
  have first : 'A' ∈ alphabet := by decide +kernel
  unfold sextet
  rw [List.getD_eq_getElem?_getD]
  cases found : alphabet[bits]? with
  | none => exact first
  | some c => exact List.mem_of_getElem? found

/-- Base64 text is made of the alphabet and of padding. -/
theorem mem_encode (bytes : List UInt8) : ∀ c ∈ encode bytes, c = '=' ∨ c ∈ alphabet := by
  fun_induction encode bytes with
  | case1 => simp
  | case2 a => simp [sextet_mem]
  | case3 a b => simp [sextet_mem]
  | case4 a b c rest ih => simpa [sextet_mem] using ih

theorem utf8Size_encode (bytes : List UInt8) : ∀ c ∈ encode bytes, c.utf8Size = 1 := by
  have ascii : alphabet.all (fun c => c.utf8Size = 1) = true := by decide +kernel
  intro c member
  rcases mem_encode bytes c member with rfl | among
  · decide
  · simpa using List.all_eq_true.mp ascii c among

/-- Text of one-byte characters has as many bytes as characters. -/
theorem length_utf8 {text : List Char} (ascii : ∀ c ∈ text, c.utf8Size = 1) : (utf8 text).length = text.length := by
  induction text with
  | nil => rfl
  | cons c rest ih =>
    have tail := ih fun d member => ascii d (List.mem_cons_of_mem c member)
    have head : (String.utf8EncodeChar c).length = 1 := by
      rw [String.length_utf8EncodeChar]
      exact ascii c List.mem_cons_self
    simp only [utf8, List.flatMap_cons, List.length_append, head, List.length_cons] at tail ⊢
    omega

theorem utf8_append (a b : List Char) : utf8 (a ++ b) = utf8 a ++ utf8 b := List.flatMap_append

theorem utf8_zeros (count : Nat) : utf8 (List.replicate count '\x00') = List.replicate count 0 := by
  have zero : String.utf8EncodeChar '\x00' = [0] := by decide
  induction count with
  | zero => rfl
  | succ count ih =>
    rw [utf8] at ih ⊢
    rw [List.replicate_succ, List.flatMap_cons, ih, zero, List.singleton_append, List.replicate_succ]

/-- No two texts have the same bytes. -/
theorem utf8_injective {a b : List Char} (same : utf8 a = utf8 b) : a = b := by
  have encoded : a.utf8Encode = b.utf8Encode := congrArg List.toByteArray same
  have decoded := congrArg ByteArray.utf8Decode? encoded
  rw [List.utf8Decode?_utf8Encode, List.utf8Decode?_utf8Encode, Option.some.injEq] at decoded
  exact congrArg Array.toList decoded

end AfroPay.Base64
