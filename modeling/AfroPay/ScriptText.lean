import Mathlib.Data.List.Basic
import Mathlib.Data.List.TakeWhile
import Mathlib.Tactic.Common

/-! Texts as ECMAScript treats them: its white space, what `String.prototype.trim` leaves, and when a
text that may be missing counts as given. -/
namespace AfroPay.ScriptText

/-- White space and line terminators of ECMAScript. -/
def isStrWhiteSpace (c : Char) : Bool :=
  c.toNat ∈ [0x9, 0xA, 0xB, 0xC, 0xD, 0x20, 0xA0, 0x1680, 0x2028, 0x2029, 0x202F, 0x205F, 0x3000, 0xFEFF] ∨
    (0x2000 ≤ c.toNat ∧ c.toNat ≤ 0x200A)

/-- `text.trim()` -/
def trim (text : List Char) : List Char :=
  ((text.dropWhile isStrWhiteSpace).reverse.dropWhile isStrWhiteSpace).reverse

/-- A text that is given and not empty. -/
def truthy (text : Option String) : Option String := text.filter (· ≠ "")

theorem truthy_some {text : Option String} {given : String} : truthy text = some given ↔ text = some given ∧ given ≠ "" := by
  simp [truthy, Option.filter_eq_some_iff]

theorem dropWhile_visible {space : Char → Bool} {text : List Char} (visible : ∀ c ∈ text, space c = false) :
    text.dropWhile space = text := by
  cases text with
  | nil => rfl
  | cons c rest => rw [List.dropWhile_cons_of_neg (by simp [visible c List.mem_cons_self])]

theorem trim_visible {text : List Char} (visible : ∀ c ∈ text, isStrWhiteSpace c = false) : trim text = text := by
  rw [trim, dropWhile_visible visible, dropWhile_visible (by simpa using visible), List.reverse_reverse]

theorem trim_cons {c : Char} (visible : isStrWhiteSpace c = false) (rest : List Char) :
    ∃ kept, trim (c :: rest) = c :: kept := by
  rw [trim, List.dropWhile_cons_of_neg (by simp [visible]), List.reverse_cons, List.dropWhile_append]
  split
  · exact ⟨[], by simp [visible]⟩
  · exact ⟨_, by rw [List.reverse_append, List.reverse_singleton, List.singleton_append]⟩

theorem dropWhile_spaces {spaces core : List Char} (space : ∀ c ∈ spaces, isStrWhiteSpace c = true)
    (bare : ∀ c ∈ core.head?, isStrWhiteSpace c = false) : (spaces ++ core).dropWhile isStrWhiteSpace = core := by
  rw [List.dropWhile_append_of_pos space]
  cases core with
  | nil => rfl
  | cons c rest => exact List.dropWhile_cons_of_neg (by simp [bare c rfl])

/-- Trimming takes off the white space around a text that neither begins nor ends in any. -/
theorem trim_spaces {lead core trail : List Char} (lead_space : ∀ c ∈ lead, isStrWhiteSpace c = true)
    (trail_space : ∀ c ∈ trail, isStrWhiteSpace c = true) (nonempty : core ≠ [])
    (bare : ∀ c ∈ core, isStrWhiteSpace c = false) : trim (lead ++ (core ++ trail)) = core := by
  rw [trim, dropWhile_spaces lead_space, List.reverse_append, dropWhile_spaces, List.reverse_reverse]
  · intro c member
    exact trail_space c (List.mem_reverse.mp member)
  · intro c member
    exact bare c (List.mem_reverse.mp (List.mem_of_mem_head? member))
  · intro c member
    rw [List.head?_append_of_ne_nil _ nonempty] at member
    exact bare c (List.mem_of_mem_head? member)

theorem trim_parts (text : List Char) : ∃ lead trail, text = lead ++ (trim text ++ trail) ∧
    (∀ c ∈ lead, isStrWhiteSpace c = true) ∧ ∀ c ∈ trail, isStrWhiteSpace c = true := by
  refine ⟨text.takeWhile isStrWhiteSpace,
    ((text.dropWhile isStrWhiteSpace).reverse.takeWhile isStrWhiteSpace).reverse, ?_, ?_, ?_⟩
  · rw [trim, ← List.reverse_append, List.takeWhile_append_dropWhile, List.reverse_reverse,
      List.takeWhile_append_dropWhile]
  · intro c member
    exact List.mem_takeWhile_imp member
  · intro c member
    exact List.mem_takeWhile_imp (List.mem_reverse.mp member)

theorem visible_of_isDigit {c : Char} (digit : c.isDigit = true) : isStrWhiteSpace c = false := by
  simp only [Char.isDigit, Bool.and_eq_true, decide_eq_true_eq, ge_iff_le] at digit
  have low : 48 ≤ c.toNat := UInt32.le_iff_toNat_le.mp digit.1
  have high : c.toNat ≤ 57 := UInt32.le_iff_toNat_le.mp digit.2
  simp only [isStrWhiteSpace, List.mem_cons, List.not_mem_nil, or_false, decide_eq_false_iff_not]
  omega

end AfroPay.ScriptText
