import Mathlib.Tactic.Common

/-! Texts joined by a separator, and parts that stand behind their lengths. What survives the
joining is the list of pieces between the separators; where one text ends and the next begins
does not. Parts behind their lengths all survive. -/
namespace AfroPay.JoinedText
variable {α : Type*} [BEq α] [LawfulBEq α] {separator : α}

/-- The pieces between the separators of several texts, in order. -/
def pieces (separator : α) (texts : List (List α)) : List (List α) := texts.flatMap (List.splitOn separator)

omit [LawfulBEq α] in
theorem pieces_append (first second : List (List α)) :
    pieces separator (first ++ second) = pieces separator first ++ pieces separator second :=
  List.flatMap_append

/-- Texts without a separator are their own pieces. -/
theorem pieces_of_free {texts : List (List α)} (free : ∀ text ∈ texts, separator ∉ text) :
    pieces separator texts = texts := by
  induction texts with
  | nil => rfl
  | cons text rest ih =>
    have own := List.splitOn_eq_singleton (free text List.mem_cons_self)
    have others := ih fun text mem => free text (List.mem_cons_of_mem _ mem)
    simp only [pieces] at others ⊢
    rw [List.flatMap_cons, own, others, List.singleton_append]

theorem splitOn_join {texts : List (List α)} (nonempty : texts ≠ []) :
    ([separator].intercalate texts).splitOn separator = pieces separator texts := by
  induction texts with
  | nil => exact absurd rfl nonempty
  | cons text rest ih =>
    cases rest with
    | nil => simp [pieces]
    | cons next others =>
      have below := ih (List.cons_ne_nil _ _)
      rw [List.intercalate_cons_cons, List.append_assoc, List.singleton_append,
        List.splitOn_append_cons_self, below]
      rfl

/-- Two joinings agree exactly when their pieces do. -/
theorem join_eq_iff {first second : List (List α)} (nonempty : first ≠ []) (nonempty' : second ≠ []) :
    [separator].intercalate first = [separator].intercalate second ↔
      pieces separator first = pieces separator second := by
  constructor
  · intro same
    rw [← splitOn_join nonempty, same, splitOn_join nonempty']
  · intro same
    have splits : ([separator].intercalate first).splitOn separator =
        ([separator].intercalate second).splitOn separator := by
      rw [splitOn_join nonempty, same, splitOn_join nonempty']
    calc [separator].intercalate first
        = [separator].intercalate (([separator].intercalate first).splitOn separator) :=
          (List.intercalate_splitOn separator).symm
      _ = [separator].intercalate (([separator].intercalate second).splitOn separator) := by rw [splits]
      _ = [separator].intercalate second := List.intercalate_splitOn separator

/-- The same for strings, and with one more text that both end in. -/
theorem joined_strings_eq_iff (separator : Char) (first second : List String) (last : String) :
    (String.singleton separator).intercalate (first ++ [last]) =
        (String.singleton separator).intercalate (second ++ [last]) ↔
      pieces separator (first.map String.toList) = pieces separator (second.map String.toList) := by
  rw [← String.toList_inj, String.toList_intercalate, String.toList_intercalate, String.toList_singleton,
    join_eq_iff (by simp) (by simp), List.map_append, List.map_append, pieces_append, pieces_append,
    List.append_left_inj]

omit [BEq α] [LawfulBEq α] in
/-- The first separator tells what stands before it from what follows. -/
theorem first_separator {before after before' after' : List α} (free : separator ∉ before) (free' : separator ∉ before')
    (same : before ++ separator :: after = before' ++ separator :: after') : before = before' ∧ after = after' := by
  induction before generalizing before' with
  | nil =>
    cases before' with
    | nil => exact ⟨rfl, (List.cons.inj same).2⟩
    | cons c rest => exact absurd (List.cons.inj same).1 fun equal => free' (equal ▸ List.mem_cons_self)
  | cons c rest ih =>
    cases before' with
    | nil => exact absurd (List.cons.inj same).1.symm fun equal => free (equal ▸ List.mem_cons_self)
    | cons c' rest' =>
      obtain ⟨rfl, tails⟩ := List.cons.inj same
      obtain ⟨rfl, equal⟩ := ih (fun member => free (List.mem_cons_of_mem _ member))
        (fun member => free' (List.mem_cons_of_mem _ member)) tails
      exact ⟨rfl, equal⟩

section Framed
variable {β : Type*} {code : Nat → List β} {width bound : Nat}

/-- Every part behind a code of its length. -/
def framed (code : Nat → List β) (parts : List (List β)) : List β :=
  parts.flatMap fun part => code part.length ++ part

/-- With codes of one width that tell lengths apart, no two lists of parts give one text. -/
theorem framed_injective (code : Nat → List β) (wide : ∀ n, (code n).length = width) (positive : 0 < width)
    (apart : ∀ m < bound, ∀ n < bound, code m = code n → m = n) {first second : List (List β)}
    (short : ∀ part ∈ first, part.length < bound) (short' : ∀ part ∈ second, part.length < bound)
    (same : framed code first = framed code second) : first = second := by
  have nonempty : ∀ part rest, framed code (part :: rest) ≠ [] := by
    intro part rest empty
    have lengths := congrArg List.length empty
    simp only [framed, List.flatMap_cons, List.length_append, wide, List.length_nil] at lengths
    omega
  induction first generalizing second with
  | nil =>
    cases second with
    | nil => rfl
    | cons part rest => exact absurd same.symm (nonempty part rest)
  | cons part rest ih =>
    cases second with
    | nil => exact absurd same (nonempty part rest)
    | cons part' rest' =>
      simp only [framed, List.flatMap_cons, List.append_assoc] at same
      obtain ⟨codes, tails⟩ := List.append_inj same (by rw [wide, wide])
      have lengths : part.length = part'.length :=
        apart _ (short part List.mem_cons_self) _ (short' part' List.mem_cons_self) codes
      obtain ⟨rfl, others⟩ := List.append_inj tails lengths
      have below : rest = rest' := ih (fun other member => short other (List.mem_cons_of_mem _ member))
        (fun other member => short' other (List.mem_cons_of_mem _ member)) others
      rw [below]

end Framed

end AfroPay.JoinedText
