import Mathlib.Algebra.Order.Group.Basic
import Mathlib.Data.List.Sort

/-! Rankings by a key, least first and stable, and two of them whose keys are
different readings of an item's worth plus one and the same penalty. -/
namespace AfroPay.SharedPenalty
variable {α K : Type*} [LinearOrder K]

/-- The items, those with the least key first; items with equal keys keep their order. -/
def rankBy (key : α → K) (items : List α) : List α := items.insertionSort fun a b => key a ≤ key b

theorem mem_rankBy {key : α → K} {items : List α} {item : α} : item ∈ rankBy key items ↔ item ∈ items :=
  List.mem_insertionSort _

theorem first_least {key : α → K} {items : List α} {first : α} (ranked : (rankBy key items).head? = some first) :
    first ∈ items ∧ ∀ item ∈ items, key first ≤ key item := by
  let before := fun a b : α => key a ≤ key b
  have total : Std.Total before := ⟨fun a b => le_total (key a) (key b)⟩
  have transitive : IsTrans α before := ⟨fun a b c => le_trans⟩
  have sorted : (rankBy key items).Pairwise before := List.pairwise_insertionSort before items
  obtain ⟨rest, shape⟩ := List.head?_eq_some_iff.mp ranked
  refine ⟨mem_rankBy.mp (shape ▸ List.mem_cons_self), fun item member => ?_⟩
  have listed : item ∈ first :: rest := shape ▸ mem_rankBy.mpr member
  rcases List.mem_cons.mp listed with here | later
  · rw [here]
  · rw [shape] at sorted
    exact (List.pairwise_cons.mp sorted).1 item later

theorem first_exists {key : α → K} {items : List α} (nonempty : items ≠ []) :
    ∃ first, (rankBy key items).head? = some first := by
  cases shape : rankBy key items with
  | nil =>
    have length := List.length_insertionSort (fun a b => key a ≤ key b) items
    rw [← rankBy, shape, List.length_nil] at length
    exact absurd (List.eq_nil_of_length_eq_zero length.symm) nonempty
  | cons first rest => exact ⟨first, rfl⟩

/-- An item that is strictly below all others comes first. -/
theorem first_of_below {key : α → K} {items : List α} {least : α} (member : least ∈ items)
    (below : ∀ item ∈ items, item = least ∨ key least < key item) : (rankBy key items).head? = some least := by
  obtain ⟨first, ranked⟩ : ∃ first, (rankBy key items).head? = some first :=
    first_exists (List.ne_nil_of_mem member)
  obtain ⟨listed, smallest⟩ := first_least ranked
  rcases below first listed with same | less
  · rw [ranked, same]
  · exact absurd (smallest least member) (not_le.mpr less)

section Penalty
variable [AddCommGroup K] [IsOrderedAddMonoid K] {key other worth otherWorth penalty : α → K} {items : List α}
  {a b : α}

/-- Where two rankings disagree, the difference of the penalties lies between the two
differences of worth. -/
theorem firsts_bounded (key_eq : ∀ item ∈ items, key item = worth item + penalty item)
    (other_eq : ∀ item ∈ items, other item = otherWorth item + penalty item)
    (a_first : (rankBy key items).head? = some a) (b_first : (rankBy other items).head? = some b) :
    otherWorth b - otherWorth a ≤ penalty a - penalty b ∧ penalty a - penalty b ≤ worth b - worth a := by
  obtain ⟨a_listed, a_least⟩ := first_least a_first
  obtain ⟨b_listed, b_least⟩ := first_least b_first
  have a_below := a_least b b_listed
  have b_below := b_least a a_listed
  rw [key_eq a a_listed, key_eq b b_listed] at a_below
  rw [other_eq a a_listed, other_eq b b_listed] at b_below
  constructor
  · rw [sub_le_sub_iff, add_comm (penalty a)]
    exact b_below
  · rw [sub_le_sub_iff, add_comm (penalty a), add_comm (worth b)]
    simpa only [add_comm] using a_below

/-- If some item is worth most and has the least penalty as well, then the first of
the ranking is like it. -/
theorem first_like_best {best : α} (key_eq : ∀ item ∈ items, key item = worth item + penalty item)
    (member : best ∈ items) (dominates : ∀ item ∈ items, worth best ≤ worth item ∧ penalty best ≤ penalty item)
    (a_first : (rankBy key items).head? = some a) : worth a = worth best ∧ penalty a = penalty best := by
  obtain ⟨a_listed, a_least⟩ := first_least a_first
  obtain ⟨worthy, cheap⟩ := dominates a a_listed
  have below := a_least best member
  rw [key_eq a a_listed, key_eq best member] at below
  constructor
  · refine le_antisymm ?_ worthy
    exact le_of_add_le_add_right (below.trans (add_le_add_right cheap _))
  · refine le_antisymm ?_ cheap
    exact le_of_add_le_add_left (below.trans (add_le_add_left worthy _))

end Penalty

end AfroPay.SharedPenalty
