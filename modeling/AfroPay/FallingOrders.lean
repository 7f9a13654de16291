import Mathlib.Data.List.Sort
import Mathlib.Order.Basic
import Mathlib.Tactic.Common

/-! Orders of a set of rows by a key, greatest first, where rows with one key stand in any
order. The keys stand in the same place in every order; a row stands in the same place in
every order if no other row has its key. -/
namespace AfroPay.FallingOrders
variable {α K : Type*} [LinearOrder K] {key : α → K} {rows ordered other : List α}

/-- The rows, none before one with a greater key. -/
structure Orders (key : α → K) (rows ordered : List α) : Prop where
  perm : ordered.Perm rows
  falling : ordered.Pairwise fun a b => key b ≤ key a

/-- The keys of the rows, greatest first. -/
def keys (key : α → K) (rows : List α) : List K := (rows.map key).insertionSort (· ≥ ·)

theorem keys_falling (key : α → K) (rows : List α) : (keys key rows).Pairwise (· ≥ ·) := List.pairwise_insertionSort _ _

theorem Orders.length_eq (orders : Orders key rows ordered) : ordered.length = rows.length := orders.perm.length_eq

theorem Orders.map_eq (orders : Orders key rows ordered) : ordered.map key = keys key rows := by
  refine List.Perm.eq_of_pairwise' (r := (· ≥ ·)) (List.pairwise_map.mpr orders.falling) (keys_falling key rows) ?_
  exact (orders.perm.map key).trans (List.perm_insertionSort _ _).symm

/-- Some order there is. -/
theorem exists_orders (key : α → K) (rows : List α) : ∃ ordered, Orders key rows ordered := by
  let before := fun a b : α => key b ≤ key a
  have total : Std.Total before := ⟨fun a b => le_total (key b) (key a)⟩
  have transitive : IsTrans α before := ⟨fun a b c first second => le_trans second first⟩
  exact ⟨rows.insertionSort before, List.perm_insertionSort _ _, List.pairwise_insertionSort before rows⟩

/-- Neighbours with one key may change places. -/
theorem Orders.swap {before after : List α} {a b : α} (orders : Orders key rows (before ++ a :: b :: after))
    (same : key a = key b) : Orders key rows (before ++ b :: a :: after) := by
  refine ⟨(List.Perm.append_left before (List.Perm.swap a b after)).trans orders.perm, ?_⟩
  have falling := orders.falling
  simp only [List.pairwise_append, List.pairwise_cons, List.forall_mem_cons] at falling ⊢
  obtain ⟨front, ⟨⟨-, aAfter⟩, bAfter, back⟩, cross⟩ := falling
  refine ⟨front, ⟨⟨same.le, bAfter⟩, aAfter, back⟩, ?_⟩
  intro row member
  exact ⟨(cross row member).2.1, (cross row member).1, (cross row member).2.2⟩

section Alone
variable {before after : List α} {row : α}

/-- The rows before one whose key no other has are those with a greater key. -/
theorem Orders.before_eq (orders : Orders key rows (before ++ row :: after))
    (alone : (keys key rows).count (key row) = 1) :
    before = (before ++ row :: after).filter (fun a => key row < key a) ∧
      after = (before ++ row :: after).filter (fun a => key a < key row) := by
  rw [← orders.map_eq] at alone
  simp only [List.map_append, List.map_cons, List.count_append, List.count_cons_self] at alone
  have fresh : key row ∉ before.map key := List.count_eq_zero.mp (by omega)
  have fresh' : key row ∉ after.map key := List.count_eq_zero.mp (by omega)
  obtain ⟨-, ⟨below, -⟩, above⟩ :=
    (List.pairwise_append.trans (and_congr_right fun _ => and_congr_left fun _ => List.pairwise_cons)).mp orders.falling
  have greater (a : α) (member : a ∈ before) : key row < key a := by
    refine lt_of_le_of_ne (above a member row List.mem_cons_self) fun same => fresh ?_
    rw [same]
    exact List.mem_map_of_mem member
  have less (a : α) (member : a ∈ after) : key a < key row := by
    refine lt_of_le_of_ne (below a member) fun same => fresh' ?_
    rw [← same]
    exact List.mem_map_of_mem member
  constructor
  · rw [List.filter_append, List.filter_cons_of_neg (by simp), List.filter_eq_self.mpr (by simpa using greater),
      List.filter_eq_nil_iff.mpr (by simpa using fun a member => (less a member).le), List.append_nil]
  · rw [List.filter_append, List.filter_cons_of_neg (by simp),
      List.filter_eq_nil_iff.mpr (by simpa using fun a member => (greater a member).le),
      List.filter_eq_self.mpr (by simpa using less), List.nil_append]

/-- In another order the same rows stand before it, and the same after it. -/
theorem Orders.same_place (orders : Orders key rows (before ++ row :: after)) (others : Orders key rows other)
    (alone : (keys key rows).count (key row) = 1) :
    ∃ before' after', other = before' ++ row :: after' ∧ before'.Perm before ∧ after'.Perm after := by
  have member : row ∈ other := (others.perm.trans orders.perm.symm).mem_iff.mpr (by simp)
  obtain ⟨before', after', rfl⟩ := List.append_of_mem member
  have first := orders.before_eq alone
  have second := others.before_eq alone
  have same := others.perm.trans orders.perm.symm
  refine ⟨before', after', rfl, ?_, ?_⟩
  · rw [first.1, second.1]
    exact same.filter _
  · rw [first.2, second.2]
    exact same.filter _

/-- Where a row is not alone with its key, a neighbour has the same key. -/
theorem Orders.neighbour (orders : Orders key rows (before ++ row :: after))
    (tied : (keys key rows).count (key row) ≠ 1) :
    (∃ front next, before = front ++ [next] ∧ key next = key row) ∨
      ∃ next rest, after = next :: rest ∧ key next = key row := by
  rw [← orders.map_eq] at tied
  simp only [List.map_append, List.map_cons, List.count_append, List.count_cons_self] at tied
  obtain ⟨frontFalling, ⟨below, restFalling⟩, above⟩ :=
    (List.pairwise_append.trans (and_congr_right fun _ => and_congr_left fun _ => List.pairwise_cons)).mp orders.falling
  by_cases early : key row ∈ before.map key
  · left
    obtain ⟨twin, member, same⟩ := List.mem_map.mp early
    obtain ⟨front, next, rfl⟩ := (List.eq_nil_or_concat' before).resolve_left (List.ne_nil_of_mem member)
    refine ⟨front, next, rfl, le_antisymm ?_ (above next (by simp) row List.mem_cons_self)⟩
    rcases List.mem_append.mp member with inside | last
    · rw [← same]
      exact (List.pairwise_append.mp frontFalling).2.2 twin inside next (by simp)
    · rw [← same, List.mem_singleton.mp last]
  · right
    have late : key row ∈ after.map key := by
      by_contra missing
      rw [List.count_eq_zero.mpr early, List.count_eq_zero.mpr missing] at tied
      omega
    obtain ⟨twin, member, same⟩ := List.mem_map.mp late
    obtain ⟨next, rest, rfl⟩ := List.exists_cons_of_ne_nil (List.ne_nil_of_mem member)
    refine ⟨next, rest, rfl, le_antisymm (below next List.mem_cons_self) ?_⟩
    rcases List.mem_cons.mp member with rfl | inside
    · exact same.ge
    · rw [← same]
      exact (List.pairwise_cons.mp restFalling).1 twin inside

end Alone

end AfroPay.FallingOrders
