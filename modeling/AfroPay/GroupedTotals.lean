import AfroPay.KeyedStore
import Mathlib.Algebra.BigOperators.Group.Finset.Piecewise
import Mathlib.Data.List.Dedup

/-! Totals by key: a table with the sum of the amounts of all items of a key. What the table
holds depends on the items of each key alone, and its sum is that of all items. -/
namespace AfroPay.GroupedTotals
open KeyedStore

variable {Item K J M : Type} [DecidableEq K] [DecidableEq J] [AddCommMonoid M]

/-- Each item is added to the entry of its key. -/
def addItem (key : Item → K) (amount : Item → M) (sums : Store K M) (item : Item) : Store K M :=
  sums.insert (key item) ((sums.lookup (key item)).getD 0 + amount item)

def totals (key : Item → K) (amount : Item → M) (items : List Item) : Store K M :=
  items.foldl (addItem key amount) ∅

/-- The amounts of the items of one key. -/
def fiberSum (key : Item → K) (amount : Item → M) (items : List Item) (k : K) : M :=
  ((items.filter fun item => key item = k).map amount).sum

variable {key : Item → K} {other : Item → J} {amount : Item → M} {items : List Item}

theorem fiberSum_absent {k : K} (absent : k ∉ items.map key) : fiberSum key amount items k = 0 := by
  have none_kept : (items.filter fun item => key item = k) = [] := by
    rw [List.filter_eq_nil_iff]
    intro item listed same
    exact absent (List.mem_map.mpr ⟨item, listed, of_decide_eq_true same⟩)
  rw [fiberSum, none_kept, List.map_nil, List.sum_nil]

theorem fiberSum_cons (item : Item) (items : List Item) (k : K) : fiberSum key amount (item :: items) k =
    (if key item = k then amount item else 0) + fiberSum key amount items k := by
  unfold fiberSum
  by_cases same : key item = k <;> simp [same]

theorem fiberSum_concat (items : List Item) (item : Item) (k : K) : fiberSum key amount (items ++ [item]) k =
    fiberSum key amount items k + if key item = k then amount item else 0 := by
  unfold fiberSum
  by_cases same : key item = k <;> simp [same]

theorem fiberSum_congr {amount' : Item → M} {k : K} (same : ∀ item ∈ items, amount item = amount' item) :
    fiberSum key amount items k = fiberSum key amount' items k := by
  unfold fiberSum
  rw [List.map_congr_left fun item kept => same item (List.mem_of_mem_filter kept)]

theorem map_fiberSum {N : Type} [AddCommMonoid N] (f : M →+ N) (k : K) :
    f (fiberSum key amount items k) = fiberSum key (fun item => f (amount item)) items k := by
  rw [fiberSum, map_list_sum, List.map_map]
  rfl

/-- The table holds the sum of every key that some item has. -/
theorem lookup_totals (k : K) : (totals key amount items).lookup k =
    if k ∈ items.map key then some (fiberSum key amount items k) else none := by
  induction items using List.reverseRecOn with
  | nil => rfl
  | append_singleton items item ih =>
    rw [totals, List.foldl_concat, ← totals, addItem]
    by_cases same : key item = k
    · subst same
      have now_met : key item ∈ (items ++ [item]).map key := List.mem_map_of_mem (List.mem_append_right _ (.head _))
      rw [AList.lookup_insert, ih, if_pos now_met, fiberSum_concat, if_pos rfl]
      by_cases met : key item ∈ items.map key
      · rw [if_pos met, Option.getD_some]
      · rw [if_neg met, Option.getD_none, fiberSum_absent met]
    · have kept : k ∈ (items ++ [item]).map key ↔ k ∈ items.map key := by simp [Ne.symm same]
      rw [AList.lookup_insert_ne (Ne.symm same), ih, fiberSum_concat, if_neg same, add_zero]
      simp only [kept]

theorem keys_perm : (totals key amount items).keys.Perm (items.map key).dedup := by
  refine (List.perm_ext_iff_of_nodup (totals key amount items).keys_nodup (List.nodup_dedup _)).mpr fun k => ?_
  rw [List.mem_dedup, ← AList.mem_keys, ← AList.lookup_isSome, lookup_totals]
  split <;> simp [*]

/-- The values of the table are the sums of the keys. -/
theorem values_perm : ((totals key amount items).entries.map fun entry => entry.2).Perm
    ((items.map key).dedup.map (fiberSum key amount items)) := by
  have sums : ((totals key amount items).entries.map fun entry => entry.2) =
      (totals key amount items).keys.map (fiberSum key amount items) := by
    rw [AList.keys, List.keys, List.map_map]
    refine List.map_congr_left fun entry listed => ?_
    have found := AList.mem_lookup_iff.mpr listed
    rw [lookup_totals] at found
    split at found
    · exact (Option.some.inj found).symm
    · cases found
  rw [sums]
  exact keys_perm.map _

/-- Nothing is counted twice or left out. -/
theorem sum_fiberSums : ((items.map key).dedup.map (fiberSum key amount items)).sum = (items.map amount).sum := by
  have within_keys (keys : Finset K) (items : List Item) (inside : ∀ item ∈ items, key item ∈ keys) :
      ∑ k ∈ keys, fiberSum key amount items k = (items.map amount).sum := by
    induction items with
    | nil => exact Finset.sum_eq_zero fun _ _ => rfl
    | cons item items ih =>
      simp only [fiberSum_cons]
      rw [Finset.sum_add_distrib, ih fun item listed => inside item (List.mem_cons_of_mem _ listed),
        Finset.sum_ite_eq keys (key item) fun _ => amount item, if_pos (inside item List.mem_cons_self), List.map_cons,
        List.sum_cons]
  rw [← within_keys (items.map key).toFinset items fun item listed => List.mem_toFinset.mpr (List.mem_map_of_mem listed),
    ← List.sum_toFinset _ (List.nodup_dedup _)]
  exact Finset.sum_congr (Finset.ext fun k => by simp) fun _ _ => rfl

/-- Keys that tell the same items apart have the same sums. -/
theorem same_sums (alike : ∀ a ∈ items, ∀ b ∈ items, key a = key b ↔ other a = other b) :
    (items.map key).dedup.map (fiberSum key amount items) = (items.map other).dedup.map (fiberSum other amount items) := by
  have representatives (part : List Item) (within : ∀ item ∈ part, item ∈ items) :
      ∃ chosen : List Item, (∀ item ∈ chosen, item ∈ items) ∧ (part.map key).dedup = chosen.map key ∧
        (part.map other).dedup = chosen.map other := by
    induction part with
    | nil => exact ⟨[], by simp, rfl, rfl⟩
    | cons item part ih =>
      obtain ⟨chosen, listed, keys, others⟩ := ih fun item member => within item (List.mem_cons_of_mem _ member)
      have here := within item List.mem_cons_self
      have met : key item ∈ part.map key ↔ other item ∈ part.map other := by
        simp only [List.mem_map]
        constructor <;> rintro ⟨earlier, member, same⟩
        · exact ⟨earlier, member, (alike earlier (within earlier (List.mem_cons_of_mem _ member)) item here).mp same⟩
        · exact ⟨earlier, member, (alike earlier (within earlier (List.mem_cons_of_mem _ member)) item here).mpr same⟩
      by_cases again : key item ∈ part.map key
      · refine ⟨chosen, listed, ?_, ?_⟩
        · rw [List.map_cons, List.dedup_cons_of_mem again, keys]
        · rw [List.map_cons, List.dedup_cons_of_mem (met.mp again), others]
      · refine ⟨item :: chosen, List.forall_mem_cons.mpr ⟨here, listed⟩, ?_, ?_⟩
        · rw [List.map_cons, List.dedup_cons_of_notMem again, keys, List.map_cons]
        · rw [List.map_cons, List.dedup_cons_of_notMem (mt met.mpr again), others, List.map_cons]
  obtain ⟨chosen, listed, keys, others⟩ := representatives items fun _ member => member
  rw [keys, others, List.map_map, List.map_map]
  refine List.map_congr_left fun item member => ?_
  have fibers : (items.filter fun a => key a = key item) = items.filter fun a => other a = other item :=
    List.filter_congr fun a inside => by simp only [alike a inside item (listed item member)]
  simp only [Function.comp_apply, fiberSum, fibers]

end AfroPay.GroupedTotals
