import Mathlib.Data.List.AList
import Mathlib.Algebra.Order.BigOperators.Group.List
import Mathlib.Algebra.BigOperators.Ring.List
import Mathlib.Algebra.Order.Group.Defs
import Mathlib.Algebra.Order.Sub.Basic

/-! A keyed store with totals over its entries. Keys are unique by
construction, so replacing one entry changes a total by exactly the difference
of that entry's contributions. -/
namespace AfroPay.KeyedStore

variable {K V M : Type}

/-- Values of one kind stored under unique keys. -/
abbrev Store (K V : Type) := AList (fun _ : K => V)

/-- The sum of one quantity over all stored entries. -/
def total [AddCommGroup M] (store : Store K V) (amount : K → V → M) : M :=
  (store.entries.map fun entry => amount entry.1 entry.2).sum

@[simp] theorem total_empty [AddCommGroup M] (amount : K → V → M) :
    total (∅ : Store K V) amount = 0 := rfl

theorem total_add [AddCommGroup M] (store : Store K V) (amount other : K → V → M) :
    total store (fun key value => amount key value + other key value) =
      total store amount + total store other := by
  simp [total, List.sum_map_add]

theorem total_mul_right [Ring M] (store : Store K V) (amount : K → V → M) (factor : M) :
    total store (fun key value => amount key value * factor) = total store amount * factor := by
  simp [total, List.sum_map_mul_right]

/-- The sum over the entries that are kept is a total with the others at zero. -/
theorem sum_filter [AddCommGroup M] (store : Store K V) (keep : K → V → Bool) (amount : K → V → M) :
    ((store.entries.filter fun entry => keep entry.1 entry.2).map fun entry => amount entry.1 entry.2).sum =
      total store fun key value => if keep key value then amount key value else 0 := by
  unfold total
  induction store.entries with
  | nil => rfl
  | cons entry rest ih =>
    rw [List.map_cons, List.sum_cons, ← ih, List.filter_cons]
    split <;> simp_all

variable [DecidableEq K] [AddCommGroup M]
variable {store : Store K V} {amount other : K → V → M} {key : K} {value : V}

/-- What one key contributes to a total: nothing when it is absent. -/
def contribution (store : Store K V) (amount : K → V → M) (key : K) : M :=
  (store.lookup key).elim 0 (amount key)

theorem contribution_none (absent : store.lookup key = none) : contribution store amount key = 0 := by
  simp [contribution, absent]

theorem contribution_some (found : store.lookup key = some value) :
    contribution store amount key = amount key value := by
  simp [contribution, found]

private theorem sum_kerase (entries : List (Sigma fun _ : K => V)) (amount : K → V → M) (key : K) :
    ((entries.kerase key).map fun entry => amount entry.1 entry.2).sum +
        (entries.dlookup key).elim 0 (amount key) =
      (entries.map fun entry => amount entry.1 entry.2).sum := by
  induction entries with
  | nil => simp
  | cons entry rest ih =>
    obtain ⟨stored, value⟩ := entry
    by_cases same : key = stored
    · subst same
      simp [add_comm]
    · rw [List.kerase_cons_ne same, List.dlookup_cons_ne rest ⟨stored, value⟩ same]
      simp only [List.map_cons, List.sum_cons]
      rw [add_assoc, ih]

/-- Removing a key removes exactly its contribution. -/
theorem total_erase (store : Store K V) (amount : K → V → M) (key : K) :
    total (store.erase key) amount = total store amount - contribution store amount key :=
  eq_sub_of_add_eq (sum_kerase store.entries amount key)

/-- Storing a value replaces the key's contribution. -/
theorem total_insert (store : Store K V) (amount : K → V → M) (key : K) (value : V) :
    total (store.insert key value) amount =
      total store amount - contribution store amount key + amount key value := by
  have erased : (store.erase key).entries = store.entries.kerase key := rfl
  rw [← total_erase]
  simp only [total, AList.entries_insert, erased, List.map_cons, List.sum_cons]
  exact add_comm _ _

theorem total_congr (same : ∀ key value, store.lookup key = some value → amount key value = other key value) :
    total store amount = total store other := by
  unfold total
  congr 1
  apply List.map_congr_left
  rintro ⟨key, value⟩ member
  exact same key value (AList.mem_lookup_iff.mpr member)

/-- A total in which one key counts. -/
theorem total_single (store : Store K V) (key : K) (amount : M) :
    total store (fun stored _ => if stored = key then amount else 0) =
      if (store.lookup key).isSome then amount else 0 := by
  have rest : total (store.erase key) (fun stored _ => if stored = key then amount else 0) =
      total (store.erase key) fun _ _ => 0 := by
    apply total_congr
    intro stored value found
    have other : stored ≠ key := by
      rintro rfl
      rw [AList.lookup_erase] at found
      cases found
    exact if_neg other
  rw [total_erase, show total (store.erase key) (fun _ _ => (0 : M)) = 0 by simp [total]] at rest
  rw [sub_eq_zero.mp rest, contribution]
  cases store.lookup key <;> simp

omit [DecidableEq K] in
/-- Counting entries is a total of ones. -/
theorem countP_cast (store : Store K V) (counts : (Sigma fun _ : K => V) → Bool) :
    (store.entries.countP counts : Int) = total store fun key value => if counts ⟨key, value⟩ then 1 else 0 := by
  unfold total
  induction store.entries with
  | nil => rfl
  | cons entry rest ih =>
    rw [List.countP_cons, List.map_cons, List.sum_cons, ← ih]
    split <;> simp_all [add_comm]

theorem countP_insert (store : Store K V) (counts : (Sigma fun _ : K => V) → Bool) (key : K) (value : V) :
    ((store.insert key value).entries.countP counts : Int) = store.entries.countP counts -
        (store.lookup key).elim 0 (fun held => if counts ⟨key, held⟩ then 1 else 0) +
      if counts ⟨key, value⟩ then 1 else 0 := by
  rw [countP_cast, countP_cast, total_insert]
  rfl

/-- What is counted of a store is the key's own share and what is counted without the key. -/
theorem countP_erase (store : Store K V) (counts : (Sigma fun _ : K => V) → Bool) (key : K) :
    ((store.erase key).entries.countP counts : Int) = store.entries.countP counts -
      (store.lookup key).elim 0 (fun held => if counts ⟨key, held⟩ then 1 else 0) := by
  rw [countP_cast, countP_cast, total_erase]
  rfl

/-- An entry of a store after storing a value is that value or an older entry. -/
theorem lookup_insert_some {other : K} {held : V} :
    (store.insert key value).lookup other = some held ↔
      other = key ∧ value = held ∨ other ≠ key ∧ store.lookup other = some held := by
  by_cases same : other = key
  · subst same
    simp
  · simp [AList.lookup_insert_ne same, same]

/-- An insertion takes no key away. -/
theorem isSome_lookup_insert {other : K} (present : (store.lookup other).isSome) :
    ((store.insert key value).lookup other).isSome := by
  by_cases same : other = key
  · subst same
    rw [AList.lookup_insert]
    rfl
  · rwa [AList.lookup_insert_ne same]

theorem lookup_erase_some {other : K} {held : V} (found : (store.erase key).lookup other = some held) :
    store.lookup other = some held := by
  by_cases same : other = key
  · subst same
    rw [AList.lookup_erase] at found
    cases found
  · rwa [AList.lookup_erase_ne same] at found

/-- Every value is replaced by what `change` makes of it. -/
def mapValues (store : Store K V) (change : V → V) : Store K V where
  entries := store.entries.map fun entry => ⟨entry.1, change entry.2⟩
  nodupKeys := by
    have same : (store.entries.map fun entry => (⟨entry.1, change entry.2⟩ : Sigma fun _ : K => V)).keys =
        store.entries.keys := by simp [List.keys, Function.comp_def]
    rw [List.NodupKeys, same]
    exact store.nodupKeys

theorem lookup_mapValues (store : Store K V) (change : V → V) (key : K) :
    (mapValues store change).lookup key = (store.lookup key).map change := by
  change (store.entries.map fun entry => (⟨entry.1, change entry.2⟩ : Sigma fun _ : K => V)).dlookup key =
    (store.entries.dlookup key).map change
  induction store.entries with
  | nil => rfl
  | cons entry rest ih =>
    obtain ⟨stored, value⟩ := entry
    by_cases same : key = stored
    · subst same
      simp
    · rw [List.map_cons, List.dlookup_cons_ne _ _ same, List.dlookup_cons_ne _ _ same]
      exact ih

omit [DecidableEq K] in
theorem countP_mapValues (store : Store K V) (change : V → V) (counts : (Sigma fun _ : K => V) → Bool) :
    (mapValues store change).entries.countP counts =
      store.entries.countP fun entry => counts ⟨entry.1, change entry.2⟩ :=
  List.countP_map

/-- The entries that are kept. -/
def filterValues (store : Store K V) (keeps : K → V → Bool) : Store K V where
  entries := store.entries.filter fun entry => keeps entry.1 entry.2
  nodupKeys := store.nodupKeys.sublist List.filter_sublist

theorem lookup_filterValues (store : Store K V) (keeps : K → V → Bool) (key : K) :
    (filterValues store keeps).lookup key = (store.lookup key).filter (keeps key) := by
  ext value
  rw [Option.filter_eq_some_iff, ← Option.mem_def, ← Option.mem_def, AList.mem_lookup_iff, AList.mem_lookup_iff]
  exact List.mem_filter

/-- At most one entry is counted when all that are counted have the same key. -/
theorem countP_le_one {counts : (Sigma fun _ : K => V) → Bool}
    (unique : ∀ first second, store.lookup first.1 = some first.2 → store.lookup second.1 = some second.2 →
      counts first → counts second → first.1 = second.1) : store.entries.countP counts ≤ 1 := by
  have distinct : ((store.entries.filter counts).map Sigma.fst).Nodup :=
    store.nodupKeys.sublist List.filter_sublist
  have same : ∀ first ∈ store.entries.filter counts, ∀ second ∈ store.entries.filter counts,
      first.1 = second.1 := by
    intro first one second two
    obtain ⟨member, counted⟩ := List.mem_filter.mp one
    obtain ⟨member', counted'⟩ := List.mem_filter.mp two
    exact unique first second (AList.mem_lookup_iff.mpr member) (AList.mem_lookup_iff.mpr member') counted counted'
  rw [List.countP_eq_length_filter]
  generalize store.entries.filter counts = counted at distinct same
  match counted with
  | [] => exact Nat.zero_le 1
  | [_] => exact le_rfl
  | first :: second :: rest =>
    have equal := same first (by simp) second (by simp)
    simp [equal] at distinct

/-- `after` is `before` with one key holding `entry`, or nothing. -/
structure Replaces (before after : Store K V) (key : K) (entry : Option V) : Prop where
  here : after.lookup key = entry
  elsewhere : ∀ other, other ≠ key → after.lookup other = before.lookup other
  totals : ∀ {M : Type} [AddCommGroup M] (amount : K → V → M), total after amount =
    total before amount - contribution before amount key + entry.elim 0 (amount key)

theorem replaces_insert (store : Store K V) (key : K) (value : V) :
    Replaces store (store.insert key value) key (some value) where
  here := AList.lookup_insert store
  elsewhere _ distinct := AList.lookup_insert_ne distinct
  totals amount := total_insert store amount key value

theorem replaces_erase (store : Store K V) (key : K) :
    Replaces store (store.erase key) key none where
  here := AList.lookup_erase key store
  elsewhere _ distinct := AList.lookup_erase_ne distinct
  totals amount := by simp [total_erase]

theorem replaces_self (store : Store K V) (key : K) :
    Replaces store store key (store.lookup key) where
  here := rfl
  elsewhere _ _ := rfl
  totals amount := by simp [contribution]

section Ordered
variable [PartialOrder M] [IsOrderedAddMonoid M]

theorem total_mono (le : ∀ key value, store.lookup key = some value → amount key value ≤ other key value) :
    total store amount ≤ total store other := by
  unfold total
  apply List.sum_le_sum
  rintro ⟨key, value⟩ member
  exact le key value (AList.mem_lookup_iff.mpr member)

theorem total_nonneg (nonneg : ∀ key value, store.lookup key = some value → 0 ≤ amount key value) :
    0 ≤ total store amount := by
  have le : total store (fun _ _ => 0) ≤ total store amount := total_mono nonneg
  simpa [total] using le

/-- A total of non-negative amounts covers each entry. -/
theorem le_total (amount : K → V → M) (found : store.lookup key = some value)
    (nonneg : ∀ key value, store.lookup key = some value → 0 ≤ amount key value) :
    amount key value ≤ total store amount := by
  have rest : 0 ≤ total (store.erase key) amount := by
    apply total_nonneg
    intro stored held lookup
    exact nonneg stored held (lookup_erase_some lookup)
  rw [total_erase, contribution_some found] at rest
  exact sub_nonneg.mp rest

/-- A total of non-negative amounts covers any set of distinct keys. -/
theorem sum_contribution_le (keys : List K) (distinct : keys.Nodup)
    (nonneg : ∀ key value, store.lookup key = some value → 0 ≤ amount key value) :
    (keys.map (contribution store amount)).sum ≤ total store amount := by
  induction keys generalizing store with
  | nil => simpa using total_nonneg nonneg
  | cons key rest ih =>
    obtain ⟨fresh, distinct⟩ := List.nodup_cons.mp distinct
    have below : (rest.map (contribution (store.erase key) amount)).sum ≤ total (store.erase key) amount :=
      ih distinct fun stored value found => nonneg stored value (lookup_erase_some found)
    have same : rest.map (contribution (store.erase key) amount) = rest.map (contribution store amount) := by
      apply List.map_congr_left
      intro other member
      have different : other ≠ key := fun equal => fresh (equal ▸ member)
      simp [contribution, AList.lookup_erase_ne different]
    rw [same, total_erase] at below
    rw [List.map_cons, List.sum_cons, add_comm]
    exact le_sub_iff_add_le.mp below

end Ordered

end AfroPay.KeyedStore
