import AfroPay.FeePrimitives

/-! The store of conversion rates over whole runs. A rate is set for a pair of assets and
stored under the first of them. -/
namespace AfroPay.FeePrimitives
open Panics KeyedStore Runs

/-- The rate that is read for a pair is this one, and a conversion of the pair by it goes ahead. -/
def Usable (w : World) (assetA assetB : String) (rate : Int) : Prop :=
  ∃ record, getConversionRate w assetA = .ok record ∧ record.rate = rate ∧
    ∀ amount, convertCurrency amount assetA assetB record = applyConversion amount record

theorem convertCurrency_eq_iff {record : ConversionRate} {assetA assetB : String} :
    (∀ amount, convertCurrency amount assetA assetB record = applyConversion amount record) ↔
      record.assetA = assetA ∧ record.assetB = assetB := by
  constructor
  · intro same
    by_contra mismatch
    have refused : convertCurrency 0 assetA assetB record = .error "Asset mismatch in conversion rate" := by
      rw [convertCurrency, panicIf, if_pos (not_and_or.mp mismatch)]
      rfl
    -- Nothing converts to nothing, or a negative rate is refused.
    have other : applyConversion 0 record = .ok 0 ∨
        applyConversion 0 record = .error "conversion rate must be non-negative" := by
      by_cases rate_nonneg : 0 ≤ record.rate
      · refine .inl (applyConversion_ok.mpr ⟨le_rfl, rate_nonneg, by simp [i128Max], by simp [floorShare]⟩)
      · refine .inr ?_
        rw [applyConversion, panicIf, panicIf, if_neg (by decide), if_pos (not_le.mp rate_nonneg)]
        rfl
    rw [← same 0, refused] at other
    simp at other
  · rintro ⟨rfl, rfl⟩ amount
    rw [convertCurrency, panicIf, if_neg (by simp)]
    rfl

/-- Only setting a rate for the asset changes what is stored under it. -/
theorem lookup_step {w : World} {event : Event} {assetA : String}
    (elsewhere : ∀ assetB rate, event ≠ .setConversionRate assetA assetB rate) :
    (step w event).rates.lookup assetA = w.rates.lookup assetA := by
  cases event with
  | advance seconds => rfl
  | setConversionRate source target rate =>
    have other : assetA ≠ source := by
      rintro rfl
      exact elsewhere target rate rfl
    exact AList.lookup_insert_ne other

theorem lookup_run {w : World} {events : List Event} {assetA : String}
    (elsewhere : ∀ assetB rate, .setConversionRate assetA assetB rate ∉ events) :
    (run step w events).rates.lookup assetA = w.rates.lookup assetA := by
  induction events generalizing w with
  | nil => rfl
  | cons event rest ih =>
    rw [run_cons, ih fun assetB rate member => elsewhere assetB rate (List.mem_cons_of_mem _ member)]
    exact lookup_step fun assetB rate same => elsewhere assetB rate (same ▸ List.mem_cons_self)

/-- What is stored under an asset is the last rate set for it. -/
theorem lookup_last {w : World} {before after : List Event} {assetA assetB : String} {rate : Int}
    (last : ∀ other newer, .setConversionRate assetA other newer ∉ after) :
    (run step w (before ++ .setConversionRate assetA assetB rate :: after)).rates.lookup assetA =
      some ⟨assetA, assetB, rate, (run step w before).timestamp⟩ := by
  rw [run_append, run_cons, lookup_run last]
  exact AList.lookup_insert _

/-- The last event of a kind in a list. -/
theorem exists_last_set {events : List Event} {assetA : String}
    (some_set : ∃ assetB rate, .setConversionRate assetA assetB rate ∈ events) :
    ∃ before assetB rate after, events = before ++ .setConversionRate assetA assetB rate :: after ∧
      ∀ other newer, .setConversionRate assetA other newer ∉ after := by
  induction events with
  | nil => simp at some_set
  | cons event rest ih =>
    by_cases later : ∃ assetB rate, .setConversionRate assetA assetB rate ∈ rest
    · obtain ⟨before, assetB, rate, after, rfl, last⟩ := ih later
      exact ⟨event :: before, assetB, rate, after, rfl, last⟩
    · push Not at later
      obtain ⟨assetB, rate, member⟩ := some_set
      rcases List.mem_cons.mp member with rfl | member
      · exact ⟨[], assetB, rate, rest, rfl, later⟩
      · exact absurd member (later assetB rate)

/-- The rate last set for a pair can be read and used as long as none is set for the same
source asset and another target, whatever is set for other source assets. -/
theorem rate_usable_iff (timestamp : Nat) (before after : List Event) (assetA assetB : String) (rate : Int)
    (latest : ∀ newer, .setConversionRate assetA assetB newer ∉ after) :
    Usable (run step (World.deployed timestamp) (before ++ .setConversionRate assetA assetB rate :: after))
        assetA assetB rate ↔
      ∀ other newer, other ≠ assetB → .setConversionRate assetA other newer ∉ after := by
  unfold Usable getConversionRate
  simp only [expect_ok, convertCurrency_eq_iff]
  constructor
  · rintro ⟨record, found, -, -, target⟩ other newer different member
    obtain ⟨middle, assetB', rate', rest, rfl, last⟩ := exists_last_set ⟨other, newer, member⟩
    have split : before ++ .setConversionRate assetA assetB rate ::
        (middle ++ .setConversionRate assetA assetB' rate' :: rest) =
        (before ++ .setConversionRate assetA assetB rate :: middle) ++ .setConversionRate assetA assetB' rate' :: rest := by
      simp
    rw [split, lookup_last last] at found
    cases found
    have same : assetB' = assetB := target
    exact latest rate' (List.mem_append_right _ (same ▸ List.mem_cons_self))
  · intro untouched
    have last : ∀ other newer, .setConversionRate assetA other newer ∉ after := by
      intro other newer
      by_cases same : other = assetB
      · rw [same]
        exact latest newer
      · exact untouched other newer same
    exact ⟨_, lookup_last last, rfl, rfl, rfl⟩

theorem rate_usable_iff_dollars :
    Usable (run step (World.deployed 5) ([] ++ .setConversionRate "USD" "EUR" 8500 ::
        [.setConversionRate "EUR" "NGN" 17000000])) "USD" "EUR" 8500 ↔
      ∀ other newer, other ≠ "EUR" → .setConversionRate "USD" other newer ∉ [Event.setConversionRate "EUR" "NGN" 17000000] :=
  rate_usable_iff 5 [] [.setConversionRate "EUR" "NGN" 17000000] "USD" "EUR" 8500 (by simp)

/-- Setting a rate for another target takes the first one away. -/
theorem other_target_overwrites :
    ¬ Usable (run step (World.deployed 5) [.setConversionRate "USD" "EUR" 8500, .setConversionRate "USD" "NGN" 16000000])
      "USD" "EUR" 8500 := by
  rintro ⟨record, found, rate, -⟩
  have stored : getConversionRate (run step (World.deployed 5)
      [.setConversionRate "USD" "EUR" 8500, .setConversionRate "USD" "NGN" 16000000]) "USD" =
      .ok ⟨"USD", "NGN", 16000000, 5⟩ := by decide +kernel
  rw [stored] at found
  cases found
  exact absurd rate (by decide)

end AfroPay.FeePrimitives
