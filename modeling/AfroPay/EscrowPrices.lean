import AfroPay.EscrowProgress
import Mathlib.Algebra.BigOperators.Group.List.Basic

/-! The average of the price feed over whole runs, in terms of the prices it accepted. The
feed opens with its first price and then records it, so that price is counted twice. -/
namespace AfroPay.Escrow
open Panics KeyedStore TokenLedger Runs

variable {Address : Type}

/-- The average after the given prices, as the feed stores it. -/
def storedAverage (prices : List Int) : Int := (prices.headD 0 + prices.sum) / prices.length

/-- From the least number of samples on, the last price is off the average by more than the limit. -/
def Deviates (prices : List Int) : Prop :=
  minTwapSamples ≤ prices.length ∧
    maxTwapDeviationBps < |prices.getLastD 0 - storedAverage prices| * 10000 / storedAverage prices

/-- The feed after some prices. A suspension is never lifted. -/
structure Tracks (feed : PriceFeedState) (prices : List Int) : Prop where
  nonempty : prices ≠ []
  positive : ∀ price ∈ prices, 0 < price
  cumulative : feed.cumulativePrice = prices.headD 0 + prices.sum
  samples : feed.sampleCount = prices.length
  average : feed.twap = storedAverage prices
  suspension : feed.isSuspended ↔ ∃ earlier, earlier <+: prices ∧ Deviates earlier

def Recorded (w : World Address) (prices : List Int) : Prop :=
  match w.priceFeed with
  | none => prices = []
  | some feed => Tracks feed prices

/-- The price that an event gets accepted. -/
def acceptedPrice [DecidableEq Address] (w : World Address) : Event Address → Option Int
  | .call _ (.updatePrice spotPrice) =>
    match updatePrice w spotPrice with
    | .ok _ => some spotPrice
    | .error _ => none
  | _ => none

theorem deviationBps_ok {lastPrice twap deviation : Int} (positive : 0 ≤ twap)
    (ok : deviationBps lastPrice twap = .ok deviation) :
    0 < twap ∧ deviation = |lastPrice - twap| * 10000 / twap := by
  simp only [deviationBps, bind_ok, fit_ok, panicIf_ok, exists_const] at ok
  obtain ⟨_, ⟨rfl, -⟩, _, ⟨rfl, -⟩, _, ⟨rfl, -⟩, nonzero, rfl, -⟩ := ok
  refine ⟨by omega, Int.tdiv_eq_ediv_of_nonneg (mul_nonneg (abs_nonneg _) (by decide))⟩

theorem exists_prefix_concat {prices : List Int} {price : Int} {holds : List Int → Prop} :
    (∃ earlier, earlier <+: prices ++ [price] ∧ holds earlier) ↔
      holds (prices ++ [price]) ∨ ∃ earlier, earlier <+: prices ∧ holds earlier := by
  simp only [List.prefix_concat_iff, or_and_right, exists_or, exists_eq_left]

theorem storedAverage_nonneg {prices : List Int} (positive : ∀ price ∈ prices, 0 < price) :
    0 ≤ prices.headD 0 + prices.sum ∧ 0 ≤ storedAverage prices := by
  have sum := List.sum_nonneg fun price member => (positive price member).le
  have head : 0 ≤ prices.headD 0 := by
    cases prices with
    | nil => exact le_rfl
    | cons first rest => exact (positive first List.mem_cons_self).le
  exact ⟨add_nonneg head sum, Int.ediv_nonneg (add_nonneg head sum) (Int.natCast_nonneg _)⟩

/-- A feed that has recorded a price tracks it once averaged. -/
theorem Tracks.averaged {feed after : PriceFeedState} {prices : List Int} {price : Int}
    (positive : ∀ p ∈ prices ++ [price], 0 < p)
    (cumulative : feed.cumulativePrice = (prices ++ [price]).headD 0 + (prices ++ [price]).sum)
    (samples : feed.sampleCount = (prices ++ [price]).length) (last : feed.lastPrice = price)
    (suspension : feed.isSuspended ↔ ∃ earlier, earlier <+: prices ∧ Deviates earlier)
    (ok : feed.averaged = .ok after) : Tracks after (prices ++ [price]) := by
  obtain ⟨total_nonneg, average_nonneg⟩ := storedAverage_nonneg positive
  simp only [PriceFeedState.averaged, bind_ok, fit_ok] at ok
  obtain ⟨twap, ⟨average, -⟩, ok⟩ := ok
  rw [cumulative, samples, Int.tdiv_eq_ediv_of_nonneg total_nonneg, ← storedAverage] at average
  subst average last
  have lastD : (prices ++ [feed.lastPrice]).getLastD 0 = feed.lastPrice := List.getLastD_concat
  split at ok
  · rename_i many
    simp only [bind_ok, pure_ok] at ok
    obtain ⟨deviation, computed, rfl⟩ := ok
    obtain ⟨-, deviation_eq⟩ := deviationBps_ok average_nonneg computed
    have deviates : Deviates (prices ++ [feed.lastPrice]) ↔ maxTwapDeviationBps < deviation := by
      rw [Deviates, lastD, ← samples, ← deviation_eq]
      exact and_iff_right many
    refine ⟨by simp, positive, cumulative, samples, rfl, ?_⟩
    rw [exists_prefix_concat, ← suspension, deviates]
    split <;> simp_all
  · rename_i few
    obtain rfl := pure_ok.mp ok
    have steady : ¬ Deviates (prices ++ [feed.lastPrice]) := fun deviates => few (samples ▸ deviates.1)
    refine ⟨by simp, positive, cumulative, samples, rfl, ?_⟩
    rw [exists_prefix_concat, ← suspension]
    simp only [steady, false_or]

/-- An accepted price is positive; it is recorded, and the average with it is returned. -/
theorem updatePrice_tracks {w after : World Address} {prices : List Int} {spotPrice twap : Int}
    (recorded : Recorded w prices) (ok : updatePrice w spotPrice = .ok (after, twap)) :
    ∃ feed, after = { w with priceFeed := some feed } ∧ twap = feed.twap ∧ Tracks feed (prices ++ [spotPrice]) := by
  simp only [updatePrice, bind_ok, panicIf_ok, exists_const, fit_ok, fitU64_ok, pure_ok, Prod.mk.injEq] at ok
  obtain ⟨positive, -, _, ⟨rfl, -⟩, _, ⟨rfl, -⟩, feed, averaged, rfl, rfl⟩ := ok
  refine ⟨_, rfl, rfl, ?_⟩
  have kept : Tracks feed (prices ++ [spotPrice]) := by
    unfold Recorded at recorded
    cases stored : w.priceFeed with
    | none =>
      rw [stored] at averaged recorded
      subst recorded
      refine Tracks.averaged ?_ ?_ rfl rfl ?_ averaged
      · simpa using positive
      · simp [PriceFeedState.opening]
      · simp [PriceFeedState.opening, Deviates, minTwapSamples]
    | some old =>
      rw [stored] at averaged recorded
      refine Tracks.averaged ?_ ?_ ?_ rfl ?_ averaged
      · intro price member
        rcases List.mem_append.mp member with earlier | last
        · exact recorded.positive price earlier
        · rw [List.mem_singleton.mp last]
          exact not_le.mp positive
      · have head : (prices ++ [spotPrice]).headD 0 = prices.headD 0 := by
          cases prices with
          | nil => exact absurd rfl recorded.nonempty
          | cons first rest => rfl
        rw [head, List.sum_append, List.sum_singleton, ← add_assoc, ← recorded.cumulative]
        rfl
      · simpa using recorded.samples
      · exact recorded.suspension
  exact ⟨kept.nonempty, kept.positive, kept.cumulative, kept.samples, kept.average, kept.suspension⟩

theorem recorded_deployed (self : Address) (sequence timestamp : Nat) (balances : Address → Address → Nat) :
    Recorded (World.deployed self sequence timestamp balances) [] := rfl

section Averages

/-- Counting the first price once more shows unless it disappears in the rounding. -/
theorem storedAverage_eq_iff {prices : List Int} (nonempty : prices ≠ []) (positive : ∀ price ∈ prices, 0 < price) :
    storedAverage prices = prices.sum / prices.length ↔ prices.sum % prices.length + prices.headD 0 < prices.length := by
  have length : 0 < (prices.length : Int) := by exact_mod_cast List.length_pos_iff.mpr nonempty
  have head : 0 < prices.headD 0 := by
    cases prices with
    | nil => exact absurd rfl nonempty
    | cons first rest => exact positive first List.mem_cons_self
  have rest_nonneg := Int.emod_nonneg prices.sum length.ne'
  have parts := Int.emod_add_mul_ediv prices.sum prices.length
  have carried : storedAverage prices =
      (prices.sum % prices.length + prices.headD 0) / prices.length + prices.sum / prices.length := by
    rw [storedAverage, ← Int.add_mul_ediv_left _ _ length.ne']
    congr 1
    linarith only [parts]
  rw [carried, add_eq_right]
  constructor
  · intro zero
    have below := (Int.ediv_lt_iff_lt_mul length).mp (zero.trans_lt Int.one_pos)
    rwa [one_mul] at below
  · exact Int.ediv_eq_zero_of_lt (add_nonneg rest_nonneg head.le)

variable {price : Int} {count : Nat}

theorem storedAverage_replicate (some_sample : 0 < count) :
    storedAverage (List.replicate count price) = price + price / count := by
  obtain ⟨earlier, rfl⟩ := Nat.exists_eq_add_one_of_ne_zero some_sample.ne'
  have head : (List.replicate (earlier + 1) price).headD 0 = price := rfl
  rw [storedAverage, head, List.sum_replicate, List.length_replicate, nsmul_eq_mul,
    Int.add_mul_ediv_left _ _ (by omega), add_comm]

theorem deviates_replicate (positive : 0 < price) :
    Deviates (List.replicate count price) ↔
      10 ≤ count ∧ 500 < price / count * 10000 / (price + price / count) := by
  rw [Deviates, List.length_replicate]
  refine and_congr_right fun many => ?_
  have sampled : 0 < count := lt_of_lt_of_le (by decide) many
  have last : (List.replicate count price).getLastD 0 = price := by
    obtain ⟨earlier, rfl⟩ := Nat.exists_eq_add_one_of_ne_zero sampled.ne'
    rw [List.replicate_succ', List.getLastD_concat]
  have above : 0 ≤ price / count := Int.ediv_nonneg positive.le (Int.natCast_nonneg count)
  rw [last, storedAverage_replicate sampled, sub_add_cancel_left, abs_neg, abs_of_nonneg above]
  rfl

/-- A constant price that is below the number of samples: the tenth of them decides. -/
theorem steady_iff (positive : 0 < price) (below : price < count) :
    (∀ earlier ≤ count, ¬ Deviates (List.replicate earlier price)) ↔ price < 10 ∨ price = 19 := by
  simp only [deviates_replicate positive]
  constructor
  · intro steady
    by_contra other
    have tenth := not_lt.mp fun beyond => steady 10 (by omega) ⟨le_rfl, beyond⟩
    push_cast at tenth
    have limit := (Int.ediv_lt_iff_lt_mul (by omega)).mp (Int.lt_add_one_of_le tenth)
    omega
  · rintro small earlier - ⟨many, beyond⟩
    have quotient_nonneg : 0 ≤ price / earlier := Int.ediv_nonneg positive.le (Int.natCast_nonneg earlier)
    have product_le : (earlier : Int) * (price / earlier) ≤ price := Int.mul_ediv_self_le (by omega)
    have tenfold : 10 * (price / earlier) ≤ earlier * (price / earlier) :=
      mul_le_mul_of_nonneg_right (by exact_mod_cast many) quotient_nonneg
    have cases : price / earlier = 0 ∨ price / earlier = 1 ∧ price = 19 := by omega
    rcases cases with none | ⟨one, rfl⟩
    · simp [none] at beyond
    · simp [one] at beyond

end Averages

variable [DecidableEq Address]

/-- No other call touches the feed. -/
theorem exec_priceFeed {w after : World Address} {auths : List Address} {call : Call Address}
    (other : ∀ spotPrice, call ≠ .updatePrice spotPrice) (ok : exec w auths call = .ok after) :
    after.priceFeed = w.priceFeed := by
  cases call with
  | initializeAdmin admin =>
    simp only [exec, initializeAdmin, bind_ok, pure_ok] at ok
    obtain ⟨-, -, -, -, rfl⟩ := ok
    rfl
  | migrate admin =>
    simp only [exec, migrate, bind_ok] at ok
    obtain ⟨-, -, -, -, -, -, -, -, ok⟩ := ok
    split at ok <;> obtain rfl := pure_ok.mp ok <;> rfl
  | updatePrice spotPrice => exact absurd rfl (other spotPrice)
  | deposit sender amount asset recipient releaseTimestamp =>
    simp only [exec, map_fst_ok, deposit, bind_ok, enforceUserBlockDelay_ok, pure_ok, Prod.mk.injEq] at ok
    obtain ⟨_, -, -, -, -, -, -, _, ⟨-, rfl⟩, -, -, _, -, _, -, rfl, -⟩ := ok
    rfl
  | release escrowId =>
    simp only [exec, release, bind_ok, enforceUserBlockDelay_ok, payOut_ok, pure_ok] at ok
    obtain ⟨_, -, -, -, -, -, -, -, _, ⟨-, rfl⟩, -, -, _, ⟨_, -, rfl⟩, rfl⟩ := ok
    rfl
  | refund escrowId =>
    simp only [exec, refund, bind_ok, payOut_ok, pure_ok] at ok
    obtain ⟨_, -, -, -, -, -, -, -, -, -, _, ⟨_, -, rfl⟩, rfl⟩ := ok
    rfl

theorem recorded_step {w : World Address} {prices : List Int} (recorded : Recorded w prices) (event : Event Address) :
    Recorded (step w event) (prices ++ (acceptedPrice w event).toList) := by
  have unpriced : acceptedPrice w event = none → (step w event).priceFeed = w.priceFeed →
      Recorded (step w event) (prices ++ (acceptedPrice w event).toList) := by
    intro none same
    rw [none, Option.toList_none, List.append_nil, Recorded, same]
    exact recorded
  cases event with
  | advance ledgers seconds => exact unpriced rfl rfl
  | token activity => exact unpriced rfl rfl
  | call auths call =>
    by_cases priced : ∃ spotPrice, call = .updatePrice spotPrice
    · obtain ⟨spotPrice, rfl⟩ := priced
      cases quoted : updatePrice w spotPrice with
      | error message => exact unpriced (by simp [acceptedPrice, quoted]) (by simp [step, exec, quoted])
      | ok result =>
        obtain ⟨feed, frame, -, tracks⟩ := updatePrice_tracks recorded quoted
        have after : step w (.call auths (.updatePrice spotPrice)) = { w with priceFeed := some feed } := by
          simp [step, exec, quoted, frame]
        simpa [after, acceptedPrice, quoted, Recorded] using tracks
    · push Not at priced
      have none : acceptedPrice w (.call auths call) = none := by
        cases call <;> first | rfl | exact absurd rfl (priced _)
      cases result : exec w auths call with
      | error message => exact unpriced none (by simp [step, result])
      | ok after =>
        refine unpriced none ?_
        rw [step, result]
        exact exec_priceFeed priced result

/-- The prices that a run had accepted, oldest first. -/
def acceptedPrices (start : World Address) (events : List (Event Address)) : List Int :=
  journal step acceptedPrice start events

theorem recorded_run (self : Address) (sequence timestamp : Nat) (balances : Address → Address → Nat)
    (events : List (Event Address)) :
    Recorded (run step (World.deployed self sequence timestamp balances) events)
      (acceptedPrices (World.deployed self sequence timestamp balances) events) :=
  journal_invariant Recorded (fun _ _ event recorded => recorded_step recorded event)
    (recorded_deployed self sequence timestamp balances) events

/-- A feed has the average of its prices, and is open if they are all the same. -/
theorem Tracks.exact_iff {feed : PriceFeedState} {prices : List Int} (tracks : Tracks feed prices) :
    (feed.twap = prices.sum / prices.length ∧
        ∀ price, (∀ p ∈ prices, p = price) → feed.twap = price ∧ ¬ feed.isSuspended) ↔
      prices.sum % prices.length + prices.headD 0 < prices.length ∧
        ∀ price, (∀ p ∈ prices, p = price) → price < 10 ∨ price = 19 := by
  rw [tracks.average, storedAverage_eq_iff tracks.nonempty tracks.positive]
  refine and_congr_right fun rounded => forall_congr' fun price => forall_congr' fun constant => ?_
  have length : 0 < prices.length := List.length_pos_iff.mpr tracks.nonempty
  have replicated : prices = List.replicate prices.length price := List.eq_replicate_iff.mpr ⟨rfl, constant⟩
  have sum : prices.sum = prices.length * price := by
    rw [List.sum_eq_card_nsmul prices price constant, nsmul_eq_mul]
  have head : prices.headD 0 = price := by
    cases prices with
    | nil => exact absurd rfl tracks.nonempty
    | cons first rest => exact constant first List.mem_cons_self
  have positive : 0 < price := by
    cases prices with
    | nil => exact absurd rfl tracks.nonempty
    | cons first rest => exact constant first List.mem_cons_self ▸ tracks.positive first List.mem_cons_self
  have below : price < prices.length := by
    rwa [sum, Int.mul_emod_right, zero_add, head] at rounded
  have exact' : storedAverage prices = price := by
    rw [replicated, storedAverage_replicate length, Int.ediv_eq_zero_of_lt positive.le below, add_zero]
  rw [tracks.suspension, ← steady_iff positive below]
  constructor
  · rintro ⟨-, steady⟩ earlier le deviates
    refine steady ⟨List.replicate earlier price, ?_, deviates⟩
    rw [replicated, List.prefix_replicate_iff]
    simpa using le
  · intro steady
    refine ⟨exact', ?_⟩
    rintro ⟨earlier, initial, deviates⟩
    rw [replicated, List.prefix_replicate_iff] at initial
    rw [initial.2] at deviates
    exact steady earlier.length (by simpa using initial.1) deviates

/-- After the call, the average that it returned is stored, and it is that of the accepted
prices; where these are all the same it is this price, and the feed is open. -/
def Averages (after : World Address) (twap : Int) (prices : List Int) : Prop :=
  ∃ feed, after.priceFeed = some feed ∧ feed.twap = twap ∧ twap = prices.sum / prices.length ∧
    ∀ price, (∀ p ∈ prices, p = price) → twap = price ∧ ¬ feed.isSuspended

/-- In any run, the average that an accepted price leaves is the average of the accepted prices
exactly when their first one, counted once more, disappears in the rounding; a constant price of
ten or more, other than nineteen, has suspended the feed before it does. -/
theorem averages_iff (self : Address) (sequence timestamp : Nat) (balances : Address → Address → Nat)
    (events : List (Event Address)) (spotPrice : Int) (after : World Address) (twap : Int)
    (accepted : updatePrice (run step (World.deployed self sequence timestamp balances) events) spotPrice =
      .ok (after, twap)) :
    let prices := acceptedPrices (World.deployed self sequence timestamp balances) events ++ [spotPrice]
    Averages after twap prices ↔ prices.sum % prices.length + prices.headD 0 < prices.length ∧
      ∀ price, (∀ p ∈ prices, p = price) → price < 10 ∨ price = 19 := by
  intro prices
  obtain ⟨feed, frame, returned, tracks⟩ :=
    updatePrice_tracks (recorded_run self sequence timestamp balances events) accepted
  rw [← tracks.exact_iff, Averages, frame, returned]
  simp only [Option.some.injEq, exists_eq_left', true_and]
  rfl

/-- A fresh contract that has accepted a price of five, five times. -/
def fivePrices : List (Event Nat) :=
  (List.replicate 5 [.call [] (.updatePrice 5), .advance 1 5]).flatten

theorem averages_iff_sixth : ∃ after,
    updatePrice (run step (World.deployed 0 1 0 fun _ _ => 0) fivePrices) 5 = .ok (after, 5) ∧
      let prices := acceptedPrices (World.deployed 0 1 0 fun _ _ => 0) fivePrices ++ [5]
      (Averages after 5 prices ↔ prices.sum % prices.length + prices.headD 0 < prices.length ∧
        ∀ price, (∀ p ∈ prices, p = price) → price < 10 ∨ price = 19) := by
  have returned : (updatePrice (run step (World.deployed 0 1 0 fun _ _ => 0) fivePrices) 5).map Prod.snd = .ok 5 := by
    decide +kernel
  cases accepted : updatePrice (run step (World.deployed 0 1 0 fun _ _ => 0) fivePrices) 5 with
  | error message =>
    rw [accepted] at returned
    cases returned
  | ok result =>
    obtain ⟨after, twap⟩ := result
    rw [accepted] at returned
    cases returned
    exact ⟨after, rfl, averages_iff 0 1 0 (fun _ _ => 0) fivePrices 5 after 5 accepted⟩

/-- The average of one price is twice that price. -/
theorem first_price_doubled : ∃ after,
    updatePrice (run step (World.deployed (0 : Nat) 1 0 fun _ _ => 0) []) 100 = .ok (after, 200) ∧
      ¬ Averages after 200 (acceptedPrices (World.deployed (0 : Nat) 1 0 fun _ _ => 0) [] ++ [100]) := by
  refine ⟨_, rfl, ?_⟩
  rintro ⟨feed, -, -, average, -⟩
  exact absurd average (by decide)

end AfroPay.Escrow
