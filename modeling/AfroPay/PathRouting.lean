import AfroPay.SharedPenalty
import Mathlib.Analysis.SpecialFunctions.Log.Basic

/-! The choice of a payment path. API and worker map the same Horizon records to the
same scored paths. The API then sorts by the logarithm of the rate and the worker by
its inverse, with the same penalty for hops and fee. Amounts are exact reals. -/
namespace AfroPay.PathRouting
open SharedPenalty

structure Asset where
  code : String
  issuer : String
  deriving DecidableEq

def Asset.native : Asset := ⟨"XLM", ""⟩

/-- How a route query names the asset. -/
def Asset.horizonRepr (asset : Asset) : String :=
  if asset.code = "XLM" ∧ asset.issuer = "" then "native" else asset.code ++ ":" ++ asset.issuer

/-- An asset as Horizon spells it. -/
structure HorizonAsset where
  assetType : String
  assetCode : Option String
  assetIssuer : Option String
  deriving DecidableEq

def HorizonAsset.toAsset (hop : HorizonAsset) : Asset :=
  if hop.assetType = "native" then ⟨"XLM", ""⟩ else ⟨hop.assetCode.getD "", hop.assetIssuer.getD ""⟩

structure HorizonPathRecord where
  source : HorizonAsset
  destination : HorizonAsset
  sourceAmount : ℝ
  destinationAmount : ℝ
  path : List HorizonAsset

structure PaymentPath where
  sourceAsset : Asset
  destinationAsset : Asset
  path : List Asset
  sourceAmount : ℝ
  destinationAmount : ℝ
  effectiveRate : ℝ
  estimatedFeeStroops : Nat
  costScore : ℝ

def baseFeeStroops : Nat := 100

def estimateFeeStroops (pathLength : Nat) : Nat := baseFeeStroops + pathLength * 50

/-- Hops and fee, as both scores count them. -/
noncomputable def penalty (p : PaymentPath) : ℝ :=
  p.path.length * 0.001 + p.estimatedFeeStroops * 1e-7 / max p.sourceAmount 1e-12

/-- The rate, which both scores keep away from zero. -/
noncomputable def boundedRate (p : PaymentPath) : ℝ := max p.effectiveRate 1e-12

namespace Api

noncomputable def mapHorizonRecord (record : HorizonPathRecord) : Option PaymentPath :=
  if record.sourceAmount ≤ 0 then none
  else
    let effectiveRate := record.destinationAmount / record.sourceAmount
    let pathAssets := record.path.map HorizonAsset.toAsset
    let feeStroops := estimateFeeStroops pathAssets.length
    let feeXlm := (feeStroops : ℝ) * 1e-7
    let hopPenalty := (pathAssets.length : ℝ) * 0.001
    let costScore := 1 / max effectiveRate 1e-12 + hopPenalty + feeXlm / max record.sourceAmount 1e-12
    some ⟨record.source.toAsset, record.destination.toAsset, pathAssets, record.sourceAmount,
      record.destinationAmount, effectiveRate, feeStroops, costScore⟩

noncomputable def bfWeight (p : PaymentPath) : ℝ :=
  let rateWeight := -Real.log (max p.effectiveRate 1e-12)
  let hopPenalty := (p.path.length : ℝ) * 0.001
  let feeXlm := (p.estimatedFeeStroops : ℝ) * 1e-7
  let feeWeight := feeXlm / max p.sourceAmount 1e-12
  rateWeight + hopPenalty + feeWeight

noncomputable def rankPaths (paths : List PaymentPath) : List PaymentPath :=
  if paths.length ≤ 1 then paths else rankBy bfWeight paths

/-- The ranking in `findOptimalPaths`, before it is cut to the number of paths asked for. -/
noncomputable def findOptimalPaths (records : List HorizonPathRecord) : List PaymentPath :=
  rankPaths (records.filterMap mapHorizonRecord)

end Api

namespace Worker

noncomputable def toPaymentPath (record : HorizonPathRecord) : Option PaymentPath :=
  if record.sourceAmount ≤ 0 then none
  else
    let effectiveRate := record.destinationAmount / record.sourceAmount
    let pathAssets := record.path.map HorizonAsset.toAsset
    let feeStroops := estimateFeeStroops pathAssets.length
    let feeXlm := (feeStroops : ℝ) * 1e-7
    let hopPenalty := (pathAssets.length : ℝ) * 0.001
    let costScore := 1 / max effectiveRate 1e-12 + hopPenalty + feeXlm / max record.sourceAmount 1e-12
    some ⟨record.source.toAsset, record.destination.toAsset, pathAssets, record.sourceAmount,
      record.destinationAmount, effectiveRate, feeStroops, costScore⟩

/-- The ranking in `find_optimal_paths`, before it is cut to the number of paths asked for. -/
noncomputable def findOptimalPaths (records : List HorizonPathRecord) : List PaymentPath :=
  rankBy PaymentPath.costScore (records.filterMap toPaymentPath)

end Worker

/-- The paths of the records that both programs keep. -/
noncomputable def candidates (records : List HorizonPathRecord) : List PaymentPath :=
  records.filterMap Api.mapHorizonRecord

theorem worker_candidates (records : List HorizonPathRecord) :
    records.filterMap Worker.toPaymentPath = candidates records := rfl

theorem bfWeight_eq (p : PaymentPath) : Api.bfWeight p = -Real.log (boundedRate p) + penalty p :=
  add_assoc _ _ _

/-- The cost score of a path that was built from a record. -/
theorem costScore_eq {records : List HorizonPathRecord} {p : PaymentPath} (kept : p ∈ candidates records) :
    p.costScore = 1 / boundedRate p + penalty p := by
  obtain ⟨record, -, mapped⟩ := List.mem_filterMap.mp kept
  rw [Api.mapHorizonRecord] at mapped
  split at mapped
  · cases mapped
  · rw [← Option.some_inj.mp mapped]
    exact add_assoc _ _ _

/-- What the scores read of the path of a record. -/
theorem mapHorizonRecord_kept {record : HorizonPathRecord} (positive : 0 < record.sourceAmount) :
    ∃ p, Api.mapHorizonRecord record = some p ∧
      boundedRate p = max (record.destinationAmount / record.sourceAmount) 1e-12 ∧
      penalty p = record.path.length * 0.001 +
        estimateFeeStroops record.path.length * 1e-7 / max record.sourceAmount 1e-12 := by
  refine ⟨_, if_neg (not_le.mpr positive), rfl, ?_⟩
  simp only [penalty, List.length_map]

/-- Ranking fewer than two paths changes nothing, so the API's short cut does not show. -/
theorem rankPaths_eq (paths : List PaymentPath) : Api.rankPaths paths = rankBy Api.bfWeight paths := by
  rw [Api.rankPaths]
  split
  · rename_i short
    match paths, short with
    | [], _ => rfl
    | [_], _ => rfl
    | _ :: _ :: _, short => simp at short
  · rfl

section Rates
variable {x y : ℝ}

theorem log_sub_lt_sub_div (positive : 0 < x) (less : x < y) : Real.log y - Real.log x < (y - x) / x := by
  have y_pos := positive.trans less
  have below := Real.log_lt_sub_one_of_pos (div_pos y_pos positive) (one_lt_div positive |>.mpr less).ne'
  rwa [Real.log_div y_pos.ne' positive.ne', ← div_self positive.ne', ← sub_div] at below

theorem sub_div_lt_log_sub (positive : 0 < x) (less : x < y) : (y - x) / y < Real.log y - Real.log x := by
  have y_pos := positive.trans less
  have below := Real.log_lt_sub_one_of_pos (div_pos positive y_pos) (div_lt_one y_pos |>.mpr less).ne
  rw [Real.log_div positive.ne' y_pos.ne', ← div_self y_pos.ne', ← sub_div] at below
  have opposite : (y - x) / y = -((x - y) / y) := by rw [← neg_div, neg_sub]
  linarith only [below, opposite]

theorem inverse_sub_le (positive : 0 < x) (less : x < y) (above : 1 ≤ x) : 1 / x - 1 / y ≤ (y - x) / y := by
  have y_pos := positive.trans less
  rw [div_sub_div _ _ positive.ne' y_pos.ne', one_mul, mul_one, ← div_div]
  exact div_le_div_of_nonneg_right (div_le_self (sub_nonneg.mpr less.le) above) y_pos.le

theorem le_inverse_sub (positive : 0 < x) (less : x < y) (below : y ≤ 1) : (y - x) / x ≤ 1 / x - 1 / y := by
  have y_pos := positive.trans less
  rw [div_sub_div _ _ positive.ne' y_pos.ne', one_mul, mul_one, mul_comm, ← div_div]
  exact div_le_div_of_nonneg_right (le_div_self (sub_nonneg.mpr less.le) y_pos below) positive.le

end Rates

section Firsts
variable {records : List HorizonPathRecord} {a b : PaymentPath}

theorem api_first (api : (Api.findOptimalPaths records).head? = some a) :
    (rankBy Api.bfWeight (candidates records)).head? = some a := by
  rw [← rankPaths_eq]
  exact api

theorem boundedRate_pos (p : PaymentPath) : 0 < boundedRate p :=
  lt_max_of_lt_right (by norm_num)

/-- What the one gains in the penalty is at most what the other gains in the rate, each
measured by the score it was chosen by. -/
theorem firsts_traded (api : (Api.findOptimalPaths records).head? = some a)
    (worker : (Worker.findOptimalPaths records).head? = some b) :
    1 / boundedRate b - 1 / boundedRate a ≤ penalty a - penalty b ∧
      penalty a - penalty b ≤ Real.log (boundedRate a) - Real.log (boundedRate b) := by
  have bounds := firsts_bounded (fun p _ => bfWeight_eq p) (fun _ => costScore_eq) (api_first api) worker
  rwa [neg_sub_neg] at bounds

/-- A path with the best rate and the least penalty of all comes first in both rankings,
or one like it does. -/
theorem firsts_like_best {best : PaymentPath} (kept : best ∈ candidates records)
    (dominates : ∀ p ∈ candidates records, boundedRate p ≤ boundedRate best ∧ penalty best ≤ penalty p)
    (api : (Api.findOptimalPaths records).head? = some a)
    (worker : (Worker.findOptimalPaths records).head? = some b) :
    boundedRate a = boundedRate b ∧ penalty a = penalty b := by
  have by_log := first_like_best (fun p _ => bfWeight_eq p) kept
    (fun p listed => ⟨neg_le_neg (Real.log_le_log (boundedRate_pos p) (dominates p listed).1), (dominates p listed).2⟩)
    (api_first api)
  have by_inverse := first_like_best (fun _ => costScore_eq) kept
    (fun p listed => ⟨one_div_le_one_div_of_le (boundedRate_pos p) (dominates p listed).1, (dominates p listed).2⟩)
    worker
  have rate_a := Real.log_injOn_pos (boundedRate_pos a) (boundedRate_pos best) (neg_inj.mp by_log.1)
  have rate_b := inv_inj.mp ((one_div _).symm.trans (by_inverse.1.trans (one_div _)))
  exact ⟨rate_a.trans rate_b.symm, by_log.2.trans by_inverse.2.symm⟩

/-- The two choices compared. They tie in both rankings if one path is best in rate and
penalty alike. -/
theorem first_paths_compared (api : (Api.findOptimalPaths records).head? = some a)
    (worker : (Worker.findOptimalPaths records).head? = some b) :
    1 / boundedRate b - 1 / boundedRate a ≤ penalty a - penalty b ∧
      penalty a - penalty b ≤ Real.log (boundedRate a) - Real.log (boundedRate b) ∧
      ((∃ best ∈ candidates records, ∀ p ∈ candidates records,
          boundedRate p ≤ boundedRate best ∧ penalty best ≤ penalty p) →
        Api.bfWeight a = Api.bfWeight b ∧ a.costScore = b.costScore) := by
  obtain ⟨by_inverse, by_log⟩ := firsts_traded api worker
  refine ⟨by_inverse, by_log, ?_⟩
  rintro ⟨best, kept, dominates⟩
  obtain ⟨rates, penalties⟩ := firsts_like_best kept dominates api worker
  have a_kept := (first_least (api_first api)).1
  have b_kept := (first_least worker).1
  constructor
  · rw [bfWeight_eq, bfWeight_eq, rates, penalties]
  · rw [costScore_eq a_kept, costScore_eq b_kept, rates, penalties]

/-- Above par the logarithm of a rate weighs more than its inverse, and the API takes the
better rate of the two. -/
theorem api_takes_better_rate (api : (Api.findOptimalPaths records).head? = some a)
    (worker : (Worker.findOptimalPaths records).head? = some b) (above : 1 ≤ boundedRate a) :
    boundedRate b ≤ boundedRate a := by
  by_contra better
  have less := not_le.mp better
  obtain ⟨by_inverse, by_log⟩ := firsts_traded api worker
  have logs := sub_div_lt_log_sub (boundedRate_pos a) less
  have inverses := inverse_sub_le (boundedRate_pos a) less above
  linarith only [by_inverse, by_log, logs, inverses]

/-- Below par the worker does. -/
theorem worker_takes_better_rate (api : (Api.findOptimalPaths records).head? = some a)
    (worker : (Worker.findOptimalPaths records).head? = some b) (below : boundedRate a ≤ 1) :
    boundedRate a ≤ boundedRate b := by
  by_contra better
  have less := not_le.mp better
  obtain ⟨by_inverse, by_log⟩ := firsts_traded api worker
  have logs := log_sub_lt_sub_div (boundedRate_pos b) less
  have inverses := le_inverse_sub (boundedRate_pos b) less below
  linarith only [by_inverse, by_log, logs, inverses]

end Firsts

section Crossing

/-- A path as the tests of the graph make it. -/
noncomputable def makePath (source destination : Asset) (hops : List Asset) (rate : ℝ) : PaymentPath :=
  let feeStroops := estimateFeeStroops hops.length
  ⟨source, destination, hops, 100, 100 * rate, rate, feeStroops,
    1 / rate + hops.length * 0.001 + feeStroops * 1e-7 / 100⟩

def native : HorizonAsset := ⟨"native", none, none⟩

def naira : HorizonAsset := ⟨"credit_alphanum4", some "NGNC", some "GISSUER"⟩

/-- A direct path, and one over five more assets that pays two per cent more. -/
def direct : HorizonPathRecord := ⟨native, naira, 100, 1000, []⟩

def longer : HorizonPathRecord := ⟨native, naira, 100, 1020, List.replicate 5 native⟩

theorem crossing_candidates : ∃ d l, candidates [direct, longer] = [d, l] ∧
    (boundedRate d = 10 ∧ penalty d = 1e-7) ∧ boundedRate l = 10.2 ∧ penalty l = 0.00500035 := by
  obtain ⟨d, d_kept, d_rate, d_penalty⟩ := @mapHorizonRecord_kept direct (by norm_num [direct])
  obtain ⟨l, l_kept, l_rate, l_penalty⟩ := @mapHorizonRecord_kept longer (by norm_num [longer])
  refine ⟨d, l, ?_, ⟨?_, ?_⟩, ?_, ?_⟩
  · rw [candidates, List.filterMap_cons_some d_kept, List.filterMap_cons_some l_kept, List.filterMap_nil]
  · rw [d_rate]
    norm_num [direct]
  · rw [d_penalty]
    norm_num [direct, estimateFeeStroops, baseFeeStroops]
  · rw [l_rate]
    norm_num [longer]
  · rw [l_penalty]
    norm_num [longer, estimateFeeStroops, baseFeeStroops]

/-- Two per cent of rate are worth more than five hops to the API and less to the worker. -/
theorem crossing_firsts : ∃ d l,
    (Api.findOptimalPaths [direct, longer]).head? = some l ∧
    (Worker.findOptimalPaths [direct, longer]).head? = some d ∧
    Api.bfWeight l < Api.bfWeight d ∧ d.costScore < l.costScore := by
  obtain ⟨d, l, listed, ⟨d_rate, d_penalty⟩, l_rate, l_penalty⟩ := crossing_candidates
  have d_listed : d ∈ candidates [direct, longer] := listed ▸ List.mem_cons_self
  have l_listed : l ∈ candidates [direct, longer] := listed ▸ List.mem_cons_of_mem _ List.mem_cons_self
  have weights : Api.bfWeight l < Api.bfWeight d := by
    have logs := sub_div_lt_log_sub (x := 10) (y := 10.2) (by norm_num) (by norm_num)
    rw [bfWeight_eq, bfWeight_eq, d_rate, d_penalty, l_rate, l_penalty]
    have gain : (0.0051 : ℝ) ≤ (10.2 - 10) / 10.2 := by norm_num
    linarith only [logs, gain]
  have costs : d.costScore < l.costScore := by
    rw [costScore_eq d_listed, costScore_eq l_listed, d_rate, d_penalty, l_rate, l_penalty]
    norm_num
  refine ⟨d, l, ?_, ?_, weights, costs⟩
  · rw [Api.findOptimalPaths, rankPaths_eq]
    refine first_of_below l_listed fun item member => ?_
    rw [← candidates, listed] at member
    rcases List.mem_pair.mp member with rfl | rfl
    · exact .inr weights
    · exact .inl rfl
  · refine first_of_below d_listed fun item member => ?_
    rw [worker_candidates, listed] at member
    rcases List.mem_pair.mp member with rfl | rfl
    · exact .inl rfl
    · exact .inr costs

/-- Each program's first path is strictly the worse of the two to the other one. -/
theorem choices_cross :
    (∀ record ∈ [direct, longer], 0 < record.sourceAmount ∧ 0 < record.destinationAmount) ∧
    ∃ a b, (Api.findOptimalPaths [direct, longer]).head? = some a ∧
      (Worker.findOptimalPaths [direct, longer]).head? = some b ∧
      Api.bfWeight a < Api.bfWeight b ∧ b.costScore < a.costScore := by
  constructor
  · intro record member
    rcases List.mem_pair.mp member with rfl | rfl
    · norm_num [direct]
    · norm_num [longer]
  · obtain ⟨d, l, api, worker, weights, costs⟩ := crossing_firsts
    exact ⟨l, d, api, worker, weights, costs⟩

theorem first_paths_compared_crossing : ∃ a b,
    1 / boundedRate b - 1 / boundedRate a ≤ penalty a - penalty b ∧
      penalty a - penalty b ≤ Real.log (boundedRate a) - Real.log (boundedRate b) ∧
      ((∃ best ∈ candidates [direct, longer], ∀ p ∈ candidates [direct, longer],
          boundedRate p ≤ boundedRate best ∧ penalty best ≤ penalty p) →
        Api.bfWeight a = Api.bfWeight b ∧ a.costScore = b.costScore) := by
  obtain ⟨d, l, api, worker, -, -⟩ := crossing_firsts
  exact ⟨l, d, first_paths_compared api worker⟩

end Crossing

end AfroPay.PathRouting
