import AfroPay.GroupedTotals
import AfroPay.Kyc
import AfroPay.NumberReading

/-! The weekly demand forecast for an asset: the average over the weeks of the last 56 days that
had transactions. A transaction is there because the KYC step of its transfer could read its
amount and let it pass; the forecast reads the amount again, and in another way. Numbers are
exact, with one value for all that is not finite, and times are milliseconds since the
beginning of 1970. -/
namespace AfroPay.DemandForecast
open CalendarDates GroupedTotals JoinedText KeyedStore Kyc NumberReading Transfer WebText

/-- The KYC step of some transfer let the amount pass. -/
def Accepted (amount assetCode : String) : Prop :=
  ∃ rates tier rows amountUsd, normalizeAmountToUsd rates amount assetCode = .ok amountUsd ∧
    assertWithinDailyLimit rates tier rows amountUsd = .ok ()

/-- A row that `sendTransfer` stored, at a time that a `Date` can hold. -/
structure StoredTransaction where
  amount : String
  assetCode : String
  createdAt : Nat
  accepted : Accepted amount assetCode
  valid : createdAt ≤ 8640000000000000

/-- The clock on the server's wall at a time, and the time when it shows something. -/
structure Zone where
  localTime : ℤ → ℤ
  utc : ℤ → ℤ

/-- `since.setDate(since.getDate() - 56)` -/
def Zone.since (zone : Zone) (now : Nat) : ℤ := zone.utc (zone.localTime now - 56 * 86400000)

/-- `date.toISOString()`, of the days since the first of March of the year 0 and the
milliseconds since midnight. -/
def isoText (days time : Nat) : List Char :=
  dateText (marchDate days) ++ 'T' :: padDigits 2 (time / 3600000) ++ ':' :: padDigits 2 (time / 60000 % 60) ++
    ':' :: padDigits 2 (time / 1000 % 60) ++ '.' :: padDigits 3 (time % 1000) ++ ['Z']

theorem isoText_eq (ms : Nat) : isoText (ms / 86400000 + 719468) (ms % 86400000) = (toISOString ms).toList := by
  have hours : ms % 86400000 / 3600000 = ms / 3600000 % 24 := by omega
  have minutes : ms % 86400000 / 60000 % 60 = ms / 60000 % 60 := by omega
  have seconds : ms % 86400000 / 1000 % 60 = ms / 1000 % 60 := by omega
  have milliseconds : ms % 86400000 % 1000 = ms % 1000 := by omega
  rw [isoText, toISOString_eq, hours, minutes, seconds, milliseconds]

/-- Sunday is day 0, and 1970 began on a Thursday. -/
def getUTCDay (ms : Nat) : Nat := (ms / 86400000 + 4) % 7

/-- The date of the Monday, from its text. -/
def weekKey (ms : Nat) : String :=
  let day := if getUTCDay ms = 0 then 7 else getUTCDay ms
  String.ofList ((isoText (ms / 86400000 + 719468 - day + 1) (ms % 86400000)).take 10)

/-- `Number(text)` -/
def numberOf (text : String) : WithTop ℚ :=
  match number text.toList with
  | some x => x
  | none => ⊤

/-- A volume that is finite and not negative. -/
def validVolume : WithTop ℚ → Option ℚ
  | none => none
  | WithTop.some volume => if 0 ≤ volume then some volume else none

def forecastWeeklyDemandFromVolumes (weeklyVolumes : List (WithTop ℚ)) : ℚ :=
  let validVolumes := weeklyVolumes.filterMap validVolume
  if validVolumes.length = 0 then 0 else validVolumes.sum / validVolumes.length

/-- The rows that the forecast is made from. -/
def recent (zone : Zone) (now : Nat) (table : List StoredTransaction) (asset : String) : List StoredTransaction :=
  table.filter fun transaction => transaction.assetCode = asset ∧ zone.since now ≤ transaction.createdAt

/-- The volumes of the weeks, by their keys. -/
def byWeek (transactions : List StoredTransaction) : Store String (WithTop ℚ) :=
  totals (fun transaction => weekKey transaction.createdAt) (fun transaction => numberOf transaction.amount) transactions

/-- `environment` is `LIQUIDITY_DEFAULT_WEEKLY_DEMAND`, which counts when there are no rows. -/
def forecastDemand (zone : Zone) (environment : Option String) (now : Nat) (table : List StoredTransaction)
    (asset : String) : ℚ :=
  let byWeek := byWeek (recent zone now table asset)
  let configuredFallback := (environment.map numberOf).getD 0
  forecastWeeklyDemandFromVolumes
    (if 0 < byWeek.entries.length then byWeek.entries.map fun entry => entry.2
    else [if configuredFallback = ⊤ then 0 else configuredFallback])

-- the last second of a year, in the week of the Monday before
example : weekKey 1767225599000 = "2025-12-29" := by decide +kernel

/-- What the KYC step read. -/
def kycNumber (amount : String) : ℚ :=
  match parseFloat amount.toList with
  | .finite value => value
  | _ => 0

/-- Weeks from Monday to Sunday, counted from the one in which 1970 began. -/
def week (ms : Nat) : Nat := (ms / 86400000 + 3) / 7

def weeks (transactions : List StoredTransaction) : List Nat :=
  (transactions.map fun transaction => week transaction.createdAt).dedup

/-- All that was sent by the number of weeks in which something was sent. -/
def weeklyDemand (transactions : List StoredTransaction) : ℚ :=
  (transactions.map fun transaction => kycNumber transaction.amount).sum / (weeks transactions).length

/-- The forecast is the weekly demand. -/
structure Exact (zone : Zone) (environment : Option String) (now : Nat) (table : List StoredTransaction)
    (asset : String) : Prop where
  keys : ∀ a ∈ recent zone now table asset, ∀ b ∈ recent zone now table asset,
    weekKey a.createdAt = weekKey b.createdAt ↔ week a.createdAt = week b.createdAt
  demand : recent zone now table asset ≠ [] →
    forecastDemand zone environment now table asset = weeklyDemand (recent zone now table asset)

/-- The Monday of a week, in days since the first of March of the year 0. -/
def monday (week : Nat) : Nat := 719465 + 7 * week

/-- No two weeks begin in one month after the year 9999. -/
def Apart (transactions : List StoredTransaction) : Prop :=
  ∀ a ∈ transactions, ∀ b ∈ transactions, week a.createdAt ≠ week b.createdAt →
    let date := marchDate (monday (week a.createdAt))
    let date' := marchDate (monday (week b.createdAt))
    ¬ (9999 < date.1 ∧ date.1 = date'.1 ∧ date.2.1 = date'.2.1)

/-- `Number` finds the number in every amount that `parseFloat` found. -/
def ReadAlike (transactions : List StoredTransaction) : Prop :=
  ∀ transaction ∈ transactions, numberOf transaction.amount = kycNumber transaction.amount

/-- What `Number` makes of the amounts of each week, where that is finite and not negative. -/
def readableWeeks (transactions : List StoredTransaction) : List ℚ :=
  ((weeks transactions).map (fiberSum (fun transaction => week transaction.createdAt)
    (fun transaction => numberOf transaction.amount) transactions)).filterMap validVolume

section Keys

/-- The first ten characters of a text that begins with the date. -/
def keyText (date : Nat × Nat × Nat) : List Char :=
  if date.1 ≤ 9999 then dateText date else yearText date.1 ++ '-' :: padDigits 2 date.2.1

theorem year_lt {days : Nat} (valid : days ≤ 100719468) : (marchDate days).1 < 10 ^ 6 := by
  obtain ⟨below, -, -⟩ := yearOfEra_bounds (Nat.mod_lt days (by decide : 0 < 146097)) rfl
  have january (month : Nat) : (if month ≤ 2 then 1 else 0) ≤ 1 := by split <;> decide
  rw [marchDate]
  refine (Nat.add_le_add_left (january _) _).trans_lt ?_
  omega

theorem take_isoText {days time : Nat} (valid : days ≤ 100719468) :
    (isoText days time).take 10 = keyText (marchDate days) := by
  have years := year_lt valid
  have month : (padDigits 2 (marchDate days).2.1).length = 2 := length_padDigits (month_lt days) (by decide)
  have day : (padDigits 2 (marchDate days).2.2).length = 2 := length_padDigits (day_lt days) (by decide)
  unfold keyText isoText
  split
  · rename_i short
    have year : (yearText (marchDate days).1).length = 4 := by
      rw [yearText, if_pos short]
      exact length_padDigits (by omega) (by decide)
    have whole : (dateText (marchDate days)).length = 10 := by simp [dateText, year, month, day]
    simp only [List.append_assoc]
    exact List.take_left' whole
  · rename_i long
    have year : (yearText (marchDate days).1).length = 7 := by
      rw [yearText, if_neg long, List.length_cons, length_padDigits years (by decide)]
    have whole : (yearText (marchDate days).1 ++ '-' :: padDigits 2 (marchDate days).2.1).length = 10 := by
      simp [year, month]
    simp only [dateText, List.append_assoc]
    rw [← List.append_assoc]
    exact List.take_left' whole

theorem weekKey_eq {ms : Nat} (valid : ms ≤ 8640000000000000) :
    weekKey ms = String.ofList (keyText (marchDate (monday (week ms)))) := by
  have first : ms / 86400000 + 719468 - (if getUTCDay ms = 0 then 7 else getUTCDay ms) + 1 = monday (week ms) := by
    unfold monday week getUTCDay
    split <;> omega
  have bound : monday (week ms) ≤ 100719468 := by
    unfold monday week
    omega
  rw [weekKey, first, take_isoText bound]

/-- Only weeks of one month share a text, and only after the year 9999. -/
theorem keyText_shared {days days' : Nat} (same : keyText (marchDate days) = keyText (marchDate days')) :
    days = days' ∨ 9999 < (marchDate days).1 ∧ (marchDate days).1 = (marchDate days').1 ∧
      (marchDate days).2.1 = (marchDate days').2.1 := by
  have digits (width n : Nat) : '+' ∉ padDigits width n := padDigits_free (by decide)
  have unsigned {date : Nat × Nat × Nat} (short : date.1 ≤ 9999) : '+' ∉ dateText date := by
    simp [dateText, yearText, short, digits]
  have signed {date : Nat × Nat × Nat} (long : ¬ date.1 ≤ 9999) :
      '+' ∈ yearText date.1 ++ '-' :: padDigits 2 date.2.1 := by simp [yearText, long]
  unfold keyText at same
  split at same <;> split at same
  · exact .inl (marchDate_injective (dateText_injective same))
  · rename_i short long
    exact absurd (same ▸ signed long) (unsigned short)
  · rename_i long short
    exact absurd (same ▸ signed long) (unsigned short)
  · rename_i long _
    obtain ⟨years, months⟩ := first_separator (yearText_free (by decide) (by decide))
      (yearText_free (by decide) (by decide)) same
    exact .inr ⟨not_le.mp long, yearText_injective years, padDigits_injective months⟩

theorem weekKey_shared {a b : Nat} (valid : a ≤ 8640000000000000) (valid' : b ≤ 8640000000000000) :
    weekKey a = weekKey b ↔ week a = week b ∨ 9999 < (marchDate (monday (week a))).1 ∧
      (marchDate (monday (week a))).1 = (marchDate (monday (week b))).1 ∧
      (marchDate (monday (week a))).2.1 = (marchDate (monday (week b))).2.1 := by
  rw [weekKey_eq valid, weekKey_eq valid', String.ofList_inj]
  constructor
  · intro same
    refine (keyText_shared same).imp_left fun mondays => ?_
    unfold monday at mondays
    omega
  · rintro (same | ⟨long, years, months⟩)
    · rw [same]
    · have long' : ¬ (marchDate (monday (week b))).1 ≤ 9999 := by omega
      rw [keyText, if_neg (not_le.mpr long), keyText, if_neg long', years, months]

/-- The keys of rows tell their weeks apart exactly when the rows are apart. -/
theorem keys_iff (transactions : List StoredTransaction) : Apart transactions ↔
    ∀ a ∈ transactions, ∀ b ∈ transactions,
      weekKey a.createdAt = weekKey b.createdAt ↔ week a.createdAt = week b.createdAt := by
  refine forall₄_congr fun a _ b _ => ?_
  rw [weekKey_shared a.valid b.valid]
  tauto

end Keys

section Amounts

/-- An infinite amount exceeds every limit. -/
theorem infinite_refused {rates : String → Option ℚ≥0} {tier : Option KycTier} {rows : List Transaction} :
    assertWithinDailyLimit rates tier rows ⊤ ≠ .ok () := by
  unfold assertWithinDailyLimit
  cases getDailySpent rates rows with
  | error message => exact nofun
  | ok dailySpent =>
    simp only [bind, Except.bind, add_top, gt_iff_lt, WithTop.coe_lt_top, if_true]
    exact nofun

theorem convert_top {rates : String → Option ℚ≥0} {assetCode : String} {amountUsd : Usd}
    (converted : convert rates ⊤ assetCode = .ok amountUsd) : amountUsd = ⊤ := by
  unfold convert at converted
  dsimp only at converted
  repeat' split at converted
  all_goals cases converted
  all_goals rfl

/-- The amounts of transfers are finite and not negative. -/
theorem accepted_finite {amount assetCode : String} (accepted : Accepted amount assetCode) :
    parseFloat amount.toList = .finite (kycNumber amount) ∧ 0 ≤ kycNumber amount := by
  obtain ⟨rates, tier, rows, amountUsd, normalized, within⟩ := accepted
  unfold normalizeAmountToUsd at normalized
  unfold kycNumber
  cases read : parseFloat amount.toList with
  | nan => rw [read] at normalized; cases normalized
  | infinity negative =>
    rw [read] at normalized
    cases negative with
    | true => cases normalized
    | false =>
      rw [convert_top normalized] at within
      exact absurd within infinite_refused
  | finite value =>
    rw [read] at normalized
    dsimp only at normalized
    split at normalized
    · cases normalized
    · rename_i nonnegative
      exact ⟨rfl, not_lt.mp nonnegative⟩

end Amounts

section Averages
variable {transactions : List StoredTransaction}

theorem average_eq (volumes : List (WithTop ℚ)) : forecastWeeklyDemandFromVolumes volumes =
    (volumes.filterMap validVolume).sum / (volumes.filterMap validVolume).length := by
  rw [forecastWeeklyDemandFromVolumes]
  split
  · rename_i none_valid
    rw [none_valid, Nat.cast_zero, div_zero]
  · rfl

/-- The average does not depend on the order of the weeks. -/
theorem average_perm {volumes volumes' : List (WithTop ℚ)} (perm : volumes.Perm volumes') :
    forecastWeeklyDemandFromVolumes volumes = forecastWeeklyDemandFromVolumes volumes' := by
  have valid := perm.filterMap validVolume
  rw [average_eq, average_eq, valid.sum_eq, valid.length_eq]

/-- The table of the weeks has an entry for each of their keys. -/
theorem byWeek_perm (transactions : List StoredTransaction) :
    ((byWeek transactions).entries.map fun entry => entry.2).Perm
      ((transactions.map fun transaction => weekKey transaction.createdAt).dedup.map
        (fiberSum (fun transaction => weekKey transaction.createdAt) (fun transaction => numberOf transaction.amount)
          transactions)) :=
  values_perm

theorem byWeek_filled (filled : transactions ≠ []) : 0 < (byWeek transactions).entries.length := by
  have lengths := (byWeek_perm transactions).length_eq
  rw [List.length_map, List.length_map] at lengths
  rw [lengths, List.length_pos_iff, ne_eq, List.dedup_eq_nil, List.map_eq_nil_iff]
  exact filled

/-- With keys that tell the weeks apart the forecast is the average over the weeks that can be read. -/
theorem forecastDemand_eq {zone : Zone} {environment : Option String} {now : Nat} {table : List StoredTransaction}
    {asset : String} (filled : recent zone now table asset ≠ []) (apart : Apart (recent zone now table asset)) :
    forecastDemand zone environment now table asset =
      (readableWeeks (recent zone now table asset)).sum / (readableWeeks (recent zone now table asset)).length := by
  rw [forecastDemand, if_pos (byWeek_filled filled), average_perm (byWeek_perm _), same_sums ((keys_iff _).mp apart),
    average_eq]
  rfl

theorem fiberSum_alike (alike : ReadAlike transactions) (w : Nat) :
    fiberSum (fun transaction => week transaction.createdAt) (fun transaction => numberOf transaction.amount)
        transactions w =
      WithTop.addHom (fiberSum (fun transaction => week transaction.createdAt)
        (fun transaction => kycNumber transaction.amount) transactions w) := by
  refine (fiberSum_congr fun transaction listed => alike transaction listed).trans ?_
  exact (map_fiberSum (WithTop.addHom : ℚ →+ WithTop ℚ) w).symm

/-- Amounts that are read alike can be read in every week. -/
theorem readableWeeks_alike (alike : ReadAlike transactions) : readableWeeks transactions =
    (weeks transactions).map (fiberSum (fun transaction => week transaction.createdAt)
      (fun transaction => kycNumber transaction.amount) transactions) := by
  unfold readableWeeks
  rw [List.filterMap_map, ← List.filterMap_eq_map]
  refine List.filterMap_congr fun w _ => ?_
  have nonneg : 0 ≤ fiberSum (fun transaction => week transaction.createdAt)
      (fun transaction : StoredTransaction => kycNumber transaction.amount) transactions w := by
    refine List.sum_nonneg fun amount listed => ?_
    obtain ⟨transaction, -, rfl⟩ := List.mem_map.mp listed
    exact (accepted_finite transaction.accepted).2
  rw [Function.comp_apply, fiberSum_alike alike]
  exact if_pos nonneg

/-- With keys apart and amounts read alike the forecast is the weekly demand. -/
theorem exact_of_alike {zone : Zone} {environment : Option String} {now : Nat} {table : List StoredTransaction}
    {asset : String} (apart : Apart (recent zone now table asset)) (alike : ReadAlike (recent zone now table asset)) :
    Exact zone environment now table asset := by
  refine ⟨(keys_iff _).mp apart, fun filled => ?_⟩
  rw [forecastDemand_eq filled apart, readableWeeks_alike alike, weeklyDemand, List.length_map, weeks, sum_fiberSums]

end Averages

section Alone

theorem accepted_dollar {amount assetCode : String} (accepted : Accepted amount assetCode) : Accepted "1" assetCode := by
  have named : assetCode ≠ "" := by
    rintro rfl
    obtain ⟨rates, -, -, amountUsd, normalized, -⟩ := accepted
    unfold normalizeAmountToUsd convert at normalized
    dsimp only at normalized
    repeat' split at normalized
    all_goals simp_all
  have read : parseFloat "1".toList = .finite 1 := by decide +kernel
  refine ⟨fun _ => some 1, some .basic, [], (1 : ℚ), ?_, by decide +kernel⟩
  have one : WithTop.map (· * ((1 : ℚ≥0) : ℚ)) ((1 : ℚ) : Usd) = ((1 : ℚ) : Usd) := by
    rw [WithTop.map_coe, NNRat.cast_one, mul_one]
  rw [normalizeAmountToUsd, read]
  simp only [convert, if_neg named, one_ne_zero, if_false, one, ite_self]
  exact if_neg (by norm_num)

/-- A dollar that is sent at the same time. -/
def StoredTransaction.dollar (transaction : StoredTransaction) : StoredTransaction :=
  { transaction with amount := "1", accepted := accepted_dollar transaction.accepted }

variable {zone : Zone} {environment : Option String} {now : Nat} {table : List StoredTransaction} {asset : String}

theorem recent_beside {b : StoredTransaction} (listed : b ∈ recent zone now table asset) :
    recent zone now [b.dollar, b] asset = [b.dollar, b] := by
  have kept := (List.mem_filter.mp listed).2
  have dollar : decide (b.dollar.assetCode = asset ∧ zone.since now ≤ b.dollar.createdAt) = true := kept
  simp only [recent, List.filter_cons, kept, dollar, if_true, List.filter_nil]

theorem numberOf_dollar (b : StoredTransaction) : numberOf b.dollar.amount = 1 := by
  change numberOf "1" = 1
  decide +kernel

theorem kycNumber_dollar (b : StoredTransaction) : kycNumber b.dollar.amount = 1 := by
  change kycNumber "1" = 1
  decide +kernel

theorem weeks_beside (b : StoredTransaction) : weeks [b.dollar, b] = [week b.createdAt] := by
  change [week b.createdAt, week b.createdAt].dedup = _
  simp

theorem readableWeeks_beside (b : StoredTransaction) :
    readableWeeks [b.dollar, b] = (validVolume (1 + numberOf b.amount)).toList := by
  have sum : fiberSum (fun transaction => week transaction.createdAt) (fun transaction => numberOf transaction.amount)
      [b.dollar, b] (week b.createdAt) = 1 + numberOf b.amount := by
    have same : week b.dollar.createdAt = week b.createdAt := rfl
    simp [fiberSum, same, numberOf_dollar]
  rw [readableWeeks, weeks_beside, List.map_singleton, sum, List.filterMap_cons]
  cases validVolume (1 + numberOf b.amount) <;> rfl

/-- A row whose amount is not read alike spoils the forecast of a dollar beside it. -/
theorem beside_iff {b : StoredTransaction} (listed : b ∈ recent zone now table asset) :
    Exact zone environment now [b.dollar, b] asset ↔ numberOf b.amount = kycNumber b.amount := by
  have both := recent_beside listed
  have nonneg := (accepted_finite b.accepted).2
  have apart : Apart (recent zone now [b.dollar, b] asset) := by
    rw [both]
    intro first among second among' different
    have here : ∀ row ∈ [b.dollar, b], week row.createdAt = week b.createdAt := by simp [StoredTransaction.dollar]
    exact absurd ((here first among).trans (here second among').symm) different
  constructor
  · intro exact_forecast
    have demand := exact_forecast.demand (by rw [both]; exact List.cons_ne_nil _ _)
    rw [forecastDemand_eq (by rw [both]; exact List.cons_ne_nil _ _) apart, both, readableWeeks_beside, weeklyDemand,
      weeks_beside, List.map_cons, List.map_singleton, kycNumber_dollar] at demand
    cases read : numberOf b.amount with
    | top =>
      rw [read] at demand
      simp [validVolume] at demand
      linarith
    | coe x =>
      have volume : validVolume (1 + (x : WithTop ℚ)) = if 0 ≤ 1 + x then some (1 + x) else none := rfl
      rw [read, volume] at demand
      split at demand
      · simp only [Option.toList_some, List.length_singleton, Nat.cast_one, div_one,
          List.sum_cons, List.sum_nil, add_zero, add_right_inj] at demand
        rw [demand]
      · simp at demand
        linarith
  · intro same
    refine exact_of_alike apart ?_
    rw [both]
    intro row among
    rcases List.mem_cons.mp among with rfl | last
    · rw [numberOf_dollar, kycNumber_dollar]
      rfl
    · rw [List.mem_singleton.mp last]
      exact same

end Alone

/-- The keys of the weeks are right exactly when the weeks are apart; where every amount is moreover read
as the KYC step read it the forecast is the weekly demand, and an amount that is not spoils the forecast
of a dollar beside it, whatever it does among others. -/
theorem forecast_exact_of_alike (zone : Zone) (environment : Option String) (now : Nat)
    (table : List StoredTransaction) (asset : String) :
    (Apart (recent zone now table asset) ↔ ∀ a ∈ recent zone now table asset, ∀ b ∈ recent zone now table asset,
      weekKey a.createdAt = weekKey b.createdAt ↔ week a.createdAt = week b.createdAt) ∧
    (Apart (recent zone now table asset) → ReadAlike (recent zone now table asset) →
      Exact zone environment now table asset) ∧
    ∀ b ∈ recent zone now table asset,
      Exact zone environment now [b.dollar, b] asset ↔ numberOf b.amount = kycNumber b.amount :=
  ⟨keys_iff _, exact_of_alike, fun _ => beside_iff⟩

def utc : Zone := ⟨id, id⟩

/-- A transfer of 25 dollars on a Monday, with the currency in the amount. -/
def named : StoredTransaction where
  amount := "25 USDC"
  assetCode := "USDC"
  createdAt := 1767571200000
  accepted := ⟨fun _ => none, some .basic, [], (25 : ℚ), by decide +kernel, by decide +kernel⟩
  valid := by decide

/-- A transfer of ten dollars a week later. -/
def plain : StoredTransaction where
  amount := "10"
  assetCode := "USDC"
  createdAt := 1768176000000
  accepted := ⟨fun _ => none, some .basic, [], (10 : ℚ), by decide +kernel, by decide +kernel⟩
  valid := by decide

/-- The ten dollars, and ten dollars the week before. -/
def steady : List StoredTransaction := [{ plain with createdAt := 1767571200000, valid := by decide }, plain]

theorem forecast_exact_of_alike_steady : Exact utc none 1768262400000 steady "USDC" := by
  refine (forecast_exact_of_alike utc none 1768262400000 steady "USDC").2.1 ?_ ?_
  · unfold Apart
    decide +kernel
  · unfold ReadAlike
    decide +kernel

/-- Ten dollars are forecast where the demand is 17.50. -/
theorem week_dropped : ¬ Exact utc none 1768262400000 [named, plain] "USDC" := by
  intro exact_forecast
  have forecast : forecastDemand utc none 1768262400000 [named, plain] "USDC" = 10 := by decide +kernel
  have demand : weeklyDemand (recent utc 1768262400000 [named, plain] "USDC") = 35 / 2 := by decide +kernel
  have equal := exact_forecast.demand (by decide +kernel)
  rw [forecast, demand] at equal
  norm_num at equal

end AfroPay.DemandForecast
