import AfroPay.LiquiditySteps

/-! From the amounts the guards allow to what the worker makes of them: rounded to seven
places, rendered as a JavaScript number, checked as a float, and parsed into stroops. -/
namespace AfroPay.RebalanceAmounts
open NumberText Liquidity WorkerJobs

/-- `str::len`. -/
def byteLength (text : List Char) : Nat := (text.map Char.utf8Size).sum

inductive AmountError where
  | tooManyPlaces
  | notAnInteger (error : ParseIntError)
  | amountOverflow
  deriving DecidableEq

def AmountError.text : AmountError → String
  | .tooManyPlaces => "Stellar amounts support at most 7 decimal places"
  | .notAnInteger .empty => "cannot parse integer from empty string"
  | .notAnInteger .invalidDigit => "invalid digit found in string"
  | .notAnInteger .posOverflow => "number too large to fit in target type"
  | .notAnInteger .negOverflow => "number too small to fit in target type"
  | .amountOverflow => "amount overflow"

inductive Parsed where
  | ok (stroops : ℤ)
  | err (error : AmountError)
  | panicked
  deriving DecidableEq

def fitsI64 (n : ℤ) : Prop := i64Min ≤ n ∧ n ≤ i64Max

instance (n : ℤ) : Decidable (fitsI64 n) := inferInstanceAs (Decidable (_ ∧ _))

/-- The last addition is an unchecked one: it panics where overflow checks are compiled in
and wraps around where they are not. -/
def uncheckedAdd (overflowChecks : Bool) (a b : ℤ) : Parsed :=
  if fitsI64 (a + b) then .ok (a + b)
  else if overflowChecks then .panicked
  else .ok ((a + b).bmod (2 ^ 64))

def parseStellarAmount (overflowChecks : Bool) (amount : List Char) : Parsed :=
  let whole := amount.takeWhile (· ≠ '.')
  let frac := (amount.dropWhile (· ≠ '.')).drop 1
  if 7 < byteLength frac then .err .tooManyPlaces
  else match parseI64 whole with
    | .error error => .err (.notAnInteger error)
    | .ok units =>
      if ¬ fitsI64 (units * 10000000) then .err .amountOverflow
      else match parseI64 (frac ++ List.replicate (7 - byteLength frac) '0') with
        | .error error => .err (.notAnInteger error)
        | .ok stroops => uncheckedAdd overflowChecks (units * 10000000) stroops

/-- `char::is_whitespace`. -/
def isWhitespace (c : Char) : Bool :=
  c.toNat ∈ [0x9, 0xA, 0xB, 0xC, 0xD, 0x20, 0x85, 0xA0, 0x1680, 0x2028, 0x2029, 0x202F, 0x205F, 0x3000] ∨
    0x2000 ≤ c.toNat ∧ c.toNat ≤ 0x200A

/-- `text.trim().is_empty()`. -/
def isBlank (text : String) : Bool := text.toList.all isWhitespace

def validateRebalanceJob (job : Worker.LiquidityRebalanceJob) : Except String Unit :=
  match parseF64 job.sourceAmount.toList with
  | none => .error "invalid source amount"
  | some source =>
    if source.nonPositive then .error "rebalance source amount must be positive"
    else match parseF64 job.destinationMinAmount.toList with
      | none => .error "invalid destination minimum"
      | some destination =>
        if destination.nonPositive then .error "rebalance destination minimum must be positive"
        else if isBlank job.treasuryAccount ∨ isBlank job.destinationAccount then
          .error "rebalance requires treasury and destination accounts"
        else if job.fromAsset = job.toAsset then .error "rebalance assets must be different"
        else if job.fromAsset ≠ "XLM" ∧ isBlank job.fromAssetIssuer then
          .error "source issued asset requires an issuer"
        else if job.toAsset ≠ "XLM" ∧ isBlank job.toAssetIssuer then
          .error "destination issued asset requires an issuer"
        else .ok ()

/-- The row and the job of a check that dispatches one, from what it has read. -/
def dispatch (settings : Settings) (corridor : CorridorConfig) (reserveAmount forecast : ℚ)
    (dailyCount dailyVolume : Nat) (latest : Option Row) (now id : Nat) :
    Option (Row × Api.LiquidityRebalanceJob) :=
  let threshold := forecast * liquidityThresholdRatio
  if forecast ≤ 0 ∨ threshold ≤ reserveAmount then none
  else
    let guard : Guard := ⟨threshold - reserveAmount, .reserveBelow reserveAmount forecast, now, some dailyCount,
      some dailyVolume, some latest⟩
    match guard.conclude settings corridor with
    | some (.planning sourceAmount destinationAmount reason) =>
      some (plannedRow corridor now sourceAmount destinationAmount reason,
        rebalanceJob settings corridor id sourceAmount destinationAmount)
    | _ => none

/-- The worker takes the job for what the row says: it receives it, accepts it, and reads
both amounts exactly. -/
def Executable (overflowChecks : Bool) (row : Row) (job : Api.LiquidityRebalanceJob) : Prop :=
  0 < row.sourceAmount ∧ 0 < row.amount ∧
    ∃ received, decodeLiquidity (Json.stringify (liquidityJson job)) = .ok received ∧
      validateRebalanceJob received = .ok () ∧
      parseStellarAmount overflowChecks received.sourceAmount.toList = .ok row.sourceAmount ∧
      parseStellarAmount overflowChecks received.destinationMinAmount.toList = .ok row.amount

/-- Amounts that are rendered without an exponent and fit the worker's integer: from ten
stroops, after rounding, up to the largest `i64`. -/
def InRange (x : ℚ) : Prop := 19 / 2 ≤ x * 10 ^ 7 ∧ x * 10 ^ 7 < 2 ^ 63 - 1 / 2

instance (x : ℚ) : Decidable (InRange x) := inferInstanceAs (Decidable (_ ∧ _))

/-- What the worker asks of a job besides its amounts. -/
structure Addressed (settings : Settings) (corridor : CorridorConfig) : Prop where
  differ : corridor.fromAsset ≠ corridor.toAsset
  treasury : isBlank (settings.treasuryPublicKey.getD "") = false
  destination : isBlank ((settings.getReserveAccount corridor.name).getD "") = false
  fromIssuer : corridor.fromAsset = "XLM" ∨ isBlank ((settings.getIssuer corridor.fromAsset).getD "") = false
  toIssuer : corridor.toAsset = "XLM" ∨ isBlank ((settings.getIssuer corridor.toAsset).getD "") = false

/-- The amount that the guards let through before rounding. -/
def allowedAmount (settings : Settings) (reserveAmount forecast : ℚ) (dailyVolume : Nat) : ℚ :=
  min (forecast * liquidityThresholdRatio - reserveAmount) (settings.maxDailyAmount - (dailyVolume : ℚ) / 10 ^ 7)

theorem uncheckedAdd_range {overflowChecks : Bool} {a b n : ℤ} (ok : uncheckedAdd overflowChecks a b = .ok n) :
    fitsI64 n := by
  unfold uncheckedAdd at ok
  split at ok
  · rename_i fits
    cases ok
    exact fits
  split at ok
  · cases ok
  · cases ok
    have low := @Int.le_bmod (a + b) (2 ^ 64) (by decide)
    have high := @Int.bmod_lt (a + b) (2 ^ 64) (by decide)
    unfold fitsI64 i64Min i64Max
    omega

/-- The sum is the exact one just when that fits. -/
theorem uncheckedAdd_exact_iff {overflowChecks : Bool} {a b n : ℤ} (ok : uncheckedAdd overflowChecks a b = .ok n) :
    n = a + b ↔ fitsI64 (a + b) := by
  constructor
  · rintro rfl
    exact uncheckedAdd_range ok
  · intro fits
    rw [uncheckedAdd, if_pos fits] at ok
    exact (Parsed.ok.inj ok).symm

theorem parseStellarAmount_range {overflowChecks : Bool} {amount : List Char} {n : ℤ}
    (ok : parseStellarAmount overflowChecks amount = .ok n) : fitsI64 n := by
  unfold parseStellarAmount at ok
  simp only at ok
  split at ok
  · cases ok
  split at ok
  · cases ok
  split at ok
  · cases ok
  split at ok
  · cases ok
  · exact uncheckedAdd_range ok

private theorem utf8Size_digit {c : Char} (digit : c.isDigit = true) : c.utf8Size = 1 := by
  have below := (Char.isDigit_iff_toNat.mp digit).2
  refine Char.utf8Size_eq_one_iff.mpr (UInt32.le_iff_toNat_le.mpr ?_)
  exact Nat.le_trans below (by decide)

theorem byteLength_digits {digits : List Char} (isDigit : ∀ c ∈ digits, c.isDigit = true) :
    byteLength digits = digits.length := by
  unfold byteLength
  rw [List.map_congr_left (fun c mem => utf8Size_digit (isDigit c mem))]
  simp

/-- The text splits at its point. -/
theorem positional_split {whole : List Char} (frac : List Char) (isDigit : ∀ c ∈ whole, c.isDigit = true) :
    (positional whole frac).takeWhile (· ≠ '.') = whole ∧
      ((positional whole frac).dropWhile (· ≠ '.')).drop 1 = frac := by
  have notPoint : ∀ c ∈ whole, decide (c ≠ '.') = true := by
    intro c mem
    refine decide_eq_true ?_
    rintro rfl
    exact absurd (isDigit '.' mem) (by decide)
  unfold positional
  rw [List.takeWhile_append_of_pos notPoint, List.dropWhile_append_of_pos notPoint]
  split
  · rename_i none
    simp [none]
  · simp

/-- The parts of a positional text are read separately and added. -/
theorem parseStellarAmount_added {overflowChecks : Bool} {whole frac : List Char} {units : Nat}
    (denotes : Denotes 7 whole frac units) (fits : (value whole : ℤ) * 10000000 ≤ i64Max) :
    parseStellarAmount overflowChecks (positional whole frac) =
      uncheckedAdd overflowChecks (value whole * 10000000) (units - value whole * 10000000) := by
  obtain ⟨wholeEq, fracEq⟩ := positional_split frac denotes.whole_digits
  have bytes : byteLength frac = frac.length := byteLength_digits denotes.frac_digits
  have short := denotes.frac_length
  have exact := denotes.units
  have below := denotes.filled_lt
  obtain ⟨length, filled⟩ := denotes.filled
  have filledNe := List.ne_nil_of_length_eq_add_one length
  have wholeParsed := parseI64_digits denotes.whole_ne denotes.whole_digits (by unfold i64Max at *; omega)
  have fracParsed := parseI64_digits filledNe filled (by unfold i64Max at *; omega)
  unfold parseStellarAmount
  simp only [wholeEq, fracEq, bytes, wholeParsed, fracParsed]
  rw [if_neg (by omega), if_neg (by unfold fitsI64 i64Min i64Max at *; omega)]
  congr 1
  omega

/-- A positional text that stands for an amount in range is read as that amount. -/
theorem parseStellarAmount_positional {overflowChecks : Bool} {whole frac : List Char} {units : Nat}
    (denotes : Denotes 7 whole frac units) (fits : (units : ℤ) ≤ i64Max) :
    parseStellarAmount overflowChecks (positional whole frac) = .ok units := by
  have exact := denotes.units
  rw [parseStellarAmount_added denotes (by omega), uncheckedAdd, add_sub_cancel,
    if_pos (by unfold fitsI64 i64Min i64Max at *; omega)]

theorem render_in_range {units : Nat} (ten : 10 ≤ units) (fits : (units : ℤ) ≤ i64Max) :
    ∃ whole frac, render 7 units = positional whole frac ∧ Denotes 7 whole frac units := by
  have two : ¬ (Nat.toDigits 10 units).length ≤ 1 := by
    rw [Nat.length_toDigits_le_iff (by decide) (by decide)]
    omega
  have many : (Nat.toDigits 10 units).length ≤ 28 := by
    rw [Nat.length_toDigits_le_iff (by decide) (by decide)]
    unfold i64Max at fits
    omega
  exact render_positional (by omega) (by omega) (by omega)

/-- Read back exactly, and positive: from ten stroops on and within an `i64`. -/
theorem parseStellarAmount_render_iff (overflowChecks : Bool) (units : Nat) :
    0 < units ∧ parseStellarAmount overflowChecks (render 7 units) = .ok units ↔
      10 ≤ units ∧ (units : ℤ) ≤ i64Max := by
  constructor
  · rintro ⟨positive, parsed⟩
    refine ⟨?_, (parseStellarAmount_range parsed).2⟩
    by_contra small
    -- One significant digit at the seventh place: rendered as `de-7`.
    have refused : ∀ checks : Bool, ∀ n ∈ List.range 10, 0 < n → parseStellarAmount checks (render 7 n) ≠ .ok n := by
      decide +kernel
    exact refused overflowChecks units (List.mem_range.mpr (by omega)) positive parsed
  · rintro ⟨ten, fits⟩
    obtain ⟨whole, frac, rendered, denotes⟩ := render_in_range ten fits
    refine ⟨by omega, ?_⟩
    rw [rendered]
    exact parseStellarAmount_positional denotes fits

theorem parseF64_render {units : Nat} (ten : 10 ≤ units) (fits : (units : ℤ) ≤ i64Max) :
    ∃ x, parseF64 (render 7 units) = some x ∧ x.nonPositive = false := by
  obtain ⟨whole, frac, rendered, denotes⟩ := render_in_range ten fits
  refine ⟨_, by rw [rendered]; exact parseF64_positional denotes, ?_⟩
  have tiny : (1 : ℚ) / 2 ^ 1075 < 1 / 10 ^ 7 := by
    apply one_div_lt_one_div_of_lt (by norm_num)
    calc (10 : ℚ) ^ 7 < 2 ^ 24 := by norm_num
      _ ≤ 2 ^ 1075 := pow_le_pow_right₀ (by norm_num) (by norm_num)
  have atLeast : (1 : ℚ) / 10 ^ 7 ≤ (units : ℚ) / 10 ^ 7 := by
    have one : (1 : ℚ) ≤ units := by exact_mod_cast (by omega : 1 ≤ units)
    gcongr
  simpa [F64.nonPositive] using lt_of_lt_of_le tiny atLeast

theorem validateRebalanceJob_ok {job : Worker.LiquidityRebalanceJob} {source destination : F64}
    (sourceParsed : parseF64 job.sourceAmount.toList = some source) (sourcePositive : source.nonPositive = false)
    (destinationParsed : parseF64 job.destinationMinAmount.toList = some destination)
    (destinationPositive : destination.nonPositive = false) :
    validateRebalanceJob job = .ok () ↔
      isBlank job.treasuryAccount = false ∧ isBlank job.destinationAccount = false ∧ job.fromAsset ≠ job.toAsset ∧
        (job.fromAsset = "XLM" ∨ isBlank job.fromAssetIssuer = false) ∧
        (job.toAsset = "XLM" ∨ isBlank job.toAssetIssuer = false) := by
  unfold validateRebalanceJob
  simp only [sourceParsed, sourcePositive, destinationParsed, destinationPositive, Bool.false_eq_true, if_false]
  split
  · rename_i blank
    simp only [reduceCtorEq, false_iff]
    rintro ⟨treasury, destination, -⟩
    simp [treasury, destination] at blank
  rename_i accounts
  split
  · rename_i same
    simp [same]
  rename_i differ
  split
  · rename_i source
    simp only [reduceCtorEq, false_iff]
    rintro ⟨-, -, -, native | issuer, -⟩
    · exact source.1 native
    · simp [issuer] at source
  rename_i source
  split
  · rename_i destination
    simp only [reduceCtorEq, false_iff]
    rintro ⟨-, -, -, -, native | issuer⟩
    · exact destination.1 native
    · simp [issuer] at destination
  rename_i destination
  simp only [true_iff]
  refine ⟨by simpa using fun blank => accounts (.inl blank), by simpa using fun blank => accounts (.inr blank), differ,
    ?_, ?_⟩
  · by_contra neither
    push Not at neither
    exact source ⟨neither.1, by simpa using neither.2⟩
  · by_contra neither
    push Not at neither
    exact destination ⟨neither.1, by simpa using neither.2⟩

/-- Ten units and an `i64` of them, read off the number before rounding. -/
theorem inRange_iff {x : ℚ} (positive : 0 < x) :
    InRange x ↔ 10 ≤ (toFixed 7 x).toNat ∧ ((toFixed 7 x).toNat : ℤ) ≤ i64Max := by
  have nonneg : 0 ≤ toFixed 7 x := Int.floor_nonneg.mpr (by positivity)
  have low : 10 ≤ (toFixed 7 x).toNat ↔ (10 : ℤ) ≤ toFixed 7 x := by omega
  have high : ((toFixed 7 x).toNat : ℤ) ≤ i64Max ↔ toFixed 7 x < 2 ^ 63 := by
    unfold i64Max
    omega
  rw [low, high, toFixed, Int.le_floor, Int.floor_lt, InRange]
  push_cast
  constructor
  · rintro ⟨least, most⟩
    exact ⟨by linarith, by linarith⟩
  · rintro ⟨least, most⟩
    exact ⟨by linarith, by linarith⟩

/-- The worker can use a job exactly when both amounts are in its range and it is addressed. -/
theorem executable_iff_units (overflowChecks : Bool) (settings : Settings) (corridor : CorridorConfig)
    (now id sourceAmount destinationAmount : Nat) (reason : Reason) :
    Executable overflowChecks (plannedRow corridor now sourceAmount destinationAmount reason)
        (rebalanceJob settings corridor id sourceAmount destinationAmount) ↔
      (10 ≤ sourceAmount ∧ (sourceAmount : ℤ) ≤ i64Max) ∧ (10 ≤ destinationAmount ∧ (destinationAmount : ℤ) ≤ i64Max) ∧
        Addressed settings corridor := by
  obtain ⟨received, decoded, same⟩ :=
    decodeLiquidity_stringify (rebalanceJob settings corridor id sourceAmount destinationAmount)
  rw [Worker.LiquidityRebalanceJob.Same] at same
  have source : received.sourceAmount.toList = render 7 sourceAmount := by
    rw [same]
    exact String.toList_ofList
  have destination : received.destinationMinAmount.toList = render 7 destinationAmount := by
    rw [same]
    exact String.toList_ofList
  have accepted (sourceRange : 10 ≤ sourceAmount ∧ (sourceAmount : ℤ) ≤ i64Max)
      (destinationRange : 10 ≤ destinationAmount ∧ (destinationAmount : ℤ) ≤ i64Max) :
      validateRebalanceJob received = .ok () ↔ Addressed settings corridor := by
    obtain ⟨x, parsed, positive⟩ := parseF64_render sourceRange.1 sourceRange.2
    obtain ⟨y, parsed', positive'⟩ := parseF64_render destinationRange.1 destinationRange.2
    rw [← source] at parsed
    rw [← destination] at parsed'
    rw [validateRebalanceJob_ok parsed positive parsed' positive', same]
    constructor
    · rintro ⟨treasury, account, differ, fromIssuer, toIssuer⟩
      exact ⟨differ, treasury, account, fromIssuer, toIssuer⟩
    · rintro ⟨differ, treasury, account, fromIssuer, toIssuer⟩
      exact ⟨treasury, account, differ, fromIssuer, toIssuer⟩
  unfold Executable
  constructor
  · rintro ⟨positive, positive', received', decoded', valid, parsed, parsed'⟩
    rw [decoded] at decoded'
    cases decoded'
    rw [source] at parsed
    rw [destination] at parsed'
    have sourceRange := (parseStellarAmount_render_iff overflowChecks sourceAmount).mp ⟨positive, parsed⟩
    have destinationRange := (parseStellarAmount_render_iff overflowChecks destinationAmount).mp ⟨positive', parsed'⟩
    exact ⟨sourceRange, destinationRange, (accepted sourceRange destinationRange).mp valid⟩
  · rintro ⟨sourceRange, destinationRange, addressed⟩
    obtain ⟨positive, parsed⟩ := (parseStellarAmount_render_iff overflowChecks sourceAmount).mpr sourceRange
    obtain ⟨positive', parsed'⟩ := (parseStellarAmount_render_iff overflowChecks destinationAmount).mpr destinationRange
    rw [← source] at parsed
    rw [← destination] at parsed'
    exact ⟨positive, positive', received, decoded, (accepted sourceRange destinationRange).mpr addressed, parsed, parsed'⟩

/-- A dispatched job carries the allowed amount, rounded, and so does its row. -/
theorem dispatch_cases {settings : Settings} {corridor : CorridorConfig} {reserveAmount forecast : ℚ}
    {dailyCount dailyVolume : Nat} {latest : Option Row} {now id : Nat} {row : Row} {job : Api.LiquidityRebalanceJob}
    (dispatched : dispatch settings corridor reserveAmount forecast dailyCount dailyVolume latest now id =
      some (row, job)) :
    let amount := allowedAmount settings reserveAmount forecast dailyVolume
    let sourceAmount := amount / settings.rate corridor.fromAsset corridor.toAsset
    0 < amount ∧ ∃ reason,
      row = plannedRow corridor now (toFixed 7 sourceAmount).toNat (toFixed 7 amount).toNat reason ∧
        job = rebalanceJob settings corridor id (toFixed 7 sourceAmount).toNat (toFixed 7 amount).toNat := by
  unfold dispatch at dispatched
  simp only at dispatched
  split at dispatched
  · cases dispatched
  split at dispatched
  · rename_i sourceAmount destinationAmount reason concluded
    cases dispatched
    obtain ⟨_, impossible⟩ | ⟨count, volume, last, source, destination, countEq, volumeEq, lastEq, allowed, phases⟩ :=
      conclude_cases concluded
    · cases impossible
    · cases countEq
      cases volumeEq
      cases lastEq
      cases phases
      obtain ⟨-, -, positive, sourceEq, destinationEq⟩ := checkRebalanceGuards_allowed allowed
      subst sourceEq destinationEq
      exact ⟨positive, _, rfl, rfl⟩
  · cases dispatched

/-- Whatever was read and configured: the worker receives, accepts and reads back exactly
every job that a check dispatches, if and only if both amounts are rendered without an
exponent and fit, the assets differ, and no account or issuer is blank. -/
theorem dispatched_executable_iff (overflowChecks : Bool) (settings : Settings) (corridor : CorridorConfig)
    (reserveAmount forecast : ℚ) (dailyCount dailyVolume : Nat) (latest : Option Row) (now id : Nat) (row : Row)
    (job : Api.LiquidityRebalanceJob)
    (dispatched : dispatch settings corridor reserveAmount forecast dailyCount dailyVolume latest now id =
      some (row, job)) :
    Executable overflowChecks row job ↔
      InRange (allowedAmount settings reserveAmount forecast dailyVolume /
        settings.rate corridor.fromAsset corridor.toAsset) ∧
      InRange (allowedAmount settings reserveAmount forecast dailyVolume) ∧ Addressed settings corridor := by
  obtain ⟨positive, reason, rfl, rfl⟩ := dispatch_cases dispatched
  have source := inRange_iff (div_pos positive (settings.rate_pos corridor.fromAsset corridor.toAsset))
  have destination := inRange_iff positive
  rw [executable_iff_units, source, destination]

/-- A thousandth of a naira is missing: at 1600 naira to the dollar the treasury would send
0.0000006 dollars, and the worker is sent `6e-7`. -/
theorem small_rebalance_not_executable :
    ∃ row job, dispatch (.configured [usdcNgn] 1600 (by decide +kernel)) usdcNgn (999 / 1000) 5 0 0 none 0 0 =
        some (row, job) ∧
      job.sourceAmount = "6e-7" ∧ ∀ overflowChecks, ¬ Executable overflowChecks row job := by
  refine ⟨plannedRow usdcNgn 0 6 10000 (.reserveBelow (999 / 1000) 5),
    rebalanceJob (.configured [usdcNgn] 1600 (by decide +kernel)) usdcNgn 0 6 10000, by decide +kernel, by decide +kernel,
    fun overflowChecks executable => ?_⟩
  rw [executable_iff_units] at executable
  exact absurd executable.1.1 (by decide)

/-- A thousand naira short at the same rate: 0.625 dollars are sent. -/
theorem dispatched_executable_thousand :
    ∃ row job, dispatch (.configured [usdcNgn] 1600 (by decide +kernel)) usdcNgn 0 5000 0 0 none 0 0 = some (row, job) ∧
      Executable true row job := by
  refine ⟨plannedRow usdcNgn 0 6250000 10000000000 (.reserveBelow 0 5000),
    rebalanceJob (.configured [usdcNgn] 1600 (by decide +kernel)) usdcNgn 0 6250000 10000000000, by decide +kernel, ?_⟩
  refine (dispatched_executable_iff true (.configured [usdcNgn] 1600 (by decide +kernel)) usdcNgn 0 5000 0 0 none 0 0 _ _
    (by decide +kernel)).mpr ⟨by decide +kernel, by decide +kernel, ?_⟩
  exact ⟨by decide +kernel, by decide +kernel, by decide +kernel, .inr (by decide +kernel), .inr (by decide +kernel)⟩

end AfroPay.RebalanceAmounts
