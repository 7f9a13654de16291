import AfroPay.FxRateLaw
import AfroPay.NumberReading

/-! Simulated transfers: a path of at most two hops, a rate for each hop from the anchor service
or from the static rates, and a quote with a claim of freshness. Other calls may come between
the hops. Numbers are exact. -/
namespace AfroPay.TransferSimulation
open FxRates NumberReading NumberText Runs

inductive SimulatedAssetCode where
  | xlm
  | usdc
  | ngn
  deriving DecidableEq

def SimulatedAssetCode.code : SimulatedAssetCode → String
  | .xlm => "XLM"
  | .usdc => "USDC"
  | .ngn => "NGN"

/-- The rates of a scenario are positive, and the slippage is at most the whole amount. -/
structure TransferSimulationScenario where
  sourceAsset : SimulatedAssetCode
  destinationAsset : SimulatedAssetCode
  sourceAmount : String
  destinationTrustlines : List SimulatedAssetCode
  rates : String → Option ℚ
  maxSlippageBps : Option ℚ
  rates_pos : ∀ key, ∀ rate ∈ rates key, 0 < rate
  slippage_bounds : ∀ bps ∈ maxSlippageBps, 0 ≤ bps ∧ bps ≤ 10000

structure TransferSimulationIssue where
  code : String
  message : String
  deriving DecidableEq

inductive SimulationStatus where
  | ok
  | blocked
  deriving DecidableEq

structure TransferSimulationResult where
  status : SimulationStatus
  path : List SimulatedAssetCode
  sourceAmount : String
  estimatedDestinationAmount : Option (List Char)
  minimumDestinationAmount : Option (List Char)
  effectiveRate : Option ℚ
  issues : List TransferSimulationIssue
  rateExpiresAt : Option ℚ
  rateFresh : Bool
  deriving DecidableEq

def defaultRates (key : String) : Option ℚ :=
  if key = "XLM:USDC" then some (11 / 100)
  else if key = "USDC:XLM" then some (9090909 / 1000000)
  else if key = "USDC:NGN" then some 1550
  else if key = "NGN:USDC" then some (64516 / 100000000)
  else none

def rateKey (fromAsset toAsset : SimulatedAssetCode) : String := fromAsset.code ++ ":" ++ toAsset.code

/-- `value.toFixed(7)` without the zeros at its end. From 10^21 on `toFixed` gives the text of
the number, with an exponent; a double of that size is a whole number. -/
def decimalString (value : ℚ) : List Char :=
  if value < 10 ^ 21 then stripZeros (fixedText 7 (toFixed 7 value).toNat) else stripZeros (render 0 ⌊value⌋.toNat)

/-- Rates of the scenario come before those of the service. -/
def staticRates (scenario : TransferSimulationScenario) (key : String) : Option ℚ :=
  (scenario.rates key).or (defaultRates key)

/-- A rate that is there and not zero. -/
def truthy (rate : Option ℚ) : Bool := rate.any (· ≠ 0)

def resolvePath (sourceAsset destinationAsset : SimulatedAssetCode) (rates : String → Option ℚ) :
    Option (List SimulatedAssetCode) :=
  if sourceAsset = destinationAsset then some [sourceAsset]
  else if truthy (rates (rateKey sourceAsset destinationAsset)) then some [sourceAsset, destinationAsset]
  else if sourceAsset ≠ .usdc ∧ destinationAsset ≠ .usdc ∧ truthy (rates (rateKey sourceAsset .usdc)) ∧
      truthy (rates (rateKey .usdc destinationAsset)) then
    some [sourceAsset, .usdc, destinationAsset]
  else none

/-- What happens before a hop's rate is read, and what the provider does if it is asked for it. -/
structure Turn where
  before : List FxRates.Event
  outcome : Outcome
  elapsedMs : Nat

/-- The rate of a hop has been read, in the world that the reading left. -/
structure Hop where
  fromAsset : SimulatedAssetCode
  toAsset : SimulatedAssetCode
  world : World
  /-- The rate that was fetched and when it expires. -/
  fetched : Option (ℚ × Option ℚ)

def Hop.key (hop : Hop) : String := rateKey hop.fromAsset hop.toAsset

def hopCall (fromAsset toAsset : SimulatedAssetCode) (turn : Turn) : Call :=
  ⟨fromAsset.code, toAsset.code, turn.outcome, turn.elapsedMs⟩

/-- What throws is as good as no rate. -/
def readHop (settings : Settings) (w : World) (fromAsset toAsset : SimulatedAssetCode) (turn : Turn) : Hop :=
  let w := run (step settings) w turn.before
  let (after, answer) := getFxRate settings w (hopCall fromAsset toAsset turn)
  match answer with
  | .ok result => ⟨fromAsset, toAsset, after, result.rate.map fun rate => (rate, result.rateExpiresAt)⟩
  | .error _ => ⟨fromAsset, toAsset, after, none⟩

/-- The hops of a path, one after another. -/
def readHops (settings : Settings) (w : World) : List SimulatedAssetCode → (Nat → Turn) → List Hop
  | fromAsset :: toAsset :: rest, turns =>
    let hop := readHop settings w fromAsset toAsset (turns 0)
    hop :: readHops settings hop.world (toAsset :: rest) fun n => turns (n + 1)
  | _, _ => []

/-- A fetched rate that is more than five per cent off the default. -/
def staleIssue (hop : Hop) : Option TransferSimulationIssue :=
  match hop.fetched, defaultRates hop.key with
  | some (rate, _), some staticDefaultRate =>
    if 5 / 100 < |rate - staticDefaultRate| / staticDefaultRate then
      some ⟨"STALE_RATE", "Live rate for " ++ hop.key ++ " deviates from the static default by more than 5%."⟩
    else none
  | _, _ => none

/-- `resolvedRates[key] = ...` for every hop, in order. -/
def resolvedRates (rates : String → Option ℚ) (hops : List Hop) : String → Option ℚ :=
  hops.foldl (fun resolved hop => Function.update resolved hop.key ((hop.fetched.map (·.1)).or (rates hop.key)))
    fun _ => none

def effectiveRate : List SimulatedAssetCode → (String → Option ℚ) → ℚ → ℚ
  | fromAsset :: toAsset :: rest, rates, rate =>
    effectiveRate (toAsset :: rest) rates (rate * (rates (rateKey fromAsset toAsset)).getD 1)
  | _, _, rate => rate

def earlier (least expiresAt : Option ℚ) : Option ℚ :=
  match least, expiresAt with
  | none, _ => expiresAt
  | some least, some date => some (if date < least then date else least)
  | least, none => least

/-- The earliest of the times, if none of them is missing. -/
def earliest (expiresAts : List (Option ℚ)) : Option ℚ :=
  if expiresAts.any Option.isNone then none else expiresAts.foldl earlier none

def blockingIssues (scenario : TransferSimulationScenario) (amount : Option ℚ)
    (path : Option (List SimulatedAssetCode)) : List TransferSimulationIssue :=
  (if amount.any (0 < ·) then [] else [⟨"INVALID_AMOUNT", "Source amount must be a positive number."⟩]) ++
    (if scenario.destinationAsset ≠ .xlm ∧ scenario.destinationAsset ∉ scenario.destinationTrustlines then
      [⟨"MISSING_DESTINATION_TRUSTLINE",
        "Destination account must trust " ++ scenario.destinationAsset.code ++ " before receiving it."⟩]
    else []) ++
    (if path.isNone then
      [⟨"NO_PATH", "No simulated path exists from " ++ scenario.sourceAsset.code ++ " to " ++
        scenario.destinationAsset.code ++ "."⟩]
    else [])

/-- The hops whose rates a simulation reads. -/
def simulatedHops (settings : Settings) (w : World) (scenario : TransferSimulationScenario) (turns : Nat → Turn) :
    List Hop :=
  match resolvePath scenario.sourceAsset scenario.destinationAsset (staticRates scenario) with
  | some path => readHops settings w path turns
  | none => []

def simulate (settings : Settings) (w : World) (scenario : TransferSimulationScenario) (turns : Nat → Turn) :
    World × TransferSimulationResult :=
  let amount := number scenario.sourceAmount.toList
  let rates := staticRates scenario
  let path := resolvePath scenario.sourceAsset scenario.destinationAsset rates
  let blocking := blockingIssues scenario amount path
  let hops := simulatedHops settings w scenario turns
  let after := (hops.getLast?.map (·.world)).getD w
  let issues := blocking ++ hops.filterMap staleIssue
  let rateFresh := hops.all (·.fetched.isSome)
  let rateExpiresAt := if rateFresh ∧ hops ≠ [] then earliest (hops.map fun hop => hop.fetched.bind (·.2)) else none
  match blocking, path, amount with
  | [], some path, some amount =>
    let effectiveRate := effectiveRate path (resolvedRates rates hops) 1
    let estimatedDestinationAmount := amount * effectiveRate
    let slippageBps := scenario.maxSlippageBps.getD 50
    let minimumDestinationAmount := estimatedDestinationAmount * (1 - slippageBps / 10000)
    (after, ⟨.ok, path, scenario.sourceAmount, some (decimalString estimatedDestinationAmount),
      some (decimalString minimumDestinationAmount), some effectiveRate, issues, rateExpiresAt, rateFresh⟩)
  | _, path, _ =>
    (after, ⟨.blocked, path.getD [scenario.sourceAsset, scenario.destinationAsset], scenario.sourceAmount, none, none,
      none, issues, rateExpiresAt, rateFresh⟩)

end AfroPay.TransferSimulation
