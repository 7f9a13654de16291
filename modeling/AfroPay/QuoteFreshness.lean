import AfroPay.TransferSimulation
import Mathlib.Algebra.Order.BigOperators.GroupWithZero.List
import Mathlib.Order.Bounds.Basic

/-! What a simulated quote says of itself. The rates of its hops were all confirmed by contacts
of the provider; they are fresh, as the quote says when every hop has a rate, as long as no hop
is answered from a cache entry that is too old. -/
namespace AfroPay.TransferSimulation
open FxRates NumberReading NumberText Runs

inductive Event where
  | fx (event : FxRates.Event)
  | simulate (scenario : TransferSimulationScenario) (turns : Nat → Turn)

def step (settings : Settings) (w : World) : Event → World
  | .fx event => FxRates.step settings w event
  | .simulate scenario turns => (simulate settings w scenario turns).1

/-- The provider confirms the rate now, or the cache entry that is served is not too old then. -/
def Timely (settings : Settings) (w : World) (call : Call) : Prop :=
  let opened := isCircuitOpen settings (getBreaker w (fxKey call.pair)) w.now
  if opened = false ∧ call.outcome.isRate then 0 ≤ settings.maxCacheAgeSeconds
  else ∀ payload ∈ readCache w (fxKey call.pair),
    (if opened then (w.now : ℚ) else w.now + call.elapsedMs) ≤ payload.fetchedAt + settings.maxCacheAgeSeconds * 1000

instance (settings : Settings) (w : World) (call : Call) : Decidable (Timely settings w call) := by
  unfold Timely
  infer_instance

/-- Every hop is timely when its turn comes. -/
def TimelyHops (settings : Settings) : World → List SimulatedAssetCode → (Nat → Turn) → Prop
  | w, fromAsset :: toAsset :: rest, turns =>
    Timely settings (run (FxRates.step settings) w (turns 0).before) (hopCall fromAsset toAsset (turns 0)) ∧
      TimelyHops settings (readHop settings w fromAsset toAsset (turns 0)).world (toAsset :: rest)
        fun n => turns (n + 1)
  | _, _, _ => True

instance decidableTimelyHops (settings : Settings) :
    ∀ (w : World) (path : List SimulatedAssetCode) (turns : Nat → Turn), Decidable (TimelyHops settings w path turns)
  | w, fromAsset :: toAsset :: rest, turns =>
    have := decidableTimelyHops settings (readHop settings w fromAsset toAsset (turns 0)).world (toAsset :: rest)
      fun n => turns (n + 1)
    inferInstanceAs (Decidable (_ ∧ _))
  | _, [], _ => isTrue trivial
  | _, [_], _ => isTrue trivial

/-- The rate that a hop contributes. -/
def hopRate (scenario : TransferSimulationScenario) (hop : Hop) : ℚ :=
  ((hop.fetched.map (·.1)).or (staticRates scenario hop.key)).getD 1

/-- The hops are timely, and the amount at their rates is written without an exponent. -/
def InTime (settings : Settings) (w : World) : Event → Prop
  | .fx _ => True
  | .simulate scenario turns =>
    (∀ path ∈ resolvePath scenario.sourceAsset scenario.destinationAsset (staticRates scenario),
      TimelyHops settings w path turns) ∧
    ∀ amount ∈ number scenario.sourceAmount.toList,
      amount * ((simulatedHops settings w scenario turns).map (hopRate scenario)).prod < 10 ^ 21

instance (settings : Settings) (w : World) : ∀ event, Decidable (InTime settings w event)
  | .fx _ => isTrue trivial
  | .simulate _ _ => inferInstanceAs (Decidable (_ ∧ _))

def Hop.pair (hop : Hop) : Pair := (norm hop.fromAsset.code, norm hop.toAsset.code)

/-- A contact with the provider confirmed the rate of the hop, not too long before it was read,
and the rate expires so long after that contact. -/
def Confirmed (settings : Settings) (hop : Hop) (rate expiresAt : ℚ) : Prop :=
  ∃ contact ∈ hop.world.contactsFor hop.pair, contact.Confirms rate ∧
    (hop.world.now : ℚ) - contact.answeredAt ≤ settings.maxCacheAgeSeconds * 1000 ∧
    expiresAt = contact.answeredAt + settings.maxCacheAgeSeconds * 1000

/-- The quote is what it says it is. -/
structure Honest (settings : Settings) (hops : List Hop) (scenario : TransferSimulationScenario)
    (result : TransferSimulationResult) : Prop where
  fresh : result.status = .ok → result.rateFresh → hops ≠ [] →
    (∀ hop ∈ hops, ∃ rate expiresAt, hop.fetched = some (rate, some expiresAt) ∧ Confirmed settings hop rate expiresAt) ∧
    ∃ expiresAt, result.rateExpiresAt = some expiresAt ∧
      IsLeast {expiry | ∃ hop ∈ hops, ∃ rate, hop.fetched = some (rate, some expiry)} expiresAt
  product : result.status = .ok →
    hops.map (fun hop => (hop.fromAsset, hop.toAsset)) = result.path.zip result.path.tail ∧
      result.effectiveRate = some (hops.map (hopRate scenario)).prod
  slippage : result.status = .ok → ∃ estimatedText minimumText estimated minimum,
    result.estimatedDestinationAmount = some estimatedText ∧ result.minimumDestinationAmount = some minimumText ∧
      number estimatedText = some estimated ∧ number minimumText = some minimum ∧ minimum ≤ estimated

def HonestEvent (settings : Settings) (w : World) : Event → Prop
  | .fx _ => True
  | .simulate scenario turns =>
    Honest settings (simulatedHops settings w scenario turns) scenario (simulate settings w scenario turns).2

variable {settings : Settings} {w : World} {call : Call}

section Rates

/-- A code pair without colons shares its key with no other pair. -/
theorem own_key {pair other : Pair} (free : ':' ∉ pair.1.toList ∧ ':' ∉ pair.2.toList)
    (shared : fxKey other = fxKey pair) : other = pair := by
  have texts := congrArg String.toList shared
  simp only [fxKey, String.toList_append] at texts
  have marks := congrArg (List.count ':') texts
  simp only [List.count_append, List.count_eq_zero.mpr free.1, List.count_eq_zero.mpr free.2] at marks
  have single : List.count ':' ":".toList = 1 := by decide
  refine fxKey_injective ⟨List.count_eq_zero.mp ?_, List.count_eq_zero.mp ?_⟩ free shared <;> omega

/-- A rate that is served from the cache was confirmed when it was fetched. -/
theorem cached_confirmed {now : Nat} {rate : ℚ} {circuitOpen : Bool} (replayed : Replayed settings w)
    (own : ∀ contact ∈ w.contacts, fxKey contact.pair = fxKey call.pair → contact.pair = call.pair)
    (served : (buildCachedResult settings now (readCache w (fxKey call.pair)) call circuitOpen).rate = some rate) :
    ∃ contact ∈ w.contactsFor call.pair, ∃ payload ∈ readCache w (fxKey call.pair), contact.Confirms rate ∧
      payload.fetchedAt = contact.answeredAt ∧
      (buildCachedResult settings now (readCache w (fxKey call.pair)) call circuitOpen).rateExpiresAt =
        some (contact.answeredAt + settings.maxCacheAgeSeconds * 1000) := by
  cases found : readCache w (fxKey call.pair) with
  | none =>
    rw [found] at served
    cases served
  | some payload =>
    obtain ⟨contact, entry, latest, confirms, fetched, -⟩ := readCache_confirmed replayed own found
    rw [found] at served
    cases served
    refine ⟨contact, List.mem_of_find?_eq_some latest, payload, rfl, confirms, fetched, ?_⟩
    simp only [buildCachedResult, fetched]

/-- A new rate expires a cache age after the answer. -/
theorem fetched_expiry {external : ℚ} {positive : 0 < external} {result : FxRateResult}
    (closed : isCircuitOpen settings (getBreaker w (fxKey call.pair)) w.now = false)
    (asked : call.outcome = .rate external positive) (returned : (getFxRate settings w call).2 = .ok result) :
    result.rateExpiresAt = some ((call.contact w).answeredAt + settings.maxCacheAgeSeconds * 1000) := by
  obtain ⟨fromCode, toCode, outcome, elapsedMs⟩ := call
  subst asked
  simp only [getFxRate, closed, Bool.false_eq_true, if_false] at returned
  cases kept : expiry settings (w.now + elapsedMs) with
  | error refused =>
    rw [kept] at returned
    cases returned
  | ok expiresAt =>
    rw [kept] at returned
    cases returned
    rfl

/-- The rate that a call answers with was confirmed by a contact that is on record then. -/
theorem rate_confirmed {result : FxRateResult} {rate : ℚ} (replayed : Replayed settings w)
    (own : ∀ contact ∈ w.contacts, fxKey contact.pair = fxKey call.pair → contact.pair = call.pair)
    (returned : (getFxRate settings w call).2 = .ok result) (served : result.rate = some rate) :
    ∃ contact ∈ (getFxRate settings w call).1.contactsFor call.pair, contact.Confirms rate ∧
      result.rateExpiresAt = some (contact.answeredAt + settings.maxCacheAgeSeconds * 1000) ∧
      (Timely settings w call →
        ((getFxRate settings w call).1.now : ℚ) - contact.answeredAt ≤ settings.maxCacheAgeSeconds * 1000) := by
  cases opened : isCircuitOpen settings (getBreaker w (fxKey call.pair)) w.now with
  | true =>
    rw [getFxRate_open opened] at returned ⊢
    cases returned
    obtain ⟨contact, listed, payload, found, confirms, fetched, expires⟩ := cached_confirmed replayed own served
    refine ⟨contact, listed, confirms, expires, fun timely => ?_⟩
    simp only [Timely, opened, Bool.true_eq_false, false_and, if_false, if_true] at timely
    have age := timely payload found
    rw [fetched] at age
    linarith only [age]
  | false =>
    obtain ⟨now, contacts, -⟩ := asked_changes opened
    rw [now, World.contactsFor, contacts]
    cases outcome : call.outcome.isRate with
    | false =>
      obtain ⟨circuitOpen, cached⟩ := asked_cached opened outcome
      rw [cached] at returned
      cases returned
      obtain ⟨contact, listed, payload, found, confirms, fetched, expires⟩ := cached_confirmed replayed own served
      refine ⟨contact, (List.sublist_cons_self _ _).filter _ |>.subset listed, confirms, expires, fun timely => ?_⟩
      simp only [Timely, opened, outcome, Bool.false_eq_true, and_false, if_false] at timely
      have age := timely payload found
      rw [fetched] at age
      push_cast
      linarith only [age]
    | true =>
      cases asked : call.outcome with
      | threw => rw [asked] at outcome; cases outcome
      | noRate => rw [asked] at outcome; cases outcome
      | rate external positive =>
        have fetched := asked_fetched opened asked returned
        rw [served, Option.some.injEq] at fetched
        refine ⟨call.contact w, List.mem_filter.mpr ⟨List.mem_cons_self, by simp⟩, ?_, ?_, fun timely => ?_⟩
        · exact ⟨external, positive, asked, by rw [fetched]; exact quoted_near _ external⟩
        · exact fetched_expiry opened asked returned
        · simp only [Timely, opened, outcome, and_self, if_true] at timely
          simp only [Call.contact, sub_self]
          positivity

/-- What is within half a per cent of a positive rate is positive. -/
theorem confirmed_pos {contact : Contact} {rate : ℚ} (confirms : contact.Confirms rate) : 0 < rate := by
  obtain ⟨external, positive, -, near⟩ := confirms
  rw [div_le_iff₀ positive, deltaThreshold] at near
  have upper := (abs_le.mp near).2
  linarith only [upper, positive]

end Rates

section Hops
variable {scenario : TransferSimulationScenario} {fromAsset toAsset : SimulatedAssetCode} {turn : Turn}
  {path : List SimulatedAssetCode} {turns : Nat → Turn}

theorem readHop_assets : (readHop settings w fromAsset toAsset turn).fromAsset = fromAsset ∧
    (readHop settings w fromAsset toAsset turn).toAsset = toAsset := by
  unfold readHop
  dsimp only
  split <;> exact ⟨rfl, rfl⟩

theorem readHop_world : (readHop settings w fromAsset toAsset turn).world =
    (getFxRate settings (run (FxRates.step settings) w turn.before) (hopCall fromAsset toAsset turn)).1 := by
  unfold readHop
  dsimp only
  split <;> rfl

theorem readHop_fetched {rate : ℚ} {expiry : Option ℚ}
    (fetched : (readHop settings w fromAsset toAsset turn).fetched = some (rate, expiry)) :
    ∃ result, (getFxRate settings (run (FxRates.step settings) w turn.before) (hopCall fromAsset toAsset turn)).2 =
      .ok result ∧ result.rate = some rate ∧ result.rateExpiresAt = expiry := by
  unfold readHop at fetched
  dsimp only at fetched
  split at fetched
  · rename_i result returned
    obtain ⟨_, served, same⟩ := Option.map_eq_some_iff.mp fetched
    obtain ⟨rfl, rfl⟩ := Prod.mk.inj same
    exact ⟨result, returned, served, rfl⟩
  · cases fetched

theorem run_replayed (events : List FxRates.Event) (replayed : Replayed settings w) :
    Replayed settings (run (FxRates.step settings) w events) :=
  run_invariant (Replayed settings) (fun _ event kept => step_replayed event kept) replayed events

theorem readHop_replayed (replayed : Replayed settings w) :
    Replayed settings (readHop settings w fromAsset toAsset turn).world := by
  rw [readHop_world]
  exact call_replayed (run_replayed turn.before replayed)

/-- The currency codes of simulated assets have no colon. -/
theorem code_free (asset : SimulatedAssetCode) : ':' ∉ (norm asset.code).toList := by
  cases asset <;> decide +kernel

/-- The rates of all hops were confirmed, and not too long before if the hops are timely. -/
theorem readHops_confirmed (replayed : Replayed settings w) (hop : Hop) (listed : hop ∈ readHops settings w path turns)
    {rate : ℚ} {expiry : Option ℚ} (fetched : hop.fetched = some (rate, expiry)) :
    ∃ contact ∈ hop.world.contactsFor hop.pair, contact.Confirms rate ∧
      expiry = some (contact.answeredAt + settings.maxCacheAgeSeconds * 1000) ∧
      (TimelyHops settings w path turns →
        (hop.world.now : ℚ) - contact.answeredAt ≤ settings.maxCacheAgeSeconds * 1000) := by
  induction path generalizing w turns with
  | nil => cases listed
  | cons fromAsset rest ih =>
    cases rest with
    | nil => cases listed
    | cons toAsset rest =>
      rw [readHops] at listed
      rcases List.mem_cons.mp listed with rfl | later
      · obtain ⟨result, returned, served, expires⟩ := readHop_fetched fetched
        have free : ':' ∉ (hopCall fromAsset toAsset (turns 0)).pair.1.toList ∧
            ':' ∉ (hopCall fromAsset toAsset (turns 0)).pair.2.toList := ⟨code_free fromAsset, code_free toAsset⟩
        obtain ⟨contact, known, confirms, expiry_eq, age⟩ :=
          rate_confirmed (run_replayed (turns 0).before replayed) (fun contact _ shared => own_key free shared) returned
            served
        refine ⟨contact, ?_, confirms, by rw [← expires, expiry_eq], fun timely => ?_⟩
        · rw [readHop_world, Hop.pair, readHop_assets.1, readHop_assets.2]
          exact known
        · rw [readHop_world]
          exact age timely.1
      · obtain ⟨contact, known, confirms, expires, age⟩ := ih (readHop_replayed replayed) later
        exact ⟨contact, known, confirms, expires, fun timely => age timely.2⟩

theorem readHops_replayed (replayed : Replayed settings w) (hop : Hop) (listed : hop ∈ readHops settings w path turns) :
    Replayed settings hop.world := by
  induction path generalizing w turns with
  | nil => cases listed
  | cons fromAsset rest ih =>
    cases rest with
    | nil => cases listed
    | cons toAsset rest =>
      rw [readHops] at listed
      rcases List.mem_cons.mp listed with rfl | later
      · exact readHop_replayed replayed
      · exact ih (readHop_replayed replayed) later

theorem readHops_assets (settings : Settings) (path : List SimulatedAssetCode) (w : World) (turns : Nat → Turn) :
    (readHops settings w path turns).map (fun hop => (hop.fromAsset, hop.toAsset)) = path.zip path.tail := by
  induction path generalizing w turns with
  | nil => rfl
  | cons fromAsset rest ih =>
    cases rest with
    | nil => rfl
    | cons toAsset rest =>
      rw [readHops, List.map_cons, ih, readHop_assets.1, readHop_assets.2]
      rfl

end Hops

section Product
variable {scenario : TransferSimulationScenario} {hops : List Hop}

/-- Every key of the hops holds the rate of its hop. -/
theorem resolvedRates_key (rates : String → Option ℚ) (distinct : (hops.map Hop.key).Nodup) (hop : Hop)
    (listed : hop ∈ hops) : resolvedRates rates hops hop.key = (hop.fetched.map (·.1)).or (rates hop.key) := by
  unfold resolvedRates
  generalize (fun _ => none : String → Option ℚ) = resolved
  induction hops generalizing resolved with
  | nil => cases listed
  | cons first rest ih =>
    rw [List.map_cons, List.nodup_cons] at distinct
    rw [List.foldl_cons]
    rcases List.mem_cons.mp listed with rfl | later
    · have kept (others : List Hop) (apart : hop.key ∉ others.map Hop.key) (held : String → Option ℚ) :
          others.foldl (fun resolved hop =>
            Function.update resolved hop.key ((hop.fetched.map (·.1)).or (rates hop.key))) held hop.key = held hop.key := by
        induction others generalizing held with
        | nil => rfl
        | cons other others ih' =>
          rw [List.map_cons, List.mem_cons, not_or] at apart
          rw [List.foldl_cons, ih' apart.2, Function.update_of_ne apart.1]
      rw [kept rest distinct.1, Function.update_self]
    · exact ih distinct.2 later _

/-- Along a path the rates are multiplied. -/
theorem effectiveRate_eq (rates : String → Option ℚ) (path : List SimulatedAssetCode) (rate : ℚ)
    (hops : List Hop) (along : hops.map (fun hop => (hop.fromAsset, hop.toAsset)) = path.zip path.tail) :
    effectiveRate path rates rate = rate * (hops.map fun hop => (rates hop.key).getD 1).prod := by
  induction path generalizing rate hops with
  | nil =>
    rw [List.zip_nil_left, List.map_eq_nil_iff] at along
    simp [along, effectiveRate]
  | cons fromAsset rest ih =>
    cases rest with
    | nil =>
      rw [List.tail_cons, List.zip_nil_right, List.map_eq_nil_iff] at along
      simp [along, effectiveRate]
    | cons toAsset rest =>
      cases hops with
      | nil => cases along
      | cons hop hops =>
        simp only [List.map_cons, List.tail_cons, List.zip_cons_cons, List.cons.injEq, Prod.mk.injEq] at along
        obtain ⟨⟨rfl, rfl⟩, along⟩ := along
        rw [effectiveRate, ih _ hops along, List.map_cons, List.prod_cons, mul_assoc, Hop.key]

/-- The hops of a path have different keys. -/
theorem path_keys {source destination : SimulatedAssetCode} {rates : String → Option ℚ} {path : List SimulatedAssetCode}
    (resolved : resolvePath source destination rates = some path) :
    ((path.zip path.tail).map fun hop => rateKey hop.1 hop.2).Nodup := by
  unfold resolvePath at resolved
  split at resolved
  · cases resolved
    simp
  split at resolved
  · cases resolved
    simp
  split at resolved
  · rename_i through
    cases resolved
    have apart : rateKey source .usdc ≠ rateKey .usdc destination := by
      cases source with
      | usdc => exact absurd rfl through.1
      | xlm => cases destination <;> decide +kernel
      | ngn => cases destination <;> decide +kernel
    simp [apart]
  · cases resolved

end Product

section Quote
variable {scenario : TransferSimulationScenario} {turns : Nat → Turn}

/-- Of times that are all there the least is found. -/
theorem earliest_isLeast {expiries : List ℚ} (nonempty : expiries ≠ []) :
    ∃ least, earliest (expiries.map some) = some least ∧ IsLeast {expiry | expiry ∈ expiries} least := by
  have all : (expiries.map some).any Option.isNone = false := by simp
  rw [earliest, all, if_neg Bool.false_ne_true]
  obtain ⟨first, rest, rfl⟩ := List.exists_cons_of_ne_nil nonempty
  rw [List.map_cons, List.foldl_cons]
  have fold (others : List ℚ) (seen : List ℚ) (least : ℚ) (found : IsLeast {expiry | expiry ∈ seen} least) :
      ∃ result, (others.map some).foldl earlier (some least) = some result ∧
        IsLeast {expiry | expiry ∈ seen ++ others} result := by
    induction others generalizing seen least with
    | nil => exact ⟨least, rfl, by simpa using found⟩
    | cons date others ih =>
      have next : IsLeast {expiry | expiry ∈ seen ++ [date]} (if date < least then date else least) := by
        constructor
        · split
          · simp
          · exact List.mem_append_left _ found.1
        · intro expiry member
          rcases List.mem_append.mp member with early | last
          · have above := found.2 early
            split
            · rename_i less
              exact (less.trans_le above).le
            · exact above
          · rw [List.mem_singleton.mp last]
            split
            · exact le_rfl
            · rename_i more
              exact not_lt.mp more
      obtain ⟨result, folded, isLeast⟩ := ih _ _ next
      exact ⟨result, folded, by simpa using isLeast⟩
  exact fold rest [first] first (by simp [IsLeast, lowerBounds])

/-- What is said of a quote that is given. -/
theorem simulate_ok (ok : (simulate settings w scenario turns).2.status = .ok) :
    ∃ path amount, resolvePath scenario.sourceAsset scenario.destinationAsset (staticRates scenario) = some path ∧
      number scenario.sourceAmount.toList = some amount ∧ 0 < amount ∧
      (simulate settings w scenario turns).2.path = path ∧
      (let rate := effectiveRate path (resolvedRates (staticRates scenario) (simulatedHops settings w scenario turns)) 1
      (simulate settings w scenario turns).2.effectiveRate = some rate ∧
      (simulate settings w scenario turns).2.estimatedDestinationAmount = some (decimalString (amount * rate)) ∧
      (simulate settings w scenario turns).2.minimumDestinationAmount =
        some (decimalString (amount * rate * (1 - scenario.maxSlippageBps.getD 50 / 10000)))) := by
  unfold simulate at ok ⊢
  dsimp only at ok ⊢
  split at ok
  · rename_i path amount blocking resolved read
    have positive : 0 < amount := by
      unfold blockingIssues at blocking
      simp only [List.append_eq_nil_iff] at blocking
      have valid := blocking.1.1
      by_contra low
      rw [read] at valid
      simp [low] at valid
    exact ⟨path, amount, resolved, read, positive, rfl, rfl, rfl, rfl⟩
  · cases ok

/-- Amounts that are written without an exponent are read back rounded to seven places. -/
theorem number_decimalString {value : ℚ} (short : value < 10 ^ 21) :
    number (decimalString value) = some (((toFixed 7 value).toNat : ℚ) / 10 ^ 7) := by
  obtain ⟨whole, frac, text, denotes⟩ := stripZeros_fixedText (Nat.succ_pos 6) (toFixed 7 value).toNat
  rw [decimalString, if_pos short, text, number_positional denotes]

theorem toFixed_mono {places : Nat} {small large : ℚ} (le : small ≤ large) :
    toFixed places small ≤ toFixed places large := by
  unfold toFixed
  gcongr

theorem simulate_replayed (replayed : Replayed settings w) :
    Replayed settings (simulate settings w scenario turns).1 := by
  have after : (simulate settings w scenario turns).1 =
      ((simulatedHops settings w scenario turns).getLast?.map (·.world)).getD w := by
    unfold simulate
    dsimp only
    split <;> rfl
  rw [after]
  cases last : (simulatedHops settings w scenario turns).getLast? with
  | none => exact replayed
  | some hop =>
    have listed := List.mem_of_getLast? last
    unfold simulatedHops at listed
    split at listed
    · exact readHops_replayed replayed hop listed
    · cases listed

theorem simulate_freshness :
    (simulate settings w scenario turns).2.rateFresh =
        (simulatedHops settings w scenario turns).all (·.fetched.isSome) ∧
      (simulate settings w scenario turns).2.rateExpiresAt =
        if (simulatedHops settings w scenario turns).all (·.fetched.isSome) ∧ simulatedHops settings w scenario turns ≠ []
        then earliest ((simulatedHops settings w scenario turns).map fun hop => hop.fetched.bind (·.2)) else none := by
  unfold simulate
  dsimp only
  split <;> exact ⟨rfl, rfl⟩

theorem simulatedHops_eq {path : List SimulatedAssetCode}
    (resolved : resolvePath scenario.sourceAsset scenario.destinationAsset (staticRates scenario) = some path) :
    simulatedHops settings w scenario turns = readHops settings w path turns := by
  rw [simulatedHops, resolved]

/-- A fresh quote expires with the first of its rates. -/
theorem quote_fresh (replayed : Replayed settings w) (inTime : InTime settings w (.simulate scenario turns))
    (ok : (simulate settings w scenario turns).2.status = .ok)
    (fresh : (simulate settings w scenario turns).2.rateFresh)
    (nonempty : simulatedHops settings w scenario turns ≠ []) :
    (∀ hop ∈ simulatedHops settings w scenario turns, ∃ rate expiresAt, hop.fetched = some (rate, some expiresAt) ∧
        Confirmed settings hop rate expiresAt) ∧
      ∃ expiresAt, (simulate settings w scenario turns).2.rateExpiresAt = some expiresAt ∧
        IsLeast {expiry | ∃ hop ∈ simulatedHops settings w scenario turns, ∃ rate,
          hop.fetched = some (rate, some expiry)} expiresAt := by
  obtain ⟨path, -, resolved, -⟩ := simulate_ok ok
  rw [simulate_freshness.1] at fresh
  have confirmed : ∀ hop ∈ simulatedHops settings w scenario turns, ∃ rate expiresAt,
      hop.fetched = some (rate, some expiresAt) ∧ Confirmed settings hop rate expiresAt := by
    intro hop listed
    obtain ⟨⟨rate, expiry⟩, fetched⟩ := Option.isSome_iff_exists.mp (List.all_eq_true.mp fresh hop listed)
    rw [simulatedHops_eq resolved] at listed
    obtain ⟨contact, known, confirms, rfl, age⟩ := readHops_confirmed replayed hop listed fetched
    exact ⟨rate, _, fetched, contact, known, confirms, age (inTime.1 path resolved), rfl⟩
  refine ⟨confirmed, ?_⟩
  let expiryOf (hop : Hop) : ℚ := (hop.fetched.bind (·.2)).getD 0
  have expiries : (simulatedHops settings w scenario turns).map (fun hop => hop.fetched.bind (·.2)) =
      ((simulatedHops settings w scenario turns).map expiryOf).map some := by
    rw [List.map_map]
    refine List.map_congr_left fun hop listed => ?_
    obtain ⟨rate, expiresAt, fetched, -⟩ := confirmed hop listed
    simp [expiryOf, fetched]
  obtain ⟨least, found, isLeast⟩ := earliest_isLeast (mt List.map_eq_nil_iff.mp nonempty)
  refine ⟨least, ?_, ?_⟩
  · rw [simulate_freshness.2, if_pos ⟨fresh, nonempty⟩, expiries]
    exact found
  · convert isLeast using 1
    ext expiry
    constructor
    · rintro ⟨hop, listed, rate, fetched⟩
      exact List.mem_map.mpr ⟨hop, listed, by simp [expiryOf, fetched]⟩
    · intro member
      obtain ⟨hop, listed, rfl⟩ := List.mem_map.mp member
      obtain ⟨rate, expiresAt, fetched, -⟩ := confirmed hop listed
      exact ⟨hop, listed, rate, by simp [expiryOf, fetched]⟩

/-- The effective rate is the product of the rates of the hops. -/
theorem quote_product (settings : Settings) (w : World) (turns : Nat → Turn) {path : List SimulatedAssetCode}
    (resolved : resolvePath scenario.sourceAsset scenario.destinationAsset (staticRates scenario) = some path) :
    (simulatedHops settings w scenario turns).map (fun hop => (hop.fromAsset, hop.toAsset)) = path.zip path.tail ∧
      effectiveRate path (resolvedRates (staticRates scenario) (simulatedHops settings w scenario turns)) 1 =
        ((simulatedHops settings w scenario turns).map (hopRate scenario)).prod := by
  have along := readHops_assets settings path w turns
  rw [← simulatedHops_eq resolved] at along
  refine ⟨along, ?_⟩
  have distinct : ((simulatedHops settings w scenario turns).map Hop.key).Nodup := by
    have keys := path_keys resolved
    rw [← along, List.map_map] at keys
    exact keys
  rw [effectiveRate_eq _ path 1 _ along, one_mul]
  congr 1
  refine List.map_congr_left fun hop listed => ?_
  rw [resolvedRates_key _ distinct hop listed, hopRate]

theorem hopRate_pos (replayed : Replayed settings w) {path : List SimulatedAssetCode} (hop : Hop)
    (listed : hop ∈ readHops settings w path turns) : 0 < hopRate scenario hop := by
  unfold hopRate
  cases fetched : hop.fetched with
  | some answer =>
    obtain ⟨contact, -, confirms, -⟩ := readHops_confirmed replayed hop listed (fetched.trans rfl)
    simpa using confirmed_pos confirms
  | none =>
    rw [Option.map_none, Option.none_or, staticRates]
    cases given : scenario.rates hop.key with
    | some rate => simpa using scenario.rates_pos hop.key rate given
    | none =>
      rw [Option.none_or, defaultRates]
      repeat' split
      all_goals norm_num

end Quote

/-- Any simulation whose hops are timely is honest about its quote. -/
theorem simulate_honest {scenario : TransferSimulationScenario} {turns : Nat → Turn} (replayed : Replayed settings w)
    (inTime : InTime settings w (.simulate scenario turns)) :
    Honest settings (simulatedHops settings w scenario turns) scenario (simulate settings w scenario turns).2 := by
  refine ⟨fun ok fresh nonempty => quote_fresh replayed inTime ok fresh nonempty, fun ok => ?_, fun ok => ?_⟩
  · obtain ⟨path, amount, resolved, -, -, same, rate, -⟩ := simulate_ok ok
    have product := quote_product settings w turns resolved
    rw [same, rate, product.2]
    exact ⟨product.1, rfl⟩
  · obtain ⟨path, amount, resolved, read, positive, -, -, estimated, minimum⟩ := simulate_ok ok
    have product := quote_product settings w turns resolved
    rw [product.2] at estimated minimum
    have short := inTime.2 amount read
    have rate_nonneg : 0 ≤ ((simulatedHops settings w scenario turns).map (hopRate scenario)).prod := by
      apply List.prod_nonneg
      intro rate listed
      obtain ⟨hop, member, rfl⟩ := List.mem_map.mp listed
      rw [simulatedHops_eq resolved] at member
      exact (hopRate_pos replayed hop member).le
    have least : amount * ((simulatedHops settings w scenario turns).map (hopRate scenario)).prod *
        (1 - scenario.maxSlippageBps.getD 50 / 10000) ≤
          amount * ((simulatedHops settings w scenario turns).map (hopRate scenario)).prod := by
      have bounds : 0 ≤ scenario.maxSlippageBps.getD 50 := by
        cases given : scenario.maxSlippageBps with
        | none => norm_num
        | some bps => exact (scenario.slippage_bounds bps given).1
      apply mul_le_of_le_one_right (mul_nonneg positive.le rate_nonneg)
      linarith only [bounds]
    refine ⟨_, _, _, _, estimated, minimum, number_decimalString short, number_decimalString (least.trans_lt short), ?_⟩
    have units := Int.toNat_le_toNat (@toFixed_mono 7 _ _ least)
    gcongr

/-- In every run whose simulations are in time every quote is honest. -/
theorem quotes_honest (settings : Settings) (now : Nat) (events : List Event)
    (inTime : Throughout (step settings) (InTime settings) (World.empty now) events) :
    Throughout (step settings) (HonestEvent settings) (World.empty now) events := by
  refine throughout_of (Replayed settings) ?_ ?_ (replayed_empty now) inTime
  · intro w event replayed _
    cases event with
    | fx event => exact step_replayed event replayed
    | simulate scenario turns => exact simulate_replayed replayed
  · intro w event replayed here
    cases event with
    | fx event => trivial
    | simulate scenario turns => exact simulate_honest replayed here

def hundredUsdc : TransferSimulationScenario :=
  ⟨.usdc, .ngn, "100", [.ngn], (fun _ => none), none, nofun, nofun⟩

/-- A simulation that fetches a rate, and one after a while that finds the provider unreachable. -/
def quotedTwice (ms : Nat) : List Event :=
  [.simulate hundredUsdc fun _ => ⟨[], quote, 20⟩, .fx (.tick ms), .simulate hundredUsdc fun _ => ⟨[], .threw, 5⟩]

theorem quotes_honest_cached :
    Throughout (step defaults) (HonestEvent defaults) (World.empty 0) (quotedTwice 20000) :=
  quotes_honest defaults 0 (quotedTwice 20000) (by decide +kernel)

/-- After a minute the second quote still calls the rate fresh. -/
theorem expired_and_fresh :
    ¬ Throughout (step defaults) (HonestEvent defaults) (World.empty 0) (quotedTwice 60000) := by
  rintro ⟨-, -, honest, -⟩
  let left := run (step defaults) (World.empty 0)
    [.simulate hundredUsdc fun _ => ⟨[], quote, 20⟩, .fx (.tick 60000)]
  let hops := simulatedHops defaults left hundredUsdc fun _ => ⟨[], .threw, 5⟩
  have answered : (hops.map fun hop => hop.fetched.isSome) = [true] := by decide +kernel
  have nonempty : hops ≠ [] := by
    intro none_read
    rw [none_read] at answered
    cases answered
  obtain ⟨confirmed, -⟩ := honest.fresh (by decide +kernel) (by decide +kernel) nonempty
  have late : ∀ hop ∈ hops, ∀ contact ∈ hop.world.contactsFor hop.pair, contact.outcome.isRate →
      ¬ (hop.world.now : ℚ) - contact.answeredAt ≤ defaults.maxCacheAgeSeconds * 1000 := by decide +kernel
  obtain ⟨hop, listed⟩ := List.exists_mem_of_ne_nil _ nonempty
  obtain ⟨-, -, -, contact, known, ⟨external, positive, asked, -⟩, age, -⟩ := confirmed hop listed
  exact late hop listed contact known (by rw [asked]; rfl) age

end AfroPay.TransferSimulation
