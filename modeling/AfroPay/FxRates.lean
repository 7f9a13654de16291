import AfroPay.JoinedText
import AfroPay.KeyedStore
import AfroPay.Runs
import Mathlib.Algebra.Order.Field.Rat

/-! The anchor service's exchange rates: a cache with two age limits and a circuit
breaker for each pair of currencies. Calls do not overlap; a call reads the cache and the
breaker, may ask the provider, and acts on the answer when that comes. Settings and
rates are exact. -/
namespace AfroPay.FxRates
open JoinedText KeyedStore Runs

def deltaThreshold : ℚ := 5 / 1000

/-- What stands behind `redis`: the service's own map, or a Redis server. -/
inductive Backend where
  | inMemory
  | redis
  deriving DecidableEq

structure Settings where
  backend : Backend
  maxCacheAgeSeconds : ℚ
  cacheRetentionSeconds : ℚ
  circuitFailureThreshold : ℚ
  circuitResetMs : ℚ

/-- What becomes of a request to the provider. -/
inductive Outcome where
  | rate (rate : ℚ) (positive : 0 < rate)
  | noRate
  | threw
  deriving DecidableEq

/-- A call, with what the provider does if it is asked and the time it takes over it. -/
structure Call where
  fromCode : String
  toCode : String
  outcome : Outcome
  elapsedMs : Nat
  deriving DecidableEq

/-- A pair of currencies after USDC was mapped to USD. -/
abbrev Pair := String × String

def norm (code : String) : String := if code = "USDC" then "USD" else code

def Call.pair (call : Call) : Pair := (norm call.fromCode, norm call.toCode)

def fxKey (pair : Pair) : String := "fx:" ++ pair.1 ++ ":" ++ pair.2

structure FxRateCachePayload where
  rate : ℚ
  fromCode : String
  toCode : String
  fetchedAt : Nat
  deriving DecidableEq

/-- A stored payload and the time it is kept to, if there is one. -/
structure Entry where
  payload : FxRateCachePayload
  expiresAt : Option ℚ
  deriving DecidableEq

structure CircuitBreakerState where
  consecutiveFailures : Nat
  openedAt : Option Nat
  deriving DecidableEq

def CircuitBreakerState.closed : CircuitBreakerState := ⟨0, none⟩

/-- The provider was asked for a pair and answered. -/
structure Contact where
  pair : Pair
  askedAt : Nat
  answeredAt : Nat
  outcome : Outcome
  deriving DecidableEq

structure World where
  /-- Milliseconds. -/
  now : Nat
  cache : Store String Entry
  breakers : Store String CircuitBreakerState
  /-- All contacts so far, the latest first. -/
  contacts : List Contact

def World.empty (now : Nat) : World := ⟨now, ∅, ∅, []⟩

structure FxRateResult where
  rate : Option ℚ
  fromCode : String
  toCode : String
  rateExpiresAt : Option ℚ
  stale : Bool
  circuitOpen : Bool
  deriving DecidableEq

/-- What the Redis client threw. -/
inductive Exception where
  | redis
  deriving DecidableEq

/-- `SET key value EX seconds`: the time the value is kept to. The service's own map takes
zero seconds for no limit; Redis refuses what is not a positive whole number. -/
def expiry (settings : Settings) (now : Nat) : Except Exception (Option ℚ) :=
  let seconds := settings.cacheRetentionSeconds
  match settings.backend with
  | .inMemory => .ok (if seconds = 0 then none else some (now + seconds * 1000))
  | .redis => if 0 < seconds ∧ seconds.den = 1 then .ok (some (now + seconds * 1000)) else .error .redis

/-- `entry.expiresAt && Date.now() > entry.expiresAt`, where zero is no time. -/
def Entry.expired (entry : Entry) (now : Nat) : Bool :=
  match entry.expiresAt with
  | none => false
  | some expiresAt => expiresAt ≠ 0 ∧ expiresAt < now

/-- An entry that has expired is as good as absent. -/
def readCache (w : World) (key : String) : Option FxRateCachePayload :=
  ((w.cache.lookup key).filter fun entry => !entry.expired w.now).map Entry.payload

def getBreaker (w : World) (key : String) : CircuitBreakerState := (w.breakers.lookup key).getD .closed

def isCircuitOpen (settings : Settings) (breaker : CircuitBreakerState) (now : Nat) : Bool :=
  match breaker.openedAt with
  | none => false
  | some openedAt => (now : ℚ) - openedAt < settings.circuitResetMs

def buildCachedResult (settings : Settings) (now : Nat) (cached : Option FxRateCachePayload) (call : Call)
    (circuitOpen : Bool) : FxRateResult :=
  match cached with
  | none => ⟨none, call.fromCode, call.toCode, none, false, circuitOpen⟩
  | some cached =>
    let expiresAtMs := cached.fetchedAt + settings.maxCacheAgeSeconds * 1000
    ⟨some cached.rate, call.fromCode, call.toCode, some expiresAtMs, expiresAtMs < now, circuitOpen⟩

/-- A throw is counted, and opens the circuit from the threshold on. -/
def CircuitBreakerState.fail (breaker : CircuitBreakerState) (settings : Settings) (now : Nat) :
    CircuitBreakerState :=
  let consecutiveFailures := breaker.consecutiveFailures + 1
  ⟨consecutiveFailures,
    if settings.circuitFailureThreshold ≤ consecutiveFailures then some now else breaker.openedAt⟩

/-- Within the threshold the cached rate is kept. -/
def quoted (cached : Option FxRateCachePayload) (external : ℚ) : ℚ :=
  match cached with
  | none => external
  | some cached => if |external - cached.rate| / external ≤ deltaThreshold then cached.rate else external

def getFxRate (settings : Settings) (w : World) (call : Call) : World × Except Exception FxRateResult :=
  let key := fxKey call.pair
  let cached := readCache w key
  let breaker := getBreaker w key
  if isCircuitOpen settings breaker w.now then
    ({ w with breakers := w.breakers.insert key breaker },
      .ok (buildCachedResult settings w.now cached call true))
  else
    let now := w.now + call.elapsedMs
    let contacts := ⟨call.pair, w.now, now, call.outcome⟩ :: w.contacts
    match call.outcome with
    | .threw =>
      let breaker := breaker.fail settings now
      ({ w with now, contacts, breakers := w.breakers.insert key breaker },
        .ok (buildCachedResult settings now cached call (isCircuitOpen settings breaker now)))
    | .noRate =>
      ({ w with now, contacts, breakers := w.breakers.insert key .closed },
        .ok (buildCachedResult settings now cached call (isCircuitOpen settings .closed now)))
    | .rate external _ =>
      let breakers := w.breakers.insert key .closed
      let payload : FxRateCachePayload := ⟨quoted cached external, call.pair.1, call.pair.2, now⟩
      match expiry settings now with
      | .error refused => ({ w with now, contacts, breakers }, .error refused)
      | .ok expiresAt =>
        ({ w with now, contacts, breakers, cache := w.cache.insert key ⟨payload, expiresAt⟩ },
          .ok ⟨some payload.rate, call.fromCode, call.toCode, some (now + settings.maxCacheAgeSeconds * 1000),
            false, false⟩)

inductive Event where
  | tick (ms : Nat)
  | call (call : Call)
  deriving DecidableEq

def step (settings : Settings) (w : World) : Event → World
  | .tick ms => { w with now := w.now + ms }
  | .call call => (getFxRate settings w call).1

/-- The provider is asked in the course of the call. -/
def contacted (settings : Settings) (w : World) (call : Call) : Bool :=
  (getFxRate settings w call).1.contacts.length ≠ w.contacts.length

/-- The contacts for a pair, the latest first. -/
def World.contactsFor (w : World) (pair : Pair) : List Contact := w.contacts.filter fun contact => contact.pair = pair

/-- The last contacts for a pair, as far back as all of them threw. -/
def World.throws (w : World) (pair : Pair) : List Contact :=
  (w.contactsFor pair).takeWhile fun contact => contact.outcome = .threw

/-- At least as many of the last contacts threw as the threshold says, and the latest of
them is recent. -/
def Blocked (settings : Settings) (w : World) (pair : Pair) : Prop :=
  ∃ latest ∈ (w.throws pair).head?, settings.circuitFailureThreshold ≤ (w.throws pair).length ∧
    (w.now : ℚ) - latest.answeredAt < settings.circuitResetMs

instance (settings : Settings) (w : World) (pair : Pair) : Decidable (Blocked settings w pair) :=
  inferInstanceAs (Decidable (∃ latest ∈ (w.throws pair).head?, _))

/-- The contact returned a rate within half a per cent of this one. -/
def Contact.Confirms (contact : Contact) (rate : ℚ) : Prop :=
  ∃ external positive, contact.outcome = .rate external positive ∧ |external - rate| / external ≤ deltaThreshold

def Outcome.isRate : Outcome → Bool
  | .rate .. => true
  | .noRate | .threw => false

/-- What a call may do and return, in terms of the contacts before it. -/
structure Lawful (settings : Settings) (w : World) (call : Call) : Prop where
  contact : contacted settings w call ↔ ¬ Blocked settings w call.pair
  fetched : ∀ external positive result, contacted settings w call → call.outcome = .rate external positive →
    (getFxRate settings w call).2 = .ok result →
      ∃ rate, result.rate = some rate ∧ |external - rate| / external ≤ deltaThreshold
  cached : ∀ result rate, ¬ (contacted settings w call ∧ call.outcome.isRate) →
    (getFxRate settings w call).2 = .ok result → result.rate = some rate →
      ∃ contact, (w.contactsFor call.pair).find? (·.outcome.isRate) = some contact ∧ contact.Confirms rate ∧
        ((getFxRate settings w call).1.now : ℚ) - contact.answeredAt ≤ settings.cacheRetentionSeconds * 1000 ∧
        (result.stale ↔
          settings.maxCacheAgeSeconds * 1000 < ((getFxRate settings w call).1.now : ℚ) - contact.answeredAt)

def LawfulEvent (settings : Settings) (w : World) : Event → Prop
  | .tick _ => True
  | .call call => Lawful settings w call

/-- A run without the calls of other pairs. The time they took passes all the same. -/
def alone (settings : Settings) (pair : Pair) : World → List Event → List Event
  | _, [] => []
  | w, .tick ms :: rest => .tick ms :: alone settings pair (step settings w (.tick ms)) rest
  | w, .call call :: rest =>
    let after := step settings w (.call call)
    (if call.pair = pair then .call call else .tick (after.now - w.now)) :: alone settings pair after rest

/-- Every call is answered as if no other pair had ever been called. -/
def Independent (settings : Settings) (start : World) (events : List Event) : Prop :=
  ∀ before call after, events = before ++ .call call :: after →
    let w := run (step settings) start before
    let w' := run (step settings) start (alone settings call.pair start before)
    contacted settings w call = contacted settings w' call ∧
      (getFxRate settings w call).2 = (getFxRate settings w' call).2

/-- A stored rate is given a time at which it expires. -/
def Lapses (settings : Settings) (now : Nat) : Prop :=
  settings.backend = .redis ∨
    settings.cacheRetentionSeconds ≠ 0 ∧ (now : ℚ) + settings.cacheRetentionSeconds * 1000 ≠ 0

instance (settings : Settings) (now : Nat) : Decidable (Lapses settings now) :=
  inferInstanceAs (Decidable (_ ∨ _))

/-- The answer of the provider: a rate is stored for a limited time, and anything else comes
before the entry that was read has expired. -/
def Answered (settings : Settings) (w : World) (call : Call) : Prop :=
  if call.outcome.isRate then Lapses settings (w.now + call.elapsedMs)
  else ∀ entry ∈ w.cache.lookup (fxKey call.pair), entry.expired w.now = false →
    entry.expired (w.now + call.elapsedMs) = false

instance (settings : Settings) (w : World) (call : Call) : Decidable (Answered settings w call) :=
  inferInstanceAs (Decidable (ite _ _ _))

/-- The pairs contacted so far do not share the call's key, and the provider, if it is
asked, answers as above. -/
def Meets (settings : Settings) (w : World) : Event → Prop
  | .tick _ => True
  | .call call =>
    (∀ contact ∈ w.contacts, fxKey contact.pair = fxKey call.pair → contact.pair = call.pair) ∧
      (Blocked settings w call.pair ∨ Answered settings w call)

instance (settings : Settings) (w : World) : DecidablePred (Meets settings w)
  | .tick _ => isTrue trivial
  | .call _ => inferInstanceAs (Decidable (_ ∧ _))

end AfroPay.FxRates
