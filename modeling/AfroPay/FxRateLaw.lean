import AfroPay.FxRates
import Mathlib.Tactic.Linarith
import Mathlib.Tactic.NormNum

/-! The law of the exchange rates. Breaker and cache entry of a key are at every moment what
a replay of the contacts made under that key would leave, so whatever else happened
is forgotten. The law then speaks of the contacts alone. -/
namespace AfroPay.FxRates
open JoinedText KeyedStore Runs

variable {settings : Settings} {w w' : World} {call : Call} {contacts : List Contact}

section Replay

/-- A breaker after one more contact. -/
def CircuitBreakerState.answer (settings : Settings) (contact : Contact) (breaker : CircuitBreakerState) :
    CircuitBreakerState :=
  if contact.outcome = .threw then breaker.fail settings contact.answeredAt else .closed

def breakerAfter (settings : Settings) (contacts : List Contact) : CircuitBreakerState :=
  contacts.foldr (CircuitBreakerState.answer settings) .closed

/-- What a read at some time makes of an entry. -/
def live (now : Nat) (entry : Option Entry) : Option FxRateCachePayload :=
  (entry.filter fun entry => !entry.expired now).map Entry.payload

/-- An entry after one more contact. -/
def answerEntry (settings : Settings) (contact : Contact) (entry : Option Entry) : Option Entry :=
  match contact.outcome, expiry settings contact.answeredAt with
  | .rate external _, .ok expiresAt =>
    some ⟨⟨quoted (live contact.askedAt entry) external, contact.pair.1, contact.pair.2, contact.answeredAt⟩, expiresAt⟩
  | _, _ => entry

def entryAfter (settings : Settings) (contacts : List Contact) : Option Entry :=
  contacts.foldr (answerEntry settings) none

/-- The contacts made under a key. -/
def World.contactsAt (w : World) (key : String) : List Contact :=
  w.contacts.filter fun contact => fxKey contact.pair = key

/-- Breakers and entries are what the contacts made of them. -/
structure Replayed (settings : Settings) (w : World) : Prop where
  breaker : ∀ key, getBreaker w key = breakerAfter settings (w.contactsAt key)
  entry : ∀ key, w.cache.lookup key = entryAfter settings (w.contactsAt key)

theorem replayed_empty (now : Nat) : Replayed settings (World.empty now) where
  breaker _ := rfl
  entry _ := rfl

/-- The contact that the call makes if the provider is asked. -/
def Call.contact (w : World) (call : Call) : Contact := ⟨call.pair, w.now, w.now + call.elapsedMs, call.outcome⟩

@[simp] theorem contact_pair (w : World) (call : Call) : (call.contact w).pair = call.pair := rfl

theorem getBreaker_insert {breakers : Store String CircuitBreakerState} {key other : String}
    {breaker : CircuitBreakerState} (stored : w'.breakers = breakers.insert key breaker) :
    getBreaker w' other = if other = key then breaker else (breakers.lookup other).getD .closed := by
  rw [getBreaker, stored]
  split
  · rename_i same
    rw [same, AList.lookup_insert]
    rfl
  · rename_i distinct
    rw [AList.lookup_insert_ne distinct]

theorem getFxRate_open (opened : isCircuitOpen settings (getBreaker w (fxKey call.pair)) w.now = true) :
    getFxRate settings w call =
      ({ w with breakers := w.breakers.insert (fxKey call.pair) (getBreaker w (fxKey call.pair)) },
        .ok (buildCachedResult settings w.now (readCache w (fxKey call.pair)) call true)) :=
  if_pos opened

/-- A call that finds the circuit open changes nothing that can be read. -/
theorem open_unchanged (opened : isCircuitOpen settings (getBreaker w (fxKey call.pair)) w.now = true) :
    (getFxRate settings w call).1.now = w.now ∧ (getFxRate settings w call).1.contacts = w.contacts ∧
      (getFxRate settings w call).1.cache = w.cache ∧
      ∀ key, getBreaker (getFxRate settings w call).1 key = getBreaker w key := by
  rw [getFxRate_open opened]
  refine ⟨rfl, rfl, rfl, fun key => ?_⟩
  rw [getBreaker_insert rfl]
  split
  · rename_i same
    rw [same]
  · rfl

/-- A call that asks the provider adds a contact and applies it under its key. -/
theorem asked_changes (closed : isCircuitOpen settings (getBreaker w (fxKey call.pair)) w.now = false) :
    (getFxRate settings w call).1.now = w.now + call.elapsedMs ∧
      (getFxRate settings w call).1.contacts = call.contact w :: w.contacts ∧
      (∀ key, getBreaker (getFxRate settings w call).1 key = if key = fxKey call.pair then
        (getBreaker w key).answer settings (call.contact w) else getBreaker w key) ∧
      ∀ key, (getFxRate settings w call).1.cache.lookup key = if key = fxKey call.pair then
        answerEntry settings (call.contact w) (w.cache.lookup key) else w.cache.lookup key := by
  obtain ⟨fromCode, toCode, outcome, elapsedMs⟩ := call
  simp only [getFxRate, closed, Bool.false_eq_true, if_false, CircuitBreakerState.answer, answerEntry, Call.contact]
  cases outcome with
  | threw =>
    refine ⟨rfl, rfl, fun key => ?_, fun key => (ite_self _).symm⟩
    rw [getBreaker_insert rfl]
    split
    · rename_i same
      simp only [same, if_true]
    · rfl
  | noRate =>
    refine ⟨rfl, rfl, fun key => ?_, fun key => (ite_self _).symm⟩
    rw [getBreaker_insert rfl]
    rfl
  | rate external positive =>
    cases kept : expiry settings (w.now + elapsedMs) with
    | error refused =>
      refine ⟨rfl, rfl, fun key => ?_, fun key => (ite_self _).symm⟩
      rw [getBreaker_insert rfl]
      rfl
    | ok expiresAt =>
      refine ⟨rfl, rfl, fun key => ?_, fun key => ?_⟩
      · rw [getBreaker_insert rfl]
        rfl
      · by_cases same : key = fxKey (Call.pair ⟨fromCode, toCode, .rate external positive, elapsedMs⟩)
        · rw [if_pos same, same]
          exact AList.lookup_insert _
        · rw [if_neg same]
          exact AList.lookup_insert_ne same

/-- Without a new rate the answer comes from the cache. -/
theorem asked_cached (closed : isCircuitOpen settings (getBreaker w (fxKey call.pair)) w.now = false)
    (noRate : call.outcome.isRate = false) : ∃ circuitOpen, (getFxRate settings w call).2 =
      .ok (buildCachedResult settings (w.now + call.elapsedMs) (readCache w (fxKey call.pair)) call circuitOpen) := by
  obtain ⟨fromCode, toCode, outcome, elapsedMs⟩ := call
  simp only [getFxRate, closed, Bool.false_eq_true, if_false]
  cases outcome with
  | threw => exact ⟨_, rfl⟩
  | noRate => exact ⟨_, rfl⟩
  | rate external positive => cases noRate

/-- A new rate is answered with the one that is stored for it. -/
theorem asked_fetched {external : ℚ} {positive : 0 < external} {result : FxRateResult}
    (closed : isCircuitOpen settings (getBreaker w (fxKey call.pair)) w.now = false)
    (fetched : call.outcome = .rate external positive) (returned : (getFxRate settings w call).2 = .ok result) :
    result.rate = some (quoted (readCache w (fxKey call.pair)) external) := by
  obtain ⟨fromCode, toCode, outcome, elapsedMs⟩ := call
  subst fetched
  simp only [getFxRate, closed, Bool.false_eq_true, if_false] at returned
  cases kept : expiry settings (w.now + elapsedMs) with
  | error refused =>
    rw [kept] at returned
    cases returned
  | ok expiresAt =>
    rw [kept] at returned
    cases returned
    rfl

theorem contactsAt_own {contact : Contact} (added : w'.contacts = contact :: w.contacts) :
    w'.contactsAt (fxKey contact.pair) = contact :: w.contactsAt (fxKey contact.pair) := by
  rw [World.contactsAt, added]
  exact List.filter_cons_of_pos (by simp)

theorem contactsAt_other {contact : Contact} {key : String} (added : w'.contacts = contact :: w.contacts)
    (other : key ≠ fxKey contact.pair) : w'.contactsAt key = w.contactsAt key := by
  rw [World.contactsAt, added]
  exact List.filter_cons_of_neg (by simpa using other.symm)

theorem call_replayed (replayed : Replayed settings w) : Replayed settings (getFxRate settings w call).1 := by
  cases opened : isCircuitOpen settings (getBreaker w (fxKey call.pair)) w.now with
  | true =>
    obtain ⟨-, contacts, cache, breakers⟩ := open_unchanged opened
    constructor
    · intro key
      rw [breakers, World.contactsAt, contacts]
      exact replayed.breaker key
    · intro key
      rw [cache, World.contactsAt, contacts]
      exact replayed.entry key
  | false =>
    obtain ⟨-, contacts, breakers, cache⟩ := asked_changes opened
    constructor
    · intro key
      rw [breakers, replayed.breaker]
      split
      · rename_i same
        rw [same]
        exact congrArg (breakerAfter settings) (contactsAt_own contacts).symm
      · rename_i other
        rw [contactsAt_other contacts other]
    · intro key
      rw [cache, replayed.entry]
      split
      · rename_i same
        rw [same]
        exact congrArg (entryAfter settings) (contactsAt_own contacts).symm
      · rename_i other
        rw [contactsAt_other contacts other]

theorem step_replayed (event : Event) (replayed : Replayed settings w) : Replayed settings (step settings w event) := by
  cases event with
  | tick ms => exact ⟨replayed.breaker, replayed.entry⟩
  | call call => exact call_replayed replayed

end Replay

section Circuit

theorem breakerAfter_failures (contacts : List Contact) : (breakerAfter settings contacts).consecutiveFailures =
    (contacts.takeWhile fun contact => contact.outcome = .threw).length := by
  induction contacts with
  | nil => rfl
  | cons contact earlier ih =>
    rw [breakerAfter, List.foldr_cons, ← breakerAfter, CircuitBreakerState.answer, List.takeWhile_cons]
    by_cases threw : contact.outcome = .threw
    · simp [threw, CircuitBreakerState.fail, ih]
    · simp [threw, CircuitBreakerState.closed]

/-- The circuit opened at the latest of the last throws, if there were enough of them. -/
theorem breakerAfter_openedAt (contacts : List Contact) : (breakerAfter settings contacts).openedAt =
    (contacts.takeWhile fun contact => contact.outcome = .threw).head?.bind fun latest =>
      if settings.circuitFailureThreshold ≤
        (contacts.takeWhile fun contact => contact.outcome = .threw).length then some latest.answeredAt else none := by
  induction contacts with
  | nil => rfl
  | cons contact earlier ih =>
    have failures : (breakerAfter settings earlier).consecutiveFailures = _ := breakerAfter_failures earlier
    rw [breakerAfter, List.foldr_cons, ← breakerAfter, CircuitBreakerState.answer, List.takeWhile_cons]
    by_cases threw : contact.outcome = .threw
    · simp only [threw, decide_true, if_true, CircuitBreakerState.fail, failures, List.head?_cons, Option.bind_some,
        List.length_cons]
      split
      · rfl
      · rename_i below
        -- fewer throws had not opened it either
        have fewer : ¬ settings.circuitFailureThreshold ≤
            (earlier.takeWhile fun contact => contact.outcome = .threw).length := by
          intro enough
          exact below (enough.trans (Nat.cast_le.mpr (Nat.le_succ _)))
        simp only [ih, fewer, if_false, Option.bind_fun_none]
    · simp [threw, CircuitBreakerState.closed]

theorem contactsAt_eq_contactsFor {pair : Pair}
    (own : ∀ contact ∈ w.contacts, fxKey contact.pair = fxKey pair → contact.pair = pair) :
    w.contactsAt (fxKey pair) = w.contactsFor pair := by
  apply List.filter_congr
  intro contact member
  have shared : fxKey contact.pair = fxKey pair ↔ contact.pair = pair :=
    ⟨own contact member, congrArg fxKey⟩
  simp only [shared]

theorem isCircuitOpen_iff {pair : Pair} (replayed : Replayed settings w)
    (own : ∀ contact ∈ w.contacts, fxKey contact.pair = fxKey pair → contact.pair = pair) :
    isCircuitOpen settings (getBreaker w (fxKey pair)) w.now = true ↔ Blocked settings w pair := by
  rw [replayed.breaker, contactsAt_eq_contactsFor own, isCircuitOpen, breakerAfter_openedAt, ← World.throws, Blocked]
  cases (w.throws pair).head? with
  | none => simp
  | some latest =>
    by_cases enough : settings.circuitFailureThreshold ≤ (w.throws pair).length
    · simp [enough]
    · simp [enough]

theorem contacted_eq :
    contacted settings w call = !isCircuitOpen settings (getBreaker w (fxKey call.pair)) w.now := by
  cases opened : isCircuitOpen settings (getBreaker w (fxKey call.pair)) w.now with
  | true => simp [contacted, (open_unchanged opened).2.1]
  | false => simp [contacted, (asked_changes opened).2.1]

end Circuit

section Entries

theorem quoted_near (cached : Option FxRateCachePayload) (external : ℚ) :
    |external - quoted cached external| / external ≤ deltaThreshold := by
  have same : |external - external| / external ≤ deltaThreshold := by
    rw [sub_self, abs_zero, zero_div, deltaThreshold]
    norm_num
  cases cached with
  | none => exact same
  | some cached =>
    rw [quoted]
    split
    · rename_i near
      exact near
    · exact same

/-- Whether a rate can be stored does not depend on the time. -/
theorem expiry_refused {now later : Nat} {refused : Exception} (error : expiry settings now = .error refused) :
    expiry settings later = .error refused := by
  cases backend : settings.backend with
  | inMemory =>
    simp only [expiry, backend] at error
    cases error
  | redis =>
    simp only [expiry, backend] at error ⊢
    split at error
    · cases error
    · rename_i invalid
      exact (if_neg invalid).trans error

theorem entryAfter_refused {now : Nat} {refused : Exception} (error : expiry settings now = .error refused)
    (contacts : List Contact) : entryAfter settings contacts = none := by
  induction contacts with
  | nil => rfl
  | cons contact earlier ih =>
    rw [entryAfter, List.foldr_cons, ← entryAfter, ih, answerEntry, expiry_refused error]
    cases contact.outcome <;> rfl

/-- The entry was stored by the latest contact that returned a rate, which confirms it. -/
theorem entryAfter_confirmed {entry : Entry} (stored : entryAfter settings contacts = some entry) :
    ∃ contact, contacts.find? (·.outcome.isRate) = some contact ∧ contact.Confirms entry.payload.rate ∧
      entry.payload.fetchedAt = contact.answeredAt ∧
      expiry settings contact.answeredAt = .ok entry.expiresAt := by
  induction contacts with
  | nil => cases stored
  | cons contact earlier ih =>
    rw [entryAfter, List.foldr_cons, ← entryAfter, answerEntry] at stored
    cases outcome : contact.outcome with
    | threw =>
      rw [outcome] at stored
      rw [List.find?_cons_of_neg (by simp [outcome, Outcome.isRate])]
      exact ih stored
    | noRate =>
      rw [outcome] at stored
      rw [List.find?_cons_of_neg (by simp [outcome, Outcome.isRate])]
      exact ih stored
    | rate external positive =>
      rw [outcome] at stored
      cases kept : expiry settings contact.answeredAt with
      | error refused =>
        rw [kept, entryAfter_refused kept] at stored
        cases stored
      | ok expiresAt =>
        rw [kept] at stored
        refine ⟨contact, List.find?_cons_of_pos (by simp [outcome, Outcome.isRate]), ?_⟩
        cases stored
        exact ⟨⟨external, positive, outcome, quoted_near _ external⟩, rfl, kept⟩

end Entries

section Law

/-- Every rate that was ever stored expires. -/
def AllLapse (settings : Settings) (w : World) : Prop :=
  ∀ contact ∈ w.contacts, contact.outcome.isRate → Lapses settings contact.answeredAt

/-- A rate whose entry lapses is kept for the retention. -/
theorem expiry_of_lapses {now : Nat} {expiresAt : Option ℚ} (kept : expiry settings now = .ok expiresAt)
    (lapses : Lapses settings now) : expiresAt = some (now + settings.cacheRetentionSeconds * 1000) ∧
      (now : ℚ) + settings.cacheRetentionSeconds * 1000 ≠ 0 := by
  cases backend : settings.backend with
  | inMemory =>
    obtain ⟨limited, nonzero⟩ := lapses.resolve_left (by simp [backend])
    simp only [expiry, backend, limited, if_false] at kept
    cases kept
    exact ⟨rfl, nonzero⟩
  | redis =>
    simp only [expiry, backend] at kept
    split at kept
    · rename_i valid
      cases kept
      exact ⟨rfl, (add_pos_of_nonneg_of_pos (Nat.cast_nonneg now) (mul_pos valid.1 (by norm_num))).ne'⟩
    · cases kept

/-- An entry that lapses and has not expired is no older than the retention. -/
theorem unexpired_age {entry : Entry} {stored now : Nat} (kept : expiry settings stored = .ok entry.expiresAt)
    (lapses : Lapses settings stored) (unexpired : entry.expired now = false) :
    (now : ℚ) - stored ≤ settings.cacheRetentionSeconds * 1000 := by
  obtain ⟨limit, nonzero⟩ := expiry_of_lapses kept lapses
  simp only [Entry.expired, limit, decide_eq_false_iff_not, not_and, not_lt] at unexpired
  linarith only [unexpired nonzero]

/-- What a read of the cache finds, in terms of the contacts. -/
theorem readCache_confirmed {pair : Pair} {payload : FxRateCachePayload} (replayed : Replayed settings w)
    (own : ∀ contact ∈ w.contacts, fxKey contact.pair = fxKey pair → contact.pair = pair)
    (found : readCache w (fxKey pair) = some payload) :
    ∃ contact entry, (w.contactsFor pair).find? (·.outcome.isRate) = some contact ∧ contact.Confirms payload.rate ∧
      payload.fetchedAt = contact.answeredAt ∧ w.cache.lookup (fxKey pair) = some entry ∧
      entry.expired w.now = false ∧ expiry settings contact.answeredAt = .ok entry.expiresAt := by
  obtain ⟨entry, kept, rfl⟩ := Option.map_eq_some_iff.mp found
  obtain ⟨stored, unexpired⟩ := Option.filter_eq_some_iff.mp kept
  have replay := replayed.entry (fxKey pair)
  rw [stored, contactsAt_eq_contactsFor own] at replay
  obtain ⟨contact, latest, confirms, fetched, limit⟩ := entryAfter_confirmed replay.symm
  exact ⟨contact, entry, latest, confirms, fetched, stored, by simpa using unexpired, limit⟩

/-- The rate that is served from the cache at some later time, if the entry is unexpired then. -/
theorem buildCachedResult_lawful {now : Nat} {rate : ℚ} {circuitOpen : Bool} (replayed : Replayed settings w)
    (lapse : AllLapse settings w)
    (own : ∀ contact ∈ w.contacts, fxKey contact.pair = fxKey call.pair → contact.pair = call.pair)
    (prompt : ∀ entry ∈ w.cache.lookup (fxKey call.pair), entry.expired w.now = false → entry.expired now = false)
    (served : (buildCachedResult settings now (readCache w (fxKey call.pair)) call circuitOpen).rate = some rate) :
    ∃ contact, (w.contactsFor call.pair).find? (·.outcome.isRate) = some contact ∧ contact.Confirms rate ∧
      (now : ℚ) - contact.answeredAt ≤ settings.cacheRetentionSeconds * 1000 ∧
      ((buildCachedResult settings now (readCache w (fxKey call.pair)) call circuitOpen).stale ↔
        settings.maxCacheAgeSeconds * 1000 < (now : ℚ) - contact.answeredAt) := by
  cases found : readCache w (fxKey call.pair) with
  | none =>
    rw [found] at served
    cases served
  | some payload =>
    obtain ⟨contact, entry, latest, confirms, fetched, stored, unexpired, limit⟩ :=
      readCache_confirmed replayed own found
    rw [found] at served
    cases served
    have listed : contact ∈ w.contacts := List.mem_of_mem_filter (List.mem_of_find?_eq_some latest)
    have returned : contact.outcome.isRate = true := by simpa using List.find?_some latest
    refine ⟨contact, latest, confirms, ?_, ?_⟩
    · exact unexpired_age limit (lapse contact listed returned) (prompt entry stored unexpired)
    · simp only [buildCachedResult, fetched, decide_eq_true_eq]
      rw [lt_sub_iff_add_lt, add_comm]

theorem call_lawful (replayed : Replayed settings w) (lapse : AllLapse settings w)
    (meets : Meets settings w (.call call)) : Lawful settings w call := by
  obtain ⟨own, answered⟩ := meets
  have blocked := isCircuitOpen_iff replayed own
  cases opened : isCircuitOpen settings (getBreaker w (fxKey call.pair)) w.now with
  | true =>
    have quiet : contacted settings w call = false := by rw [contacted_eq, opened, Bool.not_true]
    constructor
    · simp [quiet, blocked.mp opened]
    · intro external positive result asked
      rw [quiet] at asked
      cases asked
    · intro result rate _ returned served
      rw [(open_unchanged opened).1]
      rw [getFxRate_open opened] at returned
      cases returned
      exact buildCachedResult_lawful replayed lapse own (fun _ _ unexpired => unexpired) served
  | false =>
    have unblocked : ¬ Blocked settings w call.pair := by
      rw [← blocked, opened]
      exact Bool.false_ne_true
    constructor
    · simp [contacted_eq, opened, unblocked]
    · intro external positive result _ outcome returned
      exact ⟨_, asked_fetched opened outcome returned, quoted_near _ external⟩
    · intro result rate unfetched returned served
      have noRate : call.outcome.isRate = false := by
        simpa [contacted_eq, opened] using unfetched
      obtain ⟨circuitOpen, cached⟩ := asked_cached opened noRate
      have prompt := answered.resolve_left unblocked
      rw [Answered, noRate, if_neg Bool.false_ne_true] at prompt
      rw [(asked_changes opened).1]
      rw [cached] at returned
      cases returned
      exact buildCachedResult_lawful replayed lapse own prompt served

theorem step_allLapse (event : Event) (replayed : Replayed settings w) (lapse : AllLapse settings w)
    (meets : Meets settings w event) : AllLapse settings (step settings w event) := by
  cases event with
  | tick ms => exact lapse
  | call call =>
    obtain ⟨own, answered⟩ := meets
    cases opened : isCircuitOpen settings (getBreaker w (fxKey call.pair)) w.now with
    | true =>
      rw [AllLapse, step, (open_unchanged opened).2.1]
      exact lapse
    | false =>
      have unblocked : ¬ Blocked settings w call.pair := by
        rw [← isCircuitOpen_iff replayed own, opened]
        exact Bool.false_ne_true
      have prompt := answered.resolve_left unblocked
      intro contact member returned
      rw [step, (asked_changes opened).2.1] at member
      rcases List.mem_cons.mp member with rfl | earlier
      · rw [Answered, show call.outcome.isRate = true from returned, if_pos rfl] at prompt
        exact prompt
      · exact lapse contact earlier returned

end Law

section Independence

/-- The second world has seen only the contacts of one pair, at the same times. -/
structure Alike (settings : Settings) (pair : Pair) (w w' : World) : Prop where
  now : w'.now = w.now
  contacts : w'.contacts = w.contactsFor pair
  replayed : Replayed settings w
  replayed' : Replayed settings w'

theorem alike_empty (pair : Pair) (now : Nat) : Alike settings pair (World.empty now) (World.empty now) :=
  ⟨rfl, rfl, replayed_empty now, replayed_empty now⟩

/-- What a call does depends on the breaker and the cache entry under its key. -/
theorem getFxRate_congr (now : w'.now = w.now)
    (breaker : getBreaker w' (fxKey call.pair) = getBreaker w (fxKey call.pair))
    (cached : readCache w' (fxKey call.pair) = readCache w (fxKey call.pair)) :
    contacted settings w call = contacted settings w' call ∧
      (getFxRate settings w call).2 = (getFxRate settings w' call).2 := by
  constructor
  · rw [contacted_eq, contacted_eq, now, breaker]
  · obtain ⟨fromCode, toCode, outcome, elapsedMs⟩ := call
    simp only [getFxRate, now, breaker, cached]
    split
    · rfl
    · cases outcome with
      | threw => rfl
      | noRate => rfl
      | rate external positive =>
        cases expiry settings (w.now + elapsedMs) with
        | error refused => rfl
        | ok expiresAt => rfl

theorem alike_reads (alike : Alike settings call.pair w w') (meets : Meets settings w (.call call)) :
    getBreaker w' (fxKey call.pair) = getBreaker w (fxKey call.pair) ∧
      readCache w' (fxKey call.pair) = readCache w (fxKey call.pair) := by
  have all : w'.contactsAt (fxKey call.pair) = w'.contacts := by
    apply List.filter_eq_self.mpr
    intro contact member
    rw [alike.contacts] at member
    have same : contact.pair = call.pair := by simpa using (List.mem_filter.mp member).2
    simp [same]
  have contacts : w'.contactsAt (fxKey call.pair) = w.contactsAt (fxKey call.pair) := by
    rw [all, alike.contacts, contactsAt_eq_contactsFor meets.1]
  constructor
  · rw [alike.replayed.breaker, alike.replayed'.breaker, contacts]
  · rw [readCache, readCache, alike.replayed.entry, alike.replayed'.entry, contacts, alike.now]

theorem contactsFor_cons {contact : Contact} (pair : Pair) (added : w'.contacts = contact :: w.contacts) :
    w'.contactsFor pair = if contact.pair = pair then contact :: w.contactsFor pair else w.contactsFor pair := by
  rw [World.contactsFor, added, List.filter_cons]
  simp only [decide_eq_true_eq, World.contactsFor]

theorem contactsFor_same (pair : Pair) (same : w'.contacts = w.contacts) : w'.contactsFor pair = w.contactsFor pair := by
  rw [World.contactsFor, same, World.contactsFor]

/-- A call of the pair does the same in both worlds. -/
theorem alike_own (alike : Alike settings call.pair w w') (meets : Meets settings w (.call call)) :
    Alike settings call.pair (getFxRate settings w call).1 (getFxRate settings w' call).1 := by
  obtain ⟨breaker, cached⟩ := alike_reads alike meets
  have replayed : Replayed settings (getFxRate settings w call).1 := call_replayed alike.replayed
  have replayed' : Replayed settings (getFxRate settings w' call).1 := call_replayed alike.replayed'
  cases opened : isCircuitOpen settings (getBreaker w (fxKey call.pair)) w.now with
  | true =>
    have opened' : isCircuitOpen settings (getBreaker w' (fxKey call.pair)) w'.now = true := by
      rw [breaker, alike.now, opened]
    obtain ⟨now, contacts, -⟩ := open_unchanged opened
    obtain ⟨now', contacts', -⟩ := open_unchanged opened'
    refine ⟨?_, ?_, replayed, replayed'⟩
    · rw [now, now', alike.now]
    · rw [contacts', alike.contacts, contactsFor_same call.pair contacts]
  | false =>
    have opened' : isCircuitOpen settings (getBreaker w' (fxKey call.pair)) w'.now = false := by
      rw [breaker, alike.now, opened]
    obtain ⟨now, contacts, -⟩ := asked_changes opened
    obtain ⟨now', contacts', -⟩ := asked_changes opened'
    refine ⟨?_, ?_, replayed, replayed'⟩
    · rw [now, now', alike.now]
    · rw [contacts', alike.contacts, contactsFor_cons call.pair contacts, contact_pair, if_pos rfl, Call.contact, Call.contact,
        alike.now]

/-- A call of another pair only lets its time pass. -/
theorem alike_other {pair : Pair} (alike : Alike settings pair w w') (other : call.pair ≠ pair) :
    Alike settings pair (getFxRate settings w call).1
      (step settings w' (.tick ((getFxRate settings w call).1.now - w.now))) := by
  have replayed : Replayed settings (getFxRate settings w call).1 := call_replayed alike.replayed
  have replayed' := step_replayed (.tick ((getFxRate settings w call).1.now - w.now)) alike.replayed'
  cases opened : isCircuitOpen settings (getBreaker w (fxKey call.pair)) w.now with
  | true =>
    obtain ⟨now, contacts, -⟩ := open_unchanged opened
    refine ⟨?_, ?_, replayed, replayed'⟩
    · rw [step, now, alike.now, Nat.sub_self, Nat.add_zero]
    · rw [contactsFor_same pair contacts]
      exact alike.contacts
  | false =>
    obtain ⟨now, contacts, -⟩ := asked_changes opened
    refine ⟨?_, ?_, replayed, replayed'⟩
    · rw [step, now, alike.now, Nat.add_sub_cancel_left]
    · rw [contactsFor_cons pair contacts, contact_pair, if_neg other]
      exact alike.contacts

theorem alike_tick {pair : Pair} (ms : Nat) (alike : Alike settings pair w w') :
    Alike settings pair (step settings w (.tick ms)) (step settings w' (.tick ms)) :=
  ⟨congrArg (· + ms) alike.now, alike.contacts, step_replayed (.tick ms) alike.replayed,
    step_replayed (.tick ms) alike.replayed'⟩

theorem alike_run {pair : Pair} (events : List Event) (alike : Alike settings pair w w')
    (meets : Throughout (step settings) (Meets settings) w events) :
    Alike settings pair (run (step settings) w events) (run (step settings) w' (alone settings pair w events)) := by
  induction events generalizing w w' with
  | nil => exact alike
  | cons event rest ih =>
    obtain ⟨here, later⟩ := meets
    cases event with
    | tick ms => exact ih (alike_tick ms alike) later
    | call call =>
      rw [alone, run_cons, run_cons]
      by_cases same : call.pair = pair
      · subst same
        rw [if_pos rfl]
        exact ih (alike_own alike here) later
      · rw [if_neg same]
        exact ih (alike_other alike same) later

end Independence

/-- In every run that meets the condition every call is lawful, and answered as if no other
pair had ever been called. -/
theorem fx_rates_lawful (settings : Settings) (now : Nat) (events : List Event)
    (meets : Throughout (step settings) (Meets settings) (World.empty now) events) :
    Throughout (step settings) (LawfulEvent settings) (World.empty now) events ∧
      Independent settings (World.empty now) events := by
  constructor
  · refine throughout_of (fun w => Replayed settings w ∧ AllLapse settings w) ?_ ?_ ?_ meets
    · rintro w event ⟨replayed, lapse⟩ here
      exact ⟨step_replayed event replayed, step_allLapse event replayed lapse here⟩
    · rintro w event ⟨replayed, lapse⟩ here
      cases event with
      | tick ms => trivial
      | call call => exact call_lawful replayed lapse here
    · exact ⟨replayed_empty now, fun _ member => nomatch member⟩
  · intro before call after split
    subst split
    obtain ⟨earlier, here⟩ := throughout_at meets
    have alike := alike_run before (alike_empty call.pair now) earlier
    obtain ⟨breaker, cached⟩ := alike_reads alike here
    exact getFxRate_congr alike.now breaker cached

theorem fxKey_toList (pair : Pair) :
    (fxKey pair).toList = [':'].intercalate ["fx".toList, pair.1.toList, pair.2.toList] := by
  simp [fxKey, List.intercalate_cons_cons]

/-- Codes without a colon have their keys to themselves. -/
theorem fxKey_injective {pair other : Pair} (free : ':' ∉ pair.1.toList ∧ ':' ∉ pair.2.toList)
    (free' : ':' ∉ other.1.toList ∧ ':' ∉ other.2.toList) (shared : fxKey pair = fxKey other) : pair = other := by
  have pieces_free : ∀ {codes : Pair}, ':' ∉ codes.1.toList ∧ ':' ∉ codes.2.toList →
      ∀ text ∈ ["fx".toList, codes.1.toList, codes.2.toList], ':' ∉ text := by
    intro codes codes_free text member
    simp only [List.mem_cons, List.not_mem_nil, or_false] at member
    rcases member with rfl | rfl | rfl
    · decide
    · exact codes_free.1
    · exact codes_free.2
  have joined := congrArg String.toList shared
  rw [fxKey_toList, fxKey_toList, join_eq_iff (List.cons_ne_nil _ _) (List.cons_ne_nil _ _),
    pieces_of_free (pieces_free free), pieces_of_free (pieces_free free')] at joined
  simp only [List.cons.injEq, and_true, true_and, String.toList_inj] at joined
  exact Prod.ext joined.1 joined.2

/-- Others may have to share. -/
example : fxKey ("A:B", "C") = fxKey ("A", "B:C") := by decide +kernel

def usdNgn (outcome : Outcome) : Call := ⟨"USD", "NGN", outcome, 0⟩

def quote : Outcome := .rate 1550 (by norm_num)

/-- The service in memory, with every setting left empty: the number of an empty text is zero. -/
def blank : Settings := ⟨.inMemory, 0, 0, 0, 0⟩

/-- A rate, and a call that finds the provider unreachable a second later. -/
def outage : List Event := [.call (usdNgn quote), .tick 1000, .call (usdNgn .threw)]

/-- An entry that should be kept for no time is kept for ever. -/
theorem rate_outlives_retention : ¬ Throughout (step blank) (LawfulEvent blank) (World.empty 0) outage := by
  rintro ⟨-, -, lawful, -⟩
  obtain ⟨contact, latest, -, age, -⟩ := lawful.cached ⟨some 1550, "USD", "NGN", some 0, true, false⟩ 1550
    (by decide +kernel) (by decide +kernel) rfl
  cases (by decide +kernel : _ = some (Contact.mk ("USD", "NGN") 0 0 quote)).symm.trans latest
  exact absurd age (by decide +kernel)

def defaults : Settings := ⟨.inMemory, 30, 300, 3, 60000⟩

/-- Three throws open the circuit of one pair, another pair is served, and a minute later the
provider is asked again. -/
def outages : List Event :=
  [.call (usdNgn quote), .tick 1000, .call (usdNgn .threw), .call (usdNgn .threw),
    .call ⟨"USDC", "NGN", .threw, 500⟩, .call (usdNgn .noRate), .call ⟨"XLM", "USD", .rate (11 / 100) (by norm_num), 20⟩,
    .tick 60000, .call (usdNgn (.rate 1551 (by norm_num)))]

theorem fx_rates_lawful_outages :
    Throughout (step defaults) (LawfulEvent defaults) (World.empty 0) outages ∧
      Independent defaults (World.empty 0) outages :=
  fx_rates_lawful defaults 0 outages (by decide +kernel)

end AfroPay.FxRates
