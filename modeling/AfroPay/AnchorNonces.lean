import AfroPay.IntegerText
import AfroPay.Interleaving
import AfroPay.LeaseStore

/-! The nonces of the anchor's login challenges. A nonce is stored in Redis under its
account until it expires. Consuming it is a `GET` and, in a later command, a `SET` that
marks it as used without looking at the key again. -/
namespace AfroPay.AnchorNonces
open IntegerText Interleaving KeyedStore LeaseStore Runs

/-- What is stored under the key of a nonce. -/
inductive Mark where
  | issued
  | used
  deriving DecidableEq

/-- A nonce that `issueChallengeNonce` returned. -/
structure Issued where
  account : String
  nonce : String
  issuedAt : Nat
  ttlSeconds : Nat
  deriving DecidableEq

/-- A call of `consumeChallengeNonce` that succeeded. -/
structure Consumed where
  account : String
  nonce : String
  consumedAt : Nat
  deriving DecidableEq

structure World where
  /-- Milliseconds. -/
  now : Nat
  redis : Store String (Lease Mark)
  /-- All nonces returned so far. -/
  issued : List Issued
  /-- All successful consumptions so far. -/
  consumed : List Consumed

def World.empty (now : Nat) : World := ⟨now, ∅, [], []⟩

/-- `StellarAddressPipe` lets the value through. -/
def isStellarAddress (value : String) : Bool :=
  value.toList.head? = some 'G' && value.toList.length = 56 &&
    value.toList.all fun c => 'A' ≤ c && c ≤ 'Z' || '2' ≤ c && c ≤ '7'

def challengeNoncePrefix : String := "sep10:challenge:"

def challengeNonceKey (account nonce : String) : String := challengeNoncePrefix ++ account ++ ":" ++ nonce

/-- `randomBytes(16)`. -/
def Random : Type := { bytes : List UInt8 // bytes.length = 16 }

def Random.nonce (random : Random) : String := String.ofList (toHex random.val)

def Issued.key (issued : Issued) : String := challengeNonceKey issued.account issued.nonce

/-- The time from which the nonce is expired. -/
def Issued.expiresAt (issued : Issued) : Nat := issued.issuedAt + issued.ttlSeconds * 1000

/-- The nonce, and the world in which it is stored. Redis refuses a lifetime of zero. -/
def issueChallengeNonce (w : World) (account : String) (random : Random) (ttlSeconds : Nat) :
    Option (String × World) :=
  (setEx w.redis w.now (challengeNonceKey account random.nonce) .issued (ttlSeconds * 1000)).map fun redis =>
    (random.nonce, { w with redis, issued := w.issued ++ [⟨account, random.nonce, w.now, ttlSeconds⟩] })

inductive Exception where
  | unauthorized (code message : String)
  /-- What the Redis client threw. -/
  | redis
  deriving DecidableEq

/-- A call of `consumeChallengeNonce`, by the command it sends next. -/
inductive Consume where
  | getting (account nonce : String) (ttlSeconds : Nat)
  | marking (account nonce : String) (ttlSeconds : Nat)
  | returned (result : Except Exception Unit)
  deriving DecidableEq

def consumeChallengeNonce (w : World) : Consume → World × Consume
  | .getting account nonce ttlSeconds =>
    match holder w.redis w.now (challengeNonceKey account nonce) with
    | none => (w, .returned (.error (.unauthorized "SEP10_CHALLENGE_EXPIRED"
        "Challenge nonce was not issued or has expired.")))
    | some .used => (w, .returned (.error (.unauthorized "SEP10_CHALLENGE_REUSED"
        "Challenge nonce has already been used.")))
    | some .issued => (w, .marking account nonce ttlSeconds)
  | .marking account nonce ttlSeconds =>
    match setEx w.redis w.now (challengeNonceKey account nonce) .used (ttlSeconds * 1000) with
    | none => (w, .returned (.error .redis))
    | some redis =>
      ({ w with redis, consumed := w.consumed ++ [⟨account, nonce, w.now⟩] }, .returned (.ok ()))
  | .returned result => (w, .returned result)

structure Request where
  account : String
  nonce : String
  ttlSeconds : Nat
  deriving DecidableEq

/-- What happens outside of these calls: time passes, and challenges are asked for. -/
inductive Act where
  | tick (ms : Nat)
  | challenge (account : String) (random : Random) (ttlSeconds : Nat)

/-- The address is checked before a nonce is issued. -/
def act (w : World) : Act → World
  | .tick ms => { w with now := w.now + ms }
  | .challenge account random ttlSeconds =>
    if isStellarAddress account then ((issueChallengeNonce w account random ttlSeconds).map (·.2)).getD w else w

def service : Service World Consume Request Unit Act where
  begin request := .getting request.account request.nonce request.ttlSeconds
  proceed w call _ := consumeChallengeNonce w call
  act := act

abbrev State := System World Consume

abbrev Step := Event Request Unit Act

/-- Nonces are used once, for their account and in their time. -/
structure SingleUse (w : World) : Prop where
  once : ∀ issued ∈ w.issued, w.consumed.countP (·.nonce = issued.nonce) ≤ 1
  account : ∀ issued ∈ w.issued, ∀ consumed ∈ w.consumed, consumed.nonce = issued.nonce →
    consumed.account = issued.account
  unexpired : ∀ issued ∈ w.issued, ∀ consumed ∈ w.consumed, consumed.nonce = issued.nonce →
    consumed.consumedAt < issued.expiresAt

/-- The random bytes of a challenge were not drawn before. -/
def FreshNonce (s : State) : Step → Prop
  | .act (.challenge _ random _) => ∀ issued ∈ s.shared.issued, issued.nonce ≠ random.nonce
  | .act (.tick _) | .call .. | .advance .. => True

instance (s : State) : DecidablePred (FreshNonce s)
  | .act (.challenge ..) => inferInstanceAs (Decidable (∀ issued ∈ _, _))
  | .act (.tick _) | .call .. | .advance .. => isTrue trivial

/-- The key still says what the call read when it is marked. -/
def Consume.Timely (w : World) : Consume → Prop
  | .marking account nonce ttlSeconds =>
    0 < ttlSeconds → holder w.redis w.now (challengeNonceKey account nonce) = some .issued
  | .getting .. | .returned _ => True

instance (w : World) : DecidablePred (Consume.Timely w)
  | .marking .. => inferInstanceAs (Decidable (_ → _))
  | .getting .. | .returned _ => isTrue trivial

def NoStaleMark (s : State) : Step → Prop
  | .advance id _ => ∀ call ∈ s.calls.lookup id, call.Timely s.shared
  | .call .. | .act _ => True

instance (s : State) : DecidablePred (NoStaleMark s)
  | .advance .. => inferInstanceAs (Decidable (∀ call ∈ _, _))
  | .call .. | .act _ => isTrue trivial

/-- What is known of an issued nonce, apart from its lifetime. -/
structure Issued.WellFormed (issued : Issued) : Prop where
  account : ':' ∉ issued.account.toList
  nonce : ':' ∉ issued.nonce.toList

/-- The store says of every issued nonce whether it was consumed. -/
structure Recorded (w : World) : Prop where
  wellFormed : ∀ issued ∈ w.issued, issued.WellFormed
  distinct : ∀ one ∈ w.issued, ∀ two ∈ w.issued, one.nonce = two.nonce → one = two
  stored : ∀ issued ∈ w.issued,
    (w.redis.lookup issued.key = some ⟨.issued, issued.expiresAt⟩ ∧
      ∀ consumed ∈ w.consumed, consumed.nonce ≠ issued.nonce) ∨
    ((∃ expiresAt, w.redis.lookup issued.key = some ⟨.used, expiresAt⟩) ∧
      ∃ consumed ∈ w.consumed, consumed.nonce = issued.nonce)
  only : ∀ key lease, w.redis.lookup key = some lease → ∃ issued ∈ w.issued, key = issued.key
  consumed : ∀ consumed ∈ w.consumed, ∃ issued ∈ w.issued,
    issued.account = consumed.account ∧ issued.nonce = consumed.nonce

/-- A call that is about to mark a nonce found it issued to its account. -/
def Found (w : World) : Consume → Prop
  | .marking account nonce _ => ∃ issued ∈ w.issued, issued.account = account ∧ issued.nonce = nonce
  | _ => True

variable {w : World} {s : State} {event : Step} {call : Consume} {issued : Issued}

/-- Text around the only colon of a text is determined by it. -/
theorem around_colon {before after before' after' : List Char} (left : ':' ∉ before) (right : ':' ∉ after)
    (same : before ++ ':' :: after = before' ++ ':' :: after') : before = before' ∧ after = after' := by
  rcases List.append_eq_append_iff.mp same with ⟨gap, rfl, rest⟩ | ⟨gap, rfl, rest⟩
  · cases gap with
    | nil => simpa using rest
    | cons c gap =>
      simp only [List.cons_append, List.cons.injEq] at rest
      simp [rest.2] at right
  · cases gap with
    | nil => simpa [eq_comm] using rest
    | cons c gap =>
      simp only [List.cons_append, List.cons.injEq] at rest
      simp [← rest.1] at left

/-- The key of an issued nonce belongs to its account and nonce only. -/
theorem key_injective (wellFormed : issued.WellFormed) {account nonce : String}
    (same : issued.key = challengeNonceKey account nonce) : issued.account = account ∧ issued.nonce = nonce := by
  have colon : ":".toList = [':'] := by decide
  have text (account nonce : String) : (challengeNonceKey account nonce).toList =
      challengeNoncePrefix.toList ++ (account.toList ++ ':' :: nonce.toList) := by
    rw [challengeNonceKey, String.toList_append, String.toList_append, String.toList_append, List.append_assoc,
      List.append_assoc, colon, List.singleton_append]
  have keys := congrArg String.toList same
  rw [Issued.key, text, text] at keys
  obtain ⟨accounts, nonces⟩ := around_colon wellFormed.account wellFormed.nonce (List.append_cancel_left keys)
  exact ⟨String.toList_injective accounts, String.toList_injective nonces⟩

theorem key_eq (recorded : Recorded w) {other : Issued} (one : issued ∈ w.issued) (two : other ∈ w.issued)
    (same : issued.key = other.key) : issued = other :=
  recorded.distinct issued one other two (key_injective (recorded.wellFormed issued one) same).2

theorem wellFormed_challenge {account : String} (address : isStellarAddress account) (random : Random) (now ttl : Nat) :
    Issued.WellFormed ⟨account, random.nonce, now, ttl⟩ := by
  constructor
  · intro member
    simp only [isStellarAddress, Bool.and_eq_true, List.all_eq_true] at address
    have allowed := address.2 ':' member
    revert allowed
    decide
  · intro member
    have hex : ':' ∈ toHex random.val := by simpa [Random.nonce] using member
    have digit := isHex_of_mem_toHex hex
    revert digit
    decide

/-- What a call of `consumeChallengeNonce` can do. -/
inductive Proceeds (w : World) : Consume → World × Consume → Prop where
  | fails (call : Consume) (result : Except Exception Unit) (before : ∀ account nonce ttlSeconds,
      call = .marking account nonce ttlSeconds → ttlSeconds = 0) : Proceeds w call (w, .returned result)
  | finds (account nonce : String) (ttlSeconds : Nat)
      (held : holder w.redis w.now (challengeNonceKey account nonce) = some .issued) :
      Proceeds w (.getting account nonce ttlSeconds) (w, .marking account nonce ttlSeconds)
  | marks (account nonce : String) (ttlSeconds : Nat) (positive : 0 < ttlSeconds) :
      Proceeds w (.marking account nonce ttlSeconds)
        ({ w with
          redis := w.redis.insert (challengeNonceKey account nonce) ⟨.used, w.now + ttlSeconds * 1000⟩
          consumed := w.consumed ++ [⟨account, nonce, w.now⟩] }, .returned (.ok ()))

theorem proceeds (w : World) (call : Consume) : Proceeds w call (consumeChallengeNonce w call) := by
  cases call with
  | getting account nonce ttlSeconds =>
    simp only [consumeChallengeNonce]
    split
    · exact .fails _ _ (by simp)
    · exact .fails _ _ (by simp)
    · exact .finds account nonce ttlSeconds ‹_›
  | marking account nonce ttlSeconds =>
    simp only [consumeChallengeNonce]
    split
    · rename_i refused
      refine .fails _ _ ?_
      intro account' nonce' ttl same
      cases same
      simp only [setEx] at refused
      split at refused
      · omega
      · cases refused
    · rename_i redis set
      obtain ⟨positive, rfl⟩ := setEx_eq_some.mp set
      exact .marks account nonce ttlSeconds (by omega)
  | returned result => exact .fails _ _ (by simp)

/-- What happens outside of calls. -/
inductive Acts (w : World) : Act → World → Prop where
  | refuses (outside : Act) : Acts w outside w
  | ticks (ms : Nat) : Acts w (.tick ms) { w with now := w.now + ms }
  | issues (account : String) (random : Random) (ttlSeconds : Nat) (address : isStellarAddress account) :
      Acts w (.challenge account random ttlSeconds)
        { w with
          redis := w.redis.insert (challengeNonceKey account random.nonce) ⟨.issued, w.now + ttlSeconds * 1000⟩
          issued := w.issued ++ [⟨account, random.nonce, w.now, ttlSeconds⟩] }

theorem acts (w : World) (outside : Act) : Acts w outside (act w outside) := by
  cases outside with
  | tick ms => exact .ticks ms
  | challenge account random ttlSeconds =>
    simp only [act, issueChallengeNonce]
    split
    · rename_i address
      cases set : setEx w.redis w.now (challengeNonceKey account random.nonce) .issued (ttlSeconds * 1000) with
      | none => exact .refuses _
      | some redis =>
        obtain ⟨-, rfl⟩ := setEx_eq_some.mp set
        exact .issues account random ttlSeconds address
    · exact .refuses _

/-- A call that finds a nonce issued found one that was issued to its account. -/
theorem found_of_holder (recorded : Recorded w) {account nonce : String}
    (held : holder w.redis w.now (challengeNonceKey account nonce) = some .issued) :
    ∃ issued ∈ w.issued, issued.account = account ∧ issued.nonce = nonce := by
  obtain ⟨expiresAt, stored, -⟩ := holder_eq_some.mp held
  obtain ⟨issued, member, same⟩ := recorded.only _ _ stored
  exact ⟨issued, member, key_injective (recorded.wellFormed issued member) same.symm⟩

theorem recorded_issues (recorded : Recorded w) {account : String} {random : Random} (ttlSeconds : Nat)
    (address : isStellarAddress account) (fresh : ∀ issued ∈ w.issued, issued.nonce ≠ random.nonce) :
    Recorded { w with
      redis := w.redis.insert (challengeNonceKey account random.nonce) ⟨.issued, w.now + ttlSeconds * 1000⟩
      issued := w.issued ++ [⟨account, random.nonce, w.now, ttlSeconds⟩] } := by
  have other {issued : Issued} (member : issued ∈ w.issued) :
      issued.key ≠ challengeNonceKey account random.nonce := fun same =>
    fresh issued member (key_injective (recorded.wellFormed issued member) same).2
  refine ⟨?_, ?_, ?_, ?_, ?_⟩
  · intro issued member
    rcases List.mem_append.mp member with old | new
    · exact recorded.wellFormed issued old
    · rw [List.mem_singleton.mp new]
      exact wellFormed_challenge address random _ _
  · intro one left two right same
    rcases List.mem_append.mp left with old | new <;> rcases List.mem_append.mp right with old' | new'
    · exact recorded.distinct one old two old' same
    · rw [List.mem_singleton.mp new'] at same
      exact absurd same (fresh one old)
    · rw [List.mem_singleton.mp new] at same
      exact absurd same.symm (fresh two old')
    · rw [List.mem_singleton.mp new, List.mem_singleton.mp new']
  · intro issued member
    rcases List.mem_append.mp member with old | new
    · simp only [AList.lookup_insert_ne (other old)]
      exact recorded.stored issued old
    · rw [List.mem_singleton.mp new]
      refine .inl ⟨AList.lookup_insert _, ?_⟩
      intro consumed spent same
      obtain ⟨issued, before, -, nonce⟩ := recorded.consumed consumed spent
      exact fresh issued before (nonce.trans same)
  · intro key lease found
    rcases lookup_insert_some.mp found with ⟨rfl, -⟩ | ⟨-, old⟩
    · exact ⟨_, List.mem_append_right _ (List.mem_singleton_self _), rfl⟩
    · obtain ⟨issued, member, same⟩ := recorded.only key lease old
      exact ⟨issued, List.mem_append_left _ member, same⟩
  · intro consumed spent
    obtain ⟨issued, member, same⟩ := recorded.consumed consumed spent
    exact ⟨issued, List.mem_append_left _ member, same⟩

theorem recorded_marks (recorded : Recorded w) {issued : Issued} (member : issued ∈ w.issued) (expiresAt now : Nat) :
    Recorded { w with
      redis := w.redis.insert issued.key ⟨.used, expiresAt⟩
      consumed := w.consumed ++ [⟨issued.account, issued.nonce, now⟩] } := by
  refine ⟨recorded.wellFormed, recorded.distinct, ?_, ?_, ?_⟩
  · intro other known
    by_cases same : other = issued
    · subst same
      exact .inr ⟨⟨expiresAt, AList.lookup_insert _⟩, _, List.mem_append_right _ (List.mem_singleton_self _), rfl⟩
    · have keys : other.key ≠ issued.key := fun equal => same (key_eq recorded known member equal)
      simp only [AList.lookup_insert_ne keys]
      refine (recorded.stored other known).imp ?_ ?_
      · rintro ⟨stored, unspent⟩
        refine ⟨stored, ?_⟩
        intro consumed spent
        rcases List.mem_append.mp spent with old | new
        · exact unspent consumed old
        · rw [List.mem_singleton.mp new]
          exact fun equal => same (recorded.distinct other known issued member equal.symm)
      · rintro ⟨stored, consumed, spent, nonce⟩
        exact ⟨stored, consumed, List.mem_append_left _ spent, nonce⟩
  · intro key lease found
    rcases lookup_insert_some.mp found with ⟨rfl, -⟩ | ⟨-, old⟩
    · exact ⟨issued, member, rfl⟩
    · exact recorded.only key lease old
  · intro consumed spent
    rcases List.mem_append.mp spent with old | new
    · exact recorded.consumed consumed old
    · rw [List.mem_singleton.mp new]
      exact ⟨issued, member, rfl, rfl⟩

/-- What holds of the store and the calls in every run with fresh nonces. -/
structure Tracked (s : State) : Prop where
  recorded : Recorded s.shared
  found : Each Found s

theorem found_mono {w' : World} (more : ∀ issued ∈ w.issued, issued ∈ w'.issued) (found : Found w call) :
    Found w' call := by
  cases call with
  | marking account nonce ttlSeconds =>
    obtain ⟨issued, member, same⟩ := found
    exact ⟨issued, more issued member, same⟩
  | _ => trivial

theorem acts_issued {outside : Act} {w' : World} (all : Acts w outside w') :
    ∀ issued ∈ w.issued, issued ∈ w'.issued := by
  intro issued member
  cases all with
  | issues account random ttlSeconds address => exact List.mem_append_left _ member
  | _ => exact member

theorem recorded_consume (recorded : Recorded w) (found : Found w call) : Recorded (consumeChallengeNonce w call).1 := by
  have all := proceeds w call
  generalize consumeChallengeNonce w call = result at all
  cases all with
  | fails => exact recorded
  | finds => exact recorded
  | marks account nonce ttlSeconds positive =>
    obtain ⟨issued, member, rfl, rfl⟩ := found
    exact recorded_marks recorded member _ _

theorem consume_issued (w : World) (call : Consume) : (consumeChallengeNonce w call).1.issued = w.issued := by
  have all := proceeds w call
  generalize consumeChallengeNonce w call = result at all
  cases all <;> rfl

theorem found_consume (recorded : Recorded w) (call : Consume) :
    Found (consumeChallengeNonce w call).1 (consumeChallengeNonce w call).2 := by
  have all := proceeds w call
  generalize consumeChallengeNonce w call = result at all
  cases all with
  | fails => trivial
  | finds account nonce ttlSeconds present => exact found_of_holder recorded present
  | marks => trivial

theorem recorded_act (recorded : Recorded w) (outside : Act)
    (fresh : ∀ account random ttlSeconds, outside = .challenge account random ttlSeconds →
      ∀ issued ∈ w.issued, issued.nonce ≠ random.nonce) : Recorded (act w outside) := by
  have all := acts w outside
  generalize act w outside = w' at all
  cases all with
  | refuses => exact recorded
  | ticks ms =>
    obtain ⟨wellFormed, distinct, stored, only, consumed⟩ := recorded
    exact ⟨wellFormed, distinct, stored, only, consumed⟩
  | issues account random ttlSeconds address =>
    exact recorded_issues recorded ttlSeconds address (fresh account random ttlSeconds rfl)

theorem step_tracked (tracked : Tracked s) (fresh : FreshNonce s event) : Tracked (step service s event) := by
  constructor
  · have moves := steps service s event
    generalize step service s event = s' at moves
    cases moves with
    | idle => exact tracked.recorded
    | begins id request free => exact tracked.recorded
    | advances id input call held => exact recorded_consume tracked.recorded (tracked.found id call held)
    | acts outside =>
      refine recorded_act tracked.recorded outside ?_
      rintro account random ttlSeconds rfl
      exact fresh
  · apply each_step tracked.found
    · exact fun _ => trivial
    · intro id input call _ held
      refine ⟨found_consume tracked.recorded call, fun other found => found_mono ?_ found⟩
      intro issued member
      rw [show (service.proceed s.shared call input).1.issued = s.shared.issued from consume_issued _ _]
      exact member
    · exact fun outside other _ found => found_mono (acts_issued (acts s.shared outside)) found

theorem recorded_empty (now : Nat) : Recorded (World.empty now) where
  wellFormed _ member := by cases member
  distinct _ member := by cases member
  stored _ member := by cases member
  only _ _ found := by cases found
  consumed _ member := by cases member

theorem tracked_fresh (now : Nat) : Tracked (.fresh (World.empty now)) := ⟨recorded_empty now, each_fresh _ _⟩

/-- An issued nonce that was not consumed can be consumed in its time. -/
theorem singleUse_marks (recorded : Recorded w) (single : SingleUse w) (member : issued ∈ w.issued)
    (held : holder w.redis w.now issued.key = some .issued) (redis : Store String (Lease Mark)) :
    SingleUse { w with redis, consumed := w.consumed ++ [⟨issued.account, issued.nonce, w.now⟩] } := by
  obtain ⟨expiresAt, stored, unexpired⟩ := holder_eq_some.mp held
  have unspent : w.now < issued.expiresAt ∧ ∀ consumed ∈ w.consumed, consumed.nonce ≠ issued.nonce := by
    rcases recorded.stored issued member with ⟨lease, unspent⟩ | ⟨⟨until', lease⟩, -⟩
    · rw [lease] at stored
      cases stored
      exact ⟨unexpired, unspent⟩
    · rw [lease] at stored
      cases stored
  refine ⟨?_, ?_, ?_⟩
  · intro other known
    rw [List.countP_append, List.countP_singleton]
    by_cases same : other = issued
    · subst same
      have zero : w.consumed.countP (·.nonce = other.nonce) = 0 :=
        List.countP_eq_zero.mpr fun consumed spent => by simpa using unspent.2 consumed spent
      simp [zero]
    · have distinct : ¬ issued.nonce = other.nonce := fun equal =>
        same (recorded.distinct other known issued member equal.symm)
      simpa [distinct] using single.once other known
  · intro other known consumed spent same
    rcases List.mem_append.mp spent with old | new
    · exact single.account other known consumed old same
    · rw [List.mem_singleton.mp new] at same ⊢
      rw [recorded.distinct issued member other known same]
  · intro other known consumed spent same
    rcases List.mem_append.mp spent with old | new
    · exact single.unexpired other known consumed old same
    · rw [List.mem_singleton.mp new] at same ⊢
      rw [← recorded.distinct issued member other known same]
      exact unspent.1

theorem singleUse_issues (recorded : Recorded w) (single : SingleUse w) (new : Issued)
    (fresh : ∀ issued ∈ w.issued, issued.nonce ≠ new.nonce) (redis : Store String (Lease Mark)) :
    SingleUse { w with redis, issued := w.issued ++ [new] } := by
  have unspent : ∀ consumed ∈ w.consumed, consumed.nonce ≠ new.nonce := by
    intro consumed spent same
    obtain ⟨issued, member, -, nonce⟩ := recorded.consumed consumed spent
    exact fresh issued member (nonce.trans same)
  refine ⟨?_, ?_, ?_⟩
  · intro issued member
    rcases List.mem_append.mp member with old | one
    · exact single.once issued old
    · rw [List.mem_singleton.mp one]
      have zero : w.consumed.countP (·.nonce = new.nonce) = 0 :=
        List.countP_eq_zero.mpr fun consumed spent => by simpa using unspent consumed spent
      simp [zero]
  · intro issued member consumed spent same
    rcases List.mem_append.mp member with old | one
    · exact single.account issued old consumed spent same
    · rw [List.mem_singleton.mp one] at same
      exact absurd same (unspent consumed spent)
  · intro issued member consumed spent same
    rcases List.mem_append.mp member with old | one
    · exact single.unexpired issued old consumed spent same
    · rw [List.mem_singleton.mp one] at same
      exact absurd same (unspent consumed spent)

theorem step_singleUse (tracked : Tracked s) (single : SingleUse s.shared) (fresh : FreshNonce s event)
    (timely : NoStaleMark s event) : SingleUse (step service s event).shared := by
  have moves := steps service s event
  generalize step service s event = s' at moves
  cases moves with
  | idle => exact single
  | begins id request free => exact single
  | advances id input call held =>
    have known := tracked.found id call held
    have all := proceeds s.shared call
    change SingleUse (consumeChallengeNonce s.shared call).1
    generalize consumeChallengeNonce s.shared call = result at all
    cases all with
    | fails => exact single
    | finds => exact single
    | marks account nonce ttlSeconds positive =>
      have issuedStill := timely _ held positive
      obtain ⟨issued, member, rfl, rfl⟩ := known
      exact singleUse_marks tracked.recorded single member issuedStill _
  | acts outside =>
    have all := acts s.shared outside
    change SingleUse (act s.shared outside)
    generalize act s.shared outside = w' at all
    cases all with
    | refuses => exact single
    | ticks ms =>
      obtain ⟨once, account, unexpired⟩ := single
      exact ⟨once, account, unexpired⟩
    | issues account random ttlSeconds address =>
      exact singleUse_issues tracked.recorded single ⟨account, random.nonce, s.shared.now, ttlSeconds⟩ fresh _

/-- A mark on a key that no longer says issued is a second use, or a use of an expired nonce. -/
theorem noStaleMark_of_singleUse (tracked : Tracked s) (after : SingleUse (step service s event).shared) :
    NoStaleMark s event := by
  cases event with
  | call id request => trivial
  | act outside => trivial
  | advance id input =>
    intro call held
    cases call with
    | getting | returned => trivial
    | marking account nonce ttlSeconds =>
    intro positive
    obtain ⟨issued, member, rfl, rfl⟩ := tracked.found id _ held
    rw [step_advance held] at after
    have marked : (service.proceed s.shared (.marking issued.account issued.nonce ttlSeconds) input).1.consumed =
        s.shared.consumed ++ [⟨issued.account, issued.nonce, s.shared.now⟩] := by
      simp [service, consumeChallengeNonce, setEx, show ttlSeconds ≠ 0 by omega]
    have known : (service.proceed s.shared (.marking issued.account issued.nonce ttlSeconds) input).1.issued =
        s.shared.issued := by
      simp [service, consumeChallengeNonce, setEx, show ttlSeconds ≠ 0 by omega]
    obtain ⟨once, -, unexpired⟩ := after
    simp only [marked, known] at once unexpired
    rcases tracked.recorded.stored issued member with ⟨stored, -⟩ | ⟨-, consumed, spent, nonce⟩
    · have intime := unexpired issued member _ (List.mem_append_right _ (List.mem_singleton_self _)) rfl
      exact holder_eq_some.mpr ⟨issued.expiresAt, stored, intime⟩
    · have twice := once issued member
      rw [List.countP_append, List.countP_singleton] at twice
      have before : 0 < s.shared.consumed.countP (·.nonce = issued.nonce) :=
        List.countP_pos_iff.mpr ⟨consumed, spent, by simpa using nonce⟩
      simp only [decide_true, if_true] at twice
      omega

/-- Nonces are single-use along a run exactly when every mark finds its nonce still issued;
random bytes do not repeat. -/
theorem singleUse_iff (now : Nat) (events : List Step)
    (fresh : Throughout (step service) FreshNonce (.fresh (World.empty now)) events) :
    Always (step service) (fun s => SingleUse s.shared) (.fresh (World.empty now)) events ↔
      Throughout (step service) NoStaleMark (.fresh (World.empty now)) events := by
  constructor
  · intro always
    apply throughout_of_at
    intro earlier event rest split
    have after := always_at always (earlier ++ [event]) rest (by simp [split])
    rw [split] at fresh
    have tracked := run_invariant_of Tracked (fun _ _ tracked => step_tracked tracked) (tracked_fresh now)
      (throughout_at fresh).1
    apply noStaleMark_of_singleUse tracked
    rwa [run_append] at after
  · intro timely
    have initial : Tracked (.fresh (World.empty now)) ∧ SingleUse (World.empty now) := by
      refine ⟨tracked_fresh now, ?_, ?_, ?_⟩ <;>
      · intro issued member
        cases member
    exact always_of (fun s => Tracked s ∧ SingleUse s.shared)
      (fun _ _ held meets =>
        ⟨step_tracked held.1 meets.1, step_singleUse held.1 held.2 meets.1 meets.2⟩)
      (fun _ held => held.2) initial (throughout_and fresh timely)

/-- An address, and the bytes of one challenge. -/
def someAddress : String := "GAAAAAAAAAAAAAAAAAAAAAAAAAAAAAAAAAAAAAAAAAAAAAAAAAAAAAAA"

def someBytes : Random := ⟨List.replicate 16 0xab, by decide⟩

/-- A challenge that is answered twice, one answer after the other. -/
def answeredTwice : List Step :=
  [.act (.challenge someAddress someBytes 300), .act (.tick 1000), .call 0 ⟨someAddress, someBytes.nonce, 300⟩,
    .advance 0 (), .advance 0 (), .call 1 ⟨someAddress, someBytes.nonce, 300⟩, .advance 1 ()]

theorem singleUse_iff_answeredTwice :
    Always (step service) (fun s => SingleUse s.shared) (.fresh (World.empty 0)) answeredTwice :=
  (singleUse_iff 0 answeredTwice (by decide +kernel)).mpr (by decide +kernel)

/-- Two answers to one challenge, each reading the nonce before either marks it. -/
def answeredAtOnce : List Step :=
  [.act (.challenge someAddress someBytes 300), .call 0 ⟨someAddress, someBytes.nonce, 300⟩,
    .call 1 ⟨someAddress, someBytes.nonce, 300⟩, .advance 0 (), .advance 1 (), .advance 0 (), .advance 1 ()]

/-- Both calls consume the nonce. -/
theorem answered_at_once_consumes_twice :
    (run (step service) (.fresh (World.empty 0)) answeredAtOnce).shared.consumed =
        [⟨someAddress, someBytes.nonce, 0⟩, ⟨someAddress, someBytes.nonce, 0⟩] ∧
      (run (step service) (.fresh (World.empty 0)) answeredAtOnce).shared.issued =
        [⟨someAddress, someBytes.nonce, 0, 300⟩] ∧
      ¬ SingleUse (run (step service) (.fresh (World.empty 0)) answeredAtOnce).shared := by
  have consumed : (run (step service) (.fresh (World.empty 0)) answeredAtOnce).shared.consumed =
      [⟨someAddress, someBytes.nonce, 0⟩, ⟨someAddress, someBytes.nonce, 0⟩] := by decide +kernel
  have issued : (run (step service) (.fresh (World.empty 0)) answeredAtOnce).shared.issued =
      [⟨someAddress, someBytes.nonce, 0, 300⟩] := by decide +kernel
  refine ⟨consumed, issued, ?_⟩
  intro single
  have once := single.once ⟨someAddress, someBytes.nonce, 0, 300⟩ (by rw [issued]; exact List.mem_singleton_self _)
  rw [consumed] at once
  simp at once

end AfroPay.AnchorNonces
