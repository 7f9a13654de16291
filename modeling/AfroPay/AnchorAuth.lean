import AfroPay.AnchorNonces
import AfroPay.WebText
import Mathlib.Data.List.Infix
import Mathlib.Data.Set.Finite.Basic

/-! The anchor's login: a challenge with a nonce, a token in exchange for the challenge and a
signature, and the check of a token that comes back. The signature is only looked at for its
length, and tokens are JWTs without a signature. -/
namespace AfroPay.AnchorAuth
open AnchorNonces Base64 Interleaving KeyedStore LeaseStore LossyText Runs WebText

def generateChallenge (account nonce : String) : String := "stellar:" ++ account ++ "?nonce=" ++ nonce

/-- The `nonce` parameter of a challenge, as `validateChallenge` reads it. -/
def challengeNonce (challenge : String) : Option String :=
  let queryString := (split '?' challenge.toList).getD 1 []
  (((urlSearchParams queryString).find? (·.1 = "nonce")).map (·.2)).filter (· ≠ "")

/-- `text.includes(part)`. -/
def includes (text part : String) : Bool := text.toList.tails.any (part.toList.isPrefixOf ·)

def validateChallengeSignature (account challenge signature : String) : Bool :=
  if account = "" ∨ challenge = "" ∨ signature = "" then false
  else
    let decoded := decodeBase64 (padBase64 (fromUrlAlphabet signature.toList))
    64 ≤ decoded.length && account.toList.head? = some 'G' && 56 ≤ utf16Length account && includes challenge "nonce="

/-- The base64url text of a JSON value. -/
def encodeJson (value : Json.Value) : List Char := encodeBase64Url (utf8 (Json.stringify value))

def tokenHeader : Json.Value := .object [("alg", .string "none"), ("typ", .string "JWT")]

def tokenPayload (account : String) (seconds : Nat) : Json.Value :=
  .object [("sub", .string account), ("exp", .number (natLiteral (seconds + 60 * 60))),
    ("iat", .number (natLiteral seconds))]

/-- A token that is issued at a time in milliseconds. -/
def generateToken (account : String) (now : Nat) : String :=
  String.ofList (encodeJson tokenHeader ++ '.' :: encodeJson (tokenPayload account (now / 1000)) ++ ['.'])

inductive Exception where
  | unauthorized (code message : String)
  | badRequest (message : String)
  deriving DecidableEq

/-- `Number(claims.exp ?? 0)`, with nothing for what is not finite. -/
def expiry (claims : Json.Value) : Option ℚ :=
  match getMember claims "exp" with
  | none | some .null => some 0
  | some value => toNumber value

/-- The account that a payload names. -/
def subject (claims : Json.Value) : Option String :=
  match getMember claims "sub" with
  | some (.string account) => some account
  | _ => none

/-- What `POST /anchor/auth/token` is given. -/
structure Body where
  account : String
  challenge : String
  signature : String
  deriving DecidableEq

inductive Phase where
  | consuming (call : Consume)
  | returned (result : Except Exception String)
  deriving DecidableEq

structure TokenCall where
  body : Body
  phase : Phase
  deriving DecidableEq

structure World where
  nonces : AnchorNonces.World
  /-- The tokens of `generateToken`, with their accounts. -/
  tokens : List (String × String)

structure Settings where
  challengeTtlSeconds : Nat
  /-- `walletService.findByPublicKey` finds a wallet. -/
  hasWallet : String → Bool

def invalidSignature : Phase := .returned (.error (.badRequest "Invalid challenge signature"))

/-- One command of `getToken`. What `consumeChallengeNonce` throws is an invalid signature as
well; the token is made in the same turn as the last answer. -/
def getToken (w : World) (call : TokenCall) : World × TokenCall :=
  match call.phase with
  | .returned _ => (w, call)
  | .consuming consume =>
    let (nonces, next) := consumeChallengeNonce w.nonces consume
    match next with
    | .returned (.ok ()) =>
      if validateChallengeSignature call.body.account call.body.challenge call.body.signature then
        let token := generateToken call.body.account w.nonces.now
        (⟨nonces, w.tokens ++ [(call.body.account, token)]⟩, { call with phase := .returned (.ok token) })
      else (⟨nonces, w.tokens⟩, { call with phase := invalidSignature })
    | .returned (.error _) => (⟨nonces, w.tokens⟩, { call with phase := invalidSignature })
    | next => (⟨nonces, w.tokens⟩, { call with phase := .consuming next })

variable (settings : Settings)

def startToken (body : Body) : TokenCall :=
  match challengeNonce body.challenge with
  | none => ⟨body, invalidSignature⟩
  | some nonce => ⟨body, .consuming (.getting body.account nonce settings.challengeTtlSeconds)⟩

/-- What happens outside of these calls: time passes, and challenges are asked for. -/
inductive Act where
  | tick (ms : Nat)
  | getChallenge (account : String) (random : Random)

def act (w : World) : Act → World
  | .tick ms => { w with nonces := AnchorNonces.act w.nonces (.tick ms) }
  | .getChallenge account random =>
    if isStellarAddress account ∧ settings.hasWallet account then
      { w with nonces := AnchorNonces.act w.nonces (.challenge account random settings.challengeTtlSeconds) }
    else w

def service : Service World TokenCall Body Unit Act where
  begin := startToken settings
  proceed w call _ := getToken w call
  act := act settings

abbrev State := System World TokenCall

abbrev Step := Event Body Unit Act

/-- The token that the next step of a call issues. -/
def issues (w : World) (call : TokenCall) : Option String :=
  match call.phase, (getToken w call).2.phase with
  | .consuming _, .returned (.ok token) => some token
  | _, _ => none

/-- The nonce was issued to the account, is not expired and was not used. -/
def Live (w : AnchorNonces.World) (account nonce : String) : Prop :=
  ∃ issued ∈ w.issued, issued.account = account ∧ issued.nonce = nonce ∧ w.now < issued.expiresAt ∧
    ∀ consumed ∈ w.consumed, consumed.nonce ≠ nonce

/-- The random bytes of a challenge were not drawn before. -/
def FreshNonce (s : State) : Step → Prop
  | .act (.getChallenge _ random) => ∀ issued ∈ s.shared.nonces.issued, issued.nonce ≠ random.nonce
  | .act (.tick _) | .call .. | .advance .. => True

instance (s : State) : DecidablePred (FreshNonce s)
  | .act (.getChallenge ..) => inferInstanceAs (Decidable (∀ issued ∈ _, _))
  | .act (.tick _) | .call .. | .advance .. => isTrue trivial

section Promise
variable (valid : String → String → String → Prop)

end Promise

variable {settings} {valid : String → String → String → Prop} {w : World} {s : State} {event : Step}
  {call : TokenCall} {consume : Consume}

/-- A call consumes the nonce of its own challenge for its own account. -/
def Bound (w : World) (call : TokenCall) : Prop :=
  match call.phase with
  | .consuming (.getting account nonce _) =>
    account = call.body.account ∧ challengeNonce call.body.challenge = some nonce
  | .consuming (.marking account nonce ttlSeconds) =>
    (account = call.body.account ∧ challengeNonce call.body.challenge = some nonce) ∧
      Found w.nonces (.marking account nonce ttlSeconds)
  | .consuming (.returned _) => False
  | .returned _ => True

structure Tracked (s : State) : Prop where
  recorded : Recorded s.shared.nonces
  bound : Each Bound s

/-- `getToken` does to the nonces what `consumeChallengeNonce` does. -/
theorem getToken_nonces (consuming : call.phase = .consuming consume) :
    (getToken w call).1.nonces = (consumeChallengeNonce w.nonces consume).1 := by
  simp only [getToken, consuming]
  split
  · split <;> rfl
  · rfl
  · rfl

theorem bound_mono {w' : World} (more : ∀ issued ∈ w.nonces.issued, issued ∈ w'.nonces.issued) (bound : Bound w call) :
    Bound w' call := by
  obtain ⟨body, phase⟩ := call
  cases phase with
  | returned result => trivial
  | consuming consume =>
    cases consume with
    | getting account nonce ttlSeconds => exact bound
    | marking account nonce ttlSeconds => exact ⟨bound.1, found_mono more bound.2⟩
    | returned result => exact bound.elim

theorem found_of_bound (bound : Bound w call) (consuming : call.phase = .consuming consume) : Found w.nonces consume := by
  simp only [Bound, consuming] at bound
  cases consume with
  | marking account nonce ttlSeconds => exact bound.2
  | _ => trivial

theorem getToken_issued (w : World) (call : TokenCall) : (getToken w call).1.nonces.issued = w.nonces.issued := by
  cases phase : call.phase with
  | returned result => simp only [getToken, phase]
  | consuming consume => rw [getToken_nonces phase, consume_issued]

theorem getToken_recorded (recorded : Recorded w.nonces) (bound : Bound w call) :
    Recorded (getToken w call).1.nonces := by
  cases phase : call.phase with
  | returned result => simpa only [getToken, phase] using recorded
  | consuming consume =>
    rw [getToken_nonces phase]
    exact recorded_consume recorded (found_of_bound bound phase)

theorem getToken_bound (recorded : Recorded w.nonces) (bound : Bound w call) :
    Bound (getToken w call).1 (getToken w call).2 := by
  obtain ⟨body, phase⟩ := call
  cases phase with
  | returned result => exact bound
  | consuming consume =>
    have found := found_consume recorded consume
    have all := AnchorNonces.proceeds w.nonces consume
    simp only [getToken]
    generalize consumeChallengeNonce w.nonces consume = result at all found
    cases all with
    | fails call result before =>
      cases result with
      | error exception => trivial
      | ok answer =>
        simp only
        split <;> trivial
    | finds account nonce ttlSeconds held => exact ⟨bound, found⟩
    | marks account nonce ttlSeconds positive =>
      simp only
      split <;> trivial

theorem startToken_bound (w : World) (body : Body) : Bound w (startToken settings body) := by
  unfold startToken
  split
  · trivial
  · rename_i nonce parsed
    exact ⟨rfl, parsed⟩

theorem act_recorded {outside : Act} (recorded : Recorded w.nonces)
    (fresh : ∀ account random, outside = .getChallenge account random →
      ∀ issued ∈ w.nonces.issued, issued.nonce ≠ random.nonce) : Recorded (act settings w outside).nonces := by
  cases outside with
  | tick ms =>
    refine recorded_act recorded (.tick ms) ?_
    simp
  | getChallenge account random =>
    simp only [act]
    split
    · refine recorded_act recorded (.challenge account random settings.challengeTtlSeconds) ?_
      rintro account' random' ttlSeconds same
      cases same
      exact fresh account random rfl
    · exact recorded

theorem act_issued (w : World) (outside : Act) :
    ∀ issued ∈ w.nonces.issued, issued ∈ (act settings w outside).nonces.issued := by
  intro issued member
  cases outside with
  | tick ms => exact acts_issued (acts w.nonces (.tick ms)) issued member
  | getChallenge account random =>
    simp only [act]
    split
    · exact acts_issued (acts w.nonces _) issued member
    · exact member

theorem step_tracked (tracked : Tracked s) (fresh : FreshNonce s event) : Tracked (step (service settings) s event) := by
  constructor
  · have moves := steps (service settings) s event
    generalize step (service settings) s event = s' at moves
    cases moves with
    | idle => exact tracked.recorded
    | begins id request free => exact tracked.recorded
    | advances id input call held => exact getToken_recorded tracked.recorded (tracked.bound id call held)
    | acts outside =>
      refine act_recorded tracked.recorded ?_
      rintro account random rfl
      exact fresh
  · apply each_step tracked.bound
    · exact startToken_bound s.shared
    · intro id input call _ held
      refine ⟨getToken_bound tracked.recorded (tracked.bound id call held), fun other bound => bound_mono ?_ bound⟩
      intro issued member
      rw [show ((service settings).proceed s.shared call input).1.nonces.issued = s.shared.nonces.issued from
        getToken_issued _ _]
      exact member
    · exact fun outside other _ bound => bound_mono (act_issued s.shared outside) bound

section Unsigned

end Unsigned

theorem tracked_fresh (now : Nat) : Tracked (.fresh ⟨World.empty now, []⟩) := ⟨recorded_empty now, each_fresh _ _⟩

section Answered
variable {settings : Settings} {account : String} {random : Random}

end Answered

/-! Two answers to one challenge, with the signature of 64 bytes that is all ones and with the
one that is all zeros; only the first is taken to be valid. -/

/-- The answer to the challenge of an address, with a signature. -/
def answer (signature : String) : Body := ⟨someAddress, generateChallenge someAddress someBytes.nonce, signature⟩

/-- A challenge that is answered, up to the point where its nonce was read. -/
def answered (signature : String) : List Step :=
  [.act (.getChallenge someAddress someBytes), .call 0 (answer signature), .advance 0 ()]

/-- The call before its nonce is marked. -/
def marking (signature : String) : TokenCall :=
  ⟨answer signature, .consuming (.marking someAddress someBytes.nonce 300)⟩

end AfroPay.AnchorAuth
