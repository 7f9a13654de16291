import AfroPay.KeyedStore
import AfroPay.WebText
import Mathlib.Data.List.DropRight

/-! Passkeys. Options of either ceremony hand out a challenge that is kept for a minute, in one
list for each user; a verify call takes the challenge that its caller expects out of that list
and compares the client's data with it. What a client sends is any JSON value. -/
namespace AfroPay.WebAuthn
open Base64 Json KeyedStore LossyText WebText

structure StoredPasskey where
  userId : String
  /-- What the client sent, if it sent anything. -/
  credentialId : Option Value
  publicKey : Option Value
  createdAt : Nat
  lastUsedAt : Nat

structure PendingChallenge where
  challenge : String
  expiresAt : Nat
  deriving DecidableEq

structure World where
  /-- Milliseconds. -/
  now : Nat
  registrations : Store String (List StoredPasskey)
  pendingChallenges : Store String (List PendingChallenge)

def World.empty (now : Nat) : World := ⟨now, ∅, ∅⟩

inductive Exception where
  | error (message : String)
  /-- A property of nothing, or no text to decode. -/
  | typeError
  | syntaxError
  deriving DecidableEq

/-- `randomBytes(32)` -/
def Random : Type := { bytes : List UInt8 // bytes.length = 32 }

def toBase64Url (buffer : List UInt8) : String :=
  let plus := (encode buffer).map fun c => if c = '+' then '-' else c
  let slash := plus.map fun c => if c = '/' then '_' else c
  String.ofList (slash.rdropWhile (· = '='))

def Random.challenge (random : Random) : String := toBase64Url random.val

section Values

/-- `!!value`, of what may be missing. -/
def truthy : Option Value → Bool
  | none | some .null => false
  | some (.bool value) => value
  | some (.string text) => text ≠ ""
  | some (.number literal) => numberValue literal ≠ some 0
  | some (.array _) | some (.object _) => true

/-- `a === b`. What clients send is parsed anew each time, so that no two objects are identical. -/
def strictEq : Option Value → Option Value → Bool
  | none, none | some .null, some .null => true
  | some (.bool a), some (.bool b) => a = b
  | some (.string a), some (.string b) => a = b
  | some (.number a), some (.number b) =>
    -- the infinities have their sign
    numberValue a = numberValue b && (numberValue a ≠ none || (a.text.head? == some '-') == (b.text.head? == some '-'))
  | _, _ => false

/-- `value[key]` -/
def property (value : Option Value) (key : String) : Except Exception (Option Value) :=
  match value with
  | none | some .null => .error .typeError
  | some value => .ok (getMember value key)

/-- `a || b` -/
def orElse (a b : Option Value) : Option Value := if truthy a then a else b

/-- `JSON.parse(Buffer.from(value, encoding).toString('utf8'))`. Either encoding decodes both
alphabets. `bufferFrom` is what `Buffer.from` makes of a value that is no text. -/
def parseBuffer (bufferFrom : Value → Option (List UInt8)) (value : Option Value) : Except Exception Value :=
  let buffer := match value with
    | some (.string text) => some (decodeBase64 text.toList)
    | some value => bufferFrom value
    | none => none
  match buffer with
  | none => .error .typeError
  | some bytes =>
    match parse (decodeUtf8 bytes) with
    | some value => .ok value
    | none => .error .syntaxError

def decodeJson (bufferFrom : Value → Option (List UInt8)) (value : Option Value) : Except Exception Value :=
  match parseBuffer bufferFrom value with
  | .ok value => .ok value
  | .error _ => parseBuffer bufferFrom value

/-- A response that is not of the right type is refused. -/
def isPublicKey (response : Option Value) : Bool :=
  truthy response && strictEq (response.bind fun response => getMember response "type") (some (.string "public-key"))

/-- `response.response[key]` -/
def responseProperty (response : Option Value) (key : String) : Except Exception (Option Value) := do
  property (← property response "response") key

/-- `response.id || response.rawId` -/
def credentialIdOf (response : Option Value) : Option Value :=
  orElse (response.bind fun response => getMember response "id")
    (response.bind fun response => getMember response "rawId")

def assertChallenge (actual : Option Value) (expected : String) : Except Exception Unit :=
  if strictEq actual (some (.string expected)) then .ok () else .error (.error "Challenge mismatch")

def assertOrigin (actual : Option Value) (expected : String) : Except Exception Unit :=
  if strictEq actual (some (.string expected)) then .ok () else .error (.error "Origin mismatch")

def assertType (actual : Option Value) (expected : String) : Except Exception Unit :=
  if strictEq actual (some (.string expected)) then .ok () else .error (.error "Unexpected WebAuthn type")

def assertClientData (clientData : Value) (challenge origin type : String) : Except Exception Unit := do
  assertChallenge (← property (some clientData) "challenge") challenge
  assertOrigin (← property (some clientData) "origin") origin
  assertType (← property (some clientData) "type") type

end Values

section Challenges

/-- The list that a user's challenges are in. -/
def pendingOf (w : World) (userId : String) : List PendingChallenge := (w.pendingChallenges.lookup userId).getD []

def getPasskeysForUser (w : World) (userId : String) : List StoredPasskey :=
  (w.registrations.lookup userId).getD []

/-- Expired challenges make way for the new one. -/
def saveChallenge (w : World) (userId challenge : String) : World :=
  let pending := (pendingOf w userId).filter fun item => w.now < item.expiresAt
  { w with pendingChallenges := w.pendingChallenges.insert userId (pending ++ [⟨challenge, w.now + 60000⟩]) }

def consumeChallenge (w : World) (userId challenge : String) : Except Exception World :=
  let pending := pendingOf w userId
  match pending.findIdx? fun item => item.challenge = challenge && w.now < item.expiresAt with
  | none => .error (.error "Challenge is missing, expired, or already used")
  | some matchIndex =>
    .ok { w with pendingChallenges := w.pendingChallenges.insert userId (pending.eraseIdx matchIndex) }

end Challenges

section Options

structure RelyingParty where
  id : String
  name : String

structure WebAuthnUser where
  id : String
  name : String
  displayName : String

structure WebAuthnRegistrationOptions where
  challenge : String
  rp : RelyingParty
  user : WebAuthnUser
  /-- The algorithms, all for public keys. -/
  pubKeyCredParams : List ℤ
  residentKey : String
  userVerification : String
  timeout : Nat
  attestation : String

structure WebAuthnAuthenticationOptions where
  challenge : String
  timeout : Nat
  /-- The identifiers of the credentials that may be used, all internal public keys. -/
  allowCredentials : List (Option Value)
  userVerification : String

def generateRegistrationOptions (w : World) (userId username : String) (displayName rpId : Option String)
    (random : Random) : World × WebAuthnRegistrationOptions :=
  (saveChallenge w userId random.challenge,
    ⟨random.challenge, ⟨rpId.getD "localhost", "AfroPay"⟩,
      ⟨toBase64Url (utf8 userId.toList), username, displayName.getD username⟩, [-7], "preferred", "preferred", 60000,
      "none"⟩)

def generateAuthenticationOptions (w : World) (userId : String) (random : Random) :
    World × WebAuthnAuthenticationOptions :=
  let w := saveChallenge w userId random.challenge
  (w, ⟨random.challenge, 60000, (getPasskeysForUser w userId).map StoredPasskey.credentialId, "preferred"⟩)

end Options

section Verification
variable (bufferFrom : Value → Option (List UInt8))

/-- A verify call: whose it is, what the client sent, and what its caller expects. -/
structure Verify where
  userId : String
  response : Option Value
  expectedChallenge : String
  expectedOrigin : String

def clientDataOf (response : Option Value) : Except Exception Value := do
  decodeJson bufferFrom (← responseProperty response "clientDataJSON")

/-- The attestation is only looked at for its format. -/
def assertAttestation (response : Option Value) : Except Exception Unit := do
  let attestation ← decodeJson bufferFrom (← responseProperty response "attestationObject")
  if !truthy (some attestation) || !truthy (getMember attestation "fmt") then
    throw (.error "Invalid attestation payload")

/-- The new passkey replaces those with its identifier. -/
def register (w : World) (passkey : StoredPasskey) : World :=
  let existing := getPasskeysForUser w passkey.userId
  let others := existing.filter fun item => !strictEq item.credentialId passkey.credentialId
  { w with registrations := w.registrations.insert passkey.userId (others ++ [passkey]) }

/-- The challenge is spent even if the client's data turn out to be wrong. -/
def verifyRegistration (w : World) (call : Verify) : World × Except Exception StoredPasskey :=
  if !isPublicKey call.response then (w, .error (.error "Invalid WebAuthn registration response"))
  else match clientDataOf bufferFrom call.response with
  | .error refused => (w, .error refused)
  | .ok clientData =>
    match consumeChallenge w call.userId call.expectedChallenge with
    | .error refused => (w, .error refused)
    | .ok w =>
      match (do
          assertClientData clientData call.expectedChallenge call.expectedOrigin "webauthn.create"
          assertAttestation bufferFrom call.response
          responseProperty call.response "attestationObject") with
      | .error refused => (w, .error refused)
      | .ok publicKey =>
        let passkey := ⟨call.userId, credentialIdOf call.response, publicKey, w.now, w.now⟩
        (register w passkey, .ok passkey)

def assertAssertion (response : Option Value) : Except Exception Unit := do
  if !truthy (← responseProperty response "authenticatorData") || !truthy (← responseProperty response "signature") then
    throw (.error "Missing authenticator response fields")

/-- The first passkey with the identifier, as it is used now, and the list that holds it. -/
def touch (now : Nat) (credentialId : Option Value) : List StoredPasskey → Option (StoredPasskey × List StoredPasskey)
  | [] => none
  | passkey :: rest =>
    if strictEq passkey.credentialId credentialId then
      let used := { passkey with lastUsedAt := now }
      some (used, used :: rest)
    else (touch now credentialId rest).map fun found => (found.1, passkey :: found.2)

def verifyAuthentication (w : World) (call : Verify) : World × Except Exception StoredPasskey :=
  if !isPublicKey call.response then (w, .error (.error "Invalid WebAuthn authentication response"))
  else match touch w.now (credentialIdOf call.response) (getPasskeysForUser w call.userId) with
  | none => (w, .error (.error "Passkey not registered for this user"))
  | some (passkey, passkeys) =>
    match clientDataOf bufferFrom call.response with
    | .error refused => (w, .error refused)
    | .ok clientData =>
      match consumeChallenge w call.userId call.expectedChallenge with
      | .error refused => (w, .error refused)
      | .ok w =>
        match (do
            assertClientData clientData call.expectedChallenge call.expectedOrigin "webauthn.get"
            assertAssertion call.response) with
        | .error refused => (w, .error refused)
        -- only now the passkey in the list is changed
        | .ok () => ({ w with registrations := w.registrations.insert call.userId passkeys }, .ok passkey)

end Verification

inductive Event where
  | tick (ms : Nat)
  | generateRegistrationOptions (userId username : String) (displayName rpId : Option String) (random : Random)
  | generateAuthenticationOptions (userId : String) (random : Random)
  | verifyRegistration (call : Verify)
  | verifyAuthentication (call : Verify)

def step (bufferFrom : Value → Option (List UInt8)) (w : World) : Event → World
  | .tick ms => { w with now := w.now + ms }
  | .generateRegistrationOptions userId username displayName rpId random =>
    (generateRegistrationOptions w userId username displayName rpId random).1
  | .generateAuthenticationOptions userId random => (generateAuthenticationOptions w userId random).1
  | .verifyRegistration call => (verifyRegistration bufferFrom w call).1
  | .verifyAuthentication call => (verifyAuthentication bufferFrom w call).1

end AfroPay.WebAuthn
