import AfroPay.Base64
import AfroPay.KeyedStore
import AfroPay.Runs

/-! SEP-10 web authentication: the challenge transaction with its nonce, and the checks on
the signed challenge that comes back. Keys, signatures, hashes and XDR are the SDK's. The
nonce travels as text: base64 of the random bytes is stored, its characters are the value
of the challenge operation, and what is looked up is base64 of that value. -/
namespace AfroPay.Sep10
open Base64 KeyedStore Runs

/-- The exceptions a caller sees. -/
inductive Exception where
  | badRequest (message : String)
  | unauthorized (message : String)
  /-- What the SDK or the nonce store threw. -/
  | internal (message : String)
  deriving DecidableEq

structure ManageData where
  name : String
  value : Option (List UInt8)
  source : Option String
  deriving DecidableEq

inductive Operation where
  | manageData (op : ManageData)
  | other
  deriving DecidableEq

structure TimeBounds where
  minTime : Nat
  maxTime : Nat
  deriving DecidableEq

/-- What the hash of a transaction covers. -/
structure Body where
  source : String
  sequence : Nat
  fee : Nat
  operations : List Operation
  timeBounds : Option TimeBounds
  deriving DecidableEq

structure Transaction (Signature : Type) where
  body : Body
  signatures : List Signature
  deriving DecidableEq

inductive Parsed (Signature : Type) where
  | transaction (tx : Transaction Signature)
  | feeBump

/-- What the service takes from the Stellar SDK. -/
structure Sdk where
  Keypair : Type
  Hash : Type
  Signature : Type
  /-- The base64 text of an envelope. -/
  Envelope : Type
  publicKey : Keypair → String
  /-- `Keypair.fromPublicKey` does not throw. -/
  isPublicKey : String → Bool
  hash : Body → String → Hash
  sign : Keypair → Hash → Signature
  /-- The hint is that of the key, and the signature verifies. -/
  verifies : String → Hash → Signature → Bool
  toXDR : Transaction Signature → Envelope
  fromXDR : Envelope → String → Except String (Parsed Signature)

/-- `Operation.manageData` takes names and values of at most 64 bytes. -/
def ManageData.encodable (op : ManageData) : Bool :=
  op.name.utf8ByteSize ≤ 64 && op.value.all fun value => value.length ≤ 64

def Body.encodable (body : Body) : Bool := body.operations.all fun
  | .manageData op => op.encodable
  | .other => true

/-- A transaction that can be encoded is decoded to itself. -/
def Sdk.RoundTrips (sdk : Sdk) : Prop :=
  ∀ (tx : Transaction sdk.Signature) (passphrase : String), tx.body.encodable = true →
    sdk.fromXDR (sdk.toXDR tx) passphrase = .ok (.transaction tx)

inductive Backend where
  | redis
  | memory
  deriving DecidableEq

structure Settings (sdk : Sdk) where
  serverKeypair : sdk.Keypair
  networkPassphrase : String
  homeDomain : String
  challengeTtl : Nat
  backend : Backend
  jwtExpiresIn : Nat

structure State where
  /-- Milliseconds. -/
  now : Nat
  /-- The stored keys, each with the time it expires, if it does. -/
  nonces : Store String (Option Nat)
  /-- The public keys of the users; a user's id is its position. -/
  users : List String

def State.start (now : Nat) : State := ⟨now, ∅, []⟩

def noncePrefix : String := "sep10:nonce:"

def nonceKey (clientPublicKey nonce : String) : String := noncePrefix ++ clientPublicKey ++ ":" ++ nonce

namespace NonceStore

/-- `get`. Redis drops a key when its time has come, the in-memory store after it. -/
def get (backend : Backend) (nonces : Store String (Option Nat)) (now : Nat) (key : String) : Bool :=
  match nonces.lookup key with
  | none => false
  | some none => true
  | some (some expiresAt) =>
    match backend with
    | .redis => now < expiresAt
    | .memory => now ≤ expiresAt

/-- `set key '1' EX ttl`. Redis refuses a ttl of zero, and the in-memory store takes it for none. -/
def set (backend : Backend) (nonces : Store String (Option Nat)) (now : Nat) (key : String) (ttlSeconds : Nat) :
    Except Exception (Store String (Option Nat)) :=
  if ttlSeconds = 0 then
    match backend with
    | .redis => .error (.internal "ERR invalid expire time in 'set' command")
    | .memory => .ok (nonces.insert key none)
  else .ok (nonces.insert key (some (now + ttlSeconds * 1000)))

end NonceStore

/-- `randomBytes(48)`. -/
def Random : Type := { bytes : List UInt8 // bytes.length = 48 }

variable (sdk : Sdk) (settings : Settings sdk)

def expectedKey : String := settings.homeDomain ++ " auth"

/-- The transaction of a challenge, before the server signs it. -/
def challengeBody (clientPublicKey nonce : String) (now : Nat) : Body where
  source := sdk.publicKey settings.serverKeypair
  sequence := 0
  fee := 200
  operations := [
    .manageData ⟨expectedKey sdk settings, some (utf8 nonce.toList), some clientPublicKey⟩,
    .manageData ⟨"web_auth_domain", some (utf8 settings.homeDomain.toList), some (sdk.publicKey settings.serverKeypair)⟩]
  timeBounds := some ⟨now, now + settings.challengeTtl⟩

def signWith (keypair : sdk.Keypair) (tx : Transaction sdk.Signature) : Transaction sdk.Signature :=
  { tx with signatures := tx.signatures ++ [sdk.sign keypair (sdk.hash tx.body settings.networkPassphrase)] }

/-- `generateChallenge`, given the random bytes. -/
def generateChallenge (s : State) (clientPublicKey : String) (random : Random) :
    Except Exception sdk.Envelope × State :=
  if ¬ sdk.isPublicKey clientPublicKey then
    (.error (.badRequest ("Invalid Stellar public key: " ++ clientPublicKey)), s)
  else
    let nonce := String.ofList (encode random.val)
    match NonceStore.set settings.backend s.nonces s.now (nonceKey clientPublicKey nonce) settings.challengeTtl with
    | .error error => (.error error, s)
    | .ok nonces =>
      let body := challengeBody sdk settings clientPublicKey nonce (s.now / 1000)
      if body.encodable then
        (.ok (sdk.toXDR (signWith sdk settings settings.serverKeypair ⟨body, []⟩)), { s with nonces })
      else (.error (.internal "name must be a string, up to 64 characters"), { s with nonces })

def assertTimeboundsValid (now : Nat) (body : Body) : Except Exception Unit :=
  match body.timeBounds with
  | none => .error (.unauthorized "Challenge transaction must have timebounds set")
  | some bounds =>
    if now < bounds.minTime then .error (.unauthorized "Challenge transaction timebounds have not started yet")
    else if bounds.maxTime < now then
      .error (.unauthorized "Challenge transaction has expired — request a new challenge")
    else if 300 < (bounds.maxTime : Int) - bounds.minTime then
      .error (.unauthorized "Challenge timebounds span more than 5 minutes — invalid challenge")
    else .ok ()

def extractChallengeOp (body : Body) : Except Exception (String × String) :=
  match body.operations with
  | [] => .error (.badRequest "Challenge transaction must contain at least one operation")
  | .other :: _ => .error (.badRequest "First operation must be a manage_data operation")
  | .manageData op :: _ =>
    if op.name ≠ expectedKey sdk settings then
      .error (.badRequest ("manage_data key must be \"" ++ expectedKey sdk settings ++ "\", got \"" ++ op.name ++ "\""))
    else match op.source with
      | none => .error (.badRequest "manage_data operation must have an explicit source (client public key)")
      | some clientPublicKey =>
        if ¬ sdk.isPublicKey clientPublicKey then
          .error (.badRequest ("manage_data source is not a valid Stellar public key: " ++ clientPublicKey))
        else match op.value with
          | none => .error (.badRequest "manage_data value (nonce) is missing")
          | some value => .ok (clientPublicKey, String.ofList (encode value))

def consumeNonce (s : State) (clientPublicKey nonce : String) : Except Exception State :=
  let key := nonceKey clientPublicKey nonce
  if NonceStore.get settings.backend s.nonces s.now key then .ok { s with nonces := s.nonces.erase key }
  else .error (.unauthorized
    "Challenge nonce is invalid, expired, or has already been used. Request a new challenge.")

def assertServerSignature (tx : Transaction sdk.Signature) : Except Exception Unit :=
  let hash := sdk.hash tx.body settings.networkPassphrase
  if tx.signatures.any (sdk.verifies (sdk.publicKey settings.serverKeypair) hash) then .ok ()
  else .error (.unauthorized "Server signature is missing or invalid — challenge may have been tampered with")

def assertClientSignature (tx : Transaction sdk.Signature) (clientPublicKey : String) : Except Exception Unit :=
  let hash := sdk.hash tx.body settings.networkPassphrase
  if ¬ sdk.isPublicKey clientPublicKey then
    .error (.unauthorized ("Cannot construct keypair for client public key: " ++ clientPublicKey))
  else if tx.signatures.any (sdk.verifies clientPublicKey hash) then .ok ()
  else .error (.unauthorized
    "Client signature is missing or invalid — ensure you signed the challenge with the correct keypair")

/-- The user of a public key, created if there is none yet. -/
def upsertUserForPublicKey (s : State) (stellarPublicKey : String) : Nat × State :=
  match s.users.idxOf? stellarPublicKey with
  | some id => (id, s)
  | none => (s.users.length, { s with users := s.users ++ [stellarPublicKey] })

/-- What the JWT says, and what is returned with it. -/
structure Token where
  sub : Nat
  stellarAccount : String
  expiresIn : Nat
  deriving DecidableEq

def parse (signedXdr : sdk.Envelope) : Except Exception (Transaction sdk.Signature) :=
  match sdk.fromXDR signedXdr settings.networkPassphrase with
  | .ok (.transaction tx) => .ok tx
  | .ok .feeBump => .error (.badRequest
      "Invalid transaction XDR: SEP-10 challenge must be a regular Transaction, not a FeeBump transaction")
  | .error message => .error (.badRequest ("Invalid transaction XDR: " ++ message))

/-- The checks up to the nonce: the transaction, the client it names, and the state without
the nonce. -/
def checkChallenge (s : State) (signedXdr : sdk.Envelope) :
    Except Exception (Transaction sdk.Signature × String × State) :=
  match parse sdk settings signedXdr with
  | .error error => .error error
  | .ok tx =>
    match assertTimeboundsValid (s.now / 1000) tx.body with
    | .error error => .error error
    | .ok () =>
      match extractChallengeOp sdk settings tx.body with
      | .error error => .error error
      | .ok (clientPublicKey, nonce) =>
        match consumeNonce sdk settings s clientPublicKey nonce with
        | .error error => .error error
        | .ok s' => .ok (tx, clientPublicKey, s')

/-- `verifyAndIssueToken`. A nonce that was consumed stays consumed if a later check fails. -/
def verifyAndIssueToken (s : State) (signedXdr : sdk.Envelope) : Except Exception Token × State :=
  match checkChallenge sdk settings s signedXdr with
  | .error error => (.error error, s)
  | .ok (tx, clientPublicKey, s') =>
    match assertServerSignature sdk settings tx with
    | .error error => (.error error, s')
    | .ok () =>
      match assertClientSignature sdk settings tx clientPublicKey with
      | .error error => (.error error, s')
      | .ok () =>
        let (sub, s'') := upsertUserForPublicKey s' clientPublicKey
        (.ok ⟨sub, clientPublicKey, settings.jwtExpiresIn⟩, s'')

/-- What a wallet does with a challenge: decode it, add its signature, encode it again. -/
def signChallenge (client : sdk.Keypair) (challenge : sdk.Envelope) : Except Exception sdk.Envelope := do
  let tx ← parse sdk settings challenge
  return sdk.toXDR (signWith sdk settings client tx)

/-- Anyone may ask for challenges and submit envelopes, and time passes. -/
inductive Event where
  | generateChallenge (clientPublicKey : String) (random : Random)
  | verifyAndIssueToken (signedXdr : sdk.Envelope)
  | tick (ms : Nat)

def step (s : State) : Event sdk → State
  | .generateChallenge clientPublicKey random => (generateChallenge sdk settings s clientPublicKey random).2
  | .verifyAndIssueToken signedXdr => (verifyAndIssueToken sdk settings s signedXdr).2
  | .tick ms => { s with now := s.now + ms }

/-- Every stored key is that of a challenge: a public key, and 48 bytes in base64. -/
def Stored (s : State) : Prop :=
  ∀ key expiresAt, s.nonces.lookup key = some expiresAt →
    ∃ (client : String) (random : Random), sdk.isPublicKey client = true ∧
      key = nonceKey client (String.ofList (encode random.val))

theorem set_stored {s : State} (stored : Stored sdk s) {backend : Backend} {client : String} {random : Random} {ttl : Nat}
    {nonces : Store String (Option Nat)} (valid : sdk.isPublicKey client = true)
    (set : NonceStore.set backend s.nonces s.now (nonceKey client (String.ofList (encode random.val))) ttl = .ok nonces) :
    Stored sdk { s with nonces } := by
  have inserted : ∃ expires, nonces = s.nonces.insert (nonceKey client (String.ofList (encode random.val))) expires := by
    unfold NonceStore.set at set
    split at set
    · split at set
      · cases set
      · cases set
        exact ⟨_, rfl⟩
    · cases set
      exact ⟨_, rfl⟩
  obtain ⟨expires, rfl⟩ := inserted
  intro key expiresAt found
  rcases lookup_insert_some.mp found with ⟨rfl, -⟩ | ⟨-, before⟩
  · exact ⟨client, random, valid, rfl⟩
  · exact stored key expiresAt before

/-- Beyond the users, only the nonce that was asked for goes. -/
theorem checkChallenge_state {s s' : State} {signedXdr : sdk.Envelope} {tx : Transaction sdk.Signature} {client : String}
    (checked : checkChallenge sdk settings s signedXdr = .ok (tx, client, s')) :
    ∃ key, s' = { s with nonces := s.nonces.erase key } := by
  unfold checkChallenge at checked
  split at checked
  · cases checked
  split at checked
  · cases checked
  split at checked
  · cases checked
  split at checked
  · cases checked
  · rename_i consumed
    cases checked
    unfold consumeNonce at consumed
    simp only at consumed
    split at consumed
    · cases consumed
      exact ⟨_, rfl⟩
    · cases consumed

theorem verify_state (s : State) (signedXdr : sdk.Envelope) :
    (verifyAndIssueToken sdk settings s signedXdr).2.now = s.now ∧
      ((verifyAndIssueToken sdk settings s signedXdr).2.nonces = s.nonces ∨
        ∃ key, (verifyAndIssueToken sdk settings s signedXdr).2.nonces = s.nonces.erase key) := by
  unfold verifyAndIssueToken
  split
  · exact ⟨rfl, .inl rfl⟩
  · rename_i tx client s' checked
    obtain ⟨key, rfl⟩ := checkChallenge_state sdk settings checked
    split
    · exact ⟨rfl, .inr ⟨key, rfl⟩⟩
    split
    · exact ⟨rfl, .inr ⟨key, rfl⟩⟩
    · simp only [upsertUserForPublicKey]
      split <;> exact ⟨rfl, .inr ⟨key, rfl⟩⟩

theorem step_stored (s : State) (event : Event sdk) (stored : Stored sdk s) : Stored sdk (step sdk settings s event) := by
  cases event with
  | generateChallenge client random =>
    simp only [step, generateChallenge]
    split
    · exact stored
    · rename_i valid
      split
      · exact stored
      · rename_i nonces set
        have kept := set_stored sdk stored (by simpa using valid) set
        split <;> exact kept
  | verifyAndIssueToken signedXdr =>
    intro key expiresAt found
    rcases (verify_state sdk settings s signedXdr).2 with same | ⟨key', erased⟩
    · exact stored key expiresAt (by rw [← same]; exact found)
    · exact stored key expiresAt (lookup_erase_some (by rw [← erased]; exact found))
  | tick ms => exact stored

/-- Time does not go back. -/
theorem run_now (s : State) (events : List (Event sdk)) : s.now ≤ (run (step sdk settings) s events).now := by
  refine run_invariant (fun s' : State => s.now ≤ s'.now) (fun s' event later => ?_) le_rfl events
  cases event with
  | generateChallenge client random =>
    simp only [step, generateChallenge]
    split
    · exact later
    split
    · exact later
    · split <;> exact later
  | verifyAndIssueToken signedXdr => exact later.trans (verify_state sdk settings s' signedXdr).1.ge
  | tick ms => exact later.trans (Nat.le_add_right _ _)

/-- Base64 of the characters of 48 bytes in base64. -/
theorem length_encode_twice (random : Random) : (encode (utf8 (encode random.val))).length = 88 := by
  rw [length_encode, length_utf8 (utf8Size_encode _), length_encode, random.property]

/-- Encoded twice, a nonce gives no key that a nonce encoded once gives. -/
theorem nonceKey_twice_ne {client client' : String} (length : client.length = 56) (length' : client'.length = 56)
    (random random' : Random) :
    nonceKey client (String.ofList (encode (utf8 (encode random.val)))) ≠
      nonceKey client' (String.ofList (encode random'.val)) := by
  intro same
  have lengths := congrArg String.length same
  simp only [nonceKey, String.length_append, String.length_ofList, length, length'] at lengths
  rw [length_encode_twice, length_encode, random'.property] at lengths
  omega

/-- The key that is looked up is longer than any that was stored. -/
theorem consumeNonce_twice {s : State} (stored : Stored sdk s)
    (keyLength : ∀ key, sdk.isPublicKey key = true → key.length = 56) {client : String}
    (valid : sdk.isPublicKey client = true) (random : Random) :
    consumeNonce sdk settings s client (String.ofList (encode (utf8 (encode random.val)))) = .error (.unauthorized
      "Challenge nonce is invalid, expired, or has already been used. Request a new challenge.") := by
  have missing : ∀ {expiresAt},
      s.nonces.lookup (nonceKey client (String.ofList (encode (utf8 (encode random.val))))) ≠ some expiresAt := by
    intro expiresAt found
    obtain ⟨client', random', valid', same⟩ := stored _ _ found
    exact nonceKey_twice_ne (keyLength client valid) (keyLength client' valid') random random' same
  have absent : NonceStore.get settings.backend s.nonces s.now
      (nonceKey client (String.ofList (encode (utf8 (encode random.val))))) = false := by
    unfold NonceStore.get
    split
    · rfl
    all_goals
      rename_i found
      exact absurd found missing
  rw [consumeNonce, absent]
  rfl

theorem extract_challenge {client nonce : String} {time : Nat} (valid : sdk.isPublicKey client = true) :
    extractChallengeOp sdk settings (challengeBody sdk settings client nonce time) =
      .ok (client, String.ofList (encode (utf8 nonce.toList))) := by
  simp [extractChallengeOp, challengeBody, valid]

theorem generateChallenge_ok {s : State} {client : String} {random : Random} {challenge : sdk.Envelope}
    (generated : (generateChallenge sdk settings s client random).1 = .ok challenge) :
    sdk.isPublicKey client = true ∧
      let body := challengeBody sdk settings client (String.ofList (encode random.val)) (s.now / 1000)
      body.encodable = true ∧ challenge = sdk.toXDR (signWith sdk settings settings.serverKeypair ⟨body, []⟩) := by
  unfold generateChallenge at generated
  split at generated
  · cases generated
  · rename_i valid
    simp only at generated
    split at generated
    · cases generated
    split at generated
    · rename_i encodable
      cases generated
      exact ⟨by simpa using valid, encodable, rfl⟩
    · cases generated

/-- What the client signs is the challenge of the server with one more signature. -/
theorem parse_signed (roundTrips : sdk.RoundTrips) {body : Body} {client : sdk.Keypair} {signed : sdk.Envelope}
    (encodable : body.encodable = true)
    (signs : signChallenge sdk settings client
      (sdk.toXDR (signWith sdk settings settings.serverKeypair ⟨body, []⟩)) = .ok signed) :
    ∃ tx, parse sdk settings signed = .ok tx ∧ tx.body = body := by
  have decoded : parse sdk settings (sdk.toXDR (signWith sdk settings settings.serverKeypair ⟨body, []⟩)) =
      .ok (signWith sdk settings settings.serverKeypair ⟨body, []⟩) := by
    rw [parse, roundTrips _ _ encodable]
  rw [signChallenge, decoded] at signs
  cases signs
  refine ⟨signWith sdk settings client (signWith sdk settings settings.serverKeypair ⟨body, []⟩), ?_, rfl⟩
  rw [parse, roundTrips _ _ encodable]

/-- A challenge is valid from the second it was made until its lifetime is over. -/
theorem timebounds_valid {client nonce : String} {time now : Nat} (started : time ≤ now)
    (intime : now ≤ time + settings.challengeTtl) (short : settings.challengeTtl ≤ 300) :
    assertTimeboundsValid now (challengeBody sdk settings client nonce time) = .ok () := by
  simp only [assertTimeboundsValid, challengeBody]
  rw [if_neg (by omega), if_neg (by omega), if_neg (by omega)]

/-- Where the nonce is refused, no token is issued. -/
theorem verify_of_refused {s : State} {signed : sdk.Envelope} {tx : Transaction sdk.Signature} {client nonce : String}
    {refusal : Exception} (parsed : parse sdk settings signed = .ok tx)
    (extracted : extractChallengeOp sdk settings tx.body = .ok (client, nonce))
    (refused : consumeNonce sdk settings s client nonce = .error refusal) :
    (∀ token, (verifyAndIssueToken sdk settings s signed).1 ≠ .ok token) ∧
      (assertTimeboundsValid (s.now / 1000) tx.body = .ok () →
        (verifyAndIssueToken sdk settings s signed).1 = .error refusal) := by
  refine ⟨fun token accepted => ?_, fun fresh => ?_⟩
  · unfold verifyAndIssueToken checkChallenge at accepted
    simp only [parsed, extracted, refused] at accepted
    split at accepted
    · cases accepted
    · rename_i checked
      split at checked <;> cases checked
  · unfold verifyAndIssueToken checkChallenge
    simp only [parsed, fresh, extracted, refused]

/-- For every SDK whose transactions survive encoding, every configuration, every run before
and after, every key pair and every nonce: the challenge, signed by its client, is refused.
Within its time bounds it is the nonce that is not found: its key is not the stored one. -/
theorem challenge_never_accepted (roundTrips : sdk.RoundTrips)
    (keyLength : ∀ key, sdk.isPublicKey key = true → key.length = 56) (now : Nat) (before after : List (Event sdk))
    (client : sdk.Keypair) (random : Random) (challenge signed : sdk.Envelope)
    (generated : (generateChallenge sdk settings (run (step sdk settings) (State.start now) before)
      (sdk.publicKey client) random).1 = .ok challenge)
    (signs : signChallenge sdk settings client challenge = .ok signed) :
    let s := run (step sdk settings) (State.start now) before
    let s' := run (step sdk settings) (generateChallenge sdk settings s (sdk.publicKey client) random).2 after
    (∃ extracted,
      extractChallengeOp sdk settings (challengeBody sdk settings (sdk.publicKey client)
        (String.ofList (encode random.val)) (s.now / 1000)) = .ok (sdk.publicKey client, extracted) ∧
      nonceKey (sdk.publicKey client) extracted ≠
        nonceKey (sdk.publicKey client) (String.ofList (encode random.val))) ∧
    (∀ token, (verifyAndIssueToken sdk settings s' signed).1 ≠ .ok token) ∧
    (s'.now / 1000 ≤ s.now / 1000 + settings.challengeTtl → settings.challengeTtl ≤ 300 →
      (verifyAndIssueToken sdk settings s' signed).1 = .error (.unauthorized
        "Challenge nonce is invalid, expired, or has already been used. Request a new challenge.")) := by
  intro s s'
  obtain ⟨valid, encodable, rfl⟩ := generateChallenge_ok sdk settings generated
  obtain ⟨tx, parsed, bodyEq⟩ := parse_signed sdk settings roundTrips encodable signs
  have initial : Stored sdk (State.start now) := fun _ _ found => by cases found
  have stored : Stored sdk s' := by
    have generatedEvent := step_stored sdk settings s (.generateChallenge (sdk.publicKey client) random)
      (run_invariant (Stored sdk) (step_stored sdk settings) initial before)
    exact run_invariant (Stored sdk) (step_stored sdk settings) generatedEvent after
  have later : s.now ≤ s'.now := by
    have first := run_now sdk settings s [.generateChallenge (sdk.publicKey client) random]
    exact first.trans (run_now sdk settings _ after)
  have extracted : extractChallengeOp sdk settings tx.body =
      .ok (sdk.publicKey client, String.ofList (encode (utf8 (encode random.val)))) := by
    rw [bodyEq, extract_challenge sdk settings valid, String.toList_ofList]
  have length := keyLength _ valid
  obtain ⟨noToken, refused⟩ := verify_of_refused sdk settings parsed extracted
    (consumeNonce_twice sdk settings stored keyLength valid random)
  refine ⟨⟨_, bodyEq ▸ extracted, nonceKey_twice_ne length length random random⟩, noToken, fun intime short => ?_⟩
  apply refused
  rw [bodyEq]
  exact timebounds_valid sdk settings (Nat.div_le_div_right later) intime short

/-- Signatures that name their signer and the hash, and envelopes that are transactions. -/
def idealSdk : Sdk where
  Keypair := Char
  Hash := Body × String
  Signature := String × Body × String
  Envelope := Transaction (String × Body × String)
  publicKey := fun key => String.ofList ('G' :: List.replicate 55 key)
  isPublicKey := fun key => key.length = 56
  hash := fun body passphrase => (body, passphrase)
  sign := fun key hash => (String.ofList ('G' :: List.replicate 55 key), hash)
  verifies := fun key hash signature => signature = (key, hash)
  toXDR := fun tx => tx
  fromXDR := fun tx _ => .ok (.transaction tx)

def idealSettings : Settings idealSdk where
  serverKeypair := 'S'
  networkPassphrase := "Test SDF Network ; September 2015"
  homeDomain := "localhost"
  challengeTtl := 300
  backend := .redis
  jwtExpiresIn := 900

/-- The challenge of a client at the first second, signed by the client. -/
def honestChallenge : Except Exception (Transaction (String × Body × String)) :=
  (generateChallenge idealSdk idealSettings (State.start 0) (idealSdk.publicKey 'A') ⟨List.replicate 48 0, rfl⟩).1.bind
    (signChallenge idealSdk idealSettings 'A')

/-- It is submitted at once, and refused. -/
theorem honest_client_refused :
    ∃ signed, honestChallenge = .ok signed ∧
      (verifyAndIssueToken idealSdk idealSettings
        (generateChallenge idealSdk idealSettings (State.start 0) (idealSdk.publicKey 'A')
          ⟨List.replicate 48 0, rfl⟩).2 signed).1 = .error (.unauthorized
        "Challenge nonce is invalid, expired, or has already been used. Request a new challenge.") := by
  refine ⟨_, rfl, ?_⟩
  decide +kernel

theorem challenge_never_accepted_honest :
    ∃ challenge signed,
      (generateChallenge idealSdk idealSettings (State.start 0) (idealSdk.publicKey 'A')
        ⟨List.replicate 48 0, rfl⟩).1 = .ok challenge ∧
      signChallenge idealSdk idealSettings 'A' challenge = .ok signed ∧
      ∀ token, (verifyAndIssueToken idealSdk idealSettings
        (generateChallenge idealSdk idealSettings (State.start 0) (idealSdk.publicKey 'A')
          ⟨List.replicate 48 0, rfl⟩).2 signed).1 ≠ .ok token := by
  refine ⟨_, _, rfl, rfl, ?_⟩
  exact (challenge_never_accepted idealSdk idealSettings (fun _ _ _ => rfl) (fun _ valid => of_decide_eq_true valid) 0 []
    [] 'A' ⟨List.replicate 48 0, rfl⟩ _ _ rfl rfl).2.1

end AfroPay.Sep10
