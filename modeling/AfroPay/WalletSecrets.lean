import AfroPay.Erasure
import AfroPay.JoinedText
import AfroPay.LossyText

/-! The secrets of wallets in the database. The wallet service seals a secret for its owner and
opens it again, the service's older form is read as well, and a script rewrites what is left
of that form, one row after another from a list that it read at its start. The administrator's
erasure writes over the secrets of a user in between. -/
namespace AfroPay.WalletSecrets
open Base64 IntegerText Interleaving JoinedText KeyedStore LossyText Runs WebText

abbrev Bytes := List UInt8

/-- What `randomBytes(12)` gives. -/
abbrev Iv := { bytes : Bytes // bytes.length = 12 }

inductive Failure where
  | error (message : String)
  | authTagMismatch
  /-- What Node's crypto or the SDK threw. -/
  | library (message : String)
  | service (exception : Wallets.Exception)
  deriving DecidableEq

/-- What comes from Node's crypto and the Stellar SDK. -/
structure Crypto where
  /-- `hkdfSync('sha256', key, salt, info, 32)` with a salt of 16 zeros. -/
  hkdf : (key info : Bytes) → Bytes
  /-- The ciphertext and the tag of aes-256-gcm. -/
  gcmSeal : (key iv text : Bytes) → Bytes × Bytes
  /-- `createDecipheriv` and `setAuthTag`. -/
  gcmStart : (key iv authTag : Bytes) → Except String Unit
  /-- `update` and `final`; nothing where they throw. -/
  gcmOpen : (key iv authTag ciphertext : Bytes) → Option Bytes
  /-- `createDecipheriv` of aes-256-cbc. -/
  cbcStart : (key iv : Bytes) → Except String Unit
  cbcOpen : (key iv ciphertext : Bytes) → Except String Bytes
  /-- The public key of `Keypair.fromSecret`. -/
  fromSecret : (secretKey : List Char) → Except String String

/-- What was sealed with a derived key opens with it. -/
def Crypto.Opens (crypto : Crypto) : Prop :=
  ∀ (masterKey info text : Bytes) (iv : Iv),
    let key := crypto.hkdf masterKey info
    let sealed := crypto.gcmSeal key iv text
    crypto.gcmStart key iv sealed.2 = .ok () ∧ crypto.gcmOpen key iv sealed.2 sealed.1 = some text

/-- CBC takes no other IV than one of 16 bytes. -/
def Crypto.ChecksIv (crypto : Crypto) : Prop :=
  ∀ key iv, iv.length ≠ 16 → ∃ message, crypto.cbcStart key iv = .error message

/-- What a library threw, as it is passed on. -/
def passed {α : Type} : Except String α → Except Failure α
  | .ok value => .ok value
  | .error message => .error (.library message)

section Texts
variable (crypto : Crypto) (encryptionKey : Option (List Char))

/-- An empty setting is none. -/
def getMasterKey : Except Failure Bytes :=
  match encryptionKey with
  | none | some [] => .error (.error "ENCRYPTION_KEY is required")
  | some configuredKey => .ok (fromHex configuredKey)

def deriveUserKey (userId : String) : Except Failure Bytes := do
  let masterKey ← getMasterKey encryptionKey
  pure (crypto.hkdf masterKey (utf8 userId.toList))

def encrypt (text : List Char) (userId : String) (iv : Iv) : Except Failure (List Char) := do
  let key ← deriveUserKey crypto encryptionKey userId
  let (ciphertext, authTag) := crypto.gcmSeal key iv (utf8 text)
  pure ([':'].intercalate [toHex iv.val, toHex authTag, toHex ciphertext])

/-- The form of two parts, under the master key whoever the owner is. `update` refuses an odd
number of digits. -/
def decryptParts (ivHex encrypted : List Char) : Except Failure (List Char) := do
  let masterKey ← getMasterKey encryptionKey
  passed (crypto.cbcStart masterKey (fromHex ivHex))
  if utf16Length (String.ofList encrypted) % 2 = 1 then
    .error (.library "The argument 'encoding' is invalid for data of this length")
  else do
    let text ← passed (crypto.cbcOpen masterKey (fromHex ivHex) (fromHex encrypted))
    pure (decodeUtf8 text)

def decrypt (data : List Char) (userId : String) : Except Failure (List Char) :=
  match data.splitOn ':' with
  | [ivHex, encrypted] => decryptParts crypto encryptionKey ivHex encrypted
  | [ivHex, authTagHex, ciphertextHex] => do
    let key ← deriveUserKey crypto encryptionKey userId
    passed (crypto.gcmStart key (fromHex ivHex) (fromHex authTagHex))
    match crypto.gcmOpen key (fromHex ivHex) (fromHex authTagHex) (fromHex ciphertextHex) with
    | some text => pure (decodeUtf8 text)
    | none => .error .authTagMismatch
  | _ => .error .authTagMismatch

/-- The script's; nothing for what is not of the older form. -/
def decryptLegacyWalletSecret (data : List Char) : Except Failure (Option (List Char)) :=
  match data.splitOn ':' with
  | [ivHex, encrypted] => some <$> decryptParts crypto encryptionKey ivHex encrypted
  | _ => .ok none

/-- The script's. -/
def encryptWalletSecret : (text : List Char) → (userId : String) → (iv : Iv) → Except Failure (List Char) :=
  encrypt crypto encryptionKey

end Texts

/-- The database, with the ids that it ever gave to a wallet and those of the wallets that an
erasure moved. -/
structure Shared where
  db : Wallets.Database
  issued : List String
  erased : List String

/-- The database as it is found. -/
def Shared.found (db : Wallets.Database) : Shared := ⟨db, db.wallets.keys, []⟩

inductive Request where
  | wallet (userId : String) (request : Wallets.Request)
  | importWallet (userId : String) (secretKey : List Char) (walletAlias : Option String) (iv : Iv)
  | exportWallet (userId : String) (walletId : Option String)
  | migrateEncryption

/-- A row of the script's list. -/
abbrev Listed := String × Wallets.Wallet

/-- What `importWallet` has in hand. -/
structure Import where
  userId : String
  secretKey : List Char
  encryptedSecret : List Char
  deriving DecidableEq

/-- The statement that a call makes next. -/
inductive Call where
  | wallet (userId : String) (phase : Wallets.Phase)
  /-- `importWallet` in `createWallet`. -/
  | creating (key : Import) (phase : Wallets.Phase)
  /-- What `createWallet` does after its insert. It asks for `STELLAR_NETWORK`, which its file does not
  declare. -/
  | funding (key : Import) (walletId : String)
  | storing (key : Import) (walletId : String)
  | imported (key : Import) (walletId : String)
  | refused (failure : Failure)
  | exporting (userId : String) (walletId : Option String)
  /-- The wallet, for a secret that was returned. -/
  | exported (userId : String) (result : Except Failure (String × List Char))
  | listing
  /-- The script's loop, with the rows behind and before it. -/
  | rewriting (behind ahead : List Listed)
  | migrated (behind : List Listed) (result : Except Failure Nat)

/-- What a statement is given from outside: ids, whether `STELLAR_NETWORK` is defined and the account
funded, a fresh IV and the order of a list. -/
structure Outside where
  wallet : Wallets.Outside
  funded : Bool
  iv : Iv
  order : (rows : List Listed) → { listed : List Listed // listed.Perm rows }

def inserts : Wallets.Phase → Bool
  | .inserting .. => true
  | _ => false

/-- A statement of the wallet service. An id is not given out twice. -/
def walletStatement (userId : String) (shared : Shared) (phase : Wallets.Phase) (outside : Wallets.Outside) :
    Option (Shared × Wallets.Phase) :=
  if inserts phase then
    if outside.walletId ∈ shared.issued then none
    else
      let (db, next) := Wallets.proceed userId shared.db phase outside
      some ({ shared with db, issued := outside.walletId :: shared.issued }, next)
  else
    let (db, next) := Wallets.proceed userId shared.db phase outside
    some ({ shared with db }, next)

/-- `update` of one row's secret. -/
def storeSecret (shared : Shared) (walletId : String) (encryptedSecret : List Char) : Except Failure Shared :=
  match shared.db.wallets.lookup walletId with
  | none => .error (.service (.database "P2025"))
  | some wallet =>
    let updated := { wallet with encryptedSecret := some (String.ofList encryptedSecret) }
    .ok { shared with db := { shared.db with wallets := shared.db.wallets.insert walletId updated } }

/-- `getWalletById`, or `getDefaultWallet` where there is no id. -/
def findWallet (userId : String) (db : Wallets.Database) (walletId : Option String) (first : String) :
    Except Failure (String × Wallets.Wallet) :=
  match walletId.filter (· ≠ "") with
  | some id =>
    match Wallets.getWalletById userId db id with
    | .ok wallet => .ok (id, wallet)
    | .error exception => .error (.service exception)
  | none =>
    let defaults := (db.wallets.entries.filter fun entry => entry.2.userId = userId && entry.2.isDefault).map (·.1)
    match Wallets.findFirst defaults first with
    | some id =>
      match db.wallets.lookup id with
      | some wallet => .ok (id, wallet)
      | none => .error (.service (.notFound "No default wallet found"))
    | none => .error (.service (.notFound "No default wallet found"))

section Service
variable (crypto : Crypto) (encryptionKey : Option (List Char))

def exportWallet (userId : String) (db : Wallets.Database) (walletId : Option String) (first : String) :
    Except Failure (String × List Char) := do
  let (id, wallet) ← findWallet userId db walletId first
  match wallet.encryptedSecret with
  | none => .error (.library "Cannot read properties of null (reading 'split')")
  | some data =>
    let secretKey ← decrypt crypto encryptionKey data.toList userId
    pure (id, secretKey)

/-- The body of the script's loop: nothing to write, or what to write over a row. -/
def rewrite (row : Listed) (iv : Iv) : Except Failure (Option (List Char)) :=
  match row.2.encryptedSecret with
  | none => .error (.library "Cannot read properties of null (reading 'split')")
  | some data => do
    match ← decryptLegacyWalletSecret crypto encryptionKey data.toList with
    | none | some [] => pure none
    | some legacyPlaintext => some <$> encryptWalletSecret crypto encryptionKey legacyPlaintext row.2.userId iv

/-- A row that is not rewritten takes no statement; the script goes on to the next one. -/
def rewriteNext (shared : Shared) (behind : List Listed) (row : Listed) (rest : List Listed) (iv : Iv) :
    Shared × Call :=
  match rewrite crypto encryptionKey row iv with
  | .error failure => (shared, .migrated behind (.error failure))
  | .ok none => (shared, .rewriting (behind ++ [row]) rest)
  | .ok (some encryptedSecret) =>
    match storeSecret shared row.1 encryptedSecret with
    | .ok shared => (shared, .rewriting (behind ++ [row]) rest)
    | .error failure => (shared, .migrated behind (.error failure))

/-- How `importWallet` goes on after a statement of `createWallet`. -/
def createNext (key : Import) (walletId : String) : Wallets.Phase → Call
  | .returned (.ok _) => .funding key walletId
  | .returned (.error exception) => .refused (.service exception)
  | phase => .creating key phase

def begin : Request → Call
  | .wallet userId request => .wallet userId (Wallets.start request)
  | .importWallet userId secretKey walletAlias iv =>
    match passed (crypto.fromSecret secretKey) with
    | .error failure => .refused failure
    | .ok publicKey =>
      match encrypt crypto encryptionKey secretKey userId iv with
      | .error failure => .refused failure
      | .ok encryptedSecret =>
        .creating ⟨userId, secretKey, encryptedSecret⟩ (Wallets.start (.createWallet publicKey walletAlias))
  | .exportWallet userId walletId => .exporting userId walletId
  | .migrateEncryption => .listing

def proceed (shared : Shared) (call : Call) (outside : Outside) : Shared × Call :=
  match call with
  | .wallet userId phase =>
    match walletStatement userId shared phase outside.wallet with
    | some (shared, next) => (shared, .wallet userId next)
    | none => (shared, call)
  | .creating key phase =>
    match walletStatement key.userId shared phase outside.wallet with
    | some (shared, next) => (shared, createNext key outside.wallet.walletId next)
    | none => (shared, call)
  | .funding key walletId =>
    if outside.funded then (shared, .storing key walletId)
    else (shared, .refused (.library "STELLAR_NETWORK is not defined"))
  | .storing key walletId =>
    match storeSecret shared walletId key.encryptedSecret with
    | .ok shared => (shared, .imported key walletId)
    | .error failure => (shared, .refused failure)
  | .exporting userId walletId =>
    (shared, .exported userId (exportWallet crypto encryptionKey userId shared.db walletId outside.wallet.walletId))
  | .listing => (shared, .rewriting [] (outside.order (shared.db.wallets.entries.map fun entry => (entry.1, entry.2))).val)
  | .rewriting behind [] => (shared, .migrated behind (.ok behind.length))
  | .rewriting behind (row :: rest) => rewriteNext crypto encryptionKey shared behind row rest outside.iv
  | .imported _ _ | .refused _ | .exported _ _ | .migrated _ _ => (shared, call)

/-- The transaction of `eraseUser` as far as wallets go: those that it read are moved and their
secrets written over with random bytes, and what else the user has by then goes with him. -/
structure Erase where
  userId : String
  pseudonymousUserId : String
  wallets : List (String × Bytes)

def erasedSecret (random : Bytes) : String := "ERASED:" ++ String.ofList (toHex random)

def act (shared : Shared) (erase : Erase) : Shared :=
  match Erasure.moveWallets erase.pseudonymousUserId shared.db.wallets
      (erase.wallets.map fun wallet => (wallet.1, String.ofList (toHex wallet.2))) with
  | .error _ => shared
  | .ok wallets =>
    { shared with
      db := { shared.db with wallets := filterValues wallets fun _ wallet => wallet.userId ≠ erase.userId }
      erased := erase.wallets.map (·.1) ++ shared.erased }

def service : Service Shared Call Request Outside Erase := ⟨begin crypto encryptionKey, proceed crypto encryptionKey, act⟩

abbrev State := System Shared Call

abbrev Step := Event Request Outside Erase

/-- What events lead to from the database as it is found. -/
def reached (db : Wallets.Database) (events : List Step) : State :=
  run (step (service crypto encryptionKey)) (System.fresh (.found db)) events

end Service

end AfroPay.WalletSecrets
