import AfroPay.AuditLog
import AfroPay.Panics
import AfroPay.TransferData
import AfroPay.Wallets

/-! Erasure of a user: `eraseUser` reads the user and the wallets, and then moves everything
the user holds to a new, pseudonymous user in one database transaction, which deletes the user
and leaves a tombstone. Reports about the user resolve the tombstone. The transaction is one
step and has no effect when one of its statements fails. -/
namespace AfroPay.Erasure
open Base64 KeyedStore Panics Runs WebText
open AuditLog (Answer Failure)

inductive UserRole where
  | user
  | admin
  deriving DecidableEq

structure User where
  email : String
  password : String
  name : Option String
  role : UserRole
  erasedAt : Option Nat
  createdAt : Nat
  deriving DecidableEq

structure Transaction where
  userId : String
  walletId : String
  body : Transfer.SendDto
  idempotencyKey : Option String
  status : Transfer.Status
  riskScore : Option ℚ
  flagged : Bool
  createdAt : Nat
  deriving DecidableEq

structure Tombstone where
  pseudonymousUserId : String
  erasedAt : Nat
  deriving DecidableEq

/-- The tables by their ids; tombstones are stored under `originalUserIdHash`. -/
structure Database where
  users : Store String User
  wallets : Store String Wallets.Wallet
  transactions : Store String Transaction
  /-- The user of each record. -/
  kycRecords : Store String String
  auditLogs : AuditLog.Table
  tombstones : Store String Tombstone

inductive Exception where
  | forbidden (message : String)
  | notFound (message : String)
  | database (failure : Failure)
  deriving DecidableEq

section Redaction

def piiMetadataKeys : List String :=
  ["email", "name", "fullName", "phone", "phoneNumber", "dateOfBirth", "dob", "documentRef", "documentNumber",
    "ipAddress", "userAgent"]

/-- The key is one of them, in any case. -/
def isPiiKey (key : String) : Bool :=
  piiMetadataKeys.any fun pii => pii.toList.map Char.toLower = key.toList.map Char.toLower

mutual
def redactPii : Json.Value → Json.Value
  | .array items => .array (redactItems items)
  | .object members => .object (redactMembers members)
  | value => value
def redactItems : List Json.Value → List Json.Value
  | [] => []
  | item :: rest => redactPii item :: redactItems rest
def redactMembers : List (String × Json.Value) → List (String × Json.Value)
  | [] => []
  | (key, value) :: rest => if isPiiKey key then redactMembers rest else (key, redactPii value) :: redactMembers rest
end

end Redaction

def lookupHash (userId : String) : String := Sha256.hexDigest (utf8 userId.toList)

def assertAdmin (db : Database) (adminUserId : String) : Except Exception Unit :=
  match db.users.lookup adminUserId with
  | some admin =>
    if admin.role = .admin ∧ admin.erasedAt = none then .ok ()
    else .error (.forbidden "Administrator access is required")
  | none => .error (.forbidden "Administrator access is required")

def logAccess (db : Database) (adminUserId operation targetLookupHash : String) (answer : Answer) :
    Except Exception Database :=
  match AuditLog.create db.auditLogs (AuditLog.accessEntry adminUserId operation targetLookupHash) answer with
  | .ok (_, auditLogs) => .ok { db with auditLogs }
  | .error failure => .error (.database failure)

/-- What `eraseUser` reads of the user before its transaction. -/
structure Found where
  createdAt : Nat
  wallets : List String
  kyc : Option String
  deriving DecidableEq

/-- The ids of the user's wallets. -/
def walletsOf (db : Database) (userId : String) : List String :=
  (db.wallets.entries.filter fun entry => entry.2.userId = userId).map (·.1)

def findUser (db : Database) (userId : String) : Option Found :=
  (db.users.lookup userId).map fun user =>
    ⟨user.createdAt, walletsOf db userId, (db.kycRecords.entries.find? (·.2 = userId)).map (·.1)⟩

section Statements

/-- Ids and emails are unique. -/
def createUser (users : Store String User) (id : String) (user : User) : Except Failure (Store String User) :=
  if (users.lookup id).isSome ∨ users.entries.any (·.2.email = user.email) then .error (.client "P2002")
  else .ok (users.insert id user)

/-- The wallet of another user, without its secret. -/
def erasedWallet (pseudonymousUserId secret : String) (wallet : Wallets.Wallet) : Wallets.Wallet :=
  { wallet with
    userId := pseudonymousUserId
    encryptedSecret := some ("ERASED:" ++ secret)
    encryptedDek := none
    kmsKeyId := none }

/-- Aliases are unique for each user. -/
def moveWallet (pseudonymousUserId : String) (wallets : Store String Wallets.Wallet) (walletId secret : String) :
    Except Failure (Store String Wallets.Wallet) :=
  match wallets.lookup walletId with
  | none => .error (.client "P2025")
  | some wallet =>
    if wallet.walletAlias.isSome ∧ wallets.entries.any (fun entry => entry.1 ≠ walletId &&
        entry.2.userId = pseudonymousUserId && entry.2.walletAlias = wallet.walletAlias) then .error (.client "P2002")
    else .ok (wallets.insert walletId (erasedWallet pseudonymousUserId secret wallet))

def moveWallets (pseudonymousUserId : String) :
    Store String Wallets.Wallet → List (String × String) → Except Failure (Store String Wallets.Wallet)
  | wallets, [] => .ok wallets
  | wallets, (walletId, secret) :: rest => do
    let wallets ← moveWallet pseudonymousUserId wallets walletId secret
    moveWallets pseudonymousUserId wallets rest

def deleteKyc (kycRecords : Store String String) : Option String → Except Failure (Store String String)
  | none => .ok kycRecords
  | some id => if (kycRecords.lookup id).isSome then .ok (kycRecords.erase id) else .error (.client "P2025")

/-- A transaction of one user goes to another. -/
def Transaction.moved (userId pseudonymousUserId : String) (row : Transaction) : Transaction :=
  if row.userId = userId then { row with userId := pseudonymousUserId } else row

/-- `updateMany`; keys are unique for each user. -/
def moveTransactions (transactions : Store String Transaction) (userId pseudonymousUserId : String) :
    Except Failure (Store String Transaction) :=
  if transactions.entries.any (fun entry => entry.2.userId = userId && entry.2.idempotencyKey.isSome &&
      transactions.entries.any fun other =>
        other.2.userId = pseudonymousUserId && other.2.idempotencyKey = entry.2.idempotencyKey) then
    .error (.client "P2002")
  else .ok (mapValues transactions (·.moved userId pseudonymousUserId))

/-- What the update of a log writes over its row. -/
def pseudonymise (pseudonymousUserId : String) (log row : AuditLog.Row) : AuditLog.Row :=
  { row with
    userId := some pseudonymousUserId
    metadata := if log.metadata.isSome then log.metadata.map redactPii else row.metadata }

def updateLogs (allowAnonymization : Option String) (pseudonymousUserId : String) :
    AuditLog.Table → List AuditLog.Row → Except Failure AuditLog.Table
  | table, [] => .ok table
  | table, log :: rest => do
    let table ← AuditLog.update table allowAnonymization log.id (pseudonymise pseudonymousUserId log)
    updateLogs allowAnonymization pseudonymousUserId table rest

/-- The setting that the trigger asks for is made when there are logs of the user. -/
def pseudonymiseLogs (table : AuditLog.Table) (userId pseudonymousUserId : String) : Except Failure AuditLog.Table :=
  let subjectAuditLogs := table.rows.filter (·.userId = some userId)
  updateLogs (if subjectAuditLogs.isEmpty then none else some "on") pseudonymousUserId table subjectAuditLogs

/-- Wallets, transactions and the record of the user are deleted with the user, but a wallet
that has a transaction is not, and then nothing is. -/
def deleteUser (db : Database) (userId : String) : Except Failure Database :=
  if (db.users.lookup userId).isNone then .error (.client "P2025")
  else if db.transactions.entries.any (fun entry => walletsOf db userId |>.contains entry.2.walletId) then
    .error (.client "P2003")
  else .ok { db with
    users := db.users.erase userId
    wallets := filterValues db.wallets fun _ wallet => wallet.userId ≠ userId
    transactions := filterValues db.transactions fun _ row => row.userId ≠ userId
    kycRecords := filterValues db.kycRecords fun _ owner => owner ≠ userId }

def createTombstone (tombstones : Store String Tombstone) (originalUserIdHash : String) (tombstone : Tombstone) :
    Except Failure (Store String Tombstone) :=
  if (tombstones.lookup originalUserIdHash).isSome ∨
      tombstones.entries.any (·.2.pseudonymousUserId = tombstone.pseudonymousUserId) then .error (.client "P2002")
  else .ok (tombstones.insert originalUserIdHash tombstone)

def erasedEntry (pseudonymousUserId adminUserId : String) (count : Nat) : AuditLog.Entry :=
  .plain (some pseudonymousUserId) "COMPLIANCE" "USER_ERASED" "SUCCESS"
    (some (.object [("administeredBy", .string adminUserId), ("retainedTransactionCount", .number (natLiteral count))]))

end Statements

structure Request where
  userId : String
  adminUserId : String
  deriving DecidableEq

/-- What a step is given from outside: the answer of the database, `randomUUID`, the time, and
`randomBytes(32)` in hexadecimal for the password and for the wallets in turn. -/
structure Outside where
  answer : Answer
  pseudonymousUserId : String
  erasedAt : Nat
  password : String
  secrets : Nat → String

/-- The new user that stands for the erased one. -/
def pseudonymousUser (createdAt : Nat) (outside : Outside) : User :=
  ⟨"erased+" ++ outside.pseudonymousUserId ++ "@anonymized.invalid", "ERASED:" ++ outside.password, none, .user,
    some outside.erasedAt, createdAt⟩

/-- Each wallet with what is drawn for it. -/
def Outside.withSecrets (outside : Outside) (wallets : List String) : List (String × String) :=
  wallets.zipIdx.map fun (walletId, i) => (walletId, outside.secrets i)

/-- The transaction of `eraseUser`, with the number of transactions it moved. -/
def transaction (db : Database) (request : Request) (found : Found) (outside : Outside) :
    Except Failure (Database × Nat) := do
  let pseudonymousUserId := outside.pseudonymousUserId
  let users ← createUser db.users pseudonymousUserId (pseudonymousUser found.createdAt outside)
  let wallets ← moveWallets pseudonymousUserId db.wallets (outside.withSecrets found.wallets)
  let kycRecords ← deleteKyc db.kycRecords found.kyc
  let moved := db.transactions.entries.countP (·.2.userId = request.userId)
  let transactions ← moveTransactions db.transactions request.userId pseudonymousUserId
  let logs ← pseudonymiseLogs db.auditLogs request.userId pseudonymousUserId
  let db ← deleteUser { db with users, wallets, kycRecords, transactions, auditLogs := logs } request.userId
  let tombstones ← createTombstone db.tombstones (lookupHash request.userId) ⟨pseudonymousUserId, outside.erasedAt⟩
  let erasedEntry := erasedEntry pseudonymousUserId request.adminUserId moved
  let (_, auditLogs) ← AuditLog.create db.auditLogs erasedEntry outside.answer
  pure ({ db with tombstones, auditLogs }, moved)

inductive Outcome where
  | alreadyErased (pseudonymousUserId : String) (erasedAt : Nat)
  | erased (pseudonymousUserId : String) (erasedAt : Nat) (retainedTransactionCount : Nat)
  deriving DecidableEq

/-- The statement that a call of `eraseUser` makes next. -/
inductive Phase where
  | asserting
  | logging
  | lookingUp
  | reading
  | committing (found : Found)
  | returned (result : Except Exception Outcome)
  deriving DecidableEq

def fail (exception : Exception) : Phase := .returned (.error exception)

/-- One statement of `eraseUser`, or its transaction. -/
def proceed (request : Request) (db : Database) (phase : Phase) (outside : Outside) : Database × Phase :=
  match phase, outside.answer with
  | .returned result, _ => (db, .returned result)
  | _, .fails => (db, fail (.database (.client "P1001")))
  | .asserting, _ =>
    match assertAdmin db request.adminUserId with
    | .ok () => (db, .logging)
    | .error exception => (db, fail exception)
  | .logging, answer =>
    match logAccess db request.adminUserId "USER_ERASURE_ACCESSED" (lookupHash request.userId) answer with
    | .ok db => (db, .lookingUp)
    | .error exception => (db, fail exception)
  | .lookingUp, _ =>
    match db.tombstones.lookup (lookupHash request.userId) with
    | some existing => (db, .returned (.ok (.alreadyErased existing.pseudonymousUserId existing.erasedAt)))
    | none => (db, .reading)
  | .reading, _ =>
    match findUser db request.userId with
    | some found => (db, .committing found)
    | none => (db, fail (.notFound "User not found"))
  | .committing found, _ =>
    match transaction db request found outside with
    | .ok (db, moved) => (db, .returned (.ok (.erased outside.pseudonymousUserId outside.erasedAt moved)))
    | .error failure => (db, fail (.database failure))

/-- A call that runs alone, from what it is given at each of its steps. -/
def eraseUser (db : Database) (request : Request) (outsides : List Outside) : Database × Phase :=
  run (fun s outside => proceed request s.1 s.2 outside) (db, .asserting) outsides

section Effects
variable {userId pseudonymousUserId : String}

theorem createUser_ok {users after : Store String User} {id : String} {user : User}
    (done : createUser users id user = .ok after) : users.lookup id = none ∧ after = users.insert id user := by
  unfold createUser at done
  split at done
  · cases done
  · rename_i free
    cases done
    simp only [not_or, Option.not_isSome_iff_eq_none] at free
    exact ⟨free.1, rfl⟩

theorem moveWallet_ok {wallets after : Store String Wallets.Wallet} {walletId secret : String}
    (done : moveWallet pseudonymousUserId wallets walletId secret = .ok after) :
    ∃ wallet, wallets.lookup walletId = some wallet ∧
      after = wallets.insert walletId (erasedWallet pseudonymousUserId secret wallet) := by
  unfold moveWallet at done
  split at done
  · cases done
  · rename_i wallet found
    split at done
    · cases done
    · cases done
      exact ⟨wallet, found, rfl⟩

/-- Exactly the listed wallets are moved. -/
theorem moveWallets_ok {wallets after : Store String Wallets.Wallet} {listed : List (String × String)}
    (done : moveWallets pseudonymousUserId wallets listed = .ok after) (walletId : String) :
    (walletId ∉ listed.map (·.1) → after.lookup walletId = wallets.lookup walletId) ∧
      (walletId ∈ listed.map (·.1) → ∃ wallet secret, wallets.lookup walletId = some wallet ∧
        after.lookup walletId = some (erasedWallet pseudonymousUserId secret wallet)) := by
  induction listed generalizing wallets with
  | nil =>
    cases done
    simp
  | cons entry rest ih =>
    obtain ⟨first, secret⟩ := entry
    simp only [moveWallets, bind_ok] at done
    obtain ⟨middle, moved, done⟩ := done
    obtain ⟨wallet, found, rfl⟩ := moveWallet_ok moved
    obtain ⟨others, mine⟩ := ih done
    simp only [List.map_cons, List.mem_cons, not_or]
    refine ⟨fun ⟨ne, absent⟩ => (others absent).trans (AList.lookup_insert_ne ne), ?_⟩
    intro member
    by_cases later : walletId ∈ rest.map (·.1)
    · obtain ⟨held, secret', stored, after⟩ := mine later
      by_cases same : walletId = first
      · subst same
        rw [AList.lookup_insert] at stored
        cases stored
        exact ⟨wallet, secret', found, after⟩
      · rw [AList.lookup_insert_ne same] at stored
        exact ⟨held, secret', stored, after⟩
    · have same : walletId = first := member.resolve_right later
      subst same
      exact ⟨wallet, secret, found, (others later).trans (AList.lookup_insert _)⟩

theorem moveTransactions_ok {transactions after : Store String Transaction}
    (done : moveTransactions transactions userId pseudonymousUserId = .ok after) :
    after = mapValues transactions (·.moved userId pseudonymousUserId) := by
  unfold moveTransactions at done
  split at done
  · cases done
  · cases done
    rfl

theorem moved_userId_ne (ne : pseudonymousUserId ≠ userId) (row : Transaction) :
    (row.moved userId pseudonymousUserId).userId ≠ userId := by
  unfold Transaction.moved
  split
  · exact ne
  · assumption

theorem createTombstone_ok {tombstones after : Store String Tombstone} {hash : String} {tombstone : Tombstone}
    (done : createTombstone tombstones hash tombstone = .ok after) :
    tombstones.lookup hash = none ∧ after = tombstones.insert hash tombstone := by
  unfold createTombstone at done
  split at done
  · cases done
  · rename_i free
    cases done
    simp only [not_or, Option.not_isSome_iff_eq_none] at free
    exact ⟨free.1, rfl⟩

theorem mem_walletsOf {db : Database} {walletId : String} :
    walletId ∈ walletsOf db userId ↔ ∃ wallet, db.wallets.lookup walletId = some wallet ∧ wallet.userId = userId := by
  simp only [walletsOf, List.mem_map, List.mem_filter, decide_eq_true_eq]
  constructor
  · rintro ⟨⟨id, wallet⟩, ⟨member, owner⟩, rfl⟩
    exact ⟨wallet, AList.mem_lookup_iff.mpr member, owner⟩
  · rintro ⟨wallet, found, owner⟩
    exact ⟨⟨walletId, wallet⟩, ⟨AList.mem_lookup_iff.mp found, owner⟩, rfl⟩

theorem deleteUser_ok {db after : Database} (done : deleteUser db userId = .ok after) :
    (db.users.lookup userId).isSome ∧
      (∀ txId row, db.transactions.lookup txId = some row → row.walletId ∉ walletsOf db userId) ∧
      after = { db with
        users := db.users.erase userId
        wallets := filterValues db.wallets fun _ wallet => wallet.userId ≠ userId
        transactions := filterValues db.transactions fun _ row => row.userId ≠ userId
        kycRecords := filterValues db.kycRecords fun _ owner => owner ≠ userId } := by
  unfold deleteUser at done
  split at done
  · cases done
  · rename_i known
    split at done
    · cases done
    · rename_i unused
      cases done
      refine ⟨by simpa [Option.isSome_iff_ne_none] using known, ?_, rfl⟩
      intro txId row found member
      apply unused
      simp only [List.any_eq_true, List.contains_iff_mem]
      exact ⟨⟨txId, row⟩, AList.mem_lookup_iff.mp found, member⟩

/-- The row of the erased user after the transaction; other rows stay. -/
def pseudonymised (userId pseudonymousUserId : String) (row : AuditLog.Row) : AuditLog.Row :=
  if row.userId = some userId then pseudonymise pseudonymousUserId row row else row

/-- The updates reach exactly the listed rows. -/
theorem updateLogs_ok {allowAnonymization : Option String} {table after : AuditLog.Table} {logs : List AuditLog.Row}
    (done : updateLogs allowAnonymization pseudonymousUserId table logs = .ok after)
    (known : ∀ log ∈ logs, log ∈ table.rows) (distinct : (logs.map (·.id)).Nodup) :
    after.rows = table.rows.map fun row =>
      if row.id ∈ logs.map (·.id) then pseudonymise pseudonymousUserId row row else row := by
  induction logs generalizing table with
  | nil =>
    cases done
    simp
  | cons log rest ih =>
    simp only [updateLogs, bind_ok] at done
    obtain ⟨middle, updated, done⟩ := done
    obtain ⟨here, later⟩ := List.nodup_cons.mp distinct
    -- the row that is updated is the log itself
    have rows : middle.rows = table.rows.map fun row =>
        if row.id = log.id then pseudonymise pseudonymousUserId row row else row := by
      rw [AuditLog.update_ok updated]
      apply List.map_congr_left
      intro row member
      unfold AuditLog.changed
      split
      · rename_i same
        rw [AuditLog.eq_of_id member (known log (List.mem_cons_self ..)) same]
        rfl
      · rfl
    have stays : ∀ other ∈ rest, other ∈ middle.rows := by
      intro other member
      have ne : other.id ≠ log.id := fun same => here (List.mem_map.mpr ⟨other, member, same⟩)
      rw [rows]
      exact List.mem_map.mpr ⟨other, known other (List.mem_cons_of_mem _ member), by simp [ne]⟩
    rw [ih done stays later, rows, List.map_map]
    apply List.map_congr_left
    intro row _
    by_cases same : row.id = log.id
    · have absent : (pseudonymise pseudonymousUserId row row).id ∉ rest.map (·.id) := by
        change row.id ∉ _
        rwa [same]
      simp only [Function.comp_apply, same, if_true, absent, if_false, List.map_cons, List.mem_cons, true_or]
    · simp [same]

theorem pseudonymiseLogs_ok {table after : AuditLog.Table}
    (done : pseudonymiseLogs table userId pseudonymousUserId = .ok after) :
    after.rows = table.rows.map (pseudonymised userId pseudonymousUserId) := by
  have subjects : ∀ log ∈ table.rows.filter (·.userId = some userId), log ∈ table.rows :=
    fun log member => (List.mem_filter.mp member).1
  rw [updateLogs_ok done subjects (table.distinct.sublist (List.filter_sublist.map _))]
  apply List.map_congr_left
  intro row member
  have subject : row.id ∈ (table.rows.filter (·.userId = some userId)).map (·.id) ↔ row.userId = some userId := by
    constructor
    · intro listed
      obtain ⟨log, found, same⟩ := List.mem_map.mp listed
      obtain ⟨known, owner⟩ := List.mem_filter.mp found
      rw [AuditLog.eq_of_id member known same.symm]
      simpa using owner
    · intro owner
      exact List.mem_map.mpr ⟨row, List.mem_filter.mpr ⟨member, by simpa using owner⟩, rfl⟩
  simp only [subject, pseudonymised]

/-- Everything the transaction does when it commits. -/
structure Committed (db : Database) (userId : String) (found : Found) (outside : Outside) (after : Database) :
    Prop where
  live : (db.users.lookup userId).isSome
  fresh : db.users.lookup outside.pseudonymousUserId = none
  users : after.users =
    (db.users.insert outside.pseudonymousUserId (pseudonymousUser found.createdAt outside)).erase userId
  /-- Listed wallets are moved; of the others those of the user are deleted, and have no transaction. -/
  moved : ∀ walletId ∈ found.wallets, ∃ wallet secret, db.wallets.lookup walletId = some wallet ∧
    after.wallets.lookup walletId = some (erasedWallet outside.pseudonymousUserId secret wallet)
  kept : ∀ walletId, walletId ∉ found.wallets →
    after.wallets.lookup walletId = (db.wallets.lookup walletId).filter (·.userId ≠ userId)
  unused : ∀ walletId wallet, walletId ∉ found.wallets → db.wallets.lookup walletId = some wallet →
    wallet.userId = userId → ∀ txId row, db.transactions.lookup txId = some row → row.walletId ≠ walletId
  transactions : ∀ txId, after.transactions.lookup txId =
    (db.transactions.lookup txId).map (·.moved userId outside.pseudonymousUserId)
  auditLogs : ∃ row : AuditLog.Row, row.hash = none ∧ (∀ old ∈ db.auditLogs.rows, old.id ≠ row.id) ∧
    after.auditLogs.rows = db.auditLogs.rows.map (pseudonymised userId outside.pseudonymousUserId) ++ [row]
  unburied : db.tombstones.lookup (lookupHash userId) = none
  tombstones : after.tombstones =
    db.tombstones.insert (lookupHash userId) ⟨outside.pseudonymousUserId, outside.erasedAt⟩

theorem withSecrets_ids (outside : Outside) (wallets : List String) :
    (outside.withSecrets wallets).map (·.1) = wallets := by
  rw [Outside.withSecrets, List.map_map]
  exact List.zipIdx_map_fst 0 wallets

theorem pseudonymised_id (row : AuditLog.Row) : (pseudonymised userId pseudonymousUserId row).id = row.id := by
  unfold pseudonymised
  split <;> rfl

/-- The user that is erased was there, or was erased before. -/
def Seen (db : Database) (userId : String) : Prop :=
  (db.users.lookup userId).isSome ∨ (db.tombstones.lookup (lookupHash userId)).isSome

/-- What the transaction does for a user it found, from what its statements do. -/
theorem transaction_ok {db after : Database} {request : Request} {found : Found} {outside : Outside} {count : Nat}
    (seen : Seen db request.userId) (done : transaction db request found outside = .ok (after, count)) :
    Committed db request.userId found outside after := by
  simp only [transaction, bind_ok, pure_ok] at done
  obtain ⟨users, created, wallets, moved, kycRecords, -, transactions, rewritten, logs, updated, middle, deleted,
    tombstones, buried, ⟨row, auditLogs⟩, logged, same⟩ := done
  cases same
  obtain ⟨fresh, rfl⟩ := createUser_ok created
  obtain rfl := moveTransactions_ok rewritten
  obtain ⟨-, unused, rfl⟩ := deleteUser_ok deleted
  obtain ⟨unburied, rfl⟩ := createTombstone_ok buried
  obtain ⟨hash, free, rows⟩ := AuditLog.create_ok logged
  have live : (db.users.lookup request.userId).isSome := by
    refine seen.resolve_right ?_
    simpa using unburied
  have ne : outside.pseudonymousUserId ≠ request.userId := by
    intro equal
    rw [← equal, fresh] at live
    cases live
  have ids := withSecrets_ids outside found.wallets
  refine ⟨live, fresh, rfl, ?_, ?_, ?_, ?_, ?_, unburied, rfl⟩
  · intro walletId listed
    obtain ⟨wallet, secret, stored, after⟩ := (moveWallets_ok moved walletId).2 (by rwa [ids])
    refine ⟨wallet, secret, stored, ?_⟩
    rw [lookup_filterValues, after]
    exact Option.filter_some_pos (decide_eq_true ne)
  · intro walletId unlisted
    rw [lookup_filterValues, (moveWallets_ok moved walletId).1 (by rwa [ids])]
  · intro walletId wallet unlisted stored owner txId row used same
    have stored' : wallets.lookup walletId = some wallet :=
      ((moveWallets_ok moved walletId).1 (by rwa [ids])).trans stored
    refine unused txId (row.moved request.userId outside.pseudonymousUserId) ?_ ?_
    · rw [lookup_mapValues, used]
      rfl
    · apply mem_walletsOf.mpr
      refine ⟨wallet, ?_, owner⟩
      rw [← stored', ← same]
      congr 1
      unfold Transaction.moved
      split <;> rfl
  · intro txId
    rw [lookup_filterValues, lookup_mapValues]
    cases db.transactions.lookup txId with
    | none => rfl
    | some row =>
      exact Option.filter_some_pos (decide_eq_true (moved_userId_ne ne row))
  · refine ⟨row, hash, ?_, ?_⟩
    · intro old member
      rw [← pseudonymised_id old]
      apply free
      rw [pseudonymiseLogs_ok updated]
      exact List.mem_map_of_mem member
    · rw [rows, pseudonymiseLogs_ok updated]

/-- The new id belonged to nobody. -/
theorem pseudonym_unused {db after : Database} {found : Found} {outside : Outside} {other : String}
    (commit : Committed db userId found outside after) (live : (db.users.lookup other).isSome) :
    outside.pseudonymousUserId ≠ other := by
  rintro rfl
  rw [commit.fresh] at live
  cases live

end Effects

/-- Everything a step of `eraseUser` can do. -/
inductive Proceeds (request : Request) (db : Database) (outside : Outside) : Phase → Database × Phase → Prop where
  | stops (phase : Phase) (result : Except Exception Outcome)
      (unerased : phase = .returned result ∨ ∀ pseudonymousUserId erasedAt count,
        result ≠ .ok (.erased pseudonymousUserId erasedAt count)) :
      Proceeds request db outside phase (db, .returned result)
  | asserts : Proceeds request db outside .asserting (db, .logging)
  | logs (row : AuditLog.Row) (auditLogs : AuditLog.Table) (unsealed : row.hash = none)
      (fresh : ∀ old ∈ db.auditLogs.rows, old.id ≠ row.id) (rows : auditLogs.rows = db.auditLogs.rows ++ [row]) :
      Proceeds request db outside .logging ({ db with auditLogs }, .lookingUp)
  | looks : Proceeds request db outside .lookingUp (db, .reading)
  | reads (found : Found) (read : findUser db request.userId = some found) :
      Proceeds request db outside .reading (db, .committing found)
  | commits (found : Found) (after : Database) (count : Nat)
      (done : transaction db request found outside = .ok (after, count)) :
      Proceeds request db outside (.committing found)
        (after, .returned (.ok (.erased outside.pseudonymousUserId outside.erasedAt count)))

theorem logAccess_ok {db after : Database} {adminUserId operation hash : String} {answer : Answer}
    (done : logAccess db adminUserId operation hash answer = .ok after) :
    ∃ (row : AuditLog.Row) (auditLogs : AuditLog.Table), row.hash = none ∧
      (∀ old ∈ db.auditLogs.rows, old.id ≠ row.id) ∧ auditLogs.rows = db.auditLogs.rows ++ [row] ∧
      after = { db with auditLogs } := by
  unfold logAccess at done
  split at done
  · rename_i row auditLogs created
    cases done
    obtain ⟨unsealed, fresh, rows⟩ := AuditLog.create_ok created
    exact ⟨row, auditLogs, unsealed, fresh, rows, rfl⟩
  · cases done

theorem proceeds (request : Request) (db : Database) (phase : Phase) (outside : Outside) :
    Proceeds request db outside phase (proceed request db phase outside) := by
  unfold proceed
  split
  · exact .stops _ _ (.inl rfl)
  · exact .stops _ _ (.inr (by simp))
  · split
    · exact .asserts
    · exact .stops _ _ (.inr (by simp))
  · split
    · rename_i after logged
      obtain ⟨row, auditLogs, unsealed, fresh, rows, rfl⟩ := logAccess_ok logged
      exact .logs row auditLogs unsealed fresh rows
    · exact .stops _ _ (.inr (by simp))
  · split
    · exact .stops _ _ (.inr (by simp))
    · exact .looks
  · split
    · rename_i found read
      exact .reads found read
    · exact .stops _ _ (.inr (by simp))
  · split
    · rename_i found _ _ after count done
      exact .commits found after count done
    · exact .stops _ _ (.inr (by simp))

section Runs
variable {request : Request} {db after : Database} {phase : Phase} {userId : String} {found : Found}
  {outside : Outside}

/-- An erasure leaves a tombstone of its user, and nobody else unseen. -/
theorem commit_seen (commit : Committed db userId found outside after) {other : String} (seen : Seen db other) :
    Seen after other := by
  by_cases same : other = userId
  · subst same
    refine .inr ?_
    rw [commit.tombstones, AList.lookup_insert]
    rfl
  · refine seen.imp ?_ ?_
    · intro live
      rw [commit.users, AList.lookup_erase_ne same]
      exact isSome_lookup_insert live
    · intro buried
      rw [commit.tombstones]
      exact isSome_lookup_insert buried

/-- The user of an erasure that is about to commit was seen. -/
def SeenAt (db : Database) (request : Request) : Phase → Prop
  | .committing _ => Seen db request.userId
  | _ => True

theorem seenAt_mono (more : ∀ userId, Seen db userId → Seen after userId) (seen : SeenAt db request phase) :
    SeenAt after request phase := by
  cases phase with
  | committing found => exact more _ seen
  | _ => trivial

theorem findUser_live (read : findUser db userId = some found) : (db.users.lookup userId).isSome := by
  obtain ⟨user, stored, -⟩ := Option.map_eq_some_iff.mp read
  rw [stored]
  rfl

/-- A step of an erasure makes nobody unseen. -/
theorem proceed_seen (seen : SeenAt db request phase) (outside : Outside) :
    SeenAt (proceed request db phase outside).1 request (proceed request db phase outside).2 ∧
      ∀ other, Seen db other → Seen (proceed request db phase outside).1 other := by
  have all := proceeds request db phase outside
  generalize proceed request db phase outside = next at all
  cases all with
  | stops | asserts | logs | looks => exact ⟨trivial, fun _ => id⟩
  | reads found read => exact ⟨.inl (findUser_live read), fun _ => id⟩
  | commits found after count done => exact ⟨trivial, fun _ => commit_seen (transaction_ok seen done)⟩

end Runs

/-- An administrator and a user. -/
def someUsers : Store String User :=
  AList.insert "admin" ⟨"a@b.c", "", none, .admin, none, 0⟩ (AList.insert "user" ⟨"u@b.c", "", none, .user, none, 0⟩ ∅)

end AfroPay.Erasure
