import AfroPay.Erasure
import AfroPay.Interleaving

/-! Reports about erased users. A tombstone leads from the hash of an id to the user that now
stands for it; a report follows it once. -/
namespace AfroPay.Erasure.Reports
open Interleaving KeyedStore Runs WebText
open AuditLog (Answer)

def resolveUserId (db : Database) (userId : String) : Option String :=
  match db.users.lookup userId with
  | some _ => some userId
  | none => (db.tombstones.lookup (lookupHash userId)).map (·.pseudonymousUserId)

structure Report where
  schemaVersion : String
  generatedAt : String
  pseudonymousUserId : String
  flaggedTransactionCount : Nat
  auditLogCount : Nat
  flaggedTransactions : List (String × Transaction)
  auditLogs : List AuditLog.Row

/-- The user's flagged transactions, oldest first. -/
def flaggedTransactions (db : Database) (userId : String) : List (String × Transaction) :=
  ((db.transactions.entries.filter fun entry => entry.2.userId = userId && entry.2.flagged).map fun entry =>
    (entry.1, entry.2)).insertionSort fun one two => one.2.createdAt ≤ two.2.createdAt

def auditLogsOf (db : Database) (userId : String) : List AuditLog.Row :=
  (db.auditLogs.rows.filter (·.userId = some userId)).insertionSort fun one two => one.createdAt ≤ two.createdAt

/-- Ids are not empty, so that only a missing one is not found. -/
def exportSar (db : Database) (userId adminUserId : String) (answer : Answer) (now : Nat) :
    Except Exception (Database × Report) := do
  assertAdmin db adminUserId
  match resolveUserId db userId with
  | none => .error (.notFound "User not found")
  | some resolvedUserId =>
    let db ← logAccess db adminUserId "SAR_EXPORT_ACCESSED" (lookupHash userId) answer
    let transactions := flaggedTransactions db resolvedUserId
    let auditLogs := auditLogsOf db resolvedUserId
    pure (db, ⟨"1.0", toISOString now, resolvedUserId, transactions.length, auditLogs.length, transactions, auditLogs⟩)

structure Call where
  request : Request
  phase : Phase
  deriving DecidableEq

def advance (db : Database) (call : Call) (outside : Outside) : Database × Call :=
  let (db, phase) := proceed call.request db call.phase outside
  (db, { call with phase })

/-- Any number of `eraseUser` calls, in any order of their steps. -/
def service : Service Database Call Request Outside Empty where
  begin request := ⟨request, .asserting⟩
  proceed := advance
  act db _ := db

abbrev State := System Database Call

abbrev Step := Event Request Outside Empty

/-- The second user holds exactly the transactions that the first held before. -/
def Inherits (before : Database) (userId : String) (now : Database) (heir : String) : Prop :=
  ∀ txId row, now.transactions.lookup txId = some row ∧ row.userId = heir ↔
    ∃ old, before.transactions.lookup txId = some old ∧ old.userId = userId ∧ row = { old with userId := heir }

/-- The database takes a new row of the audit log. -/
def Takes (db : Database) (answer : Answer) : Prop :=
  ∃ id createdAt, answer = .answers id createdAt ∧ ¬ db.auditLogs.rows.any (·.id = id)

/-- An administrator's report about the user is about the heir. -/
def Exports (db : Database) (userId heir : String) : Prop :=
  ∀ adminUserId answer now, assertAdmin db adminUserId = .ok () → Takes db answer →
    ∃ after report, exportSar db userId adminUserId answer now = .ok (after, report) ∧ report.pseudonymousUserId = heir

/-- An administrator who erases the user again is told of the heir. -/
def ReportsErased (db : Database) (userId heir : String) : Prop :=
  ∀ adminUserId (first second third : Outside), assertAdmin db adminUserId = .ok () → first.answer ≠ .fails →
    Takes db second.answer → third.answer ≠ .fails →
    ∃ erasedAt, (eraseUser db ⟨userId, adminUserId⟩ [first, second, third]).2 =
      .returned (.ok (.alreadyErased heir erasedAt))

/-- The user of an earlier state is reported as the live user that has its transactions now. -/
def Reported (before : Database) (userId : String) (now : Database) : Prop :=
  ∃ heir, (now.users.lookup heir).isSome ∧ Inherits before userId now heir ∧ Exports now userId heir ∧
    (now.users.lookup userId = none → ReportsErased now userId heir)

/-- The transactions of the table belong to users. -/
def Referential (db : Database) : Prop :=
  ∀ txId row, db.transactions.lookup txId = some row → (db.users.lookup row.userId).isSome

/-- The user that is erased does not stand for another. -/
def Call.Original (db : Database) : Call → Prop
  | ⟨request, .committing _⟩ => db.tombstones.entries.all (·.2.pseudonymousUserId ≠ request.userId)
  | _ => True

instance (db : Database) : DecidablePred (Call.Original db)
  | ⟨_, .committing _⟩ => inferInstanceAs (Decidable (_ = true))
  | ⟨_, .asserting⟩ | ⟨_, .logging⟩ | ⟨_, .lookingUp⟩ | ⟨_, .reading⟩ | ⟨_, .returned _⟩ => isTrue trivial

/-- `randomUUID` does not give an id that was erased. -/
def Call.Fresh (db : Database) (outside : Outside) : Call → Prop
  | ⟨_, .committing _⟩ => db.tombstones.lookup (lookupHash outside.pseudonymousUserId) = none
  | _ => True

instance (db : Database) (outside : Outside) : DecidablePred (Call.Fresh db outside)
  | ⟨_, .committing _⟩ => inferInstanceAs (Decidable (_ = none))
  | ⟨_, .asserting⟩ | ⟨_, .logging⟩ | ⟨_, .lookingUp⟩ | ⟨_, .reading⟩ | ⟨_, .returned _⟩ => isTrue trivial

def OriginalOnly (s : State) : Step → Prop
  | .advance id _ => ∀ call ∈ s.calls.lookup id, call.Original s.shared
  | .call .. | .act _ => True

instance (s : State) : DecidablePred (OriginalOnly s)
  | .advance .. => inferInstanceAs (Decidable (∀ call ∈ _, _))
  | .call .. | .act _ => isTrue trivial

def FreshPseudonym (s : State) : Step → Prop
  | .advance id outside => ∀ call ∈ s.calls.lookup id, call.Fresh s.shared outside
  | .call .. | .act _ => True

instance (s : State) : DecidablePred (FreshPseudonym s)
  | .advance .. => inferInstanceAs (Decidable (∀ call ∈ _, _))
  | .call .. | .act _ => isTrue trivial

variable {before db after : Database} {userId heir : String} {found : Found} {outside : Outside} {s : State}
  {event : Step}

/-- The user is live, or a tombstone leads to the live user that has its transactions. -/
def Traced (before : Database) (userId : String) (now : Database) : Prop :=
  ∃ heir, (now.users.lookup heir).isSome ∧ Inherits before userId now heir ∧
    (heir = userId ∨ now.users.lookup userId = none ∧
      ∃ erasedAt, now.tombstones.lookup (lookupHash userId) = some ⟨heir, erasedAt⟩)

section Commits

/-- Who has the transactions of a user after the erasure of one. -/
def successor (userId pseudonymousUserId heir : String) : String := if heir = userId then pseudonymousUserId else heir

theorem successor_live (commit : Committed db userId found outside after) (live : (db.users.lookup heir).isSome) :
    (after.users.lookup (successor userId outside.pseudonymousUserId heir)).isSome := by
  rw [commit.users]
  by_cases same : heir = userId
  · have ne := pseudonym_unused commit commit.live
    rw [successor, if_pos same, AList.lookup_erase_ne ne, AList.lookup_insert]
    rfl
  · rw [successor, if_neg same, AList.lookup_erase_ne same]
    exact isSome_lookup_insert live

/-- A transaction goes where its user goes, and nowhere else. -/
theorem moved_userId_iff (commit : Committed db userId found outside after) {row : Transaction}
    (live : (db.users.lookup heir).isSome) (owned : (db.users.lookup row.userId).isSome) :
    (row.moved userId outside.pseudonymousUserId).userId = successor userId outside.pseudonymousUserId heir ↔
      row.userId = heir := by
  have notHeir := pseudonym_unused commit live
  have notOwner := pseudonym_unused commit owned
  unfold Transaction.moved successor
  by_cases mine : row.userId = userId <;> by_cases same : heir = userId <;> simp only [mine, same, if_true, if_false]
  · exact iff_of_false notHeir fun equal => same equal.symm
  · exact iff_of_false notOwner.symm not_false

theorem moved_eq (userId pseudonymousUserId heir : String) (row : Transaction) :
    ({ row with userId := heir } : Transaction).moved userId pseudonymousUserId =
      { row with userId := successor userId pseudonymousUserId heir } := by
  unfold Transaction.moved successor
  by_cases same : heir = userId <;> simp [same]

theorem commit_inherits {subject : String} (commit : Committed db userId found outside after)
    (referential : Referential db) (live : (db.users.lookup heir).isSome) (inherits : Inherits before subject db heir) :
    Inherits before subject after (successor userId outside.pseudonymousUserId heir) := by
  intro txId row
  rw [commit.transactions]
  constructor
  · rintro ⟨stored, owner⟩
    obtain ⟨held, present, rfl⟩ := Option.map_eq_some_iff.mp stored
    have mine := (moved_userId_iff commit live (referential txId held present)).mp owner
    obtain ⟨old, stored', owner', rfl⟩ := (inherits txId held).mp ⟨present, mine⟩
    exact ⟨old, stored', owner', moved_eq ..⟩
  · rintro ⟨old, stored, owner, rfl⟩
    obtain ⟨present, -⟩ := (inherits txId { old with userId := heir }).mpr ⟨old, stored, owner, rfl⟩
    rw [present]
    exact ⟨congrArg some (moved_eq ..), rfl⟩

theorem commit_referential (commit : Committed db userId found outside after) (referential : Referential db) :
    Referential after := by
  intro txId row stored
  rw [commit.transactions] at stored
  obtain ⟨held, present, rfl⟩ := Option.map_eq_some_iff.mp stored
  have live := referential txId held present
  rw [(moved_userId_iff commit live live).mpr rfl]
  exact successor_live commit live

/-- An erasure of a user that stands for nobody leads no tombstone astray. -/
theorem commit_traced {subject : String} (commit : Committed db userId found outside after)
    (referential : Referential db)
    (original : ∀ hash tombstone, db.tombstones.lookup hash = some tombstone → tombstone.pseudonymousUserId ≠ userId)
    (fresh : db.tombstones.lookup (lookupHash outside.pseudonymousUserId) = none)
    (traced : Traced before subject db) : Traced before subject after := by
  obtain ⟨heir, live, inherits, leads⟩ := traced
  refine ⟨_, successor_live commit live, commit_inherits commit referential live inherits, ?_⟩
  rcases leads with rfl | ⟨erased, erasedAt, buried⟩
  · by_cases same : heir = userId
    · subst same
      refine .inr ⟨?_, outside.erasedAt, ?_⟩
      · rw [commit.users]
        exact AList.lookup_erase _ _
      · rw [commit.tombstones, AList.lookup_insert, successor, if_pos rfl]
    · exact .inl (if_neg same)
  · have other : heir ≠ userId := original _ _ buried
    have unused : subject ≠ outside.pseudonymousUserId := by
      rintro rfl
      rw [fresh] at buried
      cases buried
    have hashes : lookupHash subject ≠ lookupHash userId := by
      intro same
      rw [same, commit.unburied] at buried
      cases buried
    refine .inr ⟨?_, erasedAt, ?_⟩
    · rw [commit.users]
      by_cases same : subject = userId
      · rw [same]
        exact AList.lookup_erase _ _
      · rw [AList.lookup_erase_ne same, AList.lookup_insert_ne unused, erased]
    · rw [commit.tombstones, AList.lookup_insert_ne hashes, buried, successor, if_neg other]

end Commits

section Answers

theorem logAccess_takes {answer : Answer} (takes : Takes db answer) (adminUserId operation hash : String) :
    ∃ auditLogs, logAccess db adminUserId operation hash answer = .ok { db with auditLogs } := by
  obtain ⟨id, createdAt, rfl, free⟩ := takes
  simp only [logAccess, AuditLog.create, free]
  exact ⟨_, rfl⟩

theorem resolve_traced (live : (db.users.lookup heir).isSome)
    (leads : heir = userId ∨ db.users.lookup userId = none ∧
      ∃ erasedAt, db.tombstones.lookup (lookupHash userId) = some ⟨heir, erasedAt⟩) :
    resolveUserId db userId = some heir := by
  unfold resolveUserId
  rcases leads with rfl | ⟨erased, erasedAt, buried⟩
  · obtain ⟨user, stored⟩ := Option.isSome_iff_exists.mp live
    rw [stored]
  · rw [erased, buried]
    rfl

theorem exports_of_resolve (resolved : resolveUserId db userId = some heir) : Exports db userId heir := by
  intro adminUserId answer now admin takes
  obtain ⟨auditLogs, logged⟩ := logAccess_takes takes adminUserId "SAR_EXPORT_ACCESSED" (lookupHash userId)
  simp only [exportSar, admin, resolved, logged, bind, Except.bind, pure, Except.pure]
  exact ⟨_, _, rfl, rfl⟩

theorem reportsErased_of_tombstone {erasedAt : Nat}
    (buried : db.tombstones.lookup (lookupHash userId) = some ⟨heir, erasedAt⟩) : ReportsErased db userId heir := by
  intro adminUserId first second third admin answers takes answers'
  obtain ⟨auditLogs, logged⟩ := logAccess_takes takes adminUserId "USER_ERASURE_ACCESSED" (lookupHash userId)
  refine ⟨erasedAt, ?_⟩
  have asserts : proceed ⟨userId, adminUserId⟩ db .asserting first = (db, .logging) := by
    cases answer : first.answer with
    | fails => exact absurd answer answers
    | answers id createdAt => simp only [proceed, answer, admin]
  have logs : proceed ⟨userId, adminUserId⟩ db .logging second = ({ db with auditLogs }, .lookingUp) := by
    obtain ⟨id, createdAt, answer, -⟩ := takes
    rw [answer] at logged
    simp only [proceed, answer, logged]
  have looks : proceed ⟨userId, adminUserId⟩ { db with auditLogs } .lookingUp third =
      ({ db with auditLogs }, .returned (.ok (.alreadyErased heir erasedAt))) := by
    cases answer : third.answer with
    | fails => exact absurd answer answers'
    | answers id createdAt => simp only [proceed, answer, buried]
  simp only [eraseUser, run_cons, run_nil, asserts, logs, looks]

theorem reported_of_traced (traced : Traced before userId db) : Reported before userId db := by
  obtain ⟨heir, live, inherits, leads⟩ := traced
  refine ⟨heir, live, inherits, exports_of_resolve (resolve_traced live leads), ?_⟩
  intro erased
  rcases leads with rfl | ⟨-, erasedAt, buried⟩
  · rw [erased] at live
    cases live
  · exact reportsErased_of_tombstone buried

end Answers

/-- What holds of the database and the calls in every run. -/
structure Tracked (s : State) : Prop where
  seen : Each (fun db call => SeenAt db call.request call.phase) s
  referential : Referential s.shared

/-- An event leaves users, transactions and tombstones alone, or commits an erasure. -/
inductive Touches (s : State) (event : Step) (after : Database) : Prop where
  | nothing (users : after.users = s.shared.users) (transactions : after.transactions = s.shared.transactions)
      (tombstones : after.tombstones = s.shared.tombstones)
  | commits (id : Nat) (outside : Outside) (request : Request) (found : Found) (advances : event = .advance id outside)
      (held : s.calls.lookup id = some ⟨request, .committing found⟩)
      (commit : Committed s.shared request.userId found outside after)

theorem step_touches (tracked : Tracked s) (event : Step) : Touches s event (step service s event).shared := by
  have moves := steps service s event
  generalize step service s event = s' at moves
  cases moves with
  | idle | begins => exact .nothing rfl rfl rfl
  | acts act => exact act.elim
  | advances id outside call held =>
    obtain ⟨request, phase⟩ := call
    have seen := tracked.seen id _ held
    have all := proceeds request s.shared phase outside
    change Touches s _ (proceed request s.shared phase outside).1
    generalize proceed request s.shared phase outside = next at all
    cases all with
    | stops | asserts | logs | looks | reads => exact .nothing rfl rfl rfl
    | commits found after count done => exact .commits id outside request found rfl held (transaction_ok seen done)

theorem step_tracked (tracked : Tracked s) : Tracked (step service s event) := by
  constructor
  · apply each_step tracked.seen
    · exact fun _ => trivial
    · intro id outside call _ held
      obtain ⟨mine, others⟩ := proceed_seen (tracked.seen id call held) outside
      exact ⟨mine, fun other => seenAt_mono others⟩
    · exact fun act => act.elim
  · cases step_touches tracked event with
    | nothing users transactions tombstones =>
      rw [Referential, users, transactions]
      exact tracked.referential
    | commits id outside request found advances held commit => exact commit_referential commit tracked.referential

theorem step_traced (tracked : Tracked s) (fresh : FreshPseudonym s event) (original : OriginalOnly s event)
    (traced : Traced before userId s.shared) : Traced before userId (step service s event).shared := by
  cases step_touches tracked event with
  | nothing users transactions tombstones =>
    simpa only [Traced, Inherits, users, transactions, tombstones] using traced
  | commits id outside request found advances held commit =>
    subst advances
    refine commit_traced commit tracked.referential ?_ (fresh _ held) traced
    intro hash tombstone buried
    have all : s.shared.tombstones.entries.all (·.2.pseudonymousUserId ≠ request.userId) := original _ held
    exact of_decide_eq_true (List.all_eq_true.mp all ⟨hash, tombstone⟩ (AList.mem_lookup_iff.mp buried))

theorem inherits_self (db : Database) (userId : String) : Inherits db userId db userId := by
  intro txId row
  constructor
  · rintro ⟨stored, rfl⟩
    exact ⟨row, stored, rfl, rfl⟩
  · rintro ⟨old, stored, rfl, rfl⟩
    exact ⟨stored, rfl⟩

/-- Every user that existed is reported as the live user that has its transactions, after any
run in which no pseudonymous user is erased; ids that were erased are not drawn again. -/
theorem reported_of_original (db : Database) (referential : Referential db) (earlier later : List Step)
    (fresh : Throughout (step service) FreshPseudonym (.fresh db) (earlier ++ later))
    (original : Throughout (step service) OriginalOnly (.fresh db) (earlier ++ later)) (userId : String)
    (existed : ((run (step service) (.fresh db) earlier).shared.users.lookup userId).isSome) :
    Reported (run (step service) (.fresh db) earlier).shared userId
      (run (step service) (.fresh db) (earlier ++ later)).shared := by
  have initial : Tracked (.fresh db) := ⟨each_fresh _ _, referential⟩
  have middle : Tracked (run (step service) (.fresh db) earlier) :=
    run_invariant Tracked (fun _ _ tracked => step_tracked tracked) initial earlier
  have start : Traced (run (step service) (.fresh db) earlier).shared userId
      (run (step service) (.fresh db) earlier).shared := ⟨userId, existed, inherits_self _ _, .inl rfl⟩
  have meets := ((throughout_append _ earlier later).mp (throughout_and fresh original)).2
  rw [run_append]
  -- from the state in which the user existed, every step keeps the trace
  have traced := run_invariant_of
    (fun s => Tracked s ∧ Traced (run (step service) (.fresh db) earlier).shared userId s.shared)
    (fun _ _ held meets => ⟨step_tracked held.1, step_traced held.1 meets.1 meets.2 held.2⟩) ⟨middle, start⟩ meets
  exact reported_of_traced traced.2

/-- An administrator, and a user with a flagged transaction. -/
def withTransaction : Database where
  users := someUsers
  wallets := AList.insert "wallet" (Wallets.newWallet "user" "G" none true) ∅
  transactions := AList.insert "tx" ⟨"user", "wallet", ⟨"G", "1", "XLM", none, none⟩, none, .success, none, true, 0⟩ ∅
  kycRecords := ∅
  auditLogs := .empty
  tombstones := ∅

theorem referential_withTransaction : Referential withTransaction := by
  intro txId row stored
  rcases lookup_insert_some.mp stored with ⟨-, rfl⟩ | ⟨-, none⟩
  · rfl
  · cases none

/-- The steps of a call; rows of the audit log get the two ids. -/
def erasure (id : Nat) (request : Request) (pseudonymousUserId logId erasedId : String) : List Step :=
  let given (id : String) : Outside := ⟨.answers id 0, pseudonymousUserId, 0, "", fun _ => ""⟩
  [.call id request, .advance id (given logId), .advance id (given logId), .advance id (given logId),
    .advance id (given logId), .advance id (given erasedId)]

theorem reported_of_original_once :
    Reported withTransaction "user"
      (run (step service) (.fresh withTransaction) (erasure 0 ⟨"user", "admin"⟩ "p1" "1" "2")).shared :=
  reported_of_original withTransaction referential_withTransaction []
    (erasure 0 ⟨"user", "admin"⟩ "p1" "1" "2") (by decide +kernel) (by decide +kernel) "user" rfl

/-- The user is erased, and then the user that stands for it. -/
def erasedTwice : State :=
  run (step service) (.fresh withTransaction)
    (erasure 0 ⟨"user", "admin"⟩ "p1" "1" "2" ++ erasure 1 ⟨"p1", "admin"⟩ "p2" "3" "4")

/-- The transaction is with the second, and the report about the user is about the first. -/
theorem erased_twice_is_not_reported :
    (erasedTwice.shared.transactions.lookup "tx").map (·.userId) = some "p2" ∧
      resolveUserId erasedTwice.shared "user" = some "p1" ∧ erasedTwice.shared.users.lookup "p1" = none ∧
      ¬ Reported withTransaction "user" erasedTwice.shared := by
  have computed : (erasedTwice.shared.transactions.lookup "tx").map (·.userId) = some "p2" ∧
      resolveUserId erasedTwice.shared "user" = some "p1" ∧ erasedTwice.shared.users.lookup "p1" = none ∧
      assertAdmin erasedTwice.shared "admin" = .ok () ∧
      ¬ erasedTwice.shared.auditLogs.rows.any (·.id = "5") := by decide +kernel
  obtain ⟨moved, resolved, dead, admin, free⟩ := computed
  have takes : Takes erasedTwice.shared (.answers "5" 0) := ⟨"5", 0, rfl, free⟩
  refine ⟨moved, resolved, dead, ?_⟩
  rintro ⟨heir, live, -, exports, -⟩
  obtain ⟨after, report, done, same⟩ := exports "admin" (.answers "5" 0) 0 admin takes
  obtain ⟨after', report', done', same'⟩ := exports_of_resolve resolved "admin" (.answers "5" 0) 0 admin takes
  rw [done] at done'
  cases done'
  rw [← same, same', dead] at live
  cases live

end AfroPay.Erasure.Reports
