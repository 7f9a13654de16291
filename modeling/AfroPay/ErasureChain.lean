import AfroPay.Erasure

/-! The hash chain of the audit log across an erasure. The transaction rewrites fields that
the hashes cover and leaves the hashes, and the call inserts two rows without one. -/
namespace AfroPay.Erasure
open AuditLog (Intact Linked Row Sealed canonical chronological hashEntry)
open Runs

/-- What is hashed of a row. -/
def canonicalText (row : Row) : List Char := Json.stringify (canonical row)

/-- Two texts with one SHA-256 hash. -/
def Collision (one two : Row) : Prop := canonicalText one ≠ canonicalText two ∧ hashEntry one = hashEntry two

/-- The table of the second database has one row more, without a hash. -/
structure Logged (db now : Database) : Prop where
  rest : now = { db with auditLogs := now.auditLogs }
  rows : ∃ row : Row, row.hash = none ∧ (∀ old ∈ db.auditLogs.rows, old.id ≠ row.id) ∧
    now.auditLogs.rows = db.auditLogs.rows ++ [row]

/-- Where a call that runs alone stands, from the database it found. -/
def Progress (request : Request) (db : Database) (s : Database × Phase) : Prop :=
  match s.2 with
  | .asserting | .logging => s.1 = db
  | .lookingUp | .reading => Logged db s.1
  | .committing _ => Logged db s.1 ∧ (s.1.users.lookup request.userId).isSome
  | .returned (.ok (.erased pseudonymousUserId _ _)) => ∃ middle outside found, Logged db middle ∧
      outside.pseudonymousUserId = pseudonymousUserId ∧ Committed middle request.userId found outside s.1
  | .returned _ => True

variable {request : Request} {db after : Database} {userId pseudonymousUserId : String}

theorem proceed_progress {s : Database × Phase} (outside : Outside) (progress : Progress request db s) :
    Progress request db (proceed request s.1 s.2 outside) := by
  obtain ⟨now, phase⟩ := s
  have all := proceeds request now phase outside
  generalize proceed request now phase outside = next at all
  cases all with
  | stops _ result unerased =>
    rcases unerased with rfl | unerased
    · exact progress
    · unfold Progress
      split
      case h_6 same =>
        cases same
        exact absurd rfl (unerased _ _ _)
      all_goals simp_all
  | asserts => exact progress
  | logs row auditLogs unsealed fresh rows =>
    obtain rfl : now = db := progress
    exact ⟨rfl, row, unsealed, fresh, rows⟩
  | looks => exact progress
  | reads found read => exact ⟨progress, findUser_live read⟩
  | commits found after count done =>
    obtain ⟨logged, live⟩ := progress
    exact ⟨now, outside, found, logged, rfl, transaction_ok (.inl live) done⟩

theorem eraseUser_progress (request : Request) (db : Database) (outsides : List Outside) :
    Progress request db (eraseUser db request outsides) := by
  have initial : Progress request db (db, .asserting) := rfl
  exact run_invariant (Progress request db) (fun _ outside progress => proceed_progress outside progress) initial
    outsides

/-- The order of the rows and what they point at are not rewritten. -/
theorem linked_pseudonymised (previousHash : Option String) (rows : List Row) :
    Linked previousHash (rows.map (pseudonymised userId pseudonymousUserId)) ↔ Linked previousHash rows := by
  induction rows generalizing previousHash with
  | nil => rfl
  | cons row rest ih =>
    have hashes : (pseudonymised userId pseudonymousUserId row).hash = row.hash ∧
        (pseudonymised userId pseudonymousUserId row).previousHash = row.previousHash := by
      unfold pseudonymised
      split <;> exact ⟨rfl, rfl⟩
    rw [List.map_cons, Linked, Linked, hashes.1, hashes.2, ih]

theorem chronological_pseudonymised (rows : List Row) :
    chronological (rows.map (pseudonymised userId pseudonymousUserId)) =
      (chronological rows).map (pseudonymised userId pseudonymousUserId) := by
  refine (List.map_insertionSort Row.before Row.before _ rows ?_).symm
  intro one _ two _
  have keys (row : Row) : (pseudonymised userId pseudonymousUserId row).createdAt = row.createdAt := by
    unfold pseudonymised
    split <;> rfl
  simp only [Row.before, keys, pseudonymised_id]

/-- Texts of rows with different users differ. -/
theorem canonicalText_ne {one two : Row} (users : one.userId ≠ two.userId) : canonicalText one ≠ canonicalText two := by
  intro same
  have values := (Json.parse_stringify (canonical one)).symm.trans
    ((congrArg Json.parse same).trans (Json.parse_stringify (canonical two)))
  simp only [canonical, Option.some.injEq, Json.Value.object.injEq, List.cons.injEq, Prod.mk.injEq] at values
  have equal : AuditLog.nullable one.userId = AuditLog.nullable two.userId := values.2.1.2
  apply users
  cases first : one.userId <;> cases second : two.userId <;> simp_all [AuditLog.nullable]

/-- The rewritten rows make an intact chain only with collisions. -/
theorem intact_pseudonymised {rows : List Row} (intact : Intact rows) (ne : pseudonymousUserId ≠ userId) :
    Intact (rows.map (pseudonymised userId pseudonymousUserId)) ↔
      ∀ row ∈ rows, row.userId = some userId → Collision (pseudonymise pseudonymousUserId row row) row := by
  constructor
  · intro after row member owner
    have sealed := after.sealed _ (List.mem_map_of_mem member)
    rw [pseudonymised, if_pos owner] at sealed
    have stored : row.hash = some (hashEntry row) := intact.sealed row member
    refine ⟨canonicalText_ne ?_, ?_⟩
    · rw [owner]
      simpa [pseudonymise] using ne
    · have kept : row.hash = some (hashEntry (pseudonymise pseudonymousUserId row row)) := sealed
      rw [stored] at kept
      exact (Option.some.inj kept).symm
  · intro collisions
    refine ⟨?_, ?_⟩
    · intro row member
      obtain ⟨old, known, rfl⟩ := List.mem_map.mp member
      have stored : old.hash = some (hashEntry old) := intact.sealed old known
      unfold pseudonymised
      split
      · rename_i owner
        rw [Sealed, (collisions old known owner).2]
        exact stored
      · exact stored
    · rw [chronological_pseudonymised, linked_pseudonymised]
      exact intact.linked

/-- The rows that were in the table before. -/
def rowsOf (db after : Database) : List Row :=
  after.auditLogs.rows.filter fun row => db.auditLogs.rows.any (·.id = row.id)

/-- Rows that are appended with new ids are not among them. -/
theorem rowsOf_eq {access last : Row}
    (stored : after.auditLogs.rows =
      (db.auditLogs.rows ++ [access]).map (pseudonymised userId pseudonymousUserId) ++ [last])
    (fresh : ∀ old ∈ db.auditLogs.rows, old.id ≠ access.id) (unknown : ∀ old ∈ db.auditLogs.rows, old.id ≠ last.id) :
    rowsOf db after = db.auditLogs.rows.map (pseudonymised userId pseudonymousUserId) := by
  have stays : ∀ row ∈ db.auditLogs.rows.map (pseudonymised userId pseudonymousUserId),
      db.auditLogs.rows.any (·.id = row.id) := by
    intro row member
    obtain ⟨old, known, rfl⟩ := List.mem_map.mp member
    rw [pseudonymised_id]
    exact List.any_eq_true.mpr ⟨old, known, decide_eq_true rfl⟩
  have goes : ∀ row : Row, (∀ old ∈ db.auditLogs.rows, old.id ≠ row.id) →
      db.auditLogs.rows.any (·.id = row.id) = false := by
    intro row absent
    simpa using absent
  rw [rowsOf, stored, List.map_append, List.filter_append, List.filter_append, List.filter_eq_self.mpr stays]
  simp only [List.map_cons, List.map_nil, List.filter_cons, pseudonymised_id, goes access fresh, goes last unknown,
    List.filter_nil, Bool.false_eq_true, if_false, List.append_nil]

/-- An erasure never leaves an intact chain: its own rows have no hash. Without them, the chain
is intact exactly when every row of the erased user happens to be a collision. -/
theorem erasure_intact_iff (db : Database) (intact : Intact db.auditLogs.rows) (request : Request)
    (outsides : List Outside) (after : Database) (pseudonymousUserId : String) (erasedAt count : Nat)
    (committed : eraseUser db request outsides = (after, .returned (.ok (.erased pseudonymousUserId erasedAt count)))) :
    ¬ Intact after.auditLogs.rows ∧
      (Intact (rowsOf db after) ↔ ∀ row ∈ db.auditLogs.rows, row.userId = some request.userId →
        Collision (pseudonymise pseudonymousUserId row row) row) := by
  have progress := eraseUser_progress request db outsides
  rw [committed] at progress
  obtain ⟨middle, outside, found, ⟨-, access, -, fresh, rows⟩, rfl, commit⟩ := progress
  obtain ⟨last, unsealed, unknown, stored⟩ := commit.auditLogs
  rw [rows] at stored unknown
  refine ⟨AuditLog.not_intact_of_unsealed ⟨last, ?_, unsealed⟩, ?_⟩
  · rw [stored]
    exact List.mem_append_right _ (List.mem_singleton_self last)
  · rw [rowsOf_eq stored fresh fun old known => unknown old (List.mem_append_left _ known)]
    exact intact_pseudonymised intact (pseudonym_unused commit commit.live)

/-- A row of a user, with its hash. -/
def someRow (userId : String) : Row :=
  let entry := AuditLog.Entry.plain (some userId) "AUTH" "LOGIN" "SUCCESS" none
  { entry with id := "1", createdAt := 0, hash := some (hashEntry { entry with id := "1", createdAt := 0, hash := none }) }

theorem intact_someRow (userId : String) : Intact [someRow userId] := by
  refine ⟨?_, rfl, trivial⟩
  intro row member
  rw [List.mem_singleton.mp member]
  rfl

/-- An administrator, a user, and a table with one row. -/
def withRow (userId : String) : Database where
  users := someUsers
  wallets := ∅
  transactions := ∅
  kycRecords := ∅
  auditLogs := ⟨[someRow userId], List.nodup_singleton _⟩
  tombstones := ∅

/-- The user is erased; the rows that are inserted get the ids 2 and 3. -/
def erasing : List Outside :=
  [⟨.answers "" 0, "", 0, "", fun _ => ""⟩, ⟨.answers "2" 1, "", 0, "", fun _ => ""⟩,
    ⟨.answers "" 0, "", 0, "", fun _ => ""⟩, ⟨.answers "" 0, "", 0, "", fun _ => ""⟩,
    ⟨.answers "3" 2, "pseudonym", 2, "", fun _ => ""⟩]

/-- The table after the erasure, when the row was of somebody else. -/
theorem erasure_intact_iff_bystander :
    ¬ Intact (eraseUser (withRow "other") ⟨"user", "admin"⟩ erasing).1.auditLogs.rows ∧
      Intact (rowsOf (withRow "other") (eraseUser (withRow "other") ⟨"user", "admin"⟩ erasing).1) := by
  have result := erasure_intact_iff (withRow "other") (intact_someRow "other") ⟨"user", "admin"⟩ erasing
    (eraseUser (withRow "other") ⟨"user", "admin"⟩ erasing).1 "pseudonym" 2 0 (Prod.ext rfl (by decide +kernel))
  refine ⟨result.1, result.2.mpr ?_⟩
  intro row member owner
  rw [List.mem_singleton.mp member] at owner
  simp [someRow, AuditLog.Entry.plain] at owner

/-- The table after the erasure, when the row was of the user. -/
theorem erased_row_does_not_verify :
    Intact (withRow "user").auditLogs.rows ∧
      (eraseUser (withRow "user") ⟨"user", "admin"⟩ erasing).2 = .returned (.ok (.erased "pseudonym" 2 0)) ∧
      ¬ Intact (eraseUser (withRow "user") ⟨"user", "admin"⟩ erasing).1.auditLogs.rows ∧
      ¬ Intact (rowsOf (withRow "user") (eraseUser (withRow "user") ⟨"user", "admin"⟩ erasing).1) := by
  have unsealed : ∃ row ∈ rowsOf (withRow "user") (eraseUser (withRow "user") ⟨"user", "admin"⟩ erasing).1,
      row.hash ≠ some (hashEntry row) := by decide +kernel
  obtain ⟨row, member, unsealed⟩ := unsealed
  refine ⟨intact_someRow "user", by decide +kernel, ?_, ?_⟩
  · intro intact
    exact unsealed (intact.sealed row (List.mem_filter.mp member).1)
  · intro intact
    exact unsealed (intact.sealed row member)

end AfroPay.Erasure
