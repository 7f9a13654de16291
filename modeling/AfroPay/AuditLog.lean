import AfroPay.Interleaving
import AfroPay.Sha256
import AfroPay.WebText
import Mathlib.Data.List.Sort

/-! The audit log: a table whose rows carry the hash of their own payload and of the row before
them. `AuditService.log` inserts a row and seals it with an update; the trigger on the table
lets no update through that did not opt in. Two other services insert rows of their own. -/
namespace AfroPay.AuditLog
open Base64 Interleaving KeyedStore Runs WebText

/-- What a writer gives the database. -/
structure Entry where
  userId : Option String
  category : String
  operation : String
  outcome : String
  walletPublicKey : Option String
  amount : Option String
  assetCode : Option String
  destination : Option String
  txHash : Option String
  metadata : Option Json.Value
  previousHash : Option String

structure Row extends Entry where
  id : String
  hash : Option String
  /-- Milliseconds. -/
  createdAt : Nat

section Hashes

def nullable (text : Option String) : Json.Value := text.elim .null .string

/-- What is hashed of a row. -/
def canonical (row : Row) : Json.Value :=
  .object [("id", .string row.id), ("userId", nullable row.userId), ("category", .string row.category),
    ("operation", .string row.operation), ("outcome", .string row.outcome),
    ("walletPublicKey", nullable row.walletPublicKey), ("amount", nullable row.amount),
    ("assetCode", nullable row.assetCode), ("destination", nullable row.destination), ("txHash", nullable row.txHash),
    ("metadata", row.metadata.getD .null), ("previousHash", nullable row.previousHash),
    ("createdAt", .string (toISOString row.createdAt))]

def hashEntry (row : Row) : String := Sha256.hexDigest (utf8 (Json.stringify (canonical row)))

end Hashes

section Table

/-- The rows in the order they were inserted, each with an id of its own. -/
structure Table where
  rows : List Row
  distinct : (rows.map (·.id)).Nodup

def Table.empty : Table := ⟨[], List.nodup_nil⟩

/-- The order of `createdAt` and `id`. -/
def Row.before (one two : Row) : Prop :=
  one.createdAt < two.createdAt ∨ one.createdAt = two.createdAt ∧ one.id ≤ two.id

instance : DecidableRel Row.before := fun _ _ => inferInstanceAs (Decidable (_ ∨ _))

def chronological (rows : List Row) : List Row := rows.insertionSort Row.before

/-- Every row points at the hash of the one before it. -/
def Linked : Option String → List Row → Prop
  | _, [] => True
  | previousHash, row :: rest => row.previousHash = previousHash ∧ Linked row.hash rest

def Sealed (row : Row) : Prop := row.hash = some (hashEntry row)

/-- The hash chain. -/
structure Intact (rows : List Row) : Prop where
  sealed : ∀ row ∈ rows, Sealed row
  linked : Linked none (chronological rows)

/-- What the database throws. -/
inductive Failure where
  | client (code : String)
  | raised (message : String)
  deriving DecidableEq

/-- The database answers, with the id and the time of a new row, or it cannot. -/
inductive Answer where
  | fails
  | answers (id : String) (createdAt : Nat)
  deriving DecidableEq

theorem nodup_append_id {rows : List Row} {row : Row} (distinct : (rows.map (·.id)).Nodup)
    (free : ¬ rows.any (·.id = row.id)) : ((rows ++ [row]).map (·.id)).Nodup := by
  simp only [List.any_eq_true, decide_eq_true_eq, not_exists, not_and] at free
  rw [List.map_append, List.nodup_append]
  refine ⟨distinct, List.nodup_singleton _, ?_⟩
  rintro id member other last rfl
  obtain ⟨old, known, same⟩ := List.mem_map.mp member
  exact free old known (same.trans (List.mem_singleton.mp last))

/-- A new row has no hash. -/
def create (table : Table) (entry : Entry) : Answer → Except Failure (Row × Table)
  | .fails => .error (.client "P1001")
  | .answers id createdAt =>
    let row : Row := { entry with id, hash := none, createdAt }
    if free : table.rows.any (·.id = row.id) then .error (.client "P2002")
    else .ok (row, ⟨table.rows ++ [row], nodup_append_id table.distinct free⟩)

inductive TgOp where
  | update
  | delete
  deriving DecidableEq

def TgOp.text : TgOp → String
  | .update => "UPDATE"
  | .delete => "DELETE"

/-- The trigger, with the session's `audit_log.allow_anonymization`. -/
def auditLogPreventMutation (op : TgOp) (allowAnonymization : Option String) (id : String) : Except String Unit :=
  if op = .update ∧ allowAnonymization = some "on" then .ok ()
  else .error ("AuditLog rows are immutable: " ++ op.text ++ " is not permitted on \"AuditLog\" (id=" ++ id ++ ")")

/-- One row after an update, which does not change its id. -/
def changed (id : String) (change : Row → Row) (row : Row) : Row :=
  if row.id = id then { change row with id := row.id } else row

theorem map_changed_id (rows : List Row) (id : String) (change : Row → Row) :
    (rows.map (changed id change)).map (·.id) = rows.map (·.id) := by
  rw [List.map_map]
  apply List.map_congr_left
  intro row _
  simp only [Function.comp_apply, changed]
  split <;> rfl

/-- The update of one row, through the trigger. -/
def update (table : Table) (allowAnonymization : Option String) (id : String) (change : Row → Row) :
    Except Failure Table :=
  if table.rows.any (·.id = id) then
    match auditLogPreventMutation .update allowAnonymization id with
    | .error message => .error (.raised message)
    | .ok () => .ok ⟨table.rows.map (changed id change), by rw [map_changed_id]; exact table.distinct⟩
  else .error (.client "P2025")

end Table

/-- The arguments of `AuditService.log`: options, or a user, an action and metadata. Its other
arguments are not read. -/
inductive LogArguments where
  | options (userId category operation outcome walletPublicKey amount assetCode destination txHash : Option String)
      (metadata : Option Json.Value)
  | positional (userId action : Option String) (metadata : Option Json.Value)

/-- `value ?? null`. -/
def nullish : Option Json.Value → Option Json.Value
  | some .null => none
  | value => value

section Entries

def Entry.plain (userId : Option String) (category operation outcome : String) (metadata : Option Json.Value) : Entry :=
  ⟨userId, category, operation, outcome, none, none, none, none, none, metadata, none⟩

def logEntry (previousHash : Option String) : LogArguments → Entry
  | .options userId category operation outcome walletPublicKey amount assetCode destination txHash metadata =>
    ⟨userId, category.getD "GENERAL", operation.getD "ACTION", outcome.getD "SUCCESS", walletPublicKey, amount,
      assetCode, destination, txHash, nullish metadata, previousHash⟩
  | .positional userId action metadata =>
    { Entry.plain userId "GENERAL" (action.getD "ACTION") "SUCCESS" (nullish metadata) with previousHash }

/-- `KycService.writeAuditLog`. -/
def kycEntry (userId operation outcome : String) (metadata : List (String × Json.Value)) : Entry :=
  .plain (some userId) "KYC" operation outcome (some (.object metadata))

/-- `AdminComplianceService.logAccess`. -/
def accessEntry (adminUserId operation targetLookupHash : String) : Entry :=
  .plain (some adminUserId) "COMPLIANCE" operation "SUCCESS"
    (some (.object [("targetLookupHash", .string targetLookupHash)]))

end Entries

inductive Request where
  | log (arguments : LogArguments)
  | writeAuditLog (userId operation outcome : String) (metadata : List (String × Json.Value))
  | logAccess (adminUserId operation targetLookupHash : String)

inductive Writer where
  | log
  | writeAuditLog
  | logAccess
  deriving DecidableEq

/-- The statement that a call makes next. -/
inductive Phase where
  /-- `log` reads the hash of the latest row. -/
  | linking (arguments : LogArguments)
  | creating (writer : Writer) (entry : Entry)
  | sealing (id hash : String)
  | returned (result : Except Failure Unit)

def start : Request → Phase
  | .log arguments => .linking arguments
  | .writeAuditLog userId operation outcome metadata =>
    .creating .writeAuditLog (kycEntry userId operation outcome metadata)
  | .logAccess adminUserId operation targetLookupHash =>
    .creating .logAccess (accessEntry adminUserId operation targetLookupHash)

/-- Only `logAccess` lets a failure through. -/
def Writer.failed (failure : Failure) : Writer → Phase
  | .log | .writeAuditLog => .returned (.ok ())
  | .logAccess => .returned (.error failure)

def Writer.created (row : Row) : Writer → Phase
  | .log => .sealing row.id (hashEntry row)
  | .writeAuditLog | .logAccess => .returned (.ok ())

/-- One statement of a call. None of the writers opts in to updates. -/
def proceed (table : Table) (phase : Phase) (answer : Answer) : Table × Phase :=
  match phase with
  | .linking arguments =>
    match answer with
    | .fails => (table, .returned (.ok ()))
    | .answers .. => (table, .creating .log (logEntry ((chronological table.rows).getLast?.bind (·.hash)) arguments))
  | .creating writer entry =>
    match create table entry answer with
    | .error failure => (table, writer.failed failure)
    | .ok (row, table) => (table, writer.created row)
  | .sealing id hash =>
    match answer with
    | .fails => (table, .returned (.ok ()))
    | .answers .. =>
      match update table none id ({ · with hash := some hash }) with
      | .error _ => (table, .returned (.ok ()))
      | .ok table => (table, .returned (.ok ()))
  | .returned _ => (table, phase)

def service : Service Table Phase Request Answer Empty where
  begin := start
  proceed := proceed
  act table _ := table

abbrev State := System Table Phase

abbrev Step := Event Request Answer Empty

/-- The statement inserts a row. -/
def Phase.Writes (table : Table) (answer : Answer) : Phase → Prop
  | .creating .. => ∃ id createdAt, answer = .answers id createdAt ∧ ¬ table.rows.any (·.id = id)
  | .linking _ | .sealing .. | .returned _ => False

/-- The event inserts no row. -/
def NothingWritten (s : State) : Step → Prop
  | .advance id answer => ∀ phase, s.calls.lookup id = some phase → ¬ phase.Writes s.shared answer
  | .call .. | .act _ => True

variable {table : Table} {phase : Phase} {answer : Answer} {s : State} {event : Step}

theorem create_ok {entry : Entry} {row : Row} {after : Table} (done : create table entry answer = .ok (row, after)) :
    row.hash = none ∧ (∀ old ∈ table.rows, old.id ≠ row.id) ∧ after.rows = table.rows ++ [row] := by
  cases answer with
  | fails => cases done
  | answers id createdAt =>
    simp only [create] at done
    split at done
    · cases done
    · rename_i free
      cases done
      refine ⟨rfl, ?_, rfl⟩
      simpa using free

theorem update_ok {allowAnonymization : Option String} {id : String} {change : Row → Row} {after : Table}
    (done : update table allowAnonymization id change = .ok after) : after.rows = table.rows.map (changed id change) := by
  unfold update at done
  split at done
  · split at done
    · cases done
    · cases done
      rfl
  · cases done

/-- A row is known by its id. -/
theorem eq_of_id {one two : Row} (first : one ∈ table.rows) (second : two ∈ table.rows) (same : one.id = two.id) :
    one = two :=
  List.inj_on_of_nodup_map table.distinct first second same

theorem update_refused (table : Table) (id : String) (change : Row → Row) :
    ∃ failure, update table none id change = .error failure := by
  unfold update
  split
  · exact ⟨_, rfl⟩
  · exact ⟨_, rfl⟩

/-- A statement that inserts nothing leaves the table as it is. -/
theorem proceed_unwritten (unwritten : ¬ phase.Writes table answer) : (proceed table phase answer).1 = table := by
  cases phase with
  | linking arguments => cases answer <;> rfl
  | creating writer entry =>
    cases answer with
    | fails => rfl
    | answers id createdAt =>
      have taken : table.rows.any (·.id = id) = true := by
        by_contra free
        exact unwritten ⟨id, createdAt, rfl, free⟩
      simp only [proceed, create, taken, dite_true]
  | sealing id hash =>
    cases answer with
    | fails => rfl
    | answers other createdAt =>
      obtain ⟨failure, refused⟩ := update_refused table id ({ · with hash := some hash })
      simp only [proceed, refused]
  | returned result => rfl

/-- What is inserted has no hash. -/
theorem proceed_writes (writes : phase.Writes table answer) :
    ∃ row : Row, row.hash = none ∧ (proceed table phase answer).1.rows = table.rows ++ [row] := by
  cases phase with
  | creating writer entry =>
    obtain ⟨id, createdAt, rfl, free⟩ := writes
    refine ⟨{ entry with id, hash := none, createdAt }, rfl, ?_⟩
    simp [proceed, create, free]
  | linking | sealing | returned => exact writes.elim

theorem step_unwritten (unwritten : NothingWritten s event) : (step service s event).shared = s.shared := by
  have moves := steps service s event
  generalize step service s event = s' at moves
  cases moves with
  | idle => rfl
  | begins id request free => rfl
  | advances id answer phase found => exact proceed_unwritten (unwritten phase found)
  | acts act => rfl

/-- A row without a hash. -/
def HasUnsealed (rows : List Row) : Prop := ∃ row ∈ rows, row.hash = none

theorem not_intact_of_unsealed {rows : List Row} (unsealed : HasUnsealed rows) : ¬ Intact rows := by
  intro intact
  obtain ⟨row, member, missing⟩ := unsealed
  have complete := intact.sealed row member
  rw [Sealed, missing] at complete
  cases complete

theorem step_written (written : ¬ NothingWritten s event) : HasUnsealed (step service s event).shared.rows := by
  cases event with
  | call id request => exact absurd trivial written
  | act act => exact act.elim
  | advance id answer =>
    simp only [NothingWritten, not_forall, not_not] at written
    obtain ⟨phase, found, writes⟩ := written
    obtain ⟨row, missing, appended⟩ := proceed_writes writes
    rw [step_advance found]
    refine ⟨row, ?_, missing⟩
    change row ∈ (proceed s.shared phase answer).1.rows
    rw [appended]
    exact List.mem_append_right _ (List.mem_singleton_self row)

/-- The chain is intact after a run exactly when it was before and nothing was written. -/
theorem intact_iff (table : Table) (events : List Step) :
    Intact (run (step service) (.fresh table) events).shared.rows ↔
      Intact table.rows ∧ Throughout (step service) NothingWritten (.fresh table) events := by
  suffices general : ∀ s : State, Intact (run (step service) s events).shared.rows ↔
      Intact s.shared.rows ∧ Throughout (step service) NothingWritten s events from general (.fresh table)
  induction events with
  | nil => intro s; simp
  | cons event rest ih =>
    intro s
    rw [run_cons, ih, Throughout]
    by_cases unwritten : NothingWritten s event
    · rw [step_unwritten unwritten]
      simp [unwritten]
    · have broken := not_intact_of_unsealed (step_written unwritten)
      simp [unwritten, broken]

/-- A wallet was created, in the form that services log it. -/
def walletCreated : LogArguments :=
  .options (some "u") (some "WALLET") (some "WALLET_CREATED") (some "SUCCESS") none none none none none
    (some (.object [("walletId", .string "w1")]))

/-- One call of `log`, to its end. -/
def loggedOnce : List Step :=
  [.call 0 (.log walletCreated), .advance 0 (.answers "" 0), .advance 0 (.answers "a" 0), .advance 0 (.answers "" 0)]

def loggedRow : Row := { logEntry none walletCreated with id := "a", hash := none, createdAt := 0 }

/-- The row stays without a hash, and the call returns as if it had one. -/
theorem logged_row_is_not_sealed :
    (run (step service) (.fresh .empty) loggedOnce).shared.rows = [loggedRow] ∧ loggedRow.hash = none ∧
      (run (step service) (.fresh .empty) loggedOnce).calls.lookup 0 = some (.returned (.ok ())) ∧
      ¬ Intact (run (step service) (.fresh .empty) loggedOnce).shared.rows := by
  have table : (run (step service) (.fresh .empty) loggedOnce).shared.rows = [loggedRow] := rfl
  refine ⟨table, rfl, rfl, ?_⟩
  rw [table]
  exact not_intact_of_unsealed ⟨loggedRow, List.mem_singleton_self _, rfl⟩

end AfroPay.AuditLog
