import AfroPay.KeyedStore
import AfroPay.Panics
import AfroPay.Runs

/-! The payment registry with its two generations of payment records. Version 1
records are only ever read, by the migration; registrations and queries use
version 2 records. -/
namespace AfroPay.PaymentRegistry
open Panics KeyedStore Runs

variable {Address : Type} [DecidableEq Address]

def storageVersionCurrent : Nat := 2

/-- The version 1 record, and what `get_payment` returns. -/
structure PaymentRecord (Address : Type) where
  amount : Int
  recipient : Address
  registered : Bool
  deriving DecidableEq

structure PaymentRecordV2 (Address : Type) where
  amount : Int
  recipient : Address
  registered : Bool
  memo : String
  deriving DecidableEq

/-- Instance storage, then the persistent entries by `Payment` and `PaymentV2` key. -/
structure World (Address : Type) where
  admin : Option Address
  storageVersion : Option Nat
  payments : Store String (PaymentRecord Address)
  paymentsV2 : Store String (PaymentRecordV2 Address)

def requireAuth (auths : List Address) (address : Address) : Except String Unit :=
  panicIf (address ∉ auths) "Error(Auth, InvalidAction)"

def initializeAdmin (w : World Address) (auths : List Address) (admin : Address) :
    Except String (World Address) := do
  panicIf (w.admin.isSome) "contract already initialized"
  requireAuth auths admin
  pure { w with admin := some admin, storageVersion := some storageVersionCurrent }

/-- A version 1 record in the version 2 layout. -/
def PaymentRecord.migrated (record : PaymentRecord Address) : PaymentRecordV2 Address :=
  ⟨record.amount, record.recipient, record.registered, ""⟩

/-- One round of the migration loop. Whatever version 2 record the id has is overwritten. -/
def migrateRecord (w : World Address) (paymentId : String) : World Address :=
  match w.payments.lookup paymentId with
  | some record => { w with paymentsV2 := w.paymentsV2.insert paymentId record.migrated }
  | none => w

def migrate (w : World Address) (auths : List Address) (admin : Address) (paymentIds : List String) :
    Except String (World Address) := do
  requireAuth auths admin
  let storedAdmin ← expect "contract not initialized" w.admin
  panicIf (admin ≠ storedAdmin) "unauthorized admin"
  let currentVersion := w.storageVersion.getD 1
  panicIf (currentVersion > storageVersionCurrent) "storage version is newer than this contract"
  if currentVersion = storageVersionCurrent then pure w
  else pure { paymentIds.foldl migrateRecord w with storageVersion := some storageVersionCurrent }

/-- Looks for a version 2 record only; returns whether the payment was registered now. -/
def registerPayment (w : World Address) (auths : List Address) (admin : Address) (paymentId : String)
    (amount : Int) (recipient : Address) : Except String (World Address × Bool) := do
  requireAuth auths admin
  let storedAdmin ← expect "contract not initialized" w.admin
  panicIf (admin ≠ storedAdmin) "unauthorized admin"
  panicIf (amount ≤ 0) "amount must be positive"
  if (w.paymentsV2.lookup paymentId).isSome then pure (w, false)
  else
    let record : PaymentRecord Address := ⟨amount, recipient, true⟩
    let record : PaymentRecordV2 Address := ⟨record.amount, record.recipient, record.registered, ""⟩
    pure ({ w with paymentsV2 := w.paymentsV2.insert paymentId record }, true)

/-- What `get_payment` shows of a version 2 record. -/
def PaymentRecordV2.shown (record : PaymentRecordV2 Address) : PaymentRecord Address :=
  ⟨record.amount, record.recipient, record.registered⟩

def getPayment (w : World Address) (paymentId : String) : Option (PaymentRecord Address) :=
  (w.paymentsV2.lookup paymentId).map PaymentRecordV2.shown

def isRegistered (w : World Address) (paymentId : String) : Bool :=
  ((getPayment w paymentId).map (·.registered)).getD false

inductive Call (Address : Type) where
  | initializeAdmin (admin : Address)
  | migrate (admin : Address) (paymentIds : List String)
  | registerPayment (admin : Address) (paymentId : String) (amount : Int) (recipient : Address)

/-- A call and the addresses that authorised it. -/
structure Event (Address : Type) where
  auths : List Address
  call : Call Address

/-- The world a call leaves and, for a registration, its answer. -/
def exec (w : World Address) (event : Event Address) : Except String (World Address × Option Bool) :=
  match event.call with
  | .initializeAdmin admin => (·, none) <$> initializeAdmin w event.auths admin
  | .migrate admin paymentIds => (·, none) <$> migrate w event.auths admin paymentIds
  | .registerPayment admin paymentId amount recipient =>
    (fun (after, answer) => (after, some answer)) <$>
      registerPayment w event.auths admin paymentId amount recipient

/-- A panicking call is rolled back. -/
def step (w : World Address) (event : Event Address) : World Address :=
  match exec w event with
  | .ok (after, _) => after
  | .error _ => w

/-- The event is a `register_payment` of this id that returns true. -/
def Registers (w : World Address) (event : Event Address) (paymentId : String) : Prop :=
  ∃ admin amount recipient, event.call = .registerPayment admin paymentId amount recipient ∧
    ∃ after, registerPayment w event.auths admin paymentId amount recipient = .ok (after, true)

/-- A payment that can be read stays as it is, and an id is registered at most
once and never over a version 1 record. -/
structure WriteOnce (start : World Address) (events : List (Event Address)) : Prop where
  stable : ∀ (before later after : List (Event Address)) paymentId record,
    events = before ++ later ++ after → getPayment (run step start before) paymentId = some record →
      getPayment (run step start (before ++ later)) paymentId = some record
  once : ∀ (before between after : List (Event Address)) first second paymentId,
    events = before ++ first :: between ++ second :: after → Registers (run step start before) first paymentId →
      ¬ Registers (run step start (before ++ first :: between)) second paymentId
  fresh : ∀ (before after : List (Event Address)) event paymentId, events = before ++ event :: after →
    Registers (run step start before) event paymentId → (run step start before).payments.lookup paymentId = none

/-- The stored admin signed the call. -/
def Authorised (w : World Address) (auths : List Address) (admin : Address) : Prop :=
  admin ∈ auths ∧ w.admin = some admin

/-- No registration over a version 1 record that was not migrated, and no
migration over a version 2 record that says something else. -/
def KeepsRecords (w : World Address) (event : Event Address) : Prop :=
  match event.call with
  | .initializeAdmin _ => True
  | .migrate admin paymentIds =>
    Authorised w event.auths admin → w.storageVersion.getD 1 < storageVersionCurrent →
      ∀ paymentId ∈ paymentIds, ∀ old new, w.payments.lookup paymentId = some old →
        w.paymentsV2.lookup paymentId = some new → new.shown = old
  | .registerPayment admin paymentId amount _ =>
    Authorised w event.auths admin → 0 < amount → w.payments.lookup paymentId = none ∨
      (w.paymentsV2.lookup paymentId).isSome

variable {w after : World Address} {auths : List Address} {admin recipient : Address} {amount : Int}
  {paymentId : String} {answer : Bool} {event : Event Address}

theorem migrate_ok {paymentIds : List String} (done : migrate w auths admin paymentIds = .ok after) :
    after = w ∨ Authorised w auths admin ∧ w.storageVersion.getD 1 < storageVersionCurrent ∧
      after = { paymentIds.foldl migrateRecord w with storageVersion := some storageVersionCurrent } := by
  simp only [migrate, requireAuth, bind_ok, panicIf_ok, expect_ok, exists_const] at done
  obtain ⟨signed, storedAdmin, stored, same, known, done⟩ := done
  split at done
  · exact .inl (pure_ok.mp done).symm
  · refine .inr ⟨⟨not_not.mp signed, ?_⟩, by omega, (pure_ok.mp done).symm⟩
    rw [stored, not_not.mp same]

private theorem migrate_runs {paymentIds : List String} (signed : Authorised w auths admin)
    (older : w.storageVersion.getD 1 < storageVersionCurrent) : migrate w auths admin paymentIds =
      .ok { paymentIds.foldl migrateRecord w with storageVersion := some storageVersionCurrent } := by
  simp only [migrate, requireAuth, bind_ok, panicIf_ok, expect_ok, exists_const]
  refine ⟨not_not.mpr signed.1, admin, signed.2, not_not.mpr rfl, by omega, ?_⟩
  rw [if_neg (by omega)]
  rfl

/-- A registration answers true exactly when the id has no version 2 record. -/
private theorem registerPayment_ok :
    registerPayment w auths admin paymentId amount recipient = .ok (after, answer) ↔
      Authorised w auths admin ∧ 0 < amount ∧
        ((w.paymentsV2.lookup paymentId).isSome ∧ after = w ∧ answer = false ∨
          w.paymentsV2.lookup paymentId = none ∧ answer = true ∧
            after = { w with paymentsV2 := w.paymentsV2.insert paymentId ⟨amount, recipient, true, ""⟩ }) := by
  simp only [registerPayment, requireAuth, bind_ok, panicIf_ok, expect_ok, exists_const, not_not, not_le,
    Authorised, ite_eq_iff, pure_ok, Prod.mk.injEq]
  cases w.paymentsV2.lookup paymentId <;> grind

omit [DecidableEq Address] in
/-- The loop gives every listed id its version 1 record, if it has one. -/
theorem migrateRecords_lookup (paymentIds : List String) (w : World Address) (paymentId : String) :
    (paymentIds.foldl migrateRecord w).payments = w.payments ∧
      (paymentIds.foldl migrateRecord w).paymentsV2.lookup paymentId =
        if paymentId ∈ paymentIds then
          ((w.payments.lookup paymentId).map PaymentRecord.migrated).or (w.paymentsV2.lookup paymentId)
        else w.paymentsV2.lookup paymentId := by
  induction paymentIds generalizing w with
  | nil => simp
  | cons first rest ih =>
    obtain ⟨payments, lookup⟩ := ih (migrateRecord w first)
    rw [List.foldl_cons, payments, lookup]
    unfold migrateRecord
    cases old : w.payments.lookup first with
    | none => grind
    | some record =>
      by_cases same : paymentId = first
      · subst same
        simp [old]
      · simp [same, AList.lookup_insert_ne same]

/-- What an event does to the records: nothing, a migration or a registration. -/
private theorem step_cases (w : World Address) (event : Event Address) :
    ((step w event).payments = w.payments ∧ (step w event).paymentsV2 = w.paymentsV2) ∨
    (∃ admin paymentIds, event.call = .migrate admin paymentIds ∧ Authorised w event.auths admin ∧
      w.storageVersion.getD 1 < storageVersionCurrent ∧
      step w event = { paymentIds.foldl migrateRecord w with storageVersion := some storageVersionCurrent }) ∨
    (∃ admin paymentId amount recipient, event.call = .registerPayment admin paymentId amount recipient ∧
      Authorised w event.auths admin ∧ 0 < amount ∧ w.paymentsV2.lookup paymentId = none ∧
      step w event = { w with paymentsV2 := w.paymentsV2.insert paymentId ⟨amount, recipient, true, ""⟩ }) := by
  obtain ⟨auths, call⟩ := event
  cases call with
  | initializeAdmin admin =>
    left
    cases done : initializeAdmin w auths admin with
    | error text => simp [step, exec, done, Functor.map, Except.map]
    | ok after =>
      have leaves : step w ⟨auths, .initializeAdmin admin⟩ = after := by
        simp [step, exec, done, Functor.map, Except.map]
      simp only [initializeAdmin, bind_ok, pure_ok] at done
      obtain ⟨-, -, -, -, rfl⟩ := done
      simp [leaves]
  | migrate admin paymentIds =>
    cases done : migrate w auths admin paymentIds with
    | error text => simp [step, exec, done, Functor.map, Except.map]
    | ok after =>
      have leaves : step w ⟨auths, .migrate admin paymentIds⟩ = after := by
        simp [step, exec, done, Functor.map, Except.map]
      rw [leaves]
      rcases migrate_ok done with rfl | ⟨signed, older, rfl⟩
      · exact .inl ⟨rfl, rfl⟩
      · exact .inr (.inl ⟨admin, paymentIds, rfl, signed, older, rfl⟩)
  | registerPayment admin paymentId amount recipient =>
    cases done : registerPayment w auths admin paymentId amount recipient with
    | error text => simp [step, exec, done, Functor.map, Except.map]
    | ok result =>
      obtain ⟨after, answer⟩ := result
      have leaves : step w ⟨auths, .registerPayment admin paymentId amount recipient⟩ = after := by
        simp [step, exec, done, Functor.map, Except.map]
      rw [leaves]
      obtain ⟨signed, positive, ⟨-, rfl, -⟩ | ⟨free, -, rfl⟩⟩ := registerPayment_ok.mp done
      · exact .inl ⟨rfl, rfl⟩
      · exact .inr (.inr ⟨admin, paymentId, amount, recipient, rfl, signed, positive, free, rfl⟩)

/-- An event that keeps the records changes no payment that can be read. -/
private theorem step_stable {record : PaymentRecord Address} (keeps : KeepsRecords w event)
    (read : getPayment w paymentId = some record) : getPayment (step w event) paymentId = some record := by
  obtain ⟨new, found, shown⟩ := Option.map_eq_some_iff.mp read
  rcases step_cases w event with ⟨-, same⟩ | ⟨admin, paymentIds, call, signed, older, leaves⟩ |
    ⟨admin, other, amount, recipient, call, signed, positive, free, leaves⟩
  · rw [getPayment, same]
    exact read
  · simp only [KeepsRecords, call] at keeps
    rw [getPayment, leaves, (migrateRecords_lookup paymentIds w paymentId).2]
    split
    · next listed =>
      cases old : w.payments.lookup paymentId with
      | none => simpa [getPayment] using read
      | some record' =>
        have agrees := keeps signed older paymentId listed record' new old found
        simp [PaymentRecordV2.shown, PaymentRecord.migrated, ← shown, ← agrees]
    · exact read
  · have distinct : paymentId ≠ other := by
      rintro rfl
      rw [found] at free
      cases free
    rw [getPayment, leaves, AList.lookup_insert_ne distinct]
    exact read

private theorem run_stable {events : List (Event Address)} {record : PaymentRecord Address}
    (keeps : Throughout step KeepsRecords w events) (read : getPayment w paymentId = some record) :
    getPayment (run step w events) paymentId = some record :=
  run_invariant_of (fun w => getPayment w paymentId = some record)
    (fun _ _ read keeps => step_stable keeps read) read keeps

private theorem registers_iff : Registers w event paymentId ↔ ∃ admin amount recipient,
    event.call = .registerPayment admin paymentId amount recipient ∧ Authorised w event.auths admin ∧
      0 < amount ∧ w.paymentsV2.lookup paymentId = none := by
  simp only [Registers, registerPayment_ok]
  grind

/-- A registered payment can be read from then on. -/
private theorem registers_readable (registers : Registers w event paymentId) :
    ∃ record, getPayment (step w event) paymentId = some record := by
  obtain ⟨admin, amount, recipient, call, after, done⟩ := registers
  obtain ⟨-, -, ⟨-, -, false'⟩ | ⟨-, -, rfl⟩⟩ := registerPayment_ok.mp done
  · cases false'
  · obtain ⟨auths, _⟩ := event
    subst call
    simp [step, exec, done, Functor.map, Except.map, getPayment]

/-- An event that would change a readable payment or register over a version 1
record breaks the promise at that event. -/
private theorem keepsRecords_of_stable
    (stable : ∀ paymentId record, getPayment w paymentId = some record →
      getPayment (step w event) paymentId = some record)
    (fresh : ∀ paymentId, Registers w event paymentId → w.payments.lookup paymentId = none) :
    KeepsRecords w event := by
  obtain ⟨auths, call⟩ := event
  cases call with
  | initializeAdmin admin => trivial
  | migrate admin paymentIds =>
    intro signed older paymentId listed old new held found
    have leaves : step w ⟨auths, .migrate admin paymentIds⟩ = { paymentIds.foldl migrateRecord w with
        storageVersion := some storageVersionCurrent } := by
      simp [step, exec, migrate_runs signed older, Functor.map, Except.map]
    have read : getPayment w paymentId = some new.shown := by simp [getPayment, found]
    have kept := stable paymentId new.shown read
    rw [getPayment, leaves, (migrateRecords_lookup paymentIds w paymentId).2, if_pos listed, held] at kept
    exact (Option.some.inj kept).symm
  | registerPayment admin paymentId amount recipient =>
    intro signed positive
    by_cases free : w.paymentsV2.lookup paymentId = none
    · exact .inl (fresh paymentId (registers_iff.mpr ⟨admin, amount, recipient, rfl, signed, positive, free⟩))
    · exact .inr (Option.isSome_iff_ne_none.mpr free)

/-- Payments are write-once along a run exactly when each of its events keeps the records. -/
theorem writeOnce_iff (start : World Address) (events : List (Event Address)) :
    WriteOnce start events ↔ Throughout step KeepsRecords start events := by
  constructor
  · intro once
    apply throughout_of_at
    intro before event after split
    apply keepsRecords_of_stable
    · intro paymentId record read
      have stable := once.stable before [event] after paymentId record (by simp [split]) read
      rwa [run_append] at stable
    · exact fun paymentId => once.fresh before after event paymentId split
  · intro keeps
    refine ⟨?_, ?_, ?_⟩
    · rintro before later after paymentId record rfl read
      obtain ⟨earlier, -⟩ := (throughout_append start (before ++ later) after).mp keeps
      rw [run_append]
      exact run_stable ((throughout_append start before later).mp earlier).2 read
    · rintro before between after first second paymentId rfl registers again
      obtain ⟨earlier, -⟩ := throughout_at keeps
      obtain ⟨-, -, rest⟩ := (throughout_append start before (first :: between)).mp earlier
      obtain ⟨record, read⟩ := registers_readable registers
      have still := run_stable rest read
      obtain ⟨-, -, -, -, -, -, free⟩ := registers_iff.mp again
      rw [run_append, run_cons] at free
      simp [getPayment, free] at still
    · rintro before after event paymentId rfl registers
      obtain ⟨-, here⟩ := throughout_at keeps
      obtain ⟨admin, amount, recipient, call, signed, positive, free⟩ := registers_iff.mp registers
      simp only [KeepsRecords, call] at here
      rcases here signed positive with absent | present
      · exact absent
      · simp [free] at present

/-- A legacy store with one version 1 payment, not yet migrated. -/
def legacy : World Nat := ⟨some 0, some 1, AList.insert "tx" ⟨750, 1, true⟩ ∅, ∅⟩

/-- The payment is registered again for another amount and recipient; then the
migration puts the old record over the new one. -/
def registerThenMigrate : List (Event Nat) :=
  [⟨[0], .registerPayment 0 "tx" 900 2⟩, ⟨[0], .migrate 0 ["tx"]⟩]

theorem legacy_registered_then_overwritten :
    Registers legacy ⟨[0], .registerPayment 0 "tx" 900 2⟩ "tx" ∧
      legacy.payments.lookup "tx" = some ⟨750, 1, true⟩ ∧
      getPayment (run step legacy (registerThenMigrate.take 1)) "tx" = some ⟨900, 2, true⟩ ∧
      getPayment (run step legacy registerThenMigrate) "tx" = some ⟨750, 1, true⟩ ∧
      ¬ WriteOnce legacy registerThenMigrate := by
  have first : getPayment (run step legacy (registerThenMigrate.take 1)) "tx" = some ⟨900, 2, true⟩ := by
    decide +kernel
  have last : getPayment (run step legacy registerThenMigrate) "tx" = some ⟨750, 1, true⟩ := by
    decide +kernel
  refine ⟨registers_iff.mpr ⟨0, 900, 2, rfl, ⟨by decide, rfl⟩, by decide, rfl⟩, by decide +kernel, first, last, ?_⟩
  intro once
  have stable := once.stable (registerThenMigrate.take 1) (registerThenMigrate.drop 1) [] "tx" _ rfl first
  rw [List.take_append_drop, last] at stable
  exact absurd stable (by decide)

end AfroPay.PaymentRegistry
