import AfroPay.PaymentRegistry

/-! Runs of the payment registry's migration. The first accepted call moves the storage
version for good, whatever ids it lists, so that call alone decides which version 1 records
become readable. -/
namespace AfroPay.PaymentRegistry
open Panics KeyedStore Runs

variable {Address : Type} [DecidableEq Address]

/-- A `migrate` call and the addresses that authorised it. -/
structure MigrateCall (Address : Type) where
  auths : List Address
  admin : Address
  paymentIds : List String

def MigrateCall.event (call : MigrateCall Address) : Event Address := ⟨call.auths, .migrate call.admin call.paymentIds⟩

/-- The store after a run of `migrate` calls. -/
def migrateAll (start : World Address) (calls : List (MigrateCall Address)) : World Address :=
  run step start (calls.map MigrateCall.event)

/-- The store is at version 1; the tag may be missing. -/
def IsV1 (w : World Address) : Prop := w.storageVersion.getD 1 = 1

/-- Every version 1 record can be read after the calls, or after some further ones. -/
def Complete (start : World Address) (calls : List (MigrateCall Address)) : Prop :=
  ∀ paymentId record, start.payments.lookup paymentId = some record →
    getPayment (migrateAll start calls) paymentId = some record ∨
      ∃ more, getPayment (migrateAll start (calls ++ more)) paymentId = some record

variable {w start : World Address} {call : MigrateCall Address}

theorem migrateAll_append (start : World Address) (calls more : List (MigrateCall Address)) :
    migrateAll start (calls ++ more) = migrateAll (migrateAll start calls) more := by
  simp only [migrateAll, List.map_append, run_append]

/-- A call changes nothing, or it moves a store of an older version. -/
theorem step_migrate (w : World Address) (call : MigrateCall Address) :
    step w call.event = w ∨ w.storageVersion.getD 1 < storageVersionCurrent ∧
      step w call.event =
        { call.paymentIds.foldl migrateRecord w with storageVersion := some storageVersionCurrent } := by
  cases done : migrate w call.auths call.admin call.paymentIds with
  | error text =>
    left
    simp [step, exec, MigrateCall.event, done, Functor.map, Except.map]
  | ok after =>
    have leaves : step w call.event = after := by
      simp [step, exec, MigrateCall.event, done, Functor.map, Except.map]
    rw [leaves]
    rcases migrate_ok done with same | ⟨-, older, moved⟩
    · exact .inl same
    · exact .inr ⟨older, moved⟩

/-- Once the version is moved, no `migrate` call changes the store. -/
theorem migrateAll_moved (moved : w.storageVersion = some storageVersionCurrent)
    (calls : List (MigrateCall Address)) : migrateAll w calls = w := by
  induction calls with
  | nil => rfl
  | cons call rest ih =>
    have same : step w call.event = w := by
      rcases step_migrate w call with same | ⟨older, -⟩
      · exact same
      · simp [moved] at older
    rw [migrateAll, List.map_cons, run_cons, same]
    exact ih

omit [DecidableEq Address] in
/-- What can be read after the call that moves the version. -/
theorem getPayment_moved (w : World Address) (call : MigrateCall Address) (paymentId : String) :
    getPayment { call.paymentIds.foldl migrateRecord w with storageVersion := some storageVersionCurrent } paymentId =
      if paymentId ∈ call.paymentIds then (w.payments.lookup paymentId).or (getPayment w paymentId)
      else getPayment w paymentId := by
  unfold getPayment
  rw [(migrateRecords_lookup call.paymentIds w paymentId).2]
  split
  · cases w.payments.lookup paymentId with
    | none => rfl
    | some record => rfl
  · rfl

/-- A run that moves the version has one call that does it; nothing changes before or after. -/
theorem migrateAll_splits {calls : List (MigrateCall Address)} (v1 : IsV1 start)
    (moved : (migrateAll start calls).storageVersion = some storageVersionCurrent) :
    ∃ before call after, calls = before ++ call :: after ∧ migrateAll start before = start ∧
      migrateAll start (before ++ [call]) =
        { call.paymentIds.foldl migrateRecord start with storageVersion := some storageVersionCurrent } := by
  induction calls with
  | nil =>
    have version : start.storageVersion = some storageVersionCurrent := moved
    simp [IsV1, version, storageVersionCurrent] at v1
  | cons call rest ih =>
    rcases step_migrate start call with same | ⟨-, moves⟩
    · have skip (calls : List (MigrateCall Address)) : migrateAll start (call :: calls) = migrateAll start calls := by
        rw [migrateAll, List.map_cons, run_cons, same]
        rfl
      rw [skip] at moved
      obtain ⟨before, mover, after, rfl, idle, moves⟩ := ih moved
      exact ⟨call :: before, mover, after, rfl, by rw [skip, idle], by rw [List.cons_append, skip, moves]⟩
    · exact ⟨[], call, rest, rfl, rfl, moves⟩

/-- The call that moves the version migrates the ids it lists; an id it leaves out reads as
before, after every further call as well. -/
theorem migration_moves_listed (v1 : IsV1 start) (calls : List (MigrateCall Address))
    (moved : (migrateAll start calls).storageVersion = some storageVersionCurrent) :
    ∃ before call after, calls = before ++ call :: after ∧
      (migrateAll start before).storageVersion = start.storageVersion ∧
      (migrateAll start (before ++ [call])).storageVersion = some storageVersionCurrent ∧
      ∀ more paymentId,
        (∀ record, paymentId ∈ call.paymentIds → start.payments.lookup paymentId = some record →
          getPayment (migrateAll start (calls ++ more)) paymentId = some record) ∧
        (paymentId ∉ call.paymentIds →
          getPayment (migrateAll start (calls ++ more)) paymentId = getPayment start paymentId) := by
  obtain ⟨before, call, after, rfl, idle, moves⟩ := migrateAll_splits v1 moved
  refine ⟨before, call, after, rfl, by rw [idle], by rw [moves], fun more paymentId => ?_⟩
  have final : migrateAll start (before ++ call :: after ++ more) =
      { call.paymentIds.foldl migrateRecord start with storageVersion := some storageVersionCurrent } := by
    have regroup : before ++ call :: after ++ more = (before ++ [call]) ++ (after ++ more) := by simp
    rw [regroup, migrateAll_append, moves]
    exact migrateAll_moved rfl (after ++ more)
  rw [final, getPayment_moved]
  refine ⟨?_, ?_⟩
  · intro record listed held
    rw [if_pos listed, held]
    rfl
  · intro unlisted
    rw [if_neg unlisted]

/-- The legacy payment is listed, so it is read as it was. -/
theorem migration_moves_listed_legacy :
    getPayment (migrateAll legacy ([⟨[0], 0, ["tx"]⟩] ++ [⟨[0], 0, []⟩])) "tx" = some ⟨750, 1, true⟩ := by
  have v1 : IsV1 legacy := rfl
  have moved : (migrateAll legacy [⟨[0], 0, ["tx"]⟩]).storageVersion = some storageVersionCurrent := by
    decide +kernel
  obtain ⟨before, call, after, split, -, -, reads⟩ := migration_moves_listed v1 [⟨[0], 0, ["tx"]⟩] moved
  have one : call = ⟨[0], 0, ["tx"]⟩ := by
    have member : call ∈ [(⟨[0], 0, ["tx"]⟩ : MigrateCall Nat)] := by rw [split]; simp
    simpa using member
  subst one
  exact (reads [⟨[0], 0, []⟩] "tx").1 ⟨750, 1, true⟩ (by decide) (by decide +kernel)

/-- An empty list moves the version, and the legacy payment is never readable again. -/
theorem legacy_left_behind :
    IsV1 legacy ∧ (migrateAll legacy [⟨[0], 0, []⟩]).storageVersion = some storageVersionCurrent ∧
      legacy.payments.lookup "tx" = some ⟨750, 1, true⟩ ∧ ¬ Complete legacy [⟨[0], 0, []⟩] := by
  have moved : (migrateAll legacy [⟨[0], 0, []⟩]).storageVersion = some storageVersionCurrent := by
    decide +kernel
  have unread : getPayment (migrateAll legacy [⟨[0], 0, []⟩]) "tx" = none := by decide +kernel
  have held : legacy.payments.lookup "tx" = some ⟨750, 1, true⟩ := by decide +kernel
  refine ⟨rfl, moved, held, ?_⟩
  intro complete
  rcases complete "tx" _ held with read | ⟨more, read⟩
  · rw [unread] at read
    cases read
  · rw [migrateAll_append, migrateAll_moved moved, unread] at read
    cases read

end AfroPay.PaymentRegistry
