import AfroPay.EscrowConservation

/-! The flash-loan guard over whole runs: how far apart the actions are that it charges to one
address, and whose calls can move the guard of an address. A deposit is charged to its sender,
who authorises it; a release is charged to the depositor, whoever calls it. -/
namespace AfroPay.Escrow
open Panics KeyedStore TokenLedger Runs

variable {Address : Type} [DecidableEq Address]

/-- The address that a successful guarded call is charged to, with the ledger. -/
def charged (w : World Address) : Event Address → Option (Address × Nat)
  | .call auths call =>
    match call, exec w auths call with
    | .deposit sender _ _ _ _, .ok _ => some (sender, w.sequence)
    | .release escrowId, .ok _ => (w.escrows.lookup escrowId).map fun record => (record.depositor, w.sequence)
    | _, _ => none
  | _ => none

/-- The guard lets a deposit of the user pass at a ledger. -/
def Accepts (w : World Address) (user : Address) (sequence : Nat) : Prop :=
  ∃ after, enforceUserBlockDelay { w with sequence } user = .ok after

/-- The call releases an escrow that the user deposited, and succeeds. -/
def ReleasesFor (w : World Address) (auths : List Address) (call : Call Address) (user : Address) : Prop :=
  ∃ escrowId record after, call = .release escrowId ∧ w.escrows.lookup escrowId = some record ∧
    record.depositor = user ∧ release w auths escrowId = .ok after

theorem accepts_iff {w : World Address} {user : Address} {sequence : Nat} :
    Accepts w user sequence ↔ ∀ last ∈ w.userActionLedger.lookup user, last + minLedgerGap ≤ sequence := by
  simp only [Accepts, enforceUserBlockDelay_ok, exists_eq_right', not_exists, not_and, minLedgerGap]
  refine forall_congr' fun last => imp_congr_right fun _ => ?_
  omega

/-- Only a release releases an escrow for somebody. -/
theorem not_releasesFor {w : World Address} {auths : List Address} {call : Call Address}
    (other : ∀ escrowId, call ≠ .release escrowId) (user : Address) : ¬ ReleasesFor w auths call user := by
  rintro ⟨escrowId, -, -, released, -⟩
  exact other escrowId released

/-- A call that succeeds charges nobody and leaves the guard, or it is charged to one address
that the guard lets pass: the sender of a deposit or the depositor of a released escrow. -/
theorem exec_charge {w after : World Address} {auths : List Address} {call : Call Address}
    (ok : exec w auths call = .ok after) :
    after.sequence = w.sequence ∧
      ((charged w (.call auths call) = none ∧ after.userActionLedger = w.userActionLedger ∧
          ∀ user, ¬ ReleasesFor w auths call user) ∨
        ∃ user, charged w (.call auths call) = some (user, w.sequence) ∧ Accepts w user w.sequence ∧
          after.userActionLedger = w.userActionLedger.insert user w.sequence ∧
          (user ∈ auths ∧ (∀ other, ¬ ReleasesFor w auths call other) ∨ ReleasesFor w auths call user)) := by
  cases call with
  | initializeAdmin admin =>
    simp only [exec, initializeAdmin, bind_ok, pure_ok] at ok
    obtain ⟨-, -, -, -, rfl⟩ := ok
    exact ⟨rfl, .inl ⟨rfl, rfl, not_releasesFor (by simp)⟩⟩
  | migrate admin =>
    simp only [exec, migrate, bind_ok] at ok
    obtain ⟨-, -, -, -, -, -, -, -, ok⟩ := ok
    split at ok <;> obtain rfl := pure_ok.mp ok <;>
      exact ⟨rfl, .inl ⟨rfl, rfl, not_releasesFor (by simp)⟩⟩
  | updatePrice spotPrice =>
    obtain ⟨average, quoted⟩ := map_fst_ok.mp ok
    obtain ⟨feed, rfl⟩ := updatePrice_frame quoted
    exact ⟨rfl, .inl ⟨rfl, rfl, not_releasesFor (by simp)⟩⟩
  | deposit sender amount asset recipient releaseTimestamp =>
    have charge : charged w (.call auths (.deposit sender amount asset recipient releaseTimestamp)) =
        some (sender, w.sequence) := by
      simp only [charged, ok]
    simp only [exec, map_fst_ok, deposit, bind_ok, requireAuth_ok, panicIf_ok, pure_ok, exists_const,
      Prod.mk.injEq] at ok
    obtain ⟨_, ⟨authorised, -⟩, -, -, -, guarded, passed, -, ledger, -, counter, -, rfl, -⟩ := ok
    obtain ⟨-, rfl⟩ := enforceUserBlockDelay_ok.mp passed
    exact ⟨rfl, .inr ⟨sender, charge, ⟨_, passed⟩, rfl, .inl ⟨authorised, not_releasesFor (by simp)⟩⟩⟩
  | release escrowId =>
    have released := ok
    simp only [exec, release, bind_ok, expect_ok, panicIf_ok, payOut_ok, pure_ok, exists_const] at ok
    obtain ⟨record, found, -, -, -, -, guarded, passed, -, _, ⟨ledger, -, rfl⟩, rfl⟩ := ok
    have charge : charged w (.call auths (.release escrowId)) = some (record.depositor, w.sequence) := by
      simp only [charged, released, found, Option.map_some]
    obtain ⟨-, rfl⟩ := enforceUserBlockDelay_ok.mp passed
    exact ⟨rfl, .inr ⟨record.depositor, charge, ⟨_, passed⟩, rfl, .inr ⟨escrowId, record, _, rfl, found, rfl, released⟩⟩⟩
  | refund escrowId =>
    simp only [exec, refund, bind_ok, payOut_ok, pure_ok] at ok
    obtain ⟨_, -, _, -, _, -, _, -, _, -, _, ⟨ledger, -, rfl⟩, rfl⟩ := ok
    exact ⟨rfl, .inl ⟨rfl, rfl, not_releasesFor (by simp)⟩⟩

/-- The charges made so far are apart, and the guard remembers for each that one as late was made. -/
def Spaced (w : World Address) (charges : List (Address × Nat)) : Prop :=
  charges.Pairwise (fun early late => early.1 = late.1 → early.2 + minLedgerGap ≤ late.2) ∧
    ∀ charge ∈ charges, ∃ last ∈ w.userActionLedger.lookup charge.1, charge.2 ≤ last

theorem spaced_step {w : World Address} {charges : List (Address × Nat)} (spaced : Spaced w charges)
    (event : Event Address) : Spaced (step w event) (charges ++ (charged w event).toList) := by
  have unchanged {after : World Address} (same : after.userActionLedger = w.userActionLedger) :
      Spaced after (charges ++ (none : Option (Address × Nat)).toList) := by
    rw [Option.toList_none, List.append_nil]
    exact ⟨spaced.1, by simpa only [same] using spaced.2⟩
  cases event with
  | advance ledgers seconds => exact unchanged rfl
  | token activity => exact unchanged rfl
  | call auths call =>
    cases result : exec w auths call with
    | error message =>
      have none : charged w (.call auths call) = none := by cases call <;> simp [charged, result]
      rw [none]
      simp only [step, result]
      exact unchanged rfl
    | ok after =>
      simp only [step, result]
      obtain ⟨-, ⟨none, same, -⟩ | ⟨user, charge, accepts, guard, -⟩⟩ := exec_charge result
      · rw [none]
        exact unchanged same
      rw [charge, Option.toList_some]
      have earlier : ∀ entry ∈ charges, entry.1 = user → entry.2 + minLedgerGap ≤ w.sequence := by
        rintro entry member rfl
        obtain ⟨last, known, le⟩ := spaced.2 entry member
        exact (Nat.add_le_add_right le _).trans (accepts_iff.mp accepts last known)
      refine ⟨List.pairwise_append.mpr ⟨spaced.1, List.pairwise_singleton _ _, ?_⟩, fun entry member => ?_⟩
      · intro entry member late isLate
        rw [List.mem_singleton.mp isLate]
        exact earlier entry member
      · rw [guard]
        rcases List.mem_append.mp member with old | new
        · by_cases same : entry.1 = user
          · rw [same, AList.lookup_insert]
            exact ⟨w.sequence, rfl, (Nat.le_add_right _ _).trans (earlier entry old same)⟩
          · rw [AList.lookup_insert_ne same]
            exact spaced.2 entry old
        · rw [List.mem_singleton.mp new, AList.lookup_insert]
          exact ⟨w.sequence, rfl, le_rfl⟩

/-- Without his authorisation, a user's next deposit is refused or let pass at the same ledgers as
before, unless an escrow of his was released; and then it is not. -/
theorem accepts_step_iff {w : World Address} {auths : List Address} {call : Call Address} {user : Address}
    (stranger : user ∉ auths) :
    (∀ sequence ≥ w.sequence, Accepts (step w (.call auths call)) user sequence ↔ Accepts w user sequence) ↔
      ¬ ReleasesFor w auths call user := by
  cases result : exec w auths call with
  | error message =>
    have failed : ¬ ReleasesFor w auths call user := by
      rintro ⟨escrowId, record, after, rfl, -, -, released⟩
      rw [exec, released] at result
      cases result
    simp only [step, result, failed, not_false_eq_true, implies_true]
  | ok after =>
    simp only [step, result]
    obtain ⟨-, ⟨-, same, none⟩ | ⟨charged, -, accepts, guard, origin⟩⟩ := exec_charge result
    · simp only [accepts_iff, same, implies_true, none user, not_false_eq_true]
    by_cases own : charged = user
    · subst own
      have released : ReleasesFor w auths call charged := by
        rcases origin with ⟨authorised, -⟩ | released
        · exact absurd authorised stranger
        · exact released
      refine iff_of_false (fun same => ?_) (not_not.mpr released)
      have refused := (same w.sequence le_rfl).mpr accepts
      rw [accepts_iff, guard, AList.lookup_insert] at refused
      have gap := refused w.sequence rfl
      simp [minLedgerGap] at gap
    · refine iff_of_true (fun sequence _ => ?_) ?_
      · rw [accepts_iff, accepts_iff, guard, AList.lookup_insert_ne (Ne.symm own)]
      · rintro released
        rcases origin with ⟨-, none⟩ | other
        · exact none user released
        · obtain ⟨escrowId, record, _, rfl, found, rfl, -⟩ := released
          obtain ⟨_, record', _, same, found', rfl, -⟩ := other
          cases same
          rw [found] at found'
          cases found'
          exact own rfl

/-- In every run the charges to one address are at least the gap apart, and of the calls that a user
does not authorise exactly the successful releases of his own escrows change when his next deposit
is let pass. -/
theorem guard_isolated (self : Address) (sequence timestamp : Nat) (balances : Address → Address → Nat)
    (events : List (Event Address)) :
    (journal step charged (World.deployed self sequence timestamp balances) events).Pairwise
        (fun early late => early.1 = late.1 → early.2 + minLedgerGap ≤ late.2) ∧
      ∀ (user : Address) (auths : List Address) (call : Call Address), user ∉ auths →
        let w := run step (World.deployed self sequence timestamp balances) events
        ((∀ ledger ≥ w.sequence, Accepts (step w (.call auths call)) user ledger ↔ Accepts w user ledger) ↔
          ¬ ReleasesFor w auths call user) := by
  refine ⟨?_, fun user auths call stranger => accepts_step_iff stranger⟩
  have spaced : Spaced (run step (World.deployed self sequence timestamp balances) events)
      (journal step charged (World.deployed self sequence timestamp balances) events) :=
    journal_invariant Spaced (fun w charges event kept => spaced_step kept event) ⟨List.Pairwise.nil, by simp⟩ events
  exact spaced.1

/-- Depositor 4 has an escrow for recipient 5 that is due; ten ledgers have passed. -/
def dueEscrow : World Nat :=
  run step (World.deployed 0 1 0 fun _ _ => 0)
    [.token (.mint 1 4 1000), .call [4] (.deposit 4 1000 1 5 3600), .advance 10 3600]

/-- Party 7 releases it, and the depositor's next deposit, good at that ledger before, is refused there. -/
theorem stranger_moves_guard :
    ¬ ∀ (events : List (Event Nat)) (user : Nat) (auths : List Nat) (call : Call Nat), user ∉ auths →
      ∀ ledger ≥ (run step (World.deployed 0 1 0 fun _ _ => 0) events).sequence,
        Accepts (step (run step (World.deployed 0 1 0 fun _ _ => 0) events) (.call auths call)) user ledger ↔
          Accepts (run step (World.deployed 0 1 0 fun _ _ => 0) events) user ledger := by
  intro isolated
  have computed : dueEscrow.sequence = 11 ∧ dueEscrow.userActionLedger.lookup 4 = some 1 ∧
      (step dueEscrow (.call [7] (.release 1))).userActionLedger.lookup 4 = some 11 := by decide +kernel
  obtain ⟨now, before, after⟩ := computed
  have same : Accepts (step dueEscrow (.call [7] (.release 1))) 4 11 ↔ Accepts dueEscrow 4 11 :=
    isolated _ 4 [7] (.release 1) (by decide) 11 now.le
  have good : Accepts dueEscrow 4 11 := by simp [accepts_iff, before, minLedgerGap]
  have refused := accepts_iff.mp (same.mpr good) 11 after
  simp [minLedgerGap] at refused

end AfroPay.Escrow
