import AfroPay.Escrow
import Mathlib.Algebra.Order.Ring.Int
import Mathlib.Tactic.Linarith

/-! What the escrow contract keeps over every run: ids are issued once, a record
changes only by being settled once, every payout is justified by the record it
settles, and the balance covers what is not settled yet. -/
namespace AfroPay.Escrow
open Panics KeyedStore TokenLedger Runs

variable {Address : Type}

/-- Neither released nor refunded. -/
def EscrowRecord.unsettled (record : EscrowRecord Address) : Prop :=
  record.isReleased = false ∧ record.isRefunded = false

instance (record : EscrowRecord Address) : Decidable record.unsettled :=
  inferInstanceAs (Decidable (_ ∧ _))

/-- A record stays as it is, or is settled once by exactly one of its flags. -/
def Evolves (record later : EscrowRecord Address) : Prop :=
  later = record ∨ record.unsettled ∧
    (later = { record with isReleased := true } ∨ later = { record with isRefunded := true })

/-- The payout moved the record's amount to the party its settlement entitles:
the recipient once the release time has come, or the depositor before it and
with his authorisation. -/
structure Justified (payout : Payout Address) (record : EscrowRecord Address) : Prop where
  amount : payout.amount = record.amount
  asset : payout.asset = record.asset
  entitled : (record.isReleased ∧ payout.recipient = record.recipient ∧
      record.releaseTimestamp ≤ payout.time) ∨
    (record.isRefunded ∧ payout.recipient = record.depositor ∧ record.depositor ∈ payout.auths ∧
      payout.time < record.releaseTimestamp)

theorem Evolves.trans {first second third : EscrowRecord Address} (early : Evolves first second)
    (late : Evolves second third) : Evolves first third := by
  rcases early with rfl | ⟨open', settled⟩
  · exact late
  · rcases late with rfl | ⟨⟨unreleased, unrefunded⟩, -⟩
    · exact .inr ⟨open', settled⟩
    · rcases settled with rfl | rfl
      · cases unreleased
      · cases unrefunded

theorem updatePrice_frame {w after : World Address} {spotPrice average : Int}
    (ok : updatePrice w spotPrice = .ok (after, average)) :
    ∃ feed, after = { w with priceFeed := some feed } := by
  simp only [updatePrice, bind_ok, pure_ok, Prod.mk.injEq] at ok
  obtain ⟨-, -, -, -, -, -, -, -, feed, -, rfl, -⟩ := ok
  exact ⟨_, rfl⟩

variable [DecidableEq Address]

theorem requireAuth_ok {w : World Address} {auths : List Address} {address : Address} {done : Unit} :
    requireAuth w auths address = .ok done ↔ address ∈ auths ∧ address ≠ w.self := by
  rw [requireAuth, panicIf_ok]
  tauto

theorem enforceUserBlockDelay_ok {w after : World Address} {user : Address} :
    enforceUserBlockDelay w user = .ok after ↔
      (¬ ∃ last ∈ w.userActionLedger.lookup user, w.sequence ≤ last + minLedgerGap - 1) ∧
        { w with userActionLedger := w.userActionLedger.insert user w.sequence } = after := by
  simp only [enforceUserBlockDelay, bind_ok, panicIf_ok, pure_ok, exists_const]

theorem payOut_ok {w after : World Address} {auths : List Address} {escrowId : Nat}
    {record : EscrowRecord Address} {recipient : Address} :
    payOut w auths escrowId record recipient = .ok after ↔
      ∃ ledger, transfer w.ledger record.asset w.self recipient record.amount = .ok ledger ∧
        { w with
          ledger
          payouts := ⟨escrowId, record.asset, recipient, record.amount, w.timestamp, auths⟩ ::
            w.payouts } = after := by
  simp only [payOut, bind_ok, pure_ok]

/-- Everything a successful call can do to the world. Releases and refunds are
one effect: a justified payout of an unsettled record. -/
inductive Effect (w : World Address) (auths : List Address) : World Address → Prop where
  | administered : Effect w auths { w with admin := admin, storageVersion := version }
  | priced (quoted : updatePrice w spotPrice = .ok ({ w with priceFeed := some feed }, average)) :
      Effect w auths { w with priceFeed := some feed }
  | deposited (record : EscrowRecord Address) (positive : 0 < record.amount)
      (outside : record.depositor ≠ w.self) (fresh : record.unsettled)
      (moved : transfer w.ledger record.asset record.depositor w.self record.amount = .ok ledger) :
      Effect w auths { w with
        ledger := ledger
        escrowCounter := w.escrowCounter + 1
        escrows := w.escrows.insert (w.escrowCounter + 1) record
        userActionLedger := w.userActionLedger.insert record.depositor w.sequence
        issued := (w.escrowCounter + 1) :: w.issued }
  | settled (record later : EscrowRecord Address) (payout : Payout Address)
      (found : w.escrows.lookup payout.escrowId = some record) (pending : record.unsettled)
      (evolves : Evolves record later) (justified : Justified payout later)
      (time : payout.time = w.timestamp) (guarded : later.isReleased → validatePriceGuard w = .ok ())
      (moved : transfer w.ledger record.asset w.self payout.recipient record.amount = .ok ledger)
      (charged : delays = w.userActionLedger ∨
        delays = w.userActionLedger.insert record.depositor w.sequence) :
      Effect w auths { w with
        ledger := ledger
        escrows := w.escrows.insert payout.escrowId later
        userActionLedger := delays
        payouts := payout :: w.payouts }

theorem release_effect {w after : World Address} (ok : release w auths escrowId = .ok after) :
    Effect w auths after := by
  simp only [release, bind_ok, expect_ok, panicIf_ok, enforceUserBlockDelay_ok, payOut_ok, pure_ok,
    exists_const] at ok
  obtain ⟨record, found, unreleased, unrefunded, ⟨⟩, guarded, _, ⟨-, rfl⟩, due, _,
    ⟨ledger, moved, rfl⟩, rfl⟩ := ok
  have pending : record.unsettled := ⟨by simpa using unreleased, by simpa using unrefunded⟩
  exact .settled record { record with isReleased := true } ⟨escrowId, _, record.recipient, _, w.timestamp, auths⟩
    found pending (.inr ⟨pending, .inl rfl⟩) ⟨rfl, rfl, .inl ⟨rfl, rfl, not_lt.mp due⟩⟩ rfl
    (fun _ => guarded) moved (.inr rfl)

theorem refund_effect {w after : World Address} (ok : refund w auths escrowId = .ok after) :
    Effect w auths after := by
  simp only [refund, bind_ok, expect_ok, panicIf_ok, requireAuth_ok, payOut_ok, pure_ok,
    exists_const] at ok
  obtain ⟨record, found, ⟨authorised, -⟩, unreleased, unrefunded, early, _, ⟨ledger, moved, rfl⟩, rfl⟩ := ok
  have pending : record.unsettled := ⟨by simpa using unreleased, by simpa using unrefunded⟩
  exact .settled record { record with isRefunded := true } ⟨escrowId, _, record.depositor, _, w.timestamp, auths⟩
    found pending (.inr ⟨pending, .inr rfl⟩)
    ⟨rfl, rfl, .inr ⟨rfl, rfl, authorised, not_le.mp early⟩⟩ rfl (by simp [pending.1]) moved (.inl rfl)

theorem exec_effect {w after : World Address} {call : Call Address}
    (ok : exec w auths call = .ok after) : Effect w auths after := by
  cases call with
  | initializeAdmin admin =>
    simp only [exec, initializeAdmin, bind_ok, pure_ok] at ok
    obtain ⟨-, -, -, -, rfl⟩ := ok
    exact .administered
  | migrate admin =>
    simp only [exec, migrate, bind_ok] at ok
    obtain ⟨-, -, -, -, -, -, -, -, ok⟩ := ok
    split at ok
    · obtain rfl := pure_ok.mp ok
      exact .administered
    · obtain rfl := pure_ok.mp ok
      exact .administered
  | updatePrice spotPrice =>
    obtain ⟨average, quoted⟩ := map_fst_ok.mp ok
    obtain ⟨feed, rfl⟩ := updatePrice_frame quoted
    exact .priced quoted
  | deposit sender amount asset recipient releaseTimestamp =>
    simp only [exec, map_fst_ok, deposit, bind_ok, requireAuth_ok, panicIf_ok,
      enforceUserBlockDelay_ok, fitU64_ok, pure_ok, exists_const, Prod.mk.injEq] at ok
    obtain ⟨_, ⟨-, outside⟩, positive, -, -, _, ⟨-, rfl⟩, -, ledger, moved, _, ⟨rfl, -⟩, rfl, -⟩ := ok
    exact .deposited ⟨sender, recipient, amount, asset, releaseTimestamp, w.timestamp, false, false⟩
      (not_le.mp positive) outside ⟨rfl, rfl⟩ moved
  | release escrowId => exact release_effect ok
  | refund escrowId => exact refund_effect ok

/-- What an unsettled record keeps locked of an asset. -/
def locked (asset : Address) (record : EscrowRecord Address) : Int :=
  if record.asset = asset ∧ record.unsettled then record.amount else 0

/-- The amounts of one asset that the contract still has to pay out. -/
def outstanding (w : World Address) (asset : Address) : Int :=
  total w.escrows fun _ => locked asset

/-- The custody invariant: ids come from the counter, records are sound, every
payout is justified by a record of its own, and the balance covers the rest. -/
structure Custody (w : World Address) : Prop where
  increasing : w.issued.Pairwise (· > ·)
  counted : ∀ id ∈ w.issued, id ≤ w.escrowCounter
  recorded : ∀ id, id ∈ w.issued ↔ (w.escrows.lookup id).isSome
  sound : ∀ id record, w.escrows.lookup id = some record →
    0 < record.amount ∧ record.depositor ≠ w.self
  justified : ∀ payout ∈ w.payouts, ∃ record,
    w.escrows.lookup payout.escrowId = some record ∧ Justified payout record
  once : (w.payouts.map Payout.escrowId).Nodup
  covered : ∀ asset, outstanding w asset ≤ w.ledger asset w.self

theorem custody_deployed (self : Address) (sequence timestamp : Nat) (balances : Address → Address → Nat) :
    Custody (World.deployed self sequence timestamp balances) := by
  constructor <;> simp [World.deployed, outstanding]

/-- Storage other than escrows, ids, payouts and balances does not matter. -/
theorem Custody.frame {w after : World Address} (custody : Custody w) (self : after.self = w.self)
    (issued : after.issued = w.issued) (counter : after.escrowCounter = w.escrowCounter)
    (escrows : after.escrows = w.escrows) (payouts : after.payouts = w.payouts)
    (ledger : ∀ asset, w.ledger asset w.self ≤ after.ledger asset w.self) : Custody after where
  increasing := issued ▸ custody.increasing
  counted := by simpa only [issued, counter] using custody.counted
  recorded := by simpa only [issued, escrows] using custody.recorded
  sound := by simpa only [escrows, self] using custody.sound
  justified := by simpa only [payouts, escrows] using custody.justified
  once := payouts ▸ custody.once
  covered asset := by
    simp only [outstanding, escrows, self]
    exact (custody.covered asset).trans (ledger asset)

/-- An id above the counter has no record yet. -/
theorem Custody.unused {w : World Address} (custody : Custody w) :
    w.escrows.lookup (w.escrowCounter + 1) = none := by
  cases lookup : w.escrows.lookup (w.escrowCounter + 1) with
  | none => rfl
  | some record =>
    have member := (custody.recorded (w.escrowCounter + 1)).mpr (by simp [lookup])
    have bound := custody.counted _ member
    omega

theorem Custody.deposited {w : World Address} (custody : Custody w) (record : EscrowRecord Address)
    (delays : Store Address Nat) (positive : 0 < record.amount) (outside : record.depositor ≠ w.self)
    (fresh : record.unsettled)
    (moved : transfer w.ledger record.asset record.depositor w.self record.amount = .ok ledger) :
    Custody { w with
      ledger := ledger, escrowCounter := w.escrowCounter + 1
      escrows := w.escrows.insert (w.escrowCounter + 1) record
      userActionLedger := delays, issued := (w.escrowCounter + 1) :: w.issued } := by
  have unused := custody.unused
  constructor
  · refine List.pairwise_cons.mpr ⟨?_, custody.increasing⟩
    intro id member
    have bound := custody.counted id member
    exact Nat.lt_succ_of_le bound
  · intro id member
    rcases List.mem_cons.mp member with rfl | old
    · exact le_rfl
    · exact (custody.counted id old).trans (Nat.le_succ _)
  · intro id
    by_cases same : id = w.escrowCounter + 1
    · subst same
      simp
    · simp [AList.lookup_insert_ne same, same, custody.recorded id]
  · intro id stored lookup
    obtain ⟨-, rfl⟩ | ⟨-, old⟩ := lookup_insert_some.mp lookup
    · exact ⟨positive, outside⟩
    · exact custody.sound id stored old
  · intro payout paid
    obtain ⟨stored, lookup, justified⟩ := custody.justified payout paid
    have distinct : payout.escrowId ≠ w.escrowCounter + 1 := by
      rintro same
      rw [same, unused] at lookup
      cases lookup
    exact ⟨stored, (AList.lookup_insert_ne distinct).trans lookup, justified⟩
  · exact custody.once
  · intro asset
    have before := custody.covered asset
    simp only [outstanding, total_insert, contribution_none unused, locked, fresh, and_true] at before ⊢
    by_cases same : asset = record.asset
    · subst same
      rw [transfer_received moved outside, if_pos rfl]
      linarith
    · rw [transfer_elsewhere moved (.inl same), if_neg (Ne.symm same)]
      linarith

theorem Custody.settled {w : World Address} (custody : Custody w) (record later : EscrowRecord Address)
    (payout : Payout Address) (delays : Store Address Nat)
    (found : w.escrows.lookup payout.escrowId = some record) (pending : record.unsettled)
    (evolves : Evolves record later) (justified : Justified payout later)
    (moved : transfer w.ledger record.asset w.self payout.recipient record.amount = .ok ledger) :
    Custody { w with
      ledger := ledger, escrows := w.escrows.insert payout.escrowId later
      userActionLedger := delays, payouts := payout :: w.payouts } := by
  have closed : ¬ later.unsettled := by
    rintro ⟨unreleased, unrefunded⟩
    rcases justified.entitled with ⟨released, -⟩ | ⟨refunded, -⟩ <;> simp_all
  have kept : later.amount = record.amount ∧ later.depositor = record.depositor := by
    rcases evolves with rfl | ⟨-, rfl | rfl⟩ <;> exact ⟨rfl, rfl⟩
  have unpaid : payout.escrowId ∉ w.payouts.map Payout.escrowId := by
    intro member
    obtain ⟨earlier, paid, same⟩ := List.mem_map.mp member
    obtain ⟨stored, lookup, justified⟩ := custody.justified earlier paid
    rw [same, found] at lookup
    cases lookup
    obtain ⟨unreleased, unrefunded⟩ := pending
    rcases justified.entitled with ⟨released, -⟩ | ⟨refunded, -⟩ <;> simp_all
  constructor
  · exact custody.increasing
  · exact custody.counted
  · intro id
    by_cases same : id = payout.escrowId
    · subst same
      have member := custody.recorded payout.escrowId
      simpa [found] using member
    · rw [AList.lookup_insert_ne same]
      exact custody.recorded id
  · intro id stored lookup
    obtain ⟨-, rfl⟩ | ⟨-, old⟩ := lookup_insert_some.mp lookup
    · rw [kept.1, kept.2]
      exact custody.sound _ record found
    · exact custody.sound id stored old
  · intro paid member
    rcases List.mem_cons.mp member with rfl | old
    · exact ⟨later, AList.lookup_insert _, justified⟩
    · have distinct : paid.escrowId ≠ payout.escrowId := by
        intro same
        exact unpaid (same ▸ List.mem_map_of_mem old)
      obtain ⟨stored, lookup, sound⟩ := custody.justified paid old
      exact ⟨stored, (AList.lookup_insert_ne distinct).trans lookup, sound⟩
  · exact List.nodup_cons.mpr ⟨unpaid, custody.once⟩
  · intro asset
    have before := custody.covered asset
    have positive := (custody.sound _ record found).1
    simp only [outstanding, total_insert, contribution_some found, locked, pending, closed, and_true,
      and_false, ↓reduceIte] at before ⊢
    by_cases same : asset = record.asset
    · subst same
      rw [transfer_paid moved, if_pos rfl]
      split <;> linarith
    · rw [transfer_elsewhere moved (.inl same), if_neg (Ne.symm same)]
      linarith

/-- One event keeps custody; a rejected call changes nothing. -/
theorem custody_step {w : World Address} (custody : Custody w) (event : Event Address) :
    Custody (step w event) := by
  cases event with
  | call auths call =>
    simp only [step]
    split
    · rename_i after ok
      cases exec_effect ok with
      | administered => exact custody.frame rfl rfl rfl rfl rfl fun _ => le_rfl
      | priced quoted => exact custody.frame rfl rfl rfl rfl rfl fun _ => le_rfl
      | deposited record positive outside fresh moved =>
        exact custody.deposited record _ positive outside fresh moved
      | settled record later payout found pending evolves justified _ _ moved =>
        exact custody.settled record later payout _ found pending evolves justified moved
    · exact custody
  | advance ledgers seconds => exact custody.frame rfl rfl rfl rfl rfl fun _ => le_rfl
  | token activity =>
    exact custody.frame rfl rfl rfl rfl rfl fun asset => activity_keeps_balance w.self asset w.ledger activity

/-- A later world of the same contract: logs only grow, records only evolve and
the clocks only move on. -/
structure Follows (w later : World Address) : Prop where
  self : later.self = w.self
  time : w.timestamp ≤ later.timestamp
  issued : w.issued <:+ later.issued
  payouts : w.payouts <:+ later.payouts
  records : ∀ id record, w.escrows.lookup id = some record →
    ∃ now, later.escrows.lookup id = some now ∧ Evolves record now

omit [DecidableEq Address] in
theorem Follows.refl (w : World Address) : Follows w w :=
  ⟨rfl, le_rfl, List.suffix_rfl, List.suffix_rfl, fun _ record found => ⟨record, found, .inl rfl⟩⟩

omit [DecidableEq Address] in
theorem Follows.trans {first second third : World Address} (early : Follows first second)
    (late : Follows second third) : Follows first third where
  self := late.self.trans early.self
  time := early.time.trans late.time
  issued := early.issued.trans late.issued
  payouts := early.payouts.trans late.payouts
  records id record found := by
    obtain ⟨middle, lookup, evolves⟩ := early.records id record found
    obtain ⟨last, lookup, settles⟩ := late.records id middle lookup
    exact ⟨last, lookup, evolves.trans settles⟩

theorem follows_step {w : World Address} (custody : Custody w) (event : Event Address) :
    Follows w (step w event) := by
  have same := Follows.refl w
  cases event with
  | call auths call =>
    simp only [step]
    split
    · rename_i after ok
      cases exec_effect ok with
      | administered => exact ⟨rfl, le_rfl, same.issued, same.payouts, same.records⟩
      | priced quoted => exact ⟨rfl, le_rfl, same.issued, same.payouts, same.records⟩
      | deposited record =>
        refine ⟨rfl, le_rfl, List.suffix_cons _ _, same.payouts, ?_⟩
        intro id held found
        have distinct : id ≠ w.escrowCounter + 1 := by
          rintro rfl
          rw [custody.unused] at found
          cases found
        exact ⟨held, (AList.lookup_insert_ne distinct).trans found, .inl rfl⟩
      | settled record later payout found pending evolves =>
        refine ⟨rfl, le_rfl, same.issued, List.suffix_cons _ _, ?_⟩
        intro id held lookup
        by_cases here : id = payout.escrowId
        · subst here
          rw [found] at lookup
          cases lookup
          exact ⟨later, AList.lookup_insert _, evolves⟩
        · exact ⟨held, (AList.lookup_insert_ne here).trans lookup, .inl rfl⟩
    · exact same
  | advance ledgers seconds =>
    exact ⟨rfl, Nat.le_add_right _ _, same.issued, same.payouts, same.records⟩
  | token activity => exact ⟨rfl, le_rfl, same.issued, same.payouts, same.records⟩

/-- From a world in custody every run stays in custody and only follows it. -/
theorem custody_run {w : World Address} (custody : Custody w) (events : List (Event Address)) :
    Custody (run step w events) ∧ Follows w (run step w events) := by
  refine run_invariant (fun later => Custody later ∧ Follows w later) ?_ ⟨custody, .refl w⟩ events
  rintro later event ⟨kept, follows⟩
  exact ⟨custody_step kept event, follows.trans (follows_step kept event)⟩

/-- Conservation and single settlement, between any two points of any run: ids
are issued in strictly increasing order and once each, every earlier record has
at most been settled once by one flag, every payout is the only one of its record
and is justified by it, and the balance covers what is outstanding. -/
theorem escrow_conserves (self : Address) (sequence timestamp : Nat)
    (balances : Address → Address → Nat) (before after : List (Event Address)) :
    let w := run step (World.deployed self sequence timestamp balances) before
    let later := run step w after
    (w.issued <:+ later.issued ∧ later.issued.Pairwise (· > ·) ∧
      ∀ id, id ∈ later.issued ↔ (later.escrows.lookup id).isSome) ∧
    (∀ id record, w.escrows.lookup id = some record →
      ∃ now, later.escrows.lookup id = some now ∧ Evolves record now) ∧
    ((later.payouts.map Payout.escrowId).Nodup ∧ ∀ payout ∈ later.payouts, ∃ record,
      later.escrows.lookup payout.escrowId = some record ∧ Justified payout record) ∧
    ∀ asset, outstanding later asset ≤ later.ledger asset self := by
  intro w later
  obtain ⟨custody, start⟩ := custody_run (custody_deployed self sequence timestamp balances) before
  obtain ⟨kept, follows⟩ := custody_run custody after
  have same : later.self = self := follows.self.trans start.self
  exact ⟨⟨follows.issued, kept.increasing, kept.recorded⟩, follows.records,
    ⟨kept.once, kept.justified⟩, fun asset => same ▸ kept.covered asset⟩

end AfroPay.Escrow
