import AfroPay.EscrowConservation

/-! Which escrows can still be settled. A release needs the price guard, a refund
needs time before the release timestamp, and no call ever lifts a suspension: an
escrow that is due while the feed is suspended has lost both ways out. -/
namespace AfroPay.Escrow
open Panics KeyedStore TokenLedger Runs

variable {Address : Type}

/-- A contract call or the clocks moving on, without token activity of others. -/
def Event.isContractual : Event Address → Prop
  | .token _ => False
  | _ => True

/-- The average and the last price of the feed are within the limit, with no
overflow on the way. -/
def WithinLimit (feed : PriceFeedState) : Prop :=
  ∃ deviation, deviationBps feed.lastPrice feed.twap = .ok deviation ∧ deviation ≤ maxTwapDeviationBps

theorem averaged_ok {feed after : PriceFeedState} (ok : feed.averaged = .ok after) :
    (feed.isSuspended → after.isSuspended) ∧
      (after.isSuspended = false → minTwapSamples ≤ after.sampleCount → WithinLimit after) := by
  simp only [PriceFeedState.averaged, bind_ok, fit_ok] at ok
  obtain ⟨twap, -, ok⟩ := ok
  split at ok
  · simp only [bind_ok, pure_ok] at ok
    obtain ⟨deviation, computed, rfl⟩ := ok
    refine ⟨fun suspended => by simp [suspended], ?_⟩
    intro running _
    refine ⟨deviation, computed, ?_⟩
    by_contra beyond
    simp [not_le.mp beyond] at running
  · rename_i few
    obtain rfl := pure_ok.mp ok
    exact ⟨id, fun _ many => absurd many few⟩

/-- A price update keeps a suspension and suspends a feed that leaves the limit. -/
theorem updatePrice_feed {w : World Address} {spotPrice average : Int} {feed : PriceFeedState}
    (ok : updatePrice w spotPrice = .ok ({ w with priceFeed := some feed }, average)) :
    (priceGuardStatus w = false → feed.isSuspended) ∧
      (feed.isSuspended = false → minTwapSamples ≤ feed.sampleCount → WithinLimit feed) := by
  simp only [updatePrice, bind_ok, pure_ok, Prod.mk.injEq, World.mk.injEq, Option.some.injEq] at ok
  obtain ⟨-, -, -, -, _, -, _, -, after, averaged, frame, -⟩ := ok
  obtain ⟨-, -, -, -, -, -, -, rfl, -⟩ := frame
  obtain ⟨suspends, limits⟩ := averaged_ok averaged
  refine ⟨?_, limits⟩
  intro closed
  cases stored : w.priceFeed with
  | none => simp [priceGuardStatus, stored] at closed
  | some old =>
    apply suspends
    simpa [priceGuardStatus, stored] using closed

theorem suspended_blocks {w : World Address} (status : priceGuardStatus w = false) :
    validatePriceGuard w ≠ .ok () := by
  cases stored : w.priceFeed with
  | none => simp [priceGuardStatus, stored] at status
  | some feed =>
    have suspended : feed.isSuspended = true := by simpa [priceGuardStatus, stored] using status
    simp [validatePriceGuard, stored, suspended, panicIf, bind, Except.bind]

variable [DecidableEq Address]

/-- What the two guards rely on: an open feed is within its limit and no action
is recorded for a later ledger. -/
structure Guarded (w : World Address) : Prop where
  limit : ∀ feed, w.priceFeed = some feed → feed.isSuspended = false →
    minTwapSamples ≤ feed.sampleCount → WithinLimit feed
  actions : ∀ user last, w.userActionLedger.lookup user = some last → last ≤ w.sequence

/-- While the feed is not suspended, the price guard lets every call through. -/
theorem Guarded.passes {w : World Address} (guarded : Guarded w) (status : priceGuardStatus w = true) :
    validatePriceGuard w = .ok () := by
  unfold validatePriceGuard
  cases stored : w.priceFeed with
  | none => rfl
  | some feed =>
    have running : feed.isSuspended = false := by simpa [priceGuardStatus, stored] using status
    simp only [running]
    by_cases sampled : minTwapSamples ≤ feed.sampleCount ∧ 0 < feed.twap
    · obtain ⟨deviation, computed, within⟩ := guarded.limit feed stored running sampled.1
      simp [sampled, panicIf, bind, Except.bind, computed, not_lt.mpr within]
    · simp [sampled, panicIf, bind, Except.bind, pure, Except.pure]

theorem guarded_deployed (self : Address) (sequence timestamp : Nat) (balances : Address → Address → Nat) :
    Guarded (World.deployed self sequence timestamp balances) := by
  constructor <;> simp [World.deployed]

private theorem actions_insert {actions : Store Address Nat} {now : Nat} {sender : Address}
    (bounded : ∀ user last, actions.lookup user = some last → last ≤ now) :
    ∀ user last, (actions.insert sender now).lookup user = some last → last ≤ now := by
  intro user last lookup
  obtain ⟨-, rfl⟩ | ⟨-, old⟩ := lookup_insert_some.mp lookup
  · exact le_rfl
  · exact bounded user last old

theorem guarded_step {w : World Address} (guarded : Guarded w) (event : Event Address) :
    Guarded (step w event) := by
  cases event with
  | call auths call =>
    simp only [step]
    split
    · rename_i after ok
      cases exec_effect ok with
      | administered => exact ⟨guarded.limit, guarded.actions⟩
      | priced quoted =>
        refine ⟨?_, guarded.actions⟩
        rintro feed same
        cases same
        exact (updatePrice_feed quoted).2
      | deposited record => exact ⟨guarded.limit, actions_insert guarded.actions⟩
      | settled record later payout found pending evolves justified time passed moved charged =>
        refine ⟨guarded.limit, ?_⟩
        rcases charged with rfl | rfl
        · exact guarded.actions
        · exact actions_insert guarded.actions
    · exact guarded
  | advance ledgers seconds =>
    refine ⟨guarded.limit, ?_⟩
    intro user last lookup
    exact (guarded.actions user last lookup).trans (Nat.le_add_right _ _)
  | token activity => exact ⟨guarded.limit, guarded.actions⟩

/-- Some continuation of contract calls and clock advances settles the escrow. -/
def Settleable (w : World Address) (escrowId : Nat) : Prop :=
  ∃ continuation : List (Event Address), (∀ event ∈ continuation, event.isContractual) ∧
    ∃ record, (run step w continuation).escrows.lookup escrowId = some record ∧ ¬ record.unsettled

private theorem step_ok {w after : World Address} {call : Call Address}
    (ok : exec w auths call = .ok after) : step w (.call auths call) = after := by
  simp [step, ok]

/-- The contract can pay every unsettled record. -/
theorem Custody.affords {w : World Address} (custody : Custody w)
    (found : w.escrows.lookup escrowId = some record) (pending : record.unsettled) (recipient : Address) :
    ∃ ledger, transfer w.ledger record.asset w.self recipient record.amount = .ok ledger := by
  have covered := custody.covered record.asset
  have share : locked record.asset record ≤ outstanding w record.asset := by
    refine le_total (fun _ => locked record.asset) found ?_
    intro id stored lookup
    have positive := (custody.sound id stored lookup).1
    simp only [locked]
    split <;> omega
  simp only [locked, pending, and_self, ↓reduceIte] at share
  have positive := (custody.sound _ record found).1
  exact ⟨_, transfer_ok.mpr ⟨positive.le, share.trans covered, rfl⟩⟩

/-- Two ledgers on and at the release time, anyone can release past an open guard. -/
theorem release_settles {w : World Address} (custody : Custody w) (guarded : Guarded w)
    (found : w.escrows.lookup escrowId = some record) (pending : record.unsettled)
    (status : priceGuardStatus w = true) : Settleable w escrowId := by
  let due : World Address := step w (.advance 2 (record.releaseTimestamp - w.timestamp))
  have passes : validatePriceGuard due = .ok () := guarded.passes status
  obtain ⟨ledger, moved⟩ := custody.affords found pending record.recipient
  have delay : ¬ ∃ last ∈ due.userActionLedger.lookup record.depositor,
      due.sequence ≤ last + minLedgerGap - 1 := by
    rintro ⟨last, recorded, soon⟩
    have bound := guarded.actions _ last recorded
    have later : due.sequence = w.sequence + 2 := rfl
    simp only [minLedgerGap] at soon
    omega
  have reached : ¬ due.timestamp < record.releaseTimestamp := by
    have later : due.timestamp = w.timestamp + (record.releaseTimestamp - w.timestamp) := rfl
    omega
  have settles : ∃ after, exec due [] (.release escrowId) = .ok after ∧
      after.escrows.lookup escrowId = some { record with isReleased := true } := by
    simp only [exec, release, bind_ok, expect_ok, panicIf_ok, enforceUserBlockDelay_ok, payOut_ok,
      pure_ok, exists_const]
    exact ⟨_, ⟨record, found, by simp [pending.1], by simp [pending.2], (), passes, _, ⟨delay, rfl⟩,
      reached, _, ⟨ledger, moved, rfl⟩, rfl⟩, AList.lookup_insert _⟩
  obtain ⟨after, ok, settled⟩ := settles
  refine ⟨[.advance 2 (record.releaseTimestamp - w.timestamp), .call [] (.release escrowId)], ?_,
    { record with isReleased := true }, ?_, ?_⟩
  · simp [Event.isContractual]
  · change (step due (.call [] (.release escrowId))).escrows.lookup escrowId = _
    rw [step_ok ok]
    exact settled
  · simp [EscrowRecord.unsettled]

/-- Before the release time the depositor can refund, suspended feed or not. -/
theorem refund_settles {w : World Address} (custody : Custody w)
    (found : w.escrows.lookup escrowId = some record) (pending : record.unsettled)
    (early : w.timestamp < record.releaseTimestamp) : Settleable w escrowId := by
  obtain ⟨ledger, moved⟩ := custody.affords found pending record.depositor
  have outside := (custody.sound _ record found).2
  have settles : ∃ after, exec w [record.depositor] (.refund escrowId) = .ok after ∧
      after.escrows.lookup escrowId = some { record with isRefunded := true } := by
    simp only [exec, refund, bind_ok, expect_ok, panicIf_ok, requireAuth_ok, payOut_ok, pure_ok,
      exists_const]
    exact ⟨_, ⟨record, found, ⟨List.mem_singleton_self _, outside⟩, by simp [pending.1],
      by simp [pending.2], not_le.mpr early, _, ⟨ledger, moved, rfl⟩, rfl⟩, AList.lookup_insert _⟩
  obtain ⟨after, ok, settled⟩ := settles
  refine ⟨[.call [record.depositor] (.refund escrowId)], ?_, { record with isRefunded := true }, ?_, ?_⟩
  · simp [Event.isContractual]
  · rw [run_cons, run_nil, step_ok ok]
    exact settled
  · simp [EscrowRecord.unsettled]

/-- Both ways out are closed: the escrow is due and the feed is suspended. -/
structure Stuck (w : World Address) (escrowId : Nat) (record : EscrowRecord Address) : Prop where
  found : w.escrows.lookup escrowId = some record
  pending : record.unsettled
  due : record.releaseTimestamp ≤ w.timestamp
  suspended : priceGuardStatus w = false

/-- Nothing opens either way again. -/
theorem stuck_step {w : World Address} (custody : Custody w)
    (stuck : Stuck w escrowId record) (event : Event Address) : Stuck (step w event) escrowId record := by
  cases event with
  | call auths call =>
    simp only [step]
    split
    · rename_i after ok
      cases exec_effect ok with
      | administered => exact ⟨stuck.found, stuck.pending, stuck.due, stuck.suspended⟩
      | priced quoted =>
        refine ⟨stuck.found, stuck.pending, stuck.due, ?_⟩
        have suspended := (updatePrice_feed quoted).1 stuck.suspended
        simpa [priceGuardStatus] using suspended
      | deposited created =>
        refine ⟨?_, stuck.pending, stuck.due, stuck.suspended⟩
        have distinct : escrowId ≠ w.escrowCounter + 1 := by
          rintro rfl
          have found := stuck.found
          rw [custody.unused] at found
          cases found
        exact (AList.lookup_insert_ne distinct).trans stuck.found
      | settled held later payout found pending evolves justified time guarded =>
        refine ⟨?_, stuck.pending, stuck.due, stuck.suspended⟩
        have distinct : escrowId ≠ payout.escrowId := by
          rintro rfl
          cases stuck.found.symm.trans found
          rcases justified.entitled with ⟨released, -⟩ | ⟨-, -, -, early⟩
          · exact suspended_blocks stuck.suspended (guarded released)
          · have due : record.releaseTimestamp = later.releaseTimestamp := by
              rcases evolves with rfl | ⟨-, rfl | rfl⟩ <;> rfl
            have now := stuck.due
            omega
        exact (AList.lookup_insert_ne distinct).trans stuck.found
    · exact stuck
  | advance ledgers seconds =>
    exact ⟨stuck.found, stuck.pending, stuck.due.trans (Nat.le_add_right _ _), stuck.suspended⟩
  | token activity => exact ⟨stuck.found, stuck.pending, stuck.due, stuck.suspended⟩

/-- A stuck escrow stays stuck whatever is called. -/
theorem Stuck.never {w : World Address} (stuck : Stuck w escrowId record) (custody : Custody w) :
    ¬ Settleable w escrowId := by
  rintro ⟨continuation, -, settled, lookup, closed⟩
  obtain ⟨-, still⟩ := run_invariant (fun later => Custody later ∧ Stuck later escrowId record)
    (fun _ event both => ⟨custody_step both.1 event, stuck_step both.1 both.2 event⟩)
    ⟨custody, stuck⟩ continuation
  cases still.found.symm.trans lookup
  exact closed still.pending

/-- In every reachable world an unsettled escrow can still be settled exactly
when the price feed is not suspended or its release time has not come. -/
theorem settleable_iff (self : Address) (sequence timestamp : Nat)
    (balances : Address → Address → Nat) (events : List (Event Address)) (escrowId : Nat)
    (record : EscrowRecord Address)
    (found : (run step (World.deployed self sequence timestamp balances) events).escrows.lookup escrowId =
      some record) (pending : record.unsettled) :
    Settleable (run step (World.deployed self sequence timestamp balances) events) escrowId ↔
      priceGuardStatus (run step (World.deployed self sequence timestamp balances) events) = true ∨
      (run step (World.deployed self sequence timestamp balances) events).timestamp <
        record.releaseTimestamp := by
  have custody := (custody_run (custody_deployed self sequence timestamp balances) events).1
  have guarded := run_invariant Guarded (fun _ event kept => guarded_step kept event)
    (guarded_deployed self sequence timestamp balances) events
  generalize run step (World.deployed self sequence timestamp balances) events = w at *
  constructor
  · intro settleable
    by_contra shut
    obtain ⟨suspended, due⟩ := not_or.mp shut
    have stuck : Stuck w escrowId record :=
      ⟨found, pending, not_lt.mp due, by simpa using suspended⟩
    exact stuck.never custody settleable
  · rintro (status | early)
    · exact release_settles custody guarded found pending status
    · exact refund_settles custody found pending early

/-- Token 1, depositor 4 and recipient 5: an escrow of 1000 due in an hour, then
ten prices of 100 in ten successive ledgers, and the hour passes. The first price
counts twice, so the tenth average is 110 and the feed is suspended. -/
def flatPriceRun : List (Event Nat) :=
  [.token (.mint 1 4 1000), .call [4] (.deposit 4 1000 1 5 3600)] ++
    (List.replicate 10 [.advance 1 5, .call [] (.updatePrice 100)]).flatten ++ [.advance 1 3600]

/-- A constant price closes both ways out of an escrow for good. -/
theorem flat_price_sticks_escrow :
    ¬ ∀ (events : List (Event Nat)) (escrowId : Nat) (record : EscrowRecord Nat),
      (run step (World.deployed 0 1 0 fun _ _ => 0) events).escrows.lookup escrowId = some record →
        record.unsettled → Settleable (run step (World.deployed 0 1 0 fun _ _ => 0) events) escrowId := by
  intro open'
  have found : (run step (World.deployed 0 1 0 fun _ _ => 0) flatPriceRun).escrows.lookup 1 =
      some ⟨4, 5, 1000, 1, 3600, 0, false, false⟩ := by decide +kernel
  have shut : ¬ (priceGuardStatus (run step (World.deployed 0 1 0 fun _ _ => 0) flatPriceRun) = true ∨
      (run step (World.deployed 0 1 0 fun _ _ => 0) flatPriceRun).timestamp < 3600) := by decide +kernel
  have custody := (custody_run (custody_deployed 0 1 0 fun _ _ => 0) flatPriceRun).1
  obtain ⟨suspended, due⟩ := not_or.mp shut
  have stuck : Stuck _ 1 _ := ⟨found, ⟨rfl, rfl⟩, not_lt.mp due, by simpa using suspended⟩
  exact stuck.never custody (open' flatPriceRun 1 _ found ⟨rfl, rfl⟩)

/-- Before its release time the same escrow can still be refunded under a
suspended feed. -/
theorem refund_open_under_suspension :
    Settleable (run step (World.deployed 0 1 0 fun _ _ => 0) (flatPriceRun.take 22)) 1 ∧
      priceGuardStatus (run step (World.deployed 0 1 0 fun _ _ => 0) (flatPriceRun.take 22)) = false := by
  have found : (run step (World.deployed 0 1 0 fun _ _ => 0) (flatPriceRun.take 22)).escrows.lookup 1 =
      some ⟨4, 5, 1000, 1, 3600, 0, false, false⟩ := by decide +kernel
  have early : (run step (World.deployed 0 1 0 fun _ _ => 0) (flatPriceRun.take 22)).timestamp < 3600 := by
    decide +kernel
  exact ⟨(settleable_iff 0 1 0 _ _ 1 _ found ⟨rfl, rfl⟩).mpr (.inr early), by decide +kernel⟩

end AfroPay.Escrow
