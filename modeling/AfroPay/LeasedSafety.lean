import AfroPay.LeaseMirror

/-! What settlement keeps over leases. The laws are proved at the perfect lock and hold here
beside it, in every run under a punctual clock: a delivery that stalls past the end of its
lease has company. -/
namespace AfroPay.LeasedSettlement
open KeyedStore LeaseStore Transfer Runs Settlement Simulations

variable {key : String} {s : State} {ideal : Settlement.State}

theorem Mirrors.row_eq (mirrors : Mirrors key s ideal) : ideal.row = s.row := by
  rw [mirrors.same]
  rfl

theorem Mirrors.hashes_eq (mirrors : Mirrors key s ideal) : ideal.hashes = s.hashes := by
  rw [mirrors.same]
  rfl

theorem Mirrors.holds_eq (mirrors : Mirrors key s ideal) : ideal.holds = s.holds := by
  rw [mirrors.same]
  rfl

/-- What the event is at a perfect lock takes it on an open row, loses no hash and holds no
settled row. -/
def lawful (key : String) (s : State) (event : Event) : Bool :=
  (mirror key s event).all fun image =>
    takesLockOpen (s.desk key) image && recordsHash (s.desk key) image && sparesSuccess (s.desk key) image

/-- A delivery stands alike at both locks, or is just let in or already over at the perfect one. -/
theorem Mirrors.phase (mirrors : Mirrors key s ideal) (id : Nat) :
    ideal.phase id = (s.desk key).phase id ∨ ideal.phase id = .gone ∨ ∃ row, ideal.phase id = .verify row := by
  have seat := mirrors.seats id
  simp only [Settlement.State.phase, State.desk]
  generalize s.workers.lookup id = worker at seat ⊢
  generalize s.locks.calls.lookup id = call at seat
  generalize ideal.workers.lookup id = twin at seat ⊢
  cases seat <;> simp

theorem Mirrors.takesLockOpen (mirrors : Mirrors key s ideal) {event : Settlement.Event}
    (opens : Settlement.takesLockOpen (s.desk key) event) : Settlement.takesLockOpen ideal event := by
  have lock : ideal.lock = (s.desk key).lock := mirrors.lock_eq
  have row : ideal.row = (s.desk key).row := by rw [mirrors.same]
  cases event with
  | work id outcome =>
    cases outcome with
    | done =>
      rcases mirrors.phase id with same | gone | ⟨loaded, verify⟩
      · simp only [Settlement.takesLockOpen, same, lock, row]
        exact opens
      · simp only [Settlement.takesLockOpen, gone]
      · simp only [Settlement.takesLockOpen, verify]
    | _ => rfl
  | _ => rfl

/-- Who is past its submission at the perfect lock is so at the lease. -/
theorem Mirrors.unsubmitted (mirrors : Mirrors key s ideal) (id : Nat)
    (open' : ((s.desk key).phase id).stage ≠ .submitted) : (ideal.phase id).stage ≠ .submitted := by
  rcases mirrors.phase id with same | gone | ⟨loaded, verify⟩
  · rwa [same]
  · simp [gone, Phase.stage]
  · simp [verify, Phase.stage]

theorem Mirrors.recordsHash (mirrors : Mirrors key s ideal) {event : Settlement.Event}
    (records : Settlement.recordsHash (s.desk key) event) : Settlement.recordsHash ideal event := by
  cases event with
  | work id outcome =>
    simp only [Settlement.recordsHash, Bool.or_eq_true, decide_eq_true_eq] at records ⊢
    exact records.imp_left (mirrors.unsubmitted id)
  | crash id =>
    simp only [Settlement.recordsHash, decide_eq_true_eq] at records ⊢
    exact mirrors.unsubmitted id records
  | _ => rfl

theorem Mirrors.sparesSuccess (mirrors : Mirrors key s ideal) {event : Settlement.Event}
    (spares : Settlement.sparesSuccess (s.desk key) event) : Settlement.sparesSuccess ideal event := by
  rw [mirrors.same]
  exact spares

theorem Mirrors.lawful (mirrors : Mirrors key s ideal) {event : Event} {image : Settlement.Event}
    (meets : lawful key s event) (mirrored : mirror key s event = some image) :
    Settlement.takesLockOpen ideal image ∧ Settlement.recordsHash ideal image ∧
      Settlement.sparesSuccess ideal image := by
  simp only [LeasedSettlement.lawful, mirrored, Option.all_some, Bool.and_eq_true] at meets
  obtain ⟨⟨opens, records⟩, spares⟩ := meets
  exact ⟨mirrors.takesLockOpen opens, mirrors.recordsHash records, mirrors.sparesSuccess spares⟩

/-- What lawful steps keep at the perfect lock, lawful steps under a punctual clock keep over leases. -/
theorem lawful_keeps {good : Settlement.State → Prop}
    (preserved : ∀ t event, good t →
      takesLockOpen t event ∧ Settlement.recordsHash t event ∧ Settlement.sparesSuccess t event →
        good (Settlement.step t event)) :
    ∀ s event, (∃ ideal, Mirrors key s ideal ∧ good ideal) → punctual s event ∧ lawful key s event →
      ∃ ideal, Mirrors key (step key s event) ideal ∧ good ideal := by
  have follows : Follows (step key) _ (mirror key) Settlement.step (Mirrors key) :=
    mirrors_follow.mono fun s event (both : punctual s event ∧ lawful key s event) => both.1
  exact follows.keeps (fun _ _ _ _ mirrors both image => mirrors.lawful both.2 image) preserved

private theorem truthful_step (t : Settlement.State) (event : Settlement.Event) (truth : Truthful t)
    (law : takesLockOpen t event ∧ Settlement.recordsHash t event ∧ Settlement.sparesSuccess t event) :
    Truthful (Settlement.step t event) :=
  truth.steps law.1 law.2.1 (Settlement.step_cases t event)

/-- A lawful run over leases is mirrored by a settlement that keeps its truth. -/
theorem lawful_truthful (row : Transaction) {events : List Event}
    (meets : Throughout (step key) (fun s event => punctual s event ∧ lawful key s event) (State.created row) events) :
    ∃ ideal, Mirrors key (run (step key) (State.created row) events) ideal ∧ Truthful ideal :=
  run_invariant_of (fun s => ∃ ideal, Mirrors key s ideal ∧ Truthful ideal) (lawful_keeps truthful_step)
    ⟨_, mirrors_created row, truthful_created row⟩ meets

theorem lawful_single (row : Transaction) {events : List Event}
    (meets : Throughout (step key) (fun s event => punctual s event ∧ lawful key s event) (State.created row) events) :
    (run (step key) (State.created row) events).hashes.length ≤ 1 := by
  obtain ⟨ideal, mirrors, truth⟩ := lawful_truthful row meets
  rw [← mirrors.hashes_eq]
  exact truth.once.single

theorem lawful_unfailed (row : Transaction) {events : List Event}
    (meets : Throughout (step key) (fun s event => punctual s event ∧ lawful key s event) (State.created row) events)
    (submitted : (run (step key) (State.created row) events).hashes ≠ []) :
    (run (step key) (State.created row) events).row.status ≠ .failed := by
  obtain ⟨ideal, mirrors, truth⟩ := lawful_truthful row meets
  rw [← mirrors.hashes_eq] at submitted
  rw [← mirrors.row_eq]
  exact truth.truthful submitted

/-- A lawful run over leases leaves `SUCCESS` as it is. -/
theorem lawful_success (row : Transaction) {before after : List Event}
    (meets : Throughout (step key) (fun s event => punctual s event ∧ lawful key s event) (State.created row)
      (before ++ after)) (success : (run (step key) (State.created row) before).row.status = .success) :
    (run (step key) (State.created row) (before ++ after)).row.status = .success := by
  obtain ⟨early, late⟩ := (throughout_append _ before after).mp meets
  obtain ⟨middle, alike, truth⟩ := lawful_truthful row early
  have start : middle.row.status = .success := by
    rw [alike.row_eq]
    exact success
  have kept := run_invariant_of (fun s => ∃ ideal, Mirrors key s ideal ∧ Truthful ideal ∧ ideal.row.status = .success)
    (lawful_keeps fun t event held law => ⟨truthful_step t event held.1 law,
      held.1.success_kept law.2.2 (Settlement.step_cases t event) held.2⟩) ⟨middle, alike, truth, start⟩ late
  obtain ⟨last, mirrors, -, stays⟩ := kept
  rw [run_append, ← mirrors.row_eq]
  exact stays

/-- Over leases, and in every run under a punctual clock in which the lease is taken only on open
rows, a returned hash is always written and no hold lands on a settled row: the chain returns at most
one hash, a row whose transfer was submitted is never `FAILED`, and a row that is `SUCCESS` stays so. -/
theorem leased_rows_keep_truth (key : String) (row : Transaction) (before after : List Event)
    (meets : Throughout (step key) (fun s event => punctual s event ∧ lawful key s event) (State.created row)
      (before ++ after)) :
    (run (step key) (State.created row) (before ++ after)).hashes.length ≤ 1 ∧
    ((run (step key) (State.created row) (before ++ after)).hashes ≠ [] →
      (run (step key) (State.created row) (before ++ after)).row.status ≠ .failed) ∧
    ((run (step key) (State.created row) before).row.status = .success →
      (run (step key) (State.created row) (before ++ after)).row.status = .success) :=
  ⟨lawful_single row meets, lawful_unfailed row meets, lawful_success row meets⟩

theorem extendedSettling_true :
    Throughout (step "lock") (fun s event => punctual s event ∧ lawful "lock" s event) (State.created pendingRow)
      (extendedSettling ++ [.updateRiskScore 0 (9 / 10) true, .risk 0 true, .risk 0 true]) ∧
    (run (step "lock") (State.created pendingRow)
      (extendedSettling ++ [.updateRiskScore 0 (9 / 10) true, .risk 0 true, .risk 0 true])).row.status = .success := by
  have meets : Throughout (step "lock") (fun s event => punctual s event ∧ lawful "lock" s event)
      (State.created pendingRow)
      (extendedSettling ++ [.updateRiskScore 0 (9 / 10) true, .risk 0 true, .risk 0 true]) := by decide +kernel
  exact ⟨meets, (leased_rows_keep_truth _ _ _ _ meets).2.2 (by decide +kernel)⟩

/-- Over leases, and in every run under a punctual clock in which the lease is taken only on open rows, a
returned hash is always written and no hold lands on a settled row: a row whose transfer was submitted is
never `FAILED`, and a row that is `SUCCESS` stays so. -/
theorem settled_rows_keep_truth (key : String) (row : Transaction) (before after : List Event)
    (meets : Throughout (step key) (fun s event => punctual s event ∧ lawful key s event) (State.created row)
      (before ++ after)) :
    ((run (step key) (State.created row) (before ++ after)).hashes ≠ [] →
      (run (step key) (State.created row) (before ++ after)).row.status ≠ .failed) ∧
    ((run (step key) (State.created row) before).row.status = .success →
      (run (step key) (State.created row) (before ++ after)).row.status = .success) :=
  ⟨lawful_unfailed row meets, lawful_success row meets⟩

/-- The law covers a transfer that settles under an extended lease, with a second delivery that loads the
row afterwards. -/
theorem settled_before_redelivery :
    Throughout (step "lock:escrow:t1") (fun s event => punctual s event ∧ lawful "lock:escrow:t1" s event)
      (State.created pendingRow) (extendedSettling ++ [.deliver 1 pendingJob, .work 1 .done]) ∧
    (run (step "lock:escrow:t1") (State.created pendingRow)
      (extendedSettling ++ [.deliver 1 pendingJob, .work 1 .done])).row.status = .success := by
  have meets : Throughout (step "lock:escrow:t1")
      (fun s event => punctual s event ∧ lawful "lock:escrow:t1" s event)
      (State.created pendingRow) (extendedSettling ++ [.deliver 1 pendingJob, .work 1 .done]) := by decide +kernel
  exact ⟨meets, (settled_rows_keep_truth _ _ _ _ meets).2 (by decide +kernel)⟩

/-- When the write of `SUCCESS` fails after the hash was returned, the catch block reports the paid
transfer as `FAILED`. -/
theorem submitted_transfer_marked_failed :
    ¬ ∀ (key : String) (row : Transaction) (before after : List Event),
      ((run (step key) (State.created row) (before ++ after)).hashes ≠ [] →
        (run (step key) (State.created row) (before ++ after)).row.status ≠ .failed) ∧
      ((run (step key) (State.created row) before).row.status = .success →
        (run (step key) (State.created row) (before ++ after)).row.status = .success) := by
  intro law
  have returned : (run (step "lock:escrow:t1") (State.created pendingRow)
      (extendedSettling.take 13 ++ [.work 0 .failed, .work 0 .done])).hashes ≠ [] := by decide +kernel
  have failed : (run (step "lock:escrow:t1") (State.created pendingRow)
      (extendedSettling.take 13 ++ [.work 0 .failed, .work 0 .done])).row.status = .failed := by decide +kernel
  exact (law "lock:escrow:t1" pendingRow _ [.work 0 .failed, .work 0 .done]).1 returned failed

/-- Without the punctual clock the lease is none: a delivery that stalls past the end of its lease
submits a second time, although every delivery took its lease on an open row. -/
theorem stalled_delivery_submits_twice :
    ¬ ∀ (row : Transaction) (events : List Event),
      Throughout (step "lock") (fun s event => lawful "lock" s event) (State.created row) events →
        (run (step "lock") (State.created row) events).hashes.length ≤ 1 := by
  intro law
  have twice := law pendingRow
    ([.deliver 0 pendingJob, .work 0 .done, .execute 0, .answer 0 true, .work 0 .done,
        .work 0 (.scored (1 / 10) false), .work 0 .done, .tick 10000] ++
      [.deliver 1 pendingJob, .work 1 .done, .execute 1, .answer 1 true, .work 1 .done,
        .work 1 (.scored (1 / 10) false), .work 1 .done, .work 1 (.submitted "h1"), .work 0 (.submitted "h2")])
    (by decide +kernel)
  exact absurd twice (by decide +kernel)

/-- A delivery works on its row: it has its lease, or Redis has granted it and the answer is under way. -/
def busy (s : State) : Bool :=
  s.workers.entries.any (·.2.phase.stage.inside) || s.locks.calls.entries.any (·.2.phase = .acquired)

/-- A risk call's hold lands only while no delivery works on the row. -/
def holdsOutside (s : State) : Event → Bool
  | .risk id true =>
    match s.risks.lookup id with
    | some ⟨_, _, .write true⟩ => !busy s
    | _ => true
  | _ => true

/-- The lease is taken on an open row, and holds land while nobody works on it. -/
def heedful (key : String) (s : State) (event : Event) : Bool :=
  (mirror key s event).all (takesLockOpen (s.desk key)) && holdsOutside s event

/-- Who is inside the perfect lock works on the row over leases. -/
theorem Mirrors.busy (mirrors : Mirrors key s ideal) {id : Nat} {worker : Worker}
    (found : ideal.workers.lookup id = some worker) (inside : worker.phase.stage.inside) : busy s := by
  have seat := mirrors.seats id
  rw [found] at seat
  generalize stored : s.workers.lookup id = delivery at seat
  generalize called : s.locks.calls.lookup id = call at seat
  simp only [LeasedSettlement.busy, Bool.or_eq_true, List.any_eq_true, decide_eq_true_eq]
  cases seat with
  | granted => exact .inr ⟨_, AList.mem_lookup_iff.mp called, rfl⟩
  | inside inner => exact .inl ⟨_, AList.mem_lookup_iff.mp stored, inside⟩
  | _ => cases inside

/-- Only a step of a risk call is mirrored by one. -/
theorem mirror_risk {event : Event} {id : Nat} {succeeds : Bool}
    (mirrored : mirror key s event = some (.risk id succeeds)) : event = .risk id succeeds := by
  cases event with
  | risk other arrives =>
    cases mirrored
    rfl
  | answer other arrives =>
    cases arrives <;> simp only [mirror] at mirrored
    · split at mirrored <;> cases mirrored
    · cases mirrored
  | work other outcome =>
    simp only [mirror] at mirrored
    split at mirrored <;> cases mirrored
  | tick ms =>
    simp only [mirror] at mirrored
    split at mirrored <;> cases mirrored
  | execute other =>
    simp only [mirror] at mirrored
    split at mirrored <;> cases mirrored
  | _ => cases mirrored

theorem Mirrors.holdsOutside (mirrors : Mirrors key s ideal) {event : Event} {image : Settlement.Event}
    (outside : holdsOutside s event) (mirrored : mirror key s event = some image) :
    Settlement.holdsOutside ideal image := by
  cases image with
  | risk id succeeds =>
    obtain rfl : event = .risk id succeeds := mirror_risk mirrored
    have risks : ideal.risks = s.risks := by
      rw [mirrors.same]
      rfl
    cases succeeds with
    | false => rfl
    | true =>
      simp only [Settlement.holdsOutside, risks]
      split
      · rename_i found
        simp only [LeasedSettlement.holdsOutside, found, Bool.not_eq_true'] at outside
        simp only [List.all_eq_true, Bool.not_eq_true']
        intro entry member
        by_contra inner
        have working := mirrors.busy (AList.mem_lookup_iff.mpr member) (by simpa using inner)
        rw [outside] at working
        cases working
      · rfl
  | work id outcome => cases outcome <;> rfl
  | _ => rfl

/-- What a step must respect: the chain is called only for a transfer scored below the review threshold
and never held, and a held row is left in review. -/
def RespectsHold (key : String) (s : State) (event : Event) : Prop :=
  (∀ id outcome riskScore flagged, event = .work id outcome → (s.desk key).phase id = .submit riskScore flagged →
    riskScore < fraudReviewThreshold ∧ s.holds = 0) ∧
  (s.row.status = .pendingReview → (step key s event).row.status = .pendingReview)

/-- Heedful steps under a punctual clock are mirrored by a settlement whose workers inside the lock work
on open rows that were never held. -/
theorem heedful_keeps (s : State) (event : Event) (held : ∃ ideal, Mirrors key s ideal ∧ Unheld ideal)
    (meets : punctual s event ∧ heedful key s event) :
    ∃ ideal, Mirrors key (step key s event) ideal ∧ Unheld ideal := by
  have follows : Follows (step key) _ (mirror key) Settlement.step (Mirrors key) :=
    mirrors_follow.mono fun s event (both : punctual s event ∧ heedful key s event) => both.1
  have preserved : ∀ t image, Unheld t → takesLockOpen t image ∧ Settlement.holdsOutside t image →
      Unheld (Settlement.step t image) :=
    fun t image unheld both => unheld.steps both.1 both.2 (Settlement.step_cases t image)
  refine follows.keeps ?_ preserved s event held meets
  intro s ideal event image mirrors both mirrored
  have heeds := both.2
  simp only [heedful, mirrored, Option.all_some, Bool.and_eq_true] at heeds
  exact ⟨mirrors.takesLockOpen heeds.1, mirrors.holdsOutside heeds.2 mirrored⟩

/-- A worker about to submit stands so at the perfect lock. -/
theorem Mirrors.submitting (mirrors : Mirrors key s ideal) {id : Nat} {riskScore : ℚ} {flagged : Bool}
    (phase : (s.desk key).phase id = .submit riskScore flagged) :
    ∃ worker, ideal.workers.lookup id = some worker ∧ worker.phase = .submit riskScore flagged := by
  have seat := mirrors.seats id
  simp only [Settlement.State.phase, State.desk] at phase
  generalize s.workers.lookup id = delivery at seat phase
  generalize s.locks.calls.lookup id = call at seat
  generalize ideal.workers.lookup id = twin at seat ⊢
  cases seat with
  | inside inner => exact ⟨_, rfl, phase⟩
  | _ => cases phase

/-- What the perfect lock keeps unheld respects holds over leases. -/
theorem Mirrors.respectsHold (mirrors : Mirrors key s ideal) (unheld : Unheld ideal) {event : Event}
    (spares : punctual s event) : RespectsHold key s event := by
  refine ⟨?_, ?_⟩
  · rintro id outcome riskScore flagged - phase
    obtain ⟨worker, found, submitting⟩ := mirrors.submitting phase
    have low := unheld.scored id worker found
    obtain ⟨-, none⟩ := unheld.inside id worker found (by rw [submitting]; rfl)
    rw [submitting] at low
    rw [mirrors.holds_eq] at none
    exact ⟨low, none⟩
  · intro held
    have after := mirrors_follow s ideal event mirrors spares
    rw [← mirrors.row_eq] at held
    rw [← after.row_eq]
    cases mirror key s event with
    | none => exact held
    | some image => exact unheld.stays_held (Settlement.step_cases ideal image) held

/-- Over leases, and in every run under a punctual clock in which the lease is taken only on open rows and
holds land only while no delivery works on the row, no hold is bypassed. -/
theorem holds_respected (key : String) (row : Transaction) (events : List Event)
    (meets : Throughout (step key) (fun s event => punctual s event ∧ heedful key s event) (State.created row)
      events) : Throughout (step key) (RespectsHold key) (State.created row) events := by
  refine throughout_of (fun s => ∃ ideal, Mirrors key s ideal ∧ Unheld ideal) heedful_keeps ?_
    ⟨_, mirrors_created row, unheld_created row⟩ meets
  rintro s event ⟨ideal, mirrors, unheld⟩ both
  exact mirrors.respectsHold unheld both.1

/-- A delivery puts its row into review, while a risk call is under way, and the next one leaves it there. -/
def reviewed : List Event :=
  [.deliver 0 pendingJob, .work 0 .done, .execute 0, .answer 0 true, .work 0 .done, .updateRiskScore 0 (9 / 10) true,
    .risk 0 true, .tick 9000, .work 0 (.scored (3 / 5) true), .work 0 .done, .risk 0 true, .execute 0, .answer 0 true,
    .deliver 1 pendingJob, .work 1 .done]

theorem reviewed_respects :
    Throughout (step "lock:escrow:t1") (fun s event => punctual s event ∧ heedful "lock:escrow:t1" s event)
      (State.created pendingRow) reviewed ∧
    Throughout (step "lock:escrow:t1") (RespectsHold "lock:escrow:t1") (State.created pendingRow) reviewed := by
  have meets : Throughout (step "lock:escrow:t1")
      (fun s event => punctual s event ∧ heedful "lock:escrow:t1" s event) (State.created pendingRow) reviewed := by
    decide +kernel
  exact ⟨meets, holds_respected _ _ _ meets⟩

/-- A hold that completes while the delivery waits for the fraud score is bypassed: the transfer is
submitted, and the row leaves review for `SUCCESS`. -/
theorem hold_bypassed :
    ¬ ∀ (key : String) (row : Transaction) (events : List Event),
      Throughout (step key) (RespectsHold key) (State.created row) events := by
  intro law
  have respects := (throughout_at (law "lock:escrow:t1" pendingRow
    ((extendedSettling.take 10 ++ [.updateRiskScore 0 (9 / 10) true, .risk 0 true, .risk 0 true] ++
      [.work 0 (.scored (1 / 10) false), .work 0 .done]) ++ [.work 0 (.submitted "h1")]))).2
  have submitting : ((run (step "lock:escrow:t1") (State.created pendingRow)
      (extendedSettling.take 10 ++ [.updateRiskScore 0 (9 / 10) true, .risk 0 true, .risk 0 true] ++
        [.work 0 (.scored (1 / 10) false), .work 0 .done])).desk "lock:escrow:t1").phase 0 =
      .submit (1 / 10) false := by decide +kernel
  have held : (run (step "lock:escrow:t1") (State.created pendingRow)
      (extendedSettling.take 10 ++ [.updateRiskScore 0 (9 / 10) true, .risk 0 true, .risk 0 true] ++
        [.work 0 (.scored (1 / 10) false), .work 0 .done])).holds ≠ 0 := by decide +kernel
  exact held (respects.1 _ _ _ _ rfl submitting).2

end AfroPay.LeasedSettlement
