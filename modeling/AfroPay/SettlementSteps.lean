import AfroPay.Settlement

/-! What a worker's step can do, told by the stage the worker is at: outside the
lock, inside it before or after a hash was returned, or about to let go of it.
The lock keeps at most one worker inside. -/
namespace AfroPay.Settlement
open KeyedStore Transfer Runs

/-- The part of its work a worker is in. -/
inductive Stage where
  | outside
  | unsubmitted
  | submitted
  | closing
  deriving DecidableEq

def Phase.stage : Phase → Stage
  | .load | .acquire _ | .gone => .outside
  | .verify _ | .score | .block _ _ | .hold _ | .clear _ _ | .submit _ _ | .abort none => .unsubmitted
  | .confirm _ _ _ | .abort (some _) => .submitted
  | .release => .closing

/-- Between taking the lock and the last write. -/
def Stage.inside : Stage → Bool
  | .unsubmitted | .submitted => true
  | .outside | .closing => false

/-- The worker may still bring its row to `SUCCESS`. -/
def Phase.mayConfirm : Phase → Bool
  | .acquire _ | .verify _ | .score | .clear _ _ | .submit _ _ | .confirm _ _ _ => true
  | _ => false

/-- The score a worker goes on with is below the review threshold. -/
def Phase.LowRisk : Phase → Prop
  | .clear riskScore _ | .submit riskScore _ | .confirm _ riskScore _ => riskScore < fraudReviewThreshold
  | _ => True

/-- Everything a worker's step can do. -/
inductive Moves (s : State) (id : Nat) : Phase → Outcome → Effect → Prop where
  | leaves (outside : phase.stage = .outside) : Moves s id phase outcome ⟨.gone, s.row, s.lock, none⟩
  | loads (open' : s.row.status.terminal = false) :
      Moves s id .load .done ⟨.acquire s.row, s.row, s.lock, none⟩
  | locks (free : s.lock = none) : Moves s id (.acquire row) .done ⟨.verify row, s.row, some id, none⟩
  | advances (before : phase.stage = .unsubmitted) (after : next.stage = .unsubmitted)
      (low : next.LowRisk) (hope : next.mayConfirm → phase.mayConfirm) :
      Moves s id phase outcome ⟨next, s.row, s.lock, none⟩
  | clears : Moves s id (.clear riskScore flagged) .done
      ⟨.submit riskScore flagged, { s.row with riskScore := some riskScore, flagged := flagged }, s.lock, none⟩
  | submits (hash : String) : Moves s id (.submit riskScore flagged) (.submitted hash)
      ⟨.confirm hash riskScore flagged, s.row, s.lock, some hash⟩
  | confirms (hash : String) : Moves s id (.confirm hash riskScore flagged) .done
      ⟨.release, { s.row with
        status := .success, stellarTxHash := some hash, riskScore := some riskScore, flagged := flagged },
        s.lock, none⟩
  | unconfirmed (hash : String) (failed : outcome ≠ .done) :
      Moves s id (.confirm hash riskScore flagged) outcome ⟨.abort (some hash), s.row, s.lock, none⟩
  | rejects (status : Status) (inside : phase.stage.inside)
      (rejected : status = .failed ∨ status = .pendingReview ∧ phase.stage = .unsubmitted)
      (aborting : phase.stage = .submitted → ∃ hash, phase = .abort (some hash)) :
      Moves s id phase .done
        ⟨.release, { s.row with status := status, riskScore := riskScore, flagged := flagged }, s.lock, none⟩
  | quits (inside : phase.stage.inside)
      (failed : phase.stage = .submitted → outcome ≠ .done ∧ ∃ hash, phase = .abort (some hash)) :
      Moves s id phase outcome ⟨.release, s.row, s.lock, none⟩
  | releases : Moves s id .release .done ⟨.gone, s.row, if s.lock = some id then none else s.lock, none⟩
  | strands : Moves s id .release outcome ⟨.gone, s.row, s.lock, none⟩

theorem tier_advances (s : State) (id : Nat) (outcome : Outcome) (riskScore : ℚ) (flagged : Bool) :
    Moves s id .score outcome ⟨tier riskScore flagged, s.row, s.lock, none⟩ := by
  unfold tier
  split
  · exact .advances rfl rfl trivial fun _ => rfl
  · split
    · exact .advances rfl rfl trivial fun _ => rfl
    · rename_i low
      exact .advances rfl rfl (not_le.mp low) fun _ => rfl

theorem worker_moves (s : State) (id : Nat) (worker : Worker) (outcome : Outcome) :
    Moves s id worker.phase outcome (workerStep s id worker outcome) := by
  obtain ⟨job, phase⟩ := worker
  cases phase with
  | load =>
    cases outcome with
    | done =>
      simp only [workerStep]
      split
      · exact .leaves rfl
      · rename_i open'
        exact .loads (by simpa using open')
    | _ => exact .leaves rfl
  | acquire row =>
    cases outcome with
    | done =>
      simp only [workerStep]
      split
      · rename_i free
        exact .locks free
      · exact .leaves rfl
    | _ => exact .leaves rfl
  | verify row =>
    simp only [workerStep]
    split
    · exact .advances rfl rfl trivial fun _ => rfl
    · exact .quits rfl (by simp [Phase.stage])
  | score =>
    cases outcome with
    | scored riskScore flagged => exact tier_advances s id _ riskScore flagged
    | _ => exact .advances rfl rfl trivial fun _ => rfl
  | block riskScore flagged =>
    cases outcome with
    | done => exact .rejects _ rfl (.inl rfl) (by simp [Phase.stage])
    | _ => exact .quits rfl (by simp [Phase.stage])
  | hold riskScore =>
    cases outcome with
    | done => exact .rejects _ rfl (.inr ⟨rfl, rfl⟩) (by simp [Phase.stage])
    | _ => exact .quits rfl (by simp [Phase.stage])
  | clear riskScore flagged =>
    cases outcome with
    | done => exact .clears
    | _ => exact .quits rfl (by simp [Phase.stage])
  | submit riskScore flagged =>
    cases outcome with
    | submitted hash => exact .submits hash
    | _ => exact .advances rfl rfl trivial (by simp [Phase.mayConfirm])
  | confirm hash riskScore flagged =>
    cases outcome with
    | done => exact .confirms hash
    | _ => exact .unconfirmed hash (by simp)
  | abort hash =>
    have inside : (Phase.abort hash).stage.inside := by cases hash <;> rfl
    have aborting : (Phase.abort hash).stage = .submitted → ∃ kept, Phase.abort hash = .abort (some kept) := by
      cases hash <;> simp [Phase.stage]
    cases outcome with
    | done => exact .rejects _ inside (.inl rfl) aborting
    | _ => exact .quits inside fun submitted => ⟨by simp, aborting submitted⟩
  | release =>
    cases outcome with
    | done => exact .releases
    | _ => exact .strands
  | gone => exact .leaves rfl

/-- Everything an event can do to the state. -/
inductive Steps (s : State) : Event → State → Prop where
  | idle : Steps s event s
  | delivered (id : Nat) (fresh : s.workers.lookup id = none) :
      Steps s (.deliver id job) { s with workers := s.workers.insert id ⟨job, .load⟩ }
  | worked (id : Nat) (worker : Worker) (found : s.workers.lookup id = some worker)
      (moves : Moves s id worker.phase outcome effect) : Steps s (.work id outcome) (s.apply id worker effect)
  | crashed (id : Nat) (worker : Worker) (found : s.workers.lookup id = some worker) :
      Steps s (.crash id) { s with workers := s.workers.insert id { worker with phase := .gone } }
  | expired (holder : Nat) (held : s.lock = some holder) (dead : s.phase holder = .gone) :
      Steps s event { s with lock := none }
  | noted : Steps s event { s with risks := risks }
  | rescored (id : Nat) (call : RiskCall) (holds : Bool) (found : s.risks.lookup id = some call)
      (writing : call.phase = .write holds) : Steps s (.risk id true) { s with
        row := call.written holds s.row, risks := risks, holds := if holds then s.holds + 1 else s.holds }

theorem step_cases (s : State) (event : Event) : Steps s event (step s event) := by
  cases event with
  | deliver id job =>
    simp only [step]
    split
    · rename_i fresh
      exact .delivered id fresh
    · exact .idle
  | work id outcome =>
    simp only [step]
    split
    · rename_i worker found
      exact .worked id worker found (worker_moves s id worker outcome)
    · exact .idle
  | crash id =>
    simp only [step]
    split
    · rename_i worker found
      exact .crashed id worker found
    · exact .idle
  | expireLock =>
    simp only [step]
    split
    · rename_i holder held
      split
      · rename_i dead
        exact .expired holder held dead
      · exact .idle
    · exact .idle
  | updateRiskScore id riskScore flagged =>
    simp only [step]
    split
    · exact .noted
    · exact .idle
  | risk id succeeds =>
    simp only [step]
    split
    · rename_i call found
      cases phase : call.phase with
      | read => cases succeeds <;> simp only [riskStep, phase] <;> exact .noted
      | write holds =>
        cases succeeds with
        | false =>
          simp only [riskStep, phase]
          exact .noted
        | true =>
          simp only [riskStep, phase]
          exact .rescored id call holds found phase
      | gone =>
        simp only [riskStep, phase]
        exact .noted
    · exact .idle

/-- The same transfer: only the settlement fields may differ. -/
def SameTransfer (row later : Transaction) : Prop :=
  later = { row with
    status := later.status, stellarTxHash := later.stellarTxHash
    riskScore := later.riskScore, flagged := later.flagged }

theorem SameTransfer.trans {first second third : Transaction} (early : SameTransfer first second)
    (late : SameTransfer second third) : SameTransfer first third := by
  unfold SameTransfer at early late ⊢
  rw [late, early]

/-- The fields that settlement never touches. -/
theorem SameTransfer.fields {row later : Transaction} (same : SameTransfer row later) :
    later.userId = row.userId ∧ later.idempotencyKey = row.idempotencyKey ∧
      later.destination = row.destination ∧ later.amount = row.amount ∧ later.assetCode = row.assetCode ∧
      later.assetIssuer = row.assetIssuer ∧ later.memo = row.memo ∧ later.createdAt = row.createdAt := by
  rw [same]
  exact ⟨rfl, rfl, rfl, rfl, rfl, rfl, rfl, rfl⟩

private theorem moves_same_transfer {s : State} {id : Nat} {phase : Phase} {outcome : Outcome}
    {effect : Effect} (moves : Moves s id phase outcome effect) : SameTransfer s.row effect.row := by
  cases moves <;> rfl

/-- Settling a row changes nothing of the transfer itself. -/
theorem Steps.same_transfer {s after : State} (steps : Steps s event after) : SameTransfer s.row after.row := by
  cases steps with
  | worked id worker found moves => exact moves_same_transfer moves
  | _ => rfl

/-- Only the holder of the lock is past it. -/
def Exclusive (s : State) : Prop :=
  ∀ id worker, s.workers.lookup id = some worker → worker.phase.stage ≠ .outside → s.lock = some id

theorem exclusive_created (row : Transaction) : Exclusive (State.created row) := by
  intro id worker found
  simp [State.created] at found

/-- A worker that holds the lock is the only one inside. -/
theorem Exclusive.alone {s : State} {id other : Nat} {worker rival : Worker} (exclusive : Exclusive s)
    (found : s.workers.lookup id = some worker) (inner : worker.phase.stage ≠ .outside)
    (lookup : s.workers.lookup other = some rival) (also : rival.phase.stage ≠ .outside) : other = id := by
  have held := exclusive id worker found inner
  have held' := exclusive other rival lookup also
  rw [held] at held'
  exact (Option.some.inj held').symm

private theorem moves_lock {s : State} {id : Nat} {phase : Phase} {outcome : Outcome} {effect : Effect}
    (moves : Moves s id phase outcome effect) (own : phase.stage ≠ .outside → s.lock = some id) :
    (effect.next.stage ≠ .outside → effect.lock = some id) ∧
      (effect.lock = s.lock ∨ s.lock = none ∨ s.lock = some id) := by
  cases moves with
  | leaves outside => exact ⟨fun inner => absurd rfl inner, .inl rfl⟩
  | loads open' => exact ⟨fun inner => absurd rfl inner, .inl rfl⟩
  | locks free => exact ⟨fun _ => rfl, .inr (.inl free)⟩
  | advances before => exact ⟨fun _ => own (by simp [before]), .inl rfl⟩
  | rejects status inside =>
    refine ⟨fun _ => own ?_, .inl rfl⟩
    rintro outside
    rw [outside] at inside
    cases inside
  | quits inside =>
    refine ⟨fun _ => own ?_, .inl rfl⟩
    rintro outside
    rw [outside] at inside
    cases inside
  | releases => exact ⟨fun inner => absurd rfl inner, .inr (.inr (own (by simp [Phase.stage])))⟩
  | strands => exact ⟨fun inner => absurd rfl inner, .inl rfl⟩
  | clears => exact ⟨fun _ => own (by simp [Phase.stage]), .inl rfl⟩
  | submits => exact ⟨fun _ => own (by simp [Phase.stage]), .inl rfl⟩
  | confirms => exact ⟨fun _ => own (by simp [Phase.stage]), .inl rfl⟩
  | unconfirmed => exact ⟨fun _ => own (by simp [Phase.stage]), .inl rfl⟩

private theorem Exclusive.outsider {s : State} {id : Nat} {worker : Worker} (exclusive : Exclusive s)
    (outer : worker.phase.stage = .outside) : Exclusive { s with workers := s.workers.insert id worker } := by
  intro other rival lookup inner
  obtain ⟨-, rfl⟩ | ⟨-, old⟩ := lookup_insert_some.mp lookup
  · exact absurd outer inner
  · exact exclusive other rival old inner

/-- Every event keeps the lock exclusive. -/
theorem Exclusive.steps {s after : State} (exclusive : Exclusive s) (steps : Steps s event after) :
    Exclusive after := by
  cases steps with
  | idle => exact exclusive
  | delivered started fresh => exact exclusive.outsider rfl
  | worked moved worker found moves =>
    obtain ⟨mine, others⟩ := moves_lock moves (exclusive _ worker found)
    intro id rival lookup inner
    obtain ⟨rfl, rfl⟩ | ⟨distinct, old⟩ := lookup_insert_some.mp lookup
    · exact mine inner
    · have held := exclusive id rival old inner
      rcases others with same | free | taken
      · exact same.trans held
      · rw [free] at held
        cases held
      · rw [taken] at held
        exact absurd (Option.some.inj held).symm distinct
  | crashed lost worker found => exact exclusive.outsider rfl
  | expired holder held dead =>
    intro id worker lookup inner
    have same := Option.some.inj (held.symm.trans (exclusive id worker lookup inner))
    subst same
    simp only [State.phase, lookup, Option.elim_some] at dead
    rw [dead] at inner
    exact absurd rfl inner
  | noted => exact exclusive
  | rescored => exact exclusive

end AfroPay.Settlement
