import AfroPay.SettlementSteps

/-! What settlement keeps, and under which conditions. The status a worker checks
is read before it takes the lock, a hash can be lost before it is written, and a
risk call writes what it decided on an older row; each law below holds in every
run in which the steps that can go wrong this way do not. -/
namespace AfroPay.Settlement
open KeyedStore Transfer Runs

/-- A worker takes the lock only while its row is not settled already. -/
def takesLockOpen (s : State) : Event → Bool
  | .work id .done =>
    match s.phase id with
    | .acquire _ => s.lock.isSome || !s.row.status.terminal
    | _ => true
  | _ => true

/-- A worker that was given a hash does not crash, and does not lose its last
write of the row. -/
def keepsHash (s : State) : Event → Bool
  | .crash id => (s.phase id).stage ≠ .submitted
  | .work id outcome =>
    match s.phase id with
    | .abort (some _) => outcome = .done
    | _ => true
  | _ => true

theorem phase_of {s : State} {id : Nat} {worker : Worker} (found : s.workers.lookup id = some worker) :
    s.phase id = worker.phase := by
  simp [State.phase, found]

/-- Taking the lock on an open row. -/
theorem takesLockOpen_locks {s : State} {id : Nat} {row : Transaction} {worker : Worker}
    (opens : takesLockOpen s (.work id .done)) (found : s.workers.lookup id = some worker)
    (phase : worker.phase = .acquire row) (free : s.lock = none) : s.row.status.terminal = false := by
  have at' : s.phase id = .acquire row := (phase_of found).trans phase
  simpa [takesLockOpen, at', free] using opens

/-- At most one hash has been returned, and once one has been, the row shows it or
its worker still has to write it. -/
structure Once (s : State) : Prop where
  exclusive : Exclusive s
  single : s.hashes.length ≤ 1
  unsubmitted : ∀ id worker, s.workers.lookup id = some worker → worker.phase.stage = .unsubmitted →
    s.hashes = []
  recorded : s.hashes ≠ [] → s.row.status.terminal ∨
    ∃ id worker, s.workers.lookup id = some worker ∧ worker.phase.stage = .submitted

theorem once_created (row : Transaction) : Once (State.created row) :=
  ⟨exclusive_created row, by simp [State.created], by simp [State.created], by simp [State.created]⟩

/-- While nobody holds the lock and the row is open, no hash has been returned. -/
theorem Once.none_yet {s : State} (once : Once s) (free : s.lock = none)
    (open' : s.row.status.terminal = false) : s.hashes = [] := by
  by_contra returned
  rcases once.recorded returned with closed | ⟨id, worker, found, stage⟩
  · rw [open'] at closed
    cases closed
  · have held := once.exclusive id worker found (by simp [stage])
    rw [free] at held
    cases held

private theorem moves_hash {s : State} {id : Nat} {phase : Phase} {outcome : Outcome} {effect : Effect}
    (moves : Moves s id phase outcome effect) :
    effect.hash = none ∨ phase.stage = .unsubmitted ∧ effect.next.stage = .submitted := by
  cases moves with
  | submits hash => exact .inr ⟨rfl, rfl⟩
  | _ => exact .inl rfl

private theorem moves_unsubmitted {s : State} {id : Nat} {phase : Phase} {outcome : Outcome}
    {effect : Effect} (moves : Moves s id phase outcome effect)
    (stage : effect.next.stage = .unsubmitted) :
    phase.stage = .unsubmitted ∨ outcome = .done ∧ s.lock = none ∧ ∃ row, phase = .acquire row := by
  cases moves with
  | locks free => exact .inr ⟨rfl, free, _, rfl⟩
  | advances before => exact .inl before
  | clears => exact .inl rfl
  | _ => cases stage

private theorem moves_submitted {s : State} {id : Nat} {phase : Phase} {outcome : Outcome}
    {effect : Effect} (moves : Moves s id phase outcome effect) (stage : phase.stage = .submitted)
    (kept : ∀ hash, phase = .abort (some hash) → outcome = .done) :
    effect.next.stage = .submitted ∨ effect.row.status.terminal := by
  cases moves with
  | leaves outside => cases stage.symm.trans outside
  | advances before => cases stage.symm.trans before
  | confirms hash => exact .inr rfl
  | unconfirmed hash => exact .inl rfl
  | rejects status inside rejected =>
    rcases rejected with rfl | ⟨rfl, -⟩
    · exact .inr rfl
    · exact .inr rfl
  | quits inside failed =>
    obtain ⟨lost, hash, aborting⟩ := failed stage
    exact absurd (kept hash aborting) lost
  | _ => cases stage

private theorem moves_terminal {s : State} {id : Nat} {phase : Phase} {outcome : Outcome}
    {effect : Effect} (moves : Moves s id phase outcome effect) (closed : s.row.status.terminal) :
    effect.row.status.terminal := by
  cases moves with
  | confirms hash => rfl
  | rejects status inside rejected => rcases rejected with rfl | ⟨rfl, -⟩ <;> rfl
  | _ => exact closed

/-- A worker that starts or crashes takes no part in the law. -/
private theorem Once.outsider {s : State} {id : Nat} {worker : Worker} (once : Once s)
    (exclusive : Exclusive { s with workers := s.workers.insert id worker })
    (outer : worker.phase.stage = .outside)
    (replaced : ∀ old, s.workers.lookup id = some old → old.phase.stage ≠ .submitted) :
    Once { s with workers := s.workers.insert id worker } := by
  refine ⟨exclusive, once.single, ?_, ?_⟩
  · intro other rival lookup stage
    obtain ⟨-, rfl⟩ | ⟨-, old⟩ := lookup_insert_some.mp lookup
    · cases outer.symm.trans stage
    · exact once.unsubmitted other rival old stage
  · intro returned
    rcases once.recorded returned with closed | ⟨other, rival, lookup, stage⟩
    · exact .inl closed
    · have distinct : other ≠ id := by
        rintro rfl
        exact replaced rival lookup stage
      exact .inr ⟨other, rival, (AList.lookup_insert_ne distinct).trans lookup, stage⟩

/-- A worker that has yet to submit works on a transfer without a hash. -/
private theorem Once.unsubmitted_worked {s : State} {moved : Nat} {worker : Worker} {effect : Effect}
    (once : Once s) (opens : takesLockOpen s (.work moved outcome))
    (found : s.workers.lookup moved = some worker) (moves : Moves s moved worker.phase outcome effect)
    (id : Nat) (rival : Worker) (lookup : (s.apply moved worker effect).workers.lookup id = some rival)
    (stage : rival.phase.stage = .unsubmitted) : (s.apply moved worker effect).hashes = [] := by
  obtain ⟨rfl, rfl⟩ | ⟨distinct, old⟩ := lookup_insert_some.mp lookup
  · have none : effect.hash = none := by
      rcases moves_hash moves with none | ⟨-, submitted⟩
      · exact none
      · cases stage.symm.trans submitted
    have empty : s.hashes = [] := by
      rcases moves_unsubmitted moves stage with before | ⟨rfl, free, row, phase⟩
      · exact once.unsubmitted _ worker found before
      · exact once.none_yet free (takesLockOpen_locks opens found phase free)
    simp [State.apply, none, empty]
  · have none : effect.hash = none := by
      rcases moves_hash moves with none | ⟨submitting, -⟩
      · exact none
      · exact absurd (once.exclusive.alone found (by simp [submitting]) old (by simp [stage])) distinct
    simpa [State.apply, none] using once.unsubmitted id rival old stage

/-- A returned hash is on its way to the row until the row is settled. -/
private theorem Once.recorded_worked {s : State} {moved : Nat} {worker : Worker} {effect : Effect}
    (once : Once s) (keeps : keepsHash s (.work moved outcome))
    (found : s.workers.lookup moved = some worker) (moves : Moves s moved worker.phase outcome effect)
    (returned : (s.apply moved worker effect).hashes ≠ []) : (s.apply moved worker effect).row.status.terminal ∨
      ∃ id rival, (s.apply moved worker effect).workers.lookup id = some rival ∧
        rival.phase.stage = .submitted := by
  rcases moves_hash moves with none | ⟨-, submitted⟩
  · rcases once.recorded (by simpa [State.apply, none] using returned) with
      closed | ⟨id, rival, lookup, stage⟩
    · exact .inl (moves_terminal moves closed)
    · by_cases same : id = moved
      · subst same
        cases found.symm.trans lookup
        have kept : ∀ hash, worker.phase = .abort (some hash) → outcome = .done := by
          intro hash phase
          simpa [keepsHash, phase_of found, phase] using keeps
        rcases moves_submitted moves stage kept with next | closed
        · exact .inr ⟨id, _, AList.lookup_insert _, next⟩
        · exact .inl closed
      · exact .inr ⟨id, rival, (AList.lookup_insert_ne same).trans lookup, stage⟩
  · exact .inr ⟨moved, _, AList.lookup_insert _, submitted⟩

/-- A step that keeps its hash and takes the lock only on an open row keeps the law. -/
theorem Once.steps {s after : State} (once : Once s) (opens : takesLockOpen s event)
    (keeps : keepsHash s event) (steps : Steps s event after) : Once after := by
  have exclusive := once.exclusive.steps steps
  cases steps with
  | idle => exact once
  | delivered started fresh => exact once.outsider exclusive rfl (by simp [fresh])
  | worked moved worker found moves =>
    refine ⟨exclusive, ?_, once.unsubmitted_worked opens found moves, once.recorded_worked keeps found moves⟩
    rename_i effect
    rcases moves_hash moves with none | ⟨stage, -⟩
    · simpa [State.apply, none] using once.single
    · simp only [State.apply, once.unsubmitted moved worker found stage, List.append_nil]
      cases effect.hash <;> simp
  | crashed lost worker found =>
    refine once.outsider exclusive rfl ?_
    intro old lookup stage
    simp [keepsHash, phase_of lookup, stage] at keeps
  | expired holder held dead => exact ⟨exclusive, once.single, once.unsubmitted, once.recorded⟩
  | noted => exact ⟨exclusive, once.single, once.unsubmitted, once.recorded⟩
  | rescored id call holds found writing =>
    refine ⟨exclusive, once.single, once.unsubmitted, ?_⟩
    intro returned
    rcases once.recorded returned with closed | pending
    · refine .inl ?_
      simp only [RiskCall.written]
      split
      · rfl
      · exact closed
    · exact .inr pending

/-- Over any interleaving of any number of deliveries in which the lock is taken
only on open rows and no hash is lost, the chain returns at most one hash. -/
theorem submitted_at_most_once (row : Transaction) (events : List Event)
    (meets : Throughout step (fun s event => takesLockOpen s event ∧ keepsHash s event)
      (State.created row) events) : (run step (State.created row) events).hashes.length ≤ 1 := by
  have once := run_invariant_of Once
    (fun s event once meets => once.steps meets.1 meets.2 (step_cases s event)) (once_created row) meets
  exact once.single

/-- An unsettled row of ten dollars, and its job. -/
def pendingRow : Transaction :=
  ⟨⟨"u1", u1_colonFree⟩, "w1", "GDEST", "10", "USDC", none, none, some "k1", .pending, none, none, false, 0⟩

def pendingJob : JobData := ⟨1, ⟨"u1", u1_colonFree⟩, ⟨"GDEST", "10", "USDC", none, none⟩⟩

/-- The steps of one worker from the lock to its release, with a low score. -/
def settling (id : Nat) (hash : String) : List Event :=
  [.work id .done, .work id .done, .work id (.scored (1 / 10) false), .work id .done,
    .work id (.submitted hash), .work id .done, .work id .done]

/-- A second delivery that loads the row after the first has settled it is skipped. -/
theorem redelivery_submits_once :
    Throughout step (fun s event => takesLockOpen s event ∧ keepsHash s event) (State.created pendingRow)
      (.deliver 0 pendingJob :: .work 0 .done :: settling 0 "h1" ++
        .deliver 1 pendingJob :: .work 1 .done :: settling 1 "h2") ∧
    (run step (State.created pendingRow) (.deliver 0 pendingJob :: .work 0 .done :: settling 0 "h1" ++
        .deliver 1 pendingJob :: .work 1 .done :: settling 1 "h2")).hashes.length ≤ 1 := by
  have meets : Throughout step (fun s event => takesLockOpen s event ∧ keepsHash s event)
      (State.created pendingRow) (.deliver 0 pendingJob :: .work 0 .done :: settling 0 "h1" ++
        .deliver 1 pendingJob :: .work 1 .done :: settling 1 "h2") := by decide +kernel
  exact ⟨meets, submitted_at_most_once _ _ meets⟩

/-- Two deliveries that both read the row before either locks it submit twice. -/
theorem concurrent_deliveries_submit_twice :
    ¬ ∀ (row : Transaction) (events : List Event),
      (run step (State.created row) events).hashes.length ≤ 1 := by
  intro once
  have twice : ¬ (run step (State.created pendingRow)
      ([.deliver 0 pendingJob, .deliver 1 pendingJob, .work 0 .done, .work 1 .done] ++
        settling 0 "h1" ++ settling 1 "h2")).hashes.length ≤ 1 := by decide +kernel
  exact twice (once _ _)

/-- A worker that was given a hash does not crash, and its write of the row succeeds. -/
def recordsHash (s : State) : Event → Bool
  | .crash id => (s.phase id).stage ≠ .submitted
  | .work id outcome => (s.phase id).stage ≠ .submitted || outcome = .done
  | _ => true

/-- A risk call's hold does not land on a row that has reached `SUCCESS`. -/
def sparesSuccess (s : State) : Event → Bool
  | .risk id true =>
    match s.risks.lookup id with
    | some ⟨_, _, .write true⟩ => s.row.status ≠ .success
    | _ => true
  | _ => true

theorem recordsHash_keepsHash {s : State} {event : Event} (records : recordsHash s event) :
    keepsHash s event := by
  cases event with
  | crash id => exact records
  | work id outcome =>
    simp only [keepsHash]
    split
    · rename_i aborting
      simpa [recordsHash, aborting, Phase.stage] using records
    · rfl
  | _ => rfl

/-- Nobody writes over a settled row: a worker inside the lock works on a row that
is open or held, and none of them is left to abort with a hash. -/
structure Truthful (s : State) : Prop where
  once : Once s
  unsettled : ∀ id worker, s.workers.lookup id = some worker → worker.phase.stage.inside →
    s.row.status ≠ .success ∧ s.row.status ≠ .failed
  confirming : ∀ id worker, s.workers.lookup id = some worker → ∀ hash, worker.phase ≠ .abort (some hash)
  truthful : s.hashes ≠ [] → s.row.status ≠ .failed

theorem truthful_created (row : Transaction) : Truthful (State.created row) :=
  ⟨once_created row, by simp [State.created], by simp [State.created], by simp [State.created]⟩

private theorem moves_outside {s : State} {id : Nat} {phase : Phase} {outcome : Outcome}
    {effect : Effect} (moves : Moves s id phase outcome effect) (outer : phase.stage.inside = false) :
    effect.row = s.row ∧ effect.hash = none := by
  cases moves with
  | advances before =>
    rw [before] at outer
    cases outer
  | rejects status inside =>
    rw [outer] at inside
    cases inside
  | clears => cases outer
  | submits hash => cases outer
  | confirms hash => cases outer
  | _ => exact ⟨rfl, rfl⟩

private theorem moves_inside {s : State} {id : Nat} {phase : Phase} {outcome : Outcome}
    {effect : Effect} (moves : Moves s id phase outcome effect) (inner : effect.next.stage.inside) :
    phase.stage.inside ∧ effect.row.status = s.row.status ∨
      effect.row = s.row ∧ outcome = .done ∧ s.lock = none ∧ ∃ row, phase = .acquire row := by
  cases moves with
  | locks free => exact .inr ⟨rfl, rfl, free, _, rfl⟩
  | advances before => exact .inl ⟨by rw [before]; rfl, rfl⟩
  | clears => exact .inl ⟨rfl, rfl⟩
  | submits hash => exact .inl ⟨rfl, rfl⟩
  | unconfirmed hash => exact .inl ⟨rfl, rfl⟩
  | _ => cases inner

private theorem moves_failed {s : State} {id : Nat} {phase : Phase} {outcome : Outcome}
    {effect : Effect} (moves : Moves s id phase outcome effect) (failed : effect.row.status = .failed) :
    s.row.status = .failed ∨
      effect.hash = none ∧ (phase.stage = .unsubmitted ∨ ∃ hash, phase = .abort (some hash)) := by
  cases moves with
  | rejects status inside rejected aborting =>
    refine .inr ⟨rfl, ?_⟩
    cases stage : phase.stage with
    | unsubmitted => exact .inl rfl
    | submitted => exact .inr (aborting stage)
    | _ =>
      rw [stage] at inside
      cases inside
  | confirms hash => cases failed
  | _ => exact .inl failed

private theorem moves_aborting {s : State} {id : Nat} {phase : Phase} {outcome : Outcome}
    {effect : Effect} {hash : String} (moves : Moves s id phase outcome effect)
    (next : effect.next = .abort (some hash)) : phase.stage = .submitted ∧ outcome ≠ .done := by
  cases moves with
  | unconfirmed kept failed => exact ⟨rfl, failed⟩
  | advances before after =>
    simp only at next
    rw [next] at after
    cases after
  | _ => cases next

private theorem inside_inner {phase : Phase} (inside : phase.stage.inside) : phase.stage ≠ .outside := by
  rintro outside
  rw [outside] at inside
  cases inside

/-- While one worker is inside, no other worker's step writes the row. -/
theorem Exclusive.row_kept {s : State} {moved id : Nat} {worker rival : Worker} {effect : Effect}
    (exclusive : Exclusive s) (found : s.workers.lookup moved = some worker)
    (moves : Moves s moved worker.phase outcome effect) (lookup : s.workers.lookup id = some rival)
    (distinct : id ≠ moved) (inside : rival.phase.stage.inside) : effect.row = s.row := by
  refine (moves_outside moves ?_).1
  by_contra inner
  have both := exclusive.alone found (inside_inner (by simpa using inner)) lookup (inside_inner inside)
  exact distinct both

private theorem Truthful.outsider {s : State} {id : Nat} {worker : Worker} (truth : Truthful s)
    (once : Once { s with workers := s.workers.insert id worker }) (outer : worker.phase.stage = .outside) :
    Truthful { s with workers := s.workers.insert id worker } := by
  refine ⟨once, ?_, ?_, truth.truthful⟩
  · intro other rival lookup inside
    obtain ⟨-, rfl⟩ | ⟨-, old⟩ := lookup_insert_some.mp lookup
    · exact absurd outer (inside_inner inside)
    · exact truth.unsettled other rival old inside
  · intro other rival lookup hash aborting
    obtain ⟨-, rfl⟩ | ⟨-, old⟩ := lookup_insert_some.mp lookup
    · simp [aborting, Phase.stage] at outer
    · exact truth.confirming other rival old hash aborting

theorem Truthful.steps {s after : State} (truth : Truthful s) (opens : takesLockOpen s event)
    (records : recordsHash s event) (steps : Steps s event after) : Truthful after := by
  have once := truth.once.steps opens (recordsHash_keepsHash records) steps
  cases steps with
  | idle => exact truth
  | delivered started fresh => exact truth.outsider once rfl
  | worked moved worker found moves =>
    rename_i outcome effect
    refine ⟨once, ?_, ?_, ?_⟩
    · intro id rival lookup inside
      obtain ⟨rfl, rfl⟩ | ⟨distinct, old⟩ := lookup_insert_some.mp lookup
      · rcases moves_inside moves inside with ⟨before, same⟩ | ⟨same, rfl, free, row, phase⟩
        · exact same ▸ truth.unsettled _ worker found before
        · have open' := takesLockOpen_locks opens found phase free
          simp only [State.apply, same]
          constructor <;> intro status <;> simp [status, Status.terminal] at open'
      · rw [show (s.apply moved worker effect).row = s.row from
          truth.once.exclusive.row_kept found moves old distinct inside]
        exact truth.unsettled id rival old inside
    · intro id rival lookup hash aborting
      obtain ⟨rfl, rfl⟩ | ⟨-, old⟩ := lookup_insert_some.mp lookup
      · obtain ⟨stage, failed⟩ := moves_aborting moves aborting
        simp [recordsHash, phase_of found, stage, failed] at records
      · exact truth.confirming id rival old hash aborting
    · intro returned failed
      rcases moves_failed moves failed with already | ⟨none, stage | ⟨hash, aborting⟩⟩
      · rcases moves_hash moves with none | ⟨stage, -⟩
        · exact truth.truthful (by simpa [State.apply, none] using returned) already
        · exact (truth.unsettled moved worker found (by rw [stage]; rfl)).2 already
      · exact returned (by simp [State.apply, none, truth.once.unsubmitted moved worker found stage])
      · exact truth.confirming moved worker found hash aborting
  | crashed lost worker found => exact truth.outsider once rfl
  | expired holder held dead => exact ⟨once, truth.unsettled, truth.confirming, truth.truthful⟩
  | noted => exact ⟨once, truth.unsettled, truth.confirming, truth.truthful⟩
  | rescored id call holds found writing =>
    refine ⟨once, ?_, truth.confirming, ?_⟩
    · intro id worker lookup inside
      simp only [RiskCall.written]
      split
      · simp
      · exact truth.unsettled id worker lookup inside
    · intro returned
      simp only [RiskCall.written]
      split
      · simp
      · exact truth.truthful returned

/-- A step that spares settled rows keeps `SUCCESS`. -/
theorem Truthful.success_kept {s after : State} (truth : Truthful s) (spares : sparesSuccess s event)
    (steps : Steps s event after) (success : s.row.status = .success) : after.row.status = .success := by
  cases steps with
  | worked moved worker found moves =>
    have outer : worker.phase.stage.inside = false := by
      by_contra inner
      exact (truth.unsettled moved worker found (by simpa using inner)).1 success
    simp only [State.apply, (moves_outside moves outer).1]
    exact success
  | rescored id call holds found writing =>
    obtain ⟨riskScore, flagged, phase⟩ := call
    cases holds with
    | true =>
      cases writing
      simp [sparesSuccess, found, success] at spares
    | false => exact success
  | _ => exact success

/-- A risk call's hold lands only while no worker is inside the lock. -/
def holdsOutside (s : State) : Event → Bool
  | .risk id true =>
    match s.risks.lookup id with
    | some ⟨_, _, .write true⟩ => s.workers.entries.all fun entry => !entry.2.phase.stage.inside
    | _ => true
  | _ => true

/-- The score a worker goes on with stays below the review threshold. -/
def Scored (s : State) : Prop := ∀ id worker, s.workers.lookup id = some worker → worker.phase.LowRisk

/-- Workers inside the lock work on open rows that were never held. -/
structure Unheld (s : State) : Prop where
  exclusive : Exclusive s
  scored : Scored s
  inside : ∀ id worker, s.workers.lookup id = some worker → worker.phase.stage.inside →
    s.row.status.terminal = false ∧ s.holds = 0
  held : s.holds ≠ 0 → s.row.status.terminal

theorem unheld_created (row : Transaction) : Unheld (State.created row) :=
  ⟨exclusive_created row, by simp [Scored, State.created], by simp [State.created], by simp [State.created]⟩

private theorem moves_lowRisk {s : State} {id : Nat} {phase : Phase} {outcome : Outcome}
    {effect : Effect} (moves : Moves s id phase outcome effect) (low : phase.LowRisk) :
    effect.next.LowRisk := by
  cases moves with
  | advances _ _ next => exact next
  | clears => exact low
  | submits hash => exact low
  | _ => trivial

private theorem Scored.replaced {s : State} {id : Nat} {worker : Worker} (scored : Scored s)
    (low : worker.phase.LowRisk) : Scored { s with workers := s.workers.insert id worker } := by
  intro other rival lookup
  obtain ⟨-, rfl⟩ | ⟨-, old⟩ := lookup_insert_some.mp lookup
  · exact low
  · exact scored other rival old

theorem Scored.steps {s after : State} (scored : Scored s) (steps : Steps s event after) :
    Scored after := by
  cases steps with
  | delivered started fresh => exact scored.replaced trivial
  | worked moved worker found moves => exact scored.replaced (moves_lowRisk moves (scored moved worker found))
  | crashed lost worker found => exact scored.replaced trivial
  | _ => exact scored

private theorem Unheld.outsider {s : State} {id : Nat} {worker : Worker} (unheld : Unheld s)
    (exclusive : Exclusive { s with workers := s.workers.insert id worker })
    (scored : Scored { s with workers := s.workers.insert id worker }) (outer : worker.phase.stage = .outside) :
    Unheld { s with workers := s.workers.insert id worker } := by
  refine ⟨exclusive, scored, ?_, unheld.held⟩
  intro other rival lookup inside
  obtain ⟨-, rfl⟩ | ⟨-, old⟩ := lookup_insert_some.mp lookup
  · exact absurd outer (inside_inner inside)
  · exact unheld.inside other rival old inside

theorem Unheld.steps {s after : State} (unheld : Unheld s) (opens : takesLockOpen s event)
    (outside : holdsOutside s event) (steps : Steps s event after) : Unheld after := by
  have exclusive := unheld.exclusive.steps steps
  have scored := unheld.scored.steps steps
  cases steps with
  | idle => exact unheld
  | delivered started fresh => exact unheld.outsider exclusive scored rfl
  | worked moved worker found moves =>
    rename_i outcome effect
    refine ⟨exclusive, scored, ?_, ?_⟩
    · intro id rival lookup inside
      obtain ⟨rfl, rfl⟩ | ⟨distinct, old⟩ := lookup_insert_some.mp lookup
      · rcases moves_inside moves inside with ⟨before, same⟩ | ⟨same, rfl, free, row, phase⟩
        · obtain ⟨open', none⟩ := unheld.inside _ worker found before
          exact ⟨by simp only [State.apply, same, open'], none⟩
        · have open' := takesLockOpen_locks opens found phase free
          refine ⟨by simp only [State.apply, same, open'], ?_⟩
          by_contra held
          have closed := unheld.held held
          rw [open'] at closed
          cases closed
      · rw [show (s.apply moved worker effect).row = s.row from
          unheld.exclusive.row_kept found moves old distinct inside]
        exact unheld.inside id rival old inside
    · intro held
      exact moves_terminal moves (unheld.held held)
  | crashed lost worker found => exact unheld.outsider exclusive scored rfl
  | expired holder held dead => exact ⟨exclusive, scored, unheld.inside, unheld.held⟩
  | noted => exact ⟨exclusive, scored, unheld.inside, unheld.held⟩
  | rescored id call holds found writing =>
    cases holds with
    | false => exact ⟨exclusive, scored, unheld.inside, unheld.held⟩
    | true =>
      refine ⟨exclusive, scored, ?_, fun _ => rfl⟩
      intro id worker lookup inside
      obtain ⟨riskScore, flagged, phase⟩ := call
      cases writing
      simp only [holdsOutside, found, List.all_eq_true] at outside
      have outer := outside ⟨id, worker⟩ (AList.mem_lookup_iff.mp lookup)
      simp [inside] at outer

/-- No step brings a held row out of review. -/
theorem Unheld.stays_held {s after : State} (unheld : Unheld s) (steps : Steps s event after)
    (held : s.row.status = .pendingReview) : after.row.status = .pendingReview := by
  cases steps with
  | worked moved worker found moves =>
    have outer : worker.phase.stage.inside = false := by
      by_contra inner
      have open' := (unheld.inside moved worker found (by simpa using inner)).1
      rw [held] at open'
      cases open'
    simp only [State.apply, (moves_outside moves outer).1]
    exact held
  | rescored id call holds found writing =>
    simp only [RiskCall.written]
    split
    · rfl
    · exact held
  | _ => exact held

end AfroPay.Settlement
