import AfroPay.LeasedSettlement
import AfroPay.Simulations

/-! Under a punctual clock the lease is a perfect lock. Every run over leases is mirrored,
event for event, by a run of the settlement whose lock is lost only by a worker that is
gone, and what that settlement keeps is kept over leases. -/
namespace AfroPay.LeasedSettlement
open KeyedStore LeaseStore Transfer Runs Settlement Simulations

variable (key : String)

/-- How a delivery and its call of `withLock` stand, and where the delivery stands at the
perfect lock. -/
inductive Seat : Option Worker → Option LockService.Call → Option Worker → Prop where
  | empty : Seat none none none
  | loading : Seat (some ⟨job, .load⟩) none (some ⟨job, .load⟩)
  | asking : Seat (some ⟨job, .acquire row⟩) (some ⟨key, LockService.lockTtlMs, .acquiring, heartbeat, lost⟩)
      (some ⟨job, .acquire row⟩)
  | granted : Seat (some ⟨job, .acquire row⟩) (some ⟨key, LockService.lockTtlMs, .acquired, heartbeat, lost⟩)
      (some ⟨job, .verify row⟩)
  | refused : Seat (some ⟨job, .acquire row⟩) (some ⟨key, LockService.lockTtlMs, .refused, heartbeat, lost⟩)
      (some ⟨job, .gone⟩)
  | inside (inner : phase.stage.inside) :
      Seat (some ⟨job, phase⟩) (some ⟨key, LockService.lockTtlMs, .working, heartbeat, lost⟩) (some ⟨job, phase⟩)
  | leaving : Seat (some ⟨job, .release⟩) (some ⟨key, LockService.lockTtlMs, .releasing threw, heartbeat, lost⟩)
      (some ⟨job, .release⟩)
  | left : Seat (some ⟨job, .release⟩) (some ⟨key, LockService.lockTtlMs, .released threw deleted, heartbeat, lost⟩)
      (some ⟨job, .gone⟩)
  | dropped : Seat (some ⟨job, .gone⟩) none (some ⟨job, .gone⟩)
  | returned : Seat (some ⟨job, .gone⟩) (some ⟨key, LockService.lockTtlMs, .returned result deleted, heartbeat, lost⟩)
      (some ⟨job, .gone⟩)
  | crashed : Seat (some ⟨job, .gone⟩) (some ⟨key, LockService.lockTtlMs, .gone, heartbeat, lost⟩) (some ⟨job, .gone⟩)

/-- The settlement at a perfect lock: the holder of the lease holds the lock, everything that
is stored is the same, and each delivery stands where its call lets it. -/
structure Mirrors (s : State) (ideal : Settlement.State) : Prop where
  kept : LockService.Kept s.locks
  same : ideal = { s.desk key with workers := ideal.workers }
  seats : ∀ id, Seat key (s.workers.lookup id) (s.locks.calls.lookup id) (ideal.workers.lookup id)

variable {key} {s after : State} {ideal next : Settlement.State}

theorem mirrors_created (row : Transaction) : Mirrors key (State.created row) (Settlement.State.created row) :=
  ⟨LockService.kept_empty, rfl, fun _ => .empty⟩

/-- What is about one delivery keeps the seats of the others. -/
theorem Mirrors.moved (mirrors : Mirrors key s ideal) (id : Nat) (kept : LockService.Kept after.locks)
    (same : next = { after.desk key with workers := next.workers })
    (workers : ∀ other, other ≠ id → after.workers.lookup other = s.workers.lookup other)
    (calls : ∀ other, other ≠ id → after.locks.calls.lookup other = s.locks.calls.lookup other)
    (ideals : ∀ other, other ≠ id → next.workers.lookup other = ideal.workers.lookup other)
    (seat : Seat key (after.workers.lookup id) (after.locks.calls.lookup id) (next.workers.lookup id)) :
    Mirrors key after next := by
  refine ⟨kept, same, fun other => ?_⟩
  by_cases mine : other = id
  · subst mine
    exact seat
  · rw [workers other mine, calls other mine, ideals other mine]
    exact mirrors.seats other

/-- A delivery without a record has neither a call nor a place at the perfect lock. -/
theorem Seat.absent {call : Option LockService.Call} {worker : Option Worker} (seat : Seat key none call worker) :
    call = none ∧ worker = none := by
  cases seat
  exact ⟨rfl, rfl⟩

theorem Seat.present {worker : Worker} {call : Option LockService.Call} {twin : Option Worker}
    (seat : Seat key (some worker) call twin) : ∃ other, twin = some other := by
  cases seat <;> exact ⟨_, rfl⟩

theorem Mirrors.deliver (mirrors : Mirrors key s ideal) (id : Nat) (job : JobData) :
    Mirrors key (step key s (.deliver id job)) (Settlement.step ideal (.deliver id job)) := by
  have seat := mirrors.seats id
  simp only [step, State.process, Settlement.step, State.desk]
  cases found : s.workers.lookup id with
  | none =>
    rw [found] at seat
    obtain ⟨uncalled, absent⟩ := seat.absent
    rw [absent]
    refine mirrors.moved id mirrors.kept ?_ ?_ ?_ ?_ ?_
    · rw [mirrors.same]
      rfl
    · intro other distinct
      exact AList.lookup_insert_ne distinct
    · intro other distinct
      rfl
    · intro other distinct
      exact AList.lookup_insert_ne distinct
    · simp only [State.put, AList.lookup_insert]
      rw [uncalled]
      exact .loading
  | some worker =>
    rw [found] at seat
    obtain ⟨twin, present⟩ := seat.present
    rw [present]
    exact mirrors

/-- A risk call takes no notice of the workers and the lock. -/
theorem Mirrors.risks (mirrors : Mirrors key s ideal) (event : Settlement.Event)
    (apart : ∀ (t : Settlement.State) workers,
      Settlement.step { t with workers } event = { Settlement.step t event with workers } ∧
        (Settlement.step t event).workers = t.workers ∧ (Settlement.step t event).lock = t.lock) :
    Mirrors key (s.process key event) (Settlement.step ideal event) := by
  obtain ⟨-, theirs, -⟩ := apart ideal ideal.workers
  obtain ⟨same, ours, lock⟩ := apart (s.desk key) ideal.workers
  have next : Settlement.step ideal event = { Settlement.step (s.desk key) event with workers := ideal.workers } := by
    rw [mirrors.same, same]
  refine ⟨mirrors.kept, ?_, fun id => ?_⟩
  · rw [next]
    simp only [State.process, State.put, State.desk] at lock ⊢
    rw [lock]
  · rw [theirs]
    simp only [State.process, State.put, ours]
    exact mirrors.seats id

theorem Mirrors.risk (mirrors : Mirrors key s ideal) (id : Nat) (succeeds : Bool) :
    Mirrors key (step key s (.risk id succeeds)) (Settlement.step ideal (.risk id succeeds)) := by
  refine mirrors.risks (.risk id succeeds) fun t workers => ?_
  simp only [Settlement.step, riskStep]
  repeat' split
  all_goals exact ⟨rfl, rfl, rfl⟩

theorem Mirrors.updateRiskScore (mirrors : Mirrors key s ideal) (id : Nat) (riskScore : ℚ) (flagged : Bool) :
    Mirrors key (step key s (.updateRiskScore id riskScore flagged))
      (Settlement.step ideal (.updateRiskScore id riskScore flagged)) := by
  refine mirrors.risks (.updateRiskScore id riskScore flagged) fun t workers => ?_
  simp only [Settlement.step]
  split <;> exact ⟨rfl, rfl, rfl⟩

/-- A worker that does not come to its lock leaves it alone. -/
theorem workerStep_lock (t : Settlement.State) (id : Nat) (worker : Worker) (outcome : Outcome)
    (free : waits worker.phase = false) : (workerStep t id worker outcome).lock = t.lock := by
  obtain ⟨job, phase⟩ := worker
  cases phase with
  | acquire row => cases free
  | release => cases free
  | verify row =>
    simp only [workerStep]
    split <;> rfl
  | _ => cases outcome <;> rfl

/-- A worker inside its lock stays there or comes to let go of it. -/
theorem workerStep_inside (t : Settlement.State) (id : Nat) (worker : Worker) (outcome : Outcome)
    (inner : worker.phase.stage.inside) : (workerStep t id worker outcome).next.stage.inside ∨
      (workerStep t id worker outcome).next = .release := by
  have moves := worker_moves t id worker outcome
  generalize workerStep t id worker outcome = effect at moves
  obtain ⟨job, phase⟩ := worker
  cases moves with
  | leaves outside =>
    rw [outside] at inner
    cases inner
  | advances before next => exact .inl (by rw [next]; rfl)
  | rejects => exact .inr rfl
  | quits => exact .inr rfl
  | confirms => exact .inr rfl
  | clears => exact .inl rfl
  | submits => exact .inl rfl
  | unconfirmed => exact .inl rfl
  | _ => cases inner

theorem workerStep_load (t : Settlement.State) (id : Nat) (job : JobData) (outcome : Outcome) :
    (workerStep t id ⟨job, .load⟩ outcome).next = .gone ∨
      ∃ row, (workerStep t id ⟨job, .load⟩ outcome).next = .acquire row := by
  cases outcome with
  | done =>
    simp only [workerStep]
    split
    · exact .inl rfl
    · exact .inr ⟨_, rfl⟩
  | _ => exact .inl rfl

/-- The transaction after a step of a worker that does not wait. -/
def State.worked (s : State) (id : Nat) (worker : Worker) (effect : Effect) : State :=
  { s with
    row := effect.row, hashes := effect.hash.toList ++ s.hashes
    workers := s.workers.insert id { worker with phase := effect.next } }

@[simp] theorem State.worked_locks (s : State) (id : Nat) (worker : Worker) (effect : Effect) :
    (s.worked id worker effect).locks = s.locks := rfl

theorem step_work {id : Nat} {worker : Worker} {outcome : Outcome} {effect : Effect}
    (found : s.workers.lookup id = some worker) (free : waits worker.phase = false)
    (stepped : workerStep (s.desk key) id worker outcome = effect) : step key s (.work id outcome) =
      (atLock key id (throws worker.phase outcome) effect.next).elim (s.worked id worker effect)
        (s.worked id worker effect).lock := by
  have phase : (s.desk key).phase id = worker.phase := phase_of found
  have processed : s.process key (.work id outcome) = s.worked id worker effect := by
    rw [← stepped]
    simp only [State.process, Settlement.step, State.desk, found]
    rfl
  have next : ((s.worked id worker effect).desk key).phase id = effect.next := by
    simp [State.phase, State.desk, State.worked]
  simp only [step, phase, processed, next, free, Bool.false_eq_true, ↓reduceIte]

/-- A worker's step where its place is the same at both locks: what it does with the lease
is all that is left to say. -/
theorem Mirrors.worked (mirrors : Mirrors key s ideal) {id : Nat} {worker : Worker} {outcome : Outcome}
    (twin : ideal.workers.lookup id = some worker)
    (free : waits worker.phase = false) {effect : Effect}
    (stepped : workerStep (s.desk key) id worker outcome = effect) {locks : LockService.State}
    (leases : locks.leases = s.locks.leases) (now : locks.now = s.locks.now) (kept : LockService.Kept locks)
    (calls : ∀ other, other ≠ id → locks.calls.lookup other = s.locks.calls.lookup other)
    (seat : Seat key (some { worker with phase := effect.next }) (locks.calls.lookup id)
      (some { worker with phase := effect.next })) :
    Mirrors key { s.worked id worker effect with locks } (Settlement.step ideal (.work id outcome)) := by
  have same : workerStep ideal id worker outcome = effect := by
    rw [mirrors.same]
    exact stepped
  have lock : effect.lock = (s.desk key).lock := by
    rw [← stepped]
    exact workerStep_lock _ id worker outcome free
  simp only [Settlement.step, twin, same]
  refine mirrors.moved id kept ?_ ?_ calls ?_ ?_
  · rw [mirrors.same]
    simp only [State.apply, lock, State.desk, State.worked, leases, now]
  · intro other distinct
    exact AList.lookup_insert_ne distinct
  · intro other distinct
    exact AList.lookup_insert_ne distinct
  · simp only [State.worked, State.apply, AList.lookup_insert]
    exact seat

/-- What is left of a delivery that is over does nothing. -/
theorem Mirrors.work_gone (mirrors : Mirrors key s ideal) {id : Nat} {job : JobData} {outcome : Outcome}
    (found : s.workers.lookup id = some ⟨job, .gone⟩) (twin : ideal.workers.lookup id = some ⟨job, .gone⟩)
    (seat : Seat key (some ⟨job, .gone⟩) (s.locks.calls.lookup id) (some ⟨job, .gone⟩)) :
    Mirrors key (step key s (.work id outcome))
      (run Settlement.step ideal (mirror key s (.work id outcome)).toList) := by
  have gone : (s.desk key).phase id = .gone := phase_of (s := s.desk key) found
  simp only [mirror, gone, waits, Bool.false_eq_true, ↓reduceIte, Option.toList_some, run_cons, run_nil]
  rw [step_work found rfl rfl]
  exact mirrors.worked twin rfl rfl rfl rfl mirrors.kept (fun _ _ => rfl) seat

theorem Stage.inside_free {phase : Phase} (inner : phase.stage.inside) : waits phase = false := by
  cases phase with
  | acquire row => cases inner
  | release => cases inner
  | _ => rfl

theorem atLock_inside {id : Nat} {threw : Bool} {phase : Phase} (inner : phase.stage.inside) :
    atLock key id threw phase = none := by
  cases phase with
  | acquire row => cases inner
  | release => cases inner
  | _ => rfl

/-- A worker's step outside the lock, up to it, inside it and out of it. -/
theorem Mirrors.work (mirrors : Mirrors key s ideal) (id : Nat) (outcome : Outcome) :
    Mirrors key (step key s (.work id outcome))
      (run Settlement.step ideal (mirror key s (.work id outcome)).toList) := by
  have seat := mirrors.seats id
  generalize found : s.workers.lookup id = worker at seat
  generalize stored : s.locks.calls.lookup id = call at seat
  generalize twin : ideal.workers.lookup id = other at seat
  have at' : ∀ held, worker = some held → (s.desk key).phase id = held.phase := by
    rintro held rfl
    exact phase_of found
  cases seat with
  | empty =>
    have gone : (s.desk key).phase id = .gone := by simp [State.phase, State.desk, found]
    have idle : step key s (.work id outcome) = s := by
      simp [step, State.process, Settlement.step, State.desk, State.phase, found, waits, atLock, State.put]
    simp only [mirror, gone, waits, Bool.false_eq_true, ↓reduceIte, Option.toList_some, run_cons, run_nil, idle,
      Settlement.step, twin]
    exact mirrors
  | loading =>
    rename_i job
    simp only [mirror, at' _ rfl, waits, Bool.false_eq_true, ↓reduceIte, Option.toList_some, run_cons, run_nil]
    rw [step_work found rfl rfl]
    rcases workerStep_load (s.desk key) id job outcome with gone | ⟨row, acquire⟩
    · rw [gone]
      refine mirrors.worked twin rfl rfl rfl rfl mirrors.kept (fun _ _ => rfl) ?_
      rw [stored, gone]
      exact .dropped
    · rw [acquire]
      have asked : LockService.step s.locks (.withLock id key LockService.lockTtlMs) =
          { s.locks with calls := s.locks.calls.insert id ⟨key, LockService.lockTtlMs, .acquiring, .off, false⟩ } := by
        simp only [LockService.step, stored]
      have kept : LockService.Kept (LockService.step s.locks (.withLock id key LockService.lockTtlMs)) :=
        mirrors.kept.step rfl
      have leases : (LockService.step s.locks (.withLock id key LockService.lockTtlMs)).leases = s.locks.leases := by
        rw [asked]
      have now : (LockService.step s.locks (.withLock id key LockService.lockTtlMs)).now = s.locks.now := by
        rw [asked]
      have calls : ∀ other, other ≠ id →
          (LockService.step s.locks (.withLock id key LockService.lockTtlMs)).calls.lookup other =
            s.locks.calls.lookup other := by
        intro other distinct
        rw [asked]
        exact AList.lookup_insert_ne distinct
      refine mirrors.worked twin rfl rfl leases now kept calls ?_
      simp only [State.worked_locks, asked, acquire, AList.lookup_insert]
      exact .asking
  | @inside job phase heartbeat lost inner =>
    have free := Stage.inside_free inner
    simp only [mirror, at' _ rfl, free, Bool.false_eq_true, ↓reduceIte, Option.toList_some, run_cons, run_nil]
    rw [step_work found free rfl]
    rcases workerStep_inside (s.desk key) id ⟨job, phase⟩ outcome inner with stays | leaves
    · rw [atLock_inside stays]
      refine mirrors.worked twin free rfl rfl rfl mirrors.kept (fun _ _ => rfl) ?_
      rw [stored]
      exact .inside stays
    · rw [leaves]
      have about : (LockService.Event.workEnds id (throws phase outcome)).call = some id := rfl
      have kept : LockService.Kept (LockService.step s.locks (.workEnds id (throws phase outcome))) :=
        mirrors.kept.step rfl
      have leases := LockService.step_leases_quiet (s := s.locks) about fun _ _ => rfl
      have now := LockService.step_now (s := s.locks) about
      refine mirrors.worked twin free rfl leases now kept ?_ ?_
      · intro other distinct
        exact LockService.step_calls_other about distinct
      · rw [State.worked_locks, LockService.step_calls about, stored, leaves]
        exact .leaving
  | dropped => exact mirrors.work_gone found twin (by rw [stored]; exact .dropped)
  | returned => exact mirrors.work_gone found twin (by rw [stored]; exact .returned)
  | crashed => exact mirrors.work_gone found twin (by rw [stored]; exact .crashed)
  | _ =>
    simp only [step, mirror, at' _ rfl, waits, ↓reduceIte, Option.toList_none, run_nil]
    exact mirrors

/-- A crash leaves a delivery and its call nothing to do. -/
theorem Seat.crash {worker : Worker} {call : Option LockService.Call} {twin : Option Worker}
    (seat : Seat key (some worker) call twin) : ∃ other, twin = some other ∧
      Seat key (some { worker with phase := .gone })
        (call.map fun call => { call with phase := call.phase.crashed, heartbeat := .off })
        (some { other with phase := .gone }) := by
  cases seat with
  | loading => exact ⟨_, rfl, .dropped⟩
  | dropped => exact ⟨_, rfl, .dropped⟩
  | returned => exact ⟨_, rfl, .returned⟩
  | _ => exact ⟨_, rfl, .crashed⟩

theorem Mirrors.crash (mirrors : Mirrors key s ideal) (id : Nat) :
    Mirrors key (step key s (.crash id)) (Settlement.step ideal (.crash id)) := by
  have about : (LockService.Event.crash id).call = some id := rfl
  have seat := mirrors.seats id
  cases found : s.workers.lookup id with
  | none =>
    rw [found] at seat
    obtain ⟨uncalled, absent⟩ := seat.absent
    have idle : step key s (.crash id) = s := by
      simp only [step, State.process, State.put, State.lock, Settlement.step, State.desk, found,
        LockService.step_about about, uncalled]
    rw [idle]
    simp only [Settlement.step, absent]
    exact mirrors
  | some worker =>
    rw [found] at seat
    obtain ⟨other, twin, dead⟩ := seat.crash
    have processed : s.process key (.crash id) =
        { s with workers := s.workers.insert id { worker with phase := .gone } } := by
      simp only [State.process, State.put, Settlement.step, State.desk, found]
    have kept : LockService.Kept (LockService.step s.locks (.crash id)) := mirrors.kept.step rfl
    simp only [step, processed, Settlement.step, twin]
    refine mirrors.moved id kept ?_ ?_ ?_ ?_ ?_
    · have leases := LockService.step_leases_quiet (s := s.locks) about fun _ _ => rfl
      have now := LockService.step_now (s := s.locks) about
      simp only [State.lock, State.desk, leases, now]
      rw [mirrors.same]
      rfl
    · intro rival distinct
      exact AList.lookup_insert_ne distinct
    · intro rival distinct
      exact LockService.step_calls_other about distinct
    · intro rival distinct
      exact AList.lookup_insert_ne distinct
    · simp only [State.lock, AList.lookup_insert, LockService.step_calls about]
      exact dead

theorem Seat.asks {worker : Option Worker} {call : LockService.Call} {twin : Option Worker}
    (seat : Seat key worker (some call) twin) : call.key = key ∧ call.ttlMs = LockService.lockTtlMs := by
  cases seat <;> exact ⟨rfl, rfl⟩

/-- Whoever was granted the lease and is not between its grant and its release is gone. -/
theorem Seat.gone {worker : Option Worker} {call : LockService.Call} {twin : Option Worker}
    (seat : Seat key worker (some call) twin) (granted : call.phase ≠ .acquiring) (outside : call.phase.holds = false) :
    twin.elim .gone Worker.phase = .gone := by
  cases seat with
  | asking => cases granted rfl
  | granted => cases outside
  | inside => cases outside
  | leaving => cases outside
  | _ => rfl

theorem Mirrors.tick (mirrors : Mirrors key s ideal) (ms : Nat) (spares : punctual s (.tick ms)) :
    Mirrors key (step key s (.tick ms)) (run Settlement.step ideal (mirror key s (.tick ms)).toList) := by
  have kept : LockService.Kept (LockService.step s.locks (.tick ms)) := mirrors.kept.step spares
  have seats := mirrors.seats
  simp only [mirror]
  cases later : holder s.locks.leases (s.locks.now + ms) key with
  | some owner =>
    have before := holder_later (Nat.le_add_right _ _) later
    simp only [reduceCtorEq, ↓reduceIte, Option.toList_none, run_nil]
    refine ⟨kept, ?_, seats⟩
    rw [mirrors.same]
    simp only [step, State.lock, State.desk, LockService.step, later, before]
  | none =>
    simp only [↓reduceIte, Option.toList_some, run_cons, run_nil]
    have lock : ideal.lock = holder s.locks.leases s.locks.now key := by
      rw [mirrors.same]
      rfl
    have freed : Mirrors key (step key s (.tick ms)) { ideal with lock := none } := by
      refine ⟨kept, ?_, seats⟩
      rw [mirrors.same]
      simp only [step, State.lock, State.desk, LockService.step, later]
    cases held : holder s.locks.leases s.locks.now key with
    | none =>
      rw [held] at lock
      have expired : Settlement.step ideal .expireLock = { ideal with lock := none } := by
        simp only [Settlement.step, lock]
        rw [← lock]
      rw [expired]
      exact freed
    | some owner =>
      -- The clock spares whoever is inside, so this lease was left behind.
      obtain ⟨expiresAt, lease, -⟩ := holder_eq_some.mp held
      obtain ⟨call, stored, granted⟩ := mirrors.kept.granted key ⟨owner, expiresAt⟩ lease
      have seat := seats owner
      rw [stored] at seat
      obtain ⟨mine, -⟩ := seat.asks
      have outside : call.phase.holds = false := by
        by_contra holds
        have lasts := kept.held owner call stored (by simpa using holds)
        rw [mine] at lasts
        exact absurd (later.symm.trans lasts) (by simp)
      have gone : ideal.phase owner = .gone := seat.gone granted outside
      have expired : Settlement.step ideal .expireLock = { ideal with lock := none } := by
        simp only [Settlement.step, lock, held, gone, ↓reduceIte]
      rw [expired]
      exact freed

/-- What Redis does for one call, and where that leaves its delivery. -/
theorem Mirrors.locked (mirrors : Mirrors key s ideal) {event : LockService.Event} {id : Nat}
    (about : event.call = some id) {workers : Store Nat Worker}
    (same : next = { ideal with
      lock := holder (LockService.step s.locks event).leases s.locks.now key, workers := next.workers })
    (others : ∀ other, other ≠ id → workers.lookup other = s.workers.lookup other)
    (ideals : ∀ other, other ≠ id → next.workers.lookup other = ideal.workers.lookup other)
    (seat : Seat key (workers.lookup id)
      ((s.locks.calls.lookup id).map fun call => (LockService.callStep s.locks id call event).2)
      (next.workers.lookup id)) :
    Mirrors key { s.lock event with workers } next := by
  refine mirrors.moved id (mirrors.kept.about about) ?_ others ?_ ideals ?_
  · rw [same, mirrors.same]
    simp only [State.desk, State.lock, LockService.step_now about]
  · intro other distinct
    exact LockService.step_calls_other about distinct
  · rw [← LockService.step_calls about] at seat
    exact seat

theorem Mirrors.lock_eq (mirrors : Mirrors key s ideal) :
    ideal.lock = holder s.locks.leases s.locks.now key := by
  rw [mirrors.same]
  rfl

/-- What a call does without its delivery leaves the perfect lock as it is. -/
theorem Mirrors.unseen (mirrors : Mirrors key s ideal) {event : LockService.Event} {id : Nat}
    (about : event.call = some id)
    (lock : holder (LockService.step s.locks event).leases s.locks.now key = holder s.locks.leases s.locks.now key)
    (seat : Seat key (s.workers.lookup id)
      ((s.locks.calls.lookup id).map fun call => (LockService.callStep s.locks id call event).2)
      (ideal.workers.lookup id)) :
    Mirrors key (s.lock event) ideal := by
  refine mirrors.locked about ?_ (fun _ _ => rfl) (fun _ _ => rfl) seat
  rw [lock, ← mirrors.lock_eq]

theorem Mirrors.execute (mirrors : Mirrors key s ideal) (id : Nat) :
    Mirrors key (step key s (.execute id)) (run Settlement.step ideal (mirror key s (.execute id)).toList) := by
  have about : (LockService.Event.execute id).call = some id := rfl
  have seat := mirrors.seats id
  generalize stored : s.locks.calls.lookup id = call at seat
  generalize found : s.workers.lookup id = worker at seat
  generalize twin : ideal.workers.lookup id = other at seat
  have idle : (∀ call, s.locks.calls.lookup id = some call →
      LockService.callStep s.locks id call (.execute id) = (s.locks.leases, call)) →
      Mirrors key (s.lock (.execute id)) ideal := by
    intro quiet
    refine mirrors.unseen about ?_ ?_
    · rw [LockService.step_leases_quiet about fun call lookup => by rw [quiet call lookup]]
    · have kept := mirrors.seats id
      cases lookup : s.locks.calls.lookup id with
      | none => rwa [lookup] at kept
      | some call =>
        rw [lookup] at kept
        rw [Option.map_some, quiet call lookup]
        exact kept
  cases seat with
  | @asking job row heartbeat lost =>
    have leases : (LockService.step s.locks (.execute id)).leases =
        (setNx s.locks.leases s.locks.now key id LockService.lockTtlMs).2 := by
      rw [LockService.step_leases about, stored]
      rfl
    simp only [mirror, stored, Option.map_some, Option.toList_some, run_cons, run_nil, Settlement.step, twin,
      workerStep, mirrors.lock_eq]
    by_cases free : holder s.locks.leases s.locks.now key = none
    · have granted : setNx s.locks.leases s.locks.now key id LockService.lockTtlMs =
          (true, s.locks.leases.insert key ⟨id, s.locks.now + LockService.lockTtlMs⟩) :=
        if_pos ⟨free, Nat.zero_lt_succ _⟩
      have taken : holder (s.locks.leases.insert key ⟨id, s.locks.now + LockService.lockTtlMs⟩) s.locks.now key =
          some id := by
        rw [holder_insert, if_pos rfl]
        exact if_pos (Nat.lt_add_of_pos_right (Nat.zero_lt_succ _))
      rw [if_pos free]
      refine mirrors.locked about ?_ (fun _ _ => rfl) (fun _ => AList.lookup_insert_ne) ?_
      · rw [leases, granted, taken]
        rfl
      · simp only [stored, found, Option.map_some, LockService.callStep, LockService.executeCommand, granted,
          State.apply, AList.lookup_insert]
        exact .granted
    · have refused : setNx s.locks.leases s.locks.now key id LockService.lockTtlMs = (false, s.locks.leases) :=
        if_neg fun both => free both.1
      rw [if_neg free]
      refine mirrors.locked about ?_ (fun _ _ => rfl) (fun _ => AList.lookup_insert_ne) ?_
      · rw [leases, refused, ← mirrors.lock_eq]
        rfl
      · simp only [stored, found, Option.map_some, LockService.callStep, LockService.executeCommand, refused,
          State.apply, AList.lookup_insert]
        exact .refused
  | @leaving job threw heartbeat lost =>
    have mine : holder s.locks.leases s.locks.now key = some id := mirrors.kept.held id _ stored rfl
    have leases : (LockService.step s.locks (.execute id)).leases = s.locks.leases.erase key := by
      rw [LockService.step_leases about, stored]
      simp only [Option.elim_some, LockService.callStep, LockService.executeCommand, LeaseStore.release, mine,
        ↓reduceIte]
    have freed : holder (s.locks.leases.erase key) s.locks.now key = none := by
      simp [holder]
    simp only [mirror, stored, Option.map_some, Option.toList_some, run_cons, run_nil, Settlement.step, twin,
      workerStep, mirrors.lock_eq, mine, ↓reduceIte]
    refine mirrors.locked about ?_ (fun _ _ => rfl) (fun _ => AList.lookup_insert_ne) ?_
    · rw [leases, freed]
      rfl
    · simp only [stored, found, Option.map_some, LockService.callStep, LockService.executeCommand,
        LockService.Call.become, State.apply, AList.lookup_insert]
      exact .left
  | _ =>
    simp only [mirror, stored, Option.map_some, Option.map_none, Option.toList_none, run_nil]
    refine idle fun call lookup => ?_
    cases stored.symm.trans lookup
    try rfl

theorem resume_inside {phase : Phase} (inner : phase.stage.inside) : resume .working phase = phase := by
  cases phase with
  | acquire row => cases inner
  | _ => rfl

/-- An answer that arrives tells a delivery what the perfect lock had it know already. -/
theorem Seat.answered {worker : Worker} {call : LockService.Call} {twin : Option Worker}
    (seat : Seat key (some worker) (some call) twin) :
    Seat key (some { worker with phase := resume (LockService.onAnswer call).phase worker.phase })
      (some (LockService.onAnswer call)) twin := by
  cases seat with
  | asking => exact .asking
  | granted => exact .inside rfl
  | refused => exact .returned
  | inside inner =>
    simp only [LockService.onAnswer, resume_inside inner]
    exact .inside inner
  | leaving => exact .leaving
  | left => exact .returned
  | returned => exact .returned
  | crashed => exact .crashed

/-- A connection that fails ends the delivery like a crash, or after the perfect lock has. -/
theorem Seat.failed {worker : Worker} {call : LockService.Call} {twin : Option Worker}
    (seat : Seat key (some worker) (some call) twin) : ∃ other, twin = some other ∧
      Seat key (some { worker with phase := resume (LockService.onFailure call).phase worker.phase })
        (some (LockService.onFailure call))
        (some (if cutOff call.phase then { other with phase := .gone } else other)) := by
  cases seat with
  | inside inner =>
    refine ⟨_, rfl, ?_⟩
    simp only [LockService.onFailure, resume_inside inner]
    exact .inside inner
  | crashed => exact ⟨_, rfl, .crashed⟩
  | _ => exact ⟨_, rfl, .returned⟩

theorem step_answer {id : Nat} {arrives : Bool} {worker : Worker} {call : LockService.Call}
    (found : s.workers.lookup id = some worker) (stored : s.locks.calls.lookup id = some call) :
    step key s (.answer id arrives) = { s.lock (.answer id arrives) with
      workers := s.workers.insert id { worker with
        phase := resume (if arrives then LockService.onAnswer call else LockService.onFailure call).phase
          worker.phase } } := by
  have about : (LockService.Event.answer id arrives).call = some id := rfl
  have calls := LockService.step_calls (s := s.locks) about
  rw [stored] at calls
  simp only [step, State.lock, calls, Option.map_some, found]
  rfl

theorem Mirrors.answer (mirrors : Mirrors key s ideal) (id : Nat) (arrives : Bool) :
    Mirrors key (step key s (.answer id arrives))
      (run Settlement.step ideal (mirror key s (.answer id arrives)).toList) := by
  have about : (LockService.Event.answer id arrives).call = some id := rfl
  have leases : (LockService.step s.locks (.answer id arrives)).leases = s.locks.leases :=
    LockService.step_leases_quiet about fun _ _ => rfl
  have seat := mirrors.seats id
  cases stored : s.locks.calls.lookup id with
  | none =>
    have calls := LockService.step_calls (s := s.locks) about
    rw [stored] at calls
    have idle : step key s (.answer id arrives) = s.lock (.answer id arrives) := by
      simp only [step, State.lock, calls, Option.map_none]
    have silent : mirror key s (.answer id arrives) = none := by
      cases arrives with
      | true => rfl
      | false => simp only [mirror, stored, Option.any_none, Bool.false_eq_true, ↓reduceIte]
    rw [idle, silent]
    refine mirrors.unseen about (by rw [leases]) ?_
    rw [stored] at seat ⊢
    exact seat
  | some call =>
    rw [stored] at seat
    cases found : s.workers.lookup id with
    | none =>
      rw [found] at seat
      cases seat
    | some worker =>
      rw [found] at seat
      rw [step_answer found stored]
      cases arrives with
      | true =>
        refine mirrors.locked about ?_ (fun _ => AList.lookup_insert_ne) (fun _ _ => rfl) ?_
        · rw [leases, ← mirrors.lock_eq]
          rfl
        · rw [AList.lookup_insert, stored]
          exact seat.answered
      | false =>
        obtain ⟨other, twin, failed⟩ := seat.failed
        simp only [mirror, stored, Option.any_some]
        cases cut : cutOff call.phase with
        | true =>
          simp only [cut, ↓reduceIte] at failed
          simp only [↓reduceIte, Option.toList_some, run_cons, run_nil, Settlement.step, twin]
          refine mirrors.locked about ?_ (fun _ => AList.lookup_insert_ne) (fun _ => AList.lookup_insert_ne) ?_
          · rw [leases, ← mirrors.lock_eq]
          · rw [AList.lookup_insert, stored, AList.lookup_insert]
            exact failed
        | false =>
          simp only [cut, Bool.false_eq_true, ↓reduceIte] at failed
          simp only [Bool.false_eq_true, ↓reduceIte, Option.toList_none, run_nil]
          refine mirrors.locked about ?_ (fun _ => AList.lookup_insert_ne) (fun _ _ => rfl) ?_
          · rw [leases, ← mirrors.lock_eq]
          · rw [AList.lookup_insert, stored, twin]
            exact failed

/-- What the heartbeat changes of a call is not where it stands. -/
theorem Seat.beats {worker twin : Option Worker} {call : Option LockService.Call}
    {change : LockService.Call → LockService.Call} (seat : Seat key worker call twin)
    (apart : ∀ call, ∃ heartbeat lost, change call = { call with heartbeat, lost }) :
    Seat key worker (call.map change) twin := by
  cases call with
  | none => exact seat
  | some call =>
    obtain ⟨heartbeat, lost, same⟩ := apart call
    rw [Option.map_some, same]
    cases seat with
    | asking => exact .asking
    | granted => exact .granted
    | refused => exact .refused
    | inside inner => exact .inside inner
    | leaving => exact .leaving
    | left => exact .left
    | returned => exact .returned
    | crashed => exact .crashed

theorem Mirrors.beat (mirrors : Mirrors key s ideal) (id : Nat) : Mirrors key (step key s (.beat id)) ideal := by
  have about : (LockService.Event.beat id).call = some id := rfl
  refine mirrors.unseen about ?_ ((mirrors.seats id).beats fun call => ?_)
  · rw [LockService.step_leases_quiet about fun _ _ => rfl]
  · obtain ⟨stored, ttlMs, phase, heartbeat, lost⟩ := call
    cases heartbeat <;> exact ⟨_, _, rfl⟩

theorem Mirrors.renewed (mirrors : Mirrors key s ideal) (id : Nat) (arrives : Bool) :
    Mirrors key (step key s (.renewed id arrives)) ideal := by
  have about : (LockService.Event.renewed id arrives).call = some id := rfl
  refine mirrors.unseen about ?_ ((mirrors.seats id).beats fun call => ?_)
  · rw [LockService.step_leases_quiet about fun _ _ => rfl]
  · simp only [LockService.callStep, LockService.onRenewed]
    split <;> exact ⟨_, _, rfl⟩

theorem Mirrors.extend (mirrors : Mirrors key s ideal) (id : Nat) : Mirrors key (step key s (.extend id)) ideal := by
  have about : (LockService.Event.extend id).call = some id := rfl
  refine mirrors.unseen about ?_ ((mirrors.seats id).beats fun call => ?_)
  · rw [LockService.step_leases about]
    cases stored : s.locks.calls.lookup id with
    | none => rfl
    | some call =>
      have seat := mirrors.seats id
      rw [stored] at seat
      obtain ⟨mine, lasts⟩ := seat.asks
      simp only [Option.elim_some, LockService.callStep, LockService.executeExtend]
      split
      · rw [mine, lasts]
        exact holder_extend_eq (Nat.zero_lt_succ _)
      · rfl
  · obtain ⟨stored, ttlMs, phase, heartbeat, lost⟩ := call
    cases heartbeat <;> exact ⟨_, _, rfl⟩

/-- One event under a punctual clock: the two settlements stay alike. -/
theorem mirrors_follow : Follows (step key) (fun s event => punctual s event) (mirror key) Settlement.step
    (Mirrors key) := by
  intro s ideal event mirrors spares
  cases event with
  | deliver id job => exact mirrors.deliver id job
  | work id outcome => exact mirrors.work id outcome
  | crash id => exact mirrors.crash id
  | tick ms => exact mirrors.tick ms spares
  | execute id => exact mirrors.execute id
  | answer id arrives => exact mirrors.answer id arrives
  | beat id => exact mirrors.beat id
  | extend id => exact mirrors.extend id
  | renewed id arrives => exact mirrors.renewed id arrives
  | updateRiskScore id riskScore flagged => exact mirrors.updateRiskScore id riskScore flagged
  | risk id succeeds => exact mirrors.risk id succeeds

/-- In every run under a punctual clock, with any number of deliveries, commands and answers
under way, lost connections, crashes and late heartbeats, the lease is a perfect lock: the run of the
settlement at a perfect lock that mirrors it, event for event, stores the same. -/
theorem lease_is_perfect_lock (key : String) (row : Transaction) (events : List Event)
    (spares : Throughout (step key) (fun s event => punctual s event) (State.created row) events) :
    Mirrors key (run (step key) (State.created row) events)
      (run Settlement.step (Settlement.State.created row)
        (journal (step key) (mirror key) (State.created row) events)) :=
  mirrors_follow.run (mirrors_created row) spares

/-- One delivery that settles its row while its heartbeat extends its lease. -/
def extendedSettling : List Event :=
  [.deliver 0 pendingJob, .work 0 .done, .execute 0, .answer 0 true, .work 0 .done, .tick 3000, .beat 0, .extend 0,
    .renewed 0 true, .tick 9000, .work 0 (.scored (1 / 10) false), .work 0 .done, .work 0 (.submitted "h1"),
    .work 0 .done, .execute 0, .answer 0 true]

theorem extendedSettling_perfect :
    Throughout (step "lock") (fun s event => punctual s event) (State.created pendingRow) extendedSettling ∧
    Mirrors "lock" (run (step "lock") (State.created pendingRow) extendedSettling)
      (run Settlement.step (Settlement.State.created pendingRow)
        (journal (step "lock") (mirror "lock") (State.created pendingRow) extendedSettling)) := by
  have spares : Throughout (step "lock") (fun s event => punctual s event) (State.created pendingRow)
      extendedSettling := by decide +kernel
  exact ⟨spares, lease_is_perfect_lock _ _ _ spares⟩

end AfroPay.LeasedSettlement
