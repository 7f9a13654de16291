import AfroPay.Interleaving
import AfroPay.Json

/-! Interactive SEP-24 sessions. A call verifies the session token, reads the row of the
session, checks status and clock, and writes the row in a further statement that no longer
looks at the status. All calls here are about one token, so about one row. -/
namespace AfroPay.Sep24
open Interleaving KeyedStore Runs

inductive Sep24TransactionStatus where
  | incomplete
  | pendingUserTransferStart
  | pendingAnchor
  | pendingExternal
  | completed
  | refunded
  | expired
  | error
  deriving DecidableEq

/-- The row of a session. -/
structure Sep24Transaction where
  id : String
  kind : String
  status : Sep24TransactionStatus
  stellarAccount : String
  assetCode : String
  assetIssuer : Option String
  amount : Option String
  sessionExpiresAt : Nat
  kycData : Option Json.Value
  paymentMethod : Option String
  memo : Option String
  memoType : Option String
  message : Option String

inductive Exception where
  | unauthorized (message : String)
  | notFound (message : String)
  | badRequest (message : String)
  /-- What the database client threw. -/
  | internal (message : String)
  deriving DecidableEq

/-- What `getSessionData` returns. -/
structure SessionData where
  id : String
  kind : String
  stellarAccount : String
  assetCode : String
  assetIssuer : Option String
  amount : Option String
  status : Sep24TransactionStatus
  deriving DecidableEq

/-- What `confirmInteractiveSession` returns. -/
structure Confirmation where
  id : String
  status : Sep24TransactionStatus
  kind : String
  assetCode : String
  amount : Option String
  memo : Option String
  memoType : Option String
  message : Option String
  deriving DecidableEq

inductive Answer where
  | data (session : SessionData)
  | confirmed (confirmation : Confirmation)
  deriving DecidableEq

structure Confirm where
  kycData : Json.Value
  paymentMethod : String
  amount : Option String

inductive Request where
  | getSessionData
  | confirmInteractiveSession (form : Confirm)

/-- Where a call stands. -/
inductive Phase where
  | verifying
  | reading
  /-- The row was read, status and clock are still to be checked. -/
  | checking (tx : Sep24Transaction)
  /-- The update to `expired` is on its way. -/
  | expiring
  /-- The update of a confirmed session is on its way. -/
  | confirming (form : Confirm) (tx : Sep24Transaction) (memo : String)
  | returned (result : Except Exception Answer)

structure Call where
  request : Request
  phase : Phase

structure Database where
  /-- Milliseconds. -/
  now : Nat
  /-- The row with the session token, if there is one. -/
  session : Option Sep24Transaction

def Sep24Transaction.data (tx : Sep24Transaction) : SessionData :=
  ⟨tx.id, tx.kind, tx.stellarAccount, tx.assetCode, tx.assetIssuer, tx.amount, tx.status⟩

def Sep24Transaction.confirmation (tx : Sep24Transaction) : Confirmation :=
  ⟨tx.id, tx.status, tx.kind, tx.assetCode, tx.amount, tx.memo, tx.memoType, tx.message⟩

/-- The update that both functions make of a session past its time. -/
def Sep24Transaction.expire (tx : Sep24Transaction) : Sep24Transaction :=
  { tx with status := .expired, message := some "Session expired" }

/-- The update of `confirmInteractiveSession`; `read` is the row it read before. -/
def Sep24Transaction.confirm (tx read : Sep24Transaction) (form : Confirm) (memo : String) : Sep24Transaction :=
  { tx with
    status := .pendingUserTransferStart
    kycData := some form.kycData
    paymentMethod := some form.paymentMethod
    amount := form.amount.or read.amount
    memo := some memo
    memoType := some "text"
    message := some "KYC data received. Waiting for on-chain transfer." }

def fail (exception : Exception) : Phase := .returned (.error exception)

/-- The checks on the row that was read. The memo is `randomBytes(8)` in hexadecimal. -/
def check (now : Nat) (request : Request) (tx : Sep24Transaction) (memo : String) : Phase :=
  if tx.status ≠ .incomplete then fail (.badRequest "Session has already been completed or expired")
  else if now > tx.sessionExpiresAt then .expiring
  else match request with
    | .getSessionData => .returned (.ok (.data tx.data))
    | .confirmInteractiveSession form => .confirming form tx memo

/-- One step of a call; `verifies` says at what times `jwt.verify` takes the token. -/
def proceed (verifies : Nat → Bool) (db : Database) (call : Call) (memo : String) : Database × Call :=
  match call.phase with
  | .verifying =>
    (db, { call with
      phase := if verifies db.now then .reading else fail (.unauthorized "Invalid or expired session token") })
  | .reading =>
    match db.session with
    | none => (db, { call with phase := fail (.notFound "Interactive session not found") })
    | some tx => (db, { call with phase := .checking tx })
  | .checking tx => (db, { call with phase := check db.now call.request tx memo })
  | .expiring =>
    match db.session with
    | none => (db, { call with phase := fail (.internal "Record to update not found.") })
    | some tx =>
      ({ db with session := some tx.expire },
        { call with phase := fail (.badRequest "Interactive session has expired") })
  | .confirming form read memo =>
    match db.session with
    | none => (db, { call with phase := fail (.internal "Record to update not found.") })
    | some tx =>
      let updated := tx.confirm read form memo
      ({ db with session := some updated },
        { call with phase := .returned (.ok (.confirmed updated.confirmation)) })
  | .returned _ => (db, call)

/-- The clock is all that moves outside of calls. -/
def service (verifies : Nat → Bool) : Service Database Call Request String Nat where
  begin request := ⟨request, .verifying⟩
  proceed := proceed verifies
  act db ms := { db with now := db.now + ms }

abbrev State := System Database Call

abbrev Step := Event Request String Nat

def Database.status (db : Database) : Option Sep24TransactionStatus := db.session.map (·.status)

/-- The call is a confirmation that succeeded, with what it returned. -/
def Call.Confirmed (call : Call) (confirmation : Confirmation) : Prop :=
  call.phase = .returned (.ok (.confirmed confirmation))

def Succeeded (s : State) (id : Nat) (confirmation : Confirmation) : Prop :=
  ∃ call, s.calls.lookup id = some call ∧ call.Confirmed confirmation

variable (verifies : Nat → Bool)

/-- The state after a run of calls of one token. -/
abbrev after (db : Database) (events : List Step) : State := run (step (service verifies)) (.fresh db) events

/-- The promise of a session along a run. -/
structure ConfirmedOnce (db : Database) (events : List Step) : Prop where
  once : ∀ first second one two, Succeeded (after verifies db events) first one →
    Succeeded (after verifies db events) second two → first = second
  memo : ∀ before between rest id confirmation, events = before ++ between ++ rest →
    Succeeded (after verifies db before) id confirmation →
      (after verifies db (before ++ between)).shared.session.bind (·.memo) = confirmation.memo
  confirmedStays : ∀ before between rest, events = before ++ between ++ rest →
    (after verifies db before).shared.status = some .pendingUserTransferStart →
      (after verifies db (before ++ between)).shared.status ≠ some .expired
  expiredStays : ∀ before between rest, events = before ++ between ++ rest →
    (after verifies db before).shared.status = some .expired →
      (after verifies db (before ++ between)).shared.status ≠ some .pendingUserTransferStart

/-- An update may land: a confirmation on a session that is still incomplete, an expiry on
one that was not confirmed meanwhile. -/
def Call.Timely (call : Call) (status : Option Sep24TransactionStatus) : Prop :=
  match call.phase with
  | .confirming .. => status = some .incomplete
  | .expiring => status ≠ some .pendingUserTransferStart
  | _ => True

def NoStaleUpdate (s : State) : Step → Prop
  | .advance id _ => ∀ call, s.calls.lookup id = some call → call.Timely s.shared.status
  | _ => True

variable {verifies} {db : Database} {call : Call} {s : State} {event : Step}

/-- Everything a step of a call can do. -/
inductive Proceeds (db : Database) (call : Call) : Database × Call → Prop where
  /-- Nothing is written, and the call is not more of a success than it was. -/
  | reads (next : Call) (same : ∀ confirmation, next.Confirmed confirmation ↔ call.Confirmed confirmation) :
      Proceeds db call (db, next)
  | expires (tx : Sep24Transaction) (expiring : call.phase = .expiring) (found : db.session = some tx) (next : Call)
      (failed : ∀ confirmation, ¬ next.Confirmed confirmation) :
      Proceeds db call ({ db with session := some tx.expire }, next)
  | confirms (form : Confirm) (read tx : Sep24Transaction) (memo : String)
      (confirming : call.phase = .confirming form read memo) (found : db.session = some tx) :
      Proceeds db call ({ db with session := some (tx.confirm read form memo) },
        { call with phase := .returned (.ok (.confirmed (tx.confirm read form memo).confirmation)) })

theorem check_not_confirmed (now : Nat) (request : Request) (tx : Sep24Transaction) (memo : String)
    (confirmation : Confirmation) : check now request tx memo ≠ .returned (.ok (.confirmed confirmation)) := by
  unfold check fail
  split
  · simp
  · split
    · simp
    · cases request <;> simp

theorem proceeds (verifies : Nat → Bool) (db : Database) (call : Call) (memo : String) :
    Proceeds db call (proceed verifies db call memo) := by
  obtain ⟨request, phase⟩ := call
  cases phase with
  | verifying =>
    apply Proceeds.reads
    intro confirmation
    simp only [Call.Confirmed, fail]
    split <;> simp
  | reading =>
    simp only [proceed]
    cases db.session with
    | none => exact .reads _ (by simp [Call.Confirmed, fail])
    | some tx => exact .reads _ (by simp [Call.Confirmed])
  | checking tx =>
    apply Proceeds.reads
    intro confirmation
    simp [Call.Confirmed, check_not_confirmed]
  | expiring =>
    simp only [proceed]
    cases found : db.session with
    | none => exact .reads _ (by simp [Call.Confirmed, fail])
    | some tx => exact .expires tx rfl found _ (by simp [Call.Confirmed, fail])
  | confirming form read memo =>
    simp only [proceed]
    cases found : db.session with
    | none => exact .reads _ (by simp [Call.Confirmed, fail])
    | some tx => exact .confirms form read tx memo rfl found
  | returned result => exact .reads _ (by simp)

/-- What an event does to the session and to the successful calls. -/
inductive Changes (s : State) : Step → State → Prop where
  | keeps (event : Step) (s' : State) (session : s'.shared.session = s.shared.session)
      (same : ∀ id confirmation, Succeeded s' id confirmation ↔ Succeeded s id confirmation) :
      Changes s event s'
  | expires (id : Nat) (input : String) (s' : State) (call : Call) (tx : Sep24Transaction)
      (found : s.calls.lookup id = some call) (expiring : call.phase = .expiring)
      (held : s.shared.session = some tx) (session : s'.shared.session = some tx.expire)
      (same : ∀ id confirmation, Succeeded s' id confirmation ↔ Succeeded s id confirmation) :
      Changes s (.advance id input) s'
  | confirms (id : Nat) (input : String) (s' : State) (call : Call) (form : Confirm) (read tx : Sep24Transaction)
      (memo : String) (found : s.calls.lookup id = some call) (confirming : call.phase = .confirming form read memo)
      (held : s.shared.session = some tx) (session : s'.shared.session = some (tx.confirm read form memo))
      (new : ∀ other confirmation, Succeeded s' other confirmation ↔ Succeeded s other confirmation ∨
        other = id ∧ confirmation = (tx.confirm read form memo).confirmation) :
      Changes s (.advance id input) s'

/-- A call that is written back is the only one whose success can change. -/
theorem succeeded_insert {shared : Database} {id other : Nat} {next : Call} {confirmation : Confirmation} :
    Succeeded ⟨shared, s.calls.insert id next⟩ other confirmation ↔
      other = id ∧ next.Confirmed confirmation ∨ other ≠ id ∧ Succeeded s other confirmation := by
  unfold Succeeded
  constructor
  · rintro ⟨call, found, confirmed⟩
    rcases lookup_insert_some.mp found with ⟨same, rfl⟩ | ⟨distinct, old⟩
    · exact .inl ⟨same, confirmed⟩
    · exact .inr ⟨distinct, call, old, confirmed⟩
  · rintro (⟨same, confirmed⟩ | ⟨distinct, call, old, confirmed⟩)
    · exact ⟨next, lookup_insert_some.mpr (.inl ⟨same, rfl⟩), confirmed⟩
    · exact ⟨call, lookup_insert_some.mpr (.inr ⟨distinct, old⟩), confirmed⟩

theorem succeeded_of_lookup {id : Nat} {confirmation : Confirmation} (found : s.calls.lookup id = some call) :
    Succeeded s id confirmation ↔ call.Confirmed confirmation := by
  simp [Succeeded, found]

/-- Writing a call back as successful as it was changes no success. -/
theorem succeeded_insert_same {shared : Database} {id : Nat} {next : Call} (found : s.calls.lookup id = some call)
    (same : ∀ confirmation, next.Confirmed confirmation ↔ call.Confirmed confirmation) (other : Nat)
    (confirmation : Confirmation) : Succeeded ⟨shared, s.calls.insert id next⟩ other confirmation ↔
      Succeeded s other confirmation := by
  rw [succeeded_insert]
  by_cases equal : other = id
  · subst equal
    simp [succeeded_of_lookup found, same]
  · simp [equal]

theorem changes (verifies : Nat → Bool) (s : State) (event : Step) :
    Changes s event (step (service verifies) s event) := by
  have all := steps (service verifies) s event
  generalize step (service verifies) s event = s' at all
  cases all with
  | idle => exact .keeps event s rfl fun _ _ => Iff.rfl
  | begins id request free =>
    refine .keeps _ _ rfl fun other confirmation => ?_
    rw [succeeded_insert]
    by_cases equal : other = id
    · subst equal
      simp [Succeeded, free, service, Call.Confirmed]
    · simp [equal]
  | advances id input call found =>
    have all := proceeds verifies s.shared call input
    change Changes s (.advance id input) ⟨(proceed verifies s.shared call input).1,
      s.calls.insert id (proceed verifies s.shared call input).2⟩
    generalize proceed verifies s.shared call input = result at all
    cases all with
    | reads next same => exact .keeps _ _ rfl (succeeded_insert_same found same)
    | expires tx expiring held next failed =>
      refine .expires id input _ call tx found expiring held rfl (succeeded_insert_same found fun confirmation => ?_)
      have before : ¬ call.Confirmed confirmation := by simp [Call.Confirmed, expiring]
      exact iff_of_false (failed confirmation) before
    | confirms form read tx memo confirming held =>
      refine .confirms id input _ call form read tx memo found confirming held rfl fun other confirmation => ?_
      rw [succeeded_insert]
      by_cases equal : other = id
      · subst equal
        simp [succeeded_of_lookup found, Call.Confirmed, confirming, eq_comm]
      · simp [equal]
  | acts ms => exact .keeps _ _ rfl fun _ _ => Iff.rfl

/-- A success is a success for good. -/
theorem succeeded_step {id : Nat} {confirmation : Confirmation} (succeeded : Succeeded s id confirmation) :
    Succeeded (step (service verifies) s event) id confirmation := by
  have all := changes verifies s event
  generalize step (service verifies) s event = s' at all
  cases all with
  | keeps _ _ session same => exact (same id confirmation).mpr succeeded
  | expires other input _ call tx found expiring held session same => exact (same id confirmation).mpr succeeded
  | confirms other input _ call form read tx memo found confirming held session new =>
    exact (new id confirmation).mpr (.inl succeeded)

theorem status_of_session {s' : State} (session : s'.shared.session = s.shared.session) :
    s'.shared.status = s.shared.status := by
  unfold Database.status
  rw [session]

/-- The confirmed session is the one that was returned, to one call only. -/
structure Sound (s : State) : Prop where
  unique : ∀ first second one two, Succeeded s first one → Succeeded s second two → first = second
  stored : ∀ id confirmation, Succeeded s id confirmation →
    s.shared.status = some .pendingUserTransferStart ∧ s.shared.session.bind (·.memo) = confirmation.memo

theorem step_sound (sound : Sound s) (timely : NoStaleUpdate s event) : Sound (step (service verifies) s event) := by
  have all := changes verifies s event
  generalize step (service verifies) s event = s' at all
  cases all with
  | keeps _ _ session same =>
    refine ⟨?_, ?_⟩
    · intro first second one two left right
      exact sound.unique first second one two ((same _ _).mp left) ((same _ _).mp right)
    · intro id confirmation succeeded
      rw [status_of_session session, session]
      exact sound.stored id confirmation ((same _ _).mp succeeded)
  | expires id input _ call tx found expiring held session same =>
    have unconfirmed : s.shared.status ≠ some .pendingUserTransferStart := by
      have update := timely call found
      simpa only [Call.Timely, expiring] using update
    have none (other : Nat) (confirmation : Confirmation) : ¬ Succeeded s' other confirmation := fun succeeded =>
      unconfirmed (sound.stored other confirmation ((same _ _).mp succeeded)).1
    exact ⟨fun first _ one _ left => absurd left (none first one), fun id c succeeded => absurd succeeded (none id c)⟩
  | confirms id input _ call form read tx memo found confirming held session new =>
    have incomplete : s.shared.status = some .incomplete := by
      have update := timely call found
      simpa only [Call.Timely, confirming] using update
    have none (other : Nat) (confirmation : Confirmation) : ¬ Succeeded s other confirmation := by
      intro succeeded
      have confirmed := (sound.stored other confirmation succeeded).1
      simp [incomplete] at confirmed
    refine ⟨?_, ?_⟩
    · intro first second one two left right
      rcases (new _ _).mp left with old | ⟨same, -⟩
      · exact absurd old (none first one)
      · rcases (new _ _).mp right with old | ⟨same', -⟩
        · exact absurd old (none second two)
        · rw [same, same']
    · intro other confirmation succeeded
      rcases (new _ _).mp succeeded with old | ⟨-, rfl⟩
      · exact absurd old (none other confirmation)
      · simp [Database.status, session, Sep24Transaction.confirm, Sep24Transaction.confirmation]

/-- Without a stale update, a confirmed session stays confirmed and an expired one expired. -/
theorem step_final {status : Sep24TransactionStatus}
    (final : status = .pendingUserTransferStart ∨ status = .expired) (here : s.shared.status = some status)
    (timely : NoStaleUpdate s event) : (step (service verifies) s event).shared.status = some status := by
  have all := changes verifies s event
  generalize step (service verifies) s event = s' at all
  cases all with
  | keeps _ _ session same => rw [status_of_session session, here]
  | expires id input _ call tx found expiring held session same =>
    have update := timely call found
    simp only [Call.Timely, expiring, here, ne_eq, Option.some.injEq] at update
    have expired : status = .expired := final.resolve_left update
    simp [Database.status, session, Sep24Transaction.expire, expired]
  | confirms id input _ call form read tx memo found confirming held session new =>
    have update := timely call found
    simp only [Call.Timely, confirming, here, Option.some.injEq] at update
    simp [update] at final

/-- The call has read an incomplete session and may still update it. -/
def Call.Pending (call : Call) : Prop :=
  match call.phase with
  | .checking tx => tx.status = .incomplete
  | .expiring | .confirming .. => True
  | _ => False

/-- A session that some call is about to update was incomplete, so it still is, or it was
expired, or confirmed by a call that succeeded. -/
def Traced (s : State) : Prop :=
  ∀ id call, s.calls.lookup id = some call → call.Pending →
    s.shared.status = some .incomplete ∨ s.shared.status = some .expired ∨
      s.shared.status = some .pendingUserTransferStart ∧ ∃ other confirmation, Succeeded s other confirmation

theorem check_pending {now : Nat} {request : Request} {tx : Sep24Transaction} {memo : String}
    (pending : Call.Pending ⟨request, check now request tx memo⟩) : tx.status = .incomplete := by
  unfold check at pending
  split at pending
  · simp [fail, Call.Pending] at pending
  · rename_i incomplete
    exact not_not.mp incomplete

/-- A call becomes pending by reading an incomplete session. -/
theorem proceed_pending {memo : String} (pending : (proceed verifies db call memo).2.Pending) :
    call.Pending ∨ db.status = some .incomplete := by
  obtain ⟨request, phase⟩ := call
  cases phase with
  | verifying =>
    simp only [proceed] at pending
    split at pending <;> exact pending.elim
  | reading =>
    right
    simp only [proceed] at pending
    cases found : db.session with
    | none =>
      simp only [found] at pending
      exact pending.elim
    | some tx =>
      simp only [found] at pending
      have incomplete : tx.status = .incomplete := pending
      simp [Database.status, found, incomplete]
  | checking tx => exact .inl (check_pending pending)
  | expiring => exact .inl trivial
  | confirming form read memo => exact .inl trivial
  | returned result => exact pending.elim

theorem step_traced (traced : Traced s) : Traced (step (service verifies) s event) := by
  intro id call found pending
  have all := changes verifies s event
  have moves := steps (service verifies) s event
  generalize step (service verifies) s event = s' at all moves found
  cases all with
  | keeps _ _ session same =>
    rw [status_of_session session]
    simp only [same]
    cases moves with
    | idle => exact traced id call found pending
    | begins other request free =>
      rcases lookup_insert_some.mp found with ⟨-, rfl⟩ | ⟨-, old⟩
      · exact pending.elim
      · exact traced id call old pending
    | advances other input mover held =>
      rcases lookup_insert_some.mp found with ⟨rfl, rfl⟩ | ⟨-, old⟩
      · rcases proceed_pending pending with before | incomplete
        · exact traced id mover held before
        · exact .inl incomplete
      · exact traced id call old pending
    | acts ms => exact traced id call found pending
  | expires other input _ mover tx held expiring before session same =>
    right
    left
    simp [Database.status, session, Sep24Transaction.expire]
  | confirms other input _ mover form read tx memo held confirming before session new =>
    right
    right
    refine ⟨by simp [Database.status, session, Sep24Transaction.confirm], other, _, (new _ _).mpr (.inr ⟨rfl, rfl⟩)⟩

theorem after_traced (db : Database) (events : List Step) : Traced (after verifies db events) :=
  run_invariant Traced (fun _ _ traced => step_traced traced)
    (by
      intro id call found
      cases found) events

theorem after_append (db : Database) (before between : List Step) :
    after verifies db (before ++ between) = run (step (service verifies)) (after verifies db before) between :=
  run_append _ before between

theorem after_snoc (db : Database) (before : List Step) (event : Step) :
    after verifies db (before ++ [event]) = step (service verifies) (after verifies db before) event := by
  rw [after_append]
  rfl

theorem succeeded_run {id : Nat} {confirmation : Confirmation} (events : List Step)
    (succeeded : Succeeded s id confirmation) :
    Succeeded (run (step (service verifies)) s events) id confirmation :=
  run_invariant (fun s => Succeeded s id confirmation) (fun _ _ => succeeded_step) succeeded events

theorem sound_fresh (db : Database) : Sound (.fresh db) where
  unique first _ _ _ left := by
    obtain ⟨call, found, -⟩ := left
    cases found
  stored _ _ succeeded := by
    obtain ⟨call, found, -⟩ := succeeded
    cases found

theorem run_final {status : Sep24TransactionStatus} {events : List Step}
    (final : status = .pendingUserTransferStart ∨ status = .expired) (here : s.shared.status = some status)
    (timely : Throughout (step (service verifies)) NoStaleUpdate s events) :
    (run (step (service verifies)) s events).shared.status = some status :=
  run_invariant_of (fun s => s.shared.status = some status) (fun _ _ here => step_final final here) here timely

/-- A stale update breaks the promise where it lands. -/
theorem noStaleUpdate_of_promise {before rest : List Step} (events : List Step)
    (promise : ConfirmedOnce verifies db events) (split : events = before ++ event :: rest) :
    NoStaleUpdate (after verifies db before) event := by
  have regroup : events = before ++ [event] ++ rest := by simp [split]
  cases event with
  | call id request => trivial
  | act ms => trivial
  | advance id input =>
    intro call found
    have traced := after_traced db before id call found
    cases phase : call.phase with
    | expiring =>
      simp only [Call.Timely, phase]
      intro confirmed
      refine promise.confirmedStays before [.advance id input] rest regroup confirmed ?_
      obtain ⟨tx, held, -⟩ := Option.map_eq_some_iff.mp confirmed
      rw [after_snoc, step_advance found]
      simp [service, proceed, phase, held, Database.status, Sep24Transaction.expire]
    | confirming form read memo =>
      simp only [Call.Timely, phase]
      rcases traced (by simp [Call.Pending, phase]) with incomplete | expired | ⟨confirmed, other, one, succeeded⟩
      · exact incomplete
      · exfalso
        refine promise.expiredStays before [.advance id input] rest regroup expired ?_
        obtain ⟨tx, held, -⟩ := Option.map_eq_some_iff.mp expired
        rw [after_snoc, step_advance found]
        simp [service, proceed, phase, held, Database.status, Sep24Transaction.confirm]
      · exfalso
        obtain ⟨tx, held, -⟩ := Option.map_eq_some_iff.mp confirmed
        have mine : Succeeded (after verifies db (before ++ [.advance id input])) id
            (tx.confirm read form memo).confirmation := by
          rw [after_snoc, step_advance found]
          refine succeeded_insert.mpr (.inl ⟨rfl, ?_⟩)
          simp [service, proceed, phase, held, Call.Confirmed]
        have theirs : Succeeded (after verifies db (before ++ [.advance id input])) other one := by
          rw [after_snoc]
          exact succeeded_step succeeded
        have same : other = id := by
          rw [regroup] at promise
          refine promise.once other id one (tx.confirm read form memo).confirmation ?_ ?_ <;> rw [after_append]
          · exact succeeded_run rest theirs
          · exact succeeded_run rest mine
        rw [same, succeeded_of_lookup found] at succeeded
        simp [Call.Confirmed, phase] at succeeded
    | _ => simp [Call.Timely, phase]

/-- The promise holds along a run exactly when no update of the run is stale. -/
theorem confirmedOnce_iff (verifies : Nat → Bool) (db : Database) (events : List Step) :
    ConfirmedOnce verifies db events ↔ Throughout (step (service verifies)) NoStaleUpdate (.fresh db) events := by
  constructor
  · intro promise
    apply throughout_of_at
    intro before event rest split
    exact noStaleUpdate_of_promise events promise split
  · intro timely
    have sound (before rest : List Step) (split : events = before ++ rest) : Sound (after verifies db before) := by
      rw [split] at timely
      exact run_invariant_of Sound (fun _ _ sound => step_sound sound) (sound_fresh db)
        ((throughout_append _ before rest).mp timely).1
    have later (before between rest : List Step) (split : events = before ++ between ++ rest) :
        Throughout (step (service verifies)) NoStaleUpdate (after verifies db before) between := by
      rw [split, List.append_assoc] at timely
      exact ((throughout_append _ between rest).mp ((throughout_append _ before _).mp timely).2).1
    refine ⟨?_, ?_, ?_, ?_⟩
    · exact (sound events [] (by simp)).unique
    · intro before between rest id confirmation split succeeded
      refine ((sound (before ++ between) rest split).stored id confirmation ?_).2
      rw [after_append]
      exact succeeded_run between succeeded
    · intro before between rest split confirmed
      rw [after_append, run_final (.inl rfl) confirmed (later before between rest split)]
      simp
    · intro before between rest split expired
      rw [after_append, run_final (.inr rfl) expired (later before between rest split)]
      simp

/-- An incomplete deposit session until minute thirty. -/
def openSession : Database :=
  ⟨0, some ⟨"tx", "deposit", .incomplete, "G", "USDC", none, none, 1800000, none, none, none, none, none⟩⟩

/-- The token of the session, signed at time zero for thirty minutes. -/
def openToken (now : Nat) : Bool := now / 1000 < 1800

def form : Confirm := ⟨.object [], "bank_transfer", none⟩

/-- Two confirmations that both read the session before either updates it. -/
def overlappingConfirms : List Step :=
  [.call 0 (.confirmInteractiveSession form), .call 1 (.confirmInteractiveSession form),
    .advance 0 "", .advance 1 "", .advance 0 "", .advance 1 "", .advance 0 "aa", .advance 1 "bb",
    .advance 0 "", .advance 1 ""]

def confirmationOf (s : State) (id : Nat) : Option Confirmation :=
  match s.calls.lookup id with
  | some ⟨_, .returned (.ok (.confirmed confirmation))⟩ => some confirmation
  | _ => none

theorem succeeded_of_confirmationOf {id : Nat} {confirmation : Confirmation}
    (returned : confirmationOf s id = some confirmation) : Succeeded s id confirmation := by
  unfold confirmationOf at returned
  split at returned
  · rename_i request other found
    cases returned
    exact ⟨_, found, rfl⟩
  · cases returned

/-- Both confirmations succeed, and the memo that the first returned is not stored. -/
theorem overlapping_confirms_both_succeed :
    let s := after openToken openSession overlappingConfirms
    (∃ one, Succeeded s 0 one ∧ one.memo = some "aa") ∧ (∃ two, Succeeded s 1 two ∧ two.memo = some "bb") ∧
      s.shared.session.bind (·.memo) = some "bb" ∧ ¬ ConfirmedOnce openToken openSession overlappingConfirms := by
  have first : confirmationOf (after openToken openSession overlappingConfirms) 0 =
      some ⟨"tx", .pendingUserTransferStart, "deposit", "USDC", none, some "aa", some "text",
        some "KYC data received. Waiting for on-chain transfer."⟩ := by decide +kernel
  have second : confirmationOf (after openToken openSession overlappingConfirms) 1 =
      some ⟨"tx", .pendingUserTransferStart, "deposit", "USDC", none, some "bb", some "text",
        some "KYC data received. Waiting for on-chain transfer."⟩ := by decide +kernel
  have one := succeeded_of_confirmationOf first
  have two := succeeded_of_confirmationOf second
  refine ⟨⟨_, one, rfl⟩, ⟨_, two, rfl⟩, by decide +kernel, ?_⟩
  intro promise
  exact absurd (promise.once 0 1 _ _ one two) (by decide)

end AfroPay.Sep24
