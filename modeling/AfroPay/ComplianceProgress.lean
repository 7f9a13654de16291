import AfroPay.ComplianceSafety
import Mathlib.Data.Fintype.EquivFin

/-! Which failures of a compliance call strand an action. `approve` writes, counts,
writes again and pushes without a transaction, and only an action that awaits approval
passes the guard of a new call; so an action that has left that state depends on the
calls that are already under way. -/
namespace AfroPay.Compliance
open KeyedStore Runs

/-- The action's job has reached the queue, or the action is rejected. -/
def Settled (s : State) (actionId : Nat) : Prop :=
  (∃ job ∈ s.pushed, job.actionId = actionId) ∨
    ∃ row, s.actions.lookup actionId = some row ∧ row.status = .rejected

/-- Some further calls and steps dispatch or reject the action. -/
def Recoverable (network : Network) (s : State) (actionId : Nat) : Prop :=
  ∃ later, Settled (run (step network) s later) actionId

/-- The call is past its guard and dispatches or rejects the action if nothing stops it. -/
def Call.carries (s : State) (actionId : Nat) (call : Call) : Prop :=
  match call.phase with
  | .findApproval target _ | .insertApproval target _ =>
    target = actionId ∧ s.approvals.lookup (actionId, call.officerId) = none
  | .countApprovals target _ | .markApproved target _ | .dispatch target _ | .markRejected target =>
    target = actionId
  | _ => False

def Pending (s : State) (actionId : Nat) : Prop :=
  ∃ row, s.actions.lookup actionId = some row ∧ row.status = .pendingApproval

/-- The action was approved, its job never reached the queue, and no call carries it. -/
structure Stranded (s : State) (actionId : Nat) : Prop where
  issued : Issued s
  found : ∃ row, s.actions.lookup actionId = some row
  unsettled : ¬ Settled s actionId
  unpending : ¬ Pending s actionId
  uncarried : ∀ id call, s.calls.lookup id = some call → ¬ call.carries s actionId

/-- Nothing new carries an action that no longer awaits approval. -/
theorem Proceeds.carried {network : Network} {s base : State} {id actionId : Nat} {call next : Call}
    (proceeds : Proceeds network s id call outcome base next) (unpending : ¬ Pending s actionId)
    (carries : next.carries (base.place id next) actionId) : call.carries s actionId := by
  cases proceeds with
  | admits row next admin first => rcases first with rfl | rfl <;> cases carries
  | loads target row loading found guard approving =>
    obtain ⟨rfl, -⟩ := carries
    exact absurd ⟨row, found, guard⟩ unpending
  | objects target row loading found guard =>
    cases carries
    exact absurd ⟨row, found, guard⟩ unpending
  | absent target row finding unsigned =>
    obtain ⟨rfl, -⟩ := carries
    simp [Call.carries, finding, unsigned]
  | signs target unsigned signing =>
    rcases signing with ⟨-, rfl⟩ | ⟨row, inserting, rfl⟩
    · cases carries
    · cases carries
      simp [Call.carries, inserting, unsigned]
  | counts target row counting enough =>
    cases carries
    simp [Call.carries, counting]
  | approves target row held marking found =>
    cases carries
    simp [Call.carries, marking]
  | _ => cases carries

theorem Call.carries_grows {s after : State} {call : Call} {actionId : Nat} (grows : Grows s after)
    (carries : call.carries after actionId) : call.carries s actionId := by
  have unsigned : after.approvals.lookup (actionId, call.officerId) = none →
      s.approvals.lookup (actionId, call.officerId) = none := by
    intro absent
    cases signed : s.approvals.lookup (actionId, call.officerId) with
    | none => rfl
    | some signer => cases absent.symm.trans (grows.approvals _ signer signed)
  obtain ⟨officerId, operation, user, phase⟩ := call
  cases phase with
  | findApproval target row => exact ⟨carries.1, unsigned carries.2⟩
  | insertApproval target row => exact ⟨carries.1, unsigned carries.2⟩
  | _ => exact carries

/-- Only a carrying call rejects an action or gets its job to the queue. -/
theorem Steps.settles {network : Network} {s after : State} {actionId : Nat}
    (steps : Steps network s event after) (issued : Issued s)
    (found : ∃ row, s.actions.lookup actionId = some row) (settled : Settled after actionId) :
    Settled s actionId ∨ ∃ id call, s.calls.lookup id = some call ∧ call.carries s actionId := by
  obtain ⟨row, lookup⟩ := found
  rcases settled with ⟨job, member, rfl⟩ | ⟨later, stored, rejected⟩
  · cases steps with
    | proceeded id call next base found proceeds =>
      cases proceeds with
      | pushes target held dispatching =>
        rcases List.mem_cons.mp member with rfl | old
        · exact .inr ⟨id, call, found, by simp [Call.carries, dispatching, newJob]⟩
        · exact .inl (.inl ⟨job, old, rfl⟩)
      | _ => exact .inl (.inl ⟨job, member, rfl⟩)
    | _ => exact .inl (.inl ⟨job, member, rfl⟩)
  · obtain ⟨same, stored', -, change⟩ := steps.status issued lookup
    cases stored.symm.trans stored'
    rcases change with kept | ⟨id, call, -, found, writes⟩
    · exact .inl (.inr ⟨row, lookup, kept.symm.trans rejected⟩)
    · rw [rejected] at writes
      refine .inr ⟨id, call, found, ?_⟩
      obtain ⟨officerId, operation, user, phase⟩ := call
      cases phase with
      | markRejected target => cases writes; rfl
      | markResult target txHash succeeded => cases succeeded <;> cases writes
      | _ => cases writes

theorem Stranded.steps {network : Network} {s after : State} {actionId : Nat}
    (stranded : Stranded s actionId) (steps : Steps network s event after) : Stranded after actionId := by
  have grows := steps.grows stranded.issued
  obtain ⟨row, lookup⟩ := stranded.found
  refine ⟨stranded.issued.steps steps, ?_, ?_, ?_, ?_⟩
  · obtain ⟨later, stored, -⟩ := grows.actions actionId row lookup
    exact ⟨later, stored⟩
  · intro settled
    rcases steps.settles stranded.issued stranded.found settled with before | ⟨id, call, found, carries⟩
    · exact stranded.unsettled before
    · exact stranded.uncarried id call found carries
  · rintro ⟨later, stored, pending⟩
    obtain ⟨same, stored', -, change⟩ := steps.status stranded.issued lookup
    cases stored.symm.trans stored'
    rcases change with kept | ⟨id, call, -, found, writes⟩
    · exact stranded.unpending ⟨row, lookup, kept.symm.trans pending⟩
    · exact Phase.writes_ne_pending writes pending
  · have others : ∀ id call, s.calls.lookup id = some call → ¬ call.carries after actionId :=
      fun id call found carries => stranded.uncarried id call found (Call.carries_grows grows carries)
    cases steps with
    | idle => exact stranded.uncarried
    | requested id officerId operation fresh =>
      intro other call stored carries
      obtain ⟨-, rfl⟩ | ⟨-, old⟩ := lookup_insert_some.mp stored
      · cases operation <;> cases carries
      · exact others other call old carries
    | proceeded id call next base found proceeds =>
      intro other held stored carries
      obtain ⟨-, rfl⟩ | ⟨-, old⟩ := lookup_insert_some.mp stored
      · exact stranded.uncarried id call found (proceeds.carried stranded.unpending carries)
      · exact others other held (proceeds.kept.1 ▸ old) carries
    | crashed id call found =>
      intro other held stored carries
      obtain ⟨-, rfl⟩ | ⟨-, old⟩ := lookup_insert_some.mp stored
      · cases carries
      · exact others other held old carries

/-- No sequence of calls brings a stranded action to its end. -/
theorem Stranded.unrecoverable {network : Network} {s : State} {actionId : Nat}
    (stranded : Stranded s actionId) : ¬ Recoverable network s actionId := by
  rintro ⟨later, settled⟩
  have final := run_invariant (fun reached => Stranded reached actionId)
    (fun reached event held => held.steps (step_cases network reached event)) stranded later
  exact final.unsettled settled

theorem Recoverable.before {network : Network} {s : State} {actionId : Nat} (event : Event)
    (recoverable : Recoverable network (step network s event) actionId) : Recoverable network s actionId := by
  obtain ⟨later, settled⟩ := recoverable
  exact ⟨event :: later, settled⟩

section Carrying
variable {network : Network} {s : State} {id actionId : Nat} {call : Call} {row held : Action}

private theorem step_proceed (found : s.calls.lookup id = some call) (outcome : Outcome) :
    step network s (.proceed id outcome) = callStep network s id call outcome := by
  simp only [step, found]

theorem dispatching_recovers (found : s.calls.lookup id = some call)
    (dispatching : call.phase = .dispatch actionId row) : Recoverable network s actionId := by
  refine ⟨[.proceed id .done], .inl ⟨newJob network actionId row, ?_, rfl⟩⟩
  rw [run_cons, run_nil, step_proceed found]
  simp [callStep, dispatching, State.become]

theorem marking_recovers (found : s.calls.lookup id = some call)
    (marking : call.phase = .markApproved actionId row) (stored : s.actions.lookup actionId = some held) :
    Recoverable network s actionId := by
  apply Recoverable.before (.proceed id .done)
  rw [step_proceed found]
  have moved : (callStep network s id call .done).calls.lookup id =
      some { call with phase := .dispatch actionId row } := by
    simp [callStep, marking, State.update, stored, State.become]
  exact dispatching_recovers moved rfl

theorem counting_recovers (found : s.calls.lookup id = some call)
    (counting : call.phase = .countApprovals actionId row) (stored : s.actions.lookup actionId = some held)
    (enough : requiredComplianceApprovals ≤ (s.approvers actionId).length) : Recoverable network s actionId := by
  apply Recoverable.before (.proceed id .done)
  have counted : step network s (.proceed id .done) = s.become id call (.markApproved actionId row) := by
    rw [step_proceed found]
    simp [callStep, counting, enough]
  have moved : (s.become id call (.markApproved actionId row)).calls.lookup id =
      some { call with phase := .markApproved actionId row } := AList.lookup_insert _
  rw [counted]
  exact marking_recovers moved rfl stored

theorem inserting_recovers (issued : Issued s) (found : s.calls.lookup id = some call)
    (inserting : call.phase = .insertApproval actionId row) (stored : s.actions.lookup actionId = some held)
    (unsigned : s.approvals.lookup (actionId, call.officerId) = none)
    (enough : requiredComplianceApprovals ≤ (s.approvers actionId).length) : Recoverable network s actionId := by
  have grows := (step_cases network s (.proceed id .done)).grows issued
  apply Recoverable.before (.proceed id .done)
  obtain ⟨later, stored', -⟩ := grows.actions actionId held stored
  have moved : (step network s (.proceed id .done)).calls.lookup id =
      some { call with phase := .countApprovals actionId row } := by
    rw [step_proceed found]
    simp [callStep, inserting, State.sign, unsigned, State.become]
  exact counting_recovers moved rfl stored' (enough.trans (grows.approvers actionId))

theorem finding_recovers (issued : Issued s) (found : s.calls.lookup id = some call)
    (finding : call.phase = .findApproval actionId row) (stored : s.actions.lookup actionId = some held)
    (unsigned : s.approvals.lookup (actionId, call.officerId) = none)
    (enough : requiredComplianceApprovals ≤ (s.approvers actionId).length) : Recoverable network s actionId := by
  apply Recoverable.before (.proceed id .done)
  have looked : step network s (.proceed id .done) = s.become id call (.insertApproval actionId row) := by
    rw [step_proceed found]
    simp [callStep, finding, unsigned]
  have moved : (s.become id call (.insertApproval actionId row)).calls.lookup id =
      some { call with phase := .insertApproval actionId row } := AList.lookup_insert _
  rw [looked]
  exact inserting_recovers issued moved rfl stored unsigned enough

theorem rejecting_recovers (found : s.calls.lookup id = some call)
    (marking : call.phase = .markRejected actionId) (stored : s.actions.lookup actionId = some held) :
    Recoverable network s actionId := by
  refine ⟨[.proceed id .done], .inr ⟨{ held with status := .rejected }, ?_, rfl⟩⟩
  rw [run_cons, run_nil, step_proceed found]
  simp [callStep, marking, State.update, stored, State.become]

/-- Any administrator can still reject an action that awaits approval. -/
theorem pending_recovers (pending : Pending s actionId) : Recoverable network s actionId := by
  obtain ⟨row, stored, awaiting⟩ := pending
  obtain ⟨fresh, unused⟩ := Infinite.exists_notMem_finset s.calls.keys.toFinset
  have absent : s.calls.lookup fresh = none := by
    simpa [AList.lookup_eq_none, AList.mem_keys] using unused
  let events : List Event := [.request fresh "officer" (.reject actionId),
    .proceed fresh (.user (some ⟨.admin, none⟩)), .proceed fresh .done]
  have moved : (run (step network) s events).calls.lookup fresh =
      some ⟨"officer", .reject actionId, some ⟨.admin, none⟩, .markRejected actionId⟩ := by
    simp [events, step, absent, Operation.first, callStep, isAdmin, State.become, Operation.actionId, stored,
      loaded, awaiting]
  have kept : (run (step network) s events).actions.lookup actionId = some row := by
    simp [events, step, absent, Operation.first, callStep, isAdmin, State.become, Operation.actionId, stored]
  have rejectable : Recoverable network (run (step network) s events) actionId :=
    rejecting_recovers moved rfl kept
  obtain ⟨later, settled⟩ := rejectable
  exact ⟨events ++ later, run_append s events later ▸ settled⟩

end Carrying

/-- The action whose threshold the call has seen met, or whose approval it has seen. -/
def Phase.afterCount : Phase → Option Nat
  | .markApproved actionId _ | .dispatch actionId _ | .markExecuting actionId | .markResult actionId _ _ =>
    some actionId
  | _ => none

/-- An action that was approved, and one that a call approves or reports on, has its
approvals. -/
structure Counted (s : State) : Prop where
  issued : Issued s
  rows : ∀ actionId row, s.actions.lookup actionId = some row →
    row.status = .pendingApproval ∨ row.status = .rejected ∨
      requiredComplianceApprovals ≤ (s.approvers actionId).length
  calls : ∀ id call actionId, s.calls.lookup id = some call → call.phase.afterCount = some actionId →
    requiredComplianceApprovals ≤ (s.approvers actionId).length

theorem Phase.writes_afterCount {phase : Phase} {actionId : Nat} {status : Status}
    (writes : phase.writes = some (actionId, status)) :
    status = .rejected ∨ phase.afterCount = some actionId := by
  cases phase with
  | markRejected target => cases writes; exact .inl rfl
  | markApproved target row => cases writes; exact .inr rfl
  | markExecuting target => cases writes; exact .inr rfl
  | markResult target txHash succeeded => cases writes; exact .inr rfl
  | _ => cases writes

theorem Counted.rows_steps {network : Network} {s after : State} (counted : Counted s)
    (steps : Steps network s event after) (actionId : Nat) (later : Action)
    (stored : after.actions.lookup actionId = some later) : later.status = .pendingApproval ∨
      later.status = .rejected ∨ requiredComplianceApprovals ≤ (after.approvers actionId).length := by
  have more := (steps.grows counted.issued).approvers actionId
  cases found : s.actions.lookup actionId with
  | none => exact .inl (steps.fresh found stored)
  | some row =>
    obtain ⟨same, stored', -, change⟩ := steps.status counted.issued found
    cases stored.symm.trans stored'
    rcases change with kept | ⟨id, call, -, lookup, writes⟩
    · rw [kept]
      exact (counted.rows actionId row found).imp_right (Or.imp_right more.trans')
    · rcases Phase.writes_afterCount writes with rejected | passed
      · exact .inr (.inl rejected)
      · exact .inr (.inr ((counted.calls id call actionId lookup passed).trans more))

/-- Only counting the approvals, or reading an approved row, commits a call. -/
theorem Proceeds.afterCount {network : Network} {s base : State} {id actionId : Nat} {call next : Call}
    (proceeds : Proceeds network s id call outcome base next) (counted : Counted s)
    (found : s.calls.lookup id = some call) (passed : next.phase.afterCount = some actionId) :
    requiredComplianceApprovals ≤ (s.approvers actionId).length := by
  cases proceeds with
  | admits row next admin first => rcases first with rfl | rfl <;> cases passed
  | signs target unsigned signing => rcases signing with ⟨-, rfl⟩ | ⟨row, -, rfl⟩ <;> cases passed
  | counts target row counting enough =>
    cases passed
    exact enough
  | reports target row txHash succeeded loading stored guard =>
    cases passed
    rcases counted.rows actionId row stored with pending | rejected | enough
    · simp [pending] at guard
    · simp [rejected] at guard
    · exact enough
  | approves target row held marking stored =>
    cases passed
    exact counted.calls id call actionId found (by simp [marking, Phase.afterCount])
  | pushes target row dispatching =>
    cases passed
    exact counted.calls id call actionId found (by simp [dispatching, Phase.afterCount])
  | _ => cases passed

theorem Counted.steps {network : Network} {s after : State} (counted : Counted s)
    (steps : Steps network s event after) : Counted after := by
  have grows := steps.grows counted.issued
  refine ⟨counted.issued.steps steps, counted.rows_steps steps, ?_⟩
  intro id call actionId stored passed
  refine le_trans ?_ (grows.approvers actionId)
  cases steps with
  | idle => exact counted.calls id call actionId stored passed
  | requested fresh officerId operation absent =>
    obtain ⟨-, rfl⟩ | ⟨-, old⟩ := lookup_insert_some.mp stored
    · cases operation <;> cases passed
    · exact counted.calls id call actionId old passed
  | proceeded moved held next base found proceeds =>
    obtain ⟨-, rfl⟩ | ⟨-, old⟩ := lookup_insert_some.mp stored
    · exact proceeds.afterCount counted found passed
    · exact counted.calls id call actionId (proceeds.kept.1 ▸ old) passed
  | crashed gone held found =>
    obtain ⟨-, rfl⟩ | ⟨-, old⟩ := lookup_insert_some.mp stored
    · cases passed
    · exact counted.calls id call actionId old passed

theorem counted_run (network : Network) (events : List Event) :
    Counted (run (step network) State.empty events) :=
  run_invariant Counted (fun s event counted => counted.steps (step_cases network s event))
    (by constructor <;> simp [State.empty, Issued]) events

/-- A call that carries an approved action can finish it. -/
theorem carrying_recovers {network : Network} {s : State} {id actionId : Nat} {call : Call} {row : Action}
    (counted : Counted s) (stored : s.actions.lookup actionId = some row)
    (unpending : ¬ Pending s actionId) (unsettled : ¬ Settled s actionId)
    (found : s.calls.lookup id = some call) (carries : call.carries s actionId) :
    Recoverable network s actionId := by
  have enough : requiredComplianceApprovals ≤ (s.approvers actionId).length := by
    rcases counted.rows actionId row stored with pending | rejected | enough
    · exact absurd ⟨row, stored, pending⟩ unpending
    · exact absurd (.inr ⟨row, stored, rejected⟩) unsettled
    · exact enough
  obtain ⟨officerId, operation, user, phase⟩ := call
  cases phase with
  | findApproval target held =>
    obtain ⟨rfl, unsigned⟩ := carries
    exact finding_recovers counted.issued found rfl stored unsigned enough
  | insertApproval target held =>
    obtain ⟨rfl, unsigned⟩ := carries
    exact inserting_recovers counted.issued found rfl stored unsigned enough
  | countApprovals target held =>
    cases carries
    exact counting_recovers found rfl stored enough
  | markApproved target held =>
    cases carries
    exact marking_recovers found rfl stored
  | dispatch target held =>
    cases carries
    exact dispatching_recovers found rfl
  | markRejected target =>
    cases carries
    exact rejecting_recovers found rfl stored
  | _ => cases carries

/-- In every reachable state, an action can still be dispatched or rejected exactly if
that has happened, it awaits approval, or a call carries it. -/
theorem recoverable_iff {network : Network} {s : State} {actionId : Nat} {row : Action} (counted : Counted s)
    (stored : s.actions.lookup actionId = some row) : Recoverable network s actionId ↔
      Settled s actionId ∨ Pending s actionId ∨
        ∃ id call, s.calls.lookup id = some call ∧ call.carries s actionId := by
  constructor
  · intro recoverable
    by_contra none
    simp only [not_or, not_exists, not_and] at none
    obtain ⟨unsettled, unpending, uncarried⟩ := none
    exact Stranded.unrecoverable ⟨counted.issued, ⟨row, stored⟩, unsettled, unpending, uncarried⟩ recoverable
  · rintro (settled | pending | ⟨id, call, found, carries⟩)
    · exact ⟨[], settled⟩
    · exact pending_recovers pending
    · by_cases settled : Settled s actionId
      · exact ⟨[], settled⟩
      by_cases pending : Pending s actionId
      · exact pending_recovers pending
      · exact carrying_recovers counted stored pending settled found carries

/-- The call that an event fails: its database call or push fails, or it crashes. -/
def failing : Event → Option Nat
  | .proceed id .failed | .crash id => some id
  | _ => none

/-- A failing step ends its call and changes nothing that is stored. -/
theorem step_failing (network : Network) (s : State) {event : Event} {id : Nat}
    (failure : failing event = some id) :
    (s.calls.lookup id = none ∧ step network s event = s) ∨
      ∃ held handed, s.calls.lookup id = some held ∧
        step network s event = State.place { s with handed } id { held with phase := .gone } := by
  cases event with
  | request fresh officerId operation => cases failure
  | crash gone =>
    cases failure
    cases found : s.calls.lookup id with
    | none => exact .inl ⟨rfl, by simp [step, found]⟩
    | some held => exact .inr ⟨held, s.handed, rfl, by simp [step, found, State.become, State.place]⟩
  | proceed moved outcome =>
    cases outcome with
    | failed =>
      cases failure
      cases found : s.calls.lookup id with
      | none => exact .inl ⟨rfl, by simp [step, found]⟩
      | some held =>
        obtain ⟨officerId, operation, user, phase⟩ := held
        have stepped : step network s (.proceed id .failed) = _ := step_proceed found .failed
        cases phase with
        | dispatch actionId row => exact .inr ⟨_, newJob network actionId row :: s.handed, rfl, stepped⟩
        | _ => exact .inr ⟨_, s.handed, rfl, stepped⟩
    | _ => cases failure

/-- After the failure of a call an action can still be dispatched or rejected exactly
if that has happened, it awaits approval, or a call other than the failed one carries
it: what `execute` has marked `APPROVED` and failed to push is stranded otherwise. -/
theorem recoverable_after_failure_iff (network : Network) (events : List Event) (event : Event) (id : Nat)
    (failure : failing event = some id) (actionId : Nat) (row : Action)
    (stored : (run (step network) State.empty events).actions.lookup actionId = some row) :
    let s := run (step network) State.empty events
    Recoverable network (step network s event) actionId ↔
      Settled s actionId ∨ Pending s actionId ∨
        ∃ other call, other ≠ id ∧ s.calls.lookup other = some call ∧ call.carries s actionId := by
  intro s
  have counted : Counted s := counted_run network events
  have after : Counted (step network s event) := counted.steps (step_cases network s event)
  rcases step_failing network s failure with ⟨absent, same⟩ | ⟨held, handed, found, same⟩
  · rw [same, recoverable_iff counted stored]
    refine or_congr_right (or_congr_right (exists_congr fun other => exists_congr fun call => ?_))
    refine ⟨fun carried => ⟨?_, carried⟩, And.right⟩
    rintro rfl
    cases absent.symm.trans carried.1
  · rw [same] at after ⊢
    rw [recoverable_iff after stored]
    refine or_congr_right (or_congr_right (exists_congr fun other => exists_congr fun call => ?_))
    constructor
    · rintro ⟨lookup, carries⟩
      obtain ⟨-, rfl⟩ | ⟨distinct, old⟩ := lookup_insert_some.mp lookup
      · cases carries
      · exact ⟨distinct, old, carries⟩
    · rintro ⟨distinct, lookup, carries⟩
      exact ⟨(AList.lookup_insert_ne distinct).trans lookup, carries⟩

/-- The second officer's approval fails to be counted: the action still awaits approval
and can be rejected. -/
theorem uncounted_approval_recoverable :
    failing (.proceed 1 .failed) = some 1 ∧
    Recoverable .testnet (step .testnet (run (step .testnet) State.empty
      (requestsFreeze 0 "o1" ++ approvesUncounted 1 "o2" 0)) (.proceed 1 .failed)) 0 := by
  have stored : (run (step .testnet) State.empty
      (requestsFreeze 0 "o1" ++ approvesUncounted 1 "o2" 0)).actions.lookup 0 =
      some (newAction "o1" .freeze ⟨"GTARGET", "USDC", some "GISSUER", none, none⟩) := by decide +kernel
  exact ⟨rfl, (recoverable_after_failure_iff .testnet _ (.proceed 1 .failed) 1 rfl 0 _ stored).mpr
    (.inr (.inl ⟨_, stored, rfl⟩))⟩

/-- The push fails after `APPROVED` is written: no call can approve, reject or dispatch
the action again. -/
theorem failed_push_strands_action :
    ¬ ∀ (network : Network) (events : List Event) (event : Event) (id : Nat) (actionId : Nat) (row : Action),
      failing event = some id → (run (step network) State.empty events).actions.lookup actionId = some row →
        Recoverable network (step network (run (step network) State.empty events) event) actionId := by
  intro recoverable
  let events : List Event := requestsFreeze 0 "o1" ++ approvesUncounted 1 "o2" 0 ++
    List.replicate 2 (.proceed 1 .done)
  let s := run (step .testnet) State.empty (events ++ [.proceed 1 .failed])
  let row : Action := { newAction "o1" .freeze ⟨"GTARGET", "USDC", some "GISSUER", none, none⟩ with
    status := .approved }
  have before : (run (step .testnet) State.empty events).actions.lookup 0 = some row := by decide +kernel
  have stored : s.actions.lookup 0 = some row := by decide +kernel
  have counted : Counted s := counted_run .testnet _
  have left : Recoverable .testnet s 0 := by
    have after := recoverable .testnet events (.proceed 1 .failed) 1 0 row rfl before
    simpa only [s, run_append, run_cons, run_nil] using after
  rcases (recoverable_iff counted stored).mp left with settled | pending | ⟨id, call, found, carries⟩
  · rcases settled with ⟨job, member, -⟩ | ⟨held, lookup, rejected⟩
    · have none : s.pushed = [] := by decide +kernel
      rw [none] at member
      cases member
    · cases stored.symm.trans lookup
      cases rejected
  · obtain ⟨held, lookup, awaiting⟩ := pending
    cases stored.symm.trans lookup
    cases awaiting
  · have ended : ∀ entry ∈ s.calls.entries, entry.2.phase = .gone ∨ entry.2.phase = .getAction := by
      decide +kernel
    have phase : call.phase = .gone ∨ call.phase = .getAction := ended ⟨id, call⟩ (AList.mem_lookup_iff.mp found)
    rcases phase with gone | finished
    · simp [Call.carries, gone] at carries
    · simp [Call.carries, finished] at carries

end AfroPay.Compliance
