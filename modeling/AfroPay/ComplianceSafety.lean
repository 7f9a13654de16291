import AfroPay.ComplianceSteps
import Mathlib.Algebra.Order.Ring.Int

/-! What the compliance service keeps over every interleaving of its calls. The
two-officer rule holds outright: approvals are unique by construction and never
removed. Dispatching once and moving only forward hold as long as a status write
still finds what its call had checked. -/
namespace AfroPay.Compliance
open KeyedStore Runs

/-- The action a call has loaded and still works on. -/
def Phase.loadedRow : Phase → Option (Nat × Action)
  | .findApproval actionId row | .insertApproval actionId row | .countApprovals actionId row
  | .markApproved actionId row | .dispatch actionId row => some (actionId, row)
  | _ => none

/-- The action for which the call has seen the threshold met. -/
def Phase.passed : Phase → Option Nat
  | .markApproved actionId _ | .dispatch actionId _ => some actionId
  | _ => none

/-- The call signs approvals, or will if nothing stops it. -/
def Call.signs (call : Call) : Bool :=
  match call.phase, call.operation with
  | .createAction, _ | .firstApproval _, _ | .findApproval _ _, _ | .insertApproval _ _, _ => true
  | .loadAction, .approve _ => true
  | _, _ => false

/-- What a call may rely on: its officer was admitted if it signs, the row it has
loaded is still that action, and a threshold it has seen met stays met. -/
structure CallSound (s : State) (call : Call) : Prop where
  admitted : call.signs → isAdmin call.user
  row : ∀ actionId row, call.phase.loadedRow = some (actionId, row) →
    ∃ held, s.actions.lookup actionId = some held ∧ SameAction row held
  counted : ∀ actionId, call.phase.passed = some actionId →
    requiredComplianceApprovals ≤ (s.approvers actionId).length

theorem CallSound.grows {s after : State} {call : Call} (sound : CallSound s call) (grows : Grows s after) :
    CallSound after call where
  admitted := sound.admitted
  row := by
    intro actionId row loaded
    obtain ⟨held, found, same⟩ := sound.row actionId row loaded
    obtain ⟨later, lookup, same'⟩ := grows.actions actionId held found
    exact ⟨later, lookup, same.trans same'⟩
  counted actionId passed := (sound.counted actionId passed).trans (grows.approvers actionId)

/-- A call that neither signs nor holds an action relies on nothing. -/
private theorem CallSound.resting {s : State} {call : Call} (unsigned : call.signs = false)
    (unloaded : call.phase.loadedRow = none) (unpassed : call.phase.passed = none) : CallSound s call :=
  ⟨by simp [unsigned], by simp [unloaded], by simp [unpassed]⟩

/-- Every call is sound, and every approval was signed by an admitted officer. -/
structure Sound (s : State) : Prop where
  issued : Issued s
  calls : ∀ id call, s.calls.lookup id = some call → CallSound s call
  approvals : ∀ actionId officer signer, s.approvals.lookup (actionId, officer) = some signer →
    ∃ call, s.calls.lookup signer = some call ∧ call.officerId = officer ∧ isAdmin call.user

theorem sound_empty : Sound State.empty := by
  constructor <;> simp [State.empty, Issued]

theorem Proceeds.sound {network : Network} {s base : State} {id : Nat} {call next : Call}
    (proceeds : Proceeds network s id call outcome base next) (grows : Grows s (base.place id next))
    (sound : CallSound s call) : CallSound (base.place id next) next := by
  have later := sound.grows grows
  cases proceeds with
  | leaves => exact .resting rfl rfl rfl
  | finishes => exact .resting rfl rfl rfl
  | admits row next admin first =>
    refine ⟨fun _ => admin, ?_, ?_⟩ <;> rcases first with rfl | rfl <;>
      simp [Phase.loadedRow, Phase.passed]
  | creates type dto creating =>
    exact ⟨fun _ => sound.admitted (by simp [Call.signs, creating]), by simp [Phase.loadedRow],
      by simp [Phase.passed]⟩
  | loads actionId row loading found guard approving =>
    refine ⟨fun _ => sound.admitted (by simp [Call.signs, loading, approving]), ?_, by simp [Phase.passed]⟩
    rintro _ _ ⟨⟩
    exact ⟨row, found, rfl⟩
  | objects => exact .resting rfl rfl rfl
  | reports => exact .resting rfl rfl rfl
  | absent actionId row finding =>
    refine ⟨fun _ => sound.admitted (by simp [Call.signs, finding]), ?_, by simp [Phase.passed]⟩
    rintro _ _ ⟨⟩
    exact later.row actionId row (by simp [finding, Phase.loadedRow])
  | signs actionId unsigned signing =>
    rcases signing with ⟨-, rfl⟩ | ⟨row, inserting, rfl⟩
    · exact .resting rfl rfl rfl
    · refine ⟨by simp [Call.signs], ?_, by simp [Phase.passed]⟩
      rintro _ _ ⟨⟩
      exact later.row actionId row (by simp [inserting, Phase.loadedRow])
  | counts actionId row counting enough =>
    refine ⟨by simp [Call.signs], ?_, ?_⟩
    · rintro _ _ ⟨⟩
      exact later.row actionId row (by simp [counting, Phase.loadedRow])
    · rintro _ ⟨⟩
      exact enough
  | approves actionId row held marking found =>
    refine ⟨by simp [Call.signs], ?_, ?_⟩
    · rintro _ _ ⟨⟩
      exact later.row actionId row (by simp [marking, Phase.loadedRow])
    · rintro _ ⟨⟩
      exact later.counted actionId (by simp [marking, Phase.passed])
  | pushes => exact .resting rfl rfl rfl
  | drops => exact .resting rfl rfl rfl
  | executes => exact .resting rfl rfl rfl
  | rejects => exact .resting rfl rfl rfl
  | records => exact .resting rfl rfl rfl

theorem Sound.approval_kept {s after : State} (sound : Sound s) (grows : Grows s after) (actionId : Nat)
    (officer : String) (signer : Nat) (signed : s.approvals.lookup (actionId, officer) = some signer) :
    ∃ call, after.calls.lookup signer = some call ∧ call.officerId = officer ∧ isAdmin call.user := by
  obtain ⟨call, found, same, admin⟩ := sound.approvals actionId officer signer signed
  obtain ⟨later, lookup, officer', admin'⟩ := grows.calls signer call found
  exact ⟨later, lookup, officer'.trans same, admin' admin⟩

/-- An approval that is new after a step was signed by the call that took it. -/
private theorem Sound.approval_of {network : Network} {s base : State} {id : Nat} {call next : Call}
    (sound : Sound s) (grows : Grows s (base.place id next)) (found : s.calls.lookup id = some call)
    (proceeds : Proceeds network s id call outcome base next) (actionId : Nat) (officer : String) (signer : Nat)
    (lookup : (base.place id next).approvals.lookup (actionId, officer) = some signer) :
    ∃ held, (base.place id next).calls.lookup signer = some held ∧ held.officerId = officer ∧
      isAdmin held.user := by
  cases proceeds with
  | signs target unsigned signing =>
    obtain ⟨same, rfl⟩ | ⟨-, old⟩ := lookup_insert_some.mp lookup
    · cases same
      refine ⟨_, AList.lookup_insert _, rfl, (sound.calls id call found).admitted ?_⟩
      rcases signing with ⟨phase, -⟩ | ⟨row, phase, -⟩ <;> simp [Call.signs, phase]
    · exact sound.approval_kept grows actionId officer signer old
  | _ => exact sound.approval_kept grows actionId officer signer lookup

theorem Sound.steps {network : Network} {s after : State} (sound : Sound s)
    (steps : Steps network s event after) : Sound after := by
  have grows := steps.grows sound.issued
  have issued := sound.issued.steps steps
  have others : ∀ id call, s.calls.lookup id = some call → CallSound after call :=
    fun id call found => (sound.calls id call found).grows grows
  have kept := sound.approval_kept grows
  cases steps with
  | idle => exact sound
  | requested id officerId operation fresh =>
    refine ⟨issued, ?_, kept⟩
    intro other call lookup
    obtain ⟨-, rfl⟩ | ⟨-, old⟩ := lookup_insert_some.mp lookup
    · cases operation <;> exact .resting rfl rfl rfl
    · exact others other call old
  | proceeded id call next base found proceeds =>
    refine ⟨issued, ?_, sound.approval_of grows found proceeds⟩
    intro other held lookup
    obtain ⟨-, rfl⟩ | ⟨-, old⟩ := lookup_insert_some.mp lookup
    · exact proceeds.sound grows (sound.calls id call found)
    · exact others other held (proceeds.kept.1 ▸ old)
  | crashed id call found =>
    refine ⟨issued, ?_, kept⟩
    intro other held lookup
    obtain ⟨-, rfl⟩ | ⟨-, old⟩ := lookup_insert_some.mp lookup
    · exact .resting rfl rfl rfl
    · exact others other held old

theorem sound_run (network : Network) (events : List Event) :
    Sound (run (step network) State.empty events) :=
  run_invariant Sound (fun s event sound => sound.steps (step_cases network s event)) sound_empty events

theorem dispatches_some {network : Network} {s : State} {event : Event} {job : ComplianceJobPayload Nat}
    (handed : dispatches network s event = some job) :
    ∃ id call row, s.calls.lookup id = some call ∧ call.phase = .dispatch job.actionId row ∧
      job = newJob network job.actionId row := by
  cases event with
  | proceed id outcome =>
    simp only [dispatches] at handed
    split at handed
    · rename_i officerId operation user actionId row found
      cases handed
      exact ⟨id, _, row, found, rfl, rfl⟩
    · cases handed
  | _ => cases handed

/-- Whenever a job is handed to the executor, over every interleaving and crash
pattern, at least two distinct officers have approved its action, each in a call
whose officer `assertAdmin` accepted, and the job is that of the action's row at
any time since it was created. -/
theorem two_officer_rule (network : Network) (events : List Event) (event : Event)
    (job : ComplianceJobPayload Nat)
    (handed : dispatches network (run (step network) State.empty events) event = some job) :
    let s := run (step network) State.empty events
    (s.approvers job.actionId).Nodup ∧
    requiredComplianceApprovals ≤ (s.approvers job.actionId).length ∧
    (∀ officer ∈ s.approvers job.actionId, ∃ signer call,
      s.approvals.lookup (job.actionId, officer) = some signer ∧ s.calls.lookup signer = some call ∧
        call.officerId = officer ∧ isAdmin call.user) ∧
    (∃ row, s.actions.lookup job.actionId = some row) ∧
    ∀ early late row, events = early ++ late →
      (run (step network) State.empty early).actions.lookup job.actionId = some row →
        job = newJob network job.actionId row := by
  intro s
  have sound : Sound s := sound_run network events
  obtain ⟨id, call, row, found, dispatching, built⟩ := dispatches_some handed
  have mine := sound.calls id call found
  obtain ⟨held, stored, same⟩ := mine.row job.actionId row (by simp [dispatching, Phase.loadedRow])
  refine ⟨approvers_nodup s _, mine.counted _ (by simp [dispatching, Phase.passed]), ?_, ⟨held, stored⟩, ?_⟩
  · intro officer member
    obtain ⟨signer, signed⟩ := mem_approvers.mp member
    obtain ⟨author, lookup, officer', admin⟩ := sound.approvals _ officer signer signed
    exact ⟨signer, author, signed, lookup, officer', admin⟩
  · rintro early late created rfl lookup
    have grows := run_grows network (issued_run network early) late
    rw [← run_append] at grows
    obtain ⟨last, stored', same'⟩ := grows.actions _ created lookup
    cases stored.symm.trans stored'
    rw [built, ← same.newJob_eq network, same'.newJob_eq network]
    rfl

/-- The row of a user who is an administrator. -/
def admin : Option User := some ⟨.admin, none⟩

/-- An officer requests a freeze, and signs it. -/
def requestsFreeze (id : Nat) (officerId : String) : List Event :=
  [.request id officerId (.requestAction .freeze ⟨"GTARGET", "USDC", some "GISSUER", none, none⟩),
    .proceed id (.user admin), .proceed id .done, .proceed id .done]

/-- An officer's approval, up to the count of the approvals. -/
def approvesUncounted (id : Nat) (officerId : String) (actionId : Nat) : List Event :=
  [.request id officerId (.approve actionId), .proceed id (.user admin), .proceed id .done,
    .proceed id .done, .proceed id .done]

/-- The rule applies to an action that a second officer approves. -/
theorem second_officer_dispatches :
    dispatches .testnet (run (step .testnet) State.empty
        (requestsFreeze 0 "o1" ++ approvesUncounted 1 "o2" 0 ++ [.proceed 1 .done, .proceed 1 .done]))
      (.proceed 1 .done) = some ⟨0, .freeze, "GTARGET", "USDC", some "GISSUER", none, .testnet⟩ ∧
    requiredComplianceApprovals ≤ ((run (step .testnet) State.empty
        (requestsFreeze 0 "o1" ++ approvesUncounted 1 "o2" 0 ++ [.proceed 1 .done, .proceed 1 .done])).approvers
      0).length := by
  have handed : dispatches .testnet (run (step .testnet) State.empty
        (requestsFreeze 0 "o1" ++ approvesUncounted 1 "o2" 0 ++ [.proceed 1 .done, .proceed 1 .done]))
      (.proceed 1 .done) = some ⟨0, .freeze, "GTARGET", "USDC", some "GISSUER", none, .testnet⟩ := by
    decide +kernel
  exact ⟨handed, (two_officer_rule .testnet _ _ _ handed).2.1⟩

/-- `execute` starts only while its action still awaits approval. -/
def executesPending (s : State) : Event → Bool
  | .proceed id .done =>
    match s.calls.lookup id with
    | some ⟨_, _, _, .markApproved actionId _⟩ =>
      (s.actions.lookup actionId).any fun row => row.status = .pendingApproval
    | _ => true
  | _ => true

/-- Whether the call is about to hand this action to the executor. -/
def ticket (actionId : Nat) (_ : Nat) (call : Call) : Int :=
  match call.phase with
  | .dispatch target _ => if target = actionId then 1 else 0
  | _ => 0

/-- The times this action was handed to the executor. -/
def State.timesHanded (s : State) (actionId : Nat) : Nat :=
  s.handed.countP fun job => job.actionId = actionId

/-- The times this action was handed over or is about to be. -/
def tickets (s : State) (actionId : Nat) : Int := s.timesHanded actionId + total s.calls (ticket actionId)

/-- There is at most one ticket for an action, and none before it leaves its first
status. -/
def Ticketed (s : State) : Prop :=
  ∀ actionId, tickets s actionId ≤ 1 ∧
    ((s.actions.lookup actionId).all (fun row => row.status = .pendingApproval) → tickets s actionId ≤ 0)

theorem ticket_nonneg (actionId id : Nat) (call : Call) : 0 ≤ ticket actionId id call := by
  unfold ticket
  split
  · split <;> decide
  · exact le_rfl

theorem ticketed_empty : Ticketed State.empty := by
  intro actionId
  simp [tickets, State.timesHanded, State.empty]

/-- A step changes the tickets by what its call's phase and the handed jobs change. -/
theorem tickets_place {s base : State} {id : Nat} {call : Call} (found : s.calls.lookup id = some call)
    (calls : base.calls = s.calls) (next : Call) (actionId : Nat) : tickets (base.place id next) actionId =
      tickets s actionId - s.timesHanded actionId + base.timesHanded actionId - ticket actionId id call +
        ticket actionId id next := by
  simp only [tickets, State.place, calls, total_insert, contribution_some found, State.timesHanded]
  omega

/-- An action that awaits approval after a step did so before it, or was not there. -/
theorem Steps.pending_before {network : Network} {s after : State} (steps : Steps network s event after)
    (issued : Issued s) (actionId : Nat)
    (pending : (after.actions.lookup actionId).all fun row => row.status = .pendingApproval) :
    (s.actions.lookup actionId).all fun row => row.status = .pendingApproval := by
  cases found : s.actions.lookup actionId with
  | none => rfl
  | some row =>
    obtain ⟨later, lookup, -, change⟩ := steps.status issued found
    simp only [lookup, Option.all_some, decide_eq_true_eq] at pending
    rcases change with same | ⟨id, call, -, -, writes⟩
    · simp [← same, pending]
    · exact absurd pending (Phase.writes_ne_pending writes)

/-- Only a call that starts to execute an action adds a ticket for it. -/
theorem Proceeds.tickets_le {network : Network} {s base : State} {id : Nat} {call next : Call}
    (found : s.calls.lookup id = some call) (proceeds : Proceeds network s id call outcome base next)
    (actionId : Nat) : tickets (base.place id next) actionId ≤ tickets s actionId ∨
      outcome = .done ∧ tickets (base.place id next) actionId ≤ tickets s actionId + 1 ∧
        ∃ (row held : Action), call.phase = .markApproved actionId row ∧
          (base.place id next).actions.lookup actionId = some { held with status := .approved } := by
  have moved := tickets_place found proceeds.kept.1 next actionId
  have mine := ticket_nonneg actionId id call
  cases proceeds with
  | approves target row held marking lookup =>
    by_cases same : target = actionId
    · subst same
      refine .inr ⟨rfl, ?_, row, held, marking, AList.lookup_insert _⟩
      simp only [ticket, State.timesHanded, marking, if_true] at moved mine
      omega
    · refine .inl ?_
      simp only [ticket, State.timesHanded, marking, same, if_false] at moved mine
      omega
  | pushes target row dispatching =>
    refine .inl (moved.trans ?_).le
    by_cases same : target = actionId
    · simp only [ticket, State.timesHanded, dispatching, same, newJob, decide_true, List.countP_cons_of_pos,
        if_true]
      omega
    · simp [ticket, State.timesHanded, dispatching, newJob, same]
  | drops target row dispatching =>
    refine .inl (moved.trans ?_).le
    by_cases same : target = actionId
    · simp only [ticket, State.timesHanded, dispatching, same, newJob, decide_true, List.countP_cons_of_pos,
        if_true]
      omega
    · simp [ticket, State.timesHanded, dispatching, newJob, same]
  | admits row next admin first =>
    refine .inl ?_
    rcases first with rfl | rfl <;> simp only [ticket] at moved mine <;> omega
  | signs target unsigned signing =>
    refine .inl ?_
    rcases signing with ⟨-, rfl⟩ | ⟨row, -, rfl⟩ <;> simp only [ticket, State.timesHanded] at moved mine <;> omega
  | _ =>
    refine .inl ?_
    simp only [ticket, State.timesHanded] at moved mine
    omega

theorem Ticketed.steps {network : Network} {s after : State} (ticketed : Ticketed s) (issued : Issued s)
    (pending : executesPending s event) (steps : Steps network s event after) : Ticketed after := by
  intro actionId
  have before := ticketed actionId
  have fewer : tickets after actionId ≤ tickets s actionId → tickets after actionId ≤ 1 ∧
      ((after.actions.lookup actionId).all (fun row => row.status = .pendingApproval) →
        tickets after actionId ≤ 0) := fun le =>
    ⟨le.trans before.1, fun still => le.trans (before.2 (steps.pending_before issued actionId still))⟩
  cases steps with
  | idle => exact before
  | requested id officerId operation fresh =>
    apply fewer
    simp only [tickets, State.place, total_insert, contribution_none fresh, State.timesHanded]
    cases operation <;> simp [ticket, Operation.first]
  | proceeded id call next base found proceeds =>
    rcases proceeds.tickets_le found actionId with le | ⟨rfl, le, row, held, marking, lookup⟩
    · exact fewer le
    · obtain ⟨officerId, operation, user, phase⟩ := call
      cases marking
      simp only [executesPending, found, Option.any_eq_true, decide_eq_true_eq] at pending
      obtain ⟨stored, here, awaiting⟩ := pending
      have none := before.2 (by simp [here, awaiting])
      refine ⟨by omega, ?_⟩
      simp [lookup]
  | crashed id call found =>
    apply fewer
    have moved := tickets_place found rfl { call with phase := .gone } actionId
    have mine := ticket_nonneg actionId id call
    simp only [ticket] at moved mine
    omega

/-- In every run in which `execute` starts only on actions that still await approval,
no action is handed to the executor twice. -/
theorem dispatched_at_most_once (network : Network) (events : List Event)
    (pending : Throughout (step network) (fun s event => executesPending s event) State.empty events)
    (actionId : Nat) : (run (step network) State.empty events).timesHanded actionId ≤ 1 := by
  have final := run_invariant_of (fun s => Issued s ∧ Ticketed s)
    (fun s event held meets =>
      have steps := step_cases network s event
      ⟨held.1.steps steps, held.2.steps held.1 meets steps⟩)
    ⟨by simp [Issued, State.empty], ticketed_empty⟩ pending
  have bound := (final.2 actionId).1
  have rest : 0 ≤ total (run (step network) State.empty events).calls (ticket actionId) :=
    total_nonneg fun id call _ => ticket_nonneg actionId id call
  unfold tickets at bound
  omega

/-- One officer after another: the second approval dispatches the action once. -/
theorem second_approval_dispatches_once :
    Throughout (step .testnet) (fun s event => executesPending s event) State.empty
      (requestsFreeze 0 "o1" ++ approvesUncounted 1 "o2" 0 ++ List.replicate 4 (.proceed 1 .done)) ∧
    (run (step .testnet) State.empty (requestsFreeze 0 "o1" ++ approvesUncounted 1 "o2" 0 ++
      List.replicate 4 (.proceed 1 .done))).timesHanded 0 ≤ 1 := by
  have pending : Throughout (step .testnet) (fun s event => executesPending s event) State.empty
      (requestsFreeze 0 "o1" ++ approvesUncounted 1 "o2" 0 ++ List.replicate 4 (.proceed 1 .done)) := by
    decide +kernel
  exact ⟨pending, dispatched_at_most_once .testnet _ pending 0⟩

/-- Two officers who have both loaded the action before either executes it both
reach the count and both dispatch it. -/
theorem concurrent_approvals_dispatch_twice :
    ¬ ∀ (network : Network) (events : List Event) (actionId : Nat),
      (run (step network) State.empty events).timesHanded actionId ≤ 1 := by
  intro once
  have twice : ¬ (run (step .testnet) State.empty (requestsFreeze 0 "o1" ++ approvesUncounted 1 "o2" 0 ++
      approvesUncounted 2 "o3" 0 ++ List.replicate 3 (.proceed 1 .done) ++
      List.replicate 3 (.proceed 2 .done))).timesHanded 0 ≤ 1 := by decide +kernel
  exact twice (once _ _ _)

/-- The moves of the lifecycle. -/
def Status.moves : Status → Status → Bool
  | .pendingApproval, .approved | .pendingApproval, .rejected => true
  | .approved, .executing | .approved, .executed | .approved, .failed => true
  | .executing, .executed | .executing, .failed => true
  | _, _ => false

/-- The states that end a lifecycle. -/
def Status.final : Status → Bool
  | .rejected | .executed | .failed => true
  | _ => false

/-- A status write still finds the action as its call's guard had accepted it:
awaiting approval for an approval or a rejection, with the call's own `APPROVED` for
`EXECUTING`, and approved or executing for a result. -/
def guardsHold (s : State) : Event → Bool
  | .proceed id .done =>
    match s.calls.lookup id with
    | some ⟨_, _, _, .markApproved actionId _⟩ | some ⟨_, _, _, .markRejected actionId⟩ =>
      (s.actions.lookup actionId).any fun row => row.status = .pendingApproval
    | some ⟨_, _, _, .markExecuting actionId⟩ =>
      (s.actions.lookup actionId).any fun row => row.status = .approved
    | some ⟨_, _, _, .markResult actionId _ _⟩ =>
      (s.actions.lookup actionId).any fun row => row.status = .executing || row.status = .approved
    | _ => true
  | _ => true

/-- A step moves every action forward or not at all. -/
def Forward (network : Network) (s : State) (event : Event) : Prop :=
  ∀ actionId row, s.actions.lookup actionId = some row → ∃ later,
    (step network s event).actions.lookup actionId = some later ∧
      (later.status = row.status ∨ row.status.moves later.status)

/-- Every step moves forward, a final state is never left, and a rejected action is
not handed to the executor any more. -/
def ForwardOnly (network : Network) (events : List Event) : Prop :=
  Throughout (step network) (Forward network) State.empty events ∧
  ∀ early late actionId row, events = early ++ late →
    (run (step network) State.empty early).actions.lookup actionId = some row → row.status.final →
      (∃ later, (run (step network) State.empty events).actions.lookup actionId = some later ∧
        later.status = row.status) ∧
      (row.status = .rejected → (run (step network) State.empty events).timesHanded actionId =
        (run (step network) State.empty early).timesHanded actionId)

theorem guardsHold_moves {s : State} {id actionId : Nat} {call : Call} {status : Status} {row : Action}
    (guards : guardsHold s (.proceed id .done)) (found : s.calls.lookup id = some call)
    (writes : call.phase.writes = some (actionId, status)) (lookup : s.actions.lookup actionId = some row) :
    row.status.moves status := by
  obtain ⟨officerId, operation, user, phase⟩ := call
  cases phase with
  | markApproved target held =>
    cases writes
    simp only [guardsHold, found, lookup, Option.any_some, decide_eq_true_eq] at guards
    rw [guards]
    rfl
  | markRejected target =>
    cases writes
    simp only [guardsHold, found, lookup, Option.any_some, decide_eq_true_eq] at guards
    rw [guards]
    rfl
  | markExecuting target =>
    cases writes
    simp only [guardsHold, found, lookup, Option.any_some, decide_eq_true_eq] at guards
    rw [guards]
    rfl
  | markResult target txHash succeeded =>
    cases writes
    simp only [guardsHold, found, lookup, Option.any_some, Bool.or_eq_true, decide_eq_true_eq] at guards
    rcases guards with executing | approved
    · rw [executing]
      cases succeeded <;> rfl
    · rw [approved]
      cases succeeded <;> rfl
  | _ => cases writes

/-- With its guard still true, every write is a move of the lifecycle. -/
theorem Steps.forward {network : Network} {s after : State} {actionId : Nat} {row : Action}
    (steps : Steps network s event after) (issued : Issued s) (guards : guardsHold s event)
    (found : s.actions.lookup actionId = some row) : ∃ later, after.actions.lookup actionId = some later ∧
      (later.status = row.status ∨ row.status.moves later.status) := by
  obtain ⟨later, lookup, -, change⟩ := steps.status issued found
  refine ⟨later, lookup, change.imp_right ?_⟩
  rintro ⟨id, call, rfl, stored, writes⟩
  exact guardsHold_moves guards stored writes found

/-- An action that a call is about to dispatch has been approved and not rejected. -/
def Started (s : State) : Prop :=
  ∀ id call actionId row, s.calls.lookup id = some call → call.phase = .dispatch actionId row →
    ∃ held, s.actions.lookup actionId = some held ∧ held.status ≠ .pendingApproval ∧ held.status ≠ .rejected

theorem Status.moves_started {before after : Status} (unpending : before ≠ .pendingApproval)
    (unrejected : before ≠ .rejected) (moves : after = before ∨ before.moves after) :
    after ≠ .pendingApproval ∧ after ≠ .rejected := by
  rcases moves with rfl | moves
  · exact ⟨unpending, unrejected⟩
  · cases before <;> cases after <;> simp_all [Status.moves]

theorem Started.steps {network : Network} {s after : State} (started : Started s) (issued : Issued s)
    (guards : guardsHold s event) (steps : Steps network s event after) : Started after := by
  have kept : ∀ id call actionId row, s.calls.lookup id = some call → call.phase = .dispatch actionId row →
      ∃ held, after.actions.lookup actionId = some held ∧ held.status ≠ .pendingApproval ∧
        held.status ≠ .rejected := by
    intro id call actionId row found dispatching
    obtain ⟨held, stored, unpending, unrejected⟩ := started id call actionId row found dispatching
    obtain ⟨later, lookup, moves⟩ := steps.forward issued guards stored
    exact ⟨later, lookup, Status.moves_started unpending unrejected moves⟩
  cases steps with
  | idle => exact started
  | requested id officerId operation fresh =>
    intro other call actionId row lookup dispatching
    obtain ⟨-, rfl⟩ | ⟨-, old⟩ := lookup_insert_some.mp lookup
    · cases operation <;> cases dispatching
    · exact kept other call actionId row old dispatching
  | proceeded id call next base found proceeds =>
    intro other held actionId row lookup dispatching
    obtain ⟨-, rfl⟩ | ⟨-, old⟩ := lookup_insert_some.mp lookup
    · cases proceeds with
      | approves target row held marking stored =>
        cases dispatching
        exact ⟨_, AList.lookup_insert _, by simp, by simp⟩
      | admits user next admin first => rcases first with rfl | rfl <;> cases dispatching
      | signs target unsigned signing => rcases signing with ⟨-, rfl⟩ | ⟨_, -, rfl⟩ <;> cases dispatching
      | _ => cases dispatching
    · exact kept other held actionId row (proceeds.kept.1 ▸ old) dispatching
  | crashed id call found =>
    intro other held actionId row lookup dispatching
    obtain ⟨-, rfl⟩ | ⟨-, old⟩ := lookup_insert_some.mp lookup
    · cases dispatching
    · exact kept other held actionId row old dispatching

/-- Only a call at its dispatch hands an action to the executor. -/
theorem Steps.timesHanded {network : Network} {s after : State} (steps : Steps network s event after)
    (actionId : Nat) : after.timesHanded actionId = s.timesHanded actionId ∨
      ∃ id call row, s.calls.lookup id = some call ∧ call.phase = .dispatch actionId row := by
  cases steps with
  | proceeded id call next base found proceeds =>
    cases proceeds with
    | pushes target row dispatching =>
      by_cases same : target = actionId
      · subst same
        exact .inr ⟨id, call, row, found, dispatching⟩
      · exact .inl (by simp [State.timesHanded, State.place, newJob, same])
    | drops target row dispatching =>
      by_cases same : target = actionId
      · subst same
        exact .inr ⟨id, call, row, found, dispatching⟩
      · exact .inl (by simp [State.timesHanded, State.place, newJob, same])
    | _ => exact .inl rfl
  | _ => exact .inl rfl

theorem Status.final_moves {before after : Status} (final : before.final) (moves : after = before ∨ before.moves after) :
    after = before := by
  rcases moves with same | moves
  · exact same
  · cases before <;> cases after <;> simp_all [Status.final, Status.moves]

/-- What the run has kept of an action that had reached a final state. -/
structure Ended (s : State) (actionId : Nat) (status : Status) (handed : Nat) : Prop where
  issued : Issued s
  started : Started s
  row : ∃ row, s.actions.lookup actionId = some row ∧ row.status = status
  handed : status = .rejected → s.timesHanded actionId = handed

theorem Ended.steps {network : Network} {s after : State} {actionId handed : Nat} {status : Status}
    (ended : Ended s actionId status handed) (final : status.final) (guards : guardsHold s event)
    (steps : Steps network s event after) : Ended after actionId status handed := by
  obtain ⟨row, found, rfl⟩ := ended.row
  refine ⟨ended.issued.steps steps, ended.started.steps ended.issued guards steps, ?_, ?_⟩
  · obtain ⟨later, lookup, moves⟩ := steps.forward ended.issued guards found
    exact ⟨later, lookup, Status.final_moves final moves⟩
  · intro rejected
    rcases steps.timesHanded actionId with same | ⟨id, call, held, lookup, dispatching⟩
    · exact same.trans (ended.handed rejected)
    · obtain ⟨stored, lookup', -, unrejected⟩ := ended.started id call actionId held lookup dispatching
      cases found.symm.trans lookup'
      exact absurd rejected unrejected

/-- In every run in which each status write still finds what its call had checked,
the lifecycle only moves forward. -/
theorem lifecycle_forward_only (network : Network) (events : List Event)
    (guards : Throughout (step network) (fun s event => guardsHold s event) State.empty events) :
    ForwardOnly network events := by
  have issued : Issued State.empty := by simp [Issued, State.empty]
  have started : Started State.empty := by simp [Started, State.empty]
  constructor
  · refine throughout_of Issued (fun s event held _ => held.steps (step_cases network s event)) ?_ issued guards
    intro s event held meets actionId row found
    exact (step_cases network s event).forward held meets found
  · rintro early late actionId row rfl found final
    obtain ⟨before, after⟩ := (throughout_append _ early late).mp guards
    have reached := run_invariant_of (fun s => Issued s ∧ Started s)
      (fun s event held meets =>
        have steps := step_cases network s event
        ⟨held.1.steps steps, held.2.steps held.1 meets steps⟩) ⟨issued, started⟩ before
    have ended := run_invariant_of
      (fun s => Ended s actionId row.status ((run (step network) State.empty early).timesHanded actionId))
      (fun s event held meets => held.steps final meets (step_cases network s event))
      ⟨reached.1, reached.2, ⟨row, found, rfl⟩, fun _ => rfl⟩ after
    rw [← run_append] at ended
    exact ⟨ended.row, ended.handed⟩

/-- A worker's report on an action. -/
def reportsSuccess (id actionId : Nat) : List Event :=
  [.request id "" (.recordExecutionResult actionId "hash" true), .proceed id .done, .proceed id .done]

/-- Approved by a second officer, executed, and reported by the worker: every guard holds. -/
theorem reported_action_moves_forward :
    Throughout (step .testnet) (fun s event => guardsHold s event) State.empty
      (requestsFreeze 0 "o1" ++ approvesUncounted 1 "o2" 0 ++ List.replicate 4 (.proceed 1 .done) ++
        reportsSuccess 2 0) ∧
    ForwardOnly .testnet (requestsFreeze 0 "o1" ++ approvesUncounted 1 "o2" 0 ++
      List.replicate 4 (.proceed 1 .done) ++ reportsSuccess 2 0) := by
  have guards : Throughout (step .testnet) (fun s event => guardsHold s event) State.empty
      (requestsFreeze 0 "o1" ++ approvesUncounted 1 "o2" 0 ++ List.replicate 4 (.proceed 1 .done) ++
        reportsSuccess 2 0) := by decide +kernel
  exact ⟨guards, lifecycle_forward_only .testnet _ guards⟩

/-- The worker reports the result while `execute` has not yet written `EXECUTING`,
and the action goes from `EXECUTED` back to `EXECUTING`. -/
theorem early_report_is_overwritten : ¬ ∀ (network : Network) (events : List Event), ForwardOnly network events := by
  intro forward
  have back := (forward .testnet (requestsFreeze 0 "o1" ++ approvesUncounted 1 "o2" 0 ++
    List.replicate 3 (.proceed 1 .done) ++ reportsSuccess 2 0 ++ [.proceed 1 .done])).2
    (requestsFreeze 0 "o1" ++ approvesUncounted 1 "o2" 0 ++
      List.replicate 3 (.proceed 1 .done) ++ reportsSuccess 2 0) [.proceed 1 .done] 0
    ⟨.freeze, .executed, "GTARGET", "USDC", some "GISSUER", none, none, "o1", some "hash"⟩ rfl
    (by decide +kernel) rfl
  have executing : (run (step .testnet) State.empty (requestsFreeze 0 "o1" ++ approvesUncounted 1 "o2" 0 ++
      List.replicate 3 (.proceed 1 .done) ++ reportsSuccess 2 0 ++ [.proceed 1 .done])).actions.lookup 0 =
      some ⟨.freeze, .executing, "GTARGET", "USDC", some "GISSUER", none, none, "o1", some "hash"⟩ := by
    decide +kernel
  obtain ⟨⟨later, lookup, status⟩, -⟩ := back
  cases executing.symm.trans lookup
  cases status

end AfroPay.Compliance
