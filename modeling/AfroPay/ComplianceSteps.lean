import AfroPay.Compliance

/-! What a compliance call's step can do, and what no step ever does: approvals and
actions are never removed, and an action keeps everything but its status and hash. -/
namespace AfroPay.Compliance
open KeyedStore Runs

/-- Everything a step of a call can do: what it leaves of the state, and where the
call stands next. -/
inductive Proceeds (network : Network) (s : State) (id : Nat) (call : Call) :
    Outcome → State → Call → Prop where
  | leaves : Proceeds network s id call outcome s { call with phase := .gone }
  | finishes : Proceeds network s id call outcome s { call with phase := .getAction }
  | admits (row : Option User) (next : Phase) (admin : isAdmin row)
      (first : next = .createAction ∨ next = .loadAction) :
      Proceeds network s id call outcome s { call with user := row, phase := next }
  | creates (type : ComplianceType) (dto : ActionDto) (creating : call.phase = .createAction) :
      Proceeds network s id call .done
        { s with
          actions := s.actions.insert s.nextId (newAction call.officerId type dto)
          nextId := s.nextId + 1 } { call with phase := .firstApproval s.nextId }
  | loads (actionId : Nat) (row : Action) (loading : call.phase = .loadAction)
      (found : s.actions.lookup actionId = some row) (guard : row.status = .pendingApproval)
      (approving : call.operation = .approve actionId) :
      Proceeds network s id call outcome s { call with phase := .findApproval actionId row }
  | objects (actionId : Nat) (row : Action) (loading : call.phase = .loadAction)
      (found : s.actions.lookup actionId = some row) (guard : row.status = .pendingApproval) :
      Proceeds network s id call outcome s { call with phase := .markRejected actionId }
  | reports (actionId : Nat) (row : Action) (txHash : String) (succeeded : Bool)
      (loading : call.phase = .loadAction) (found : s.actions.lookup actionId = some row)
      (guard : row.status = .executing ∨ row.status = .approved) :
      Proceeds network s id call outcome s { call with phase := .markResult actionId txHash succeeded }
  | absent (actionId : Nat) (row : Action) (finding : call.phase = .findApproval actionId row)
      (unsigned : s.approvals.lookup (actionId, call.officerId) = none) :
      Proceeds network s id call outcome s { call with phase := .insertApproval actionId row }
  | signs (actionId : Nat) (unsigned : s.approvals.lookup (actionId, call.officerId) = none)
      (signing : call.phase = .firstApproval actionId ∧ next = .getAction ∨
        ∃ row, call.phase = .insertApproval actionId row ∧ next = .countApprovals actionId row) :
      Proceeds network s id call .done
        { s with approvals := s.approvals.insert (actionId, call.officerId) id } { call with phase := next }
  | counts (actionId : Nat) (row : Action) (counting : call.phase = .countApprovals actionId row)
      (enough : requiredComplianceApprovals ≤ (s.approvers actionId).length) :
      Proceeds network s id call outcome s { call with phase := .markApproved actionId row }
  | approves (actionId : Nat) (row held : Action) (marking : call.phase = .markApproved actionId row)
      (found : s.actions.lookup actionId = some held) :
      Proceeds network s id call .done
        { s with actions := s.actions.insert actionId { held with status := .approved } }
        { call with phase := .dispatch actionId row }
  | pushes (actionId : Nat) (row : Action) (dispatching : call.phase = .dispatch actionId row) :
      Proceeds network s id call .done
        { s with
          handed := newJob network actionId row :: s.handed
          pushed := newJob network actionId row :: s.pushed } { call with phase := .markExecuting actionId }
  | drops (actionId : Nat) (row : Action) (dispatching : call.phase = .dispatch actionId row) :
      Proceeds network s id call outcome { s with handed := newJob network actionId row :: s.handed }
        { call with phase := .gone }
  | executes (actionId : Nat) (held : Action) (marking : call.phase = .markExecuting actionId)
      (found : s.actions.lookup actionId = some held) :
      Proceeds network s id call .done
        { s with actions := s.actions.insert actionId { held with status := .executing } }
        { call with phase := .getAction }
  | rejects (actionId : Nat) (held : Action) (marking : call.phase = .markRejected actionId)
      (found : s.actions.lookup actionId = some held) :
      Proceeds network s id call .done
        { s with actions := s.actions.insert actionId { held with status := .rejected } }
        { call with phase := .gone }
  | records (actionId : Nat) (held : Action) (txHash : String) (succeeded : Bool)
      (marking : call.phase = .markResult actionId txHash succeeded)
      (found : s.actions.lookup actionId = some held) :
      Proceeds network s id call .done
        { s with actions := s.actions.insert actionId (held.recorded txHash succeeded) }
        { call with phase := .gone }

/-- A call in a new phase, over what its step left of the tables. -/
def State.place (s : State) (id : Nat) (call : Call) : State := { s with calls := s.calls.insert id call }

theorem call_proceeds (network : Network) (s : State) (id : Nat) (call : Call) (outcome : Outcome) :
    ∃ base next, callStep network s id call outcome = State.place base id next ∧
      Proceeds network s id call outcome base next := by
  obtain ⟨officerId, operation, user, phase⟩ := call
  have left : ∃ base next, State.become s id ⟨officerId, operation, user, phase⟩ .gone = State.place base id next ∧
      Proceeds network s id ⟨officerId, operation, user, phase⟩ outcome base next := ⟨_, _, rfl, .leaves⟩
  cases phase with
  | assertAdmin =>
    cases outcome with
    | user row =>
      simp only [callStep]
      split
      · rename_i admin
        cases operation with
        | requestAction type dto => exact ⟨_, _, rfl, .admits row _ admin (.inl rfl)⟩
        | _ => exact ⟨_, _, rfl, .admits row _ admin (.inr rfl)⟩
      · exact left
    | _ => exact left
  | createAction =>
    cases outcome with
    | done =>
      cases operation with
      | requestAction type dto => exact ⟨_, _, rfl, .creates type dto rfl⟩
      | _ => exact left
    | _ => exact left
  | firstApproval actionId =>
    cases outcome with
    | done =>
      simp only [callStep, State.sign]
      split
      · rename_i unsigned
        exact ⟨_, _, rfl, .signs actionId unsigned (.inl ⟨rfl, rfl⟩)⟩
      · exact left
    | _ => exact left
  | loadAction =>
    cases outcome with
    | done =>
      simp only [callStep]
      split
      · rename_i row found
        cases operation with
        | requestAction type dto => cases found
        | approve actionId =>
          simp only [loaded]
          split
          · rename_i guard
            exact ⟨_, _, rfl, .loads actionId row rfl found guard rfl⟩
          · exact left
        | reject actionId =>
          simp only [loaded]
          split
          · rename_i guard
            exact ⟨_, _, rfl, .objects actionId row rfl found guard⟩
          · exact left
        | recordExecutionResult actionId txHash succeeded =>
          simp only [loaded]
          split
          · rename_i guard
            exact ⟨_, _, rfl, .reports actionId row txHash succeeded rfl found guard⟩
          · exact left
      · exact left
    | _ => exact left
  | findApproval actionId row =>
    cases outcome with
    | done =>
      simp only [callStep]
      split
      · exact left
      · rename_i unsigned
        exact ⟨_, _, rfl, .absent actionId row rfl (by simpa using unsigned)⟩
    | _ => exact left
  | insertApproval actionId row =>
    cases outcome with
    | done =>
      simp only [callStep, State.sign]
      split
      · rename_i unsigned
        exact ⟨_, _, rfl, .signs actionId unsigned (.inr ⟨row, rfl, rfl⟩)⟩
      · exact left
    | _ => exact left
  | countApprovals actionId row =>
    cases outcome with
    | done =>
      simp only [callStep]
      split
      · rename_i enough
        exact ⟨_, _, rfl, .counts actionId row rfl enough⟩
      · exact ⟨_, _, rfl, .finishes⟩
    | _ => exact left
  | markApproved actionId row =>
    cases outcome with
    | done =>
      simp only [callStep, State.update]
      split
      · rename_i held found
        exact ⟨_, _, rfl, .approves actionId row held rfl found⟩
      · exact left
    | _ => exact left
  | dispatch actionId row =>
    cases outcome with
    | done => exact ⟨_, _, rfl, .pushes actionId row rfl⟩
    | _ => exact ⟨_, _, rfl, .drops actionId row rfl⟩
  | markExecuting actionId =>
    cases outcome with
    | done =>
      simp only [callStep, State.update]
      split
      · rename_i held found
        exact ⟨_, _, rfl, .executes actionId held rfl found⟩
      · exact left
    | _ => exact left
  | markRejected actionId =>
    cases outcome with
    | done =>
      simp only [callStep, State.update]
      split
      · rename_i held found
        exact ⟨_, _, rfl, .rejects actionId held rfl found⟩
      · exact left
    | _ => exact left
  | markResult actionId txHash succeeded =>
    cases outcome with
    | done =>
      simp only [callStep, State.update]
      split
      · rename_i held found
        exact ⟨_, _, rfl, .records actionId held txHash succeeded rfl found⟩
      · exact left
    | _ => exact left
  | getAction => cases outcome <;> exact left
  | gone => cases outcome <;> exact left

/-- Everything an event can do to the state. -/
inductive Steps (network : Network) (s : State) : Event → State → Prop where
  | idle : Steps network s event s
  | requested (id : Nat) (officerId : String) (operation : Operation) (fresh : s.calls.lookup id = none) :
      Steps network s (.request id officerId operation)
        (s.place id ⟨officerId, operation, none, operation.first⟩)
  | proceeded (id : Nat) (call next : Call) (base : State) (found : s.calls.lookup id = some call)
      (proceeds : Proceeds network s id call outcome base next) :
      Steps network s (.proceed id outcome) (base.place id next)
  | crashed (id : Nat) (call : Call) (found : s.calls.lookup id = some call) :
      Steps network s (.crash id) (s.place id { call with phase := .gone })

theorem step_cases (network : Network) (s : State) (event : Event) :
    Steps network s event (step network s event) := by
  cases event with
  | request id officerId operation =>
    simp only [step]
    split
    · rename_i fresh
      exact .requested id officerId operation fresh
    · exact .idle
  | proceed id outcome =>
    simp only [step]
    split
    · rename_i call found
      obtain ⟨base, next, moved, proceeds⟩ := call_proceeds network s id call outcome
      rw [moved]
      exact .proceeded id call next base found proceeds
    · exact .idle
  | crash id =>
    simp only [step]
    split
    · rename_i call found
      exact .crashed id call found
    · exact .idle

/-- The same action: only its status and hash may differ. -/
def SameAction (row later : Action) : Prop :=
  later = { row with status := later.status, txHash := later.txHash }

theorem SameAction.trans {first second third : Action} (early : SameAction first second)
    (late : SameAction second third) : SameAction first third := by
  unfold SameAction at early late ⊢
  rw [late, early]

/-- The job of an action does not depend on when its row was read. -/
theorem SameAction.newJob_eq {row later : Action} (same : SameAction row later) (network : Network)
    (actionId : Nat) : newJob network actionId later = newJob network actionId row := by
  rw [same]
  rfl

/-- The status a call is about to write, and the action it writes it to. -/
def Phase.writes : Phase → Option (Nat × Status)
  | .markApproved actionId _ => some (actionId, .approved)
  | .markExecuting actionId => some (actionId, .executing)
  | .markRejected actionId => some (actionId, .rejected)
  | .markResult actionId _ succeeded => some (actionId, if succeeded then .executed else .failed)
  | _ => none

theorem Phase.writes_ne_pending {phase : Phase} {actionId : Nat} {status : Status}
    (writes : phase.writes = some (actionId, status)) : status ≠ .pendingApproval := by
  cases phase with
  | markResult target txHash succeeded => cases succeeded <;> cases writes <;> decide
  | markApproved => cases writes; decide
  | markExecuting => cases writes; decide
  | markRejected => cases writes; decide
  | _ => cases writes

/-- Ids of actions lie below the next one to be issued. -/
def Issued (s : State) : Prop := ∀ actionId row, s.actions.lookup actionId = some row → actionId < s.nextId

/-- One row written in place, by a call that was about to write it. -/
structure Written (s base : State) (call : Call) : Prop where
  row : ∃ actionId held later, s.actions.lookup actionId = some held ∧ SameAction held later ∧
    call.phase.writes = some (actionId, later.status) ∧ base.actions = s.actions.insert actionId later
  nextId : base.nextId = s.nextId

/-- A step leaves the actions alone, creates one, or writes one in place. -/
theorem Proceeds.actions_cases {network : Network} {s base : State} {id : Nat} {call next : Call}
    (proceeds : Proceeds network s id call outcome base next) :
    (base.actions = s.actions ∧ base.nextId = s.nextId) ∨
      (∃ type dto, base.actions = s.actions.insert s.nextId (newAction call.officerId type dto) ∧
        base.nextId = s.nextId + 1) ∨
      outcome = .done ∧ Written s base call := by
  cases proceeds with
  | creates type dto => exact .inr (.inl ⟨type, dto, rfl, rfl⟩)
  | approves actionId row held marking found =>
    refine .inr (.inr ⟨rfl, ⟨actionId, held, { held with status := .approved }, found, rfl, ?_, rfl⟩, rfl⟩)
    rw [marking]
    rfl
  | executes actionId held marking found =>
    refine .inr (.inr ⟨rfl, ⟨actionId, held, { held with status := .executing }, found, rfl, ?_, rfl⟩, rfl⟩)
    rw [marking]
    rfl
  | rejects actionId held marking found =>
    refine .inr (.inr ⟨rfl, ⟨actionId, held, { held with status := .rejected }, found, rfl, ?_, rfl⟩, rfl⟩)
    rw [marking]
    rfl
  | records actionId held txHash succeeded marking found =>
    refine .inr (.inr ⟨rfl, ⟨actionId, held, held.recorded txHash succeeded, found, rfl, ?_, rfl⟩, rfl⟩)
    rw [marking]
    rfl
  | _ => exact .inl ⟨rfl, rfl⟩

theorem Issued.steps {network : Network} {s after : State} (issued : Issued s)
    (steps : Steps network s event after) : Issued after := by
  cases steps with
  | proceeded id call next base found proceeds =>
    intro actionId row lookup
    change base.actions.lookup actionId = some row at lookup
    change actionId < base.nextId
    rcases proceeds.actions_cases with ⟨actions, nextId⟩ | ⟨type, dto, actions, nextId⟩ | ⟨-, written⟩
    · rw [actions] at lookup
      exact nextId ▸ issued actionId row lookup
    · rw [actions] at lookup
      rw [nextId]
      obtain ⟨rfl, -⟩ | ⟨-, old⟩ := lookup_insert_some.mp lookup
      · exact Nat.lt_succ_self _
      · exact (issued actionId row old).trans (Nat.lt_succ_self _)
    · obtain ⟨⟨held, old, later, stored, -, -, actions⟩, nextId⟩ := written
      rw [actions] at lookup
      rw [nextId]
      obtain ⟨rfl, -⟩ | ⟨-, kept⟩ := lookup_insert_some.mp lookup
      · exact issued _ old stored
      · exact issued actionId row kept
  | _ => exact issued

/-- An action stays, as the same action, with its status changed only by the call
that was about to write it. -/
theorem Steps.status {network : Network} {s after : State} {actionId : Nat} {row : Action}
    (steps : Steps network s event after) (issued : Issued s)
    (found : s.actions.lookup actionId = some row) :
    ∃ later, after.actions.lookup actionId = some later ∧ SameAction row later ∧
      (later.status = row.status ∨ ∃ id call, event = .proceed id .done ∧
        s.calls.lookup id = some call ∧ call.phase.writes = some (actionId, later.status)) := by
  cases steps with
  | proceeded id call next base lookup proceeds =>
    rcases proceeds.actions_cases with ⟨actions, -⟩ | ⟨type, dto, actions, -⟩ | ⟨rfl, written⟩
    · exact ⟨row, (congrArg (AList.lookup actionId) actions).trans found, rfl, .inl rfl⟩
    · have distinct : actionId ≠ s.nextId := (issued actionId row found).ne
      refine ⟨row, (congrArg (AList.lookup actionId) actions).trans ?_, rfl, .inl rfl⟩
      exact (AList.lookup_insert_ne distinct).trans found
    · obtain ⟨⟨target, held, later, stored, same, writes, actions⟩, -⟩ := written
      by_cases mine : actionId = target
      · subst mine
        cases found.symm.trans stored
        refine ⟨later, (congrArg (AList.lookup actionId) actions).trans (AList.lookup_insert _), same, .inr ?_⟩
        exact ⟨id, call, rfl, lookup, writes⟩
      · refine ⟨row, (congrArg (AList.lookup actionId) actions).trans ?_, rfl, .inl rfl⟩
        exact (AList.lookup_insert_ne mine).trans found
  | _ => exact ⟨row, found, rfl, .inl rfl⟩

/-- A row that is new after a step awaits approval. -/
theorem Steps.fresh {network : Network} {s after : State} {actionId : Nat} {later : Action}
    (steps : Steps network s event after) (absent : s.actions.lookup actionId = none)
    (lookup : after.actions.lookup actionId = some later) : later.status = .pendingApproval := by
  cases steps with
  | proceeded id call next base found proceeds =>
    change base.actions.lookup actionId = some later at lookup
    rcases proceeds.actions_cases with ⟨actions, -⟩ | ⟨type, dto, actions, -⟩ | ⟨-, written⟩
    · rw [actions, absent] at lookup
      cases lookup
    · rw [actions] at lookup
      obtain ⟨-, rfl⟩ | ⟨-, old⟩ := lookup_insert_some.mp lookup
      · rfl
      · cases absent.symm.trans old
    · obtain ⟨⟨target, held, written, stored, -, -, actions⟩, -⟩ := written
      rw [actions] at lookup
      obtain ⟨rfl, -⟩ | ⟨-, old⟩ := lookup_insert_some.mp lookup
      · cases absent.symm.trans stored
      · cases absent.symm.trans old
  | _ => cases absent.symm.trans lookup

theorem mem_approvers {s : State} {actionId : Nat} {officer : String} :
    officer ∈ s.approvers actionId ↔ ∃ signer, s.approvals.lookup (actionId, officer) = some signer := by
  simp only [State.approvers, List.mem_map, List.mem_filter, decide_eq_true_eq]
  constructor
  · rintro ⟨⟨stored, name⟩, ⟨member, rfl⟩, rfl⟩
    obtain ⟨signer, lookup⟩ := Option.isSome_iff_exists.mp (AList.lookup_isSome.mpr (AList.mem_keys.mpr member))
    exact ⟨signer, lookup⟩
  · rintro ⟨signer, lookup⟩
    have signed : (s.approvals.lookup (actionId, officer)).isSome := by simp [lookup]
    have member := AList.lookup_isSome.mp signed
    exact ⟨(actionId, officer), ⟨AList.mem_keys.mp member, rfl⟩, rfl⟩

/-- No officer counts twice. -/
theorem approvers_nodup (s : State) (actionId : Nat) : (s.approvers actionId).Nodup := by
  refine List.Nodup.map_on ?_ (s.approvals.keys_nodup.filter _)
  rintro ⟨stored, name⟩ member ⟨stored', name'⟩ member' (rfl : name = name')
  simp only [List.mem_filter, decide_eq_true_eq] at member member'
  rw [member.2, member'.2]

/-- Actions, approvals and calls only get more; an action stays the same action, and
an admitted officer stays admitted. -/
structure Grows (s after : State) : Prop where
  actions : ∀ actionId row, s.actions.lookup actionId = some row →
    ∃ later, after.actions.lookup actionId = some later ∧ SameAction row later
  approvals : ∀ key signer, s.approvals.lookup key = some signer → after.approvals.lookup key = some signer
  calls : ∀ id call, s.calls.lookup id = some call → ∃ later, after.calls.lookup id = some later ∧
    later.officerId = call.officerId ∧ (isAdmin call.user → isAdmin later.user)

theorem Grows.refl (s : State) : Grows s s :=
  ⟨fun _ row found => ⟨row, found, rfl⟩, fun _ _ found => found,
    fun _ call found => ⟨call, found, rfl, fun admin => admin⟩⟩

theorem Grows.trans {first second third : State} (early : Grows first second) (late : Grows second third) :
    Grows first third where
  actions actionId row found := by
    obtain ⟨middle, lookup, same⟩ := early.actions actionId row found
    obtain ⟨last, lookup, same'⟩ := late.actions actionId middle lookup
    exact ⟨last, lookup, same.trans same'⟩
  approvals key signer found := late.approvals key signer (early.approvals key signer found)
  calls id call found := by
    obtain ⟨middle, lookup, officer, admin⟩ := early.calls id call found
    obtain ⟨last, lookup, officer', admin'⟩ := late.calls id middle lookup
    exact ⟨last, lookup, officer'.trans officer, fun held => admin' (admin held)⟩

theorem Grows.approvers {s after : State} (grows : Grows s after) (actionId : Nat) :
    (s.approvers actionId).length ≤ (after.approvers actionId).length := by
  refine (List.subperm_of_subset (approvers_nodup s actionId) ?_).length_le
  intro officer member
  obtain ⟨signer, lookup⟩ := mem_approvers.mp member
  exact mem_approvers.mpr ⟨signer, grows.approvals _ signer lookup⟩

/-- Replacing a call by one of the same officer loses nothing. -/
private theorem place_calls {s : State} {id : Nat} {next : Call}
    (kept : ∀ call, s.calls.lookup id = some call →
      next.officerId = call.officerId ∧ (isAdmin call.user → isAdmin next.user)) (other : Nat) (call : Call)
    (found : s.calls.lookup other = some call) : ∃ later, (s.calls.insert id next).lookup other = some later ∧
      later.officerId = call.officerId ∧ (isAdmin call.user → isAdmin later.user) := by
  by_cases same : other = id
  · subst same
    exact ⟨next, AList.lookup_insert _, kept call found⟩
  · exact ⟨call, (AList.lookup_insert_ne same).trans found, rfl, fun admin => admin⟩

/-- What a step leaves of the calls and approvals. -/
theorem Proceeds.kept {network : Network} {s base : State} {id : Nat} {call next : Call}
    (proceeds : Proceeds network s id call outcome base next) :
    base.calls = s.calls ∧ next.officerId = call.officerId ∧ (isAdmin call.user → isAdmin next.user) ∧
      (base.approvals = s.approvals ∨ ∃ actionId, s.approvals.lookup (actionId, call.officerId) = none ∧
        base.approvals = s.approvals.insert (actionId, call.officerId) id) := by
  cases proceeds with
  | admits row next admin first => exact ⟨rfl, rfl, fun _ => admin, .inl rfl⟩
  | signs actionId unsigned => exact ⟨rfl, rfl, fun admin => admin, .inr ⟨actionId, unsigned, rfl⟩⟩
  | _ => exact ⟨rfl, rfl, fun admin => admin, .inl rfl⟩

theorem Steps.grows {network : Network} {s after : State} (steps : Steps network s event after)
    (issued : Issued s) : Grows s after := by
  have actions : ∀ actionId row, s.actions.lookup actionId = some row →
      ∃ later, after.actions.lookup actionId = some later ∧ SameAction row later := by
    intro actionId row found
    obtain ⟨later, lookup, same, -⟩ := steps.status issued found
    exact ⟨later, lookup, same⟩
  cases steps with
  | idle => exact .refl s
  | requested id officerId operation fresh =>
    exact ⟨actions, fun _ _ found => found, place_calls (by simp [fresh])⟩
  | proceeded id call next base found proceeds =>
    obtain ⟨calls, officer, admin, approvals⟩ := proceeds.kept
    refine ⟨actions, ?_, ?_⟩
    · intro key signer lookup
      change base.approvals.lookup key = some signer
      rcases approvals with same | ⟨actionId, unsigned, same⟩
      · rw [same]
        exact lookup
      · have distinct : key ≠ (actionId, call.officerId) := by
          rintro rfl
          cases unsigned.symm.trans lookup
        rw [same]
        exact (AList.lookup_insert_ne distinct).trans lookup
    · simp only [State.place, calls]
      refine place_calls ?_
      intro held lookup
      cases found.symm.trans lookup
      exact ⟨officer, admin⟩
  | crashed id call found =>
    refine ⟨actions, fun _ _ lookup => lookup, place_calls ?_⟩
    intro held lookup
    cases found.symm.trans lookup
    exact ⟨rfl, fun admin => admin⟩

theorem issued_run (network : Network) (events : List Event) :
    Issued (run (step network) State.empty events) :=
  run_invariant Issued (fun s event issued => issued.steps (step_cases network s event))
    (by simp [Issued, State.empty]) events

/-- Over a whole run, too, nothing is lost. -/
theorem run_grows (network : Network) {s : State} (issued : Issued s) (events : List Event) :
    Grows s (run (step network) s events) := by
  have both := run_invariant (fun later => Issued later ∧ Grows s later)
    (fun later event held =>
      have steps := step_cases network later event
      ⟨held.1.steps steps, held.2.trans (steps.grows held.1)⟩) ⟨issued, .refl s⟩ events
  exact both.2

end AfroPay.Compliance
