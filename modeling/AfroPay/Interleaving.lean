import AfroPay.KeyedStore
import AfroPay.Runs

/-! Calls of a service that run side by side over one shared state. Between two of its own
steps a call holds only what it keeps itself; what the others do meanwhile is in the shared
state. Every order of the steps is a list of events. -/
namespace AfroPay.Interleaving
open KeyedStore Runs

/-- A service: where a call begins, what one step of it does, and what happens outside of calls. -/
structure Service (Shared Call Request Input Act : Type) where
  begin : Request → Call
  proceed : Shared → Call → Input → Shared × Call
  act : Shared → Act → Shared

structure System (Shared Call : Type) where
  shared : Shared
  calls : Store Nat Call

/-- No call was made yet. -/
def System.fresh {Shared Call : Type} (shared : Shared) : System Shared Call := ⟨shared, ∅⟩

inductive Event (Request Input Act : Type) where
  | call (id : Nat) (request : Request)
  /-- The call takes its next step, with what it is given from outside. -/
  | advance (id : Nat) (input : Input)
  | act (act : Act)

variable {Shared Call Request Input Act : Type} (service : Service Shared Call Request Input Act)

/-- Ids of calls are not used twice. -/
def step (sys : System Shared Call) : Event Request Input Act → System Shared Call
  | .call id request =>
    match sys.calls.lookup id with
    | none => { sys with calls := sys.calls.insert id (service.begin request) }
    | some _ => sys
  | .advance id input =>
    match sys.calls.lookup id with
    | none => sys
    | some call =>
      let (shared, next) := service.proceed sys.shared call input
      ⟨shared, sys.calls.insert id next⟩
  | .act act => { sys with shared := service.act sys.shared act }

variable {service} {sys : System Shared Call}

theorem step_call {id : Nat} (free : sys.calls.lookup id = none) (request : Request) :
    step service sys (.call id request) = { sys with calls := sys.calls.insert id (service.begin request) } := by
  simp [step, free]

theorem step_advance {id : Nat} {call : Call} (found : sys.calls.lookup id = some call) (input : Input) :
    step service sys (.advance id input) =
      ⟨(service.proceed sys.shared call input).1,
        sys.calls.insert id (service.proceed sys.shared call input).2⟩ := by
  simp [step, found]

/-- Everything an event can do. -/
inductive Steps (service : Service Shared Call Request Input Act) (sys : System Shared Call) :
    Event Request Input Act → System Shared Call → Prop where
  | idle (event : Event Request Input Act) : Steps service sys event sys
  | begins (id : Nat) (request : Request) (free : sys.calls.lookup id = none) :
      Steps service sys (.call id request) { sys with calls := sys.calls.insert id (service.begin request) }
  | advances (id : Nat) (input : Input) (call : Call) (found : sys.calls.lookup id = some call) :
      Steps service sys (.advance id input)
        ⟨(service.proceed sys.shared call input).1, sys.calls.insert id (service.proceed sys.shared call input).2⟩
  | acts (act : Act) : Steps service sys (.act act) { sys with shared := service.act sys.shared act }

theorem steps (service : Service Shared Call Request Input Act) (sys : System Shared Call)
    (event : Event Request Input Act) : Steps service sys event (step service sys event) := by
  cases event with
  | call id request =>
    cases found : sys.calls.lookup id with
    | none =>
      rw [step_call found]
      exact .begins id request found
    | some call =>
      simp only [step, found]
      exact .idle _
  | advance id input =>
    cases found : sys.calls.lookup id with
    | none =>
      simp only [step, found]
      exact .idle _
    | some call =>
      rw [step_advance found]
      exact .advances id input call found
  | act act => exact .acts act

/-- Every call stands in a relation to the shared state. -/
def Each (holds : Shared → Call → Prop) (sys : System Shared Call) : Prop :=
  ∀ id call, sys.calls.lookup id = some call → holds sys.shared call

theorem each_fresh (holds : Shared → Call → Prop) (shared : Shared) : Each holds (System.fresh shared) := by
  intro id call found
  cases found

/-- A relation is kept by a step when calls begin in it, the call that steps ends in it, and
what happens to the shared state does not take it from the others. -/
theorem each_step {holds : Shared → Call → Prop} {event : Event Request Input Act} (each : Each holds sys)
    (begins : ∀ request, holds sys.shared (service.begin request))
    (advances : ∀ id input call, event = .advance id input → sys.calls.lookup id = some call →
      holds (service.proceed sys.shared call input).1 (service.proceed sys.shared call input).2 ∧
        ∀ other, holds sys.shared other → holds (service.proceed sys.shared call input).1 other)
    (acts : ∀ act other, event = .act act → holds sys.shared other → holds (service.act sys.shared act) other) :
    Each holds (step service sys event) := by
  cases event with
  | call id request =>
    cases found : sys.calls.lookup id with
    | none =>
      rw [step_call found]
      intro other call lookup
      rcases lookup_insert_some.mp lookup with ⟨-, rfl⟩ | ⟨-, old⟩
      · exact begins request
      · exact each other call old
    | some call => simpa [step, found] using each
  | advance id input =>
    cases found : sys.calls.lookup id with
    | none => simpa [step, found] using each
    | some call =>
      rw [step_advance found]
      obtain ⟨mine, others⟩ := advances id input call rfl found
      intro other call' lookup
      rcases lookup_insert_some.mp lookup with ⟨-, rfl⟩ | ⟨-, old⟩
      · exact mine
      · exact others call' (each other call' old)
  | act act =>
    intro other call lookup
    exact acts act call rfl (each other call lookup)

end AfroPay.Interleaving
