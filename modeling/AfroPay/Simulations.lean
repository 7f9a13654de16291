import AfroPay.Runs

/-! Two systems that meet the same events. Where every event leaves them related and gets one
answer from both, nobody who sends events and reads answers can tell them apart. -/
namespace AfroPay.Simulations
open Runs

variable {State State' Event Answer : Type*}

/-- The answers that a run gives, first event first. -/
def answers (step : State → Event → State) (answer : State → Event → Answer) : State → List Event → List Answer
  | _, [] => []
  | state, event :: rest => answer state event :: answers step answer (step state event) rest

/-- Related systems stay related, and answer alike. -/
structure Agree (step : State → Event → State) (answer : State → Event → Answer) (step' : State' → Event → State')
    (answer' : State' → Event → Answer) (related : State → State' → Prop) : Prop where
  stays : ∀ {state state'} event, related state state' → related (step state event) (step' state' event)
  same : ∀ {state state'} event, related state state' → answer state event = answer' state' event

variable {step : State → Event → State} {answer : State → Event → Answer} {step' : State' → Event → State'}
  {answer' : State' → Event → Answer} {related : State → State' → Prop} {start : State} {start' : State'}

theorem Agree.run (agree : Agree step answer step' answer' related) (initial : related start start')
    (events : List Event) : related (run step start events) (run step' start' events) := by
  induction events generalizing start start' with
  | nil => exact initial
  | cons event rest ih => exact ih (agree.stays event initial)

theorem Agree.answers (agree : Agree step answer step' answer' related) (initial : related start start')
    (events : List Event) : answers step answer start events = answers step' answer' start' events := by
  induction events generalizing start start' with
  | nil => rfl
  | cons event rest ih =>
    exact List.cons_eq_cons.mpr ⟨agree.same event initial, ih (agree.stays event initial)⟩

section Mirrored
variable {Event' : Type*} {meets : State → Event → Prop} {mirror : State → Event → Option Event'}
  {follow : State' → Event' → State'}

/-- What an event does in one system, under a condition on it, at most one event of the other mirrors. -/
def Follows (step : State → Event → State) (meets : State → Event → Prop) (mirror : State → Event → Option Event')
    (follow : State' → Event' → State') (related : State → State' → Prop) : Prop :=
  ∀ state state' event, related state state' → meets state event →
    related (step state event) (Runs.run follow state' (mirror state event).toList)

theorem Follows.mono {stronger : State → Event → Prop} (follows : Follows step meets mirror follow related)
    (implies : ∀ state event, stronger state event → meets state event) :
    Follows step stronger mirror follow related :=
  fun state state' event alike met => follows state state' event alike (implies state event met)

/-- A run whose events all meet the condition is mirrored by the run of their mirror images. -/
theorem Follows.run (follows : Follows step meets mirror follow related) (initial : related start start')
    {events : List Event} (all : Throughout step meets start events) :
    related (Runs.run step start events) (Runs.run follow start' (journal step mirror start events)) := by
  induction events generalizing start start' with
  | nil => exact initial
  | cons event rest ih =>
    rw [run_cons, journal, run_append]
    exact ih (follows start start' event initial all.1) all.2

/-- What the mirroring system keeps, under a condition that each mirror image meets, the mirrored
system keeps beside it. -/
theorem Follows.keeps (follows : Follows step meets mirror follow related) {meets' : State' → Event' → Prop}
    {good : State' → Prop}
    (gives : ∀ state state' event event', related state state' → meets state event →
      mirror state event = some event' → meets' state' event')
    (preserved : ∀ state' event', good state' → meets' state' event' → good (follow state' event'))
    (state : State) (event : Event) (held : ∃ state', related state state' ∧ good state') (met : meets state event) :
    ∃ state', related (step state event) state' ∧ good state' := by
  obtain ⟨state', alike, good'⟩ := held
  have next := follows state state' event alike met
  cases image : mirror state event with
  | none =>
    rw [image] at next
    exact ⟨state', next, good'⟩
  | some event' =>
    rw [image] at next
    exact ⟨follow state' event', next, preserved state' event' good' (gives state state' event event' alike met image)⟩

end Mirrored

end AfroPay.Simulations
