import Mathlib.Tactic.Common

/-! Whole runs of a system given by its step function. A disabled or rejected
event leaves the state as it was, so every list of events is a run and a
property of every run is a property of every interleaving of its events. -/
namespace AfroPay.Runs

variable {State Event : Type*}

/-- The state reached by a list of events, first event first. -/
def run (step : State → Event → State) (start : State) (events : List Event) : State :=
  events.foldl step start

/-- Every step of the run meets a condition on the state before it and its event. -/
def Throughout (step : State → Event → State) (meets : State → Event → Prop) :
    State → List Event → Prop
  | _, [] => True
  | state, event :: rest => meets state event ∧ Throughout step meets (step state event) rest

variable {step : State → Event → State} {meets : State → Event → Prop}

instance [∀ state event, Decidable (meets state event)] :
    ∀ (start : State) (events : List Event), Decidable (Throughout step meets start events)
  | _, [] => isTrue trivial
  | start, event :: rest =>
    have : Decidable (Throughout step meets (step start event) rest) :=
      instDecidableThroughout (step start event) rest
    inferInstanceAs (Decidable (meets start event ∧ Throughout step meets (step start event) rest))

@[simp] theorem run_nil (start : State) : run step start [] = start := rfl

@[simp] theorem run_cons (start : State) (event : Event) (rest : List Event) :
    run step start (event :: rest) = run step (step start event) rest := rfl

theorem run_append (start : State) (before after : List Event) :
    run step start (before ++ after) = run step (run step start before) after :=
  List.foldl_append

@[simp] theorem throughout_nil (start : State) : Throughout step meets start [] := trivial

theorem throughout_append (start : State) (before after : List Event) :
    Throughout step meets start (before ++ after) ↔
      Throughout step meets start before ∧ Throughout step meets (run step start before) after := by
  induction before generalizing start with
  | nil => simp
  | cons event rest ih => simp [Throughout, ih, and_assoc]

/-- The condition at one point of a run that meets it throughout. -/
theorem throughout_at {start : State} {before after : List Event} {event : Event}
    (all : Throughout step meets start (before ++ event :: after)) :
    Throughout step meets start before ∧ meets (run step start before) event := by
  obtain ⟨earlier, here, -⟩ := (throughout_append start before (event :: after)).mp all
  exact ⟨earlier, here⟩

/-- A condition met at every point of a run is met throughout. -/
theorem throughout_of_at {start : State} {events : List Event}
    (point : ∀ before event after, events = before ++ event :: after → meets (run step start before) event) :
    Throughout step meets start events := by
  induction events generalizing start with
  | nil => trivial
  | cons event rest ih =>
    refine ⟨point [] event rest rfl, ih fun before later after same => ?_⟩
    exact point (event :: before) later after (by rw [same]; rfl)

/-- A property that every step meeting the condition preserves holds after
every run whose steps all meet it. -/
theorem run_invariant_of (invariant : State → Prop) {start : State} {events : List Event}
    (preserved : ∀ state event, invariant state → meets state event → invariant (step state event))
    (initial : invariant start) (all : Throughout step meets start events) :
    invariant (run step start events) := by
  induction events generalizing start with
  | nil => exact initial
  | cons event rest ih => exact ih (preserved start event initial all.1) all.2

theorem throughout_and {other : State → Event → Prop} {start : State} {events : List Event}
    (all : Throughout step meets start events) (more : Throughout step other start events) :
    Throughout step (fun state event => meets state event ∧ other state event) start events := by
  induction events generalizing start with
  | nil => trivial
  | cons event rest ih => exact ⟨⟨all.1, more.1⟩, ih all.2 more.2⟩

/-- What an invariant gives for one step holds of every step of a run. -/
theorem throughout_of (invariant : State → Prop) {other : State → Event → Prop} {start : State}
    {events : List Event}
    (preserved : ∀ state event, invariant state → meets state event → invariant (step state event))
    (gives : ∀ state event, invariant state → meets state event → other state event)
    (initial : invariant start) (all : Throughout step meets start events) :
    Throughout step other start events := by
  induction events generalizing start with
  | nil => trivial
  | cons event rest ih =>
    exact ⟨gives start event initial all.1, ih (preserved start event initial all.1) all.2⟩

/-- A property that every step preserves holds after every run. -/
theorem run_invariant (invariant : State → Prop) {start : State}
    (preserved : ∀ state event, invariant state → invariant (step state event))
    (initial : invariant start) (events : List Event) : invariant (run step start events) := by
  induction events generalizing start with
  | nil => exact initial
  | cons event rest ih => exact ih (preserved start event initial)

/-- Every state of the run, the last one included, has a property. -/
def Always (step : State → Event → State) (holds : State → Prop) (start : State) (events : List Event) : Prop :=
  Throughout step (fun state _ => holds state) start events ∧ holds (run step start events)

instance {holds : State → Prop} [∀ state, Decidable (holds state)] (start : State) (events : List Event) :
    Decidable (Always step holds start events) :=
  inferInstanceAs (Decidable (_ ∧ _))

theorem always_before {holds : State → Prop} {start : State} {before : List Event} {event : Event}
    (always : Always step holds start (before ++ [event])) : Always step holds start before := by
  obtain ⟨earlier, here, -⟩ := (throughout_append start before [event]).mp always.1
  exact ⟨earlier, here⟩

/-- Every part of a run from its start ends in a state with the property. -/
theorem always_at {holds : State → Prop} {start : State} {events : List Event}
    (always : Always step holds start events) (before after : List Event) (split : events = before ++ after) :
    holds (run step start before) := by
  subst split
  cases after with
  | nil => simpa using always.2
  | cons event rest => exact (throughout_at always.1).2

/-- An invariant that gives the property gives it in every state of a run. -/
theorem always_of (invariant : State → Prop) {holds : State → Prop} {start : State} {events : List Event}
    (preserved : ∀ state event, invariant state → meets state event → invariant (step state event))
    (gives : ∀ state, invariant state → holds state) (initial : invariant start)
    (all : Throughout step meets start events) : Always step holds start events :=
  ⟨throughout_of invariant preserved (fun state _ held _ => gives state held) initial all,
    gives _ (run_invariant_of invariant preserved initial all)⟩

section Journal
variable {Entry : Type*}

/-- What the events of a run record, oldest first. An entry depends on the state its event finds. -/
def journal (step : State → Event → State) (record : State → Event → Option Entry) :
    State → List Event → List Entry
  | _, [] => []
  | state, event :: rest => (record state event).toList ++ journal step record (step state event) rest

variable {record : State → Event → Option Entry}

theorem journal_append (start : State) (before after : List Event) :
    journal step record start (before ++ after) =
      journal step record start before ++ journal step record (run step start before) after := by
  induction before generalizing start with
  | nil => rfl
  | cons event rest ih => simp [journal, ih]

/-- A property of a state and the journal that led to it, kept by every step
that adds its entry, holds after every run. -/
theorem journal_invariant (invariant : State → List Entry → Prop) {start : State}
    (preserved : ∀ state log event, invariant state log →
      invariant (step state event) (log ++ (record state event).toList))
    (initial : invariant start []) (events : List Event) :
    invariant (run step start events) (journal step record start events) := by
  suffices general : ∀ (state : State) (log : List Entry), invariant state log →
      invariant (run step state events) (log ++ journal step record state events) from
    general start [] initial
  induction events with
  | nil => simp [journal]
  | cons event rest ih =>
    intro state log holds
    have next := ih _ _ (preserved state log event holds)
    rwa [List.append_assoc] at next

/-- Two systems that stay related, and record the same, as long as every event of the first
meets a condition. -/
theorem journals_agree {State' : Type*} {step' : State' → Event → State'} {record' : State' → Event → Option Entry}
    (related : State → State' → Prop) {meets : State → Event → Prop}
    (stays : ∀ state state' event, related state state' → meets state event →
      related (step state event) (step' state' event))
    (same : ∀ state state' event, related state state' → meets state event → record state event = record' state' event)
    {start : State} {start' : State'} (initial : related start start') {events : List Event}
    (all : Throughout step meets start events) :
    journal step record start events = journal step' record' start' events := by
  induction events generalizing start start' with
  | nil => rfl
  | cons event rest ih =>
    obtain ⟨here, later⟩ := all
    rw [journal, journal, same start start' event initial here, ih (stays start start' event initial here) later]

/-- A journal of translated events. -/
theorem journal_map {Event' : Type*} (translate : Event' → Event) (start : State) (events : List Event') :
    journal (fun state event => step state (translate event)) (fun state event => record state (translate event)) start
      events = journal step record start (events.map translate) := by
  induction events generalizing start with
  | nil => rfl
  | cons event rest ih => rw [journal, ih, List.map_cons, journal]

end Journal

end AfroPay.Runs
