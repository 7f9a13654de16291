import AfroPay.RpcCooldown
import AfroPay.RpcMonitoring

/-! What becomes of one request among all others. It turns to the endpoints of its own ranking
in their order, goes on to the next one exactly when one fails, and ends with the response of the
first that answers well or when none is left; other requests, polls, alerts and the clock neither
speed it up nor send it elsewhere. -/
namespace AfroPay.Rpc
open KeyedStore Runs

variable {Height Response : Type} {n : Nat}

/-- What the endpoints answer to one request. -/
def answersTo (request : Nat) (events : List (Event n Height Response)) : List (Except Failure Response) :=
  events.filterMap fun
    | .answer other outcome _ => if other = request then some outcome else none
    | _ => none

/-- The failures before the first success. -/
def leadingFailures : List (Except Failure Response) → List Failure
  | .error failure :: rest => failure :: leadingFailures rest
  | _ => []

/-- The response of the first endpoint that answers well. -/
def firstSuccess : List (Except Failure Response) → Option Response
  | .ok response :: _ => some response
  | .error _ :: rest => firstSuccess rest
  | [] => none

/-- The replies to one request, newest first. -/
def World.repliesTo (w : World n Height Response) (request : Nat) : List (Except String Response) :=
  w.replies.filterMap fun reply => if reply.1 = request then some reply.2 else none

/-- Of the calls that turn to endpoints, those of one request. -/
def turnsOf (request : Nat) (turns : List (Nat × Fin n)) : List (Fin n) :=
  turns.filterMap fun turn => if turn.1 = request then some turn.2 else none

/-- Nothing that begins the request. -/
def Continues (request : Nat) : Event n Height Response → Prop
  | .start other _ => other ≠ request
  | _ => True

/-- Nothing that has to do with the request. -/
def Apart (request : Nat) : Event n Height Response → Prop
  | .start other _ | .answer other _ _ => other ≠ request
  | _ => True

variable [LinearOrder Height] [Sub Height] [Zero Height]
variable {implementation : Implementation Height} {settings : Settings Height}

section Steps

variable {w : World n Height Response} {request : Nat} {event : Event n Height Response}

omit [LinearOrder Height] [Sub Height] [Zero Height] in
theorem repliesTo_cons_ne {other : Nat} {reply : Except String Response} (ne : other ≠ request)
    {v : World n Height Response} (replies : v.replies = (other, reply) :: w.replies) :
    v.repliesTo request = w.repliesTo request := by
  simp [World.repliesTo, replies, ne]

omit [LinearOrder Height] [Sub Height] [Zero Height] in
theorem repliesTo_cons {reply : Except String Response} {v : World n Height Response}
    (replies : v.replies = (request, reply) :: w.replies) : v.repliesTo request = reply :: w.repliesTo request := by
  simp [World.repliesTo, replies]

/-- What has nothing to do with a request leaves it where it is. -/
theorem step_apart (implementation : Implementation Height) (settings : Settings Height) (w : World n Height Response)
    (apart : Apart request event) :
    (step implementation settings w event).requests.lookup request = w.requests.lookup request ∧
      (step implementation settings w event).repliesTo request = w.repliesTo request ∧
      ∀ i, tries implementation settings w event ≠ some (request, i) := by
  cases event with
  | advance milliseconds => exact ⟨rfl, rfl, fun i => by simp [tries]⟩
  | start other kind =>
    have ne : other ≠ request := apart
    refine ⟨?_, ?_, fun i => ?_⟩
    · simp only [step, World.start]
      split
      · rfl
      split
      · rfl
      · exact AList.lookup_insert_ne ne.symm
    · simp only [step, World.start]
      split
      · rfl
      split
      · exact repliesTo_cons_ne ne rfl
      · rfl
    · simp only [tries]
      split <;> simp [ne]
  | answer other outcome latencyMs =>
    have ne : other ≠ request := apart
    refine ⟨?_, ?_, fun i => ?_⟩
    · simp only [step, World.answer]
      rcases w.requests.lookup other with _ | ⟨kind, _ | ⟨current, rest⟩, errors⟩
      · rfl
      · rfl
      cases outcome with
      | ok done => exact AList.lookup_erase_ne ne.symm
      | error failure =>
        simp only
        split
        · exact AList.lookup_erase_ne ne.symm
        · exact AList.lookup_insert_ne ne.symm
    · simp only [step, World.answer]
      rcases w.requests.lookup other with _ | ⟨kind, _ | ⟨current, rest⟩, errors⟩
      · rfl
      · rfl
      cases outcome with
      | ok done => exact repliesTo_cons_ne ne rfl
      | error failure =>
        simp only
        split
        · exact repliesTo_cons_ne ne rfl
        · rfl
    · cases outcome with
      | ok done => simp [tries]
      | error failure =>
        simp only [tries]
        split
        · simp [ne]
        · simp
  | poll i outcome latencyMs =>
    cases outcome <;> exact ⟨rfl, rfl, fun i => by simp [tries]⟩
  | alert kind => exact ⟨rfl, rfl, fun i => by simp [tries]⟩

theorem turnsOf_tried (events : List (Event n Height Response)) :
    turnsOf request (tried implementation settings w (event :: events)) =
      turnsOf request (tries implementation settings w event).toList ++
        turnsOf request (tried implementation settings (step implementation settings w event) events) :=
  List.filterMap_append

theorem turnsOf_silent (silent : ∀ i, tries implementation settings w event ≠ some (request, i)) :
    turnsOf request (tries implementation settings w event).toList = [] := by
  cases turn : tries implementation settings w event with
  | none => rfl
  | some pair =>
    have ne : pair.1 ≠ request := fun same => silent pair.2 (by rw [turn, ← same])
    simp [turnsOf, ne]

/-- An answer to a request that is not under way changes nothing. -/
theorem step_answer_gone (implementation : Implementation Height) (settings : Settings Height)
    (outcome : Except Failure Response) (latencyMs : Nat) (gone : w.requests.lookup request = none) :
    step implementation settings w (.answer request outcome latencyMs) = w ∧
      tries implementation settings w (.answer request outcome latencyMs) = none := by
  constructor
  · simp only [step, World.answer, gone]
  · cases outcome <;> simp [tries, gone]

omit [LinearOrder Height] [Sub Height] [Zero Height] in
/-- What goes on with a request is an answer to it. -/
theorem answer_of_near (continues : Continues request event) (near : ¬ Apart request event) :
    ∃ outcome latencyMs, event = .answer request outcome latencyMs := by
  cases event with
  | start other kind => exact absurd continues near
  | answer other outcome latencyMs =>
    obtain rfl : other = request := not_not.mp near
    exact ⟨outcome, latencyMs, rfl⟩
  | advance | poll | alert => exact absurd trivial near

section Answers
variable {kind : RpcEndpointKind} {current next : Fin n} {rest : List (Fin n)} {errors : List String}

/-- A success ends a request with its response. -/
theorem step_answer_ok (implementation : Implementation Height) (settings : Settings Height) (response : Response)
    (latencyMs : Nat) (waits : w.requests.lookup request = some ⟨kind, current :: rest, errors⟩) :
    (step implementation settings w (.answer request (.ok response) latencyMs)).requests.lookup request = none ∧
      (step implementation settings w (.answer request (.ok response) latencyMs)).repliesTo request =
        .ok response :: w.repliesTo request := by
  simp only [step, World.answer, waits]
  exact ⟨AList.lookup_erase _ _, repliesTo_cons rfl⟩

/-- The failure of its last candidate ends it with the list of all failures. -/
theorem step_answer_last (implementation : Implementation Height) (settings : Settings Height) (failure : Failure)
    (latencyMs : Nat) (waits : w.requests.lookup request = some ⟨kind, [current], errors⟩) :
    (step implementation settings w (.answer request (.error failure) latencyMs)).requests.lookup request = none ∧
      (step implementation settings w (.answer request (.error failure) latencyMs)).repliesTo request =
        .error (implementation.allEndpointsFailed kind
          (errors ++ [s!"{(w.endpoints current).config.id}: {failure.message}"])) :: w.repliesTo request := by
  simp only [step, World.answer, waits, if_true]
  exact ⟨AList.lookup_erase _ _, repliesTo_cons rfl⟩

/-- The failure of any other leads it on to the next one. -/
theorem step_answer_next (implementation : Implementation Height) (settings : Settings Height) (failure : Failure)
    (latencyMs : Nat) (waits : w.requests.lookup request = some ⟨kind, current :: next :: rest, errors⟩) :
    (step implementation settings w (.answer request (.error failure) latencyMs)).requests.lookup request =
        some ⟨kind, next :: rest, errors ++ [s!"{(w.endpoints current).config.id}: {failure.message}"]⟩ ∧
      (step implementation settings w (.answer request (.error failure) latencyMs)).repliesTo request =
        w.repliesTo request := by
  simp only [step, World.answer, waits, reduceCtorEq, if_false]
  exact ⟨AList.lookup_insert _, rfl⟩

end Answers

end Steps

section Following

variable {request : Nat} {events : List (Event n Height Response)}

/-- Once a request is over, nothing more comes of it. -/
theorem call_over (implementation : Implementation Height) (settings : Settings Height) {w : World n Height Response}
    (gone : w.requests.lookup request = none)
    (continues : ∀ event ∈ events, Continues request event) :
    turnsOf request (tried implementation settings w events) = [] ∧
      (run (step implementation settings) w events).repliesTo request = w.repliesTo request := by
  induction events generalizing w with
  | nil => exact ⟨rfl, rfl⟩
  | cons event events ih =>
    obtain ⟨here, later⟩ := List.forall_mem_cons.mp continues
    by_cases apart : Apart request event
    · obtain ⟨lookup, replies, turns⟩ := step_apart implementation settings w apart
      obtain ⟨turned, replied⟩ := ih (lookup.trans gone) later
      refine ⟨by rw [turnsOf_tried, turnsOf_silent turns, turned, List.append_nil], ?_⟩
      rw [run_cons, replied, replies]
    · obtain ⟨outcome, latencyMs, rfl⟩ := answer_of_near here apart
      obtain ⟨same, silent⟩ := step_answer_gone implementation settings outcome latencyMs gone
      obtain ⟨turned, replied⟩ := ih gone later
      rw [turnsOf_tried, silent, run_cons, same]
      exact ⟨turned, replied⟩

/-- What the errors of a request say of its candidates, one after another. -/
def errorTexts (config : Fin n → RpcEndpointConfig) (candidates : List (Fin n)) (failures : List Failure) : List String :=
  candidates.zipWith (fun i failure => s!"{(config i).id}: {failure.message}") failures

omit [LinearOrder Height] [Sub Height] [Zero Height] in
theorem answersTo_apart {event : Event n Height Response} (apart : Apart request event) :
    answersTo request (event :: events) = answersTo request events := by
  cases event with
  | answer other outcome latencyMs =>
    have ne : other ≠ request := apart
    simp [answersTo, ne]
  | _ => rfl

omit [LinearOrder Height] [Sub Height] [Zero Height] in
theorem answersTo_answer (outcome : Except Failure Response) (latencyMs : Nat) :
    answersTo request (.answer request outcome latencyMs :: events) = outcome :: answersTo request events := by
  simp [answersTo]

/-- How a request ends that has these candidates and errors, if it has ended. -/
def verdict (implementation : Implementation Height) (kind : RpcEndpointKind) (config : Fin n → RpcEndpointConfig)
    (candidates : List (Fin n)) (errors : List String) (answers : List (Except Failure Response)) :
    Option (Except String Response) :=
  let failures := leadingFailures answers
  if candidates.length ≤ failures.length then
    some (.error (implementation.allEndpointsFailed kind (errors ++ errorTexts config candidates failures)))
  else (firstSuccess answers).map .ok

/-- A request under way turns to one more candidate for each failure, and ends with the first
success or after the last candidate. -/
theorem call_under_way {w : World n Height Response} {kind : RpcEndpointKind} {config : Fin n → RpcEndpointConfig}
    {current : Fin n} {rest : List (Fin n)} {errors : List String} (configs : ∀ i, (w.endpoints i).config = config i)
    (waits : w.requests.lookup request = some ⟨kind, current :: rest, errors⟩)
    (continues : ∀ event ∈ events, Continues request event) :
    turnsOf request (tried implementation settings w events) =
        rest.take (leadingFailures (answersTo request events)).length ∧
      (run (step implementation settings) w events).repliesTo request =
        (verdict implementation kind config (current :: rest) errors (answersTo request events)).toList ++
          w.repliesTo request := by
  induction events generalizing w current rest errors with
  | nil => exact ⟨rfl, rfl⟩
  | cons event events ih =>
    obtain ⟨here, later⟩ := List.forall_mem_cons.mp continues
    have kept : ∀ i, ((step implementation settings w event).endpoints i).config = config i :=
      fun i => (config_step w event i).trans (configs i)
    by_cases apart : Apart request event
    · obtain ⟨lookup, replies, silent⟩ := step_apart implementation settings w apart
      obtain ⟨turned, replied⟩ := ih kept (lookup.trans waits) later
      rw [answersTo_apart apart, turnsOf_tried, turnsOf_silent silent, turned, run_cons, replied, replies]
      exact ⟨rfl, rfl⟩
    · obtain ⟨outcome, latencyMs, rfl⟩ := answer_of_near here apart
      rw [answersTo_answer]
      cases outcome with
      | ok response =>
        obtain ⟨gone, replied⟩ := step_answer_ok implementation settings response latencyMs waits
        obtain ⟨turned, ended'⟩ := call_over implementation settings gone later
        refine ⟨?_, ?_⟩
        · rw [turnsOf_tried, turned]
          rfl
        · rw [run_cons, ended', replied]
          simp [verdict, leadingFailures, firstSuccess]
      | error failure =>
        cases rest with
        | nil =>
          obtain ⟨gone, replied⟩ := step_answer_last implementation settings failure latencyMs waits
          obtain ⟨turned, ended'⟩ := call_over implementation settings gone later
          refine ⟨?_, ?_⟩
          · rw [turnsOf_tried, turned]
            simp [tries, turnsOf, waits]
          · rw [run_cons, ended', replied, configs current]
            simp [verdict, leadingFailures, errorTexts]
        | cons next more =>
          obtain ⟨waits', replied⟩ := step_answer_next implementation settings failure latencyMs waits
          obtain ⟨turned, ended⟩ := ih kept waits' later
          refine ⟨?_, ?_⟩
          · rw [turnsOf_tried, turned]
            simp [tries, turnsOf, waits, leadingFailures]
          · rw [run_cons, ended, replied, configs current]
            simp [verdict, leadingFailures, firstSuccess, errorTexts]

end Following

/-- For any two designs of the pool and whatever else goes on: a request that begins turns to
endpoints of its ranking at that moment, which are those that are routable, each at most once
and in their order; it gets one reply, the response of the first that answers well, or the list of
all failures once no candidate is left, or the news that there was none. -/
theorem failover_exact (implementation : Implementation Height) (settings : Settings Height) (w : World n Height Response)
    (request : Nat) (kind : RpcEndpointKind) (events : List (Event n Height Response))
    (fresh : w.requests.lookup request = none) (continues : ∀ event ∈ events, Continues request event) :
    let ranked := (implementation.rank settings w.now w.endpoints kind).1
    let answers := answersTo request events
    ranked.Nodup ∧
      (∀ i, i ∈ ranked ↔ (w.endpoints i).config.kind = kind ∧
        implementation.routable settings w.endpoints w.now kind (w.endpoints i) = true) ∧
      turnsOf request (tried implementation settings w (.start request kind :: events)) =
        ranked.take ((leadingFailures answers).length + 1) ∧
      (run (step implementation settings) w (.start request kind :: events)).repliesTo request =
        (if ranked = [] then [.error (implementation.noHealthyEndpoints kind)]
          else (verdict implementation kind (fun i => (w.endpoints i).config) ranked [] answers).toList) ++
          w.repliesTo request := by
  intro ranked answers
  have perm := rank_perm implementation.tieBreak (implementation.routable settings w.endpoints w.now kind) w.endpoints kind
  have absent : (w.requests.lookup request).isSome = false := by rw [fresh]; rfl
  refine ⟨perm.nodup_iff.mpr (candidates_nodup _ _ _), fun i => perm.mem_iff.trans mem_candidates, ?_⟩
  cases order : ranked with
  | nil =>
    have empty : (implementation.rank settings w.now w.endpoints kind).1 = [] := order
    have gone : (step implementation settings w (.start request kind)).requests.lookup request = none := by
      simp only [step, World.start, absent, Bool.false_eq_true, if_false, empty, if_true]
      exact fresh
    have replied : (step implementation settings w (.start request kind)).repliesTo request =
        .error (implementation.noHealthyEndpoints kind) :: w.repliesTo request := by
      simp only [step, World.start, absent, Bool.false_eq_true, if_false, empty, if_true]
      exact repliesTo_cons rfl
    obtain ⟨turned, ended'⟩ := call_over implementation settings gone continues
    refine ⟨?_, ?_⟩
    · rw [turnsOf_tried, turned]
      simp [tries, turnsOf, fresh, empty]
    · rw [run_cons, ended', replied]
      rfl
  | cons current rest =>
    have first : (implementation.rank settings w.now w.endpoints kind).1 = current :: rest := order
    have waits : (step implementation settings w (.start request kind)).requests.lookup request =
        some ⟨kind, current :: rest, []⟩ := by
      simp only [step, World.start, absent, Bool.false_eq_true, if_false, first, reduceCtorEq]
      exact AList.lookup_insert _
    have replied : (step implementation settings w (.start request kind)).repliesTo request = w.repliesTo request := by
      simp only [step, World.start, absent, Bool.false_eq_true, if_false, first, reduceCtorEq]
      rfl
    obtain ⟨turned, ended⟩ := call_under_way (fun i => config_step w (.start request kind) i) waits continues
    refine ⟨?_, ?_⟩
    · rw [turnsOf_tried, turned]
      simp [tries, turnsOf, fresh, first, answers]
    · rw [run_cons, ended, replied]
      rfl

/-- The first of two nodes fails, and another request goes on meanwhile. -/
theorem failover_exact_second :
    let start : World 2 ℕ String := World.new twoNodes 0
    let events : List (Event 2 ℕ String) := [.start 1 .horizon, .answer 0 (.error ⟨"connection refused", none⟩) 5,
      .answer 1 (.ok "an account") 5, .answer 0 (.ok "a ledger") 7]
    let settings : Settings ℕ := ⟨3, 60000, Nat.zero_le 3⟩
    let ranked := (rustPool.rank settings 0 start.endpoints .horizon).1
    ranked.Nodup ∧
      (∀ i, i ∈ ranked ↔ (start.endpoints i).config.kind = .horizon ∧
        rustPool.routable settings start.endpoints 0 .horizon (start.endpoints i) = true) ∧
      turnsOf 0 (tried rustPool settings start (.start 0 .horizon :: events)) =
        ranked.take ((leadingFailures (answersTo 0 events)).length + 1) ∧
      (run (step rustPool settings) start (.start 0 .horizon :: events)).repliesTo 0 =
        (if ranked = [] then [.error (rustPool.noHealthyEndpoints .horizon)]
          else (verdict rustPool .horizon (fun i => (start.endpoints i).config) ranked [] (answersTo 0 events)).toList) ++
          start.repliesTo 0 :=
  failover_exact rustPool ⟨3, 60000, Nat.zero_le 3⟩ (World.new twoNodes 0) 0 .horizon _ rfl (by simp [Continues])

end AfroPay.Rpc
