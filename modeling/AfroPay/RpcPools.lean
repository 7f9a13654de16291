import AfroPay.RpcEndpoints
import Mathlib.Data.Fin.VecNotation
import Mathlib.Data.List.Infix

/-! The worker's pool and the API's client as step systems. Requests, polls and alerts may
overlap in any order: `with_endpoint` ranks the endpoints in one step, and every answer that it
gets is a step of its own. -/
namespace AfroPay.Rpc
open KeyedStore Runs

/-- What a failed request or poll leaves: the text of the error and the HTTP status, if there was one. -/
structure Failure where
  message : String
  status : Option Nat
  deriving DecidableEq

structure Settings (Height : Type) [Zero Height] [LE Height] where
  maxBlockLag : Height
  rateLimitCooldown : Nat
  lag_nonneg : 0 ≤ maxBlockLag

variable {Height Response : Type} {n : Nat}

/-- `max_by`: the last of the highest balances. -/
def lastHighest (balance : Fin n → ℚ) (first : Fin n) (rest : List (Fin n)) : Fin n :=
  rest.foldl (fun best candidate => if balance best ≤ balance candidate then candidate else best) first

/-- The reduction of `rankHealthy`: the first of the highest balances. -/
def firstHighest (balance : Fin n → ℚ) (first : Fin n) (rest : List (Fin n)) : Fin n :=
  rest.foldl (fun best candidate => if balance best < balance candidate then candidate else best) first

theorem foldl_highest {balance : Fin n → ℚ} {better : Fin n → Fin n → Bool}
    (up : ∀ best candidate, better best candidate = true → balance best ≤ balance candidate)
    (down : ∀ best candidate, better best candidate = false → balance candidate ≤ balance best)
    (first : Fin n) (rest : List (Fin n)) :
    let chosen := rest.foldl (fun best candidate => if better best candidate then candidate else best) first
    chosen ∈ first :: rest ∧ ∀ i ∈ first :: rest, balance i ≤ balance chosen := by
  induction rest generalizing first with
  | nil => simp
  | cons next rest ih =>
    simp only [List.foldl_cons, List.mem_cons, forall_eq_or_imp]
    cases held : better first next with
    | true =>
      obtain ⟨member, highest⟩ := ih next
      simp only [List.mem_cons, forall_eq_or_imp] at member highest
      exact ⟨.inr member, (up first next held).trans highest.1, highest⟩
    | false =>
      obtain ⟨member, highest⟩ := ih first
      simp only [List.mem_cons, forall_eq_or_imp] at member highest
      refine ⟨?_, highest.1, (down first next held).trans highest.1, highest.2⟩
      exact member.imp_right .inr

def takeLast : TieBreak where
  choose := lastHighest
  member balance first rest := by
    have spec := @foldl_highest _ balance (fun best candidate => balance best ≤ balance candidate)
      (by simp) (fun best candidate worse => (not_le.mp (by simpa using worse)).le) first rest
    simpa [lastHighest] using spec.1
  highest balance first rest := by
    have spec := @foldl_highest _ balance (fun best candidate => balance best ≤ balance candidate)
      (by simp) (fun best candidate worse => (not_le.mp (by simpa using worse)).le) first rest
    simpa [lastHighest] using spec.2

def takeFirst : TieBreak where
  choose := firstHighest
  member balance first rest := by
    have spec := @foldl_highest _ balance (fun best candidate => balance best < balance candidate)
      (fun best candidate better => (of_decide_eq_true better).le) (by simp) first rest
    simpa [firstHighest] using spec.1
  highest balance first rest := by
    have spec := @foldl_highest _ balance (fun best candidate => balance best < balance candidate)
      (fun best candidate better => (of_decide_eq_true better).le) (by simp) first rest
    simpa [firstHighest] using spec.2

/-! The worker's pool. -/

namespace RpcPool

def isRoutable (endpoint : RpcEndpointState ℕ) (highest : Option ℕ) (maxBlockLag now : ℕ) : Bool :=
  if endpoint.status = .unhealthy then false
  else if endpoint.status = .rateLimited ∧ ∀ expiry ∈ endpoint.rateLimitedUntil, now < expiry then false
  else if endpoint.lags highest maxBlockLag then false
  else endpoint.status = .healthy ∨ endpoint.status = .degraded

def rankedHealthy (settings : Settings ℕ) (now : Nat) (endpoints : Endpoints n ℕ) (kind : RpcEndpointKind) :
    List (Fin n) × Endpoints n ℕ :=
  rank takeLast (fun endpoint => isRoutable endpoint (highestBlock endpoints kind) settings.maxBlockLag now)
    endpoints kind

/-- Whether the alert is raised, and the endpoints after it. The check ranks the endpoints. -/
def alertIfAllDegraded (settings : Settings ℕ) (now : Nat) (endpoints : Endpoints n ℕ) (kind : RpcEndpointKind) :
    Bool × Endpoints n ℕ :=
  let ranked := rankedHealthy settings now endpoints kind
  (ranked.1.isEmpty, ranked.2)

/-- The endpoint that `mark_success` and `mark_failure` find: the first one with the id. -/
def marked (endpoints : Endpoints n ℕ) (i : Fin n) : Option (Fin n) :=
  (List.finRange n).find? fun j => (endpoints j).config.id = (endpoints i).config.id

def contains (text part : String) : Bool := part.toList <:+: text.toList

end RpcPool

/-! The client of the API. -/

namespace RpcClient

def isRoutable (endpoint : RpcEndpointState ℚ) (highestBlock : Option ℚ) (maxBlockLag : ℚ) (now : ℕ) : Bool :=
  if endpoint.status = .unhealthy ∨ endpoint.status = .rateLimited then false
  else if ∃ expiry ∈ endpoint.rateLimitedUntil, now < expiry then false
  else match highestBlock, endpoint.blockHeight with
    | some best, some height => best - height ≤ maxBlockLag
    | _, _ => endpoint.status = .healthy ∨ endpoint.status = .degraded

def rankHealthy (settings : Settings ℚ) (now : Nat) (endpoints : Endpoints n ℚ) (kind : RpcEndpointKind) :
    List (Fin n) × Endpoints n ℚ :=
  rank takeFirst (fun endpoint => isRoutable endpoint (highestBlock endpoints kind) settings.maxBlockLag now)
    endpoints kind

/-- Whether the alert is raised; the check only reads the endpoints. -/
def alertIfAllDegraded (settings : Settings ℚ) (now : Nat) (endpoints : Endpoints n ℚ) (kind : RpcEndpointKind) :
    Bool × Endpoints n ℚ :=
  let ofKind := (List.finRange n).filter fun i => (endpoints i).config.kind = kind
  let highest := highestBlock endpoints kind
  (ofKind ≠ [] ∧ ∀ i ∈ ofKind, isRoutable (endpoints i) highest settings.maxBlockLag now = false, endpoints)

end RpcClient

/-- What the two programs do each in their own way, with what the rest relies on. -/
structure Implementation (Height : Type) [LinearOrder Height] [Sub Height] [Zero Height] where
  isRoutable : RpcEndpointState Height → Option Height → Height → Nat → Bool
  tieBreak : TieBreak
  alertIfAllDegraded : {n : Nat} → Settings Height → Nat → Endpoints n Height → RpcEndpointKind →
    Bool × Endpoints n Height
  marked : {n : Nat} → Endpoints n Height → Fin n → Option (Fin n)
  requestLimited : Failure → Bool
  pollLimited : Failure → Bool
  noHealthyEndpoints : RpcEndpointKind → String
  allEndpointsFailed : RpcEndpointKind → List String → String
  routable_only : ∀ {endpoint highest lag now}, isRoutable endpoint highest lag now = true →
    endpoint.working = true ∧ endpoint.lags highest lag = false
  routable_if : ∀ {endpoint highest lag now}, endpoint.working = true → endpoint.rateLimitedUntil = none →
    endpoint.lags highest lag = false → isRoutable endpoint highest lag now = true
  alert_keeps : ∀ {n : Nat} (settings : Settings Height) (now : Nat) (endpoints : Endpoints n Height)
    (kind : RpcEndpointKind), SameButBalance (alertIfAllDegraded settings now endpoints kind).2 endpoints
  marked_alone : ∀ {n : Nat} {endpoints : Endpoints n Height} {i : Fin n},
    (∀ j, (endpoints j).config.id = (endpoints i).config.id → j = i) → marked endpoints i = some i

def RpcEndpointKind.debug : RpcEndpointKind → String
  | .horizon => "Horizon"
  | .soroban => "Soroban"

def RpcEndpointKind.text : RpcEndpointKind → String
  | .horizon => "horizon"
  | .soroban => "soroban"

theorem lags_iff {Height : Type} [LinearOrder Height] [Sub Height] {endpoint : RpcEndpointState Height}
    {highest : Option Height} {lag : Height} :
    endpoint.lags highest lag = true ↔
      ∃ best ∈ highest, ∃ height ∈ endpoint.blockHeight, lag < best - height := by
  unfold RpcEndpointState.lags
  split <;> simp_all

/-- Only request errors that say "rate limited", and poll errors that say "429", count as rate limits. -/
def rustPool : Implementation ℕ where
  isRoutable := RpcPool.isRoutable
  tieBreak := takeLast
  alertIfAllDegraded := RpcPool.alertIfAllDegraded
  marked := RpcPool.marked
  requestLimited failure := RpcPool.contains failure.message "rate limited"
  pollLimited failure := RpcPool.contains failure.message "429"
  noHealthyEndpoints kind := s!"no healthy {kind.debug} RPC endpoints are available"
  allEndpointsFailed kind errors := "all " ++ kind.debug ++ " RPC endpoints failed: " ++ "; ".intercalate errors
  routable_only := by
    intro endpoint highest lag now routable
    unfold RpcPool.isRoutable at routable
    split at routable
    · cases routable
    split at routable
    · cases routable
    split at routable
    · cases routable
    · rename_i fresh
      exact ⟨by simpa [RpcEndpointState.working] using routable, by simpa using fresh⟩
  routable_if := by
    intro endpoint highest lag now working _ fresh
    have status : endpoint.status = .healthy ∨ endpoint.status = .degraded := by
      simpa [RpcEndpointState.working] using working
    rcases status with held | held <;> simp [RpcPool.isRoutable, held, fresh]
  alert_keeps _ _ _ _ := rank_keeps _ _ _ _
  marked_alone := by
    intro n endpoints i alone
    unfold RpcPool.marked
    cases found : (List.finRange n).find? fun j => (endpoints j).config.id = (endpoints i).config.id with
    | none =>
      have missed := List.find?_eq_none.mp found i (List.mem_finRange i)
      simp at missed
    | some j =>
      have same := List.find?_some found
      rw [alone j (by simpa using same)]

def apiClient : Implementation ℚ where
  isRoutable := RpcClient.isRoutable
  tieBreak := takeFirst
  alertIfAllDegraded := RpcClient.alertIfAllDegraded
  marked _ i := some i
  requestLimited failure := failure.status = some 429
  pollLimited failure := failure.status = some 429
  noHealthyEndpoints kind := s!"No healthy {kind.text} RPC endpoints are available"
  allEndpointsFailed kind errors := "All " ++ kind.text ++ " RPC endpoints failed: " ++ "; ".intercalate errors
  routable_only := by
    intro endpoint highest lag now routable
    unfold RpcClient.isRoutable at routable
    split at routable
    · cases routable
    rename_i up
    have working : endpoint.working = true := by
      cases held : endpoint.status <;> simp_all [RpcEndpointState.working]
    split at routable
    · cases routable
    refine ⟨working, ?_⟩
    rw [Bool.eq_false_iff, ne_eq, lags_iff]
    rintro ⟨best, isBest, height, isHeight, far⟩
    rw [Option.mem_def] at isBest isHeight
    subst isBest
    rw [isHeight] at routable
    exact absurd far (not_lt.mpr (of_decide_eq_true routable))
  routable_if := by
    intro endpoint highest lag now working unlimited fresh
    have status : endpoint.status = .healthy ∨ endpoint.status = .degraded := by
      simpa [RpcEndpointState.working] using working
    have up : ¬(endpoint.status = .unhealthy ∨ endpoint.status = .rateLimited) := by
      rcases status with held | held <;> simp [held]
    unfold RpcClient.isRoutable
    rw [if_neg up, if_neg (by simp [unlimited])]
    split
    · rename_i best height isHeight
      rw [Bool.eq_false_iff, ne_eq, lags_iff] at fresh
      exact decide_eq_true (not_lt.mp fun far => fresh ⟨best, rfl, height, isHeight, far⟩)
    · exact decide_eq_true status
  alert_keeps _ _ endpoints _ := sameButBalance_refl endpoints
  marked_alone _ := rfl

/-! Runs. -/

/-- A call of `with_endpoint` between its ranking and its end: it waits for the answer of its first
candidate and has the others still to try. -/
structure Request (n : Nat) where
  kind : RpcEndpointKind
  candidates : List (Fin n)
  errors : List String

/-- The latest time an endpoint was reported as rate-limited, and whether it failed after that. -/
structure Limited where
  since : Nat
  failedAgain : Bool
  deriving DecidableEq

/-- The pool, the clock and the calls in flight, with the replies given and the alerts raised so
far, newest first. `Response` is what a call returns when it ends well. The last two fields are
history that the code does not keep: the latest rate limit of an endpoint, and whether its latest
poll was answered. -/
structure World (n : Nat) (Height Response : Type) where
  endpoints : Endpoints n Height
  now : Nat
  requests : Store Nat (Request n)
  replies : List (Nat × Except String Response)
  alerts : List RpcEndpointKind
  limited : Fin n → Option Limited
  polled : Fin n → Bool

/-- A pool at its start. -/
def World.new (configs : Fin n → RpcEndpointConfig) (now : Nat) : World n Height Response :=
  ⟨fun i => (configs i).fresh, now, ∅, [], [], fun _ => none, fun _ => false⟩

/-- Two Horizon nodes of equal weight. -/
def twoNodes : Fin 2 → RpcEndpointConfig :=
  ![⟨"first", .horizon, 1⟩, ⟨"second", .horizon, 1⟩]

/-- What happens to a pool. An answer or a poll comes with the milliseconds it took. -/
inductive Event (n : Nat) (Height Response : Type) where
  | advance (milliseconds : Nat)
  | start (request : Nat) (kind : RpcEndpointKind)
  | answer (request : Nat) (outcome : Except Failure Response) (latencyMs : Nat)
  | poll (endpoint : Fin n) (outcome : Except Failure Height) (latencyMs : Nat)
  | alert (kind : RpcEndpointKind)

variable [LinearOrder Height] [Sub Height] [Zero Height]
variable (implementation : Implementation Height) (settings : Settings Height)

def Implementation.routable (endpoints : Endpoints n Height) (now : Nat) (kind : RpcEndpointKind)
    (endpoint : RpcEndpointState Height) : Bool :=
  implementation.isRoutable endpoint (highestBlock endpoints kind) settings.maxBlockLag now

/-- `ranked_healthy` or `rankHealthy`. -/
def Implementation.rank (now : Nat) (endpoints : Endpoints n Height) (kind : RpcEndpointKind) :
    List (Fin n) × Endpoints n Height :=
  Rpc.rank implementation.tieBreak (implementation.routable settings endpoints now kind) endpoints kind

example (settings : Settings ℕ) (now : Nat) (endpoints : Endpoints n ℕ) :
    rustPool.rank settings now endpoints = RpcPool.rankedHealthy settings now endpoints := rfl

example (settings : Settings ℚ) (now : Nat) (endpoints : Endpoints n ℚ) :
    apiClient.rank settings now endpoints = RpcClient.rankHealthy settings now endpoints := rfl

/-- The update of the endpoint that a mark reaches. -/
def Implementation.mark (endpoints : Endpoints n Height) (i : Fin n)
    (update : RpcEndpointState Height → RpcEndpointState Height) : Endpoints n Height :=
  match implementation.marked endpoints i with
  | some j => Function.update endpoints j (update (endpoints j))
  | none => endpoints

/-- A mark on an endpoint: `mark_success` or `mark_failure` with its arguments. -/
inductive Mark (Height : Type) where
  | success (latencyMs : Nat) (height : Option Height)
  | failure (error : String) (rateLimited : Bool)

def Mark.update (now : Nat) : Mark Height → RpcEndpointState Height → RpcEndpointState Height
  | .success latencyMs height => markSuccess latencyMs height
  | .failure error rateLimited => markFailure settings.rateLimitCooldown now error rateLimited

omit [LinearOrder Height] [Sub Height] [Zero Height] in
def Mark.remember (now : Nat) (limited : Option Limited) : Mark Height → Option Limited
  | .success _ _ => limited
  | .failure _ true => some ⟨now, false⟩
  | .failure _ false => limited.map fun earlier => { earlier with failedAgain := true }

def World.mark (w : World n Height Response) (i : Fin n) (mark : Mark Height) : World n Height Response :=
  { w with
    endpoints := implementation.mark w.endpoints i (mark.update settings w.now)
    limited := Function.update w.limited i (mark.remember w.now (w.limited i)) }

def World.alert (w : World n Height Response) (kind : RpcEndpointKind) : World n Height Response :=
  let checked := implementation.alertIfAllDegraded settings w.now w.endpoints kind
  { w with endpoints := checked.2, alerts := if checked.1 then kind :: w.alerts else w.alerts }

/-- The first part of `with_endpoint`. -/
def World.start (w : World n Height Response) (request : Nat) (kind : RpcEndpointKind) : World n Height Response :=
  if (w.requests.lookup request).isSome then w
  else
    let ranked := implementation.rank settings w.now w.endpoints kind
    let ready := { w with endpoints := ranked.2 }
    if ranked.1 = [] then
      let alerted := ready.alert implementation settings kind
      { alerted with replies := (request, .error (implementation.noHealthyEndpoints kind)) :: w.replies }
    else { ready with requests := w.requests.insert request ⟨kind, ranked.1, []⟩ }

/-- The loop of `with_endpoint`, one answer at a time. -/
def World.answer (w : World n Height Response) (request : Nat) (outcome : Except Failure Response) (latencyMs : Nat) :
    World n Height Response :=
  match w.requests.lookup request with
  | some ⟨kind, current :: rest, errors⟩ =>
    match outcome with
    | .ok response =>
      let marked := w.mark implementation settings current (.success latencyMs none)
      { marked with requests := w.requests.erase request, replies := (request, .ok response) :: w.replies }
    | .error failure =>
      let marked := w.mark implementation settings current
        (.failure failure.message (implementation.requestLimited failure))
      let errors := errors ++ [s!"{(w.endpoints current).config.id}: {failure.message}"]
      if rest = [] then
        let alerted := marked.alert implementation settings kind
        { alerted with
          requests := w.requests.erase request
          replies := (request, .error (implementation.allEndpointsFailed kind errors)) :: w.replies }
      else { marked with requests := w.requests.insert request ⟨kind, rest, errors⟩ }
  | _ => w

/-- `poll_endpoint`. -/
def World.poll (w : World n Height Response) (i : Fin n) (outcome : Except Failure Height) (latencyMs : Nat) :
    World n Height Response :=
  match outcome with
  | .ok height =>
    let marked := w.mark implementation settings i (.success latencyMs (some height))
    { marked with polled := Function.update w.polled i true }
  | .error failure =>
    let marked := w.mark implementation settings i (.failure failure.message (implementation.pollLimited failure))
    { marked with polled := Function.update w.polled i false }

def step (w : World n Height Response) : Event n Height Response → World n Height Response
  | .advance milliseconds => { w with now := w.now + milliseconds }
  | .start request kind => w.start implementation settings request kind
  | .answer request outcome latencyMs => w.answer implementation settings request outcome latencyMs
  | .poll i outcome latencyMs => w.poll implementation settings i outcome latencyMs
  | .alert kind => w.alert implementation settings kind

/-- The endpoint that a call of `with_endpoint` turns to at an event, with the call. -/
def tries (w : World n Height Response) : Event n Height Response → Option (Nat × Fin n)
  | .start request kind =>
    if (w.requests.lookup request).isSome then none
    else
      let ranked := implementation.rank settings w.now w.endpoints kind
      ranked.1.head?.map fun i => (request, i)
  | .answer request (.error _) _ =>
    match w.requests.lookup request with
    | some ⟨_, _ :: next :: _, _⟩ => some (request, next)
    | _ => none
  | _ => none

/-- The mark that an event leaves, with its endpoint. -/
def marks (w : World n Height Response) : Event n Height Response → Option (Fin n × Mark Height)
  | .answer request outcome latencyMs =>
    match w.requests.lookup request with
    | some ⟨_, current :: _, _⟩ =>
      match outcome with
      | .ok _ => some (current, .success latencyMs none)
      | .error failure => some (current, .failure failure.message (implementation.requestLimited failure))
    | _ => none
  | .poll i (.ok height) latencyMs => some (i, .success latencyMs (some height))
  | .poll i (.error failure) _ => some (i, .failure failure.message (implementation.pollLimited failure))
  | _ => none

/-- The pool after the mark that an event leaves. -/
def World.marked (w : World n Height Response) (event : Event n Height Response) : World n Height Response :=
  match marks implementation w event with
  | some (i, mark) => w.mark implementation settings i mark
  | none => w

theorem marked_endpoint (w : World n Height Response) (event : Event n Height Response) (i : Fin n) :
    (w.marked implementation settings event).endpoints i = w.endpoints i ∨
      ∃ mark : Mark Height, (w.marked implementation settings event).endpoints i =
        mark.update settings w.now (w.endpoints i) := by
  unfold World.marked
  split
  · rename_i j mark _
    simp only [World.mark, Implementation.mark]
    cases implementation.marked w.endpoints j with
    | none => exact .inl rfl
    | some k =>
      by_cases same : i = k
      · subst same
        exact .inr ⟨mark, Function.update_self ..⟩
      · exact .inl (Function.update_of_ne same ..)
  · exact .inl rfl

/-- Besides its mark, a step changes nothing of the endpoints but their balances, and nothing of
the limits that are remembered. -/
theorem step_marks (w : World n Height Response) (event : Event n Height Response) :
    SameButBalance (step implementation settings w event).endpoints (w.marked implementation settings event).endpoints ∧
      (step implementation settings w event).limited = (w.marked implementation settings event).limited := by
  cases event with
  | advance milliseconds => exact ⟨sameButBalance_refl _, rfl⟩
  | start request kind =>
    have ranked := rank_keeps implementation.tieBreak
      (implementation.routable settings w.endpoints w.now kind) w.endpoints kind
    simp only [step, World.start]
    split
    · exact ⟨sameButBalance_refl _, rfl⟩
    split
    · exact ⟨(implementation.alert_keeps settings w.now _ kind).trans ranked, rfl⟩
    · exact ⟨ranked, rfl⟩
  | answer request outcome latencyMs =>
    simp only [step, World.answer, World.marked, marks]
    rcases w.requests.lookup request with _ | ⟨kind, _ | ⟨current, rest⟩, errors⟩
    · exact ⟨sameButBalance_refl _, rfl⟩
    · exact ⟨sameButBalance_refl _, rfl⟩
    cases outcome with
    | ok done => exact ⟨sameButBalance_refl _, rfl⟩
    | error failure =>
      simp only
      split
      · exact ⟨implementation.alert_keeps settings w.now _ kind, rfl⟩
      · exact ⟨sameButBalance_refl _, rfl⟩
  | poll i outcome latencyMs =>
    cases outcome <;> exact ⟨sameButBalance_refl _, rfl⟩
  | alert kind => exact ⟨implementation.alert_keeps settings w.now w.endpoints kind, rfl⟩

/-- What holds of an endpoint at its start, does not depend on its balance and survives every mark
holds of all endpoints in every run. -/
theorem run_endpoints {holds : RpcEndpointState Height → Prop}
    (balance : ∀ left right : RpcEndpointState Height,
      { left with routingBalance := 0 } = { right with routingBalance := 0 } → holds right → holds left)
    (update : ∀ (mark : Mark Height) (now : Nat) (endpoint : RpcEndpointState Height),
      holds endpoint → holds (mark.update settings now endpoint))
    {start : World n Height Response} (initial : ∀ i, holds (start.endpoints i))
    (events : List (Event n Height Response)) (i : Fin n) :
    holds ((run (step implementation settings) start events).endpoints i) := by
  refine run_invariant (fun w : World n Height Response => ∀ i, holds (w.endpoints i)) ?_ initial events i
  intro w event held i
  refine balance _ _ ((step_marks implementation settings w event).1 i) ?_
  rcases marked_endpoint implementation settings w event i with same | ⟨mark, updated⟩
  · rw [same]
    exact held i
  · rw [updated]
    exact update mark w.now _ (held i)

end AfroPay.Rpc
