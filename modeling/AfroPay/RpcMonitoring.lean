import AfroPay.RpcFairness
import Mathlib.Order.Interval.Finset.Nat

/-! Whether the alert for degraded pools disturbs the requests. The API's alert only reads the
endpoints. The worker's ranks them, which moves their balances when there is something to balance:
then a later request is sent elsewhere. -/
namespace AfroPay.Rpc
open KeyedStore Runs SmoothRoundRobin

variable {Height Response : Type} {n : Nat}

section Insertion
variable [LinearOrder Height] [Sub Height] [Zero Height]
variable (implementation : Implementation Height) (settings : Settings Height)

/-- The endpoints that the calls of a run turn to one after another. -/
def tried (start : World n Height Response) (events : List (Event n Height Response)) : List (Nat × Fin n) :=
  journal (step implementation settings) (tries implementation settings) start events

/-- The second run is the first one with alerts put in, each in a state that allows it. -/
inductive Inserted (allowed : World n Height Response → RpcEndpointKind → Prop) :
    World n Height Response → List (Event n Height Response) → List (Event n Height Response) → Prop where
  | done (w : World n Height Response) : Inserted allowed w [] []
  | keep {w : World n Height Response} (event : Event n Height Response) {events inserted : List (Event n Height Response)}
      (later : Inserted allowed (step implementation settings w event) events inserted) :
      Inserted allowed w (event :: events) (event :: inserted)
  | alert {w : World n Height Response} (kind : RpcEndpointKind) {events inserted : List (Event n Height Response)}
      (here : allowed w kind) (later : Inserted allowed (step implementation settings w (.alert kind)) events inserted) :
      Inserted allowed w events (.alert kind :: inserted)

/-- The routable endpoints of a kind. -/
def World.candidates (w : World n Height Response) (kind : RpcEndpointKind) : List (Fin n) :=
  Rpc.candidates (implementation.routable settings w.endpoints w.now kind) w.endpoints kind

variable {implementation settings}

/-- The worlds are the same but for the alerts raised. -/
def SameButAlerts (left right : World n Height Response) : Prop :=
  { left with alerts := [] } = { right with alerts := [] }

omit [LinearOrder Height] [Sub Height] [Zero Height] in
theorem SameButAlerts.eq {left right : World n Height Response} (same : SameButAlerts left right) :
    right = { left with alerts := right.alerts } := by
  rcases left with ⟨endpoints, now, requests, replies, alerts, limited, polled⟩
  rcases right with ⟨endpoints', now', requests', replies', alerts', limited', polled'⟩
  cases same
  rfl

theorem tries_alerts (w : World n Height Response) (alerts : List RpcEndpointKind) (event : Event n Height Response) :
    tries implementation settings { w with alerts } event = tries implementation settings w event := by
  cases event with
  | answer request outcome latencyMs => cases outcome <;> rfl
  | _ => rfl

theorem step_alerts (w : World n Height Response) (alerts : List RpcEndpointKind) (event : Event n Height Response) :
    SameButAlerts (step implementation settings w event) (step implementation settings { w with alerts } event) := by
  cases event with
  | advance milliseconds => rfl
  | start request kind =>
    simp only [SameButAlerts, step, World.start, World.alert]
    split
    · rfl
    split <;> rfl
  | answer request outcome latencyMs =>
    simp only [SameButAlerts, step, World.answer, World.alert, World.mark]
    rcases w.requests.lookup request with _ | ⟨kind, _ | ⟨current, rest⟩, errors⟩
    · rfl
    · rfl
    cases outcome with
    | ok done => rfl
    | error failure =>
      simp only
      split <;> rfl
  | poll i outcome latencyMs => cases outcome <;> rfl
  | alert kind => rfl

theorem inserted_self {allowed : World n Height Response → RpcEndpointKind → Prop} (w : World n Height Response)
    (events : List (Event n Height Response)) : Inserted implementation settings allowed w events events := by
  induction events generalizing w with
  | nil => exact .done w
  | cons event rest ih => exact .keep event (ih _)

/-- Alerts that leave the endpoints as they are disturb nothing. -/
theorem tried_inserted {allowed : World n Height Response → RpcEndpointKind → Prop}
    (silent : ∀ w kind, allowed w kind →
      (implementation.alertIfAllDegraded settings w.now w.endpoints kind).2 = w.endpoints)
    {start other : World n Height Response} {events inserted : List (Event n Height Response)}
    (insertion : Inserted implementation settings allowed start events inserted) (same : SameButAlerts start other) :
    tried implementation settings start inserted = tried implementation settings other events := by
  induction insertion generalizing other with
  | done => rfl
  | @keep w event events inserted _ ih =>
    rw [same.eq]
    have here : tries implementation settings { w with alerts := other.alerts } event =
        tries implementation settings w event := tries_alerts w other.alerts event
    have next := ih (step_alerts w other.alerts event)
    unfold tried at next ⊢
    simp only [journal]
    rw [here, next]
  | @alert w kind events inserted here _ ih =>
    have quiet : SameButAlerts (step implementation settings w (.alert kind)) other := by
      simp only [SameButAlerts, step, World.alert, silent w kind here]
      exact same
    have next := ih quiet
    unfold tried at next ⊢
    exact next

end Insertion

section Worker
variable {settings : Settings ℕ} {kind : RpcEndpointKind} {now : Nat}

theorem effectiveWeight_same {left right : RpcEndpointState Height}
    (same : { left with routingBalance := 0 } = { right with routingBalance := 0 }) :
    effectiveWeight left = effectiveWeight right := by
  rcases left with ⟨config, status, latency, height, failures, error, limit, balance⟩
  rcases right with ⟨config', status', latency', height', failures', error', limit', balance'⟩
  cases same
  rfl

theorem isRoutable_same {left right : RpcEndpointState ℕ}
    (same : { left with routingBalance := 0 } = { right with routingBalance := 0 }) {highest : Option ℕ} {lag : ℕ} :
    RpcPool.isRoutable left highest lag now = RpcPool.isRoutable right highest lag now := by
  rcases left with ⟨config, status, latency, height, failures, error, limit, balance⟩
  rcases right with ⟨config', status', latency', height', failures', error', limit', balance'⟩
  cases same
  rfl

theorem heights_same {left right : Endpoints n Height} (same : SameButBalance left right) :
    heights left kind = heights right kind := by
  unfold heights
  congr 1
  funext i
  have config := congrArg RpcEndpointState.config (same i)
  have height := congrArg RpcEndpointState.blockHeight (same i)
  simp only at config height
  rw [config, height]

theorem candidates_same {left right : Endpoints n ℕ} (same : SameButBalance left right) :
    candidates (rustPool.routable settings left now kind) left kind =
      candidates (rustPool.routable settings right now kind) right kind := by
  have routable : ∀ i, rustPool.routable settings left now kind (left i) =
      rustPool.routable settings right now kind (right i) := by
    intro i
    simp only [rustPool, Implementation.routable, highestBlock, heights_same same]
    exact isRoutable_same (same i)
  refine List.filter_congr fun i _ => decide_eq_decide.mpr ?_
  have config := congrArg RpcEndpointState.config (same i)
  simp only at config
  rw [config, routable i]

theorem candidates_rank (endpoints : Endpoints n ℕ) :
    candidates (rustPool.routable settings (rustPool.rank settings now endpoints kind).2 now kind)
        (rustPool.rank settings now endpoints kind).2 kind =
      candidates (rustPool.routable settings endpoints now kind) endpoints kind :=
  candidates_same (rank_keeps _ _ _ _)

/-- A ranking of the endpoints as they are. -/
def idle (n : Nat) (Height : Type) (now : Nat) : Call n Height := ⟨now, id, fun _ _ => rfl⟩

/-- The endpoints that come first in rankings one after another. -/
def firsts (settings : Settings ℕ) (kind : RpcEndpointKind) (now : Nat) (start : Endpoints n ℕ) (count : Nat) :
    List (Fin n) :=
  (orders rustPool settings kind start (List.replicate count (idle n ℕ now))).filterMap List.head?

/-- Rankings keep what they go by. -/
theorem steady_idle {origin start : Endpoints n ℕ} (same : SameButBalance start origin) (count : Nat) :
    Throughout (select rustPool settings kind)
      (Steady rustPool settings kind
        (candidates (rustPool.routable settings origin now kind) origin kind).toFinset
        (fun i => effectiveWeight (origin i))) start (List.replicate count (idle n ℕ now)) := by
  induction count generalizing start with
  | zero => trivial
  | succ count ih =>
    refine ⟨⟨congrArg List.toFinset (candidates_same same), fun i _ => effectiveWeight_same (same i)⟩, ih ?_⟩
    exact (rank_keeps _ _ _ _).trans same

theorem firsts_succ {endpoints : Endpoints n ℕ} {head : Fin n}
    (shape : (rustPool.rank settings now endpoints kind).1.head? = some head) (count : Nat) :
    firsts settings kind now endpoints (count + 1) =
      head :: firsts settings kind now (rustPool.rank settings now endpoints kind).2 count := by
  simp only [firsts, List.replicate_succ, orders, journal, Option.toList_some, List.singleton_append]
  exact List.filterMap_cons_some shape

/-- A call for each of some request ids that are not in use. -/
def starts (kind : RpcEndpointKind) (first count : Nat) : List (Event n ℕ Response) :=
  (List.range' first count).map fun request => .start request kind

theorem step_start {w : World n ℕ Response} {request : Nat} (fresh : w.requests.lookup request = none)
    (several : 2 ≤ (w.candidates rustPool settings kind).length) :
    ∃ first, (rustPool.rank settings w.now w.endpoints kind).1.head? = some first ∧
      tries rustPool settings w (.start request kind) = some (request, first) ∧
      step rustPool settings w (.start request kind) = { w with
        endpoints := (rustPool.rank settings w.now w.endpoints kind).2
        requests := w.requests.insert request ⟨kind, (rustPool.rank settings w.now w.endpoints kind).1, []⟩ } := by
  obtain ⟨first, rest, shape, -⟩ := @rank_round _ _ rustPool.tieBreak _ _ _ several
  change (rustPool.rank settings w.now w.endpoints kind).1 = first :: rest at shape
  refine ⟨first, by rw [shape]; rfl, ?_, ?_⟩
  · simp [tries, fresh, shape]
  · simp [step, World.start, fresh, shape]

theorem tried_starts {w : World n ℕ Response} {first : Nat} (fresh : ∀ request ≥ first, w.requests.lookup request = none)
    (several : 2 ≤ (w.candidates rustPool settings kind).length) (count : Nat) :
    (tried rustPool settings w (starts kind first count)).map Prod.snd = firsts settings kind w.now w.endpoints count := by
  induction count generalizing w first with
  | zero => rfl
  | succ count ih =>
    obtain ⟨head, shape, turned, next⟩ := step_start (fresh first le_rfl) several
    have unused : ∀ request ≥ first + 1,
        (step rustPool settings w (.start first kind)).requests.lookup request = none := by
      intro request after
      rw [next]
      simp only
      rw [AList.lookup_insert_ne (by omega)]
      exact fresh request (by omega)
    have still : 2 ≤ ((step rustPool settings w (.start first kind)).candidates rustPool settings kind).length := by
      rw [next]
      simp only [World.candidates, candidates_rank]
      exact several
    have later := ih unused still
    rw [next] at later
    have split : tried rustPool settings w (starts kind first (count + 1)) =
        (first, head) :: tried rustPool settings (step rustPool settings w (.start first kind))
          (starts kind (first + 1) count) := by
      simp only [tried, starts, List.range'_succ, List.map_cons, journal, turned, Option.toList_some,
        List.singleton_append]
    rw [split, firsts_succ shape, List.map_cons, next, later]

theorem effectiveWeight_pos {endpoint : RpcEndpointState Height} (positive : 0 < endpoint.config.weight) :
    0 < effectiveWeight endpoint := by
  have latency : 0 < max (endpoint.latencyMs.getD 1000) 1 := lt_max_of_lt_right one_pos
  exact mul_pos positive (div_pos (by norm_num) (Nat.cast_pos.mpr latency))

/-- No rankings of several endpoints all put the same one first. -/
theorem firsts_vary {endpoints : Endpoints n ℕ} (positive : ∀ i, 0 < (endpoints i).config.weight)
    (several : 2 ≤ (candidates (rustPool.routable settings endpoints now kind) endpoints kind).length) (head : Fin n) :
    ∃ count, firsts settings kind now endpoints count ≠ List.replicate count head := by
  have many : 2 ≤ (candidates (rustPool.routable settings endpoints now kind) endpoints kind).toFinset.card := by
    rw [List.toFinset_card_of_nodup (candidates_nodup _ _ _)]
    exact several
  obtain ⟨other, member, differ⟩ := Finset.exists_mem_ne many head
  obtain ⟨count, never⟩ := rounds_not_constant
    (fun i _ => effectiveWeight_pos (positive i)) (fun i => (endpoints i).routingBalance) member differ
  refine ⟨count, fun constant => ?_⟩
  have rounds := (rounds_of_steady many (steady_idle (sameButBalance_refl endpoints) count)).1
  rw [show List.filterMap List.head? _ = List.replicate count head from constant] at rounds
  exact never _ rounds

theorem exists_fresh (w : World n Height Response) : ∃ first, ∀ request ≥ first, w.requests.lookup request = none := by
  obtain ⟨first, bound⟩ := Finset.exists_nat_subset_range w.requests.keys.toFinset
  refine ⟨first, fun request large => AList.lookup_eq_none.mpr fun used => ?_⟩
  have below := Finset.mem_range.mp (bound (List.mem_toFinset.mpr used))
  omega

/-- An alert over several routable endpoints is noticed: if the calls after it went where they would
have gone without it, every ranking would put the same endpoint first. -/
theorem alert_noticed {w : World n ℕ Response} (positive : ∀ i, 0 < (w.endpoints i).config.weight)
    (several : 2 ≤ (w.candidates rustPool settings kind).length) :
    ∃ events, tried rustPool settings (step rustPool settings w (.alert kind)) events ≠
      tried rustPool settings w events := by
  by_contra none
  have unnoticed : ∀ events, tried rustPool settings (step rustPool settings w (.alert kind)) events =
      tried rustPool settings w events := fun events => not_not.mp fun differ => none ⟨events, differ⟩
  obtain ⟨first, fresh⟩ := exists_fresh w
  obtain ⟨head, shape, -, -⟩ := step_start (fresh first le_rfl) several
  have still : 2 ≤ ((step rustPool settings w (.alert kind)).candidates rustPool settings kind).length := by
    change 2 ≤ (candidates (rustPool.routable settings (rustPool.rank settings w.now w.endpoints kind).2 w.now kind)
      (rustPool.rank settings w.now w.endpoints kind).2 kind).length
    rw [candidates_rank]
    exact several
  have alike : ∀ count, firsts settings kind w.now (rustPool.rank settings w.now w.endpoints kind).2 count =
      firsts settings kind w.now w.endpoints count := by
    intro count
    have same := congrArg (List.map Prod.snd) (unnoticed (starts kind first count))
    rw [tried_starts fresh several] at same
    exact (tried_starts (w := step rustPool settings w (.alert kind)) fresh still count).symm.trans same
  obtain ⟨count, varies⟩ : ∃ count, firsts settings kind w.now w.endpoints count ≠ List.replicate count head :=
    firsts_vary positive several head
  refine varies ?_
  clear varies
  induction count with
  | zero => rfl
  | succ count ih => rw [firsts_succ shape, alike count, ih, List.replicate_succ]

theorem alert_silent {w : World n ℕ Response} (few : (w.candidates rustPool settings kind).length ≤ 1) :
    (rustPool.alertIfAllDegraded settings w.now w.endpoints kind).2 = w.endpoints :=
  rank_few _ few

/-- The API's alerts disturb no call. The worker's do not either while at most one endpoint of the
kind is routable, and an alert at any other time is noticed by some calls after it. -/
theorem monitoring_undisturbed (n : Nat) (apiSettings : Settings ℚ) (settings : Settings ℕ) :
    (∀ (start : World n ℚ Response) (events inserted : List (Event n ℚ Response)),
      Inserted apiClient apiSettings (fun _ _ => True) start events inserted →
        tried apiClient apiSettings start inserted = tried apiClient apiSettings start events) ∧
    (∀ (start : World n ℕ Response) (events inserted : List (Event n ℕ Response)),
      Inserted rustPool settings (fun w kind => (w.candidates rustPool settings kind).length ≤ 1) start events inserted →
        tried rustPool settings start inserted = tried rustPool settings start events) ∧
    ∀ (w : World n ℕ Response) (kind : RpcEndpointKind), (∀ i, 0 < (w.endpoints i).config.weight) →
      ((∀ events, tried rustPool settings (step rustPool settings w (.alert kind)) events =
          tried rustPool settings w events) ↔
        (w.candidates rustPool settings kind).length ≤ 1) := by
  refine ⟨fun start events inserted insertion => ?_, fun start events inserted insertion => ?_,
    fun w kind positive => ⟨fun unnoticed => ?_, fun few events => ?_⟩⟩
  · exact tried_inserted (fun _ _ _ => rfl) insertion rfl
  · exact tried_inserted (fun _ _ few => alert_silent few) insertion rfl
  · by_contra many
    obtain ⟨events, noticed⟩ := alert_noticed positive (Nat.lt_of_not_le many)
    exact noticed (unnoticed events)
  · have insertion : Inserted rustPool settings (fun w kind => (w.candidates rustPool settings kind).length ≤ 1) w events
        (.alert kind :: events) := .alert kind few (inserted_self _ events)
    change tried rustPool settings w (.alert kind :: events) = _
    exact tried_inserted (fun _ _ few => alert_silent few) insertion rfl

/-- The API's alert among two nodes that work, and the worker's while one of them is rate-limited. -/
theorem monitoring_undisturbed_limited :
    ∃ (apiSettings : Settings ℚ) (settings : Settings ℕ),
      tried apiClient apiSettings (World.new twoNodes 0 : World 2 ℚ String) [.alert .horizon, .start 0 .horizon] =
        tried apiClient apiSettings (World.new twoNodes 0 : World 2 ℚ String) [.start 0 .horizon] ∧
      tried rustPool settings (World.new twoNodes 0 : World 2 ℕ String)
          [.poll 0 (.error ⟨"429", some 429⟩) 5, .alert .horizon, .start 0 .horizon] =
        tried rustPool settings (World.new twoNodes 0 : World 2 ℕ String)
          [.poll 0 (.error ⟨"429", some 429⟩) 5, .start 0 .horizon] := by
  refine ⟨⟨3, 60000, by decide +kernel⟩, ⟨3, 60000, by decide⟩, ?_, ?_⟩
  · exact (monitoring_undisturbed 2 _ ⟨3, 60000, by decide⟩).1 _ _ _ (.alert .horizon trivial (inserted_self _ _))
  · refine (monitoring_undisturbed 2 ⟨3, 60000, by decide +kernel⟩ _).2.1 _ _ _
      (.keep _ (.alert .horizon ?_ (inserted_self _ _)))
    decide +kernel

/-- An alert before a request of the worker sends it to the other node. -/
theorem alert_steers_worker :
    ∃ (settings : Settings ℕ) (events inserted : List (Event 2 ℕ String)),
      Inserted rustPool settings (fun _ _ => True) (World.new twoNodes 0) events inserted ∧
        tried rustPool settings (World.new twoNodes 0) inserted ≠ tried rustPool settings (World.new twoNodes 0) events :=
  ⟨⟨3, 60000, by decide⟩, [.start 0 .horizon], [.alert .horizon, .start 0 .horizon],
    .alert .horizon trivial (inserted_self _ _), by decide +kernel⟩

end Worker

end AfroPay.Rpc
