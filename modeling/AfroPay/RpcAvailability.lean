import AfroPay.RpcPools
import Mathlib.Algebra.Order.Sub.Defs
import Mathlib.Algebra.Order.Ring.Rat

/-! Whether a pool has an endpoint to route to. An endpoint's lag is measured against the highest
height remembered for its kind, also when the endpoint that reported it has failed since; so what
decides is whether some working endpoint keeps up with the heights of those that do not work. -/
namespace AfroPay.Rpc
open Runs

variable {Height Response : Type} {n : Nat}

/-- A working endpoint is under no rate limit, and one that does not work has failed. -/
structure Tidy (endpoint : RpcEndpointState Height) : Prop where
  unlimited : endpoint.working = true → endpoint.rateLimitedUntil = none
  failed : endpoint.working = false → 1 ≤ endpoint.consecutiveFailures

theorem tidy_fresh (config : RpcEndpointConfig) : Tidy (config.fresh : RpcEndpointState Height) :=
  ⟨fun _ => rfl, fun down => by simp [RpcEndpointConfig.fresh, RpcEndpointState.working] at down⟩

theorem Tidy.success (latencyMs : Nat) (height : Option Height) (endpoint : RpcEndpointState Height) :
    Tidy (markSuccess latencyMs height endpoint) :=
  ⟨fun _ => rfl, fun down => by simp [markSuccess, RpcEndpointState.working] at down⟩

theorem Tidy.failure {endpoint : RpcEndpointState Height} (tidy : Tidy endpoint) (cooldown now : Nat) (error : String)
    (rateLimited : Bool) : Tidy (markFailure cooldown now error rateLimited endpoint) := by
  cases rateLimited with
  | true =>
    refine ⟨fun up => ?_, fun _ => ?_⟩
    · simp [markFailure, RpcEndpointState.working] at up
    · simp [markFailure]
  | false =>
    refine ⟨fun up => ?_, fun _ => by simp [markFailure]⟩
    have first : endpoint.consecutiveFailures = 0 := by
      by_contra more
      have twice : 2 ≤ endpoint.consecutiveFailures + 1 := by omega
      simp [markFailure, twice, RpcEndpointState.working] at up
    have before : endpoint.working = true := by
      by_contra down
      have once := tidy.failed (by simpa using down)
      omega
    simpa [markFailure] using tidy.unlimited before

theorem Tidy.of_same {left right : RpcEndpointState Height}
    (same : { left with routingBalance := 0 } = { right with routingBalance := 0 }) (tidy : Tidy right) : Tidy left := by
  rcases left with ⟨config, status, latency, height, failures, error, limit, balance⟩
  rcases right with ⟨config', status', latency', height', failures', error', limit', balance'⟩
  cases same
  exact ⟨tidy.unlimited, tidy.failed⟩

section Runs
variable [LinearOrder Height] [Sub Height] [Zero Height]
variable (implementation : Implementation Height) (settings : Settings Height)

omit [Sub Height] in
theorem Tidy.update (settings : Settings Height) {endpoint : RpcEndpointState Height}
    (tidy : Tidy endpoint) (mark : Mark Height) (now : Nat) : Tidy (mark.update settings now endpoint) := by
  cases mark with
  | success latencyMs height => exact .success latencyMs height endpoint
  | failure error rateLimited => exact tidy.failure _ now error rateLimited

theorem tidy_run (configs : Fin n → RpcEndpointConfig) (now : Nat) (events : List (Event n Height Response)) (i : Fin n) :
    Tidy ((run (step implementation settings) (World.new configs now) events).endpoints i) := by
  refine run_endpoints implementation settings (fun _ _ => Tidy.of_same) ?_ ?_ events i
  · exact fun mark now _ tidy => tidy.update settings mark now
  · exact fun i => tidy_fresh (configs i)

variable {implementation settings} {endpoint : RpcEndpointState Height}

theorem Tidy.routable_iff (tidy : Tidy endpoint) {highest : Option Height} {lag : Height} {now : Nat} :
    implementation.isRoutable endpoint highest lag now = true ↔
      endpoint.working = true ∧ endpoint.lags highest lag = false :=
  ⟨implementation.routable_only, fun ⟨working, fresh⟩ =>
    implementation.routable_if working (tidy.unlimited working) fresh⟩

end Runs

theorem mem_heights {endpoints : Endpoints n Height} {kind : RpcEndpointKind} {height : Height} :
    height ∈ heights endpoints kind ↔
      ∃ i, (endpoints i).config.kind = kind ∧ (endpoints i).blockHeight = some height := by
  simp only [heights, List.mem_filterMap, List.mem_finRange, true_and]
  refine exists_congr fun i => ?_
  split <;> simp_all

theorem highestBlock_eq_some [LinearOrder Height] {endpoints : Endpoints n Height} {kind : RpcEndpointKind}
    {best : Height} :
    highestBlock endpoints kind = some best ↔
      best ∈ heights endpoints kind ∧ ∀ height ∈ heights endpoints kind, height ≤ best := by
  exact List.max?_eq_some_iff

theorem heights_bounded [LinearOrder Height] {endpoints : Endpoints n Height} {kind : RpcEndpointKind}
    {height : Height} (member : height ∈ heights endpoints kind) :
    ∃ best, highestBlock endpoints kind = some best ∧ height ≤ best := by
  cases found : highestBlock endpoints kind with
  | none =>
    rw [highestBlock, List.max?_eq_none_iff] at found
    rw [found] at member
    cases member
  | some best => exact ⟨best, rfl, (highestBlock_eq_some.mp found).2 height member⟩

section Availability
variable [LinearOrder Height] [Sub Height] [Zero Height]
variable (implementation : Implementation Height) (settings : Settings Height)

/-- If an endpoint of the kind answered its latest poll and is not rate-limited, one of the kind is routable. -/
def Available (kind : RpcEndpointKind) (w : World n Height Response) : Prop :=
  (∃ i, (w.endpoints i).config.kind = kind ∧ w.polled i = true ∧ (w.endpoints i).status ≠ .rateLimited) →
    ∃ i, (w.endpoints i).config.kind = kind ∧
      implementation.routable settings w.endpoints w.now kind (w.endpoints i) = true

/-- If an endpoint of the kind answered its latest poll and is not rate-limited, one of the kind is
healthy or degraded and keeps up with every endpoint of the kind that is not. -/
def KeepsUp (kind : RpcEndpointKind) (w : World n Height Response) : Prop :=
  (∃ i, (w.endpoints i).config.kind = kind ∧ w.polled i = true ∧ (w.endpoints i).status ≠ .rateLimited) →
    ∃ i, (w.endpoints i).config.kind = kind ∧ (w.endpoints i).working = true ∧
      ∀ j, (w.endpoints j).config.kind = kind → (w.endpoints j).working = false →
        (w.endpoints i).lags (w.endpoints j).blockHeight settings.maxBlockLag = false

instance (kind : RpcEndpointKind) (w : World n Height Response) : Decidable (Available implementation settings kind w) :=
  inferInstanceAs (Decidable (_ → _))

instance (kind : RpcEndpointKind) (w : World n Height Response) : Decidable (KeepsUp settings kind w) :=
  inferInstanceAs (Decidable (_ → _))

end Availability

section Lag
variable [LinearOrder Height] [AddCommMonoid Height] [Sub Height] [OrderedSub Height]
variable {implementation : Implementation Height} {settings : Settings Height}

theorem lags_self {endpoint : RpcEndpointState Height} :
    endpoint.lags endpoint.blockHeight settings.maxBlockLag = false := by
  rw [Bool.eq_false_iff, ne_eq, lags_iff]
  rintro ⟨best, isBest, height, isHeight, far⟩
  obtain rfl : best = height := Option.mem_unique isBest isHeight
  have zero : best - best ≤ 0 := tsub_le_iff_right.mpr (by rw [zero_add])
  exact absurd (zero.trans settings.lag_nonneg) (not_le.mpr far)

/-- What does not lag behind a height does not lag behind a lower one. -/
theorem lags_mono {endpoint : RpcEndpointState Height} {low high lag : Height} (le : low ≤ high)
    (fresh : endpoint.lags (some high) lag = false) : endpoint.lags (some low) lag = false := by
  rw [Bool.eq_false_iff, ne_eq, lags_iff] at fresh ⊢
  rintro ⟨best, isBest, height, isHeight, far⟩
  obtain rfl : low = best := Option.some_inj.mp isBest
  exact fresh ⟨high, rfl, height, isHeight, far.trans_le (tsub_le_iff_right.mpr (le.trans (tsub_le_iff_right.mp le_rfl)))⟩

/-- The endpoint with the highest height is routable if it works, and if not, it is one to keep up with. -/
theorem routable_exists_iff {endpoints : Endpoints n Height} (tidy : ∀ i, Tidy (endpoints i)) {now : Nat}
    {kind : RpcEndpointKind} :
    (∃ i, (endpoints i).config.kind = kind ∧
        implementation.routable settings endpoints now kind (endpoints i) = true) ↔
      ∃ i, (endpoints i).config.kind = kind ∧ (endpoints i).working = true ∧
        ∀ j, (endpoints j).config.kind = kind → (endpoints j).working = false →
          (endpoints i).lags (endpoints j).blockHeight settings.maxBlockLag = false := by
  constructor
  · rintro ⟨i, ofKind, routable⟩
    obtain ⟨working, fresh⟩ := (tidy i).routable_iff.mp routable
    refine ⟨i, ofKind, working, fun j jKind _ => ?_⟩
    cases known : (endpoints j).blockHeight with
    | none => rfl
    | some height =>
      obtain ⟨best, highest, le⟩ := heights_bounded (mem_heights.mpr ⟨j, jKind, known⟩)
      rw [highest] at fresh
      exact lags_mono le fresh
  · rintro ⟨i, ofKind, working, keepsUp⟩
    cases highest : highestBlock endpoints kind with
    | none =>
      refine ⟨i, ofKind, (tidy i).routable_iff.mpr ⟨working, ?_⟩⟩
      rw [highest]
      rfl
    | some best =>
      obtain ⟨j, jKind, known⟩ := mem_heights.mp (highestBlock_eq_some.mp highest).1
      cases up : (endpoints j).working with
      | true =>
        refine ⟨j, jKind, (tidy j).routable_iff.mpr ⟨up, ?_⟩⟩
        rw [highest, ← known]
        exact lags_self
      | false =>
        refine ⟨i, ofKind, (tidy i).routable_iff.mpr ⟨working, ?_⟩⟩
        rw [highest, ← known]
        exact keepsUp j jKind up

theorem available_iff_keepsUp (configs : Fin n → RpcEndpointConfig) (now : Nat) (events : List (Event n Height Response))
    (kind : RpcEndpointKind) :
    Available implementation settings kind (run (step implementation settings) (World.new configs now) events) ↔
      KeepsUp settings kind (run (step implementation settings) (World.new configs now) events) :=
  imp_congr_right fun _ => routable_exists_iff (tidy_run implementation settings configs now events)

end Lag

/-- In every state of every run of either program: one bad node does no harm exactly when a
working endpoint keeps up with the heights of those that do not work. -/
theorem pools_available_iff (configs : Fin n → RpcEndpointConfig) (now : Nat) (kind : RpcEndpointKind) :
    (∀ (settings : Settings ℕ) (events : List (Event n ℕ Response)),
      Available rustPool settings kind (run (step rustPool settings) (World.new configs now) events) ↔
        KeepsUp settings kind (run (step rustPool settings) (World.new configs now) events)) ∧
    ∀ (settings : Settings ℚ) (events : List (Event n ℚ Response)),
      Available apiClient settings kind (run (step apiClient settings) (World.new configs now) events) ↔
        KeepsUp settings kind (run (step apiClient settings) (World.new configs now) events) :=
  ⟨fun _ events => available_iff_keepsUp configs now events kind,
    fun _ events => available_iff_keepsUp configs now events kind⟩

/-- A node reports a height far ahead and then fails twice; the other one answers its poll. -/
def farAhead (ahead here : Height) : List (Event 2 Height String) :=
  [.poll 0 (.ok ahead) 5, .poll 0 (.error ⟨"connection refused", none⟩) 5,
    .poll 0 (.error ⟨"connection refused", none⟩) 5, .poll 1 (.ok here) 5]

theorem one_node_takes_pools_down :
    (∃ settings : Settings ℕ, ¬ Available rustPool settings .horizon
      (run (step rustPool settings) (World.new twoNodes 0) (farAhead 1000000 100))) ∧
    ∃ settings : Settings ℚ, ¬ Available apiClient settings .horizon
      (run (step apiClient settings) (World.new twoNodes 0) (farAhead 1000000 100)) :=
  ⟨⟨⟨3, 60000, by decide⟩, by decide +kernel⟩, ⟨⟨3, 60000, by decide +kernel⟩, by decide +kernel⟩⟩

end AfroPay.Rpc
