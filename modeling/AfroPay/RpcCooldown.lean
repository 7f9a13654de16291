import AfroPay.RpcAvailability

/-! When a rate-limited endpoint is routed to again. A success ends its cooldown early, and the
end of the cooldown alone does not bring it back: until a success is recorded its status stays
rate-limited. So the cooldown is honoured as long as no success falls into one and no endpoint
outstays its own. -/
namespace AfroPay.Rpc
open KeyedStore Runs

variable {Height Response : Type} {n : Nat} [LinearOrder Height] [Sub Height] [Zero Height]
variable (implementation : Implementation Height) (settings : Settings Height)

/-- The endpoint was reported as rate-limited less than the cooldown ago. -/
def InCooldown (w : World n Height Response) (i : Fin n) : Prop :=
  ∃ limited ∈ w.limited i, w.now < limited.since + settings.rateLimitCooldown

instance (w : World n Height Response) (i : Fin n) : Decidable (InCooldown settings w i) :=
  inferInstanceAs (Decidable (∃ limited ∈ w.limited i, _))

def World.lags (w : World n Height Response) (i : Fin n) : Bool :=
  (w.endpoints i).lags (highestBlock w.endpoints (w.endpoints i).config.kind) settings.maxBlockLag

def World.routable (w : World n Height Response) (i : Fin n) : Bool :=
  implementation.routable settings w.endpoints w.now (w.endpoints i).config.kind (w.endpoints i)

/-- Nothing is routable within its cooldown, and after it everything is that has not failed again
and does not lag. -/
def Honoured (w : World n Height Response) : Prop :=
  ∀ i, ∀ limited ∈ w.limited i,
    (w.now < limited.since + settings.rateLimitCooldown → w.routable implementation settings i = false) ∧
      (limited.since + settings.rateLimitCooldown ≤ w.now → limited.failedAgain = false →
        w.lags settings i = false → w.routable implementation settings i = true)

/-- No call turns to an endpoint within its cooldown. -/
def Spared (w : World n Height Response) (event : Event n Height Response) : Prop :=
  ∀ call ∈ tries implementation settings w event,
    ¬ InCooldown settings (step implementation settings w event) call.2

/-- The cooldown is honoured in every state and by every call of a run. -/
def HonoursCooldown (start : World n Height Response) (events : List (Event n Height Response)) : Prop :=
  Always (step implementation settings) (Honoured implementation settings) start events ∧
    Throughout (step implementation settings) (Spared implementation settings) start events

instance (w : World n Height Response) : Decidable (Honoured implementation settings w) :=
  inferInstanceAs (Decidable (∀ i, ∀ limited ∈ w.limited i, _ ∧ _))

instance (w : World n Height Response) (event : Event n Height Response) : Decidable (Spared implementation settings w event) :=
  inferInstanceAs (Decidable (∀ call ∈ tries implementation settings w event, _))

instance (start : World n Height Response) (events : List (Event n Height Response)) :
    Decidable (HonoursCooldown implementation settings start events) :=
  inferInstanceAs (Decidable (_ ∧ _))

/-- A status still rate-limited is within its cooldown, or the endpoint lags. -/
def Recovered (w : World n Height Response) : Prop :=
  ∀ i, (w.endpoints i).status = .rateLimited → InCooldown settings w i ∨ w.lags settings i = true

/-- A success is recorded outside of cooldowns only, and no call in flight has an endpoint still to
try that is reported as rate-limited. -/
def Mark.Timely (w : World n Height Response) (i : Fin n) : Mark Height → Prop
  | .success _ _ => ¬ InCooldown settings w i
  | .failure _ true => ∀ entry ∈ w.requests.entries, i ∉ entry.2.candidates.tail
  | .failure _ false => True

def Timely (w : World n Height Response) (event : Event n Height Response) : Prop :=
  ∀ entry ∈ marks implementation w event, entry.2.Timely settings w entry.1

instance (w : World n Height Response) : Decidable (Recovered settings w) :=
  inferInstanceAs (Decidable (∀ i, (w.endpoints i).status = .rateLimited → _))

instance (w : World n Height Response) (i : Fin n) : (mark : Mark Height) → Decidable (mark.Timely settings w i)
  | .success _ _ => inferInstanceAs (Decidable (¬ _))
  | .failure _ true => inferInstanceAs (Decidable (∀ entry ∈ w.requests.entries, _))
  | .failure _ false => isTrue trivial

instance (w : World n Height Response) (event : Event n Height Response) : Decidable (Timely implementation settings w event) :=
  inferInstanceAs (Decidable (∀ entry ∈ marks implementation w event, _))

variable {implementation settings} {w : World n Height Response} {event : Event n Height Response} {i : Fin n}

theorem step_now (w : World n Height Response) (event : Event n Height Response) :
    w.now ≤ (step implementation settings w event).now := by
  cases event with
  | advance milliseconds => exact Nat.le_add_right ..
  | start request kind =>
    simp only [step, World.start]
    split
    · exact le_rfl
    split <;> exact le_rfl
  | answer request outcome latencyMs =>
    simp only [step, World.answer]
    rcases w.requests.lookup request with _ | ⟨kind, _ | ⟨current, rest⟩, errors⟩
    · exact le_rfl
    · exact le_rfl
    cases outcome with
    | ok done => exact le_rfl
    | error failure =>
      simp only
      split <;> exact le_rfl
  | poll i outcome latencyMs => cases outcome <;> exact le_rfl
  | alert kind => exact le_rfl

/-- Only a report of a rate limit puts an endpoint into its cooldown. -/
theorem inCooldown_step (cooling : InCooldown settings (step implementation settings w event) i) :
    InCooldown settings w i ∨ ∃ error, marks implementation w event = some (i, .failure error true) := by
  obtain ⟨limited, known, before⟩ := cooling
  rw [(step_marks implementation settings w event).2] at known
  have earlier : w.now < limited.since + settings.rateLimitCooldown := (step_now w event).trans_lt before
  unfold World.marked at known
  split at known
  · rename_i j mark marked
    by_cases same : i = j
    · subst same
      simp only [World.mark, Function.update_self] at known
      cases mark with
      | success latencyMs height => exact .inl ⟨limited, known, earlier⟩
      | failure error rateLimited =>
        cases rateLimited with
        | true => exact .inr ⟨error, marked⟩
        | false =>
          obtain ⟨old, held, rfl⟩ := Option.map_eq_some_iff.mp known
          exact .inl ⟨old, held, earlier⟩
    · simp only [World.mark, Function.update_of_ne same] at known
      exact .inl ⟨limited, known, earlier⟩
  · exact .inl ⟨limited, known, earlier⟩

/-- A call in flight was so before, or begins with its ranking, or has one candidate less to try. -/
theorem step_request {request : Nat} {call : Request n}
    (inFlight : (step implementation settings w event).requests.lookup request = some call) :
    w.requests.lookup request = some call ∨
      (∃ kind, event = .start request kind ∧ call.candidates = (implementation.rank settings w.now w.endpoints kind).1) ∨
        ∃ old current, w.requests.lookup request = some old ∧ old.candidates = current :: call.candidates := by
  cases event with
  | advance milliseconds => exact .inl inFlight
  | start other kind =>
    simp only [step, World.start] at inFlight
    split at inFlight
    · exact .inl inFlight
    split at inFlight
    · exact .inl inFlight
    · rcases lookup_insert_some.mp inFlight with ⟨rfl, rfl⟩ | ⟨-, held⟩
      · exact .inr (.inl ⟨kind, rfl, rfl⟩)
      · exact .inl held
  | answer other outcome latencyMs =>
    simp only [step, World.answer] at inFlight
    rcases found : w.requests.lookup other with _ | ⟨kind, _ | ⟨current, rest⟩, errors⟩
    · rw [found] at inFlight
      exact .inl inFlight
    · rw [found] at inFlight
      exact .inl inFlight
    rw [found] at inFlight
    cases outcome with
    | ok done => exact .inl (lookup_erase_some inFlight)
    | error failure =>
      simp only at inFlight
      split at inFlight
      · exact .inl (lookup_erase_some inFlight)
      · rcases lookup_insert_some.mp inFlight with ⟨rfl, rfl⟩ | ⟨-, held⟩
        · exact .inr (.inr ⟨_, current, found, rfl⟩)
        · exact .inl held
  | poll i outcome latencyMs => cases outcome <;> exact .inl inFlight
  | alert kind => exact .inl inFlight

/-- What a run keeps while it meets the conditions. -/
structure Cooled (settings : Settings Height) (w : World n Height Response) : Prop where
  tidy : ∀ i, Tidy (w.endpoints i)
  down : ∀ i, InCooldown settings w i → (w.endpoints i).working = false
  once : ∀ i, ∀ limited ∈ w.limited i, limited.failedAgain = false →
    (w.endpoints i).status = .rateLimited ∨ (w.endpoints i).status = .healthy
  calls : ∀ request call, w.requests.lookup request = some call →
    call.candidates.Nodup ∧ ∀ i ∈ call.candidates.tail, ¬ InCooldown settings w i

/-- A mark that reaches its own endpoint updates that endpoint and no other one. -/
theorem marked_hit (reaches : ∀ i, implementation.marked w.endpoints i = some i) {mark : Mark Height}
    (hit : marks implementation w event = some (i, mark)) :
    (w.marked implementation settings event).endpoints i = mark.update settings w.now (w.endpoints i) ∧
      (w.marked implementation settings event).limited i = mark.remember w.now (w.limited i) := by
  unfold World.marked
  simp only [hit, World.mark, Implementation.mark, reaches]
  exact ⟨Function.update_self .., Function.update_self ..⟩

theorem marked_miss (reaches : ∀ i, implementation.marked w.endpoints i = some i)
    (miss : ∀ mark, marks implementation w event ≠ some (i, mark)) :
    (w.marked implementation settings event).endpoints i = w.endpoints i ∧
      (w.marked implementation settings event).limited i = w.limited i := by
  unfold World.marked
  cases found : marks implementation w event with
  | none => exact ⟨rfl, rfl⟩
  | some entry =>
    have other : i ≠ entry.1 := fun same => miss entry.2 (by rw [found, same])
    simp only [World.mark, Implementation.mark, reaches]
    exact ⟨Function.update_of_ne other .., Function.update_of_ne other ..⟩

theorem Cooled.routable_not_cooling (cooled : Cooled settings w) {kind : RpcEndpointKind}
    (routable : implementation.routable settings w.endpoints w.now kind (w.endpoints i) = true) :
    ¬ InCooldown settings w i := by
  intro cooling
  have down := cooled.down i cooling
  rw [(implementation.routable_only routable).1] at down
  cases down

/-- The candidates of a ranking are not in their cooldown. -/
theorem Cooled.ranked (cooled : Cooled settings w) {kind : RpcEndpointKind}
    (member : i ∈ (implementation.rank settings w.now w.endpoints kind).1) : ¬ InCooldown settings w i := by
  have candidate := (rank_perm _ _ _ _).mem_iff.mp member
  exact cooled.routable_not_cooling (mem_candidates.mp candidate).2

/-- An endpoint that a call has still to try does not enter its cooldown in a timely step. -/
theorem Cooled.tail_step (cooled : Cooled settings w) (timely : Timely implementation settings w event) {request : Nat}
    {call : Request n} (inFlight : w.requests.lookup request = some call) (member : i ∈ call.candidates.tail) :
    ¬ InCooldown settings (step implementation settings w event) i := by
  intro cooling
  rcases inCooldown_step cooling with before | ⟨error, marked⟩
  · exact (cooled.calls request call inFlight).2 i member before
  · exact timely _ marked _ (AList.mem_lookup_iff.mp inFlight) member

theorem Cooled.down_step (cooled : Cooled settings w) (reaches : ∀ i, implementation.marked w.endpoints i = some i)
    (timely : Timely implementation settings w event)
    (cooling : InCooldown settings (step implementation settings w event) i) :
    ((w.marked implementation settings event).endpoints i).working = false := by
  by_cases hit : ∃ mark, marks implementation w event = some (i, mark)
  · obtain ⟨mark, marked⟩ := hit
    rw [(marked_hit reaches marked).1]
    rcases inCooldown_step cooling with before | ⟨error, limited⟩
    · cases mark with
      | success latencyMs height => exact absurd before (timely _ marked)
      | failure error rateLimited =>
        exact markFailure_down ((cooled.tidy i).failed (cooled.down i before)) _ w.now error rateLimited
    · rw [marked] at limited
      cases limited
      exact markFailure_limited _ _ w.now error
  · have miss : ∀ mark, marks implementation w event ≠ some (i, mark) := fun mark marked => hit ⟨mark, marked⟩
    rw [(marked_miss reaches miss).1]
    rcases inCooldown_step cooling with before | ⟨error, limited⟩
    · exact cooled.down i before
    · exact absurd limited (miss _)

theorem Cooled.once_step (cooled : Cooled settings w) (reaches : ∀ i, implementation.marked w.endpoints i = some i)
    {limited : Limited} (known : limited ∈ (w.marked implementation settings event).limited i)
    (once : limited.failedAgain = false) :
    ((w.marked implementation settings event).endpoints i).status = .rateLimited ∨
      ((w.marked implementation settings event).endpoints i).status = .healthy := by
  by_cases hit : ∃ mark, marks implementation w event = some (i, mark)
  · obtain ⟨mark, marked⟩ := hit
    rw [(marked_hit reaches marked).2] at known
    rw [(marked_hit reaches marked).1]
    cases mark with
    | success latencyMs height => exact .inr rfl
    | failure error rateLimited =>
      cases rateLimited with
      | true => exact .inl rfl
      | false =>
        obtain ⟨earlier, -, rfl⟩ := Option.map_eq_some_iff.mp known
        cases once
  · have miss : ∀ mark, marks implementation w event ≠ some (i, mark) := fun mark marked => hit ⟨mark, marked⟩
    rw [(marked_miss reaches miss).2] at known
    rw [(marked_miss reaches miss).1]
    exact cooled.once i limited known once

theorem Cooled.step (cooled : Cooled settings w) (reaches : ∀ i, implementation.marked w.endpoints i = some i)
    (timely : Timely implementation settings w event) : Cooled settings (step implementation settings w event) := by
  have effect := step_marks implementation settings w event
  refine ⟨fun i => ?_, fun i cooling => ?_, fun i limited known once => ?_, fun request call inFlight => ?_⟩
  · refine Tidy.of_same (effect.1 i) ?_
    rcases marked_endpoint implementation settings w event i with same | ⟨mark, updated⟩
    · rw [same]
      exact cooled.tidy i
    · rw [updated]
      exact (cooled.tidy i).update settings mark w.now
  · rw [working_of_status (status_of_same (effect.1 i))]
    exact cooled.down_step reaches timely cooling
  · rw [status_of_same (effect.1 i)]
    rw [effect.2] at known
    exact cooled.once_step reaches known once
  · rcases step_request inFlight with held | ⟨kind, started, ranking⟩ | ⟨old, current, held, shape⟩
    · exact ⟨(cooled.calls request call held).1, fun i member => cooled.tail_step timely held member⟩
    · rw [ranking]
      refine ⟨(rank_perm _ _ _ _).nodup_iff.mpr (candidates_nodup _ _ _), fun i member cooling => ?_⟩
      rcases inCooldown_step cooling with before | ⟨error, marked⟩
      · exact cooled.ranked (List.mem_of_mem_tail member) before
      · subst started
        cases marked
    · obtain ⟨unique, -⟩ := cooled.calls request old held
      rw [shape] at unique
      refine ⟨unique.of_cons, fun i member => cooled.tail_step timely held ?_⟩
      rw [shape]
      exact List.mem_of_mem_tail member

/-- Within the conditions the state honours the cooldown. -/
theorem Cooled.honoured (cooled : Cooled settings w) (recovered : Recovered settings w) :
    Honoured implementation settings w := by
  intro i limited known
  constructor
  · intro before
    rw [Bool.eq_false_iff]
    exact fun routable => cooled.routable_not_cooling routable ⟨limited, known, before⟩
  · intro elapsed once fresh
    rcases cooled.once i limited known once with stuck | healthy
    · rcases recovered i stuck with ⟨held, same, before⟩ | behind
      · rw [Option.mem_unique same known] at before
        exact absurd elapsed (not_le.mpr before)
      · rw [fresh] at behind
        cases behind
    · have working : (w.endpoints i).working = true := by simp [RpcEndpointState.working, healthy]
      exact implementation.routable_if working ((cooled.tidy i).unlimited working) fresh

/-- Within the conditions a call turns only to endpoints out of their cooldown: those it ranked
were, and none of those it has still to try has come into one. -/
theorem Cooled.spared (cooled : Cooled settings w) (timely : Timely implementation settings w event) :
    Spared implementation settings w event := by
  rintro ⟨request, i⟩ tried cooling
  cases event with
  | start other kind =>
    simp only [tries] at tried
    split at tried
    · cases tried
    · obtain ⟨first, head, same⟩ := Option.map_eq_some_iff.mp tried
      cases same
      rcases inCooldown_step cooling with before | ⟨error, marked⟩
      · exact cooled.ranked (List.mem_of_mem_head? head) before
      · cases marked
  | answer other outcome latencyMs =>
    cases outcome with
    | ok done => cases tried
    | error failure =>
      simp only [tries] at tried
      split at tried
      · rename_i held
        cases tried
        exact cooled.tail_step timely held List.mem_cons_self cooling
      · cases tried
  | advance milliseconds => cases tried
  | poll j outcome latencyMs => cases outcome <;> cases tried
  | alert kind => cases tried

omit [Sub Height] in
theorem cooled_new (configs : Fin n → RpcEndpointConfig) (now : Nat) :
    Cooled settings (World.new configs now : World n Height Response) :=
  ⟨fun i => tidy_fresh (configs i), fun _ cooling => (nomatch cooling), fun _ _ known => (nomatch known),
    fun _ _ inFlight => (nomatch inFlight)⟩

theorem config_step (w : World n Height Response) (event : Event n Height Response) (i : Fin n) :
    ((step implementation settings w event).endpoints i).config = (w.endpoints i).config := by
  have kept := (step_marks implementation settings w event).1 i
  have same : ((step implementation settings w event).endpoints i).config =
      ((w.marked implementation settings event).endpoints i).config := by
    simpa using congrArg RpcEndpointState.config kept
  rw [same]
  rcases marked_endpoint implementation settings w event i with unchanged | ⟨mark, updated⟩
  · rw [unchanged]
  · rw [updated]
    cases mark with
    | success latencyMs height => rfl
    | failure error rateLimited => cases rateLimited <;> rfl

/-- In a run whose marks reach their endpoints and that meets the conditions, the cooldown is honoured. -/
theorem honoursCooldown_of_timely {configs : Fin n → RpcEndpointConfig} {now : Nat} {events : List (Event n Height Response)}
    (reaches : ∀ endpoints : Endpoints n Height, (∀ i, (endpoints i).config = configs i) →
      ∀ i, implementation.marked endpoints i = some i)
    (recovered : Always (step implementation settings) (Recovered settings) (World.new configs now) events)
    (timely : Throughout (step implementation settings) (Timely implementation settings) (World.new configs now) events) :
    HonoursCooldown implementation settings (World.new configs now) events := by
  let invariant (w : World n Height Response) : Prop := (∀ i, (w.endpoints i).config = configs i) ∧ Cooled settings w
  have initial : invariant (World.new configs now) := ⟨fun _ => rfl, cooled_new configs now⟩
  have preserved : ∀ w event, invariant w → Timely implementation settings w event →
      invariant (step implementation settings w event) := by
    rintro w event ⟨config, cooled⟩ inTime
    exact ⟨fun i => (config_step w event i).trans (config i), cooled.step (reaches w.endpoints config) inTime⟩
  have both := throughout_and timely recovered.1
  refine ⟨⟨?_, ?_⟩, ?_⟩
  · exact throughout_of invariant (fun w event held meets => preserved w event held meets.1)
      (fun w event held meets => held.2.honoured meets.2) initial both
  · exact (run_invariant_of invariant preserved initial timely).2.honoured recovered.2
  · exact throughout_of invariant preserved (fun w event held inTime => held.2.spared inTime) initial timely

/-- Distinct ids lead every mark of the worker to its own endpoint; the API's marks need none. -/
theorem cooldown_honoured (configs : Fin n → RpcEndpointConfig) (now : Nat) :
    (∀ (settings : Settings ℕ) (events : List (Event n ℕ Response)), Function.Injective (fun i => (configs i).id) →
      Always (step rustPool settings) (Recovered settings) (World.new configs now) events →
      Throughout (step rustPool settings) (Timely rustPool settings) (World.new configs now) events →
      HonoursCooldown rustPool settings (World.new configs now) events) ∧
    ∀ (settings : Settings ℚ) (events : List (Event n ℚ Response)),
      Always (step apiClient settings) (Recovered settings) (World.new configs now) events →
      Throughout (step apiClient settings) (Timely apiClient settings) (World.new configs now) events →
      HonoursCooldown apiClient settings (World.new configs now) events := by
  refine ⟨fun settings events distinct => honoursCooldown_of_timely fun endpoints config i => ?_,
    fun settings events => honoursCooldown_of_timely fun endpoints config i => rfl⟩
  refine rustPool.marked_alone fun j same => distinct ?_
  rwa [config j, config i] at same

/-- The answer of a node that limits its rate, as the worker and the API see it. -/
def tooManyRequests : Failure := ⟨"rpc response was invalid: Horizon returned 429 Too Many Requests", some 429⟩

/-- One node is rate-limited and then fails otherwise; its cooldown passes and it is polled again.
The other one serves a request meanwhile. -/
def limitedThenDown (height : Height) : List (Event 2 Height String) :=
  [.poll 0 (.error tooManyRequests) 5, .start 0 .horizon, .answer 0 (.ok "a ledger") 5, .advance 30000,
    .poll 0 (.error ⟨"connection refused", none⟩) 5, .advance 30000, .poll 0 (.ok height) 5]

theorem twoNodes_distinct : Function.Injective fun i => (twoNodes i).id := by
  unfold Function.Injective
  decide

theorem cooldown_honoured_down :
    HonoursCooldown rustPool ⟨3, 60000, by decide⟩ (World.new twoNodes 0) (limitedThenDown 100) ∧
      HonoursCooldown apiClient ⟨3, 60000, by decide +kernel⟩ (World.new twoNodes 0) (limitedThenDown 100) :=
  ⟨(cooldown_honoured twoNodes 0).1 _ (limitedThenDown 100) twoNodes_distinct (by decide +kernel)
      (by decide +kernel),
    (cooldown_honoured twoNodes 0).2 _ (limitedThenDown 100) (by decide +kernel) (by decide +kernel)⟩

/-- A poll that succeeds ends the cooldown at once, and without one the endpoint stays away for good. -/
theorem cooldown_not_honoured :
    (∃ settings : Settings ℕ,
      ¬ HonoursCooldown rustPool settings (World.new twoNodes 0 : World 2 ℕ String)
          [.poll 0 (.error tooManyRequests) 5, .advance 10000, .poll 0 (.ok 100) 5] ∧
        ¬ HonoursCooldown rustPool settings (World.new twoNodes 0 : World 2 ℕ String)
          [.poll 0 (.error tooManyRequests) 5, .advance 60000]) ∧
    ∃ settings : Settings ℚ,
      ¬ HonoursCooldown apiClient settings (World.new twoNodes 0 : World 2 ℚ String)
          [.poll 0 (.error tooManyRequests) 5, .advance 10000, .poll 0 (.ok 100) 5] ∧
        ¬ HonoursCooldown apiClient settings (World.new twoNodes 0 : World 2 ℚ String)
          [.poll 0 (.error tooManyRequests) 5, .advance 60000] :=
  ⟨⟨⟨3, 60000, by decide⟩, by decide +kernel⟩, ⟨⟨3, 60000, by decide +kernel⟩, by decide +kernel⟩⟩

end AfroPay.Rpc
