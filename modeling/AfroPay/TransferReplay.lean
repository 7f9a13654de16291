import AfroPay.TransferIdempotency
import AfroPay.TransferLimit

/-! What a retry under a key is answered. There are three sources of a response: the
call that created the row, the cache, and the row itself, whose status goes on changing.
They agree as long as the row is read only while it says what has been answered, and a
retry is spared the limit check as long as it finds the cached response. -/
namespace AfroPay.Transfer
open KeyedStore Runs Kyc ScriptText

theorem become_inj {s base : System} {id : Nat} {request : Request} {first second : Phase}
    (same : s.become id request first = base.become id request second) : first = second := by
  have phases := congrArg (fun reached : System => (reached.requests.lookup id).map Request.phase) same
  simpa only [System.become, AList.lookup_insert, Option.map_some, Option.some.injEq] using phases

/-- Only a read of the table answers with the row. -/
theorem requestStep_finds {config : Config} {s base : System} {id : Nat} {request : Request} {outcome : Outcome}
    {response : Response} (moved : requestStep config s id request outcome =
      base.become id request (.replayEnqueue response))
    (open' : ∀ response replay, request.phase ≠ .returned response replay) :
    request.phase = .replayFind ∧ outcome = .done := by
  obtain ⟨userId, dto, idempotencyKey, phase⟩ := request
  cases phase with
  | returned held replay => exact absurd rfl (open' held replay)
  | replayFind =>
    cases outcome with
    | done => exact ⟨rfl, rfl⟩
    | _ => cases become_inj moved
  | gone => cases outcome <;> cases become_inj moved
  | _ =>
    cases outcome with
    | done =>
      simp only [requestStep] at moved
      repeat' split at moved
      all_goals cases become_inj moved
    | found walletId =>
      simp only [requestStep] at moved
      cases become_inj moved
    | _ => cases become_inj moved

/-- The responses under this user and key that a call has in hand or has returned, and
the cached one. -/
def System.circulating (s : System) (userId : UserId) (key : String) : List Response :=
  (s.requests.entries.filterMap fun entry =>
    if entry.2.userId = userId ∧ entry.2.idempotencyKey = some key then entry.2.phase.response else none) ++
  (s.cache.lookup (idempotencyCacheKey userId key)).toList

theorem mem_circulating {s : System} {userId : UserId} {key : String} {response : Response} :
    response ∈ s.circulating userId key ↔
      (∃ id request, s.requests.lookup id = some request ∧ request.userId = userId ∧
        request.idempotencyKey = some key ∧ request.phase.response = some response) ∨
      s.cache.lookup (idempotencyCacheKey userId key) = some response := by
  simp only [System.circulating, List.mem_append, List.mem_filterMap, Option.mem_toList]
  refine or_congr_left ⟨?_, ?_⟩
  · rintro ⟨⟨id, request⟩, member, held⟩
    split at held
    · rename_i mine
      exact ⟨id, request, AList.mem_lookup_iff.mpr member, mine.1, mine.2, held⟩
    · cases held
  · rintro ⟨id, request, found, user, keyed, held⟩
    exact ⟨⟨id, request⟩, AList.mem_lookup_iff.mp found, by simp [user, keyed, held]⟩

/-- A call under this user and key has returned. -/
def System.answered (s : System) (userId : UserId) (key : String) : Bool :=
  s.requests.entries.any fun entry => entry.2.userId = userId && entry.2.idempotencyKey = some key &&
    match entry.2.phase with
    | .returned _ _ => true
    | _ => false

/-- A call under this user and key has returned this response. -/
def Answers (s : System) (userId : UserId) (key : String) (response : Response) : Prop :=
  ∃ id request replay, s.requests.lookup id = some request ∧ request.userId = userId ∧
    request.idempotencyKey = some key ∧ request.phase = .returned response replay

theorem answered_iff {s : System} {userId : UserId} {key : String} :
    s.answered userId key = true ↔ ∃ response, Answers s userId key response := by
  simp only [System.answered, List.any_eq_true, Bool.and_eq_true, decide_eq_true_eq]
  constructor
  · rintro ⟨⟨id, request⟩, member, ⟨user, keyed⟩, returned⟩
    split at returned
    · rename_i response replay phase
      exact ⟨response, id, request, replay, AList.mem_lookup_iff.mpr member, user, keyed, phase⟩
    · cases returned
  · rintro ⟨response, id, request, replay, found, user, keyed, phase⟩
    exact ⟨⟨id, request⟩, AList.mem_lookup_iff.mp found, ⟨user, keyed⟩, by simp [phase]⟩

/-- A replay from the table reads the status that every response under its key carries,
and a look into the cache under a key that has been answered finds a response. -/
def replaysAgree (userId : UserId) (key : String) (s : System) : Event → Bool
  | .proceed id .done =>
    match s.requests.lookup id with
    | some ⟨user, _, idempotencyKey, .replayFind⟩ =>
      if user = userId ∧ idempotencyKey = some key then
        match s.findByKey userId key with
        | some (_, row) => (s.circulating userId key).all fun response => response.status = row.status
        | none => true
      else true
    | some ⟨user, _, idempotencyKey, .cacheGet⟩ =>
      if user = userId ∧ idempotencyKey = some key then
        !s.answered userId key || (s.cache.lookup (idempotencyCacheKey userId key)).isSome
      else true
    | _ => true
  | _ => true

/-- Every call that returned has returned the same response, and a call that was sent
after one had returned is not refused by the limit check. -/
def ReplaysEqual (config : Config) (events : List Event) (userId : UserId) (key : String) : Prop :=
  (∀ first second, Answers (run (step config) System.empty events) userId key first →
    Answers (run (step config) System.empty events) userId key second → first = second) ∧
  ∀ early id dto middle late request,
    events = early ++ .send id userId dto (some key) :: middle ++ late →
    (run (step config) System.empty early).answered userId key →
    (run (step config) System.empty early).requests.lookup id = none →
    let s := run (step config) System.empty (early ++ .send id userId dto (some key) :: middle)
    s.requests.lookup id = some request → request.phase = .limit →
      checkLimit config s userId dto = .ok ()

/-- All responses under the key are one. -/
structure Agreeing (s : System) (userId : UserId) (key : String) : Prop where
  consistent : Consistent s
  same : ∀ first ∈ s.circulating userId key, ∀ second ∈ s.circulating userId key, first = second

theorem agreeing_empty (userId : UserId) (key : String) : Agreeing System.empty userId key :=
  ⟨consistent_empty, by simp [System.circulating, System.empty]⟩

/-- What circulates under a key is about the key's transaction. -/
theorem circulating_owns {s : System} {userId : UserId} {key : String} {response : Response}
    (consistent : Consistent s) (member : response ∈ s.circulating userId key) :
    Owns s userId (some key) response.txId := by
  rcases mem_circulating.mp member with ⟨id, request, found, rfl, keyed, held⟩ | cached
  · rw [← keyed]
    exact consistent.requests id request found response held
  · obtain ⟨user, other, same, owns⟩ := consistent.cached _ response cached
    obtain ⟨rfl, rfl⟩ := idempotencyCacheKey_injective same
    exact owns

theorem step_proceed_cases (config : Config) (s : System) (id : Nat) (outcome : Outcome) :
    step config s (.proceed id outcome) = s ∨ ∃ request base next, s.requests.lookup id = some request ∧
      step config s (.proceed id outcome) = base.become id request next ∧ Proceeds config s request base next ∧
      ∀ response, next = .replayEnqueue response → request.phase = .replayFind ∧ outcome = .done := by
  cases found : s.requests.lookup id with
  | none => exact .inl (by simp only [step, found])
  | some request =>
    have stepped : step config s (.proceed id outcome) = requestStep config s id request outcome := by
      simp only [step, found]
    rw [stepped]
    by_cases returned : ∃ response replay, request.phase = .returned response replay
    · obtain ⟨response, replay, phase⟩ := returned
      exact .inl (by simp only [requestStep, phase])
    · simp only [not_exists] at returned
      rcases request_proceeds config s id request outcome with same | ⟨base, next, moved, -, proceeds⟩
      · exact .inl same
      · refine .inr ⟨request, base, next, rfl, moved, proceeds, ?_⟩
        rintro response rfl
        exact requestStep_finds moved returned

/-- A step of a call leaves the other calls alone, and caches at most what the call has in
hand. -/
theorem Proceeds.frame {config : Config} {s base : System} {request : Request} {next : Phase}
    (proceeds : Proceeds config s request base next) : base.requests = s.requests ∧
      (base.cache = s.cache ∨ ∃ key response, request.idempotencyKey = some key ∧
        request.phase.response = some response ∧
        base.cache = s.cache.insert (idempotencyCacheKey request.userId key) response) := by
  cases proceeds with
  | enqueues response replay queueing =>
    obtain ⟨jobs, number, same, -⟩ := enqueueJob_frame s response.txId request
    rw [same]
    exact ⟨rfl, .inl rfl⟩
  | caches key response replay given storing =>
    exact ⟨rfl, .inr ⟨key, response, (truthy_some.mp given).1, by simp [storing, Phase.response], rfl⟩⟩
  | _ => exact ⟨rfl, .inl rfl⟩

section Key
variable {config : Config} {s base : System} {id : Nat} {request : Request} {next : Phase}
variable {userId : UserId} {key : String}

/-- What circulates after a step of a call circulated before, or the call has just got it. -/
theorem circulating_become {response : Response} (found : s.requests.lookup id = some request)
    (proceeds : Proceeds config s request base next)
    (member : response ∈ (base.become id request next).circulating userId key) :
    response ∈ s.circulating userId key ∨
      request.userId = userId ∧ request.idempotencyKey = some key ∧ next.response = some response := by
  obtain ⟨requests, cache⟩ := proceeds.frame
  rcases mem_circulating.mp member with ⟨other, held, lookup, user, keyed, hand⟩ | cached
  · obtain ⟨-, rfl⟩ | ⟨-, old⟩ := lookup_insert_some.mp lookup
    · exact .inr ⟨user, keyed, hand⟩
    · exact .inl (mem_circulating.mpr (.inl ⟨other, held, requests ▸ old, user, keyed, hand⟩))
  · change base.cache.lookup _ = _ at cached
    rcases cache with same | ⟨stored, held, keyed, hand, same⟩
    · exact .inl (mem_circulating.mpr (.inr (same ▸ cached)))
    · rw [same] at cached
      obtain ⟨equal, rfl⟩ | ⟨-, old⟩ := lookup_insert_some.mp cached
      · obtain ⟨rfl, rfl⟩ := idempotencyCacheKey_injective equal
        exact .inl (mem_circulating.mpr (.inl ⟨id, request, found, rfl, keyed, hand⟩))
      · exact .inl (mem_circulating.mpr (.inr old))

/-- A response that a call under the key has just got is the one that circulates, if any does. -/
theorem got_agrees {outcome : Outcome} {response : Response} (consistent : Consistent s)
    (found : s.requests.lookup id = some request) (proceeds : Proceeds config s request base next)
    (reads : ∀ response, next = .replayEnqueue response → request.phase = .replayFind ∧ outcome = .done)
    (agree : replaysAgree userId key s (.proceed id outcome))
    (user : request.userId = userId) (keyed : request.idempotencyKey = some key)
    (got : next.response = some response) : response ∈ s.circulating userId key ∨
      ∀ other ∈ s.circulating userId key, other = response := by
  have inHand : ∀ held, request.phase.response = some held → held ∈ s.circulating userId key :=
    fun held hand => mem_circulating.mpr (.inl ⟨id, request, found, user, keyed, hand⟩)
  cases proceeds with
  | leaves => cases got
  | misses => cases got
  | passes => cases got
  | resolves => cases got
  | loses => cases got
  | replays stored held given hit =>
    cases got
    obtain ⟨same, -⟩ := truthy_some.mp given
    cases keyed.symm.trans same
    exact .inl (mem_circulating.mpr (.inr (user ▸ hit)))
  | creates walletId inserting free =>
    cases got
    refine .inr fun other member => ?_
    simp only [conflicts, keyed] at free
    exact absurd (circulating_owns consistent member) (findByKey_none (user ▸ free))
  | enqueues held replay queueing after =>
    refine .inl (inHand response ?_)
    have same : held = response := by
      rcases after with rfl | rfl <;> simpa [Phase.response] using got
    subst same
    rcases queueing with phase | phase <;> simp [phase, Phase.response]
  | finds stored txId row given hit =>
    cases got
    obtain ⟨finding, rfl⟩ := reads _ rfl
    obtain ⟨same, -⟩ := truthy_some.mp given
    cases keyed.symm.trans same
    subst user
    refine .inr fun other member => ?_
    obtain ⟨owner, dto, idempotencyKey, phase⟩ := request
    cases finding
    cases keyed
    simp only [replaysAgree, found, and_self, if_true, hit, List.all_eq_true, decide_eq_true_eq] at agree
    have status := agree other member
    have txIds := consistent.unique _ _ _ _ (circulating_owns consistent member) (findByKey_some hit)
    cases other
    cases status
    cases txIds
    rfl
  | caches stored held replay given storing =>
    cases got
    exact .inl (inHand response (by simp [storing, Phase.response]))
  | skips held replay storing =>
    cases got
    exact .inl (inHand response (by simp [storing, Phase.response]))

theorem Agreeing.proceeds {outcome : Outcome} (agreeing : Agreeing s userId key)
    (found : s.requests.lookup id = some request) (proceeds : Proceeds config s request base next)
    (reads : ∀ response, next = .replayEnqueue response → request.phase = .replayFind ∧ outcome = .done)
    (agree : replaysAgree userId key s (.proceed id outcome))
    (consistent : Consistent (base.become id request next)) :
    Agreeing (base.become id request next) userId key := by
  refine ⟨consistent, ?_⟩
  have new : ∀ response ∈ (base.become id request next).circulating userId key,
      response ∈ s.circulating userId key ∨ next.response = some response ∧
        ∀ other ∈ s.circulating userId key, other = response := by
    intro response member
    rcases circulating_become found proceeds member with old | ⟨user, keyed, got⟩
    · exact .inl old
    · exact (got_agrees agreeing.consistent found proceeds reads agree user keyed got).imp_right fun same =>
        ⟨got, same⟩
  intro first one second two
  rcases new first one with old | ⟨got, same⟩
  · rcases new second two with old' | ⟨-, same'⟩
    · exact agreeing.same first old second old'
    · exact same' first old
  · rcases new second two with old' | ⟨got', -⟩
    · exact (same second old').symm
    · exact Option.some.inj (got.symm.trans got')

end Key

/-- Calls without a response, lost cache entries and rows do not matter here. -/
theorem Agreeing.frame {s after : System} {userId : UserId} {key : String} (agreeing : Agreeing s userId key)
    (consistent : Consistent after)
    (requests : ∀ id request, after.requests.lookup id = some request → request.phase.response = none ∨
      s.requests.lookup id = some request)
    (cache : ∀ cacheKey response, after.cache.lookup cacheKey = some response →
      s.cache.lookup cacheKey = some response) : Agreeing after userId key := by
  have kept : ∀ response ∈ after.circulating userId key, response ∈ s.circulating userId key := by
    intro response member
    rcases mem_circulating.mp member with ⟨id, request, lookup, user, keyed, hand⟩ | cached
    · rcases requests id request lookup with silent | old
      · cases silent.symm.trans hand
      · exact mem_circulating.mpr (.inl ⟨id, request, old, user, keyed, hand⟩)
    · exact mem_circulating.mpr (.inr (cache _ response cached))
  exact ⟨consistent, fun first one second two => agreeing.same first (kept first one) second (kept second two)⟩

theorem settle_frame (s : System) (txId : Nat) (event : Settlement.Event) :
    (s.settle txId event).requests = s.requests ∧ (s.settle txId event).cache = s.cache := by
  unfold System.settle
  split <;> exact ⟨rfl, rfl⟩

/-- Deliveries, settlement and the calendar. -/
def Event.background : Event → Bool
  | .deliver _ _ | .settle _ _ | .newDay => true
  | _ => false

/-- The background touches neither calls nor cache. -/
theorem background_frame (config : Config) (s : System) {event : Event} (background : event.background) :
    (step config s event).requests = s.requests ∧ (step config s event).cache = s.cache := by
  cases event with
  | deliver id worker =>
    simp only [step]
    split
    · exact settle_frame s _ _
    · exact ⟨rfl, rfl⟩
  | settle txId event =>
    cases event with
    | deliver worker job => exact ⟨rfl, rfl⟩
    | _ => exact settle_frame s txId _
  | newDay => exact ⟨rfl, rfl⟩
  | _ => cases background

theorem Agreeing.step {config : Config} {s : System} {userId : UserId} {key : String} {event : Event}
    (agreeing : Agreeing s userId key) (agree : replaysAgree userId key s event) :
    Agreeing (step config s event) userId key := by
  have consistent := agreeing.consistent.steps (step_cases config s event)
  by_cases background : event.background
  · obtain ⟨requests, cache⟩ := background_frame config s background
    exact agreeing.frame consistent (fun id request lookup => .inr (requests ▸ lookup))
      (fun cacheKey response cached => cache ▸ cached)
  cases event with
  | proceed id outcome =>
    rcases step_proceed_cases config s id outcome with same | ⟨request, base, next, found, moved, proceeds, reads⟩
    · rwa [same]
    · rw [moved] at consistent ⊢
      exact agreeing.proceeds found proceeds reads agree consistent
  | evict cacheKey =>
    exact agreeing.frame consistent (fun id request lookup => .inr lookup)
      (fun other response cached => lookup_erase_some cached)
  | send id user dto idempotencyKey =>
    have cache : (Transfer.step config s (.send id user dto idempotencyKey)).cache = s.cache := by
      simp only [Transfer.step]
      split <;> rfl
    refine agreeing.frame consistent ?_ (fun cacheKey response cached => cache ▸ cached)
    intro other request lookup
    simp only [Transfer.step] at lookup
    split at lookup
    · obtain ⟨-, rfl⟩ | ⟨-, old⟩ := lookup_insert_some.mp lookup
      · refine .inl ?_
        simp only
        split <;> rfl
      · exact .inr old
    · exact .inr lookup
  | crash id =>
    have cache : (Transfer.step config s (.crash id)).cache = s.cache := by
      simp only [Transfer.step]
      split <;> rfl
    refine agreeing.frame consistent ?_ (fun cacheKey response cached => cache ▸ cached)
    intro other request lookup
    simp only [Transfer.step] at lookup
    split at lookup
    · exact .inr lookup
    · exact .inr lookup
    · obtain ⟨-, rfl⟩ | ⟨-, old⟩ := lookup_insert_some.mp lookup
      · exact .inl rfl
      · exact .inr old
  | _ => exact absurd rfl background

/-- Only its own steps and its crash change a call. -/
theorem call_kept {config : Config} {s : System} {id : Nat} {request : Request} {event : Event}
    (found : s.requests.lookup id = some request) (unmoved : ∀ outcome, event ≠ .proceed id outcome)
    (alive : event ≠ .crash id) : (step config s event).requests.lookup id = some request := by
  by_cases background : event.background
  · rwa [(background_frame config s background).1]
  cases event with
  | proceed moved outcome =>
    have distinct : id ≠ moved := by
      rintro rfl
      exact unmoved outcome rfl
    rcases step_proceed_cases config s moved outcome with same | ⟨held, base, next, lookup, same, proceeds, -⟩
    · rwa [same]
    · rw [same]
      exact (AList.lookup_insert_ne distinct).trans (proceeds.frame.1 ▸ found)
  | evict cacheKey => exact found
  | send sent user dto key =>
    simp only [step]
    split
    · rename_i fresh
      have distinct : id ≠ sent := by
        rintro rfl
        cases fresh.symm.trans found
      exact (AList.lookup_insert_ne distinct).trans found
    · exact found
  | crash gone =>
    have distinct : id ≠ gone := by
      rintro rfl
      exact alive rfl
    simp only [step]
    split
    · exact found
    · exact found
    · exact (AList.lookup_insert_ne distinct).trans found
  | _ => exact absurd rfl background

/-- A call that has returned stays as it is. -/
theorem returned_stays {config : Config} {s : System} {id : Nat} {request : Request} {response : Response}
    {replay : Bool} (found : s.requests.lookup id = some request) (returned : request.phase = .returned response replay)
    (event : Event) : (step config s event).requests.lookup id = some request := by
  obtain ⟨user, dto, key, phase⟩ := request
  cases returned
  by_cases moved : ∃ outcome, event = .proceed id outcome
  · obtain ⟨outcome, rfl⟩ := moved
    simp only [step, found, requestStep]
  by_cases crashed : event = .crash id
  · subst crashed
    simp only [step, found]
  · exact call_kept found (fun outcome same => moved ⟨outcome, same⟩) crashed

theorem answered_stays {config : Config} {s : System} {userId : UserId} {key : String}
    (answered : s.answered userId key) (event : Event) : (step config s event).answered userId key := by
  obtain ⟨response, id, request, replay, found, user, keyed, returned⟩ := answered_iff.mp answered
  exact answered_iff.mpr ⟨response, id, request, replay, returned_stays found returned event, user, keyed, returned⟩

/-- The phases of a call that finds its response in the cache. -/
def Phase.spared : Phase → Bool
  | .cacheGet | .returned _ _ | .gone => true
  | _ => false

/-- A call under a key that had been answered when it was sent. -/
structure Spared (s : System) (userId : UserId) (key : String) (id : Nat) (dto : SendDto) : Prop where
  answered : s.answered userId key
  call : ∃ phase, s.requests.lookup id = some ⟨userId, dto, some key, phase⟩ ∧ phase.spared

/-- A retry that looks into the cache returns what it finds or fails. -/
theorem spared_proceeds {config : Config} {s : System} {userId : UserId} {key : String} {id : Nat} {dto : SendDto}
    {phase : Phase} {outcome : Outcome} (given : key ≠ "") (answered : s.answered userId key)
    (found : s.requests.lookup id = some ⟨userId, dto, some key, phase⟩) (spared : phase.spared)
    (agree : replaysAgree userId key s (.proceed id outcome)) :
    ∃ next, (step config s (.proceed id outcome)).requests.lookup id = some ⟨userId, dto, some key, next⟩ ∧
      next.spared := by
  have truth : truthy (some key) = some key := truthy_some.mpr ⟨rfl, given⟩
  cases phase with
  | returned held replay => exact ⟨_, returned_stays found rfl _, rfl⟩
  | cacheGet =>
    cases outcome with
    | done =>
      simp only [replaysAgree, found, and_self, if_true, answered, Bool.not_true, Bool.false_or] at agree
      obtain ⟨response, hit⟩ := Option.isSome_iff_exists.mp agree
      exact ⟨.returned response true, by simp [step, found, requestStep, truth, hit, System.become], rfl⟩
    | _ => exact ⟨.gone, by simp [step, found, requestStep, System.become], rfl⟩
  | gone => exact ⟨.gone, by cases outcome <;> simp [step, found, requestStep, System.become], rfl⟩
  | _ => cases spared

theorem Spared.step {config : Config} {s : System} {userId : UserId} {key : String} {id : Nat} {dto : SendDto}
    {event : Event} (given : key ≠ "") (spared : Spared s userId key id dto) (agree : replaysAgree userId key s event) :
    Spared (step config s event) userId key id dto := by
  refine ⟨answered_stays spared.answered event, ?_⟩
  obtain ⟨phase, found, fine⟩ := spared.call
  by_cases moved : ∃ outcome, event = .proceed id outcome
  · obtain ⟨outcome, rfl⟩ := moved
    exact spared_proceeds given spared.answered found fine agree
  by_cases crashed : event = .crash id
  · subst crashed
    by_cases returned : ∃ response replay, phase = .returned response replay
    · obtain ⟨response, replay, rfl⟩ := returned
      exact ⟨_, returned_stays found rfl _, rfl⟩
    · refine ⟨.gone, ?_, rfl⟩
      simp only [Transfer.step, found]
      split
      · rename_i same
        cases same
        exact absurd ⟨_, _, rfl⟩ returned
      · rename_i same
        cases same
      · rename_i same
        cases same
        exact AList.lookup_insert _
  · exact ⟨phase, call_kept found (fun outcome same => moved ⟨outcome, same⟩) crashed, fine⟩

/-- In every run in which replays from the table read what has been answered and retries
of answered calls find the cached response, every call under a key returns the same
response, and no retry of an answered call is refused by the limit check. -/
theorem replays_equal_original (config : Config) (events : List Event) (userId : UserId) (key : String)
    (given : key ≠ "")
    (agree : Throughout (step config) (fun s event => replaysAgree userId key s event) System.empty events) :
    ReplaysEqual config events userId key := by
  constructor
  · intro first second one two
    have final := run_invariant_of (fun s => Agreeing s userId key)
      (fun s event held meets => held.step meets) (agreeing_empty userId key) agree
    have circulates : ∀ response, Answers (run (step config) System.empty events) userId key response →
        response ∈ (run (step config) System.empty events).circulating userId key := by
      rintro response ⟨id, request, replay, found, user, keyed, returned⟩
      exact mem_circulating.mpr (.inl ⟨id, request, found, user, keyed, by simp [returned, Phase.response]⟩)
    exact final.same first (circulates first one) second (circulates second two)
  · rintro early id dto middle late request rfl answered fresh s found limit
    rw [List.append_assoc] at agree
    obtain ⟨-, -, after⟩ := (throughout_append _ early _).mp agree
    have truth : (truthy (some key)).isSome := by rw [truthy_some.mpr ⟨rfl, given⟩]; rfl
    have started : Spared (step config (run (step config) System.empty early) (.send id userId dto (some key)))
        userId key id dto := by
      refine ⟨answered_stays answered _, .cacheGet, ?_, rfl⟩
      simp only [step, fresh, truth, if_true, AList.lookup_insert]
    have spared := run_invariant_of (fun s => Spared s userId key id dto)
      (fun s event held meets => held.step given meets) started ((throughout_append _ middle late).mp after).1
    obtain ⟨phase, lookup, fine⟩ := spared.call
    have same : s = run (step config)
        (step config (run (step config) System.empty early) (.send id userId dto (some key))) middle := by
      simp only [s, run_append, run_cons]
    rw [same] at found
    cases lookup.symm.trans found
    simp only at limit
    rw [limit] at fine
    cases fine

/-- The call goes on by so many steps that all succeed. -/
def goesOn (call steps : Nat) : List Event := List.replicate steps (.proceed call .done)

/-- Sixty dollars are sent under a key, and sent again once the transfer has settled. -/
def sentAgain : List Event :=
  sends 0 "k1" "60" ++ goesOn 0 1 ++ settles 0 "k1" ++
    [.send 1 sender ⟨"GDEST", "60", "USDC", none, none⟩ (some "k1")] ++ goesOn 1 1

/-- A transfer is sent twice at once, and settles before the second call reads the row. -/
def sentTwice : List Event :=
  (sends 0 "k1" "60").take 4 ++ (sends 1 "k1" "60").take 4 ++ goesOn 0 3 ++ settles 0 "k1" ++ goesOn 1 4

/-- A retry after settlement is answered from the cache, though its amount no longer fits the limit. -/
theorem replay_after_settlement :
    "k1" ≠ "" ∧ Throughout (step dollarsOnly) (fun s event => replaysAgree sender "k1" s event) System.empty
      sentAgain ∧ ReplaysEqual dollarsOnly sentAgain sender "k1" := by
  have given : "k1" ≠ "" := by decide
  have agree : Throughout (step dollarsOnly) (fun s event => replaysAgree sender "k1" s event) System.empty
      sentAgain := by decide +kernel
  exact ⟨given, agree, replays_equal_original dollarsOnly sentAgain sender "k1" given agree⟩

/-- Two calls under one key both return, the one that created the row with `PENDING` and
the one that lost the insert with `SUCCESS`. -/
theorem concurrent_replay_differs : ¬ ∀ (config : Config) (events : List Event) (userId : UserId) (key : String),
    key ≠ "" → ReplaysEqual config events userId key := by
  intro holds
  obtain ⟨same, -⟩ := holds dollarsOnly sentTwice sender "k1" (by decide)
  have created : (run (step dollarsOnly) System.empty sentTwice).requests.lookup 0 =
      some ⟨sender, ⟨"GDEST", "60", "USDC", none, none⟩, some "k1", .returned ⟨0, .pending⟩ false⟩ := by
    decide +kernel
  have replayed : (run (step dollarsOnly) System.empty sentTwice).requests.lookup 1 =
      some ⟨sender, ⟨"GDEST", "60", "USDC", none, none⟩, some "k1", .returned ⟨0, .success⟩ true⟩ := by
    decide +kernel
  cases same _ _ ⟨0, _, false, created, rfl, rfl, rfl⟩ ⟨1, _, true, replayed, rfl, rfl, rfl⟩

end AfroPay.Transfer
