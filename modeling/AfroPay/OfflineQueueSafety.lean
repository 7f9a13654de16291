import AfroPay.OfflineQueue

/-! What the tabs make of the offline queue. A draft leaves it only once it is delivered
or by the user. That it is delivered once is the work of the tabs alone: no claim is ever
written, so it holds as long as no two of them take up the same draft and none loses sight
of a request that the server may have accepted. -/
namespace AfroPay.OfflineQueue
open KeyedStore Runs

/-- The draft that a tab has taken up. -/
def Phase.delivers : Phase → Option Nat
  | .send id _ _ | .posting id _ _ _ _ | .remove id _ | .markFailed id _ _ | .requeue id _ _ => some id
  | .release | .snapshot | .claim _ _ _ | .stuck => none

/-- A request of its draft that the tab has in view. -/
def Phase.knows : Phase → Nat → Bool
  | .posting _ _ request _ _, number => number = request
  | .remove _ _, _ => true
  | _, _ => false

theorem nextDraft_delivers {drafts : List (Nat × Draft)} {phase : Phase} (next : nextDraft drafts = some phase) :
    phase.delivers = none := by
  rcases nextDraft_cases drafts with ended | ⟨id, draft, rest, found⟩
  · cases ended.symm.trans next
  · cases found.symm.trans next
    rfl

theorem afterError_delivers (id : Nat) (response : Option (Nat × Option Message)) (rest : List (Nat × Draft)) :
    (afterError id response rest).delivers = some id := by
  obtain ⟨error, same⟩ | ⟨error, same⟩ := afterError_cases id response rest <;> rw [same] <;> rfl

/-- What one step can do. -/
inductive Steps (s : State) : Event → State → Prop
  | rests (event : Event) : Steps s event s
  | ticks (ms : Nat) : Steps s (.advance ms) { s with now := s.now + ms }
  | enqueues (payload : Payload) : Steps s (.enqueue payload) { s with queue := enqueueDraft s.queue s.now payload }
  | discards (id : Nat) : Steps s (.discard id) { s with queue := removeDraft s.queue id }
  | clears : Steps s .clear { s with queue := clearQueue s.queue }
  | decides (event : Event) (number : Nat) (request : Request) (delivery : Delivery)
      (found : s.requests.lookup number = some request) (flying : request.delivery = .inFlight) :
      Steps s event { s with requests := s.requests.insert number { request with delivery } }
  | releases (tab : Nat) (turn : s.tabs.lookup tab = some .release) :
      Steps s (.proceed tab) ({ s with queue := releaseExpiredLocks s.queue s.now }.enter tab (some .snapshot))
  | claims (tab id : Nat) (draft : Draft) (rest : List (Nat × Draft))
      (turn : s.tabs.lookup tab = some (.claim id draft rest)) :
      Steps s (.proceed tab) (s.enter tab (some (.send id draft rest)))
  | posts (event : Event) (tab id : Nat) (phase : Phase) (draft : Draft) (retried : Bool) (rest : List (Nat × Draft))
      (turn : s.tabs.lookup tab = some phase) (delivers : phase.delivers = some id)
      (dead : ∀ number, phase.knows number → ∃ request, s.requests.lookup number = some request ∧ !request.live) :
      Steps s event (s.post tab id draft retried rest)
  | answers (tab id : Nat) (draft : Draft) (number : Nat) (retried : Bool) (rest : List (Nat × Draft))
      (request : Request) (turn : s.tabs.lookup tab = some (.posting id draft number retried rest))
      (found : s.requests.lookup number = some request) (accepted : request.delivery = .served .accepted) :
      Steps s (.proceed tab) (s.enter tab (some (.remove id rest)))
  | removes (tab id : Nat) (rest : List (Nat × Draft)) (turn : s.tabs.lookup tab = some (.remove id rest)) :
      Steps s (.proceed tab) ({ s with queue := removeDraft s.queue id }.enter tab (nextDraft rest))
  | refuses (tab id : Nat) (draft : Draft) (number : Nat) (retried : Bool) (rest : List (Nat × Draft))
      (response : Option (Nat × Option Message)) (request : Request)
      (turn : s.tabs.lookup tab = some (.posting id draft number retried rest))
      (found : s.requests.lookup number = some request) (refused : !request.live) :
      Steps s (.proceed tab) (s.enter tab (some (afterError id response rest)))
  | throws (tab id : Nat) (phase : Phase) (rest : List (Nat × Draft)) (turn : s.tabs.lookup tab = some phase)
      (delivers : phase.delivers = some id) : Steps s (.fail tab) (s.enter tab (some (afterError id none rest)))
  | crashes (tab : Nat) : Steps s (.crash tab) (s.enter tab none)
  -- a tab that waits for no request goes on to something that is no draft's delivery
  | passes (event : Event) (tab : Nat) (next : Option Phase)
      (waits : ∀ phase, s.tabs.lookup tab = some phase → ∀ number, phase.knows number = false)
      (quiet : ∀ phase, next = some phase → phase.delivers = none) : Steps s event (s.enter tab next)

theorem deliver_steps (s : State) (event : Event) (number : Nat) (delivery : Delivery) :
    Steps s event (s.deliver number delivery) := by
  unfold State.deliver
  split
  · rename_i draft payload found
    exact .decides event number ⟨draft, payload, .inFlight⟩ delivery found rfl
  · exact .rests event

/-- A tab in a phase that knows no request goes on with the next draft, or not at all. -/
theorem passes_at {s : State} {tab : Nat} {phase : Phase} (event : Event) (turn : s.tabs.lookup tab = some phase)
    (waits : ∀ number, phase.knows number = false) {next : Option Phase}
    (quiet : ∀ phase, next = some phase → phase.delivers = none) : Steps s event (s.enter tab next) := by
  refine .passes event tab next (fun held found => ?_) quiet
  cases turn.symm.trans found
  exact waits

theorem proceed_steps {s : State} {tab : Nat} {phase : Phase} (turn : s.tabs.lookup tab = some phase) :
    Steps s (.proceed tab) (proceed s tab phase) := by
  cases phase with
  | release => exact .releases tab turn
  | snapshot => exact passes_at _ turn (fun _ => rfl) fun _ => nextDraft_delivers
  | claim id draft rest => exact .claims tab id draft rest turn
  | send id draft rest =>
    refine .posts _ tab id _ draft false rest turn rfl fun number known => ?_
    cases known
  | posting id draft number retried rest =>
    simp only [proceed]
    split
    · rename_i served
      obtain ⟨request, found, accepted⟩ := Option.map_eq_some_iff.mp served
      exact .answers tab id draft number retried rest request turn found accepted
    · rename_i served
      obtain ⟨request, found, refused⟩ := Option.map_eq_some_iff.mp served
      exact .refuses tab id draft number retried rest _ request turn found (by simp [Request.live, refused])
    · exact .rests _
  | remove id rest => exact .removes tab id rest turn
  | markFailed id error rest => exact passes_at _ turn (fun _ => rfl) fun _ => nextDraft_delivers
  | requeue id error rest => exact passes_at _ turn (fun _ => rfl) fun _ => nextDraft_delivers
  | stuck => exact .rests _

theorem fail_steps {s : State} {tab : Nat} {phase : Phase} (turn : s.tabs.lookup tab = some phase) :
    Steps s (.fail tab) (fail s tab phase) := by
  have stuck : ∀ phase, some Phase.stuck = some phase → phase.delivers = none := by
    rintro _ ⟨⟩
    rfl
  have ended : ∀ phase, (none : Option Phase) = some phase → phase.delivers = none := by
    rintro _ ⟨⟩
  cases phase with
  | release => exact passes_at _ turn (fun _ => rfl) stuck
  | snapshot => exact passes_at _ turn (fun _ => rfl) stuck
  | stuck => exact passes_at _ turn (fun _ => rfl) stuck
  | claim id draft rest => exact passes_at _ turn (fun _ => rfl) fun _ => nextDraft_delivers
  | send id draft rest => exact .throws tab id _ rest turn rfl
  | posting id draft number retried rest => exact .throws tab id _ rest turn rfl
  | remove id rest => exact .throws tab id _ rest turn rfl
  | markFailed id error rest => exact passes_at _ turn (fun _ => rfl) ended
  | requeue id error rest => exact passes_at _ turn (fun _ => rfl) ended

theorem step_cases (s : State) (event : Event) : Steps s event (step s event) := by
  cases event with
  | enqueue payload => exact .enqueues payload
  | discard id => exact .discards id
  | clear => exact .clears
  | drain tab =>
    simp only [step]
    split
    · rename_i idle
      refine .passes _ tab _ (fun phase found => ?_) ?_
      · cases idle.symm.trans found
      · rintro _ ⟨⟩
        rfl
    · exact .rests _
  | proceed tab =>
    simp only [step]
    split
    · rename_i phase turn
      exact proceed_steps turn
    · exact .rests _
  | fail tab =>
    simp only [step]
    split
    · rename_i phase turn
      exact fail_steps turn
    · exact .rests _
  | refresh tab =>
    simp only [step]
    split
    · rename_i id draft number rest turn
      split
      · rename_i message served
        obtain ⟨request, found, refused⟩ := Option.map_eq_some_iff.mp served
        refine .posts _ tab id _ draft true rest turn rfl fun other known => ?_
        cases of_decide_eq_true known
        exact ⟨request, found, by simp [Request.live, refused]⟩
      · exact .rests _
    · exact .rests _
  | crash tab => exact .crashes tab
  | serve number verdict => exact deliver_steps s _ number _
  | lose number => exact deliver_steps s _ number _
  | advance ms => exact .ticks ms

/-- No draft is ever claimed, or marked as failed, in the store. -/
theorem drafts_stay_pending (events : List Event) (id : Nat) (draft : Draft)
    (found : (run step State.empty events).queue.drafts.lookup id = some draft) : draft.status = .pending := by
  refine run_invariant (fun s : State => ∀ id draft, s.queue.drafts.lookup id = some draft →
    draft.status = .pending) ?_ ?_ events id draft found
  · intro s event pending id draft found
    have steps := step_cases s event
    generalize step s event = after at steps found
    cases steps with
    | enqueues payload =>
      obtain ⟨-, rfl⟩ | ⟨-, old⟩ := enqueueDraft_lookup.mp found
      · rfl
      · exact pending id draft old
    | discards => exact pending id draft (removeDraft_lookup.mp found).2
    | clears => cases found
    | releases =>
      rw [enter_queue] at found
      obtain ⟨held, old, rfl⟩ := releaseExpiredLocks_lookup.mp found
      rw [released_pending (pending id held old)]
      exact pending id held old
    | removes =>
      rw [enter_queue] at found
      exact pending id draft (removeDraft_lookup.mp found).2
    | rests => exact pending id draft found
    | ticks => exact pending id draft found
    | decides => exact pending id draft found
    | posts => exact pending id draft found
    | _ =>
      rw [enter_queue] at found
      exact pending id draft found
  · intro id draft found
    cases found

/-- The server has accepted a request for this draft. -/
def Accepted (s : State) (id : Nat) : Prop :=
  ∃ number request, s.requests.lookup number = some request ∧ request.draft = id ∧
    request.delivery = .served .accepted

theorem accepted_pos {s : State} {id : Nat} : 0 < s.accepted id ↔ Accepted s id := by
  simp only [State.accepted, List.countP_pos_iff, Bool.and_eq_true, decide_eq_true_eq]
  constructor
  · rintro ⟨⟨number, request⟩, member, same, accepted⟩
    exact ⟨number, request, AList.mem_lookup_iff.mpr member, same, accepted⟩
  · rintro ⟨number, request, found, same, accepted⟩
    exact ⟨⟨number, request⟩, AList.mem_lookup_iff.mp found, same, accepted⟩

/-- What a tab relies on: that the request it waits for is its draft's, and that a draft
it is about to remove has been accepted. -/
def Justified (s : State) : Phase → Prop
  | .posting id _ number _ _ => ∃ request, s.requests.lookup number = some request ∧ request.draft = id
  | .remove id _ => Accepted s id
  | _ => True

theorem justified_of_quiet {s : State} {phase : Phase} (quiet : phase.delivers = none) : Justified s phase := by
  cases phase with
  | posting => cases quiet
  | remove => cases quiet
  | _ => trivial

theorem justified_afterError (s : State) (id : Nat) (response : Option (Nat × Option Message))
    (rest : List (Nat × Draft)) : Justified s (afterError id response rest) := by
  obtain ⟨error, same⟩ | ⟨error, same⟩ := afterError_cases id response rest <;> rw [same] <;> trivial

/-- Requests are kept, each for its draft, and what has been accepted stays accepted. -/
def Keeps (requests after : Store Nat Request) : Prop :=
  ∀ number request, requests.lookup number = some request → ∃ kept, after.lookup number = some kept ∧
    kept.draft = request.draft ∧ (request.delivery ≠ .inFlight → kept = request)

theorem Justified.kept {s after : State} {phase : Phase} (justified : Justified s phase)
    (keeps : Keeps s.requests after.requests) : Justified after phase := by
  cases phase with
  | posting id draft number retried rest =>
    obtain ⟨request, found, same⟩ := justified
    obtain ⟨kept, lookup, draft, -⟩ := keeps number request found
    exact ⟨kept, lookup, draft.trans same⟩
  | remove id rest =>
    obtain ⟨number, request, found, same, accepted⟩ := justified
    obtain ⟨kept, lookup, -, unchanged⟩ := keeps number request found
    have decided : request.delivery ≠ .inFlight := by
      rw [accepted]
      exact Delivery.noConfusion
    exact ⟨number, request, unchanged decided ▸ lookup, same, accepted⟩
  | _ => trivial

/-- Requests are numbered as they are sent, and every tab's reasons hold. -/
structure Traced (s : State) : Prop where
  numbered : ∀ number request, s.requests.lookup number = some request → number < s.nextRequest
  tabs : ∀ tab phase, s.tabs.lookup tab = some phase → Justified s phase

theorem traced_empty : Traced State.empty := by
  constructor
  · intro number request found
    cases found
  · intro tab phase found
    cases found

theorem keeps_refl (requests : Store Nat Request) : Keeps requests requests :=
  fun _ request found => ⟨request, found, rfl, fun _ => rfl⟩

theorem Traced.enter {s : State} (traced : Traced s) (queue : Queue) (tab : Nat) {next : Option Phase}
    (justified : ∀ phase, next = some phase → Justified s phase) : Traced ({ s with queue }.enter tab next) := by
  constructor
  · rw [enter_requests, enter_nextRequest]
    exact traced.numbered
  · intro other phase found
    have keeps : Keeps s.requests ({ s with queue }.enter tab next).requests := by
      rw [enter_requests]
      exact keeps_refl _
    obtain ⟨-, entered⟩ | ⟨-, old⟩ := enter_lookup.mp found
    · exact (justified phase entered).kept keeps
    · exact (traced.tabs other phase old).kept keeps

theorem Traced.post {s : State} (traced : Traced s) (tab id : Nat) (draft : Draft) (retried : Bool)
    (rest : List (Nat × Draft)) : Traced (s.post tab id draft retried rest) := by
  have keeps : Keeps s.requests (s.post tab id draft retried rest).requests := by
    intro number request found
    have earlier : number ≠ s.nextRequest := (traced.numbered number request found).ne
    exact ⟨request, (AList.lookup_insert_ne earlier).trans found, rfl, fun _ => rfl⟩
  constructor
  · intro number request found
    obtain ⟨rfl, -⟩ | ⟨-, old⟩ := lookup_insert_some.mp found
    · exact Nat.lt_succ_self _
    · exact Nat.lt_succ_of_lt (traced.numbered number request old)
  · intro other phase found
    obtain ⟨-, rfl⟩ | ⟨-, old⟩ := lookup_insert_some.mp found
    · exact ⟨_, AList.lookup_insert _, rfl⟩
    · exact (traced.tabs other phase old).kept keeps

theorem Traced.decide {s : State} (traced : Traced s) {number : Nat} {request : Request} (delivery : Delivery)
    (found : s.requests.lookup number = some request) (flying : request.delivery = .inFlight) :
    Traced { s with requests := s.requests.insert number { request with delivery } } := by
  have keeps : Keeps s.requests (s.requests.insert number { request with delivery }) := by
    intro other held lookup
    by_cases same : other = number
    · subst same
      cases found.symm.trans lookup
      exact ⟨_, AList.lookup_insert _, rfl, fun decided => absurd flying decided⟩
    · exact ⟨held, (AList.lookup_insert_ne same).trans lookup, rfl, fun _ => rfl⟩
  constructor
  · intro other held lookup
    obtain ⟨rfl, -⟩ | ⟨-, old⟩ := lookup_insert_some.mp lookup
    · exact traced.numbered other request found
    · exact traced.numbered other held old
  · intro tab phase turn
    exact (traced.tabs tab phase turn).kept keeps

theorem Traced.step {s : State} (traced : Traced s) (event : Event) : Traced (step s event) := by
  have steps := step_cases s event
  generalize OfflineQueue.step s event = after at steps
  cases steps with
  | decides event number request delivery found flying => exact traced.decide delivery found flying
  | posts event tab id phase draft retried rest => exact traced.post tab id draft retried rest
  | releases tab =>
    refine traced.enter _ tab ?_
    rintro _ ⟨⟩
    trivial
  | claims tab id draft rest =>
    refine traced.enter s.queue tab ?_
    rintro _ ⟨⟩
    trivial
  | answers tab id draft number retried rest request turn found accepted =>
    refine traced.enter s.queue tab ?_
    rintro _ ⟨⟩
    obtain ⟨held, lookup, same⟩ := traced.tabs tab _ turn
    cases found.symm.trans lookup
    exact ⟨number, request, found, same, accepted⟩
  | removes tab id rest => exact traced.enter _ tab fun phase next => justified_of_quiet (nextDraft_delivers next)
  | refuses tab id draft number retried rest response =>
    refine traced.enter s.queue tab ?_
    rintro _ ⟨⟩
    exact justified_afterError s id response rest
  | throws tab id phase rest =>
    refine traced.enter s.queue tab ?_
    rintro _ ⟨⟩
    exact justified_afterError s id none rest
  | crashes tab => exact traced.enter s.queue tab (by rintro _ ⟨⟩)
  | passes event tab next waits quiet =>
    exact traced.enter s.queue tab fun phase entered => justified_of_quiet (quiet phase entered)
  | _ => exact ⟨traced.numbered, traced.tabs⟩

/-- The user's ways to take a draft out of the queue. -/
def Event.discards (id : Nat) : Event → Bool
  | .discard other => other = id
  | .clear => true
  | _ => false

/-- A draft that a step takes out of the queue has been accepted, or the user takes it out. -/
theorem leaves_accepted {s : State} (traced : Traced s) {event : Event} {id : Nat} {draft : Draft}
    (queued : s.queue.drafts.lookup id = some draft)
    (gone : (step s event).queue.drafts.lookup id = none) : 0 < s.accepted id ∨ event.discards id := by
  have steps := step_cases s event
  generalize step s event = after at steps gone
  have stays : s.queue.drafts.lookup id ≠ none := by simp [queued]
  cases steps with
  | enqueues payload =>
    have old : (enqueueDraft s.queue s.now payload).drafts.lookup id = some draft := by
      refine enqueueDraft_lookup.mpr (.inr ⟨?_, queued⟩)
      exact (s.queue.issued id draft queued).2.ne
    cases old.symm.trans gone
  | discards other =>
    by_cases same : id = other
    · exact .inr (by simp [Event.discards, same])
    · cases (removeDraft_lookup.mpr ⟨same, queued⟩).symm.trans gone
  | clears => exact .inr rfl
  | releases =>
    rw [enter_queue] at gone
    cases (releaseExpiredLocks_lookup.mpr ⟨draft, queued, rfl⟩).symm.trans gone
  | removes tab other rest turn =>
    rw [enter_queue] at gone
    by_cases same : id = other
    · subst same
      exact .inl (accepted_pos.mpr (traced.tabs tab _ turn))
    · cases (removeDraft_lookup.mpr ⟨same, queued⟩).symm.trans gone
  | rests => exact absurd gone stays
  | ticks => exact absurd gone stays
  | decides => exact absurd gone stays
  | posts => exact absurd gone stays
  | _ =>
    rw [enter_queue] at gone
    exact absurd gone stays

/-- The request is for this draft, and the server has accepted it or may still do so. -/
def Live (s : State) (id number : Nat) : Prop :=
  ∃ request, s.requests.lookup number = some request ∧ request.draft = id ∧ request.live

theorem not_live_of_dead {s : State} {id number : Nat} {request : Request}
    (found : s.requests.lookup number = some request) (dead : !request.live) : ¬ Live s id number := by
  rintro ⟨held, lookup, -, lives⟩
  cases found.symm.trans lookup
  simp [lives] at dead

/-- Each draft has at most one live request and one tab that delivers it. That tab has the
request in view, and a live request of a draft in the queue always has such a tab. -/
structure Guarded (s : State) : Prop where
  single : ∀ id first second, Live s id first → Live s id second → first = second
  alone : ∀ id tab other phase held, s.tabs.lookup tab = some phase → s.tabs.lookup other = some held →
    phase.delivers = some id → held.delivers = some id → tab = other
  known : ∀ id tab phase number, s.tabs.lookup tab = some phase → phase.delivers = some id →
    Live s id number → phase.knows number
  covered : ∀ id draft number, s.queue.drafts.lookup id = some draft → Live s id number →
    ∃ tab phase, s.tabs.lookup tab = some phase ∧ phase.delivers = some id
  requested : ∀ id number, Live s id number → id < s.queue.nextId
  taken : ∀ id tab phase, s.tabs.lookup tab = some phase → phase.delivers = some id → id < s.queue.nextId

theorem guarded_empty : Guarded State.empty := by
  have dead : ∀ id number, ¬ Live State.empty id number := by
    rintro id number ⟨request, found, -⟩
    cases found
  exact
    { single := fun id first second one => absurd one (dead id first)
      alone := fun id tab other phase held turn => by cases turn
      known := fun id tab phase number turn => by cases turn
      covered := fun id draft number found => by cases found
      requested := fun id number live => absurd live (dead id number)
      taken := fun id tab phase turn => by cases turn }

section Guarded
variable {s : State}

theorem Guarded.store (guarded : Guarded s) {queue : Queue} (later : s.queue.nextId ≤ queue.nextId)
    (kept : ∀ id draft, queue.drafts.lookup id = some draft →
      s.queue.drafts.lookup id ≠ none ∨ s.queue.nextId ≤ id) : Guarded { s with queue } where
  single := guarded.single
  alone := guarded.alone
  known := guarded.known
  covered := by
    intro id draft number found live
    rcases kept id draft found with old | fresh
    · obtain ⟨held, present⟩ := Option.ne_none_iff_exists'.mp old
      exact guarded.covered id held number present live
    · exact absurd (guarded.requested id number live) fresh.not_gt
  requested := fun id number live => (guarded.requested id number live).trans_le later
  taken := fun id tab phase turn delivers => (guarded.taken id tab phase turn delivers).trans_le later

theorem Guarded.decide (guarded : Guarded s) {number : Nat} {request : Request} (delivery : Delivery)
    (found : s.requests.lookup number = some request) (flying : request.delivery = .inFlight) :
    Guarded { s with requests := s.requests.insert number { request with delivery } } := by
  have live : ∀ id other, Live { s with requests := s.requests.insert number { request with delivery } } id other →
      Live s id other := by
    rintro id other ⟨held, lookup, same, lives⟩
    obtain ⟨rfl, rfl⟩ | ⟨-, old⟩ := lookup_insert_some.mp lookup
    · exact ⟨request, found, same, by simp [Request.live, flying]⟩
    · exact ⟨held, old, same, lives⟩
  exact
    { single := fun id first second one two => guarded.single id first second (live id first one) (live id second two)
      alone := guarded.alone
      known := fun id tab phase other turn delivers lives =>
        guarded.known id tab phase other turn delivers (live id other lives)
      covered := fun id draft other found lives => guarded.covered id draft other found (live id other lives)
      requested := fun id other lives => guarded.requested id other (live id other lives)
      taken := guarded.taken }

theorem live_enter {tab : Nat} {next : Option Phase} {id number : Nat} :
    Live (s.enter tab next) id number ↔ Live s id number := by
  simp only [Live, enter_requests]

/-- A tab lets go of a draft that is out of the queue or has no live request. -/
theorem Guarded.letGo (guarded : Guarded s) {tab : Nat} {next : Option Phase}
    (quiet : ∀ phase, next = some phase → phase.delivers = none)
    (settled : ∀ phase id draft number, s.tabs.lookup tab = some phase → phase.delivers = some id →
      s.queue.drafts.lookup id = some draft → ¬ Live s id number) : Guarded (s.enter tab next) := by
  have others : ∀ other phase id, (s.enter tab next).tabs.lookup other = some phase → phase.delivers = some id →
      s.tabs.lookup other = some phase := by
    intro other phase id turn delivers
    obtain ⟨-, entered⟩ | ⟨-, old⟩ := enter_lookup.mp turn
    · cases (quiet phase entered).symm.trans delivers
    · exact old
  constructor
  · intro id first second one two
    exact guarded.single id first second (live_enter.mp one) (live_enter.mp two)
  · intro id one two phase held turn turn' delivers delivers'
    exact guarded.alone id one two phase held (others one phase id turn delivers) (others two held id turn' delivers')
      delivers delivers'
  · intro id other phase number turn delivers live
    exact guarded.known id other phase number (others other phase id turn delivers) delivers (live_enter.mp live)
  · intro id draft number found live
    rw [enter_queue] at found
    obtain ⟨other, phase, turn, delivers⟩ := guarded.covered id draft number found (live_enter.mp live)
    have distinct : other ≠ tab := by
      rintro rfl
      exact settled phase id draft number turn delivers found (live_enter.mp live)
    exact ⟨other, phase, enter_lookup.mpr (.inr ⟨distinct, turn⟩), delivers⟩
  · intro id number live
    rw [enter_queue]
    exact guarded.requested id number (live_enter.mp live)
  · intro id other phase turn delivers
    rw [enter_queue]
    exact guarded.taken id other phase (others other phase id turn delivers) delivers

/-- A tab delivers a draft that no other tab delivers. -/
theorem Guarded.deliver (guarded : Guarded s) {tab id : Nat} {next : Phase} (delivers : next.delivers = some id)
    (issued : id < s.queue.nextId)
    (same : ∀ phase old, s.tabs.lookup tab = some phase → phase.delivers = some old → old = id)
    (free : ∀ other phase, s.tabs.lookup other = some phase → phase.delivers = some id → other = tab)
    (knows : ∀ number, Live s id number → next.knows number) : Guarded (s.enter tab (some next)) := by
  have turns : ∀ other phase old, (s.enter tab (some next)).tabs.lookup other = some phase →
      phase.delivers = some old → other = tab ∧ phase = next ∧ old = id ∨
        other ≠ tab ∧ old ≠ id ∧ s.tabs.lookup other = some phase := by
    intro other phase old turn held
    obtain ⟨rfl, ⟨⟩⟩ | ⟨distinct, before⟩ := enter_lookup.mp turn
    · exact .inl ⟨rfl, rfl, Option.some.inj (held.symm.trans delivers)⟩
    · refine .inr ⟨distinct, ?_, before⟩
      rintro rfl
      exact distinct (free other phase before held)
  constructor
  · intro id first second one two
    exact guarded.single id first second (live_enter.mp one) (live_enter.mp two)
  · intro id one two phase held turn turn' delivers delivers'
    rcases turns one phase id turn delivers with ⟨rfl, -, rfl⟩ | ⟨-, other, before⟩
    · rcases turns two held id turn' delivers' with ⟨rfl, -, -⟩ | ⟨-, other, -⟩
      · rfl
      · exact absurd rfl other
    · rcases turns two held id turn' delivers' with ⟨-, -, rfl⟩ | ⟨-, -, before'⟩
      · exact absurd rfl other
      · exact guarded.alone id one two phase held before before' delivers delivers'
  · intro old other phase number turn held live
    rcases turns other phase old turn held with ⟨-, rfl, rfl⟩ | ⟨-, -, before⟩
    · exact knows number (live_enter.mp live)
    · exact guarded.known old other phase number before held (live_enter.mp live)
  · intro old draft number found live
    rw [enter_queue] at found
    obtain ⟨other, phase, turn, held⟩ := guarded.covered old draft number found (live_enter.mp live)
    by_cases moved : other = tab
    · subst moved
      cases same phase old turn held
      exact ⟨other, next, enter_lookup.mpr (.inl ⟨rfl, rfl⟩), delivers⟩
    · exact ⟨other, phase, enter_lookup.mpr (.inr ⟨moved, turn⟩), held⟩
  · intro id number live
    rw [enter_queue]
    exact guarded.requested id number (live_enter.mp live)
  · intro old other phase turn held
    rw [enter_queue]
    rcases turns other phase old turn held with ⟨-, -, rfl⟩ | ⟨-, -, before⟩
    · exact issued
    · exact guarded.taken old other phase before held

/-- A request is sent by a tab that has it in view, for a draft that had no live one. -/
theorem Guarded.request (guarded : Guarded s) {tab number nextRequest : Nat} {phase : Phase} {request : Request}
    (turn : s.tabs.lookup tab = some phase) (delivers : phase.delivers = some request.draft)
    (knows : phase.knows number) (dead : ∀ other, ¬ Live s request.draft other) :
    Guarded { s with requests := s.requests.insert number request, nextRequest } := by
  have live : ∀ id other, Live { s with requests := s.requests.insert number request, nextRequest } id other →
      other = number ∧ id = request.draft ∨ id ≠ request.draft ∧ Live s id other := by
    rintro id other ⟨held, lookup, rfl, lives⟩
    obtain ⟨rfl, rfl⟩ | ⟨-, old⟩ := lookup_insert_some.mp lookup
    · exact .inl ⟨rfl, rfl⟩
    · refine .inr ⟨fun same => ?_, held, old, rfl, lives⟩
      exact dead other (same ▸ ⟨held, old, rfl, lives⟩)
  constructor
  · intro id first second one two
    rcases live id first one with ⟨rfl, rfl⟩ | ⟨distinct, old⟩
    · rcases live _ second two with ⟨rfl, -⟩ | ⟨distinct, -⟩
      · rfl
      · exact absurd rfl distinct
    · rcases live id second two with ⟨-, rfl⟩ | ⟨-, old'⟩
      · exact absurd rfl distinct
      · exact guarded.single id first second old old'
  · exact guarded.alone
  · intro id other held number' turn' delivers' lives
    rcases live id number' lives with ⟨rfl, rfl⟩ | ⟨-, old⟩
    · cases guarded.alone _ tab other phase held turn turn' delivers delivers'
      cases turn.symm.trans turn'
      exact knows
    · exact guarded.known id other held number' turn' delivers' old
  · intro id draft number' found lives
    rcases live id number' lives with ⟨-, rfl⟩ | ⟨-, old⟩
    · exact ⟨tab, phase, turn, delivers⟩
    · exact guarded.covered id draft number' found old
  · intro id number' lives
    rcases live id number' lives with ⟨-, rfl⟩ | ⟨-, old⟩
    · exact guarded.taken _ tab phase turn delivers
    · exact guarded.requested id number' old
  · exact guarded.taken

/-- The tab that delivers a draft goes on with it. -/
theorem Guarded.goesOn (guarded : Guarded s) {tab id : Nat} {phase next : Phase}
    (turn : s.tabs.lookup tab = some phase) (delivered : phase.delivers = some id)
    (delivers : next.delivers = some id) (knows : ∀ number, Live s id number → next.knows number) :
    Guarded (s.enter tab (some next)) := by
  refine guarded.deliver delivers (guarded.taken id tab phase turn delivered) ?_ ?_ knows
  · intro held old turn' held'
    cases turn.symm.trans turn'
    exact Option.some.inj (held'.symm.trans delivered)
  · intro other held turn' held'
    exact guarded.alone id other tab held phase turn' turn held' delivered

theorem Guarded.post (guarded : Guarded s) {tab id : Nat} {phase : Phase} (draft : Draft) (retried : Bool)
    (rest : List (Nat × Draft)) (turn : s.tabs.lookup tab = some phase) (delivers : phase.delivers = some id)
    (dead : ∀ number, ¬ Live s id number) : Guarded (s.post tab id draft retried rest) := by
  have entered : Guarded (s.enter tab (some (.posting id draft s.nextRequest retried rest))) :=
    guarded.goesOn turn delivers rfl fun number live => absurd live (dead number)
  exact entered.request (enter_lookup.mpr (.inl ⟨rfl, rfl⟩)) rfl (by simp [Phase.knows])
    fun number live => dead number (live_enter.mp live)

end Guarded

/-- Some tab has taken up the draft. -/
def State.delivering (s : State) (id : Nat) : Bool :=
  s.tabs.entries.any fun entry => entry.2.delivers = some id

/-- A draft that is taken up is still in the queue, and no tab has taken it up yet. A
request that goes without an answer is none that the server has accepted or may still
accept, and after an accepted one the draft is removed. -/
def careful (s : State) : Event → Bool
  | .proceed tab =>
    match s.tabs.lookup tab with
    | some (.claim id _ _) => (s.queue.drafts.lookup id).isSome && !s.delivering id
    | _ => true
  | .fail tab | .crash tab =>
    match s.tabs.lookup tab with
    | some (.posting _ _ number _ _) => !(s.requests.lookup number).any Request.live
    | some (.remove _ _) => false
    | _ => true
  | _ => true

/-- A tab that a careful step takes away from its draft has no live request in view. -/
theorem careful_settled {s : State} (guarded : Guarded s) {event : Event} {tab id : Nat} {phase : Phase}
    (taken : event = .fail tab ∨ event = .crash tab) (care : careful s event)
    (turn : s.tabs.lookup tab = some phase) (delivers : phase.delivers = some id) (number : Nat) :
    ¬ Live s id number := by
  intro live
  have known := guarded.known id tab phase number turn delivers live
  have gone : careful s (.crash tab) := by
    rcases taken with rfl | rfl <;> exact care
  simp only [careful, turn] at gone
  cases phase with
  | posting id draft request retried rest =>
    cases of_decide_eq_true known
    obtain ⟨held, found, -, lives⟩ := live
    simp [found, lives] at gone
  | remove id rest => cases gone
  | _ => cases known

theorem delivering_iff {s : State} {id : Nat} :
    s.delivering id ↔ ∃ tab phase, s.tabs.lookup tab = some phase ∧ phase.delivers = some id := by
  simp only [State.delivering, List.any_eq_true, decide_eq_true_eq]
  constructor
  · rintro ⟨⟨tab, phase⟩, member, delivers⟩
    exact ⟨tab, phase, AList.mem_lookup_iff.mpr member, delivers⟩
  · rintro ⟨tab, phase, turn, delivers⟩
    exact ⟨⟨tab, phase⟩, AList.mem_lookup_iff.mp turn, delivers⟩

theorem Guarded.step {s : State} (guarded : Guarded s) {event : Event} (care : careful s event) :
    Guarded (step s event) := by
  have steps := step_cases s event
  generalize OfflineQueue.step s event = after at steps
  cases steps with
  | rests => exact guarded
  | ticks => exact ⟨guarded.single, guarded.alone, guarded.known, guarded.covered, guarded.requested, guarded.taken⟩
  | enqueues payload =>
    refine guarded.store (Nat.le_succ _) fun id draft found => ?_
    obtain ⟨rfl, -⟩ | ⟨-, old⟩ := enqueueDraft_lookup.mp found
    · exact .inr le_rfl
    · exact .inl (by simp [old])
  | discards id =>
    refine guarded.store le_rfl fun other draft found => .inl ?_
    simp [(removeDraft_lookup.mp found).2]
  | clears =>
    refine guarded.store le_rfl fun other draft found => ?_
    cases found
  | decides event number request delivery found flying => exact guarded.decide delivery found flying
  | releases tab turn =>
    have released : Guarded { s with queue := releaseExpiredLocks s.queue s.now } := by
      refine guarded.store le_rfl fun id draft found => .inl ?_
      obtain ⟨held, old, -⟩ := releaseExpiredLocks_lookup.mp found
      simp [old]
    refine released.letGo ?_ ?_
    · rintro _ ⟨⟩
      rfl
    · intro phase id draft number turn' delivers
      cases turn.symm.trans turn'
      cases delivers
  | claims tab id draft rest turn =>
    simp only [careful, turn, Bool.and_eq_true, Bool.not_eq_true', Option.isSome_iff_exists] at care
    obtain ⟨⟨queued, found⟩, free⟩ := care
    have untaken : ∀ other phase, s.tabs.lookup other = some phase → phase.delivers ≠ some id := by
      intro other phase turn' delivers
      cases free.symm.trans (delivering_iff.mpr ⟨other, phase, turn', delivers⟩)
    refine guarded.deliver rfl (s.queue.issued id queued found).2 ?_ ?_ ?_
    · intro phase old turn' delivers
      cases turn.symm.trans turn'
      cases delivers
    · intro other phase turn' delivers
      exact absurd delivers (untaken other phase turn')
    · intro number live
      obtain ⟨other, phase, turn', delivers⟩ := guarded.covered id queued number found live
      exact absurd delivers (untaken other phase turn')
  | posts event tab id phase draft retried rest turn delivers dead =>
    refine guarded.post draft retried rest turn delivers fun number live => ?_
    obtain ⟨request, found, refused⟩ := dead number (guarded.known id tab phase number turn delivers live)
    exact not_live_of_dead found refused live
  | answers tab id draft number retried rest request turn => exact guarded.goesOn turn rfl rfl fun _ _ => rfl
  | removes tab id rest turn =>
    have removed : Guarded { s with queue := removeDraft s.queue id } := by
      refine guarded.store le_rfl fun other draft found => .inl ?_
      simp [(removeDraft_lookup.mp found).2]
    refine removed.letGo (fun phase => nextDraft_delivers) ?_
    intro phase old draft number turn' delivers found
    cases turn.symm.trans turn'
    cases delivers
    exact absurd rfl (removeDraft_lookup.mp found).1
  | refuses tab id draft number retried rest response request turn found refused =>
    refine guarded.goesOn turn rfl (afterError_delivers id response rest) fun other live => ?_
    have known := guarded.known id tab _ other turn rfl live
    cases of_decide_eq_true known
    exact absurd live (not_live_of_dead found refused)
  | throws tab id phase rest turn delivers =>
    refine guarded.goesOn turn delivers (afterError_delivers id none rest) fun number live => ?_
    exact absurd live (careful_settled guarded (.inl rfl) care turn delivers number)
  | crashes tab =>
    refine guarded.letGo (by rintro _ ⟨⟩) ?_
    intro phase id draft number turn delivers _
    exact careful_settled guarded (.inr rfl) care turn delivers number
  | passes event tab next waits quiet =>
    refine guarded.letGo quiet ?_
    intro phase id draft number turn delivers _ live
    cases (waits phase turn number).symm.trans (guarded.known id tab phase number turn delivers live)

/-- Each draft's transfer is accepted at most once, and a draft leaves the queue only after
it has been accepted or by the user's hand. -/
def DeliversOnce (events : List Event) : Prop :=
  (∀ id, (run step State.empty events).accepted id ≤ 1) ∧
  ∀ early event late id, events = early ++ event :: late →
    ((run step State.empty early).queue.drafts.lookup id).isSome →
    (run step State.empty (early ++ [event])).queue.drafts.lookup id = none →
      0 < (run step State.empty early).accepted id ∨ event.discards id

/-- In every run in which each draft is taken up by one tab at a time, from the queue, and
the tab stays with it until it knows what has become of the request, each draft is
delivered at most once, and none is lost. -/
theorem delivers_once (events : List Event)
    (care : Throughout step (fun s event => careful s event) State.empty events) : DeliversOnce events := by
  constructor
  · intro id
    have guarded := run_invariant_of Guarded (fun s event held meets => held.step meets) guarded_empty care
    refine countP_le_one fun first second one two counted counted' => ?_
    simp only [Bool.and_eq_true, decide_eq_true_eq] at counted counted'
    exact guarded.single id first.1 second.1 ⟨first.2, one, counted.1, by simp [Request.live, counted.2]⟩
      ⟨second.2, two, counted'.1, by simp [Request.live, counted'.2]⟩
  · rintro early event late id rfl queued gone
    have traced := run_invariant Traced (fun s event held => held.step event) traced_empty early
    obtain ⟨draft, found⟩ := Option.isSome_iff_exists.mp queued
    rw [run_append] at gone
    exact leaves_accepted traced found gone

/-- The clock passes the end of no lock whose tab is still at work. -/
def patient (s : State) : Event → Bool
  | .advance ms => s.tabs.entries.all fun entry =>
    match entry.2.delivers.bind fun id => s.queue.drafts.lookup id with
    | some draft => draft.lockExpiresAt.all fun expiry => s.now + ms ≤ expiry
    | none => true
  | _ => true

/-- The tab takes so many steps that all go well. -/
def takes (tab steps : Nat) : List Event := List.replicate steps (.proceed tab)

/-- A tab drains a queue of one draft, and its request gets this answer. -/
def drains (tab number : Nat) (verdict : Verdict) : List Event :=
  .drain tab :: (takes tab 4 ++ .serve number verdict :: takes tab 2)

/-- A draft that one tab puts back is delivered by another. -/
def putBack : List Event :=
  .enqueue ⟨"GDEST", "25", "XLM", none, none⟩ :: (drains 0 0 (.refused 503 none none) ++ drains 1 1 .accepted)

/-- Two tabs have read the queue before either of them delivers. -/
def sideBySide : List Event :=
  .enqueue ⟨"GDEST", "25", "XLM", none, none⟩ :: .drain 0 :: .drain 1 :: (takes 0 2 ++ takes 1 2 ++ takes 0 2 ++
    .serve 0 .accepted :: (takes 0 2 ++ takes 1 2 ++ [.serve 1 .accepted]))

theorem put_back_delivers_once :
    Throughout step (fun s event => careful s event) State.empty putBack ∧ DeliversOnce putBack ∧
      (run step State.empty putBack).accepted 1 = 1 := by
  have care : Throughout step (fun s event => careful s event) State.empty putBack := by decide +kernel
  exact ⟨care, delivers_once putBack care, by decide +kernel⟩

/-- A tab sends a draft that another tab has delivered and removed since it read the queue. -/
theorem two_tabs_deliver_twice : ¬ ∀ events : List Event,
    Throughout step (fun s event => patient s event) State.empty events → DeliversOnce events := by
  intro holds
  have patient : Throughout step (fun s event => patient s event) State.empty sideBySide := by decide +kernel
  have twice : (run step State.empty sideBySide).accepted 1 = 2 := by decide +kernel
  have once := (holds sideBySide patient).1 1
  rw [twice] at once
  exact absurd once (by decide)

end AfroPay.OfflineQueue
