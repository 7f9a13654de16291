import AfroPay.Transfers

/-! What an event of the pipeline can do, and what it leaves alone: rows keep
everything but their settlement fields, and rows and jobs are never removed. -/
namespace AfroPay.Transfer
open KeyedStore Runs Kyc ScriptText

/-- Everything a step of a `sendTransfer` call can do: what it leaves of the
system, and where the call stands next. -/
inductive Proceeds (config : Config) (s : System) (request : Request) : System → Phase → Prop where
  | leaves : Proceeds config s request s .gone
  | replays (key : String) (response : Response) (given : truthy request.idempotencyKey = some key)
      (hit : s.cache.lookup (idempotencyCacheKey request.userId key) = some response) :
      Proceeds config s request s (.returned response true)
  | misses (reading : request.phase = .cacheGet) : Proceeds config s request s .limit
  | passes (checking : request.phase = .limit)
      (within : checkLimit config s request.userId request.dto = .ok ()) :
      Proceeds config s request s .wallet
  | resolves (walletId : String) (looking : request.phase = .wallet) :
      Proceeds config s request s (.insert walletId)
  | loses : Proceeds config s request s .replayFind
  | creates (walletId : String) (inserting : request.phase = .insert walletId)
      (free : conflicts s request = false) :
      Proceeds config s request
        { s with
          settlements := s.settlements.insert s.nextId (.created (newRow s request walletId))
          nextId := s.nextId + 1 } (.enqueue ⟨s.nextId, .pending⟩)
  | enqueues (response : Response) (replay : Bool)
      (queueing : request.phase = .enqueue response ∨ request.phase = .replayEnqueue response)
      (next : phase = .cacheSet response replay ∨ phase = .returned response replay) :
      Proceeds config s request (enqueueJob s response.txId request) phase
  | finds (key : String) (txId : Nat) (row : Transaction)
      (given : truthy request.idempotencyKey = some key)
      (found : s.findByKey request.userId key = some (txId, row)) :
      Proceeds config s request s (.replayEnqueue ⟨txId, row.status⟩)
  | caches (key : String) (response : Response) (replay : Bool)
      (given : truthy request.idempotencyKey = some key) (storing : request.phase = .cacheSet response replay) :
      Proceeds config s request
        { s with cache := s.cache.insert (idempotencyCacheKey request.userId key) response }
        (.returned response replay)
  | skips (response : Response) (replay : Bool) (storing : request.phase = .cacheSet response replay) :
      Proceeds config s request s (.returned response replay)

theorem request_proceeds (config : Config) (s : System) (id : Nat) (request : Request) (outcome : Outcome) :
    requestStep config s id request outcome = s ∨ ∃ base next,
      requestStep config s id request outcome = base.become id request next ∧
        (outcome = .done ∨ next = .gone ∨ ∃ walletId, next = .insert walletId) ∧
        Proceeds config s request base next := by
  obtain ⟨userId, dto, idempotencyKey, phase⟩ := request
  cases phase with
  | returned response replay => exact .inl rfl
  | cacheGet =>
    refine .inr ?_
    cases outcome with
    | done =>
      simp only [requestStep]
      split
      · rename_i response hit
        obtain ⟨key, given, lookup⟩ := Option.bind_eq_some_iff.mp hit
        exact ⟨_, _, rfl, .inl trivial, .replays key response given lookup⟩
      · exact ⟨_, _, rfl, .inl trivial, .misses rfl⟩
    | _ => exact ⟨_, _, rfl, .inr (.inl rfl), .leaves⟩
  | limit =>
    refine .inr ?_
    cases outcome with
    | done =>
      simp only [requestStep]
      split
      · rename_i within
        exact ⟨_, _, rfl, .inl trivial, .passes rfl within⟩
      · exact ⟨_, _, rfl, .inr (.inl rfl), .leaves⟩
    | _ => exact ⟨_, _, rfl, .inr (.inl rfl), .leaves⟩
  | wallet =>
    refine .inr ?_
    cases outcome with
    | found walletId => exact ⟨_, _, rfl, .inr (.inr ⟨walletId, rfl⟩), .resolves walletId rfl⟩
    | _ => exact ⟨_, _, rfl, .inr (.inl rfl), .leaves⟩
  | insert walletId =>
    refine .inr ?_
    cases outcome with
    | done =>
      simp only [requestStep]
      split
      · split
        · exact ⟨_, _, rfl, .inl trivial, .loses⟩
        · exact ⟨_, _, rfl, .inr (.inl rfl), .leaves⟩
      · rename_i free
        exact ⟨_, _, rfl, .inl trivial, .creates walletId rfl (by simpa using free)⟩
    | _ => exact ⟨_, _, rfl, .inr (.inl rfl), .leaves⟩
  | enqueue response =>
    refine .inr ?_
    cases outcome with
    | done =>
      refine ⟨_, _, rfl, .inl rfl, .enqueues response false (.inl rfl) ?_⟩
      split
      · exact .inl rfl
      · exact .inr rfl
    | _ => exact ⟨_, _, rfl, .inr (.inl rfl), .leaves⟩
  | replayFind =>
    refine .inr ?_
    cases outcome with
    | done =>
      simp only [requestStep]
      split
      · rename_i txId row hit
        obtain ⟨key, given, found⟩ := Option.bind_eq_some_iff.mp hit
        exact ⟨_, _, rfl, .inl trivial, .finds key txId row given found⟩
      · exact ⟨_, _, rfl, .inr (.inl rfl), .leaves⟩
    | _ => exact ⟨_, _, rfl, .inr (.inl rfl), .leaves⟩
  | replayEnqueue response =>
    refine .inr ?_
    cases outcome with
    | done => exact ⟨_, _, rfl, .inl rfl, .enqueues response true (.inr rfl) (.inl rfl)⟩
    | _ => exact ⟨_, _, rfl, .inr (.inl rfl), .leaves⟩
  | cacheSet response replay =>
    refine .inr ?_
    cases outcome with
    | done =>
      simp only [requestStep]
      split
      · rename_i key given
        exact ⟨_, _, rfl, .inl trivial, .caches key response replay given rfl⟩
      · exact ⟨_, _, rfl, .inl trivial, .skips response replay rfl⟩
    | _ => exact ⟨_, _, rfl, .inr (.inl rfl), .leaves⟩
  | gone => exact .inr ⟨_, _, by cases outcome <;> rfl, .inr (.inl rfl), .leaves⟩

/-- Everything an event can do to the system. -/
inductive Steps (config : Config) (s : System) : Event → System → Prop where
  | idle : Steps config s event s
  | sent (id : Nat) (request : Request) (fresh : s.requests.lookup id = none)
      (first : request.phase = .cacheGet ∨ request.phase = .limit) :
      Steps config s event { s with requests := s.requests.insert id request }
  | proceeded (id : Nat) (request : Request) (base : System) (next : Phase)
      (found : s.requests.lookup id = some request)
      (cause : event = .proceed id .done ∨ next = .gone ∨ ∃ walletId, next = .insert walletId)
      (proceeds : Proceeds config s request base next) : Steps config s event (base.become id request next)
  | evicted (cacheKey : String) : Steps config s event { s with cache := s.cache.erase cacheKey }
  | settled (txId : Nat) (before after : Settlement.State) (cause : Settlement.Event)
      (found : s.settlements.lookup txId = some before) (steps : Settlement.Steps before cause after) :
      Steps config s event { s with settlements := s.settlements.insert txId after }
  | dawned : Steps config s event { s with day := s.day + 1 }

private theorem settle_steps (config : Config) (s : System) (event : Event) (txId : Nat)
    (cause : Settlement.Event) : Steps config s event (s.settle txId cause) := by
  unfold System.settle
  split
  · rename_i settlement found
    exact .settled txId settlement _ cause found (Settlement.step_cases settlement cause)
  · exact .idle

theorem step_cases (config : Config) (s : System) (event : Event) :
    Steps config s event (step config s event) := by
  cases event with
  | send id userId dto idempotencyKey =>
    simp only [step]
    split
    · rename_i fresh
      refine .sent id _ fresh ?_
      split
      · exact .inl rfl
      · exact .inr rfl
    · exact .idle
  | proceed id outcome =>
    simp only [step]
    split
    · rename_i request found
      rcases request_proceeds config s id request outcome with
        same | ⟨base, next, moved, cause, proceeds⟩
      · rw [same]
        exact .idle
      · rw [moved]
        exact .proceeded id request base next found (cause.imp_left fun done => by rw [done]) proceeds
    · exact .idle
  | crash id =>
    simp only [step]
    split
    · exact .idle
    · exact .idle
    · rename_i request _ found
      exact .proceeded id request s .gone found (.inr (.inl rfl)) .leaves
  | evict cacheKey => exact .evicted cacheKey
  | deliver id worker =>
    simp only [step]
    split
    · exact settle_steps config s _ _ _
    · exact .idle
  | settle txId event =>
    cases event with
    | deliver worker job => exact .idle
    | _ => exact settle_steps config s _ _ _
  | newDay => exact .dawned

/-- Rows and jobs only get more, and a row stays the same transfer. -/
structure Grows (s after : System) : Prop where
  rows : ∀ txId settlement, s.settlements.lookup txId = some settlement →
    ∃ later, after.settlements.lookup txId = some later ∧ Settlement.SameTransfer settlement.row later.row
  jobs : ∀ job ∈ s.jobs, job ∈ after.jobs

theorem Grows.of_eq {s after : System} (rows : after.settlements = s.settlements)
    (jobs : ∀ job ∈ s.jobs, job ∈ after.jobs) : Grows s after :=
  ⟨fun _ settlement found => ⟨settlement, rows ▸ found, rfl⟩, jobs⟩

theorem Grows.trans {first second third : System} (early : Grows first second) (late : Grows second third) :
    Grows first third where
  rows txId settlement found := by
    obtain ⟨middle, lookup, same⟩ := early.rows txId settlement found
    obtain ⟨last, lookup, same'⟩ := late.rows txId middle lookup
    exact ⟨last, lookup, same.trans same'⟩
  jobs job member := late.jobs job (early.jobs job member)

/-- The send job of this user and key is on the queue. -/
def isQueued (s : System) (userId : UserId) (idempotencyKey : Option String) : Bool :=
  match truthy idempotencyKey with
  | some key => JobId.named (sendJobId userId key) ∈ s.jobs.map Job.id
  | none => false

/-- Enqueueing leaves a queued job alone and otherwise appends one job. -/
theorem enqueueJob_cases (s : System) (txId : Nat) (request : Request) :
    isQueued s request.userId request.idempotencyKey = true ∧ enqueueJob s txId request = s ∨
      isQueued s request.userId request.idempotencyKey = false ∧ ∃ id number, enqueueJob s txId request =
        { s with jobs := s.jobs ++ [⟨id, ⟨txId, request.userId, request.dto⟩⟩], nextNumber := number } := by
  cases given : truthy request.idempotencyKey with
  | none =>
    simp only [enqueueJob, isQueued, given]
    exact .inr ⟨trivial, _, _, rfl⟩
  | some key =>
    simp only [enqueueJob, isQueued, given, decide_eq_true_eq, decide_eq_false_iff_not]
    split
    · rename_i queued
      exact .inl ⟨queued, rfl⟩
    · rename_i absent
      exact .inr ⟨absent, _, s.nextNumber, rfl⟩

/-- Enqueueing touches nothing but the queue, and takes nothing from it. -/
theorem enqueueJob_frame (s : System) (txId : Nat) (request : Request) :
    ∃ jobs number, enqueueJob s txId request = { s with jobs := jobs, nextNumber := number } ∧
      ∀ job ∈ s.jobs, job ∈ jobs := by
  rcases enqueueJob_cases s txId request with ⟨-, same⟩ | ⟨-, id, number, same⟩
  · exact ⟨s.jobs, s.nextNumber, same, fun _ member => member⟩
  · exact ⟨_, number, same, fun _ member => List.mem_append_left _ member⟩

/-- Ids of rows lie below the next one to be issued. -/
def Issued (s : System) : Prop := ∀ txId settlement, s.settlements.lookup txId = some settlement → txId < s.nextId

theorem Issued.unused {s : System} (issued : Issued s) : s.settlements.lookup s.nextId = none := by
  cases found : s.settlements.lookup s.nextId with
  | none => rfl
  | some settlement => exact absurd (issued _ settlement found) (lt_irrefl _)

theorem Proceeds.grows {config : Config} {s base : System} {request : Request} {next : Phase}
    (proceeds : Proceeds config s request base next) (issued : Issued s) : Grows s base := by
  cases proceeds with
  | creates walletId inserting free =>
    refine ⟨?_, fun job member => member⟩
    intro txId settlement found
    have distinct : txId ≠ s.nextId := (issued txId settlement found).ne
    exact ⟨settlement, (AList.lookup_insert_ne distinct).trans found, rfl⟩
  | enqueues response replay queueing =>
    obtain ⟨jobs, number, same, kept⟩ := enqueueJob_frame s response.txId request
    rw [same]
    exact .of_eq rfl kept
  | _ => exact .of_eq rfl fun job member => member

theorem Steps.grows {config : Config} {s after : System} (steps : Steps config s event after)
    (issued : Issued s) : Grows s after := by
  cases steps with
  | proceeded id request base next found cause proceeds =>
    have grows := proceeds.grows issued
    exact ⟨grows.rows, grows.jobs⟩
  | settled txId before later cause found steps =>
    refine ⟨?_, fun job member => member⟩
    intro id settlement lookup
    by_cases same : id = txId
    · subst same
      cases found.symm.trans lookup
      exact ⟨later, AList.lookup_insert _, steps.same_transfer⟩
    · exact ⟨settlement, (AList.lookup_insert_ne same).trans lookup, rfl⟩
  | _ => exact .of_eq rfl fun job member => member

theorem Issued.steps {config : Config} {s after : System} (issued : Issued s)
    (steps : Steps config s event after) : Issued after := by
  cases steps with
  | proceeded id request base next found cause proceeds =>
    cases proceeds with
    | creates walletId inserting free =>
      intro txId settlement lookup
      obtain ⟨rfl, -⟩ | ⟨-, old⟩ := lookup_insert_some.mp lookup
      · exact Nat.lt_succ_self _
      · exact (issued txId settlement old).trans (Nat.lt_succ_self _)
    | enqueues response replay queueing =>
      obtain ⟨jobs, number, same, -⟩ := enqueueJob_frame s response.txId request
      rw [same]
      exact issued
    | _ => exact issued
  | settled txId before later cause found steps =>
    intro id settlement lookup
    obtain ⟨rfl, -⟩ | ⟨-, old⟩ := lookup_insert_some.mp lookup
    · exact issued _ before found
    · exact issued id settlement old
  | _ => exact issued

/-- A row after a step is an old one, a new one, or an old one one event later. -/
theorem Steps.row_cases {config : Config} {s after : System} {txId : Nat} {later : Settlement.State}
    (steps : Steps config s event after) (lookup : after.settlements.lookup txId = some later) :
    s.settlements.lookup txId = some later ∨
      (txId = s.nextId ∧ ∃ request walletId, later = .created (newRow s request walletId)) ∨
      ∃ before cause, s.settlements.lookup txId = some before ∧ Settlement.Steps before cause later := by
  cases steps with
  | proceeded id request base next found cause proceeds =>
    cases proceeds with
    | creates walletId inserting free =>
      obtain ⟨rfl, rfl⟩ | ⟨-, old⟩ := lookup_insert_some.mp lookup
      · exact .inr (.inl ⟨rfl, request, walletId, rfl⟩)
      · exact .inl old
    | enqueues response replay queueing =>
      obtain ⟨jobs, number, same, -⟩ := enqueueJob_frame s response.txId request
      rw [same] at lookup
      exact .inl lookup
    | _ => exact .inl lookup
  | settled moved before after cause found steps =>
    obtain ⟨rfl, rfl⟩ | ⟨-, old⟩ := lookup_insert_some.mp lookup
    · exact .inr (.inr ⟨before, cause, found, steps⟩)
    · exact .inl old
  | _ => exact .inl lookup

/-- Over a whole run, too, rows and jobs only get more. -/
theorem run_grows (config : Config) {s : System} (issued : Issued s) (events : List Event) :
    Grows s (run (step config) s events) := by
  have both := run_invariant (fun later => Issued later ∧ Grows s later)
    (fun later event held => ⟨held.1.steps (step_cases config later event),
      held.2.trans ((step_cases config later event).grows held.1)⟩)
    ⟨issued, Grows.of_eq rfl fun _ member => member⟩ events
  exact both.2

end AfroPay.Transfer
