import AfroPay.TransferIdempotency

/-! Whether a job carries the transfer its row records. The call that creates a
row enqueues the body it stored; a retry that finds the row enqueues its own body
when the job is not queued yet. Jobs and rows agree exactly as long as such a
retry repeats the stored body. -/
namespace AfroPay.Transfer
open KeyedStore Runs Kyc

/-- The body is the one the row records. -/
def agrees (dto : SendDto) (row : Transaction) : Bool :=
  row.destination = dto.destinationPublicKey && row.amount = dto.amount && row.assetCode = dto.assetCode &&
    row.assetIssuer = dto.assetIssuer && row.memo = dto.memo

/-- Every job carries the transfer of the row it names. -/
def JobsAgree (s : System) : Prop :=
  ∀ job ∈ s.jobs, ∃ settlement, s.settlements.lookup job.data.txId = some settlement ∧
    agrees job.data.body settlement.row

/-- A retry that reaches the queue before any job of its key carries the body of
the row it found. -/
def replaysRow (s : System) : Event → Bool
  | .proceed id .done =>
    match s.requests.lookup id with
    | some ⟨userId, dto, idempotencyKey, .replayEnqueue response⟩ =>
      isQueued s userId idempotencyKey ||
        (s.settlements.lookup response.txId).any fun settlement => agrees dto settlement.row
    | _ => true
  | _ => true

theorem agrees_same {row later : Transaction} (same : Settlement.SameTransfer row later) (dto : SendDto) :
    agrees dto later = agrees dto row := by
  obtain ⟨-, -, destination, amount, assetCode, assetIssuer, memo, -⟩ := same.fields
  simp only [agrees, destination, amount, assetCode, assetIssuer, memo]

/-- The call that created a row still holds the body it stored. -/
def Faithful (s : System) : Prop :=
  ∀ id request response, s.requests.lookup id = some request → request.phase = .enqueue response →
    ∃ settlement, s.settlements.lookup response.txId = some settlement ∧ agrees request.dto settlement.row

theorem Faithful.steps {config : Config} {s after : System} (faithful : Faithful s) (issued : Issued s)
    (steps : Steps config s event after) : Faithful after := by
  have grows := steps.grows issued
  have kept : ∀ id request response, s.requests.lookup id = some request →
      request.phase = .enqueue response → ∃ settlement,
        after.settlements.lookup response.txId = some settlement ∧ agrees request.dto settlement.row := by
    intro id request response lookup phase
    obtain ⟨settlement, found, agreed⟩ := faithful id request response lookup phase
    obtain ⟨later, lookup, same⟩ := grows.rows _ settlement found
    exact ⟨later, lookup, (agrees_same same request.dto).trans agreed⟩
  cases steps with
  | sent id request fresh first =>
    intro sent held response lookup phase
    obtain ⟨-, rfl⟩ | ⟨-, old⟩ := lookup_insert_some.mp lookup
    · rcases first with first | first <;> cases first.symm.trans phase
    · exact kept sent held response old phase
  | proceeded id request base next found cause proceeds =>
    intro moved held response lookup phase
    cases proceeds with
    | creates walletId inserting free =>
      obtain ⟨-, rfl⟩ | ⟨-, old⟩ := lookup_insert_some.mp lookup
      · cases phase
        exact ⟨_, AList.lookup_insert _, by simp [agrees, newRow, Settlement.State.created]⟩
      · exact kept moved held response old phase
    | enqueues queued replay queueing next =>
      have requests : (enqueueJob s queued.txId request).requests = s.requests := by
        obtain ⟨jobs, number, same, -⟩ := enqueueJob_frame s queued.txId request
        rw [same]
      obtain ⟨-, rfl⟩ | ⟨-, old⟩ := lookup_insert_some.mp lookup
      · rcases next with rfl | rfl <;> cases phase
      · exact kept moved held response (requests ▸ old) phase
    | _ =>
      obtain ⟨-, rfl⟩ | ⟨-, old⟩ := lookup_insert_some.mp lookup
      · cases phase
      · exact kept moved held response old phase
  | _ => exact kept

theorem JobsAgree.grown {s after : System} (agree : JobsAgree s) (grows : Grows s after)
    (job : Job) (member : job ∈ s.jobs) :
    ∃ settlement, after.settlements.lookup job.data.txId = some settlement ∧
      agrees job.data.body settlement.row := by
  obtain ⟨settlement, found, agreed⟩ := agree job member
  obtain ⟨later, lookup, same⟩ := grows.rows _ settlement found
  exact ⟨later, lookup, (agrees_same same job.data.body).trans agreed⟩

/-- The body a call enqueues is its row's, by the way it was stored or by the
condition on retries. -/
theorem enqueued_agrees {s : System} {id : Nat} {request : Request} {response : Response}
    (faithful : Faithful s) (found : s.requests.lookup id = some request)
    (queueing : request.phase = .enqueue response ∨ request.phase = .replayEnqueue response)
    (absent : isQueued s request.userId request.idempotencyKey = false)
    (replays : replaysRow s (.proceed id .done)) :
    ∃ settlement, s.settlements.lookup response.txId = some settlement ∧
      agrees request.dto settlement.row := by
  rcases queueing with phase | phase
  · exact faithful id request response found phase
  · obtain ⟨userId, dto, idempotencyKey, _⟩ := request
    cases phase
    simp only [replaysRow, found, absent, Bool.false_or, Option.any_eq_true] at replays
    obtain ⟨settlement, lookup, agreed⟩ := replays
    exact ⟨settlement, lookup, agreed⟩

theorem JobsAgree.steps {config : Config} {s after : System} (agree : JobsAgree s) (issued : Issued s)
    (faithful : Faithful s) (replays : replaysRow s event) (steps : Steps config s event after) :
    JobsAgree after := by
  have grown := agree.grown (steps.grows issued)
  cases steps with
  | proceeded id request base next found cause proceeds =>
    cases proceeds with
    | enqueues response replay queueing next =>
      have done : event = .proceed id .done := by
        rcases cause with done | rfl | ⟨walletId, rfl⟩
        · exact done
        · rcases next with next | next <;> cases next
        · rcases next with next | next <;> cases next
      subst done
      rcases enqueueJob_cases s response.txId request with ⟨-, same⟩ | ⟨absent, job, number, same⟩
      · rw [same] at grown ⊢
        exact grown
      · have new := enqueued_agrees faithful found queueing absent replays
        rw [same] at grown ⊢
        intro queued member
        rcases List.mem_append.mp member with old | added
        · exact grown queued old
        · cases List.mem_singleton.mp added
          exact new
    | _ => exact grown
  | _ => exact grown

/-- Once a retry has enqueued a body that its row does not record, the jobs
disagree for good. -/
theorem replaysRow_of_agree {config : Config} {s : System} (consistent : Consistent s) (event : Event)
    (rest : List Event) (agree : JobsAgree (run (step config) (step config s event) rest)) :
    replaysRow s event := by
  cases event with
  | proceed id outcome =>
    cases outcome with
    | done =>
      simp only [replaysRow]
      split
      · rename_i userId dto idempotencyKey response found
        have moved : step config s (.proceed id .done) =
            (enqueueJob s response.txId ⟨userId, dto, idempotencyKey, .replayEnqueue response⟩).become id
              ⟨userId, dto, idempotencyKey, .replayEnqueue response⟩ (.cacheSet response true) := by
          simp only [step, found, requestStep]
        have steps := step_cases config s (.proceed id .done)
        have grows := run_grows config (consistent.issued.steps steps) rest
        rcases enqueueJob_cases s response.txId ⟨userId, dto, idempotencyKey, .replayEnqueue response⟩ with
          ⟨queued, -⟩ | ⟨-, job, number, same⟩
        · simp only at queued
          simp [queued]
        · have member : (⟨job, ⟨response.txId, userId, dto⟩⟩ : Job) ∈ (step config s (.proceed id .done)).jobs := by
            rw [moved, same]
            exact List.mem_append_right _ (List.mem_singleton_self _)
          obtain ⟨settlement, stored, -⟩ := consistent.requests id _ found response rfl
          obtain ⟨last, lookup, kept⟩ := ((steps.grows consistent.issued).trans grows).rows _ settlement stored
          obtain ⟨final, lookup', agreed⟩ := agree _ (grows.jobs _ member)
          cases lookup.symm.trans lookup'
          have body : agrees dto settlement.row = true := (agrees_same kept dto).symm.trans agreed
          simp [stored, body]
      · rfl
    | _ => rfl
  | _ => rfl

/-- Over every interleaving and crash pattern, all jobs carry what their rows
record exactly when every retry that enqueues the first job of its key carries
the body of the row it found. -/
theorem jobs_agree_iff (config : Config) (events : List Event) :
    JobsAgree (run (step config) System.empty events) ↔
      Throughout (step config) (fun s event => replaysRow s event) System.empty events := by
  constructor
  · intro agree
    have replays : ∀ s, Consistent s → JobsAgree (run (step config) s events) →
        Throughout (step config) (fun s event => replaysRow s event) s events := by
      clear agree
      intro s consistent agree
      induction events generalizing s with
      | nil => trivial
      | cons event rest ih =>
        exact ⟨replaysRow_of_agree consistent event rest agree,
          ih _ (consistent.steps (step_cases config s event)) agree⟩
    exact replays _ consistent_empty agree
  · intro replays
    have final := run_invariant_of (fun s => Issued s ∧ Faithful s ∧ JobsAgree s)
      (fun s event held meets =>
        have steps := step_cases config s event
        ⟨held.1.steps steps, held.2.1.steps held.1 steps, held.2.2.steps held.1 held.2.1 meets steps⟩)
      ⟨consistent_empty.issued, by simp [Faithful, System.empty], by simp [JobsAgree, System.empty]⟩ replays
    exact final.2.2

/-- The first call under key "k1" creates the row and dies; a retry of the same
user under the same key asks for ten times the amount. -/
def crashedRetry : List Event :=
  let user : UserId := ⟨"u1", u1_colonFree⟩
  [.send 0 user ⟨"GDEST", "5", "USDC", none, none⟩ (some "k1"), .proceed 0 .done, .proceed 0 .done,
    .proceed 0 (.found "w1"), .proceed 0 .done, .crash 0,
    .send 1 user ⟨"GOTHER", "50", "USDC", none, none⟩ (some "k1"), .proceed 1 .done, .proceed 1 .done,
    .proceed 1 (.found "w1"), .proceed 1 .done, .proceed 1 .done, .proceed 1 .done]

/-- The retry's job asks the processor for another destination and amount than
the row records. -/
theorem retry_enqueues_other_body :
    ¬ ∀ (config : Config) (events : List Event), JobsAgree (run (step config) System.empty events) := by
  intro agree
  have broken : ¬ ∀ job ∈ (run (step dollarsOnly) System.empty crashedRetry).jobs,
      ∃ settlement ∈ (run (step dollarsOnly) System.empty crashedRetry).settlements.lookup job.data.txId,
        agrees job.data.body settlement.row := by decide +kernel
  exact broken (agree dollarsOnly crashedRetry)

end AfroPay.Transfer
