import AfroPay.TransferSteps

/-! One key, one transfer. The cache, the unique constraint and the job id each
close a window that the others leave open, and together they tie every response,
job and row of one user and key to a single transaction. What they do not tie is
the body of a job to its row: a retry enqueues its own. -/
namespace AfroPay.Transfer
open KeyedStore Runs Kyc ScriptText

private theorem split_at_colon {left right : List Char} {x y : List Char} (first : ':' ∉ left)
    (second : ':' ∉ right) (same : left ++ ':' :: x = right ++ ':' :: y) : left = right ∧ x = y := by
  induction left generalizing right with
  | nil =>
    cases right with
    | nil => exact ⟨rfl, by simpa using same⟩
    | cons head tail =>
      obtain ⟨rfl, -⟩ := List.cons.inj same
      exact absurd (List.mem_cons_self ..) second
  | cons head tail ih =>
    cases right with
    | nil =>
      obtain ⟨rfl, -⟩ := List.cons.inj same
      exact absurd (List.mem_cons_self ..) first
    | cons head' tail' =>
      obtain ⟨rfl, rest⟩ := List.cons.inj same
      obtain ⟨rfl, rfl⟩ := ih (fun member => first (List.mem_cons_of_mem _ member))
        (fun member => second (List.mem_cons_of_mem _ member)) rest
      exact ⟨rfl, rfl⟩

private theorem tagged_injective (tag : String) {userId other : UserId} {key key' : String}
    (same : tag ++ userId.val ++ ":" ++ key = tag ++ other.val ++ ":" ++ key') :
    userId = other ∧ key = key' := by
  have chars := congrArg String.toList same
  simp only [String.toList_append, List.append_assoc] at chars
  obtain ⟨users, keys⟩ := split_at_colon userId.property other.property (List.append_cancel_left chars)
  exact ⟨Subtype.ext (String.toList_inj.mp users), String.toList_inj.mp keys⟩

/-- A job id names one user and one key. -/
theorem sendJobId_injective {userId other : UserId} {key key' : String}
    (same : sendJobId userId key = sendJobId other key') : userId = other ∧ key = key' :=
  tagged_injective "send:" same

/-- A cache entry belongs to one user and one key. -/
theorem idempotencyCacheKey_injective {userId other : UserId} {key key' : String}
    (same : idempotencyCacheKey userId key = idempotencyCacheKey other key') :
    userId = other ∧ key = key' := tagged_injective "idempotency:" same

/-- The transaction with this id is the user's one under this key. -/
def Owns (s : System) (userId : UserId) (idempotencyKey : Option String) (txId : Nat) : Prop :=
  ∃ settlement, s.settlements.lookup txId = some settlement ∧
    settlement.row.userId = userId ∧ settlement.row.idempotencyKey = idempotencyKey

theorem Owns.grows {s after : System} (owns : Owns s userId key txId) (grows : Grows s after) :
    Owns after userId key txId := by
  obtain ⟨settlement, found, rfl, rfl⟩ := owns
  obtain ⟨later, lookup, same⟩ := grows.rows txId settlement found
  obtain ⟨user, key, -⟩ := same.fields
  exact ⟨later, lookup, user, key⟩

theorem findByKey_some {s : System} {userId : UserId} {key : String} {txId : Nat} {row : Transaction}
    (found : s.findByKey userId key = some (txId, row)) : Owns s userId (some key) txId := by
  obtain ⟨⟨id, settlement⟩, hit, same⟩ := Option.map_eq_some_iff.mp found
  cases same
  have stored := AList.mem_lookup_iff.mpr (List.mem_of_find?_eq_some hit)
  have matched := List.find?_some hit
  simp only [Transaction.isFor, Bool.and_eq_true, decide_eq_true_eq] at matched
  exact ⟨settlement, stored, matched.1, matched.2⟩

theorem findByKey_none {s : System} {userId : UserId} {key : String} {txId : Nat}
    (absent : (s.findByKey userId key).isSome = false) : ¬ Owns s userId (some key) txId := by
  rintro ⟨settlement, found, rfl, owned⟩
  simp only [System.findByKey, Option.isSome_map, Bool.eq_false_iff] at absent
  apply absent
  rw [List.find?_isSome]
  exact ⟨⟨txId, settlement⟩, AList.mem_lookup_iff.mp found, by simp [Transaction.isFor, owned]⟩

/-- The response a call has in hand. -/
def Phase.response : Phase → Option Response
  | .enqueue response | .replayEnqueue response | .cacheSet response _ | .returned response _ => some response
  | _ => none

/-- A job's id tells its owner: the send id of its user and key, or a number. -/
def IdFits (s : System) (job : Job) (idempotencyKey : Option String) : Prop :=
  match truthy idempotencyKey with
  | some key => job.id = .named (sendJobId job.data.userId key)
  | none => ∃ number < s.nextNumber, job.id = .assigned number

/-- Rows, jobs, cache entries and calls agree on who owns which transaction. -/
structure Consistent (s : System) : Prop where
  issued : Issued s
  unique : ∀ userId key first second, Owns s userId (some key) first → Owns s userId (some key) second →
    first = second
  jobs : ∀ job ∈ s.jobs, ∃ key, Owns s job.data.userId key job.data.txId ∧ IdFits s job key
  ids : (s.jobs.map Job.id).Nodup
  cached : ∀ cacheKey response, s.cache.lookup cacheKey = some response → ∃ userId key,
    cacheKey = idempotencyCacheKey userId key ∧ Owns s userId (some key) response.txId
  requests : ∀ id request, s.requests.lookup id = some request → ∀ response ∈ request.phase.response,
    Owns s request.userId request.idempotencyKey response.txId

theorem consistent_empty : Consistent System.empty := by
  constructor <;> simp [System.empty, Issued, Owns]

/-- Moving one call on keeps consistency when the call owns what it has in hand. -/
theorem Consistent.become {s : System} (consistent : Consistent s) (id : Nat) (request : Request)
    (next : Phase) (owns : ∀ response ∈ next.response,
      Owns s request.userId request.idempotencyKey response.txId) : Consistent (s.become id request next) where
  issued := consistent.issued
  unique := consistent.unique
  jobs := consistent.jobs
  ids := consistent.ids
  cached := consistent.cached
  requests := by
    intro moved held lookup
    obtain ⟨-, rfl⟩ | ⟨-, old⟩ := lookup_insert_some.mp lookup
    · exact owns
    · exact consistent.requests moved held old

/-- New or settled rows keep consistency as long as keys stay unique. -/
theorem Consistent.extended {s after : System} (consistent : Consistent s) (grows : Grows s after)
    (issued : Issued after)
    (unique : ∀ userId key first second, Owns after userId (some key) first →
      Owns after userId (some key) second → first = second)
    (jobs : after.jobs = s.jobs) (number : after.nextNumber = s.nextNumber) (cache : after.cache = s.cache)
    (requests : after.requests = s.requests) : Consistent after where
  issued := issued
  unique := unique
  jobs := by
    intro job member
    rw [jobs] at member
    obtain ⟨key, owns, fits⟩ := consistent.jobs job member
    refine ⟨key, owns.grows grows, ?_⟩
    simpa only [IdFits, number] using fits
  ids := jobs ▸ consistent.ids
  cached := by
    intro cacheKey response lookup
    rw [cache] at lookup
    obtain ⟨userId, key, same, owns⟩ := consistent.cached cacheKey response lookup
    exact ⟨userId, key, same, owns.grows grows⟩
  requests := by
    intro id request lookup response held
    rw [requests] at lookup
    exact (consistent.requests id request lookup response held).grows grows

/-- Past the unique constraint a new row is the only one of its user and key. -/
theorem created_unique {s : System} (consistent : Consistent s) {request : Request} (walletId : String)
    (free : conflicts s request = false) (nextId : Nat) (userId : UserId) (key : String) (first second : Nat)
    (one : Owns { s with
      settlements := s.settlements.insert s.nextId (.created (newRow s request walletId)), nextId := nextId }
      userId (some key) first)
    (two : Owns { s with
      settlements := s.settlements.insert s.nextId (.created (newRow s request walletId)), nextId := nextId }
      userId (some key) second) : first = second := by
  have fresh : ∀ txId, request.userId = userId → request.idempotencyKey = some key →
      ¬ Owns s userId (some key) txId := by
    rintro txId rfl given
    simp only [conflicts, given] at free
    exact findByKey_none free
  obtain ⟨one, lookup, owner, owned⟩ := one
  obtain ⟨two, lookup', owner', owned'⟩ := two
  obtain ⟨rfl, rfl⟩ | ⟨-, old⟩ := lookup_insert_some.mp lookup
  · obtain ⟨rfl, -⟩ | ⟨-, old'⟩ := lookup_insert_some.mp lookup'
    · rfl
    · exact absurd ⟨two, old', owner', owned'⟩ (fresh second owner owned)
  · obtain ⟨rfl, rfl⟩ | ⟨-, old'⟩ := lookup_insert_some.mp lookup'
    · exact absurd ⟨one, old, owner, owned⟩ (fresh first owner' owned')
    · exact consistent.unique userId key first second ⟨one, old, owner, owned⟩ ⟨two, old', owner', owned'⟩

/-- A settled row was owned as it is now. -/
theorem settled_owns {s : System} {before after : Settlement.State} {txId id : Nat}
    (found : s.settlements.lookup txId = some before) (same : Settlement.SameTransfer before.row after.row)
    (owns : Owns { s with settlements := s.settlements.insert txId after } userId key id) :
    Owns s userId key id := by
  obtain ⟨settlement, lookup, owner, owned⟩ := owns
  obtain ⟨rfl, rfl⟩ | ⟨-, old⟩ := lookup_insert_some.mp lookup
  · obtain ⟨user, key, -⟩ := same.fields
    exact ⟨before, found, user.symm.trans owner, key.symm.trans owned⟩
  · exact ⟨settlement, old, owner, owned⟩

theorem IdFits.mono {s after : System} {job : Job} (fits : IdFits s job key)
    (numbers : s.nextNumber ≤ after.nextNumber) : IdFits after job key := by
  unfold IdFits at fits ⊢
  split at fits
  · exact fits
  · obtain ⟨number, below, assigned⟩ := fits
    exact ⟨number, below.trans_le numbers, assigned⟩

/-- The next number is not the id of any job yet. -/
theorem Consistent.unnumbered {s : System} (consistent : Consistent s) :
    JobId.assigned s.nextNumber ∉ s.jobs.map Job.id := by
  intro member
  obtain ⟨job, queued, same⟩ := List.mem_map.mp member
  obtain ⟨key, -, fits⟩ := consistent.jobs job queued
  unfold IdFits at fits
  split at fits
  · rw [fits] at same
    cases same
  · obtain ⟨number, below, assigned⟩ := fits
    cases assigned.symm.trans same
    exact lt_irrefl _ below

/-- A job under a new id may be queued for a transaction that its owner owns. -/
theorem Consistent.appended {s : System} (consistent : Consistent s) {job : Job} {number : Nat}
    (numbers : s.nextNumber ≤ number) (fresh : job.id ∉ s.jobs.map Job.id)
    (owns : Owns s job.data.userId key job.data.txId)
    (fits : IdFits { s with jobs := s.jobs ++ [job], nextNumber := number } job key) :
    Consistent { s with jobs := s.jobs ++ [job], nextNumber := number } := by
  refine ⟨consistent.issued, consistent.unique, ?_, ?_, consistent.cached, consistent.requests⟩
  · intro queued member
    rcases List.mem_append.mp member with old | new
    · obtain ⟨held, owned, fit⟩ := consistent.jobs queued old
      exact ⟨held, owned, fit.mono numbers⟩
    · cases List.mem_singleton.mp new
      exact ⟨key, owns, fits⟩
  · simp only [List.map_append, List.map_cons, List.map_nil]
    refine List.nodup_append.mpr ⟨consistent.ids, List.nodup_singleton _, ?_⟩
    rintro id old _ (new : _ ∈ [_]) rfl
    exact fresh (List.mem_singleton.mp new ▸ old)

theorem Consistent.enqueued {s : System} (consistent : Consistent s) {request : Request} {txId : Nat}
    (owns : Owns s request.userId request.idempotencyKey txId) : Consistent (enqueueJob s txId request) := by
  unfold enqueueJob
  split
  · rename_i key given
    simp only
    split
    · exact consistent
    · rename_i absent
      exact consistent.appended le_rfl absent owns (by simp only [IdFits, given])
  · rename_i given
    refine consistent.appended (Nat.le_succ _) consistent.unnumbered owns ?_
    simp only [IdFits, given]
    exact ⟨s.nextNumber, Nat.lt_succ_self _, rfl⟩

/-- A step of a call keeps consistency, and the call owns what it has in hand. -/
theorem Consistent.proceeds {config : Config} {s base : System} {id : Nat} {request : Request}
    {next : Phase} (consistent : Consistent s) (found : s.requests.lookup id = some request)
    (proceeds : Proceeds config s request base next) : Consistent base ∧
      ∀ response ∈ next.response, Owns base request.userId request.idempotencyKey response.txId := by
  have grows := proceeds.grows consistent.issued
  have held := consistent.requests id request found
  cases proceeds with
  | leaves => exact ⟨consistent, by simp [Phase.response]⟩
  | misses => exact ⟨consistent, by simp [Phase.response]⟩
  | passes => exact ⟨consistent, by simp [Phase.response]⟩
  | resolves => exact ⟨consistent, by simp [Phase.response]⟩
  | loses => exact ⟨consistent, by simp [Phase.response]⟩
  | replays key response given hit =>
    obtain ⟨userId, key', same, owns⟩ := consistent.cached _ response hit
    obtain ⟨rfl, rfl⟩ := idempotencyCacheKey_injective same
    refine ⟨consistent, ?_⟩
    rintro _ ⟨⟩
    exact (truthy_some.mp given).1 ▸ owns
  | creates walletId inserting free =>
    refine ⟨consistent.extended grows ?_ (created_unique consistent walletId free _) rfl rfl rfl rfl, ?_⟩
    · intro txId settlement lookup
      obtain ⟨rfl, -⟩ | ⟨-, old⟩ := lookup_insert_some.mp lookup
      · exact Nat.lt_succ_self _
      · exact (consistent.issued txId settlement old).trans (Nat.lt_succ_self _)
    · rintro _ ⟨⟩
      exact ⟨_, AList.lookup_insert _, rfl, rfl⟩
  | enqueues response replay queueing next =>
    have owns : Owns s request.userId request.idempotencyKey response.txId := by
      apply held
      rcases queueing with phase | phase <;> simp [phase, Phase.response]
    refine ⟨consistent.enqueued owns, ?_⟩
    intro kept hand
    have same : kept = response := by
      rcases next with rfl | rfl <;> simpa [Phase.response] using hand.symm
    subst same
    exact owns.grows grows
  | finds key txId row given hit =>
    refine ⟨consistent, ?_⟩
    rintro _ ⟨⟩
    exact (truthy_some.mp given).1 ▸ findByKey_some hit
  | caches key response replay given storing =>
    have owns : Owns s request.userId request.idempotencyKey response.txId := by
      apply held
      simp [storing, Phase.response]
    refine ⟨⟨consistent.issued, consistent.unique, consistent.jobs, consistent.ids, ?_,
      consistent.requests⟩, ?_⟩
    · intro cacheKey stored lookup
      obtain ⟨rfl, rfl⟩ | ⟨-, old⟩ := lookup_insert_some.mp lookup
      · exact ⟨request.userId, key, rfl, (truthy_some.mp given).1 ▸ owns⟩
      · exact consistent.cached cacheKey stored old
    · rintro _ ⟨⟩
      exact owns
  | skips response replay storing =>
    refine ⟨consistent, ?_⟩
    rintro _ ⟨⟩
    apply held
    simp [storing, Phase.response]

theorem Consistent.steps {config : Config} {s after : System} (consistent : Consistent s)
    (steps : Steps config s event after) : Consistent after := by
  have grows := steps.grows consistent.issued
  have issued := consistent.issued.steps steps
  cases steps with
  | idle => exact consistent
  | sent id request fresh first =>
    refine ⟨issued, consistent.unique, consistent.jobs, consistent.ids, consistent.cached, ?_⟩
    intro sent held lookup
    obtain ⟨-, rfl⟩ | ⟨-, old⟩ := lookup_insert_some.mp lookup
    · rcases first with phase | phase <;> simp [phase, Phase.response]
    · exact consistent.requests sent held old
  | proceeded id request base next found cause proceeds =>
    obtain ⟨kept, owns⟩ := consistent.proceeds found proceeds
    exact kept.become id request next owns
  | evicted cacheKey =>
    refine ⟨issued, consistent.unique, consistent.jobs, consistent.ids, ?_, consistent.requests⟩
    intro kept response lookup
    exact consistent.cached kept response (lookup_erase_some lookup)
  | settled txId before later cause found steps =>
    refine consistent.extended grows issued ?_ rfl rfl rfl rfl
    intro userId key first second one two
    exact consistent.unique userId key first second (settled_owns found steps.same_transfer one)
      (settled_owns found steps.same_transfer two)
  | dawned => exact ⟨issued, consistent.unique, consistent.jobs, consistent.ids, consistent.cached,
      consistent.requests⟩

theorem consistent_run (config : Config) (events : List Event) :
    Consistent (run (step config) System.empty events) :=
  run_invariant Consistent (fun s event consistent => consistent.steps (step_cases config s event))
    consistent_empty events

/-- Idempotent creation, for every user and key and over every interleaving and
crash pattern: there is at most one row, at most one job under the send id and it
carries that row's id, and every call that returned has returned that row's id. -/
theorem transfer_created_once (config : Config) (events : List Event) (userId : UserId) (key : String) :
    let s := run (step config) System.empty events
    (∀ first second, Owns s userId (some key) first → Owns s userId (some key) second → first = second) ∧
    (s.jobs.filter fun job => job.id = .named (sendJobId userId key)).length ≤ 1 ∧
    (∀ job ∈ s.jobs, job.id = .named (sendJobId userId key) → Owns s userId (some key) job.data.txId) ∧
    (∀ id request response replay, s.requests.lookup id = some request → request.userId = userId →
      request.idempotencyKey = some key → request.phase = .returned response replay →
      Owns s userId (some key) response.txId) := by
  intro s
  have consistent : Consistent s := consistent_run config events
  refine ⟨consistent.unique userId key, ?_, ?_, ?_⟩
  · have single := List.nodup_iff_count_le_one.mp consistent.ids (.named (sendJobId userId key))
    rw [List.count, List.countP_map, List.countP_eq_length_filter] at single
    exact single
  · intro job member named
    obtain ⟨owned, owns, fits⟩ := consistent.jobs job member
    unfold IdFits at fits
    split at fits
    · rename_i key' given
      obtain ⟨same, rfl⟩ := sendJobId_injective (JobId.named.inj (fits.symm.trans named))
      rw [← same, ← (truthy_some.mp given).1]
      exact owns
    · obtain ⟨number, -, assigned⟩ := fits
      cases assigned.symm.trans named
  · rintro id request response replay lookup rfl given returned
    rw [← given]
    exact consistent.requests id request lookup response (by simp [returned, Phase.response])

end AfroPay.Transfer
