import AfroPay.Panics
import AfroPay.TransferIdempotency
import Mathlib.Data.List.Infix
import Mathlib.Tactic.Linarith
import Mathlib.Tactic.NormNum

/-! The daily limit in aggregate. A limit check counts the settled rows of the day
and nothing that is still on its way to being settled, so the limit holds for a
whole day as long as every check would also have passed with the transfers in
flight counted in. -/
namespace AfroPay.Transfer
open KeyedStore Runs Kyc Panics

/-- The dollars an amount of an asset is worth. -/
def usdValue (config : Config) (amount assetCode : String) : ℚ :=
  match normalizeAmountToUsd config.rates amount assetCode with
  | .ok value => value.untopD 0
  | .error _ => 0

/-- The amount is worth a finite number of dollars, and not a negative one. -/
structure Priced (config : Config) (amount assetCode : String) : Prop where
  value : normalizeAmountToUsd config.rates amount assetCode = .ok (usdValue config amount assetCode : Usd)
  nonneg : 0 ≤ usdValue config amount assetCode

def dailyLimit (config : Config) (userId : UserId) : ℚ := getLimitForTier ((config.tier userId).getD .none)

/-- The row has been settled, or may still come to be: its hash was written with
its `SUCCESS`. -/
def live (settlement : Settlement.State) : Bool :=
  settlement.row.stellarTxHash.isSome || !settlement.row.status.terminal ||
    settlement.workers.entries.any fun entry => entry.2.phase.mayConfirm

/-- What one row counts toward a user's day. -/
def rowShare (config : Config) (userId : UserId) (day : Nat) (_ : Nat) (settlement : Settlement.State) : ℚ :=
  if settlement.row.userId = userId ∧ settlement.row.createdAt = day ∧ live settlement then
    usdValue config settlement.row.amount settlement.row.assetCode
  else 0

/-- The call has passed its limit check and has not inserted its row yet. -/
def Phase.checked : Phase → Bool
  | .wallet | .insert _ => true
  | _ => false

/-- What one call counts toward its user's day before it has a row. A call whose
key has a row already will not create another. -/
def callShare (config : Config) (s : System) (userId : UserId) (_ : Nat) (request : Request) : ℚ :=
  if request.userId = userId ∧ request.phase.checked ∧ conflicts s request = false then
    usdValue config request.dto.amount request.dto.assetCode
  else 0

/-- The dollars of the user's rows of a day that have been settled or may still be. -/
def rowsTotal (config : Config) (s : System) (userId : UserId) (day : Nat) : ℚ :=
  total s.settlements (rowShare config userId day)

/-- The dollars of the user's checked calls that have no row yet. -/
def callsTotal (config : Config) (s : System) (userId : UserId) : ℚ :=
  total s.requests (callShare config s userId)

/-- A limit check that passes, for a call that may still create its row, would also
have passed with the user's transfers in flight that day counted in. -/
def countsInFlight (config : Config) (s : System) : Event → Bool
  | .proceed id .done =>
    match s.requests.lookup id with
    | some ⟨userId, dto, idempotencyKey, .limit⟩ =>
      match checkLimit config s userId dto with
      | .ok _ => conflicts s ⟨userId, dto, idempotencyKey, .limit⟩ ||
          rowsTotal config s userId s.day + callsTotal config s userId +
            usdValue config dto.amount dto.assetCode ≤ dailyLimit config userId
      | .error _ => true
    | _ => true
  | _ => true

theorem convert_nonneg {rates : String → Option ℚ≥0} {numericAmount value : Usd} {assetCode : String}
    (nonneg : 0 ≤ numericAmount) (ok : convert rates numericAmount assetCode = .ok value) : 0 ≤ value := by
  unfold convert at ok
  split at ok
  · cases ok
  · simp only at ok
    split at ok
    · cases ok
      exact nonneg
    · split at ok
      · rename_i rate _
        split at ok
        · cases ok
        · cases ok
          induction numericAmount using WithTop.recTopCoe with
          | top => exact le_top
          | coe amount =>
            have amount_nonneg : 0 ≤ amount := by exact_mod_cast nonneg
            have product := mul_nonneg amount_nonneg rate.coe_nonneg
            rw [WithTop.map_coe]
            exact_mod_cast product
      · cases ok

theorem normalizeAmountToUsd_nonneg {rates : String → Option ℚ≥0} {amount assetCode : String} {value : Usd}
    (ok : normalizeAmountToUsd rates amount assetCode = .ok value) : 0 ≤ value := by
  unfold normalizeAmountToUsd at ok
  split at ok
  · cases ok
  · cases ok
  · exact convert_nonneg le_top ok
  · split at ok
    · cases ok
    · rename_i numeric _ nonneg
      exact convert_nonneg (by exact_mod_cast not_lt.mp nonneg) ok

/-- A check that passes priced the request in finite dollars. -/
theorem checkLimit_priced {config : Config} {s : System} {userId : UserId} {dto : SendDto}
    (ok : checkLimit config s userId dto = .ok ()) : Priced config dto.amount dto.assetCode := by
  simp only [checkLimit, assertWithinDailyLimit, bind_ok] at ok
  obtain ⟨amountUsd, normalized, spent, -, within⟩ := ok
  split at within
  · cases within
  · rename_i covered
    have nonneg := normalizeAmountToUsd_nonneg normalized
    induction amountUsd using WithTop.recTopCoe with
    | top => simp at covered
    | coe value =>
      have worth : usdValue config dto.amount dto.assetCode = value := by simp [usdValue, normalized]
      exact ⟨by rw [worth, normalized], by rw [worth]; exact_mod_cast nonneg⟩

private theorem usd_sum (values : Transaction → ℚ) (rows : List Transaction) :
    ((rows.map values).sum : Usd) = (rows.map fun row => (values row : Usd)).sum := by
  induction rows with
  | nil => rfl
  | cons row rest ih =>
    simp only [List.map_cons, List.sum_cons, WithTop.coe_add]
    rw [ih]

/-- The code's own sum over priced rows is the sum of their dollars. -/
theorem getDailySpent_priced {config : Config} {rows : List Transaction}
    (priced : ∀ row ∈ rows, Priced config row.amount row.assetCode) :
    getDailySpent config.rates rows =
      .ok ((rows.map fun row => usdValue config row.amount row.assetCode).sum : ℚ) := by
  have values : rows.mapM (fun row => normalizeAmountToUsd config.rates row.amount row.assetCode) =
      .ok (rows.map fun row => (usdValue config row.amount row.assetCode : Usd)) := by
    induction rows with
    | nil => rfl
    | cons row rest ih =>
      rw [List.mapM_cons, (priced row (List.mem_cons_self ..)).value,
        ih fun other member => priced other (List.mem_cons_of_mem _ member)]
      rfl
  simp only [getDailySpent, values, usd_sum]
  rfl

theorem live_iff {settlement : Settlement.State} :
    live settlement ↔ settlement.row.stellarTxHash.isSome ∨ settlement.row.status.terminal = false ∨
      ∃ id worker, settlement.workers.lookup id = some worker ∧ worker.phase.mayConfirm := by
  simp only [live, Bool.or_eq_true, Bool.not_eq_true', List.any_eq_true, or_assoc]
  constructor
  · rintro (settled | open' | ⟨⟨id, worker⟩, member, hope⟩)
    · exact .inl settled
    · exact .inr (.inl open')
    · exact .inr (.inr ⟨id, worker, AList.mem_lookup_iff.mpr member, hope⟩)
  · rintro (settled | open' | ⟨id, worker, found, hope⟩)
    · exact .inl settled
    · exact .inr (.inl open')
    · exact .inr (.inr ⟨⟨id, worker⟩, AList.mem_lookup_iff.mp found, hope⟩)

private theorem moves_live {s : Settlement.State} {id : Nat} {phase : Settlement.Phase}
    {outcome : Settlement.Outcome} {effect : Settlement.Effect}
    (moves : Settlement.Moves s id phase outcome effect)
    (alive : effect.row.stellarTxHash.isSome ∨ effect.row.status.terminal = false ∨ effect.next.mayConfirm) :
    s.row.stellarTxHash.isSome ∨ s.row.status.terminal = false ∨ phase.mayConfirm := by
  cases moves with
  | leaves => exact alive.imp_right (.imp_right fun hope => by cases hope)
  | loads open' => exact .inr (.inl open')
  | locks => exact alive.imp_right (.imp_right fun _ => rfl)
  | advances _ _ _ hope => exact alive.imp_right (.imp_right hope)
  | clears => exact .inr (.inr rfl)
  | submits => exact .inr (.inr rfl)
  | confirms => exact .inr (.inr rfl)
  | unconfirmed => exact .inr (.inr rfl)
  | rejects status inside rejected =>
    refine .inl (alive.resolve_right ?_)
    rcases rejected with rfl | ⟨rfl, -⟩ <;> simp [Status.terminal, Settlement.Phase.mayConfirm]
  | quits => exact alive.imp_right (.imp_right fun hope => by cases hope)
  | releases => exact alive.imp_right (.imp_right fun hope => by cases hope)
  | strands => exact alive.imp_right (.imp_right fun hope => by cases hope)

private theorem hopeful_outsider {s : Settlement.State} {id : Nat} {worker : Settlement.Worker}
    (hopeless : worker.phase.mayConfirm = false)
    (hopeful : ∃ other rival, (s.workers.insert id worker).lookup other = some rival ∧ rival.phase.mayConfirm) :
    ∃ other rival, s.workers.lookup other = some rival ∧ rival.phase.mayConfirm := by
  obtain ⟨other, rival, lookup, hope⟩ := hopeful
  obtain ⟨-, rfl⟩ | ⟨-, old⟩ := lookup_insert_some.mp lookup
  · cases hopeless.symm.trans hope
  · exact ⟨other, rival, old, hope⟩

/-- No event brings a row back that was never settled and is not on its way. -/
theorem live_steps {before after : Settlement.State} (steps : Settlement.Steps before cause after)
    (alive : live after) : live before := by
  rw [live_iff] at alive ⊢
  cases steps with
  | delivered started fresh => exact alive.imp_right (.imp_right (hopeful_outsider rfl))
  | worked moved worker found moves =>
    have mine := moves_live moves
    have here : worker.phase.mayConfirm → ∃ id worker, before.workers.lookup id = some worker ∧
        worker.phase.mayConfirm := fun hope => ⟨moved, worker, found, hope⟩
    rcases alive with settled | open' | ⟨id, rival, lookup, hope⟩
    · exact (mine (.inl settled)).imp_right (.imp_right here)
    · exact (mine (.inr (.inl open'))).imp_right (.imp_right here)
    · obtain ⟨-, rfl⟩ | ⟨-, old⟩ := lookup_insert_some.mp lookup
      · exact (mine (.inr (.inr hope))).imp_right (.imp_right here)
      · exact .inr (.inr ⟨id, rival, old, hope⟩)
  | crashed lost worker found => exact alive.imp_right (.imp_right (hopeful_outsider rfl))
  | rescored id call holds found writing =>
    cases holds with
    | false => exact alive
    | true =>
      have closed : ¬ (call.written true before.row).status.terminal = false := by
        simp [Settlement.RiskCall.written, Status.terminal]
      exact alive.imp_right fun later => .inr (later.resolve_left closed)
  | _ => exact alive

/-- Rows and checked calls are priced, and no day of a user holds more than the
limit: not a past one, and not the current one with the checked calls. -/
structure Limited (config : Config) (s : System) : Prop where
  issued : Issued s
  rows : ∀ txId settlement, s.settlements.lookup txId = some settlement →
    Priced config settlement.row.amount settlement.row.assetCode ∧ settlement.row.createdAt ≤ s.day
  calls : ∀ id request, s.requests.lookup id = some request → request.phase.checked →
    Priced config request.dto.amount request.dto.assetCode
  past : ∀ userId day, day < s.day → rowsTotal config s userId day ≤ dailyLimit config userId
  today : ∀ userId, rowsTotal config s userId s.day + callsTotal config s userId ≤ dailyLimit config userId

theorem dailyLimit_nonneg (config : Config) (userId : UserId) : 0 ≤ dailyLimit config userId := by
  unfold dailyLimit getLimitForTier
  split <;> norm_num

theorem limited_empty (config : Config) : Limited config System.empty := by
  refine ⟨consistent_empty.issued, by simp [System.empty], by simp [System.empty], ?_, ?_⟩
  · intro userId day past
    exact absurd past (Nat.not_lt_zero day)
  · intro userId
    simpa [rowsTotal, callsTotal, System.empty] using dailyLimit_nonneg config userId

theorem rowShare_nonneg {config : Config} {settlement : Settlement.State}
    (priced : Priced config settlement.row.amount settlement.row.assetCode) (userId : UserId) (day txId : Nat) :
    0 ≤ rowShare config userId day txId settlement := by
  unfold rowShare
  split
  · exact priced.nonneg
  · exact le_rfl

theorem Limited.rows_nonneg {config : Config} {s : System} (limited : Limited config s) (userId : UserId)
    (day : Nat) : 0 ≤ rowsTotal config s userId day :=
  total_nonneg fun txId settlement found =>
    rowShare_nonneg (limited.rows txId settlement found).1 userId day txId

theorem Limited.call_nonneg {config : Config} {s : System} {id : Nat} {request : Request}
    (limited : Limited config s) (found : s.requests.lookup id = some request) (after : System)
    (userId : UserId) : 0 ≤ callShare config after userId id request := by
  unfold callShare
  split
  · rename_i mine
    exact (limited.calls id request found mine.2.1).nonneg
  · exact le_rfl

theorem Limited.calls_nonneg {config : Config} {s : System} (limited : Limited config s)
    (userId : UserId) : 0 ≤ callsTotal config s userId :=
  total_nonneg fun _ _ found => limited.call_nonneg found s userId

/-- A day that has not come yet has no rows. -/
theorem Limited.rowsTotal_future {config : Config} {s : System} (limited : Limited config s)
    (userId : UserId) {day : Nat} (future : s.day < day) : rowsTotal config s userId day = 0 := by
  have shares : rowsTotal config s userId day = total s.settlements fun _ _ => (0 : ℚ) := by
    apply total_congr
    intro txId settlement found
    have created := (limited.rows txId settlement found).2
    have other : settlement.row.createdAt ≠ day := (created.trans_lt future).ne
    simp [rowShare, other]
  rw [shares]
  simp [total]

/-- No day holds more than the limit. -/
theorem Limited.rowsTotal_le {config : Config} {s : System} (limited : Limited config s)
    (userId : UserId) (day : Nat) : rowsTotal config s userId day ≤ dailyLimit config userId := by
  rcases lt_trichotomy day s.day with past | rfl | future
  · exact limited.past userId day past
  · linarith [limited.today userId, limited.calls_nonneg userId]
  · rw [limited.rowsTotal_future userId future]
    exact dailyLimit_nonneg config userId

@[simp] theorem conflicts_phase (s : System) (request : Request) (phase : Phase) :
    conflicts s { request with phase } = conflicts s request := rfl

theorem conflicts_iff {s : System} {request : Request} : conflicts s request = true ↔
    ∃ key txId, request.idempotencyKey = some key ∧ Owns s request.userId (some key) txId := by
  unfold conflicts
  split
  · rename_i key given
    constructor
    · intro taken
      obtain ⟨⟨txId, row⟩, found⟩ := Option.isSome_iff_exists.mp taken
      exact ⟨key, txId, given, findByKey_some found⟩
    · rintro ⟨key', txId, given', owns⟩
      cases given.symm.trans given'
      by_contra absent
      exact findByKey_none (Bool.eq_false_iff.mpr absent) owns
  · rename_i given
    simp [given]

/-- A key that has its row keeps it, so shares of calls only go down. -/
theorem Limited.callShare_grows {config : Config} {s after : System} {id : Nat} {request : Request}
    (limited : Limited config s) (grows : Grows s after) (found : s.requests.lookup id = some request)
    (userId : UserId) : callShare config after userId id request ≤ callShare config s userId id request := by
  by_cases taken : conflicts s request = true
  · obtain ⟨key, txId, given, owns⟩ := conflicts_iff.mp taken
    have still : conflicts after request = true := conflicts_iff.mpr ⟨key, txId, given, owns.grows grows⟩
    simp [callShare, taken, still]
  · have nonneg := limited.call_nonneg found s userId
    unfold callShare at nonneg ⊢
    split
    · rename_i mine
      rw [if_pos ⟨mine.1, mine.2.1, Bool.eq_false_iff.mpr taken⟩]
    · exact nonneg

/-- A call that moves on gives up its own share for its next one. -/
theorem Limited.callsTotal_become {config : Config} {s base : System} {id : Nat} {request : Request}
    (limited : Limited config s) (grows : Grows s base) (found : s.requests.lookup id = some request)
    (requests : base.requests = s.requests) (next : Phase) (userId : UserId) :
    callsTotal config (base.become id request next) userId ≤ callsTotal config s userId -
      callShare config s userId id request + callShare config base userId id { request with phase := next } := by
  have others : total (s.requests.erase id) (callShare config base userId) ≤
      total (s.requests.erase id) (callShare config s userId) := by
    apply total_mono
    intro moved held lookup
    exact limited.callShare_grows grows (lookup_erase_some lookup) userId
  have moved : callsTotal config (base.become id request next) userId =
      total (s.requests.erase id) (callShare config base userId) +
        callShare config base userId id { request with phase := next } := by
    rw [total_erase, ← requests, ← total_insert]
    rfl
  have released : total (s.requests.erase id) (callShare config s userId) =
      callsTotal config s userId - callShare config s userId id request := by
    rw [total_erase, contribution_some found]
    rfl
  rw [moved, ← released]
  exact add_le_add_left others _

/-- A call may move on when its next share is priced and fits with the rows. -/
theorem Limited.become {config : Config} {s base : System} {id : Nat} {request : Request}
    (limited : Limited config s) (grows : Grows s base) (issued : Issued base)
    (found : s.requests.lookup id = some request) (requests : base.requests = s.requests)
    (day : base.day = s.day) (next : Phase)
    (rows : ∀ txId settlement, base.settlements.lookup txId = some settlement →
      Priced config settlement.row.amount settlement.row.assetCode ∧ settlement.row.createdAt ≤ s.day)
    (priced : next.checked → Priced config request.dto.amount request.dto.assetCode)
    (past : ∀ userId day, day < s.day → rowsTotal config base userId day = rowsTotal config s userId day)
    (today : ∀ userId, rowsTotal config base userId s.day +
      callShare config base userId id { request with phase := next } ≤
        rowsTotal config s userId s.day + callShare config s userId id request ∨
      rowsTotal config base userId s.day + callsTotal config s userId +
        callShare config base userId id { request with phase := next } ≤ dailyLimit config userId) :
    Limited config (base.become id request next) where
  issued := issued
  rows := by
    intro txId settlement lookup
    exact day ▸ rows txId settlement lookup
  calls := by
    intro moved held lookup checked
    obtain ⟨-, rfl⟩ | ⟨-, old⟩ := lookup_insert_some.mp lookup
    · exact priced checked
    · exact limited.calls moved held (requests ▸ old) checked
  past := by
    intro userId earlier before
    have before : earlier < s.day := day ▸ before
    exact (past userId earlier before).trans_le (limited.past userId earlier before)
  today := by
    intro userId
    have held := limited.today userId
    have mine := limited.call_nonneg found s userId
    have calls := limited.callsTotal_become grows found requests next userId
    have same : rowsTotal config (base.become id request next) userId (base.become id request next).day =
        rowsTotal config base userId s.day := by
      simp only [rowsTotal, System.become, day]
    rw [same]
    rcases today userId with fits | fits <;> linarith

/-- A call that moves to a phase without a share, with the rows left alone. -/
theorem Limited.unreserved {config : Config} {s base : System} {id : Nat} {request : Request}
    (limited : Limited config s) (grows : Grows s base) (issued : Issued base)
    (found : s.requests.lookup id = some request) (requests : base.requests = s.requests)
    (settlements : base.settlements = s.settlements) (day : base.day = s.day) {next : Phase}
    (unchecked : next.checked = false) : Limited config (base.become id request next) := by
  have same : ∀ userId day, rowsTotal config base userId day = rowsTotal config s userId day := by
    intro userId day
    simp only [rowsTotal, settlements]
  refine limited.become grows issued found requests day next (settlements ▸ limited.rows) ?_
    (fun userId day _ => same userId day) ?_
  · intro checked
    rw [unchecked] at checked
    cases checked
  · intro userId
    have mine := limited.call_nonneg found s userId
    have released : callShare config base userId id { request with phase := next } = 0 := by
      simp [callShare, unchecked]
    rw [same, released]
    exact .inl (add_le_add_right mine _)

/-- A new row counts in full toward the day it was created on. -/
theorem rowsTotal_created {s : System} (issued : Issued s) (config : Config) (request : Request)
    (walletId : String) (nextId : Nat) (userId : UserId) (day : Nat) :
    rowsTotal config { s with
      settlements := s.settlements.insert s.nextId (.created (newRow s request walletId)), nextId := nextId }
      userId day = rowsTotal config s userId day +
        if request.userId = userId ∧ s.day = day then usdValue config request.dto.amount request.dto.assetCode
        else 0 := by
  simp only [rowsTotal, total_insert, contribution_none issued.unused, sub_zero]
  simp [rowShare, live, newRow, Settlement.State.created, Status.terminal]

/-- The share of a call becomes the share of its row. -/
theorem Limited.creates {config : Config} {s base : System} {id : Nat} {request : Request}
    {walletId : String} (limited : Limited config s) (found : s.requests.lookup id = some request)
    (inserting : request.phase = .insert walletId) (free : conflicts s request = false)
    (made : base = { s with
      settlements := s.settlements.insert s.nextId (.created (newRow s request walletId))
      nextId := s.nextId + 1 })
    (grows : Grows s base) (issued : Issued base) (response : Response) :
    Limited config (base.become id request (.enqueue response)) := by
  have checked : request.phase.checked := by simp [inserting, Phase.checked]
  subst made
  refine limited.become grows issued found rfl rfl _ ?_ ?_ ?_ ?_
  · intro txId settlement lookup
    obtain ⟨-, rfl⟩ | ⟨-, old⟩ := lookup_insert_some.mp lookup
    · exact ⟨limited.calls id request found checked, le_rfl⟩
    · exact limited.rows txId settlement old
  · intro reserved
    cases reserved
  · intro userId day past
    rw [rowsTotal_created limited.issued, if_neg fun mine => past.ne' mine.2, add_zero]
  · intro userId
    left
    rw [rowsTotal_created limited.issued]
    simp [callShare, inserting, free, Phase.checked]

theorem countsInFlight_fits {config : Config} {s : System} {id : Nat} {request : Request}
    (found : s.requests.lookup id = some request) (checking : request.phase = .limit)
    (within : checkLimit config s request.userId request.dto = .ok ())
    (counts : countsInFlight config s (.proceed id .done)) (free : conflicts s request = false) :
    rowsTotal config s request.userId s.day + callsTotal config s request.userId +
      usdValue config request.dto.amount request.dto.assetCode ≤ dailyLimit config request.userId := by
  obtain ⟨userId, dto, idempotencyKey, phase⟩ := request
  subst checking
  simpa [countsInFlight, found, within, free] using counts

/-- A check that passes with the transfers in flight counted in may reserve. -/
theorem Limited.passes {config : Config} {s : System} {id : Nat} {request : Request}
    (limited : Limited config s) (found : s.requests.lookup id = some request)
    (checking : request.phase = .limit) (within : checkLimit config s request.userId request.dto = .ok ())
    (counts : countsInFlight config s (.proceed id .done)) :
    Limited config (s.become id request .wallet) := by
  refine limited.become (.of_eq rfl fun _ member => member) limited.issued found rfl rfl _ limited.rows
    (fun _ => checkLimit_priced within) (fun _ _ _ => rfl) ?_
  intro userId
  by_cases mine : request.userId = userId ∧ conflicts s request = false
  · obtain ⟨rfl, free⟩ := mine
    right
    simpa [callShare, Phase.checked, free] using
      countsInFlight_fits found checking within counts free
  · left
    have unshared : callShare config s userId id { request with phase := .wallet } = 0 := by
      unfold callShare
      exact if_neg fun share => mine ⟨share.1, share.2.2⟩
    rw [unshared]
    exact add_le_add_right (limited.call_nonneg found s userId) _

/-- A step of a call keeps every day within the limit. -/
theorem Limited.proceeds {config : Config} {s base : System} {id : Nat} {request : Request} {next : Phase}
    (limited : Limited config s) (found : s.requests.lookup id = some request)
    (counts : next = .wallet → countsInFlight config s (.proceed id .done))
    (proceeds : Proceeds config s request base next) (issued : Issued base) :
    Limited config (base.become id request next) := by
  have grows := proceeds.grows limited.issued
  cases proceeds with
  | passes checking within => exact limited.passes found checking within (counts rfl)
  | resolves walletId looking =>
    refine limited.become grows issued found rfl rfl _ limited.rows ?_ (fun _ _ _ => rfl) ?_
    · intro _
      exact limited.calls id request found (by simp [looking, Phase.checked])
    · intro userId
      left
      simp [callShare, looking, Phase.checked]
  | creates walletId inserting free => exact limited.creates found inserting free rfl grows issued _
  | enqueues response replay queueing after =>
    have unchecked : next.checked = false := by
      rcases after with rfl | rfl <;> rfl
    obtain ⟨jobs, number, same, -⟩ := enqueueJob_frame s response.txId request
    rw [same] at grows issued ⊢
    exact limited.unreserved grows issued found rfl rfl rfl unchecked
  | _ => exact limited.unreserved grows issued found rfl rfl rfl rfl

/-- Settling never makes a row count more. -/
theorem rowShare_settled {config : Config} {before after : Settlement.State}
    (steps : Settlement.Steps before cause after)
    (priced : Priced config before.row.amount before.row.assetCode) (userId : UserId) (day txId : Nat) :
    rowShare config userId day txId after ≤ rowShare config userId day txId before := by
  obtain ⟨user, -, -, amount, asset, -, -, created⟩ := steps.same_transfer.fields
  have nonneg := rowShare_nonneg priced userId day txId
  unfold rowShare at nonneg ⊢
  rw [user, amount, asset, created]
  split
  · rename_i counted
    rw [if_pos ⟨counted.1, counted.2.1, live_steps steps counted.2.2⟩]
  · exact nonneg

theorem Limited.settles {config : Config} {s : System} {txId : Nat} {before after : Settlement.State}
    (limited : Limited config s) (found : s.settlements.lookup txId = some before)
    (steps : Settlement.Steps before cause after)
    (grows : Grows s { s with settlements := s.settlements.insert txId after })
    (issued : Issued { s with settlements := s.settlements.insert txId after }) :
    Limited config { s with settlements := s.settlements.insert txId after } := by
  obtain ⟨priced, created⟩ := limited.rows txId before found
  have fewer : ∀ userId day, rowsTotal config { s with settlements := s.settlements.insert txId after }
      userId day ≤ rowsTotal config s userId day := by
    intro userId day
    simp only [rowsTotal, total_insert, contribution_some found]
    linarith [rowShare_settled steps priced userId day txId]
  refine ⟨issued, ?_, limited.calls, ?_, ?_⟩
  · intro id settlement lookup
    obtain ⟨-, rfl⟩ | ⟨-, old⟩ := lookup_insert_some.mp lookup
    · obtain ⟨-, -, -, amount, asset, -, -, same⟩ := steps.same_transfer.fields
      rw [amount, asset, same]
      exact ⟨priced, created⟩
    · exact limited.rows id settlement old
  · intro userId day past
    exact (fewer userId day).trans (limited.past userId day past)
  · intro userId
    have calls : callsTotal config { s with settlements := s.settlements.insert txId after } userId ≤
        callsTotal config s userId :=
      total_mono fun id request lookup => limited.callShare_grows grows lookup userId
    exact (add_le_add (fewer userId s.day) calls).trans (limited.today userId)

/-- An event that counts what is in flight keeps every day within the limit. -/
theorem Limited.steps {config : Config} {s after : System} (limited : Limited config s)
    (counts : countsInFlight config s event) (steps : Steps config s event after) : Limited config after := by
  have grows := steps.grows limited.issued
  have issued := limited.issued.steps steps
  cases steps with
  | idle => exact limited
  | sent id request fresh first =>
    have unchecked : request.phase.checked = false := by
      rcases first with phase | phase <;> simp [phase, Phase.checked]
    refine ⟨issued, limited.rows, ?_, limited.past, ?_⟩
    · intro sent held lookup checked
      obtain ⟨-, rfl⟩ | ⟨-, old⟩ := lookup_insert_some.mp lookup
      · rw [unchecked] at checked
        cases checked
      · exact limited.calls sent held old checked
    · intro userId
      have calls : callsTotal config { s with requests := s.requests.insert id request } userId =
          callsTotal config s userId - 0 + callShare config s userId id request := by
        rw [← contribution_none fresh]
        exact total_insert _ _ _ _
      have unshared : callShare config s userId id request = 0 := by
        simp [callShare, unchecked]
      rw [calls, unshared, sub_zero, add_zero]
      exact limited.today userId
  | proceeded id request base next found cause proceeds =>
    refine limited.proceeds found ?_ proceeds issued
    rintro rfl
    rcases cause with rfl | gone | ⟨walletId, inserting⟩
    · exact counts
    · cases gone
    · cases inserting
  | evicted cacheKey => exact ⟨issued, limited.rows, limited.calls, limited.past, limited.today⟩
  | settled txId before after cause found steps => exact limited.settles found steps grows issued
  | dawned =>
    refine ⟨issued, ?_, limited.calls, ?_, ?_⟩
    · intro txId settlement lookup
      obtain ⟨priced, created⟩ := limited.rows txId settlement lookup
      exact ⟨priced, created.trans (Nat.le_succ _)⟩
    · intro userId day _
      exact limited.rowsTotal_le userId day
    · intro userId
      have none : rowsTotal config { s with day := s.day + 1 } userId (s.day + 1) = 0 :=
        limited.rowsTotal_future userId (Nat.lt_succ_self _)
      have calls : callsTotal config { s with day := s.day + 1 } userId = callsTotal config s userId := rfl
      rw [none, calls]
      linarith [limited.today userId, limited.rows_nonneg userId s.day]

/-- The transaction stood at `SUCCESS` at some point of the run. -/
def reachedSuccess (config : Config) (events : List Event) (txId : Nat) : Bool :=
  events.inits.any fun before => ((run (step config) System.empty before).settlements.lookup txId).any
    fun settlement => settlement.row.status = .success

/-- The user's rows of a day that reached `SUCCESS`. -/
def spentOn (config : Config) (events : List Event) (userId : UserId) (day : Nat) : List Transaction :=
  ((run (step config) System.empty events).settlements.entries.filter fun entry =>
    entry.2.row.userId = userId && entry.2.row.createdAt = day && reachedSuccess config events entry.1).map
      fun entry => entry.2.row

private theorem moves_hash {s : Settlement.State} {id : Nat} {phase : Settlement.Phase}
    {outcome : Settlement.Outcome} {effect : Settlement.Effect}
    (moves : Settlement.Moves s id phase outcome effect) :
    (s.row.stellarTxHash.isSome → effect.row.stellarTxHash.isSome) ∧
      (effect.row.status = .success → s.row.status = .success ∨ effect.row.stellarTxHash.isSome) := by
  cases moves with
  | confirms => exact ⟨fun _ => rfl, fun _ => .inr rfl⟩
  | rejects status inside rejected =>
    refine ⟨fun marked => marked, fun success => ?_⟩
    rcases rejected with rfl | ⟨rfl, -⟩ <;> cases success
  | _ => exact ⟨fun marked => marked, .inl⟩

/-- `SUCCESS` is written with a hash, and hashes are never taken back. -/
private theorem hash_steps {before after : Settlement.State} (steps : Settlement.Steps before cause after) :
    (before.row.stellarTxHash.isSome → after.row.stellarTxHash.isSome) ∧
      (after.row.status = .success → before.row.status = .success ∨ after.row.stellarTxHash.isSome) := by
  cases steps with
  | worked id worker found moves => exact moves_hash moves
  | rescored id call holds found writing =>
    refine ⟨fun marked => marked, fun success => ?_⟩
    cases holds with
    | false => exact .inl success
    | true => cases success
  | _ => exact ⟨fun marked => marked, .inl⟩

/-- A row that stands at `SUCCESS` has its hash. -/
def Marked (s : System) : Prop := ∀ txId settlement, s.settlements.lookup txId = some settlement →
  settlement.row.status = .success → settlement.row.stellarTxHash.isSome

theorem Marked.steps {config : Config} {s after : System} (marked : Marked s)
    (steps : Steps config s event after) : Marked after := by
  intro txId later lookup success
  rcases steps.row_cases lookup with old | ⟨-, request, walletId, rfl⟩ | ⟨before, cause, found, steps⟩
  · exact marked txId later old success
  · cases success
  · have kept := hash_steps steps
    exact (kept.2 success).elim (fun earlier => kept.1 (marked txId before found earlier)) fun hash => hash

/-- A row keeps its hash. -/
theorem hash_kept {config : Config} {s after : System} (issued : Issued s) (steps : Steps config s event after)
    {txId : Nat} (held : ∃ settlement, s.settlements.lookup txId = some settlement ∧
      settlement.row.stellarTxHash.isSome) :
    ∃ settlement, after.settlements.lookup txId = some settlement ∧ settlement.row.stellarTxHash.isSome := by
  obtain ⟨settlement, found, hash⟩ := held
  obtain ⟨later, lookup, -⟩ := (steps.grows issued).rows txId settlement found
  refine ⟨later, lookup, ?_⟩
  rcases steps.row_cases lookup with old | ⟨rfl, -⟩ | ⟨before, cause, stored, steps⟩
  · cases found.symm.trans old
    exact hash
  · exact absurd (issued.unused.symm.trans found) (by simp)
  · cases found.symm.trans stored
    exact (hash_steps steps).1 hash

/-- A transaction that reached `SUCCESS` has its hash at the end of the run. -/
theorem reachedSuccess_hash {config : Config} {events : List Event} {txId : Nat}
    (reached : reachedSuccess config events txId) :
    ∃ settlement, (run (step config) System.empty events).settlements.lookup txId = some settlement ∧
      settlement.row.stellarTxHash.isSome := by
  obtain ⟨before, member, there⟩ := List.any_eq_true.mp reached
  obtain ⟨rest, rfl⟩ := (List.mem_inits _ _).mp member
  obtain ⟨settlement, found, success⟩ := (Option.any_eq_true _ _).mp there
  have start := run_invariant (fun s => Issued s ∧ Marked s)
    (fun s event held =>
      have steps := step_cases config s event
      ⟨held.1.steps steps, held.2.steps steps⟩)
    ⟨consistent_empty.issued, by simp [Marked, System.empty]⟩ before
  have final := run_invariant
    (fun s => Issued s ∧ ∃ settlement, s.settlements.lookup txId = some settlement ∧
      settlement.row.stellarTxHash.isSome)
    (fun s event held =>
      have steps := step_cases config s event
      ⟨held.1.steps steps, hash_kept held.1 steps held.2⟩)
    ⟨start.1, settlement, found, start.2 txId settlement found (of_decide_eq_true success)⟩ rest
  rw [run_append]
  exact final.2

/-- Rows that have been settled are worth no more than what counts toward the day. -/
theorem Limited.settled_le {config : Config} {s : System} (limited : Limited config s) (settled : Nat → Bool)
    (alive : ∀ txId settlement, s.settlements.lookup txId = some settlement → settled txId → live settlement)
    (userId : UserId) (day : Nat) :
    ((s.settlements.entries.filter fun entry => entry.2.row.userId = userId &&
      entry.2.row.createdAt = day && settled entry.1).map fun entry =>
        usdValue config entry.2.row.amount entry.2.row.assetCode).sum ≤ rowsTotal config s userId day := by
  refine (sum_filter s.settlements (fun txId settlement => settlement.row.userId = userId &&
    settlement.row.createdAt = day && settled txId)
    (fun _ settlement => usdValue config settlement.row.amount settlement.row.assetCode)).trans_le ?_
  apply total_mono
  intro txId settlement found
  split
  · rename_i counted
    simp only [Bool.and_eq_true, decide_eq_true_eq] at counted
    obtain ⟨⟨mine, today⟩, reached⟩ := counted
    rw [rowShare, if_pos ⟨mine, today, alive txId settlement found reached⟩]
  · exact rowShare_nonneg (limited.rows txId settlement found).1 userId day txId

/-- In every run whose limit checks would also have passed with the transfers in
flight counted in, what a user's transactions of a day that reached `SUCCESS` are
worth stays within the limit of the user's tier. -/
theorem daily_limit_holds (config : Config) (events : List Event)
    (counts : Throughout (step config) (fun s event => countsInFlight config s event) System.empty events)
    (userId : UserId) (day : Nat) :
    ∃ spent, getDailySpent config.rates (spentOn config events userId day) = .ok spent ∧
      spent ≤ (dailyLimit config userId : Usd) := by
  have limited := run_invariant_of (Limited config)
    (fun s event held meets => held.steps meets (step_cases config s event)) (limited_empty config) counts
  have priced : ∀ row ∈ spentOn config events userId day, Priced config row.amount row.assetCode := by
    intro row member
    obtain ⟨⟨txId, settlement⟩, kept, rfl⟩ := List.mem_map.mp member
    exact (limited.rows txId settlement (AList.mem_lookup_iff.mpr (List.mem_of_mem_filter kept))).1
  have settled := limited.settled_le (reachedSuccess config events) (fun txId settlement found reached => by
    obtain ⟨same, lookup, hash⟩ := reachedSuccess_hash reached
    cases found.symm.trans lookup
    exact live_iff.mpr (.inl hash)) userId day
  refine ⟨_, getDailySpent_priced priced, WithTop.coe_le_coe.mpr ?_⟩
  rw [spentOn, List.map_map]
  exact settled.trans (limited.rowsTotal_le userId day)

/-- The sender of the runs below. -/
def sender : UserId := ⟨"u1", u1_colonFree⟩

/-- The sender sends dollars under a key, up to the queued job. -/
def sends (call : Nat) (key amount : String) : List Event :=
  [.send call sender ⟨"GDEST", amount, "USDC", none, none⟩ (some key), .proceed call .done,
    .proceed call .done, .proceed call (.found "w1"), .proceed call .done, .proceed call .done]

/-- The job of a key is delivered and its row settled. -/
def settles (txId : Nat) (key : String) : List Event :=
  .deliver (.named (sendJobId sender key)) 0 ::
    ([.done, .done, .done, .scored 0 false, .done, .submitted "hash", .done].map
      fun outcome => .settle txId (.work 0 outcome))

/-- Sixty dollars settle before thirty more are checked. -/
def inSequence : List Event := sends 0 "k1" "60" ++ settles 0 "k1" ++ sends 1 "k2" "30" ++ settles 1 "k2"

/-- Sixty dollars and sixty more are checked before either settles. -/
def sideBySide : List Event := sends 0 "k1" "60" ++ sends 1 "k2" "60" ++ settles 0 "k1" ++ settles 1 "k2"

/-- A transfer that settles before the next one is checked leaves what it did not use. -/
theorem daily_limit_in_sequence :
    Throughout (step dollarsOnly) (fun s event => countsInFlight dollarsOnly s event) System.empty inSequence ∧
      ∃ spent, getDailySpent dollarsOnly.rates (spentOn dollarsOnly inSequence sender 0) = .ok spent ∧
        spent ≤ (dailyLimit dollarsOnly sender : Usd) := by
  have counts : Throughout (step dollarsOnly) (fun s event => countsInFlight dollarsOnly s event)
      System.empty inSequence := by decide +kernel
  exact ⟨counts, daily_limit_holds dollarsOnly inSequence counts sender 0⟩

/-- Two transfers of sixty dollars that are both checked before either settles
both settle, on one day of a user whose limit is a hundred. -/
theorem two_in_flight_exceed_limit : ¬ ∀ (config : Config) (events : List Event) (userId : UserId) (day : Nat),
    ∃ spent, getDailySpent config.rates (spentOn config events userId day) = .ok spent ∧
      spent ≤ (dailyLimit config userId : Usd) := by
  intro holds
  obtain ⟨spent, found, within⟩ := holds dollarsOnly sideBySide sender 0
  have total : (getDailySpent dollarsOnly.rates (spentOn dollarsOnly sideBySide sender 0)).toOption =
      some (120 : ℚ) := by decide +kernel
  rw [found] at total
  cases total
  have exceeded : ¬ (120 : ℚ) ≤ dailyLimit dollarsOnly sender := by
    simp only [dailyLimit, dollarsOnly, Option.getD_none, getLimitForTier]
    norm_num
  exact exceeded (WithTop.coe_le_coe.mp within)

end AfroPay.Transfer
