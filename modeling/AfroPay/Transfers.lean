import AfroPay.Kyc
import AfroPay.SettlementSteps

/-! The transfer pipeline: any number of `sendTransfer` calls by any users, the
idempotency cache, the transaction table, the queue, and the settlement of every
row. Each call takes its steps one at a time; a call that fails at a step or
crashes there takes no further one. The table enforces its unique constraint and
the queue ignores a job whose id it holds already. -/
namespace AfroPay.Transfer
open KeyedStore Runs Kyc ScriptText

/-- What the pipeline is given: dollar rates by asset code and a tier by user. -/
structure Config where
  rates : String → Option ℚ≥0
  tier : UserId → Option KycTier

/-- No rates and no records: only dollars are priced, under the lowest limit. -/
def dollarsOnly : Config := ⟨fun _ => none, fun _ => none⟩

/-- A job's id: the one it was given, or a number the queue assigns. -/
inductive JobId where
  | named (id : String)
  | assigned (number : Nat)
  deriving DecidableEq

structure Job where
  id : JobId
  data : JobData
  deriving DecidableEq

/-- A cached response. -/
structure Response where
  txId : Nat
  status : Status
  deriving DecidableEq

/-- Where a `sendTransfer` call stands. -/
inductive Phase where
  | cacheGet
  | limit
  | wallet
  | insert (walletId : String)
  | enqueue (response : Response)
  | replayFind
  | replayEnqueue (response : Response)
  | cacheSet (response : Response) (idempotentReplay : Bool)
  | returned (response : Response) (idempotentReplay : Bool)
  | gone
  deriving DecidableEq

/-- One `sendTransfer` call. -/
structure Request where
  userId : UserId
  dto : SendDto
  idempotencyKey : Option String
  phase : Phase
  deriving DecidableEq

/-- Rows with their settlement by id, the cache, the queue and the calls. -/
structure System where
  day : Nat
  cache : Store String Response
  settlements : Store Nat Settlement.State
  nextId : Nat
  jobs : List Job
  nextNumber : Nat
  requests : Store Nat Request

def System.empty : System := ⟨0, ∅, ∅, 0, [], 0, ∅⟩

def idempotencyCacheKey (userId : UserId) (key : String) : String :=
  "idempotency:" ++ userId.val ++ ":" ++ key

def sendJobId (userId : UserId) (key : String) : String := "send:" ++ userId.val ++ ":" ++ key

/-- The row belongs to this user and key. -/
def Transaction.isFor (row : Transaction) (userId : UserId) (key : String) : Bool :=
  row.userId = userId && row.idempotencyKey = some key

/-- `findFirst` by user and key. -/
def System.findByKey (s : System) (userId : UserId) (key : String) : Option (Nat × Transaction) :=
  (s.settlements.entries.find? fun entry => entry.2.row.isFor userId key).map
    fun entry => (entry.1, entry.2.row)

/-- The user's settled rows of the current day. -/
def System.settledToday (s : System) (userId : UserId) : List Transaction :=
  (s.settlements.entries.map fun entry => entry.2.row).filter fun row =>
    row.userId = userId && row.status = .success && s.day ≤ row.createdAt

/-- The limit check of a request. -/
def checkLimit (config : Config) (s : System) (userId : UserId) (dto : SendDto) : Except String Unit := do
  let amountUsd ← normalizeAmountToUsd config.rates dto.amount dto.assetCode
  assertWithinDailyLimit config.rates (config.tier userId) (s.settledToday userId) amountUsd

/-- The row `sendTransfer` creates. -/
def newRow (s : System) (request : Request) (walletId : String) : Transaction :=
  ⟨request.userId, walletId, request.dto.destinationPublicKey, request.dto.amount, request.dto.assetCode,
    request.dto.assetIssuer, request.dto.memo, request.idempotencyKey, .pending, none, none, false, s.day⟩

/-- The unique constraint on user and key; rows without a key never conflict. -/
def conflicts (s : System) (request : Request) : Bool :=
  match request.idempotencyKey with
  | some key => (s.findByKey request.userId key).isSome
  | none => false

def enqueueJob (s : System) (txId : Nat) (request : Request) : System :=
  let data : JobData := ⟨txId, request.userId, request.dto⟩
  match truthy request.idempotencyKey with
  | some key =>
    let id := JobId.named (sendJobId request.userId key)
    if id ∈ s.jobs.map Job.id then s else { s with jobs := s.jobs ++ [⟨id, data⟩] }
  | none => { s with jobs := s.jobs ++ [⟨.assigned s.nextNumber, data⟩], nextNumber := s.nextNumber + 1 }

/-- How a step's call to the outside ends. -/
inductive Outcome where
  | done
  | failed
  | found (walletId : String)
  deriving DecidableEq

def System.become (s : System) (id : Nat) (request : Request) (phase : Phase) : System :=
  { s with requests := s.requests.insert id { request with phase } }

/-- One step of a `sendTransfer` call. -/
def requestStep (config : Config) (s : System) (id : Nat) (request : Request) (outcome : Outcome) : System :=
  match request.phase, outcome with
  | .cacheGet, .done =>
    match (truthy request.idempotencyKey).bind fun key =>
        s.cache.lookup (idempotencyCacheKey request.userId key) with
    | some response => s.become id request (.returned response true)
    | none => s.become id request .limit
  | .limit, .done =>
    match checkLimit config s request.userId request.dto with
    | .ok _ => s.become id request .wallet
    | .error _ => s.become id request .gone
  | .wallet, .found walletId => s.become id request (.insert walletId)
  | .insert walletId, .done =>
    if conflicts s request then
      -- A lost race is replayed only for a key that counts as given.
      s.become id request (if (truthy request.idempotencyKey).isSome then .replayFind else .gone)
    else
      { s with
        settlements := s.settlements.insert s.nextId (.created (newRow s request walletId))
        nextId := s.nextId + 1 }.become id request (.enqueue ⟨s.nextId, .pending⟩)
  | .enqueue response, .done =>
    (enqueueJob s response.txId request).become id request
      (if (truthy request.idempotencyKey).isSome then .cacheSet response false else .returned response false)
  | .replayFind, .done =>
    match (truthy request.idempotencyKey).bind (s.findByKey request.userId) with
    | some (txId, row) => s.become id request (.replayEnqueue ⟨txId, row.status⟩)
    | none => s.become id request .gone
  | .replayEnqueue response, .done =>
    (enqueueJob s response.txId request).become id request (.cacheSet response true)
  | .cacheSet response replay, .done =>
    match truthy request.idempotencyKey with
    | some key =>
      { s with cache := s.cache.insert (idempotencyCacheKey request.userId key) response }.become id request
        (.returned response replay)
    | none => s.become id request (.returned response replay)
  | .returned _ _, _ => s
  | _, _ => s.become id request .gone

/-- An event at one row, if there is such a row. -/
def System.settle (s : System) (txId : Nat) (event : Settlement.Event) : System :=
  match s.settlements.lookup txId with
  | some settlement =>
    { s with settlements := s.settlements.insert txId (Settlement.step settlement event) }
  | none => s

/-- One event of the pipeline. A queued job can be delivered any number of times:
retries, stalled redeliveries and replays of the dead-letter queue carry its data. -/
inductive Event where
  | send (id : Nat) (userId : UserId) (dto : SendDto) (idempotencyKey : Option String)
  | proceed (id : Nat) (outcome : Outcome)
  | crash (id : Nat)
  | evict (cacheKey : String)
  | deliver (id : JobId) (worker : Nat)
  | settle (txId : Nat) (event : Settlement.Event)
  | newDay
  deriving DecidableEq

def step (config : Config) (s : System) : Event → System
  | .send id userId dto idempotencyKey =>
    match s.requests.lookup id with
    | none =>
      let first := if (truthy idempotencyKey).isSome then .cacheGet else .limit
      { s with requests := s.requests.insert id ⟨userId, dto, idempotencyKey, first⟩ }
    | some _ => s
  | .proceed id outcome =>
    match s.requests.lookup id with
    | some request => requestStep config s id request outcome
    | none => s
  | .crash id =>
    match s.requests.lookup id with
    | some ⟨_, _, _, .returned _ _⟩ | none => s
    | some request => s.become id request .gone
  | .evict cacheKey => { s with cache := s.cache.erase cacheKey }
  | .deliver id worker =>
    match s.jobs.find? fun job => job.id = id with
    | some job => s.settle job.data.txId (.deliver worker job.data)
    | none => s
  | .settle _ (.deliver _ _) => s
  | .settle txId event => s.settle txId event
  | .newDay => { s with day := s.day + 1 }

end AfroPay.Transfer
