import AfroPay.OfflineQueueSafety
import AfroPay.Transfers

/-! What becomes of a queued draft at the send endpoint: the request that `drainQueue`
makes for it, the client's interceptors, the endpoint's guards and checks, and what the
drain makes of the answer. The endpoint asks for an `Idempotency-Key` header and nothing
on the client's side sets one. -/
namespace AfroPay.SendContract
open KeyedStore OfflineQueue Runs ScriptText
open Transfer (UserId SendDto Response)

/-- A request as the API sees it, with header names in lower case. -/
structure HttpRequest where
  headers : Store String String
  body : Payload

/-- An error response, with the `code` and `message` of its body. -/
structure HttpError where
  status : Nat
  code : Option String
  message : Option Message
  deriving DecidableEq

/-- A `BadRequestException` with a text. -/
def badRequest (message : String) : HttpError := ⟨400, none, some (.text message)⟩

def isHex (c : Char) : Bool :=
  c.isDigit || ('a' ≤ c && c ≤ 'f') || ('A' ≤ c && c ≤ 'F')

/-- `IDEMPOTENCY_KEY_PATTERN`: hex digits in groups of 8, 4, 4, 4 and 12. -/
def isUuid (key : String) : Bool :=
  let groups := key.toList.splitOn '-'
  groups.map List.length = [8, 4, 4, 4, 12] && groups.all fun group => group.all isHex

def normalizeIdempotencyKey (raw : Option String) : Except HttpError String :=
  match raw with
  | none => .error (badRequest "Idempotency-Key header is required")
  | some raw =>
    let key := String.ofList (trim raw.toList)
    if key = "" then .error (badRequest "Idempotency-Key header is required")
    else if isUuid key then .ok key
    else .error (badRequest "Idempotency-Key header must be a valid UUID")

example : (normalizeIdempotencyKey (some " 11111111-2222-4333-8444-555555555555 ")).toOption =
    some "11111111-2222-4333-8444-555555555555" := by decide +kernel

/-- The validation of the body. Its fields are strings, so only an empty one can fail. -/
def validateSendDto (body : Payload) : Except HttpError SendDto :=
  let required := [("destinationPublicKey", body.destinationPublicKey), ("amount", body.amount),
    ("assetCode", body.assetCode)]
  match required.filter fun field => field.2 = "" with
  | [] => .ok ⟨body.destinationPublicKey, body.amount, body.assetCode, body.assetIssuer, body.memo⟩
  | empty => .error ⟨400, none, some (.list (empty.map fun field => field.1 ++ " should not be empty"))⟩

/-- The checks of a request's shape: its body, then its key. -/
def checkShape (request : HttpRequest) : Except HttpError (SendDto × String) := do
  let dto ← validateSendDto request.body
  let key ← normalizeIdempotencyKey (request.headers.lookup "idempotency-key")
  return (dto, key)

/-- What the token strategy makes of the `Authorization` header. -/
inductive Jwt
  | valid (userId : UserId)
  | expired
  | invalid
  deriving DecidableEq

structure TokenPair where
  accessToken : Option String
  refreshToken : Option String

/-- The parts of the API around the endpoint: the rate limit, the token strategy, the KYC
guard, the service, and the refresh of a session. -/
structure Server where
  rateLimit : HttpRequest → Option HttpError
  jwt : Option String → Jwt
  kyc : UserId → Payload → Option HttpError
  sendPayment : UserId → SendDto → String → Except HttpError Response
  refresh : String → Except HttpError TokenPair

/-- `JwtAuthGuard`. -/
def jwtAuthGuard (server : Server) (request : HttpRequest) : Except HttpError UserId :=
  match server.jwt (request.headers.lookup "authorization") with
  | .valid userId => .ok userId
  | .expired => .error ⟨401, some "AUTH_TOKEN_EXPIRED",
      some (.text "Access token expired. Refresh the session or sign in again.")⟩
  | .invalid => .error ⟨401, some "AUTH_TOKEN_INVALID", some (.text "Access token is invalid or missing.")⟩

/-- A guard that answers with an error ends the request. -/
def allow (error : Option HttpError) : Except HttpError Unit :=
  match error with
  | some error => .error error
  | none => .ok ()

/-- `POST /transactions/send`: the guards, the checks and `sendPayment`. -/
def sendPayment (server : Server) (request : HttpRequest) : Except HttpError Response := do
  allow (server.rateLimit request)
  let userId ← jwtAuthGuard server request
  allow (server.kyc userId request.body)
  let (dto, key) ← checkShape request
  server.sendPayment userId dto key

/-- The tokens in the browser's storage. -/
structure Session where
  token : Option String
  refreshToken : Option String

/-- The headers that axios and the browser give a request by themselves. -/
structure Client where
  headers : Store String String
  unkeyed : headers.lookup "idempotency-key" = none

/-- The request interceptor. -/
def authorize (session : Session) (headers : Store String String) : Store String String :=
  match truthy session.token with
  | some token => headers.insert "authorization" ("Bearer " ++ token)
  | none => headers

def storeSessionTokens (session : Session) (tokens : TokenPair) : Session :=
  ⟨(truthy tokens.accessToken).or session.token, (truthy tokens.refreshToken).or session.refreshToken⟩

/-- The request that `drainQueue` makes for a draft, as it leaves the request interceptor. -/
def drainRequest (client : Client) (session : Session) (draft : Draft) : HttpRequest :=
  ⟨authorize session client.headers, draft.payload⟩

/-- `api.post` with the response interceptor: a request refused for an expired token is
sent once more when the session can be refreshed. -/
def post (client : Client) (server : Server) (session : Session) (draft : Draft) :
    Session × Except HttpError Response :=
  let originalRequest := drainRequest client session draft
  match sendPayment server originalRequest with
  | .ok response => (session, .ok response)
  | .error error =>
    match truthy session.refreshToken with
    | some refreshToken =>
      if error.status = 401 ∧ error.code = some "AUTH_TOKEN_EXPIRED" then
        match server.refresh refreshToken with
        | .ok tokens =>
          let session := storeSessionTokens session tokens
          let bearer := "Bearer " ++ tokens.accessToken.getD "undefined"
          let headers := originalRequest.headers.insert "authorization" bearer
          (session, sendPayment server { originalRequest with headers := authorize session headers })
        | .error _ => (⟨none, none⟩, .error error)
      else (session, .error error)
    | none => (session, .error error)

/-- Where a drain stands, with what it has told `markDraftFailed`. -/
structure Drain where
  queue : Queue
  session : Session
  completed : Nat
  failed : Nat
  marked : List (Nat × Message)

/-- One round of the loop of `drainQueue`, online. -/
def drainDraft (client : Client) (server : Server) (now : Nat) (drain : Drain) (entry : Nat × Draft) : Drain :=
  let (id, draft) := entry
  if id = 0 then drain
  else
    let queue := claimDraft drain.queue now id
    match post client server drain.session draft with
    | (session, .ok _) =>
      { drain with queue := removeDraft queue id, session, completed := drain.completed + 1 }
    | (session, .error error) =>
      match afterError id (some (error.status, error.message)) [] with
      | .markFailed _ message _ =>
        { drain with
          queue := markDraftFailed queue id message, session, failed := drain.failed + 1
          marked := drain.marked ++ [(id, message)] }
      | .requeue _ message _ => { drain with queue := requeueDraft queue id message, session }
      | _ => drain

/-- `drainQueue` in a browser that is online, with no other tab at work. -/
def drainQueue (client : Client) (server : Server) (session : Session) (now : Nat) (queue : Queue) : Drain :=
  let released := releaseExpiredLocks queue now
  let pending := (getQueuedDrafts released).filter fun entry => entry.2.status = .pending
  pending.foldl (drainDraft client server now) ⟨released, session, 0, 0, []⟩

/-- A request without a key fails the checks, whatever its body. -/
theorem checkShape_unkeyed {request : HttpRequest} (unkeyed : request.headers.lookup "idempotency-key" = none) :
    ∃ message, checkShape request = .error ⟨400, none, some message⟩ := by
  unfold checkShape
  cases valid : validateSendDto request.body with
  | error error =>
    simp only [validateSendDto] at valid
    split at valid
    · cases valid
    · cases valid
      exact ⟨_, rfl⟩
  | ok dto =>
    rw [unkeyed]
    exact ⟨_, rfl⟩

/-- The interceptors touch no header but the authorization. -/
theorem authorize_unkeyed (session : Session) {headers : Store String String}
    (unkeyed : headers.lookup "idempotency-key" = none) :
    (authorize session headers).lookup "idempotency-key" = none := by
  unfold authorize
  split
  · rwa [AList.lookup_insert_ne (by decide)]
  · exact unkeyed

/-- The guards let every send through, and the service accepts it. -/
structure Accepts (server : Server) : Prop where
  rateLimit : ∀ request, server.rateLimit request = none
  kyc : ∀ userId body, server.kyc userId body = none
  service : ∀ userId dto key, ∃ response, server.sendPayment userId dto key = .ok response

/-- The session's token is good. -/
def Valid (client : Client) (server : Server) (session : Session) : Prop :=
  ∃ userId, server.jwt ((authorize session client.headers).lookup "authorization") = .valid userId

/-- The session's token is good, or it has expired and can be refreshed to a good one. -/
def SignedIn (client : Client) (server : Server) (session : Session) : Prop :=
  Valid client server session ∨
    server.jwt ((authorize session client.headers).lookup "authorization") = .expired ∧
      ∃ refreshToken tokens token, truthy session.refreshToken = some refreshToken ∧
        server.refresh refreshToken = .ok tokens ∧ truthy tokens.accessToken = some token ∧
        Valid client server (storeSessionTokens session tokens)

theorem sendPayment_unkeyed {server : Server} (accepts : Accepts server) {request : HttpRequest} {userId : UserId}
    (valid : server.jwt (request.headers.lookup "authorization") = .valid userId)
    (unkeyed : request.headers.lookup "idempotency-key" = none) :
    ∃ message, sendPayment server request = .error ⟨400, none, some message⟩ := by
  obtain ⟨message, fails⟩ := checkShape_unkeyed unkeyed
  refine ⟨message, ?_⟩
  simp only [sendPayment, accepts.rateLimit, accepts.kyc, jwtAuthGuard, valid, fails, allow]
  rfl

theorem sendPayment_expired {server : Server} (accepts : Accepts server) {request : HttpRequest}
    (expired : server.jwt (request.headers.lookup "authorization") = .expired) :
    ∃ message, sendPayment server request = .error ⟨401, some "AUTH_TOKEN_EXPIRED", some message⟩ := by
  simp only [sendPayment, accepts.rateLimit, jwtAuthGuard, expired, allow]
  exact ⟨_, rfl⟩

/-- Once refreshed, the session's own token is what is sent. -/
theorem authorize_again {session : Session} {tokens : TokenPair} {token bearer : String}
    (fresh : truthy tokens.accessToken = some token) (headers : Store String String) :
    (authorize (storeSessionTokens session tokens) ((authorize session headers).insert "authorization" bearer)).lookup
      "authorization" = (authorize (storeSessionTokens session tokens) headers).lookup "authorization" := by
  have stored : truthy (storeSessionTokens session tokens).token = some token := by
    simp only [storeSessionTokens, fresh, Option.or]
    exact truthy_some.mpr ⟨rfl, (truthy_some.mp fresh).2⟩
  simp only [authorize, stored, AList.lookup_insert]

/-- Every `post` of a signed-in session ends with status 400, and leaves it signed in. -/
theorem post_refused {client : Client} {server : Server} {session : Session} (accepts : Accepts server)
    (signedIn : SignedIn client server session) (draft : Draft) :
    ∃ after message, post client server session draft = (after, .error ⟨400, none, some message⟩) ∧
      SignedIn client server after := by
  have unkeyed := authorize_unkeyed session client.unkeyed
  rcases signedIn with ⟨userId, valid⟩ | ⟨expired, refreshToken, tokens, token, held, refreshed, fresh, later⟩
  · have refused : ∃ message, sendPayment server (drainRequest client session draft) =
        .error ⟨400, none, some message⟩ := sendPayment_unkeyed accepts valid unkeyed
    obtain ⟨message, fails⟩ := refused
    refine ⟨session, message, ?_, .inl ⟨userId, valid⟩⟩
    simp only [post, fails]
    split <;> simp
  · have refused : ∃ message, sendPayment server (drainRequest client session draft) =
        .error ⟨401, some "AUTH_TOKEN_EXPIRED", some message⟩ := sendPayment_expired accepts expired
    obtain ⟨message, fails⟩ := refused
    obtain ⟨userId, valid⟩ := later
    have again : ∃ message, sendPayment server
        { drainRequest client session draft with
          headers := authorize (storeSessionTokens session tokens)
            ((authorize session client.headers).insert "authorization"
              ("Bearer " ++ tokens.accessToken.getD "undefined")) } = .error ⟨400, none, some message⟩ := by
      refine sendPayment_unkeyed accepts ((congrArg server.jwt (authorize_again fresh client.headers)).trans valid) ?_
      refine authorize_unkeyed _ ?_
      rwa [AList.lookup_insert_ne (by decide)]
    obtain ⟨message', fails'⟩ := again
    refine ⟨storeSessionTokens session tokens, message', ?_, .inl ⟨userId, valid⟩⟩
    simp only [post, fails, held, refreshed, and_self, if_true]
    exact congrArg (Prod.mk _) fails'

/-- The loop passes over a record without an id. -/
theorem drainDraft_zero (client : Client) (server : Server) (now : Nat) (drain : Drain) (draft : Draft) :
    drainDraft client server now drain (0, draft) = drain := rfl

/-- Each round of a signed-in drain marks its draft as failed. -/
theorem drainDraft_marks {client : Client} {server : Server} {drain : Drain} {id : Nat} (accepts : Accepts server)
    (signedIn : SignedIn client server drain.session) (given : id ≠ 0) (now : Nat) (draft : Draft) :
    ∃ message, (drainDraft client server now drain (id, draft)).marked = drain.marked ++ [(id, message)] ∧
      SignedIn client server (drainDraft client server now drain (id, draft)).session := by
  obtain ⟨after, message, refused, later⟩ := post_refused accepts signedIn draft
  refine ⟨message, ?_⟩
  simp only [drainDraft, if_neg given, refused, afterError]
  exact ⟨rfl, later⟩

/-- A signed-in drain marks every draft of its snapshot as failed. -/
theorem drain_marks {client : Client} {server : Server} {now : Nat} (accepts : Accepts server)
    (entries : List (Nat × Draft)) (drain : Drain) (signedIn : SignedIn client server drain.session) :
    (∀ mark ∈ drain.marked, mark ∈ (entries.foldl (drainDraft client server now) drain).marked) ∧
      ∀ entry ∈ entries, entry.1 ≠ 0 →
        ∃ message, (entry.1, message) ∈ (entries.foldl (drainDraft client server now) drain).marked := by
  induction entries generalizing drain with
  | nil => exact ⟨fun mark member => member, fun entry member => absurd member List.not_mem_nil⟩
  | cons entry rest ih =>
    obtain ⟨id, draft⟩ := entry
    rw [List.foldl_cons]
    by_cases given : id = 0
    · subst given
      rw [drainDraft_zero]
      obtain ⟨kept, marked⟩ := ih drain signedIn
      refine ⟨kept, fun entry member nonzero => ?_⟩
      rcases List.mem_cons.mp member with rfl | later
      · exact absurd rfl nonzero
      · exact marked entry later nonzero
    · obtain ⟨message, marks, later⟩ := drainDraft_marks accepts signedIn given now draft
      obtain ⟨kept, marked⟩ := ih _ later
      refine ⟨fun mark member => kept mark (by simp [marks, member]), fun entry member nonzero => ?_⟩
      rcases List.mem_cons.mp member with rfl | later
      · exact ⟨message, kept _ (by simp [marks])⟩
      · exact marked entry later nonzero

theorem mem_getQueuedDrafts {queue : Queue} {id : Nat} {draft : Draft} :
    (id, draft) ∈ getQueuedDrafts queue ↔ queue.drafts.lookup id = some draft := by
  simp only [getQueuedDrafts, List.mem_insertionSort, List.mem_map, Prod.mk.injEq]
  constructor
  · rintro ⟨entry, member, rfl, rfl⟩
    exact AList.mem_lookup_iff.mpr member
  · intro found
    exact ⟨⟨id, draft⟩, AList.mem_lookup_iff.mp found, rfl, rfl⟩

/-- What the tab is told of a `post`. -/
def verdict : Except HttpError Response → Verdict
  | .ok _ => .accepted
  | .error error => .refused error.status error.code error.message

/-- A step of this tab, or an answer of the server. -/
def ofDrain (tab : Nat) : Event → Bool
  | .drain other | .proceed other => other = tab
  | .serve _ _ => true
  | _ => false

/-- A tab claims its draft, sends the request, and the server answers. -/
def asks (tab number : Nat) (answer : Verdict) : List Event := [.proceed tab, .proceed tab, .serve number answer]

theorem asks_run {s : State} {tab id : Nat} {draft : Draft} {rest : List (Nat × Draft)} (answer : Verdict)
    (turn : s.tabs.lookup tab = some (.claim id draft rest)) :
    ∃ asked : State, run step s (asks tab s.nextRequest answer) = asked ∧ asked.queue = s.queue ∧
      asked.now = s.now ∧ asked.tabs.lookup tab = some (.posting id draft s.nextRequest false rest) ∧
      asked.requests.lookup s.nextRequest = some ⟨id, draft.payload, .served answer⟩ := by
  refine ⟨_, rfl, ?_⟩
  simp [Runs.run, asks, step, turn, proceed, State.enter, State.post, State.deliver]

/-- The tab takes the answer and does with the draft what it calls for. -/
theorem answers_run {s : State} {tab id number : Nat} {draft : Draft} {rest : List (Nat × Draft)} {request : Request}
    {answer : Verdict} (turn : s.tabs.lookup tab = some (.posting id draft number false rest))
    (found : s.requests.lookup number = some request) (served : request.delivery = .served answer) :
    ∃ after : State, run step s [.proceed tab, .proceed tab] = after ∧
      after.tabs.lookup tab = nextDraft rest ∧ after.now = s.now ∧
      after.queue = match answer with
        | .accepted => removeDraft s.queue id
        | .refused _ _ _ => s.queue := by
  refine ⟨_, rfl, ?_⟩
  rw [run_cons, run_cons, run_nil, step_proceed turn]
  cases answer with
  | accepted =>
    have first : proceed s tab (.posting id draft number false rest) = s.enter tab (some (.remove id rest)) := by
      simp only [proceed, found, served, Option.map_some]
    rw [first, step_proceed (enter_tab s tab _)]
    simp [proceed, enter_tab]
  | refused status code message =>
    have first : proceed s tab (.posting id draft number false rest) =
        s.enter tab (some (afterError id (some (status, message)) rest)) := by
      simp only [proceed, found, served, Option.map_some]
    rw [first, step_proceed (enter_tab s tab _)]
    obtain ⟨error, same⟩ | ⟨error, same⟩ := afterError_cases id (some (status, message)) rest
    · simp [same, proceed, enter_tab]
    · simp [same, proceed, enter_tab]

/-- One round of the loop is a run of the tab alone. -/
theorem drainDraft_is_run (client : Client) (server : Server) {drain : Drain} {s : State} {tab id : Nat}
    {draft : Draft} {rest : List (Nat × Draft)} (turn : s.tabs.lookup tab = some (.claim id draft rest))
    (given : id ≠ 0) (same : s.queue = drain.queue) :
    ∃ events, (∀ event ∈ events, ofDrain tab event) ∧
      (run step s events).queue = (drainDraft client server s.now drain (id, draft)).queue ∧
      (run step s events).tabs.lookup tab = nextDraft rest ∧ (run step s events).now = s.now := by
  obtain ⟨asked, reached, queue, now, waits, found⟩ := asks_run (verdict (post client server drain.session draft).2) turn
  obtain ⟨after, reached', next, now', queue'⟩ := answers_run waits found rfl
  refine ⟨asks tab s.nextRequest (verdict (post client server drain.session draft).2) ++
    [.proceed tab, .proceed tab], by simp [asks, ofDrain], ?_⟩
  rw [run_append, reached, reached', next, now', now, queue', queue, same]
  refine ⟨?_, rfl, rfl⟩
  simp only [drainDraft, if_neg given]
  obtain ⟨session, outcome⟩ := post client server drain.session draft
  cases outcome with
  | ok response => rfl
  | error error =>
    obtain ⟨message, handled⟩ | ⟨message, handled⟩ := afterError_cases id (some (error.status, error.message)) []
    · simp [verdict, handled]
    · simp [verdict, handled]

/-- The loop is a run of the tab alone, up to its end. -/
theorem drain_is_run (client : Client) (server : Server) {tab : Nat} (entries : List (Nat × Draft)) (drain : Drain)
    (s : State) (turn : s.tabs.lookup tab = nextDraft entries) (same : s.queue = drain.queue) :
    ∃ events, (∀ event ∈ events, ofDrain tab event) ∧
      (run step s events).queue = (entries.foldl (drainDraft client server s.now) drain).queue ∧
      (run step s events).tabs.lookup tab = none := by
  induction entries generalizing drain s with
  | nil => exact ⟨[], by simp, same, turn⟩
  | cons entry rest ih =>
    obtain ⟨id, draft⟩ := entry
    rw [List.foldl_cons]
    by_cases given : id = 0
    · subst given
      rw [drainDraft_zero]
      exact ih drain s turn same
    · rw [nextDraft, if_neg given] at turn
      obtain ⟨first, own, queue, next, now⟩ := drainDraft_is_run client server turn given same
      obtain ⟨later, own', drained, ended⟩ := ih _ (run step s first) next queue
      rw [now] at drained
      refine ⟨first ++ later, ?_, by rw [run_append, drained], by rw [run_append, ended]⟩
      intro event member
      rcases List.mem_append.mp member with early | late
      · exact own event early
      · exact own' event late

/-- `drainQueue` by itself is one of the runs of the tabs: one in which its tab alone is at
work and the server answers every request. -/
theorem drainQueue_is_run (client : Client) (server : Server) (session : Session) (s : State) {tab : Nat}
    (idle : s.tabs.lookup tab = none) :
    ∃ events, (∀ event ∈ events, ofDrain tab event) ∧
      (run step s events).queue = (drainQueue client server session s.now s.queue).queue ∧
      (run step s events).tabs.lookup tab = none := by
  let released := releaseExpiredLocks s.queue s.now
  let pending := (getQueuedDrafts released).filter fun entry => entry.2.status = .pending
  -- the drain begins, releases the locks and reads the queue
  have begun : ∃ begun : State, run step s [.drain tab, .proceed tab, .proceed tab] = begun ∧
      begun.queue = released ∧ begun.now = s.now ∧ begun.tabs.lookup tab = nextDraft pending := by
    refine ⟨_, rfl, ?_⟩
    have drains : step s (.drain tab) = s.enter tab (some .release) := by simp only [step, idle]
    rw [run_cons, run_cons, run_cons, run_nil, drains, step_proceed (enter_tab s tab _)]
    simp only [proceed, enter_queue, enter_now]
    rw [step_proceed (enter_tab _ tab _)]
    simp [proceed, enter_tab, released, pending]
  obtain ⟨begun, reached, queue, now, turn⟩ := begun
  obtain ⟨events, own, drained, ended⟩ :=
    drain_is_run client server pending ⟨released, session, 0, 0, []⟩ begun turn queue
  rw [now] at drained
  refine ⟨[.drain tab, .proceed tab, .proceed tab] ++ events, ?_, by rw [run_append, reached, drained]; rfl,
    by rw [run_append, reached, ended]⟩
  intro event member
  rcases List.mem_append.mp member with early | late
  · have mine : event = .drain tab ∨ event = .proceed tab := by simpa using early
    rcases mine with rfl | rfl <;> simp [ofDrain]
  · exact own event late

/-- The draft's request passes the checks of its shape. -/
def PassesChecks (client : Client) (session : Session) (draft : Draft) : Prop :=
  ∃ checked, checkShape (drainRequest client session draft) = .ok checked

/-- A drain of the queue hands the draft to `markDraftFailed`. -/
def MarksFailed (client : Client) (server : Server) (session : Session) (now : Nat) (queue : Queue) (id : Nat) :
    Prop :=
  ∃ message, (id, message) ∈ (drainQueue client server session now queue).marked

/-- The contract between a queued draft and the endpoint: its request passes the checks,
and a drain does not mark it as failed while the server would accept it. -/
def MeetsContract (client : Client) (queue : Queue) (id : Nat) (draft : Draft) : Prop :=
  (∀ session, PassesChecks client session draft) ∧
  ∀ server session now, Accepts server → SignedIn client server session →
    ¬ MarksFailed client server session now queue id

theorem not_passesChecks (client : Client) (session : Session) (draft : Draft) :
    ¬ PassesChecks client session draft := by
  rintro ⟨checked, passes⟩
  have refused : ∃ message, checkShape (drainRequest client session draft) = .error ⟨400, none, some message⟩ :=
    checkShape_unkeyed (authorize_unkeyed session client.unkeyed)
  obtain ⟨message, fails⟩ := refused
  cases fails.symm.trans passes

/-- For every draft that the queue ever holds, in every session, the request fails the
checks, and every drain against a server that would accept the transfer marks the draft
as failed. -/
theorem contract_never_met (client : Client) (events : List Event) (id : Nat) (draft : Draft)
    (queued : (run step State.empty events).queue.drafts.lookup id = some draft) :
    (∀ session, ¬ PassesChecks client session draft) ∧
    (∀ server session now, Accepts server → SignedIn client server session →
      MarksFailed client server session now (run step State.empty events).queue id) ∧
    ¬ MeetsContract client (run step State.empty events).queue id draft := by
  refine ⟨fun session => not_passesChecks client session draft, ?_, ?_⟩
  · intro server session now accepts signedIn
    have pending := drafts_stay_pending events id draft queued
    have member : (id, draft) ∈ (getQueuedDrafts (releaseExpiredLocks
        (run step State.empty events).queue now)).filter fun entry => entry.2.status = .pending := by
      refine List.mem_filter.mpr ⟨mem_getQueuedDrafts.mpr ?_, by simp [pending]⟩
      exact releaseExpiredLocks_lookup.mpr ⟨draft, queued, released_pending pending now⟩
    exact (drain_marks accepts _ _ signedIn).2 (id, draft) member
      ((run step State.empty events).queue.issued id draft queued).1.ne'
  · intro meets
    exact not_passesChecks client ⟨none, none⟩ draft (meets.1 ⟨none, none⟩)

/-- A server that knows one token and accepts every send. -/
def oneUser : Server where
  rateLimit _ := none
  jwt header := if header = some "Bearer t1" then .valid ⟨"u1", Transfer.u1_colonFree⟩ else .invalid
  kyc _ _ := none
  sendPayment _ _ _ := .ok ⟨0, .pending⟩
  refresh _ := .error ⟨401, none, none⟩

def plainClient : Client := ⟨(∅ : Store String String).insert "content-type" "application/json", by decide⟩

def draftQueued : List Event := [.enqueue ⟨"GDEST", "25", "XLM", none, none⟩]

theorem accepted_draft_marked_failed :
    Accepts oneUser ∧ SignedIn plainClient oneUser ⟨some "t1", none⟩ ∧
      MarksFailed plainClient oneUser ⟨some "t1", none⟩ 0 (run step State.empty draftQueued).queue 1 := by
  have accepts : Accepts oneUser := ⟨fun _ => rfl, fun _ _ => rfl, fun _ _ _ => ⟨_, rfl⟩⟩
  have signedIn : SignedIn plainClient oneUser ⟨some "t1", none⟩ := .inl ⟨⟨"u1", Transfer.u1_colonFree⟩, by decide +kernel⟩
  exact ⟨accepts, signedIn, (contract_never_met plainClient draftQueued 1
    ⟨⟨"GDEST", "25", "XLM", none, none⟩, 0, .pending, none, none, 0⟩ rfl).2.1 oneUser _ 0 accepts signedIn⟩

/-- The one draft of a fresh queue is sent without a key and refused. -/
theorem draft_sent_without_key : ¬ ∀ (client : Client) (events : List Event) (id : Nat) (draft : Draft),
    (run step State.empty events).queue.drafts.lookup id = some draft →
      MeetsContract client (run step State.empty events).queue id draft := by
  intro holds
  have meets := holds plainClient draftQueued 1 ⟨⟨"GDEST", "25", "XLM", none, none⟩, 0, .pending, none, none, 0⟩ rfl
  obtain ⟨checked, passes⟩ := meets.1 ⟨some "t1", none⟩
  cases passes

end AfroPay.SendContract
