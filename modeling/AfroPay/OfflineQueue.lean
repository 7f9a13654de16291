import AfroPay.KeyedStore
import AfroPay.Runs
import Mathlib.Data.List.Sort

/-! The web client's queue of transfers entered offline. The drafts lie in the browser's
database, which all tabs share, and each tab runs `drainQueue` over it. Every operation on
the database is one step; between two of them other tabs, the server, the user and the
clock may move. -/
namespace AfroPay.OfflineQueue
open KeyedStore Runs

inductive Status
  | pending
  | syncing
  | failed
  deriving DecidableEq

/-- The `message` of an error response: a text, or the list that a failed validation gives. -/
inductive Message
  | text (message : String)
  | list (messages : List String)
  deriving DecidableEq

/-- What the user has entered. -/
structure Payload where
  destinationPublicKey : String
  amount : String
  assetCode : String
  assetIssuer : Option String
  memo : Option String
  deriving DecidableEq

/-- `OfflineTransactionDraft`, with times in milliseconds. -/
structure Draft where
  payload : Payload
  createdAt : Nat
  status : Status
  lockExpiresAt : Option Nat
  lastError : Option Message
  attemptCount : Nat
  deriving DecidableEq

/-- The object store. Its ids count up from one and are never given twice. -/
structure Queue where
  drafts : Store Nat Draft
  nextId : Nat
  started : 0 < nextId
  issued : ∀ id draft, drafts.lookup id = some draft → 0 < id ∧ id < nextId

def Queue.empty : Queue := ⟨∅, 1, Nat.one_pos, by simp⟩

/-- A request on the object store: what it does there, and what its handler does in the
same transaction once it has succeeded. -/
structure StoreRequest where
  operation : Queue → Queue
  onsuccess : Queue → Queue := fun queue => queue

/-- `withStore` sets `onsuccess` itself to learn of the result. A request has only one such
handler, so the one that the request came with does not run. -/
def withStore (queue : Queue) (fn : StoreRequest) : Queue :=
  let request := { fn with onsuccess := fun queue => queue }
  request.onsuccess (request.operation queue)

def Queue.add (queue : Queue) (record : Draft) : Queue where
  drafts := queue.drafts.insert queue.nextId record
  nextId := queue.nextId + 1
  started := Nat.succ_pos _
  issued := by
    intro id draft found
    obtain ⟨rfl, -⟩ | ⟨-, old⟩ := lookup_insert_some.mp found
    · exact ⟨queue.started, Nat.lt_succ_self _⟩
    · exact ⟨(queue.issued id draft old).1, Nat.lt_succ_of_lt (queue.issued id draft old).2⟩

def Queue.delete (queue : Queue) (id : Nat) : Queue where
  drafts := queue.drafts.erase id
  nextId := queue.nextId
  started := queue.started
  issued := fun other draft found => queue.issued other draft (lookup_erase_some found)

/-- A record that `get` has found is changed and put back. -/
def Queue.amend (queue : Queue) (id : Nat) (change : Draft → Draft) : Queue where
  drafts := match queue.drafts.lookup id with
    | some draft => queue.drafts.insert id (change draft)
    | none => queue.drafts
  nextId := queue.nextId
  started := queue.started
  issued := by
    intro other draft found
    split at found
    · rename_i held present
      obtain ⟨rfl, -⟩ | ⟨-, old⟩ := lookup_insert_some.mp found
      · exact queue.issued other held present
      · exact queue.issued other draft old
    · exact queue.issued other draft found

def enqueueDraft (queue : Queue) (now : Nat) (payload : Payload) : Queue :=
  withStore queue { operation := fun store => store.add ⟨payload, now, .pending, none, none, 0⟩ }

/-- `getAll` reads in the order of the ids, and the sort by `createdAt` is stable. -/
def getQueuedDrafts (queue : Queue) : List (Nat × Draft) :=
  let all := (queue.drafts.entries.map fun entry => (entry.1, entry.2)).insertionSort fun a b => a.1 ≤ b.1
  all.insertionSort fun a b => a.2.createdAt ≤ b.2.createdAt

/-- The lock that `drainQueue` asks for, in milliseconds. -/
def lockMs : Nat := 60000

def claimDraft (queue : Queue) (now id : Nat) : Queue :=
  withStore queue
    { operation := fun store => store
      onsuccess := fun store => store.amend id fun draft =>
        { draft with status := .syncing, lockExpiresAt := some (now + lockMs) } }

/-- What `releaseExpiredLocks` does to one record. -/
def Draft.released (draft : Draft) (now : Nat) : Draft :=
  match draft.status, draft.lockExpiresAt with
  | .syncing, some expiry =>
    if expiry < now then { draft with status := .pending, lockExpiresAt := none } else draft
  | _, _ => draft

-- this one does not go through `withStore`
def releaseExpiredLocks (queue : Queue) (now : Nat) : Queue where
  drafts := mapValues queue.drafts fun draft => draft.released now
  nextId := queue.nextId
  started := queue.started
  issued := by
    intro id draft found
    rw [lookup_mapValues, Option.map_eq_some_iff] at found
    obtain ⟨held, present, -⟩ := found
    exact queue.issued id held present

def markDraftFailed (queue : Queue) (id : Nat) (lastError : Message) : Queue :=
  withStore queue
    { operation := fun store => store
      onsuccess := fun store => store.amend id fun draft =>
        { draft with
          status := .failed, lockExpiresAt := none, lastError := some lastError
          attemptCount := draft.attemptCount + 1 } }

def requeueDraft (queue : Queue) (id : Nat) (lastError : Message) : Queue :=
  withStore queue
    { operation := fun store => store
      onsuccess := fun store => store.amend id fun draft =>
        { draft with
          status := .pending, lockExpiresAt := none, lastError := some lastError
          attemptCount := draft.attemptCount + 1 } }

def removeDraft (queue : Queue) (id : Nat) : Queue :=
  withStore queue { operation := fun store => store.delete id }

def clearQueue (queue : Queue) : Queue :=
  withStore queue { operation := fun store => ⟨∅, store.nextId, store.started, by simp⟩ }

/-- Nothing that is written in a handler gets into the store. -/
theorem withStore_eq (queue : Queue) (fn : StoreRequest) : withStore queue fn = fn.operation queue := rfl

@[simp] theorem claimDraft_eq (queue : Queue) (now id : Nat) : claimDraft queue now id = queue :=
  withStore_eq queue _

@[simp] theorem markDraftFailed_eq (queue : Queue) (id : Nat) (lastError : Message) :
    markDraftFailed queue id lastError = queue := withStore_eq queue _

@[simp] theorem requeueDraft_eq (queue : Queue) (id : Nat) (lastError : Message) :
    requeueDraft queue id lastError = queue := withStore_eq queue _

theorem removeDraft_lookup {queue : Queue} {id other : Nat} {draft : Draft} :
    (removeDraft queue id).drafts.lookup other = some draft ↔
      other ≠ id ∧ queue.drafts.lookup other = some draft := by
  change (queue.drafts.erase id).lookup other = _ ↔ _
  by_cases same : other = id
  · subst same
    simp
  · simp [AList.lookup_erase_ne same, same]

theorem enqueueDraft_lookup {queue : Queue} {now id : Nat} {payload : Payload} {draft : Draft} :
    (enqueueDraft queue now payload).drafts.lookup id = some draft ↔
      id = queue.nextId ∧ ⟨payload, now, .pending, none, none, 0⟩ = draft ∨
        id ≠ queue.nextId ∧ queue.drafts.lookup id = some draft :=
  lookup_insert_some

theorem releaseExpiredLocks_lookup {queue : Queue} {now id : Nat} {draft : Draft} :
    (releaseExpiredLocks queue now).drafts.lookup id = some draft ↔
      ∃ held, queue.drafts.lookup id = some held ∧ held.released now = draft := by
  change (mapValues queue.drafts _).lookup id = _ ↔ _
  rw [lookup_mapValues, Option.map_eq_some_iff]

/-- What the server answers: a 2xx, or an error with its status, `code` and `message`. -/
inductive Verdict
  | accepted
  | refused (status : Nat) (code : Option String) (message : Option Message)
  deriving DecidableEq

/-- Where a request is: on its way, answered by the server, or lost before it got there. -/
inductive Delivery
  | inFlight
  | served (verdict : Verdict)
  | lost
  deriving DecidableEq

/-- A `POST /transactions/send` for a draft. -/
structure Request where
  draft : Nat
  payload : Payload
  delivery : Delivery
  deriving DecidableEq

/-- The server has accepted the request or may still do so. -/
def Request.live (request : Request) : Bool :=
  match request.delivery with
  | .inFlight | .served .accepted => true
  | .served (.refused _ _ _) | .lost => false

/-- The next operation of a running `drainQueue`, with the drafts of its snapshot that
are still to come. -/
inductive Phase
  | release
  | snapshot
  | claim (id : Nat) (draft : Draft) (rest : List (Nat × Draft))
  | send (id : Nat) (draft : Draft) (rest : List (Nat × Draft))
  | posting (id : Nat) (draft : Draft) (request : Nat) (retried : Bool) (rest : List (Nat × Draft))
  | remove (id : Nat) (rest : List (Nat × Draft))
  | markFailed (id : Nat) (error : Message) (rest : List (Nat × Draft))
  | requeue (id : Nat) (error : Message) (rest : List (Nat × Draft))
  -- a drain that fails before its `try` leaves `isSyncingNow` set
  | stuck
  deriving DecidableEq

/-- The head of the loop. After the last draft the drain is over. -/
def nextDraft : List (Nat × Draft) → Option Phase
  | [] => none
  | (id, draft) :: rest => if id = 0 then nextDraft rest else some (.claim id draft rest)

/-- The loop's `catch`: a 4xx answer is final, anything else is tried again. -/
def afterError (id : Nat) (response : Option (Nat × Option Message)) (rest : List (Nat × Draft)) : Phase :=
  match response with
  | some (status, message) =>
    if 400 ≤ status ∧ status < 500 then .markFailed id (message.getD (.text ("HTTP " ++ toString status))) rest
    else .requeue id (message.getD (.text "Network error")) rest
  | none => .requeue id (.text "Network error") rest

/-- The database, the tabs in which a drain is running, the requests and the clock. -/
structure State where
  now : Nat
  queue : Queue
  tabs : Store Nat Phase
  requests : Store Nat Request
  nextRequest : Nat

def State.empty : State := ⟨0, .empty, ∅, ∅, 0⟩

inductive Event
  | enqueue (payload : Payload)
  /-- The user discards a draft. -/
  | discard (id : Nat)
  | clear
  /-- `drainQueue` is called in a tab. -/
  | drain (tab : Nat)
  /-- What the tab waits for succeeds. -/
  | proceed (tab : Nat)
  /-- What the tab waits for fails: the database, or the network. -/
  | fail (tab : Nat)
  /-- The session is refreshed and the request sent once more. -/
  | refresh (tab : Nat)
  | crash (tab : Nat)
  | serve (request : Nat) (verdict : Verdict)
  | lose (request : Nat)
  | advance (ms : Nat)
  deriving DecidableEq

def State.enter (s : State) (tab : Nat) (phase : Option Phase) : State :=
  match phase with
  | some phase => { s with tabs := s.tabs.insert tab phase }
  | none => { s with tabs := s.tabs.erase tab }

def State.post (s : State) (tab id : Nat) (draft : Draft) (retried : Bool) (rest : List (Nat × Draft)) : State :=
  { s with
    tabs := s.tabs.insert tab (.posting id draft s.nextRequest retried rest)
    requests := s.requests.insert s.nextRequest ⟨id, draft.payload, .inFlight⟩
    nextRequest := s.nextRequest + 1 }

def State.deliver (s : State) (request : Nat) (delivery : Delivery) : State :=
  match s.requests.lookup request with
  | some ⟨draft, payload, .inFlight⟩ =>
    { s with requests := s.requests.insert request ⟨draft, payload, delivery⟩ }
  | _ => s

/-- A step of a drain that goes well. -/
def proceed (s : State) (tab : Nat) : Phase → State
  | .release => { s with queue := releaseExpiredLocks s.queue s.now }.enter tab (some .snapshot)
  | .snapshot =>
    s.enter tab (nextDraft ((getQueuedDrafts s.queue).filter fun entry => entry.2.status = .pending))
  | .claim id draft rest =>
    { s with queue := claimDraft s.queue s.now id }.enter tab (some (.send id draft rest))
  | .send id draft rest => s.post tab id draft false rest
  | .posting id _ request _ rest =>
    match (s.requests.lookup request).map Request.delivery with
    | some (.served .accepted) => s.enter tab (some (.remove id rest))
    | some (.served (.refused status _ message)) => s.enter tab (some (afterError id (some (status, message)) rest))
    | _ => s
  | .remove id rest => { s with queue := removeDraft s.queue id }.enter tab (nextDraft rest)
  | .markFailed id error rest => { s with queue := markDraftFailed s.queue id error }.enter tab (nextDraft rest)
  | .requeue id error rest => { s with queue := requeueDraft s.queue id error }.enter tab (nextDraft rest)
  | .stuck => s

/-- A step of a drain that throws. Only `claimDraft` and what stands in the inner `try` are caught. -/
def fail (s : State) (tab : Nat) : Phase → State
  | .release | .snapshot | .stuck => s.enter tab (some .stuck)
  | .claim _ _ rest => s.enter tab (nextDraft rest)
  | .send id _ rest | .posting id _ _ _ rest | .remove id rest => s.enter tab (some (afterError id none rest))
  | .markFailed _ _ _ | .requeue _ _ _ => s.enter tab none

def step (s : State) : Event → State
  | .enqueue payload => { s with queue := enqueueDraft s.queue s.now payload }
  | .discard id => { s with queue := removeDraft s.queue id }
  | .clear => { s with queue := clearQueue s.queue }
  | .drain tab =>
    match s.tabs.lookup tab with
    | none => s.enter tab (some .release)
    | some _ => s
  | .proceed tab =>
    match s.tabs.lookup tab with
    | some phase => proceed s tab phase
    | none => s
  | .fail tab =>
    match s.tabs.lookup tab with
    | some phase => fail s tab phase
    | none => s
  | .refresh tab =>
    match s.tabs.lookup tab with
    | some (.posting id draft request false rest) =>
      match (s.requests.lookup request).map Request.delivery with
      | some (.served (.refused 401 (some "AUTH_TOKEN_EXPIRED") _)) => s.post tab id draft true rest
      | _ => s
    | _ => s
  | .crash tab => s.enter tab none
  | .serve request verdict => s.deliver request (.served verdict)
  | .lose request => s.deliver request .lost
  | .advance ms => { s with now := s.now + ms }

/-- How often the server has accepted a draft's transfer. -/
def State.accepted (s : State) (id : Nat) : Nat :=
  s.requests.entries.countP fun entry => entry.2.draft = id && entry.2.delivery = .served .accepted

theorem nextDraft_cases (drafts : List (Nat × Draft)) :
    nextDraft drafts = none ∨ ∃ id draft rest, nextDraft drafts = some (.claim id draft rest) := by
  induction drafts with
  | nil => exact .inl rfl
  | cons entry rest ih =>
    obtain ⟨id, draft⟩ := entry
    unfold nextDraft
    split
    · exact ih
    · exact .inr ⟨id, draft, rest, rfl⟩

theorem afterError_cases (id : Nat) (response : Option (Nat × Option Message)) (rest : List (Nat × Draft)) :
    (∃ error, afterError id response rest = .markFailed id error rest) ∨
      ∃ error, afterError id response rest = .requeue id error rest := by
  unfold afterError
  split
  · split
    · exact .inl ⟨_, rfl⟩
    · exact .inr ⟨_, rfl⟩
  · exact .inr ⟨_, rfl⟩

theorem enter_lookup {s : State} {tab other : Nat} {next : Option Phase} {phase : Phase} :
    (s.enter tab next).tabs.lookup other = some phase ↔
      other = tab ∧ next = some phase ∨ other ≠ tab ∧ s.tabs.lookup other = some phase := by
  cases next with
  | some entered =>
    refine lookup_insert_some.trans ?_
    simp
  | none =>
    change (s.tabs.erase tab).lookup other = _ ↔ _
    by_cases same : other = tab
    · subst same
      simp
    · simp [AList.lookup_erase_ne same, same]

@[simp] theorem enter_queue (s : State) (tab : Nat) (next : Option Phase) : (s.enter tab next).queue = s.queue := by
  cases next <;> rfl

@[simp] theorem enter_requests (s : State) (tab : Nat) (next : Option Phase) :
    (s.enter tab next).requests = s.requests := by
  cases next <;> rfl

@[simp] theorem enter_nextRequest (s : State) (tab : Nat) (next : Option Phase) :
    (s.enter tab next).nextRequest = s.nextRequest := by
  cases next <;> rfl

@[simp] theorem enter_now (s : State) (tab : Nat) (next : Option Phase) : (s.enter tab next).now = s.now := by
  cases next <;> rfl

theorem enter_tab (s : State) (tab : Nat) (next : Option Phase) : (s.enter tab next).tabs.lookup tab = next := by
  cases next with
  | some phase => exact AList.lookup_insert _
  | none => exact AList.lookup_erase _ _

theorem step_proceed {s : State} {tab : Nat} {phase : Phase} (turn : s.tabs.lookup tab = some phase) :
    step s (.proceed tab) = proceed s tab phase := by
  simp only [step, turn]

theorem released_pending {draft : Draft} (pending : draft.status = .pending) (now : Nat) :
    draft.released now = draft := by
  unfold Draft.released
  rw [pending]

end AfroPay.OfflineQueue
