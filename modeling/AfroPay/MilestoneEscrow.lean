import AfroPay.KeyedStore
import AfroPay.Panics
import AfroPay.Runs
import Mathlib.Algebra.Order.Ring.Int
import Mathlib.Tactic.Linarith

/-! The milestone escrow contract with its packed storage. A call returns the world it leaves, an
error of the contract, or a panic; the last two change nothing. No entry point asks for an
authorisation, so every caller is any address. -/
namespace AfroPay.MilestoneEscrow
open KeyedStore Panics Runs

variable {Address : Type} [DecidableEq Address]

inductive EscrowError where
  | invalidAmount
  | noMilestones
  | escrowNotFound
  | unauthorized
  | invalidState
  | milestonesNotApproved
  | deadlineNotPassed
  | insufficientFunds
  deriving DecidableEq

inductive Failure where
  | refused (error : EscrowError)
  | panicked (text : String)
  deriving DecidableEq

/-- State 0 is open, 1 released and 2 refunded. -/
structure OptimizedEscrow (Address : Type) where
  id : Nat
  client : Address
  agent : Address
  arbitrator : Address
  token : Address
  amount : Int
  state : Nat
  createdAt : Nat
  updatedAt : Nat
  releasedAt : Nat
  refundedAt : Nat
  milestoneCount : Nat
  deriving DecidableEq

structure OptimizedMilestone where
  index : Nat
  title : String
  amount : Int
  status : Nat
  submittedAt : Nat
  proof : String
  deriving DecidableEq

/-- What happened to an escrow, which the contract does not keep: the amount and the time it was
created with, and the deposits made since. -/
structure Book where
  created : Int
  openedAt : Nat
  deposits : List Int
  deriving DecidableEq

/-- Storage and clock, with the books of the escrows. -/
structure World (Address : Type) where
  timestamp : Nat
  escrows : Store Nat (OptimizedEscrow Address)
  milestones : Store (Nat × Nat) OptimizedMilestone
  escrowCounter : Nat
  escrowCount : Nat
  books : Store Nat Book

def World.deployed (timestamp : Nat) : World Address := ⟨timestamp, ∅, ∅, 0, 0, ∅⟩

def refuseIf (condition : Prop) [Decidable condition] (error : EscrowError) : Except Failure Unit :=
  if condition then .error (.refused error) else .ok ()

def found {α : Type} : Option α → Except Failure α
  | some value => .ok value
  | none => .error (.refused .escrowNotFound)

def checked {α : Type} : Except String α → Except Failure α
  | .ok value => .ok value
  | .error text => .error (.panicked text)

/-- The loop that stores the milestones of a new escrow, from an index on. -/
def storeMilestones (escrowId : Nat) : Nat → List (String × Int) → Store (Nat × Nat) OptimizedMilestone →
    Store (Nat × Nat) OptimizedMilestone
  | _, [], store => store
  | index, (title, amount) :: rest, store =>
    storeMilestones escrowId (index + 1) rest (store.insert (escrowId, index) ⟨index, title, amount, 0, 0, ""⟩)

def loadMilestonesBatch (w : World Address) (escrowId count : Nat) : List OptimizedMilestone :=
  (List.range count).filterMap fun index => w.milestones.lookup (escrowId, index)

def storeEscrow (w : World Address) (escrow : OptimizedEscrow Address) : World Address :=
  { w with escrows := w.escrows.insert escrow.id escrow }

/-- Returns the new escrow's id. The milestones' amounts are not compared with the escrow's. -/
def createEscrow (w : World Address) (client agent arbitrator token : Address) (amount : Int)
    (milestones : List (String × Int)) : Except Failure (World Address × Nat) := do
  refuseIf (amount ≤ 0) .invalidAmount
  refuseIf (milestones = []) .noMilestones
  let escrowId ← checked (fitU64 "attempt to add with overflow" (w.escrowCounter + 1))
  let escrow : OptimizedEscrow Address :=
    ⟨escrowId, client, agent, arbitrator, token, amount, 0, w.timestamp, w.timestamp, 0, 0, milestones.length⟩
  let escrowCount ← checked (fitU64 "attempt to add with overflow" (w.escrowCount + 1))
  pure ({ storeEscrow w escrow with
    milestones := storeMilestones escrowId 0 milestones w.milestones
    escrowCounter := escrowId
    escrowCount
    books := w.books.insert escrowId ⟨amount, w.timestamp, []⟩ }, escrowId)

/-- What `release_to_agent` and `claim_refund` ask of the escrow and its caller. -/
def loadOpen (w : World Address) (escrowId : Nat) (caller : Address) :
    Except Failure (OptimizedEscrow Address) := do
  let escrow ← found (w.escrows.lookup escrowId)
  refuseIf (escrow.client ≠ caller ∧ escrow.arbitrator ≠ caller) .unauthorized
  refuseIf (escrow.state ≠ 0) .invalidState
  pure escrow

def releaseToAgent (w : World Address) (escrowId : Nat) (caller : Address) : Except Failure (World Address) := do
  let escrow ← loadOpen w escrowId caller
  let milestones := loadMilestonesBatch w escrowId escrow.milestoneCount
  refuseIf (¬ ∀ milestone ∈ milestones, milestone.status = 2) .milestonesNotApproved
  pure (storeEscrow w { escrow with state := 1, releasedAt := w.timestamp, updatedAt := w.timestamp })

/-- Thirty days in seconds. -/
def refundDelay : Nat := 30 * 24 * 60 * 60

def claimRefund (w : World Address) (escrowId : Nat) (caller : Address) : Except Failure (World Address) := do
  let escrow ← loadOpen w escrowId caller
  let deadline ← checked (fitU64 "attempt to add with overflow" (escrow.createdAt + refundDelay))
  refuseIf (w.timestamp < deadline) .deadlineNotPassed
  pure (storeEscrow w { escrow with state := 2, refundedAt := w.timestamp, updatedAt := w.timestamp })

def recordDeposit (books : Store Nat Book) (escrowId : Nat) (amount : Int) : Store Nat Book :=
  match books.lookup escrowId with
  | some book => books.insert escrowId { book with deposits := book.deposits ++ [amount] }
  | none => books

/-- The amount's sign is not checked. -/
def depositEscrow (w : World Address) (escrowId : Nat) (caller : Address) (amount : Int) :
    Except Failure (World Address) := do
  let escrow ← found (w.escrows.lookup escrowId)
  refuseIf (escrow.client ≠ caller) .unauthorized
  refuseIf (escrow.state ≠ 0) .invalidState
  let total ← checked (fit "attempt to add with overflow" (escrow.amount + amount))
  pure { storeEscrow w { escrow with amount := total, updatedAt := w.timestamp } with
    books := recordDeposit w.books escrowId amount }

inductive Call (Address : Type) where
  | createEscrow (client agent arbitrator token : Address) (amount : Int) (milestones : List (String × Int))
  | releaseToAgent (escrowId : Nat) (caller : Address)
  | claimRefund (escrowId : Nat) (caller : Address)
  | depositEscrow (escrowId : Nat) (caller : Address) (amount : Int)

def exec (w : World Address) : Call Address → Except Failure (World Address)
  | .createEscrow client agent arbitrator token amount milestones =>
    Prod.fst <$> createEscrow w client agent arbitrator token amount milestones
  | .releaseToAgent escrowId caller => releaseToAgent w escrowId caller
  | .claimRefund escrowId caller => claimRefund w escrowId caller
  | .depositEscrow escrowId caller amount => depositEscrow w escrowId caller amount

/-- A call of anyone, or the clock moving on. -/
inductive Event (Address : Type) where
  | call (call : Call Address)
  | advance (seconds : Nat)

def step (w : World Address) : Event Address → World Address
  | .call call =>
    match exec w call with
    | .ok after => after
    | .error _ => w
  | .advance seconds => { w with timestamp := w.timestamp + seconds }

section Success
variable {α : Type}

theorem refuseIf_ok {condition : Prop} [Decidable condition] {error : EscrowError} {done : Unit} :
    refuseIf condition error = .ok done ↔ ¬ condition := by
  unfold refuseIf
  split <;> simp_all

theorem found_ok {value : α} {loaded : Option α} : found loaded = .ok value ↔ loaded = some value := by
  cases loaded <;> simp [found]

theorem checked_ok {value : α} {call : Except String α} : checked call = .ok value ↔ call = .ok value := by
  cases call <;> simp [checked]

theorem loadOpen_ok {w : World Address} {escrowId : Nat} {caller : Address} {escrow : OptimizedEscrow Address} :
    loadOpen w escrowId caller = .ok escrow ↔
      w.escrows.lookup escrowId = some escrow ∧ (escrow.client = caller ∨ escrow.arbitrator = caller) ∧
        escrow.state = 0 := by
  simp only [loadOpen, bind_ok, found_ok, refuseIf_ok, pure_ok, exists_const]
  constructor
  · rintro ⟨_, loaded, party, isOpen, rfl⟩
    exact ⟨loaded, by tauto, not_not.mp isOpen⟩
  · rintro ⟨loaded, party, isOpen⟩
    exact ⟨escrow, loaded, by tauto, not_not.mpr isOpen, rfl⟩

end Success

/-- A release or a refund: the amount stays, and what the entry point asks for holds. -/
structure Settles (w : World Address) (escrow later : OptimizedEscrow Address) : Prop where
  amount : later.amount = escrow.amount
  createdAt : later.createdAt = escrow.createdAt
  milestoneCount : later.milestoneCount = escrow.milestoneCount
  id : later.id = escrow.id
  earned : later.state = 1 ∧ (∀ milestone ∈ loadMilestonesBatch w escrow.id escrow.milestoneCount, milestone.status = 2) ∨
    later.state = 2 ∧ escrow.createdAt + refundDelay ≤ w.timestamp

/-- Everything a successful call can do. -/
inductive Effect (w : World Address) : Call Address → World Address → Prop where
  | created {client agent arbitrator token : Address} {amount : Int} {milestones : List (String × Int)}
      (escrow : OptimizedEscrow Address) (positive : 0 < amount) (id : escrow.id = w.escrowCounter + 1)
      (same : escrow.amount = amount) (isOpen : escrow.state = 0) (now : escrow.createdAt = w.timestamp)
      (count : escrow.milestoneCount = milestones.length) (escrowCount : Nat) :
      Effect w (.createEscrow client agent arbitrator token amount milestones) { w with
        escrows := w.escrows.insert (w.escrowCounter + 1) escrow
        milestones := storeMilestones (w.escrowCounter + 1) 0 milestones w.milestones
        escrowCounter := w.escrowCounter + 1
        escrowCount
        books := w.books.insert (w.escrowCounter + 1) ⟨amount, w.timestamp, []⟩ }
  | settled {call : Call Address} {escrowId : Nat} {caller : Address} {escrow : OptimizedEscrow Address}
      (called : call = .releaseToAgent escrowId caller ∨ call = .claimRefund escrowId caller)
      (later : OptimizedEscrow Address) (loaded : w.escrows.lookup escrowId = some escrow) (isOpen : escrow.state = 0)
      (settles : escrow.id = escrowId → Settles w escrow later) : Effect w call (storeEscrow w later)
  | deposited {escrowId : Nat} {caller : Address} {amount : Int} {escrow : OptimizedEscrow Address}
      (loaded : w.escrows.lookup escrowId = some escrow) (isOpen : escrow.state = 0) :
      Effect w (.depositEscrow escrowId caller amount) { storeEscrow w
          { escrow with amount := escrow.amount + amount, updatedAt := w.timestamp } with
        books := recordDeposit w.books escrowId amount }

theorem exec_effect {w after : World Address} {call : Call Address} (ok : exec w call = .ok after) :
    Effect w call after := by
  cases call with
  | createEscrow client agent arbitrator token amount milestones =>
    simp only [exec, map_fst_ok, createEscrow, bind_ok, refuseIf_ok, checked_ok, fitU64_ok, pure_ok, exists_const,
      Prod.mk.injEq] at ok
    obtain ⟨_, positive, -, _, ⟨rfl, -⟩, count, -, rfl, -⟩ := ok
    exact .created _ (not_le.mp positive) rfl rfl rfl rfl rfl count
  | releaseToAgent escrowId caller =>
    simp only [exec, releaseToAgent, bind_ok, loadOpen_ok, refuseIf_ok, pure_ok, exists_const, not_not] at ok
    obtain ⟨escrow, ⟨loaded, -, isOpen⟩, approved, rfl⟩ := ok
    exact .settled (.inl rfl) _ loaded isOpen fun own => ⟨rfl, rfl, rfl, rfl, .inl ⟨rfl, by rwa [own]⟩⟩
  | claimRefund escrowId caller =>
    simp only [exec, claimRefund, bind_ok, loadOpen_ok, checked_ok, fitU64_ok, refuseIf_ok, pure_ok, exists_const] at ok
    obtain ⟨escrow, ⟨loaded, -, isOpen⟩, deadline, ⟨rfl, -⟩, due, rfl⟩ := ok
    exact .settled (.inr rfl) _ loaded isOpen fun _ => ⟨rfl, rfl, rfl, rfl, .inr ⟨rfl, not_lt.mp due⟩⟩
  | depositEscrow escrowId caller amount =>
    simp only [exec, depositEscrow, bind_ok, found_ok, refuseIf_ok, checked_ok, fit_ok, pure_ok, exists_const] at ok
    obtain ⟨escrow, loaded, -, isOpen, total, ⟨rfl, -⟩, rfl⟩ := ok
    exact .deposited loaded (not_not.mp isOpen)

/-- What the loop leaves under a key: the milestone with that index, or what was there. -/
theorem lookup_storeMilestones (escrowId index : Nat) (milestones : List (String × Int))
    (store : Store (Nat × Nat) OptimizedMilestone) (key : Nat × Nat) :
    (storeMilestones escrowId index milestones store).lookup key =
      if key.1 = escrowId ∧ index ≤ key.2 then
        (milestones[key.2 - index]?.map fun entry => ⟨key.2, entry.1, entry.2, 0, 0, ""⟩).or (store.lookup key)
      else store.lookup key := by
  induction milestones generalizing index store with
  | nil => simp [storeMilestones]
  | cons entry rest ih =>
    obtain ⟨id, place⟩ := key
    rw [storeMilestones, ih]
    by_cases own : id = escrowId
    · subst own
      rcases lt_trichotomy place index with before | rfl | behind
      · have other : (id, place) ≠ (id, index) := fun same => by
          cases same
          exact lt_irrefl _ before
        rw [if_neg (by omega), if_neg (by omega), AList.lookup_insert_ne other]
      · rw [if_neg (by simp), if_pos ⟨rfl, le_rfl⟩, AList.lookup_insert, Nat.sub_self]
        rfl
      · have other : (id, place) ≠ (id, index) := fun same => by
          cases same
          exact lt_irrefl _ behind
        have shift : place - index = place - (index + 1) + 1 := by omega
        rw [if_pos ⟨rfl, behind⟩, if_pos ⟨rfl, behind.le⟩, AList.lookup_insert_ne other, shift, List.getElem?_cons_succ]
    · have other : (id, place) ≠ (escrowId, index) := fun same => own (congrArg Prod.fst same)
      rw [if_neg fun both => own both.1, if_neg fun both => own both.1, AList.lookup_insert_ne other]

omit [DecidableEq Address] in
/-- A batch depends only on the entries of its escrow. -/
theorem loadMilestonesBatch_congr {w after : World Address} {escrowId : Nat}
    (same : ∀ index, after.milestones.lookup (escrowId, index) = w.milestones.lookup (escrowId, index)) (count : Nat) :
    loadMilestonesBatch after escrowId count = loadMilestonesBatch w escrowId count := by
  unfold loadMilestonesBatch
  simp only [same]

theorem filterMap_range_getElem {α : Type} (items : List α) :
    ((List.range items.length).filterMap fun index => items[index]?) = items := by
  induction items with
  | nil => rfl
  | cons first rest ih =>
    rw [List.length_cons, List.range_succ_eq_map, List.filterMap_cons]
    simp only [List.getElem?_cons_zero, List.filterMap_map]
    exact congrArg (first :: ·) ih

omit [DecidableEq Address] in
/-- The batch of a new escrow adds up to what its creation stored. -/
theorem sum_loadMilestonesBatch {before : Store (Nat × Nat) OptimizedMilestone} {w : World Address} {escrowId : Nat}
    {milestones : List (String × Int)} (stored : w.milestones = storeMilestones escrowId 0 milestones before) :
    ((loadMilestonesBatch w escrowId milestones.length).map OptimizedMilestone.amount).sum =
      (milestones.map Prod.snd).sum := by
  have amounts : (loadMilestonesBatch w escrowId milestones.length).map OptimizedMilestone.amount =
      (List.range (milestones.map Prod.snd).length).filterMap fun index => (milestones.map Prod.snd)[index]? := by
    rw [loadMilestonesBatch, List.map_filterMap, List.length_map]
    refine List.filterMap_congr fun index member => ?_
    have inside : index < milestones.length := List.mem_range.mp member
    rw [stored, lookup_storeMilestones, if_pos ⟨rfl, Nat.zero_le _⟩]
    simp [inside]
  rw [amounts, filterMap_range_getElem]

/-- What is to hold of one escrow in one state. -/
structure Sound (w : World Address) (escrowId : Nat) (escrow : OptimizedEscrow Address) (book : Book) : Prop where
  positive : 0 < escrow.amount
  amount : escrow.amount = book.created + book.deposits.sum
  deposits : ∀ deposit ∈ book.deposits, 0 ≤ deposit
  createdAt : escrow.createdAt = book.openedAt
  state : escrow.state ≤ 2
  milestones : ((loadMilestonesBatch w escrowId escrow.milestoneCount).map OptimizedMilestone.amount).sum = book.created

/-- Every escrow has a positive amount that its books account for, and milestones that add up to
the amount it was created with. -/
def Lawful (w : World Address) : Prop :=
  ∀ escrowId escrow, w.escrows.lookup escrowId = some escrow →
    ∃ book, w.books.lookup escrowId = some book ∧ Sound w escrowId escrow book

/-- What a step may make of an escrow: nothing, or while it is open a deposit, a release of
approved milestones, or a refund thirty days after it was created. -/
def Evolves (w : World Address) (escrowId : Nat) (escrow later : OptimizedEscrow Address) : Prop :=
  later = escrow ∨ escrow.state = 0 ∧
    (later.state = 0 ∨
      later.amount = escrow.amount ∧
        (later.state = 1 ∧ (∀ milestone ∈ loadMilestonesBatch w escrowId escrow.milestoneCount, milestone.status = 2) ∨
          later.state = 2 ∧ escrow.createdAt + refundDelay ≤ w.timestamp))

/-- A step takes no escrow away and lets each one evolve. -/
def Orderly (w : World Address) (event : Event Address) : Prop :=
  ∀ escrowId escrow, w.escrows.lookup escrowId = some escrow →
    ∃ later, (step w event).escrows.lookup escrowId = some later ∧ Evolves w escrowId escrow later

/-- The escrow invariant along a run. -/
def Invariant (start : World Address) (events : List (Event Address)) : Prop :=
  Always step Lawful start events ∧ Throughout step Orderly start events

/-- An escrow that is created has milestones that add up to its amount, and a deposit that is
taken is not negative. -/
def Honest (w : World Address) : Event Address → Prop
  | .call (.createEscrow client agent arbitrator token amount milestones) =>
    (∃ after, exec w (.createEscrow client agent arbitrator token amount milestones) = .ok after) →
      (milestones.map Prod.snd).sum = amount
  | .call (.depositEscrow escrowId caller amount) =>
    (∃ after, exec w (.depositEscrow escrowId caller amount) = .ok after) → 0 ≤ amount
  | _ => True

/-- Ids are issued in turn, and an escrow is stored under its own id. -/
def Numbered (w : World Address) : Prop :=
  ∀ escrowId escrow, w.escrows.lookup escrowId = some escrow → escrow.id = escrowId ∧ escrowId ≤ w.escrowCounter

omit [DecidableEq Address] in
theorem numbered_effect {w after : World Address} {call : Call Address} (numbered : Numbered w)
    (effect : Effect w call after) : Numbered after := by
  intro escrowId escrow known
  cases effect with
  | created fresh positive id same isOpen now count escrowCount =>
    rcases lookup_insert_some.mp known with ⟨rfl, rfl⟩ | ⟨-, held⟩
    · exact ⟨id, le_rfl⟩
    · obtain ⟨own, le⟩ := numbered _ _ held
      exact ⟨own, le.trans (Nat.le_succ _)⟩
  | settled called later loaded isOpen settles =>
    have own := numbered _ _ loaded
    have kept := (settles own.1).id
    rcases lookup_insert_some.mp known with ⟨rfl, rfl⟩ | ⟨-, held⟩
    · exact ⟨rfl, kept.trans own.1 ▸ own.2⟩
    · exact numbered _ _ held
  | deposited loaded isOpen =>
    have own := numbered _ _ loaded
    rcases lookup_insert_some.mp known with ⟨rfl, rfl⟩ | ⟨-, held⟩
    · exact ⟨rfl, own.1.symm ▸ own.2⟩
    · exact numbered _ _ held

omit [DecidableEq Address] in
theorem orderly_effect {w after : World Address} {call : Call Address} (numbered : Numbered w)
    (effect : Effect w call after) {escrowId : Nat} {escrow : OptimizedEscrow Address}
    (known : w.escrows.lookup escrowId = some escrow) :
    ∃ later, after.escrows.lookup escrowId = some later ∧ Evolves w escrowId escrow later := by
  cases effect with
  | created fresh positive id same isOpen now count escrowCount =>
    have other : escrowId ≠ w.escrowCounter + 1 := by
      have le := (numbered _ _ known).2
      omega
    exact ⟨escrow, by rw [AList.lookup_insert_ne other, known], .inl rfl⟩
  | @settled _ other caller held called later loaded isOpen settles =>
    have own := numbered _ _ loaded
    have kept := settles own.1
    by_cases same : escrowId = other
    · subst same
      rw [known] at loaded
      cases loaded
      refine ⟨later, ?_, .inr ⟨isOpen, .inr ⟨kept.amount, ?_⟩⟩⟩
      · rw [storeEscrow, kept.id, own.1, AList.lookup_insert]
      · simpa only [own.1] using kept.earned
    · have elsewhere : escrowId ≠ later.id := by rwa [kept.id, own.1]
      exact ⟨escrow, by rw [storeEscrow, AList.lookup_insert_ne elsewhere, known], .inl rfl⟩
  | @deposited other caller amount held loaded isOpen =>
    have own := numbered _ _ loaded
    by_cases same : escrowId = other
    · subst same
      rw [known] at loaded
      cases loaded
      refine ⟨{ escrow with amount := escrow.amount + amount, updatedAt := w.timestamp }, ?_, .inr ⟨isOpen, .inl isOpen⟩⟩
      simp only [storeEscrow, own.1, AList.lookup_insert]
    · have elsewhere : escrowId ≠ held.id := by rwa [own.1]
      refine ⟨escrow, ?_, .inl rfl⟩
      simp only [storeEscrow]
      rw [AList.lookup_insert_ne elsewhere, known]

section Kept
variable {w : World Address} {escrowId : Nat} {escrow later : OptimizedEscrow Address} {book : Book}

omit [DecidableEq Address] in
/-- A release or a refund keeps the escrow sound. -/
theorem Sound.settle (sound : Sound w escrowId escrow book) (settles : Settles w escrow later) :
    Sound (storeEscrow w later) escrowId later book where
  positive := settles.amount ▸ sound.positive
  amount := settles.amount.trans sound.amount
  deposits := sound.deposits
  createdAt := settles.createdAt.trans sound.createdAt
  state := by rcases settles.earned with ⟨one, -⟩ | ⟨two, -⟩ <;> omega
  milestones := by
    rw [settles.milestoneCount]
    exact sound.milestones

omit [DecidableEq Address] in
/-- So does a deposit that is not negative, once it is entered. -/
theorem Sound.deposit {amount : Int} {books : Store Nat Book} (sound : Sound w escrowId escrow book)
    (more : 0 ≤ amount) :
    Sound { storeEscrow w { escrow with amount := escrow.amount + amount, updatedAt := w.timestamp } with books }
      escrowId { escrow with amount := escrow.amount + amount, updatedAt := w.timestamp }
      { book with deposits := book.deposits ++ [amount] } where
  positive := add_pos_of_pos_of_nonneg sound.positive more
  amount := by simp [sound.amount, add_assoc]
  deposits := by
    intro deposit member
    rcases List.mem_append.mp member with old | new
    · exact sound.deposits deposit old
    · rwa [List.mem_singleton.mp new]
  createdAt := sound.createdAt
  state := sound.state
  milestones := sound.milestones

omit [DecidableEq Address] in
/-- The milestones of a new escrow are stored beside those of the others. -/
theorem loadMilestonesBatch_other {after : World Address} {fresh : Nat} {milestones : List (String × Int)}
    (stored : after.milestones = storeMilestones fresh 0 milestones w.milestones) (other : escrowId ≠ fresh)
    (length : Nat) : loadMilestonesBatch after escrowId length = loadMilestonesBatch w escrowId length := by
  refine loadMilestonesBatch_congr (fun index => ?_) length
  rw [stored, lookup_storeMilestones, if_neg fun both => other both.1]

end Kept

/-- An honest step keeps every escrow sound. -/
theorem lawful_effect {w after : World Address} {call : Call Address} (numbered : Numbered w) (lawful : Lawful w)
    (effect : Effect w call after) (ok : exec w call = .ok after) (honest : Honest w (.call call)) : Lawful after := by
  intro escrowId escrow known
  cases effect with
  | @created client agent arbitrator token amount milestones fresh positive id same isOpen now count escrowCount =>
    rcases lookup_insert_some.mp known with ⟨rfl, rfl⟩ | ⟨elsewhere, held⟩
    · refine ⟨⟨amount, w.timestamp, []⟩, AList.lookup_insert _, ?_⟩
      exact {
        positive := same ▸ positive
        amount := by simpa using same
        deposits := by simp
        createdAt := now
        state := by omega
        milestones := by
          rw [count, sum_loadMilestonesBatch rfl]
          exact honest ⟨_, ok⟩ }
    · obtain ⟨book, entered, sound⟩ := lawful _ _ held
      refine ⟨book, by rw [AList.lookup_insert_ne elsewhere, entered], ?_⟩
      exact { sound with milestones := by rw [loadMilestonesBatch_other rfl elsewhere, sound.milestones] }
  | @settled _ other caller held called later loaded isOpen settles =>
    have own := (numbered _ _ loaded).1
    have kept := settles own
    rcases lookup_insert_some.mp known with ⟨same, rfl⟩ | ⟨-, untouched⟩
    · obtain ⟨book, entered, sound⟩ := lawful _ _ loaded
      have here : escrowId = other := same.trans (kept.id.trans own)
      subst here
      exact ⟨book, entered, sound.settle kept⟩
    · obtain ⟨book, entered, sound⟩ := lawful _ _ untouched
      exact ⟨book, entered, { sound with }⟩
  | @deposited other caller amount held loaded isOpen =>
    have own := (numbered _ _ loaded).1
    obtain ⟨book, entered, sound⟩ := lawful _ _ loaded
    rcases lookup_insert_some.mp known with ⟨same, rfl⟩ | ⟨elsewhere, untouched⟩
    · have here : escrowId = other := same.trans own
      subst here
      exact ⟨_, by simp [recordDeposit, entered], sound.deposit (honest ⟨_, ok⟩)⟩
    · obtain ⟨book', entered', sound'⟩ := lawful _ _ untouched
      have different : escrowId ≠ other := by rwa [← own]
      refine ⟨book', ?_, { sound' with }⟩
      simp only [recordDeposit, entered]
      rw [AList.lookup_insert_ne different, entered']

/-- What a lawful outcome of a call says of the call. -/
theorem honest_of_effect {w after : World Address} {call : Call Address} (numbered : Numbered w) (before : Lawful w)
    (lawful : Lawful after) (effect : Effect w call after) : Honest w (.call call) := by
  cases effect with
  | @created client agent arbitrator token amount milestones fresh positive id same isOpen now count escrowCount =>
    intro _
    obtain ⟨book, entered, sound⟩ := lawful (w.escrowCounter + 1) fresh (AList.lookup_insert _)
    rw [AList.lookup_insert] at entered
    cases entered
    have sum := sound.milestones
    rwa [count, sum_loadMilestonesBatch rfl] at sum
  | settled called later loaded isOpen settles => rcases called with rfl | rfl <;> trivial
  | @deposited escrowId caller amount held loaded isOpen =>
    intro _
    have own := (numbered _ _ loaded).1
    obtain ⟨old, entered, -⟩ := before escrowId held loaded
    have stored : (w.escrows.insert held.id { held with amount := held.amount + amount, updatedAt := w.timestamp }).lookup
        escrowId = some { held with amount := held.amount + amount, updatedAt := w.timestamp } := by
      rw [own, AList.lookup_insert]
    obtain ⟨book, noted, sound⟩ := lawful escrowId _ stored
    simp only [recordDeposit, entered, AList.lookup_insert] at noted
    cases noted
    exact sound.deposits amount (by simp)

theorem numbered_step {w : World Address} (numbered : Numbered w) (event : Event Address) :
    Numbered (step w event) := by
  cases event with
  | advance seconds => exact numbered
  | call call =>
    simp only [step]
    split
    · rename_i ok
      exact numbered_effect numbered (exec_effect ok)
    · exact numbered

theorem lawful_step {w : World Address} {event : Event Address} (numbered : Numbered w) (lawful : Lawful w)
    (honest : Honest w event) : Lawful (step w event) := by
  cases event with
  | advance seconds =>
    intro escrowId escrow known
    obtain ⟨book, entered, sound⟩ := lawful escrowId escrow known
    exact ⟨book, entered, { sound with }⟩
  | call call =>
    simp only [step]
    split
    · rename_i ok
      exact lawful_effect numbered lawful (exec_effect ok) ok honest
    · exact lawful

theorem orderly_step {w : World Address} (numbered : Numbered w) (event : Event Address) : Orderly w event := by
  intro escrowId escrow known
  cases event with
  | advance seconds => exact ⟨escrow, known, .inl rfl⟩
  | call call =>
    simp only [step]
    split
    · rename_i ok
      exact orderly_effect numbered (exec_effect ok) known
    · exact ⟨escrow, known, .inl rfl⟩

/-- The escrow invariant holds along a run exactly when every escrow that is created has milestones
that add up to its amount and no deposit that is taken is negative. -/
theorem invariant_iff (timestamp : Nat) (events : List (Event Address)) :
    Invariant (World.deployed timestamp) events ↔ Throughout step Honest (World.deployed timestamp) events := by
  have numbered : ∀ before, Numbered (run step (World.deployed timestamp : World Address) before) :=
    run_invariant Numbered (fun _ event held => numbered_step held event) fun _ _ known => (nomatch known)
  constructor
  · rintro ⟨lawful, -⟩
    refine throughout_of_at fun before event after split => ?_
    have here := always_at lawful before (event :: after) split
    have next := always_at lawful (before ++ [event]) after (by rw [split, List.append_assoc]; rfl)
    rw [run_append, run_cons, run_nil] at next
    cases event with
    | advance seconds => trivial
    | call call =>
      cases result : exec (run step (World.deployed timestamp) before) call with
      | error failure => cases call <;> first | trivial | exact fun ⟨after, ok⟩ => nomatch result.symm.trans ok
      | ok after =>
        simp only [step, result] at next
        exact honest_of_effect (numbered before) here next (exec_effect result)
  · intro honest
    have both (w : World Address) (event : Event Address) (held : Numbered w ∧ Lawful w) (meets : Honest w event) :
        Numbered (step w event) ∧ Lawful (step w event) :=
      ⟨numbered_step held.1 event, lawful_step held.1 held.2 meets⟩
    have initial : Numbered (World.deployed timestamp : World Address) ∧ Lawful (World.deployed timestamp : World Address) :=
      ⟨numbered [], fun _ _ known => (nomatch known)⟩
    exact ⟨always_of (fun w => Numbered w ∧ Lawful w) both (fun _ held => held.2) initial honest,
      throughout_of (fun w => Numbered w ∧ Lawful w) both (fun w event held _ => orderly_step held.1 event) initial honest⟩

/-- An escrow of 100 whose one milestone is worth less. -/
def shortMilestones : List (Event Nat) :=
  [.call (.createEscrow 1 2 3 4 100 [("design", 70)])]

/-- An escrow of 100 whose client deposits -150. -/
def negativeDeposit : List (Event Nat) :=
  [.call (.createEscrow 1 2 3 4 100 [("design", 100)]), .call (.depositEscrow 1 1 (-150))]

theorem invariant_broken :
    ¬ Invariant (World.deployed 0) negativeDeposit ∧ ¬ Invariant (World.deployed 0) shortMilestones := by
  constructor
  · rintro ⟨⟨-, lawful⟩, -⟩
    have stored : (run step (World.deployed 0) negativeDeposit).escrows.lookup 1 =
        some ⟨1, 1, 2, 3, 4, -50, 0, 0, 0, 0, 0, 1⟩ := by decide +kernel
    obtain ⟨book, -, sound⟩ := lawful 1 _ stored
    have positive := sound.positive
    simp only at positive
    omega
  · rintro ⟨⟨-, lawful⟩, -⟩
    have stored : (run step (World.deployed 0) shortMilestones).escrows.lookup 1 =
        some ⟨1, 1, 2, 3, 4, 100, 0, 0, 0, 0, 0, 1⟩ := by decide +kernel
    have added : ((loadMilestonesBatch (run step (World.deployed 0) shortMilestones) 1 1).map
        OptimizedMilestone.amount).sum = 70 := by decide +kernel
    have noted : (run step (World.deployed 0) shortMilestones).books.lookup 1 = some ⟨100, 0, []⟩ := by decide +kernel
    obtain ⟨book, entered, sound⟩ := lawful 1 _ stored
    rw [noted] at entered
    cases entered
    have milestones := sound.milestones
    rw [added] at milestones
    cases milestones

end AfroPay.MilestoneEscrow
