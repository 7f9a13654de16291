import AfroPay.Panics
import AfroPay.Runs
import Mathlib.Data.List.Induction

/-! The carbon price oracle: one stored price and one slot for a proposed
update, which becomes executable a day after it was proposed. -/
namespace AfroPay.CarbonOracle
open Panics Runs

variable {Address : Type} [DecidableEq Address]

def timelockDelay : Nat := 86400

inductive CarbonError where
  | notInitialized
  | unauthorized
  | priceNotSet
  | noPendingUpdate
  | invalidPrice
  deriving DecidableEq

/-- A call fails with a contract error or with a panic; either rolls it back. -/
inductive Failure where
  | error (error : CarbonError)
  | panic (text : String)
  deriving DecidableEq

structure PriceProposal where
  id : Nat
  price : Int
  executableAt : Nat
  deriving DecidableEq

/-- Instance storage and the ledger time. -/
structure World (Address : Type) where
  admin : Option Address
  oracle : Option Address
  price : Option Int
  proposal : Option PriceProposal
  now : Nat
  deriving DecidableEq

def World.deployed (now : Nat) : World Address := ⟨none, none, none, none, now⟩

def failIf (condition : Prop) [Decidable condition] (failure : Failure) : Except Failure Unit :=
  if condition then .error failure else .ok ()

def okOr {α : Type} (error : CarbonError) : Option α → Except Failure α
  | some value => .ok value
  | none => .error (.error error)

/-- A 64-bit sum; the release profile checks for overflow. -/
def checkedAdd (a b : Nat) : Except Failure Nat :=
  if a + b ≤ u64Max then .ok (a + b) else .error (.panic "attempt to add with overflow")

def requireAuth (auths : List Address) (address : Address) : Except Failure Unit :=
  failIf (address ∉ auths) (.panic "Error(Auth, InvalidAction)")

def initializeOracle (w : World Address) (auths : List Address) (admin oracle : Address) (price : Int) :
    Except Failure (World Address) := do
  failIf (w.admin.isSome) (.error .notInitialized)
  failIf (price ≤ 0) (.error .invalidPrice)
  requireAuth auths admin
  pure { w with admin := some admin, oracle := some oracle, price := some price }

def getPrice (w : World Address) : Except Failure Int := okOr .priceNotSet w.price

def getPendingUpdate (w : World Address) : Option PriceProposal := w.proposal

/-- The id is counted from the slot, so an empty slot starts again from 1. -/
def nextId (slot : Option PriceProposal) : Except Failure Nat :=
  match slot with
  | some proposal => checkedAdd proposal.id 1
  | none => pure 1

/-- Replaces a pending proposal. -/
def proposePriceUpdate (w : World Address) (auths : List Address) (oracle : Address) (price : Int) :
    Except Failure (World Address × Nat) := do
  failIf (price ≤ 0) (.error .invalidPrice)
  let storedOracle ← okOr .notInitialized w.oracle
  failIf (oracle ≠ storedOracle) (.error .unauthorized)
  requireAuth auths oracle
  let id ← nextId w.proposal
  let executableAt ← checkedAdd w.now timelockDelay
  pure ({ w with proposal := some ⟨id, price, executableAt⟩ }, id)

def executePriceUpdate (w : World Address) (proposalId : Nat) : Except Failure (World Address × Int) := do
  let proposal ← okOr .priceNotSet w.proposal
  failIf (proposal.id ≠ proposalId ∨ w.now < proposal.executableAt) (.error .priceNotSet)
  pure ({ w with price := some proposal.price, proposal := none }, proposal.price)

def emergencyCancelProposedUpdate (w : World Address) (auths : List Address) (admin : Address)
    (proposalId : Nat) : Except Failure (World Address) := do
  requireAuth auths admin
  let storedAdmin ← okOr .notInitialized w.admin
  failIf (admin ≠ storedAdmin) (.error .unauthorized)
  let proposal ← okOr .noPendingUpdate w.proposal
  failIf (proposal.id ≠ proposalId) (.error .noPendingUpdate)
  pure { w with proposal := none }

inductive Call (Address : Type) where
  | initializeOracle (admin oracle : Address) (price : Int)
  | proposePriceUpdate (oracle : Address) (price : Int)
  | executePriceUpdate (proposalId : Nat)
  | emergencyCancelProposedUpdate (admin : Address) (proposalId : Nat)

def exec (w : World Address) (auths : List Address) : Call Address → Except Failure (World Address)
  | .initializeOracle admin oracle price => initializeOracle w auths admin oracle price
  | .proposePriceUpdate oracle price => Prod.fst <$> proposePriceUpdate w auths oracle price
  | .executePriceUpdate proposalId => Prod.fst <$> executePriceUpdate w proposalId
  | .emergencyCancelProposedUpdate admin proposalId => emergencyCancelProposedUpdate w auths admin proposalId

/-- A call with the addresses that authorised it, or the clock moving on. -/
inductive Event (Address : Type) where
  | call (auths : List Address) (call : Call Address)
  | advance (seconds : Nat)

def step (w : World Address) : Event Address → World Address
  | .call auths call =>
    match exec w auths call with
    | .ok after => after
    | .error _ => w
  | .advance seconds => { w with now := w.now + seconds }

/-- The stored oracle proposes this price and is answered with this id. -/
def Proposes (w : World Address) (event : Event Address) (price : Int) (id : Nat) : Prop :=
  match event with
  | .call auths (.proposePriceUpdate oracle proposed) => proposed = price ∧ w.oracle = some oracle ∧
      oracle ∈ auths ∧ ∃ after, proposePriceUpdate w auths oracle proposed = .ok (after, id)
  | _ => False

/-- The proposal with this id is executed. -/
def Executes (w : World Address) (event : Event Address) (id : Nat) : Prop :=
  match event with
  | .call _ (.executePriceUpdate proposalId) => proposalId = id ∧
      ∃ result, executePriceUpdate w proposalId = .ok result
  | _ => False

/-- The proposal with this id is cancelled. -/
def Cancels (w : World Address) (event : Event Address) (id : Nat) : Prop :=
  match event with
  | .call auths (.emergencyCancelProposedUpdate admin proposalId) => proposalId = id ∧
      ∃ after, emergencyCancelProposedUpdate w auths admin proposalId = .ok after
  | _ => False

/-- The event neither replaces, executes nor cancels a proposal. -/
def LeavesProposal (w : World Address) (event : Event Address) : Prop :=
  (∀ price id, ¬ Proposes w event price id) ∧ ∀ id, ¬ Executes w event id ∧ ¬ Cancels w event id

section Calls
variable {w after : World Address} {auths : List Address} {admin oracle : Address} {price : Int} {id : Nat}

private theorem failIf_ok {condition : Prop} [Decidable condition] {failure : Failure} {done : Unit} :
    failIf condition failure = .ok done ↔ ¬ condition := by
  unfold failIf
  split <;> simp_all

private theorem okOr_ok {α : Type} {error : CarbonError} {found : Option α} {value : α} :
    okOr error found = .ok value ↔ found = some value := by
  cases found <;> simp [okOr]

private theorem checkedAdd_ok {a b sum : Nat} (done : checkedAdd a b = .ok sum) : sum = a + b := by
  unfold checkedAdd at done
  split at done
  · exact (Except.ok.inj done).symm
  · cases done

private theorem nextId_ok {slot : Option PriceProposal} (done : nextId slot = .ok id) :
    id = slot.elim 1 (·.id + 1) := by
  cases slot with
  | none => exact (pure_ok.mp done).symm
  | some proposal => exact checkedAdd_ok done

private theorem initializeOracle_ok (done : initializeOracle w auths admin oracle price = .ok after) :
    w.admin = none ∧ after = { w with admin := some admin, oracle := some oracle, price := some price } := by
  simp only [initializeOracle, bind_ok, failIf_ok, pure_ok, exists_const] at done
  obtain ⟨unset, -, -, -, rfl⟩ := done
  exact ⟨by simpa using unset, rfl⟩

private theorem proposePriceUpdate_ok (done : proposePriceUpdate w auths oracle price = .ok (after, id)) :
    0 < price ∧ w.oracle = some oracle ∧ oracle ∈ auths ∧ id = w.proposal.elim 1 (·.id + 1) ∧
      after = { w with proposal := some ⟨id, price, w.now + timelockDelay⟩ } := by
  simp only [proposePriceUpdate, requireAuth, bind_ok, failIf_ok, okOr_ok, pure_ok, exists_const,
    Prod.mk.injEq] at done
  obtain ⟨positive, storedOracle, stored, same, signed, next, counted, due, added, rfl, rfl⟩ := done
  obtain rfl := not_not.mp same
  obtain rfl := checkedAdd_ok added
  exact ⟨Int.not_le.mp positive, stored, not_not.mp signed, nextId_ok counted, rfl⟩

omit [DecidableEq Address] in
private theorem executePriceUpdate_ok {paid : Int} (done : executePriceUpdate w id = .ok (after, paid)) :
    ∃ proposal, w.proposal = some proposal ∧ proposal.id = id ∧ proposal.executableAt ≤ w.now ∧
      after = { w with price := some proposal.price, proposal := none } := by
  simp only [executePriceUpdate, bind_ok, failIf_ok, okOr_ok, pure_ok, exists_const, Prod.mk.injEq] at done
  obtain ⟨proposal, pending, due, rfl, -⟩ := done
  exact ⟨proposal, pending, by grind, by grind, rfl⟩

private theorem emergencyCancel_ok
    (done : emergencyCancelProposedUpdate w auths admin id = .ok after) :
    ∃ proposal, w.proposal = some proposal ∧ proposal.id = id ∧ after = { w with proposal := none } := by
  simp only [emergencyCancelProposedUpdate, bind_ok, failIf_ok, okOr_ok, pure_ok, exists_const] at done
  obtain ⟨-, -, -, -, -, proposal, pending, same, rfl⟩ := done
  exact ⟨proposal, pending, not_not.mp same, rfl⟩

end Calls

variable {w : World Address} {event : Event Address}

/-- What an event does: propose, execute or cancel, or leave the slot alone. -/
private theorem step_cases (w : World Address) (event : Event Address) :
    (∃ price id, Proposes w event price id ∧ 0 < price ∧ id = w.proposal.elim 1 (·.id + 1) ∧
      step w event = { w with proposal := some ⟨id, price, w.now + timelockDelay⟩ }) ∨
    (∃ proposal, w.proposal = some proposal ∧ Executes w event proposal.id ∧ proposal.executableAt ≤ w.now ∧
      step w event = { w with price := some proposal.price, proposal := none }) ∨
    (∃ proposal, w.proposal = some proposal ∧ Cancels w event proposal.id ∧
      step w event = { w with proposal := none }) ∨
    (LeavesProposal w event ∧ (step w event).proposal = w.proposal ∧ w.now ≤ (step w event).now ∧
      ((step w event).admin = w.admin ∧ (step w event).oracle = w.oracle ∧ (step w event).price = w.price ∨
        w.admin = none ∧ (step w event).admin.isSome)) := by
  cases event with
  | advance seconds => simp [LeavesProposal, Proposes, Executes, Cancels, step]
  | call auths call =>
    cases call with
    | initializeOracle admin oracle price =>
      refine .inr (.inr (.inr ⟨by simp [LeavesProposal, Proposes, Executes, Cancels], ?_⟩))
      cases done : initializeOracle w auths admin oracle price with
      | error failure => simp [step, exec, done]
      | ok after =>
        obtain ⟨unset, rfl⟩ := initializeOracle_ok done
        simp [step, exec, done, unset]
    | proposePriceUpdate oracle price =>
      cases done : proposePriceUpdate w auths oracle price with
      | error failure =>
        simp [LeavesProposal, Proposes, Executes, Cancels, step, exec, done, Functor.map, Except.map]
      | ok result =>
        obtain ⟨after, id⟩ := result
        obtain ⟨positive, stored, signed, counted, leaves⟩ := proposePriceUpdate_ok done
        refine .inl ⟨price, id, ⟨rfl, stored, signed, after, done⟩, positive, counted, ?_⟩
        simp [step, exec, done, Functor.map, Except.map, leaves]
    | executePriceUpdate proposalId =>
      cases done : executePriceUpdate w proposalId with
      | error failure =>
        simp [LeavesProposal, Proposes, Executes, Cancels, step, exec, done, Functor.map, Except.map]
      | ok result =>
        obtain ⟨after, paid⟩ := result
        obtain ⟨proposal, pending, rfl, due, leaves⟩ := executePriceUpdate_ok done
        refine .inr (.inl ⟨proposal, pending, ⟨rfl, _, done⟩, due, ?_⟩)
        simp [step, exec, done, Functor.map, Except.map, leaves]
    | emergencyCancelProposedUpdate admin proposalId =>
      cases done : emergencyCancelProposedUpdate w auths admin proposalId with
      | error failure => simp [LeavesProposal, Proposes, Executes, Cancels, step, exec, done]
      | ok after =>
        obtain ⟨proposal, pending, rfl, leaves⟩ := emergencyCancel_ok done
        refine .inr (.inr (.inl ⟨proposal, pending, ⟨rfl, after, done⟩, ?_⟩))
        simp [step, exec, done, leaves]

/-- A pending proposal was made earlier in the run and nothing touched it since. -/
private theorem pending_history {start : World Address} (empty : start.proposal = none)
    (events : List (Event Address)) {proposal : PriceProposal}
    (pending : (run step start events).proposal = some proposal) :
    ∃ earlier propose between, events = earlier ++ propose :: between ∧ 0 < proposal.price ∧
      Proposes (run step start earlier) propose proposal.price proposal.id ∧
      proposal.executableAt = (run step start earlier).now + timelockDelay ∧
      Throughout step LeavesProposal (run step start (earlier ++ [propose])) between := by
  induction events using List.reverseRecOn with
  | nil =>
    rw [run_nil, empty] at pending
    cases pending
  | append_singleton events event ih =>
    rw [run_append] at pending
    rcases step_cases (run step start events) event with ⟨price, id, proposes, positive, -, leaves⟩ |
      ⟨_, -, -, -, leaves⟩ | ⟨_, -, -, leaves⟩ | ⟨quiet, same, -⟩
    · rw [run_cons, run_nil, leaves] at pending
      cases pending
      exact ⟨events, event, [], rfl, positive, proposes, rfl, trivial⟩
    · rw [run_cons, run_nil, leaves] at pending
      cases pending
    · rw [run_cons, run_nil, leaves] at pending
      cases pending
    · rw [run_cons, run_nil, same] at pending
      obtain ⟨earlier, propose, between, rfl, positive, proposes, due, untouched⟩ := ih pending
      refine ⟨earlier, propose, between ++ [event], by simp, positive, proposes, due, ?_⟩
      rw [throughout_append, ← run_append]
      exact ⟨untouched, by simpa using quiet, trivial⟩

/-- Nothing is stored before `initialize`. -/
private def Unset (w : World Address) : Prop :=
  w.admin = none → w.oracle = none ∧ w.price = none ∧ w.proposal = none

private theorem unset_step (w : World Address) (event : Event Address) (empty : Unset w) :
    Unset (step w event) := by
  intro unset
  rcases step_cases w event with ⟨_, _, proposes, -, -, leaves⟩ | ⟨_, pending, -, -, leaves⟩ | ⟨_, -, -, leaves⟩ |
    ⟨-, slot, -, ⟨admin, oracle, price⟩ | ⟨-, set⟩⟩
  · rw [leaves] at unset
    have stored : w.oracle.isSome := by
      unfold Proposes at proposes
      split at proposes
      · simp [proposes.2.1]
      · cases proposes
    simp [(empty unset).1] at stored
  · rw [leaves] at unset
    simp [(empty unset).2.2] at pending
  · rw [leaves] at unset ⊢
    exact ⟨(empty unset).1, (empty unset).2.1, rfl⟩
  · rw [oracle, price, slot]
    exact empty (admin ▸ unset)
  · simp [unset] at set

/-- A change of the stored price sets a positive price that the oracle proposed
at least the delay earlier and that nothing replaced, executed or cancelled since. -/
theorem price_changes_after_timelock (now : Nat) (before : List (Event Address)) (event : Event Address)
    (old : Int) (set : (run step (.deployed now) before).price = some old)
    (changed : (step (run step (.deployed now) before) event).price ≠ some old) :
    ∃ earlier propose between price id, before = earlier ++ propose :: between ∧
      Proposes (run step (.deployed now) earlier) propose price id ∧ 0 < price ∧
      (step (run step (.deployed now) before) event).price = some price ∧
      Executes (run step (.deployed now) before) event id ∧
      (run step (.deployed now) earlier).now + timelockDelay ≤ (run step (.deployed now) before).now ∧
      Throughout step LeavesProposal (run step (.deployed now) (earlier ++ [propose])) between := by
  rcases step_cases (run step (.deployed now) before) event with ⟨_, _, -, -, -, leaves⟩ |
    ⟨proposal, pending, executes, due, leaves⟩ | ⟨_, -, -, leaves⟩ | ⟨-, -, -, ⟨-, -, same⟩ | ⟨unset, -⟩⟩
  · exact absurd (by rw [leaves]; exact set) changed
  · obtain ⟨earlier, propose, between, split, positive, proposes, delayed, untouched⟩ :=
      pending_history rfl before pending
    refine ⟨earlier, propose, between, proposal.price, proposal.id, split, proposes, positive, ?_, executes, ?_,
      untouched⟩
    · rw [leaves]
    · exact delayed ▸ due
  · exact absurd (by rw [leaves]; exact set) changed
  · exact absurd (same.trans set) changed
  · have empty := run_invariant Unset unset_step (fun _ => ⟨rfl, rfl, rfl⟩) before unset
    rw [empty.2.1] at set
    cases set

/-- A price proposed, left alone for a day and then executed. -/
def dayOfProposal : List (Event Nat) :=
  [.call [0] (.initializeOracle 0 1 100), .call [1] (.proposePriceUpdate 1 125), .advance timelockDelay]

theorem dayOfProposal_changes_price :
    (step (run step (.deployed 1000) dayOfProposal) (.call [] (.executePriceUpdate 1))).price = some 125 ∧
      ∃ earlier propose between price id, dayOfProposal = earlier ++ propose :: between ∧
        Proposes (run step (.deployed 1000) earlier) propose price id ∧ 0 < price ∧
        (step (run step (.deployed 1000) dayOfProposal) (.call [] (.executePriceUpdate 1))).price = some price ∧
        Executes (run step (.deployed 1000) dayOfProposal) (.call [] (.executePriceUpdate 1)) id ∧
        (run step (.deployed 1000) earlier).now + timelockDelay ≤ (run step (.deployed 1000) dayOfProposal).now ∧
        Throughout step LeavesProposal (run step (.deployed 1000) (earlier ++ [propose])) between :=
  ⟨by decide +kernel, price_changes_after_timelock 1000 dayOfProposal (.call [] (.executePriceUpdate 1)) 100
    (by decide +kernel) (by decide +kernel)⟩

/-- The event empties the slot. -/
def Clears (w : World Address) (event : Event Address) : Prop :=
  ∃ id, Executes w event id ∨ Cancels w event id

/-- No id is given out twice, and a call for an id acts on the proposal that
was answered with it. -/
structure NamesOneProposal (start : World Address) (events : List (Event Address)) : Prop where
  unique : ∀ (before between after : List (Event Address)) first second price price' id,
    events = before ++ first :: between ++ second :: after → Proposes (run step start before) first price id →
      ¬ Proposes (run step start (before ++ first :: between)) second price' id
  acts : ∀ (before between after : List (Event Address)) first act price id,
    events = before ++ first :: between ++ act :: after → Proposes (run step start before) first price id →
      Executes (run step start (before ++ first :: between)) act id ∨
        Cancels (run step start (before ++ first :: between)) act id →
      Throughout step (fun w event => ∀ price id, ¬ Proposes w event price id)
        (run step start (before ++ [first])) between

/-- A proposal is made after an earlier one was executed or cancelled. -/
def ProposesAfterClearing (start : World Address) (events : List (Event Address)) : Prop :=
  ∃ before between after cleared proposed price id, events = before ++ cleared :: between ++ proposed :: after ∧
    Clears (run step start before) cleared ∧
    Proposes (run step start (before ++ cleared :: between)) proposed price id

/-- What a successful proposal stores, and that clearing needs a proposal with that id. -/
private theorem proposes_stores {price : Int} {id : Nat} (proposes : Proposes w event price id) :
    id = w.proposal.elim 1 (·.id + 1) ∧ (step w event).proposal = some ⟨id, price, w.now + timelockDelay⟩ := by
  unfold Proposes at proposes
  split at proposes
  · obtain ⟨rfl, -, -, after, done⟩ := proposes
    obtain ⟨-, -, -, counted, rfl⟩ := proposePriceUpdate_ok done
    simp [step, exec, done, Functor.map, Except.map, ← counted]
  · cases proposes

private theorem clears_slot {id : Nat} (clears : Executes w event id ∨ Cancels w event id) :
    ∃ proposal, w.proposal = some proposal ∧ proposal.id = id ∧ (step w event).proposal = none := by
  rcases clears with executes | cancels
  · unfold Executes at executes
    split at executes
    · obtain ⟨rfl, ⟨after, paid⟩, done⟩ := executes
      obtain ⟨proposal, pending, same, -, rfl⟩ := executePriceUpdate_ok done
      exact ⟨proposal, pending, same, by simp [step, exec, done, Functor.map, Except.map]⟩
    · cases executes
  · unfold Cancels at cancels
    split at cancels
    · obtain ⟨rfl, after, done⟩ := cancels
      obtain ⟨proposal, pending, same, rfl⟩ := emergencyCancel_ok done
      exact ⟨proposal, pending, same, by simp [step, exec, done]⟩
    · cases cancels

/-- While the slot is never emptied its id only grows, with every proposal. -/
private theorem ids_grow {proposal : PriceProposal} (events : List (Event Address))
    (pending : w.proposal = some proposal) (kept : Throughout step (fun w event => ¬ Clears w event) w events) :
    ∃ last, (run step w events).proposal = some last ∧ proposal.id ≤ last.id ∧ (last.id = proposal.id →
      Throughout step (fun w event => ∀ price id, ¬ Proposes w event price id) w events) := by
  induction events generalizing w proposal with
  | nil => exact ⟨proposal, pending, Nat.le_refl _, fun _ => trivial⟩
  | cons event rest ih =>
    rcases step_cases w event with ⟨price, id, proposes, -, counted, leaves⟩ | ⟨other, -, executes, -, -⟩ |
      ⟨other, -, cancels, -⟩ | ⟨quiet, same, -⟩
    · rw [pending] at counted
      obtain ⟨last, final, grows, -⟩ := ih (w := step w event) (by rw [leaves]) kept.2
      have above : proposal.id < last.id := by
        have next : id = proposal.id + 1 := counted
        simp only at grows
        omega
      exact ⟨last, final, Nat.le_of_lt above, fun same => absurd same (Nat.ne_of_gt above)⟩
    · exact absurd ⟨other.id, .inl executes⟩ kept.1
    · exact absurd ⟨other.id, .inr cancels⟩ kept.1
    · obtain ⟨last, final, grows, none⟩ := ih (same.trans pending) kept.2
      exact ⟨last, final, grows, fun equal => ⟨quiet.1, none equal⟩⟩

/-- Filling an empty slot gives out the id 1. -/
private theorem first_id {start : World Address} (empty : start.proposal = none) (events : List (Event Address))
    (pending : (run step start events).proposal.isSome) :
    ∃ earlier propose between price, events = earlier ++ propose :: between ∧
      Proposes (run step start earlier) propose price 1 := by
  induction events using List.reverseRecOn with
  | nil => simp [empty] at pending
  | append_singleton events event ih =>
    by_cases occupied : (run step start events).proposal.isSome
    · obtain ⟨earlier, propose, between, price, rfl, proposes⟩ := ih occupied
      exact ⟨earlier, propose, between ++ [event], price, by simp, proposes⟩
    · have free := Option.not_isSome_iff_eq_none.mp occupied
      rw [run_append, run_cons, run_nil] at pending
      rcases step_cases (run step start events) event with ⟨price, id, proposes, -, counted, -⟩ |
        ⟨_, held, -⟩ | ⟨_, held, -⟩ | ⟨-, same, -⟩
      · rw [free] at counted
        obtain rfl : id = 1 := counted
        exact ⟨events, event, [], price, rfl, proposes⟩
      · simp [free] at held
      · simp [free] at held
      · simp [same, free] at pending

/-- Nothing was cleared between a proposal and an event that makes another or
finds the slot filled, when no proposal follows a clearing. -/
private theorem kept_between {start : World Address} {before between after : List (Event Address)}
    {first last : Event Address}
    (orderly : ¬ ProposesAfterClearing start (before ++ first :: between ++ last :: after))
    (filled : (run step start (before ++ first :: between)).proposal.isSome ∨
      ∃ price id, Proposes (run step start (before ++ first :: between)) last price id) :
    Throughout step (fun w event => ¬ Clears w event) (run step start (before ++ [first])) between := by
  apply throughout_of_at
  rintro earlier cleared later rfl ⟨id, clears⟩
  obtain ⟨_, -, -, empty⟩ := clears_slot clears
  rw [← run_append] at clears empty
  apply orderly
  rcases filled with occupied | ⟨price, id', proposes⟩
  · have refilled :
        (run step (step (run step start (before ++ [first] ++ earlier)) cleared) later).proposal.isSome := by
      simpa [run_append] using occupied
    obtain ⟨gap, proposed, rest, price, split, proposes⟩ := first_id empty later refilled
    refine ⟨before ++ [first] ++ earlier, gap, rest ++ last :: after, cleared, proposed, price, 1, by simp [split],
      ⟨id, clears⟩, ?_⟩
    rw [run_append, run_cons]
    exact proposes
  · refine ⟨before ++ [first] ++ earlier, later, after, cleared, last, price, id', by simp, ⟨id, clears⟩, ?_⟩
    simpa using proposes

/-- Ids name one proposal for ever exactly in the runs that propose nothing
once a proposal was executed or cancelled. -/
theorem ids_name_one_proposal_iff (now : Nat) (events : List (Event Address)) :
    NamesOneProposal (.deployed now) events ↔ ¬ ProposesAfterClearing (.deployed now) events := by
  constructor
  · rintro one ⟨before, between, after, cleared, proposed, price, id, rfl, ⟨id', clears⟩, proposes⟩
    -- The slot was filled before the clearing and is filled again after it: both times from 1.
    obtain ⟨_, held, -, empty⟩ := clears_slot clears
    have unfilled : (World.deployed now : World Address).proposal = none := rfl
    obtain ⟨start, first, gap, price', rfl, starts⟩ := first_id unfilled before (by rw [held]; rfl)
    have refilled : (run step (step (run step (.deployed now) (start ++ first :: gap)) cleared)
        (between ++ [proposed])).proposal.isSome := by
      rw [run_append, run_cons, run_nil]
      rw [run_append, run_cons] at proposes
      simp [(proposes_stores proposes).2]
    obtain ⟨gap', second, rest, price'', split, again⟩ := first_id empty (between ++ [proposed]) refilled
    refine one.unique start (gap ++ cleared :: gap') (rest ++ after) first second price' price'' 1 ?_ starts ?_
    · have whole : between ++ proposed :: after = gap' ++ second :: rest ++ after := by
        rw [← split]
        simp
      simp [whole]
    · rw [← run_cons, ← run_append] at again
      simpa using again
  · intro orderly
    refine ⟨?_, ?_⟩
    · rintro before between after first second price price' id rfl proposes again
      obtain ⟨-, stored⟩ := proposes_stores proposes
      obtain ⟨counted, -⟩ := proposes_stores again
      have kept := kept_between orderly (.inr ⟨price', id, again⟩)
      rw [run_append] at kept
      obtain ⟨last, final, grows, -⟩ := ids_grow between stored kept
      rw [run_append, run_cons, final] at counted
      have next : id = last.id + 1 := counted
      simp only at grows
      omega
    · rintro before between after first act price id rfl proposes clears
      obtain ⟨-, stored⟩ := proposes_stores proposes
      obtain ⟨held, pending, same, -⟩ := clears_slot clears
      have kept := kept_between orderly (.inl (by simp [pending]))
      rw [run_append] at kept ⊢
      obtain ⟨last, final, -, none⟩ := ids_grow between stored kept
      rw [run_append, run_cons, final] at pending
      cases pending
      exact none same

/-- A proposal is cancelled and another one made. -/
def cancelledThenProposed : List (Event Nat) :=
  [.call [0] (.initializeOracle 0 1 100), .call [1] (.proposePriceUpdate 1 125),
    .call [0] (.emergencyCancelProposedUpdate 0 1), .call [1] (.proposePriceUpdate 1 150)]

/-- Both proposals are answered with the id 1, and executing 1 sets the second price. -/
theorem cancelledThenProposed_reuses_id :
    Proposes (run step (.deployed 0) (cancelledThenProposed.take 1)) (.call [1] (.proposePriceUpdate 1 125)) 125 1 ∧
      Proposes (run step (.deployed 0) (cancelledThenProposed.take 3))
        (.call [1] (.proposePriceUpdate 1 150)) 150 1 ∧
      (run step (.deployed 0)
        (cancelledThenProposed ++ [.advance timelockDelay, .call [] (.executePriceUpdate 1)])).price = some 150 ∧
      ¬ NamesOneProposal (.deployed 0) cancelledThenProposed := by
  have first : Proposes (run step (.deployed 0) (cancelledThenProposed.take 1))
      (.call [1] (.proposePriceUpdate 1 125)) 125 1 :=
    ⟨rfl, rfl, by decide, ⟨some 0, some 1, some 100, some ⟨1, 125, timelockDelay⟩, 0⟩, by decide +kernel⟩
  have second : Proposes (run step (.deployed 0) (cancelledThenProposed.take 3))
      (.call [1] (.proposePriceUpdate 1 150)) 150 1 :=
    ⟨rfl, rfl, by decide, ⟨some 0, some 1, some 100, some ⟨1, 150, timelockDelay⟩, 0⟩, by decide +kernel⟩
  refine ⟨first, second, by decide +kernel, fun one => ?_⟩
  exact one.unique (cancelledThenProposed.take 1) [.call [0] (.emergencyCancelProposedUpdate 0 1)] []
    _ _ 125 150 1 rfl first second

end AfroPay.CarbonOracle
