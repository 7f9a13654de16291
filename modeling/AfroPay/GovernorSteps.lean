import AfroPay.Governor

/-! What an event can change in the governor, said once: every later proof
splits on these changes. Counted votes and executions are the entries of the
contract's history. -/
namespace AfroPay.Governor
open Panics KeyedStore Runs

variable {Address : Type} [DecidableEq Address]

/-- The proposal after a counted vote. -/
def Proposal.voted (proposal : Proposal Address) (support : Bool) (stake : Int) : Proposal Address :=
  { proposal with
    state := .active
    forVotes := proposal.forVotes + if support then stake else 0
    againstVotes := proposal.againstVotes + if support then 0 else stake }

/-- What a vote is recorded as. -/
def voteStatus (support : Bool) : VoteStatus := if support then .votedFor else .votedAgainst

/-- The caller may execute this proposal. -/
def MayExecute (w : World Address) (caller : Address) (proposal : Proposal Address) : Prop :=
  w.admin = some caller ∨ proposal.proposer = caller ∨ allowlisted w caller = true

/-- The configuration after a proposal was executed. -/
def Configured (w after : World Address) (proposal : Proposal Address) : Prop :=
  match proposal.action with
  | .setFeeBps => after.feeBps = some proposal.value ∧ after.ammPairCount = w.ammPairCount
  | .addAmmPair => after.feeBps = w.feeBps ∧ after.ammPairCount = some (w.ammPairCount.getD 0 + 1)

section Calls
variable {w after : World Address} {auths : List Address} {voter caller : Address} {proposalId : Nat}
  {support answer : Bool}

omit [DecidableEq Address] in
private theorem addVote_ok {proposal voted : Proposal Address} {stake : Int}
    (done : addVote proposal support stake = .ok voted) :
    voted = { proposal with
      forVotes := proposal.forVotes + if support then stake else 0
      againstVotes := proposal.againstVotes + if support then 0 else stake } := by
  cases support <;> simp only [addVote, Bool.false_eq_true, ↓reduceIte, bind_ok, fit_ok, pure_ok] at done <;>
    obtain ⟨_, ⟨rfl, -⟩, rfl⟩ := done <;> simp

private theorem castVote_ok (done : castVote w auths voter proposalId support = .ok (after, answer)) :
    answer = false ∧ after = w ∨
    answer = true ∧ ∃ proposal, w.proposals.lookup proposalId = some proposal ∧
      (proposal.state = .pending ∨ proposal.state = .active) ∧ w.votes.lookup (proposalId, voter) = none ∧
      0 < getStake w voter ∧ after = { w with
        proposals := w.proposals.insert proposalId (proposal.voted support (getStake w voter))
        votes := w.votes.insert (proposalId, voter) (voteStatus support) } := by
  simp only [castVote, bind_ok, expect_ok] at done
  obtain ⟨-, -, proposal, found, done⟩ := done
  split at done
  · obtain ⟨rfl, rfl⟩ := Prod.mk.inj (pure_ok.mp done)
    exact .inl ⟨rfl, rfl⟩
  · next opened =>
    split at done
    · obtain ⟨rfl, rfl⟩ := Prod.mk.inj (pure_ok.mp done)
      exact .inl ⟨rfl, rfl⟩
    · next unvoted =>
      split at done
      · obtain ⟨rfl, rfl⟩ := Prod.mk.inj (pure_ok.mp done)
        exact .inl ⟨rfl, rfl⟩
      · next staked =>
        obtain ⟨voted, counted, done⟩ := bind_ok.mp done
        obtain rfl := addVote_ok counted
        obtain ⟨rfl, rfl⟩ := Prod.mk.inj (pure_ok.mp done)
        refine .inr ⟨rfl, proposal, found, by grind, by simpa using unvoted, by omega, ?_⟩
        have state : proposal.state = .pending ∨ proposal.state = .active := by grind
        rcases state with state | state <;> simp [Proposal.voted, voteStatus, state]

omit [DecidableEq Address] in
private theorem applyAction_ok {proposal : Proposal Address} (done : applyAction w proposal = .ok after) :
    Configured w after proposal ∧
      after = { w with feeBps := after.feeBps, ammPairCount := after.ammPairCount } := by
  unfold applyAction at done
  unfold Configured
  split at done
  · obtain rfl := pure_ok.mp done
    simp_all
  · simp only [bind_ok, pure_ok] at done
    obtain ⟨-, -, rfl⟩ := done
    simp_all

private theorem execute_ok (done : execute w auths caller proposalId = .ok (after, answer)) :
    answer = false ∧ after = w ∨
    (∃ proposal, w.proposals.lookup proposalId = some proposal ∧ proposal.state = .active ∧ w.admin.isSome ∧
      caller ∈ auths ∧ MayExecute w caller proposal ∧
      (answer = false ∧ proposal.forVotes ≤ proposal.againstVotes ∧
        after = { w with proposals := w.proposals.insert proposalId { proposal with state := .defeated } } ∨
      answer = true ∧ proposal.againstVotes < proposal.forVotes ∧ Configured w after proposal ∧
        after = { w with
          feeBps := after.feeBps
          ammPairCount := after.ammPairCount
          proposals := w.proposals.insert proposalId { proposal with state := .executed } })) := by
  simp only [execute, requireAuth, bind_ok, expect_ok, panicIf_ok, exists_const] at done
  obtain ⟨signed, proposal, found, storedAdmin, stored, entitled, done⟩ := done
  split at done
  · obtain ⟨rfl, rfl⟩ := Prod.mk.inj (pure_ok.mp done)
    exact .inl ⟨rfl, rfl⟩
  · next active =>
    refine .inr ⟨proposal, found, not_not.mp active, by simp [stored], not_not.mp signed, ?_, ?_⟩
    · unfold MayExecute
      grind
    · split at done
      · next lost =>
        obtain ⟨rfl, rfl⟩ := Prod.mk.inj (pure_ok.mp done)
        exact .inl ⟨rfl, lost, rfl⟩
      · next won =>
        obtain ⟨applied, acted, done⟩ := bind_ok.mp done
        obtain ⟨rfl, rfl⟩ := Prod.mk.inj (pure_ok.mp done)
        obtain ⟨configured, rest⟩ := applyAction_ok acted
        refine .inr ⟨rfl, not_le.mp won, configured, ?_⟩
        rw [rest]

end Calls

/-- What the history of the contract consists of: votes that were counted, with
the stake they were weighed by, and executions. -/
inductive Entry (Address : Type) where
  | vote (proposalId : Nat) (voter : Address) (support : Bool) (stake : Int)
  | execution (proposalId : Nat) (caller : Address) (action : ProposalAction) (value : Nat)
  deriving DecidableEq

/-- The entry an event adds to the history: a vote or an execution that returned true. -/
def entry (w : World Address) (event : Event Address) : Option (Entry Address) :=
  match event.call with
  | .castVote voter proposalId support =>
    match castVote w event.auths voter proposalId support with
    | .ok (_, true) => some (.vote proposalId voter support (getStake w voter))
    | _ => none
  | .execute caller proposalId =>
    match execute w event.auths caller proposalId with
    | .ok (_, true) => (w.proposals.lookup proposalId).map fun proposal =>
        .execution proposalId caller proposal.action proposal.value
    | _ => none
  | _ => none

/-- Everything an event can do, with the entry it adds. -/
inductive Changes (w : World Address) (event : Event Address) :
    World Address → Option (Entry Address) → Prop
  | quiet (executors storageVersion) : Changes w event { w with executors, storageVersion } none
  | initialized (admin threshold) (unset : w.admin = none) :
    Changes w event ⟨some admin, some threshold, some 0, ∅, ∅, ∅, some defaultFeeBps, some 0,
      some storageVersionCurrent, some ∅⟩ none
  | staked (voter amount) (set : w.admin.isSome) (nonneg : 0 ≤ amount)
      (call : ∃ admin, event.call = .setStake admin voter amount) :
    Changes w event { w with stakes := w.stakes.insert voter amount } none
  | proposed (proposer description action value) :
    Changes w event { w with
      proposalCount := some (w.proposalCount.getD 0 + 1)
      proposals := w.proposals.insert (w.proposalCount.getD 0 + 1)
        ⟨w.proposalCount.getD 0 + 1, proposer, description, action, value, .pending, 0, 0⟩ } none
  | voted (proposalId voter support proposal) (found : w.proposals.lookup proposalId = some proposal)
      (opened : proposal.state = .pending ∨ proposal.state = .active)
      (unvoted : w.votes.lookup (proposalId, voter) = none) (positive : 0 < getStake w voter) :
    Changes w event { w with
      proposals := w.proposals.insert proposalId (proposal.voted support (getStake w voter))
      votes := w.votes.insert (proposalId, voter) (voteStatus support) }
      (some (.vote proposalId voter support (getStake w voter)))
  | defeated (proposalId proposal) (found : w.proposals.lookup proposalId = some proposal)
      (active : proposal.state = .active) (set : w.admin.isSome)
      (lost : proposal.forVotes ≤ proposal.againstVotes) :
    Changes w event
      { w with proposals := w.proposals.insert proposalId { proposal with state := .defeated } } none
  | executed (proposalId caller proposal after) (found : w.proposals.lookup proposalId = some proposal)
      (active : proposal.state = .active) (set : w.admin.isSome) (signed : caller ∈ event.auths)
      (entitled : MayExecute w caller proposal) (won : proposal.againstVotes < proposal.forVotes)
      (configured : Configured w after proposal)
      (rest : after = { w with
        feeBps := after.feeBps
        ammPairCount := after.ammPairCount
        proposals := w.proposals.insert proposalId { proposal with state := .executed } }) :
    Changes w event after (some (.execution proposalId caller proposal.action proposal.value))

private theorem quiet_self (w : World Address) (event : Event Address) : Changes w event w none :=
  .quiet w.executors w.storageVersion

private theorem entry_error {w : World Address} {event : Event Address} {text : String}
    (failed : exec w event = .error text) : entry w event = none := by
  obtain ⟨auths, call⟩ := event
  cases call with
  | castVote voter proposalId support =>
    cases done : castVote w auths voter proposalId support with
    | error text => simp [entry, done]
    | ok result => simp [exec, done, Functor.map, Except.map] at failed
  | execute caller proposalId =>
    cases done : execute w auths caller proposalId with
    | error text => simp [entry, done]
    | ok result => simp [exec, done, Functor.map, Except.map] at failed
  | _ => rfl

private theorem assertAdmin_set {w : World Address} {admin : Address} {checked : Unit}
    (done : assertAdmin w admin = .ok checked) : w.admin.isSome := by
  simp only [assertAdmin, bind_ok, expect_ok] at done
  obtain ⟨storedAdmin, stored, -⟩ := done
  simp [stored]

/-- A call that does not panic makes one of the changes. -/
private theorem exec_changes {w after : World Address} {event : Event Address}
    (done : exec w event = .ok after) : Changes w event after (entry w event) := by
  obtain ⟨auths, call⟩ := event
  cases call with
  | initializeGovernor admin threshold =>
    simp only [exec, initializeGovernor, bind_ok, panicIf_ok, pure_ok, exists_const] at done
    obtain ⟨unset, -, -, rfl⟩ := done
    exact .initialized admin threshold (by simpa using unset)
  | migrate admin =>
    simp only [exec, migrate, bind_ok, panicIf_ok, exists_const] at done
    obtain ⟨-, -, -, -, -, done⟩ := done
    split at done <;> obtain rfl := pure_ok.mp done <;> split
    · exact .quiet (some ∅) (some storageVersionCurrent)
    · exact .quiet w.executors (some storageVersionCurrent)
    · exact .quiet (some ∅) w.storageVersion
    · exact quiet_self w _
  | addExecutor admin executor =>
    simp only [exec, addExecutor, bind_ok, pure_ok] at done
    obtain ⟨-, -, -, -, rfl⟩ := done
    exact .quiet _ w.storageVersion
  | removeExecutor admin executor =>
    simp only [exec, removeExecutor, bind_ok, pure_ok] at done
    obtain ⟨-, -, -, -, rfl⟩ := done
    exact .quiet _ w.storageVersion
  | setStake admin voter amount =>
    simp only [exec, setStake, bind_ok, panicIf_ok, pure_ok, exists_const] at done
    obtain ⟨-, -, _, checked, nonneg, rfl⟩ := done
    exact .staked voter amount (assertAdmin_set checked) (by omega) ⟨admin, rfl⟩
  | propose proposer description action value =>
    obtain ⟨proposalId, done⟩ := map_fst_ok.mp done
    simp only [propose, bind_ok, panicIf_ok, fitU64_ok, pure_ok, exists_const, Prod.mk.injEq] at done
    obtain ⟨-, -, -, count, ⟨rfl, -⟩, rfl, -⟩ := done
    exact .proposed proposer description action value
  | castVote voter proposalId support =>
    obtain ⟨answer, done⟩ := map_fst_ok.mp done
    rcases castVote_ok done with ⟨rfl, rfl⟩ | ⟨rfl, proposal, found, opened, unvoted, positive, rfl⟩
    · simpa [entry, done] using quiet_self _ _
    · simpa [entry, done] using .voted proposalId voter support proposal found opened unvoted positive
  | execute caller proposalId =>
    obtain ⟨answer, done⟩ := map_fst_ok.mp done
    rcases execute_ok done with ⟨rfl, rfl⟩ | ⟨proposal, found, active, set, signed, entitled,
      ⟨rfl, lost, rfl⟩ | ⟨rfl, won, configured, rest⟩⟩
    · simpa [entry, done] using quiet_self _ _
    · simpa [entry, done] using .defeated proposalId proposal found active set lost
    · simpa [entry, done, found] using
        .executed proposalId caller proposal after found active set signed entitled won configured rest

theorem step_changes (w : World Address) (event : Event Address) :
    Changes w event (step w event) (entry w event) := by
  cases done : exec w event with
  | error text =>
    rw [entry_error done]
    simpa [step, done] using quiet_self w event
  | ok after => simpa [step, done] using exec_changes done

end AfroPay.Governor
