import AfroPay.GovernorSteps
import Mathlib.Algebra.Order.Ring.Int
import Mathlib.Data.List.Induction

/-! How much weight a proposal can collect. Votes are weighed by the stake of
the moment, so stake that is taken from a voter and given to someone else votes
again: the tallies stay within the stake in circulation plus what was taken. -/
namespace AfroPay.Governor
open Panics KeyedStore Runs

variable {Address : Type} [DecidableEq Address]

/-- All stakes together. -/
def totalStake (w : World Address) : Int := total w.stakes fun _ amount => amount

/-- A proposal that can still be voted on. -/
def Proposal.isOpen (proposal : Proposal Address) : Bool :=
  proposal.state = .pending ∨ proposal.state = .active

/-- The proposal is stored and open. -/
def isAlive (w : World Address) (proposalId : Nat) : Bool :=
  (w.proposals.lookup proposalId).elim false Proposal.isOpen

/-- What the event takes from the stake of an address that has voted on the open proposal. -/
def lowering (proposalId : Nat) (w : World Address) (event : Event Address) : Int :=
  match event.call with
  | .setStake _ voter _ =>
    if isAlive w proposalId ∧ (w.votes.lookup (proposalId, voter)).isSome then
      max 0 (getStake w voter - getStake (step w event) voter)
    else 0
  | _ => 0

/-- What a run takes from the stakes of addresses after they voted on the proposal. -/
def lowered (proposalId : Nat) (start : World Address) (events : List (Event Address)) : Int :=
  (journal step (fun w event => some (lowering proposalId w event)) start events).sum

/-- The present stakes of the addresses that voted on a proposal. -/
def votersStake (w : World Address) (proposalId : Nat) : Int :=
  total w.votes fun key _ => if key.1 = proposalId then getStake w key.2 else 0

section Stakes
variable {w : World Address}

private theorem lowering_nonneg (proposalId : Nat) (w : World Address) (event : Event Address) :
    0 ≤ lowering proposalId w event := by
  unfold lowering
  split
  · split
    · exact le_max_left _ _
    · exact le_rfl
  · exact le_rfl

private theorem getStake_nonneg (nonneg : ∀ voter amount, w.stakes.lookup voter = some amount → 0 ≤ amount)
    (voter : Address) : 0 ≤ getStake w voter := by
  unfold getStake
  cases found : w.stakes.lookup voter with
  | none => simp
  | some amount => simpa using nonneg voter amount found

/-- An address votes at most once on a proposal, so its voters' stakes are part of all stakes. -/
private theorem votersStake_le (nonneg : ∀ voter amount, w.stakes.lookup voter = some amount → 0 ≤ amount)
    (proposalId : Nat) : votersStake w proposalId ≤ totalStake w := by
  let cast := w.votes.entries.filter fun entry => decide (entry.1.1 = proposalId)
  have keys : (cast.map Sigma.fst).Nodup := w.votes.nodupKeys.sublist List.filter_sublist
  have distinct : ((cast.map Sigma.fst).map Prod.snd).Nodup := by
    refine List.Nodup.map_on ?_ keys
    rintro ⟨id, voter⟩ first ⟨id', voter'⟩ second (rfl : voter = voter')
    obtain ⟨entry, member, here⟩ := List.mem_map.mp first
    obtain ⟨entry', member', there⟩ := List.mem_map.mp second
    have same : entry.1.1 = proposalId := by simpa using (List.mem_filter.mp member).2
    have same' : entry'.1.1 = proposalId := by simpa using (List.mem_filter.mp member').2
    rw [here] at same
    rw [there] at same'
    exact Prod.ext (same.trans same'.symm) rfl
  have covered : (((cast.map Sigma.fst).map Prod.snd).map (contribution w.stakes fun _ amount => amount)).sum ≤
      totalStake w := sum_contribution_le _ distinct nonneg
  have stakes : contribution w.stakes (fun _ amount => amount) = getStake w := by
    funext voter
    simp only [contribution, getStake]
    cases w.stakes.lookup voter <;> rfl
  calc votersStake w proposalId
      = (cast.map fun entry => getStake w entry.1.2).sum := by
        simpa [votersStake] using (sum_filter w.votes (fun key _ => decide (key.1 = proposalId))
          fun key _ => getStake w key.2).symm
    _ = (((cast.map Sigma.fst).map Prod.snd).map (getStake w)).sum := by simp [Function.comp_def]
    _ ≤ totalStake w := by rwa [stakes] at covered

end Stakes

/-- While a proposal is open its tallies are covered by its voters' present
stakes and what was taken from them. -/
structure Covered (proposalId : Nat) (w : World Address) (taken : List Int) : Prop where
  stakes : ∀ voter amount, w.stakes.lookup voter = some amount → 0 ≤ amount
  nonneg : 0 ≤ taken.sum
  tally : ∀ proposal, w.proposals.lookup proposalId = some proposal → proposal.isOpen →
    proposal.forVotes + proposal.againstVotes ≤ votersStake w proposalId + taken.sum

section Covered
variable {w : World Address} {proposalId : Nat} {taken : List Int}

/-- Changing one stake changes the voters' stakes by the difference, if its holder voted. -/
private theorem votersStake_staked (voter : Address) (amount : Int) :
    votersStake { w with stakes := w.stakes.insert voter amount } proposalId = votersStake w proposalId +
      if (w.votes.lookup (proposalId, voter)).isSome then amount - getStake w voter else 0 := by
  unfold votersStake
  rw [← total_single, ← total_add]
  apply total_congr
  rintro ⟨id, address⟩ status -
  by_cases same : address = voter
  · subst same
    by_cases here : id = proposalId <;> simp [getStake, here]
  · simp [getStake, AList.lookup_insert_ne same, same]

private theorem votersStake_voted {id : Nat} {voter : Address} (status : VoteStatus)
    (proposals : Store Nat (Proposal Address)) (unvoted : w.votes.lookup (id, voter) = none) :
    votersStake { w with proposals, votes := w.votes.insert (id, voter) status } proposalId =
      votersStake w proposalId + if id = proposalId then getStake w voter else 0 := by
  unfold votersStake
  rw [total_insert, contribution_none unvoted, sub_zero]
  rfl

private theorem covered_staked (covered : Covered proposalId w taken) {event : Event Address} {voter : Address}
    {amount : Int} (nonneg : 0 ≤ amount) (call : ∃ admin, event.call = .setStake admin voter amount)
    (leaves : step w event = { w with stakes := w.stakes.insert voter amount }) :
    Covered proposalId (step w event) (taken ++ [lowering proposalId w event]) := by
  have growth := lowering_nonneg proposalId w event
  have sum : (taken ++ [lowering proposalId w event]).sum = taken.sum + lowering proposalId w event := by simp
  refine ⟨?_, by rw [sum]; have := covered.nonneg; omega, ?_⟩
  · intro address held lookup
    rw [leaves] at lookup
    rcases lookup_insert_some.mp lookup with ⟨-, rfl⟩ | ⟨-, lookup⟩
    · exact nonneg
    · exact covered.stakes address held lookup
  · intro proposal lookup opened
    have found : w.proposals.lookup proposalId = some proposal := by rwa [leaves] at lookup
    have before := covered.tally proposal found opened
    have taking : (w.votes.lookup (proposalId, voter)).isSome →
        getStake w voter - amount ≤ lowering proposalId w event := by
      intro voted
      obtain ⟨admin, call⟩ := call
      have now : getStake (step w event) voter = amount := by
        rw [leaves]
        simp [getStake]
      simp [lowering, call, isAlive, found, opened, voted, now]
    rw [sum, leaves, votersStake_staked]
    split
    · next voted =>
      have := taking voted
      omega
    · omega

private theorem covered_voted (covered : Covered proposalId w taken) {id : Nat} {voter : Address}
    {held : Proposal Address} (found : w.proposals.lookup id = some held) (opened : held.isOpen)
    (unvoted : w.votes.lookup (id, voter) = none) (support : Bool) :
    Covered proposalId { w with
      proposals := w.proposals.insert id (held.voted support (getStake w voter))
      votes := w.votes.insert (id, voter) (voteStatus support) } taken := by
  refine ⟨covered.stakes, covered.nonneg, ?_⟩
  intro proposal lookup open'
  rw [votersStake_voted _ _ unvoted]
  rcases lookup_insert_some.mp lookup with ⟨rfl, rfl⟩ | ⟨distinct, lookup⟩
  · have before := covered.tally held found opened
    cases support <;> simp [Proposal.voted] <;> omega
  · have before := covered.tally proposal lookup open'
    simpa [Ne.symm distinct] using before

/-- A proposal that is closed, or new without votes, needs no cover. -/
private theorem covered_insert (covered : Covered proposalId w taken) {after : World Address}
    (stakes : after.stakes = w.stakes) (votes : after.votes = w.votes) (id : Nat) (new : Proposal Address)
    (proposals : after.proposals = w.proposals.insert id new)
    (uncounted : new.isOpen → new.forVotes = 0 ∧ new.againstVotes = 0) : Covered proposalId after taken := by
  have same : votersStake after proposalId = votersStake w proposalId := by
    simp [votersStake, getStake, votes, stakes]
  refine ⟨by rw [stakes]; exact covered.stakes, covered.nonneg, ?_⟩
  intro proposal lookup opened
  rw [proposals] at lookup
  rw [same]
  rcases lookup_insert_some.mp lookup with ⟨-, rfl⟩ | ⟨-, lookup⟩
  · obtain ⟨none, none'⟩ := uncounted opened
    have voters : 0 ≤ votersStake w proposalId := by
      apply total_nonneg
      rintro ⟨id, voter⟩ status -
      dsimp only
      split
      · exact getStake_nonneg covered.stakes voter
      · exact le_rfl
    have := covered.nonneg
    omega
  · exact covered.tally proposal lookup opened

private theorem covered_more (covered : Covered proposalId w taken) {amount : Int} (nonneg : 0 ≤ amount) :
    Covered proposalId w (taken ++ [amount]) := by
  obtain ⟨stakes, taken', tally⟩ := covered
  have sum : (taken ++ [amount]).sum = taken.sum + amount := by simp
  refine ⟨stakes, by omega, fun proposal lookup opened => ?_⟩
  have := tally proposal lookup opened
  omega

private theorem covered_step (w : World Address) (taken : List Int) (event : Event Address)
    (covered : Covered proposalId w taken) :
    Covered proposalId (step w event) (taken ++ (some (lowering proposalId w event)).toList) := by
  have more {after : World Address} (next : Covered proposalId after taken) :
      Covered proposalId after (taken ++ (some (lowering proposalId w event)).toList) :=
    covered_more next (lowering_nonneg proposalId w event)
  have changes := step_changes w event
  generalize leaves : step w event = after at changes
  generalize entry w event = added at changes
  cases changes with
  | quiet executors storageVersion => exact more ⟨covered.stakes, covered.nonneg, covered.tally⟩
  | initialized admin threshold unset => exact more ⟨by simp, covered.nonneg, by simp⟩
  | staked voter amount set nonneg call =>
    rw [← leaves]
    exact covered_staked covered nonneg call leaves
  | proposed proposer description action value =>
    exact more (covered_insert covered rfl rfl _ _ rfl fun _ => ⟨rfl, rfl⟩)
  | voted id voter support held found opened unvoted positive =>
    exact more (covered_voted covered found (by simpa [Proposal.isOpen] using opened) unvoted support)
  | defeated id held found active set lost =>
    exact more (covered_insert covered rfl rfl _ _ rfl (by simp [Proposal.isOpen]))
  | executed id caller held _ found active set signed entitled won configured rest =>
    refine more (covered_insert covered ?_ ?_ id { held with state := .executed } ?_ ?_)
    · rw [rest]
    · rw [rest]
    · rw [rest]
    · simp [Proposal.isOpen]

private theorem covered_run (proposalId : Nat) (events : List (Event Address)) : Covered proposalId (run step .deployed events)
    (journal step (fun w event => some (lowering proposalId w event)) .deployed events) := by
  apply journal_invariant (Covered proposalId) covered_step
  exact ⟨by simp [World.deployed], le_rfl, by simp [World.deployed]⟩

/-- A closed proposal was closed now or was closed already, with the same tallies. -/
private theorem closed_before {after : World Address} {event : Event Address} {added : Option (Entry Address)}
    (changes : Changes w event after added) {proposal : Proposal Address}
    (lookup : after.proposals.lookup proposalId = some proposal) (closed : proposal.isOpen = false) :
    ∃ held, w.proposals.lookup proposalId = some held ∧
      held.forVotes + held.againstVotes = proposal.forVotes + proposal.againstVotes := by
  cases changes with
  | quiet executors storageVersion => exact ⟨proposal, lookup, rfl⟩
  | initialized admin threshold unset => simp at lookup
  | staked voter amount set nonneg call => exact ⟨proposal, lookup, rfl⟩
  | proposed proposer description action value =>
    rcases lookup_insert_some.mp lookup with ⟨-, rfl⟩ | ⟨-, lookup⟩
    · simp [Proposal.isOpen] at closed
    · exact ⟨proposal, lookup, rfl⟩
  | voted id voter support held found opened unvoted positive =>
    rcases lookup_insert_some.mp lookup with ⟨-, rfl⟩ | ⟨-, lookup⟩
    · simp [Proposal.isOpen, Proposal.voted] at closed
    · exact ⟨proposal, lookup, rfl⟩
  | defeated id held found active set lost =>
    rcases lookup_insert_some.mp lookup with ⟨rfl, rfl⟩ | ⟨-, lookup⟩
    · exact ⟨held, found, rfl⟩
    · exact ⟨proposal, lookup, rfl⟩
  | executed id caller held _ found active set signed entitled won configured rest =>
    rw [rest] at lookup
    rcases lookup_insert_some.mp lookup with ⟨rfl, rfl⟩ | ⟨-, lookup⟩
    · exact ⟨held, found, rfl⟩
    · exact ⟨proposal, lookup, rfl⟩

end Covered

/-- When all stakes together never exceed a limit while a proposal is open, its
tallies never exceed the limit and what was taken from its voters. -/
theorem tallies_within_stake (proposalId : Nat) (limit : Int) (events : List (Event Address))
    (bounded : Always step (fun w => isAlive w proposalId → totalStake w ≤ limit) .deployed events)
    (proposal : Proposal Address)
    (stored : (run step .deployed events).proposals.lookup proposalId = some proposal) :
    proposal.forVotes + proposal.againstVotes ≤ limit + lowered proposalId .deployed events := by
  induction events using List.reverseRecOn generalizing proposal with
  | nil => simp [World.deployed] at stored
  | append_singleton events event ih =>
    by_cases opened : proposal.isOpen
    · have covered := covered_run proposalId (events ++ [event])
      have tally := covered.tally proposal stored opened
      have voters := votersStake_le covered.stakes proposalId
      have total := bounded.2 (by simp [isAlive, stored, opened])
      unfold lowered
      omega
    · rw [run_append] at stored
      obtain ⟨held, found, same⟩ := closed_before (step_changes _ event) stored (by simpa using opened)
      have before := ih (always_before bounded) held found
      have growth := lowering_nonneg proposalId (run step .deployed events) event
      have more : lowered proposalId .deployed (events ++ [event]) =
          lowered proposalId .deployed events + lowering proposalId (run step .deployed events) event := by
        simp [lowered, journal_append, journal]
      omega

/-- Ten units vote, are moved to another address and vote again. -/
def stakeVotesTwice : List (Event Nat) :=
  [⟨[0], .initializeGovernor 0 0⟩, ⟨[0], .setStake 0 1 10⟩, ⟨[1], .propose 1 "fee" .setFeeBps 120⟩,
    ⟨[1], .castVote 1 1 true⟩, ⟨[0], .setStake 0 1 0⟩, ⟨[0], .setStake 0 2 10⟩, ⟨[2], .castVote 2 1 true⟩]

/-- The proposal at the end. -/
def votedTwice : Proposal Nat := ⟨1, 1, "fee", .setFeeBps, 120, .active, 20, 0⟩

theorem stakeVotesTwice_within :
    lowered 1 .deployed stakeVotesTwice = 10 ∧
      votedTwice.forVotes + votedTwice.againstVotes ≤ 10 + lowered 1 .deployed stakeVotesTwice :=
  ⟨by decide +kernel, tallies_within_stake 1 10 stakeVotesTwice (by decide +kernel) votedTwice (by decide +kernel)⟩

/-- All stakes together are never above ten, and the proposal has twenty votes. -/
theorem stakeVotesTwice_exceeds_stake :
    Always step (fun w => totalStake w ≤ 10) .deployed stakeVotesTwice ∧
      (run step .deployed stakeVotesTwice).proposals.lookup 1 = some votedTwice ∧
      ¬ ∀ (proposalId : Nat) (limit : Int) (events : List (Event Nat)),
        Always step (fun w => isAlive w proposalId → totalStake w ≤ limit) .deployed events →
        ∀ proposal, (run step .deployed events).proposals.lookup proposalId = some proposal →
          proposal.forVotes + proposal.againstVotes ≤ limit := by
  have stored : (run step .deployed stakeVotesTwice).proposals.lookup 1 = some votedTwice := by decide +kernel
  refine ⟨by decide +kernel, stored, fun claim => ?_⟩
  have bound := claim 1 10 stakeVotesTwice (by decide +kernel) votedTwice stored
  exact absurd bound (by decide)

end AfroPay.Governor
