import AfroPay.GovernorSteps

/-! What the governor's records mean: tallies are sums of the stakes voted
with, closed proposals stay closed, and the configuration follows from the
executions. -/
namespace AfroPay.Governor
open Panics KeyedStore Runs

variable {Address : Type} [DecidableEq Address]

/-- The stake of an entry that is the vote of this address on this proposal. -/
def voteStake (key : Nat × Address) : Entry Address → Option Int
  | .vote proposalId voter _ stake => if (proposalId, voter) = key then some stake else none
  | .execution .. => none

/-- The stake an address had when it voted on a proposal. -/
def stakeWhenVoting (log : List (Entry Address)) (key : Nat × Address) : Int :=
  (log.findSome? (voteStake key)).getD 0

/-- The stakes of the recorded votes of one kind on a proposal, each as it was when voting. -/
def votedStake (w : World Address) (log : List (Entry Address)) (proposalId : Nat) (status : VoteStatus) : Int :=
  total w.votes fun key recorded =>
    if key.1 = proposalId ∧ recorded = status then stakeWhenVoting log key else 0

def isVoteOf (proposalId : Nat) (voter : Address) : Entry Address → Bool
  | .vote id address _ _ => id = proposalId ∧ address = voter
  | .execution .. => false

def isExecutionOf (proposalId : Nat) : Entry Address → Bool
  | .vote .. => false
  | .execution id _ _ _ => id = proposalId

/-- The fee after one more entry of the history. -/
def latestFee (fee : Nat) : Entry Address → Nat
  | .execution _ _ .setFeeBps value => value
  | _ => fee

def Proposal.addedPair (proposal : Proposal Address) : Bool :=
  proposal.state = .executed ∧ proposal.action = .addAmmPair

/-- The records against the history. -/
structure Ledger (w : World Address) (log : List (Entry Address)) : Prop where
  tallies : ∀ proposalId proposal, w.proposals.lookup proposalId = some proposal →
    proposal.forVotes = votedStake w log proposalId .votedFor ∧
      proposal.againstVotes = votedStake w log proposalId .votedAgainst
  recorded : ∀ proposalId voter status, w.votes.lookup (proposalId, voter) = some status ↔
    ∃ support stake, status = voteStatus support ∧ Entry.vote proposalId voter support stake ∈ log
  countedOnce : ∀ proposalId voter, log.countP (isVoteOf proposalId voter) ≤ 1
  executedOnce : ∀ proposalId, log.countP (isExecutionOf proposalId) =
    (w.proposals.lookup proposalId).elim 0 fun proposal => if proposal.state = .executed then 1 else 0
  executions : ∀ proposalId caller action value, Entry.execution proposalId caller action value ∈ log →
    ∃ proposal, w.proposals.lookup proposalId = some proposal ∧ proposal.action = action ∧ proposal.value = value
  feeBps : getFeeBps w = log.foldl latestFee defaultFeeBps
  ammPairs : getAmmPairCount w = w.proposals.entries.countP fun entry => entry.2.addedPair

/-- The ledger together with what its preservation needs: ids come from the
counter, and before `initialize` nobody has a stake. -/
structure Sound (w : World Address) (log : List (Entry Address)) : Prop where
  ledger : Ledger w log
  counted : ∀ proposalId proposal, w.proposals.lookup proposalId = some proposal →
    proposalId ≤ w.proposalCount.getD 0
  votedOn : ∀ proposalId voter support stake, Entry.vote proposalId voter support stake ∈ log →
    ∃ proposal, w.proposals.lookup proposalId = some proposal
  unset : w.admin = none → log = [] ∧ w.stakes = ∅ ∧
    ∀ proposalId proposal, w.proposals.lookup proposalId = some proposal → proposal.state = .pending

section Entries
variable {w : World Address} {log : List (Entry Address)} {key : Nat × Address}

private theorem stakeWhenVoting_recorded (later : List (Entry Address)) {support : Bool} {stake : Int}
    (voted : Entry.vote key.1 key.2 support stake ∈ log) :
    stakeWhenVoting (log ++ later) key = stakeWhenVoting log key := by
  have found : (log.findSome? (voteStake key)).isSome :=
    List.findSome?_isSome_iff.mpr ⟨_, voted, by simp [voteStake]⟩
  obtain ⟨held, found⟩ := Option.isSome_iff_exists.mp found
  simp [stakeWhenVoting, List.findSome?_append, found]

private theorem stakeWhenVoting_new {support : Bool} {stake : Int}
    (unvoted : ∀ support stake, Entry.vote key.1 key.2 support stake ∉ log) :
    stakeWhenVoting (log ++ [.vote key.1 key.2 support stake]) key = stake := by
  have absent : log.findSome? (voteStake key) = none := by
    rw [List.findSome?_eq_none_iff]
    intro entry member
    cases entry with
    | execution => rfl
    | vote id voter support stake =>
      have other : (id, voter) ≠ key := by
        rintro rfl
        exact unvoted support stake member
      simp [voteStake, other]
  simp [stakeWhenVoting, List.findSome?_append, absent, voteStake]

/-- A vote that nobody recorded yet adds its stake to its own tally only. -/
private theorem votedStake_vote (ledger : Ledger w log) {proposalId : Nat} {voter : Address}
    (unvoted : w.votes.lookup (proposalId, voter) = none) (support : Bool) (stake : Int)
    (proposals : Store Nat (Proposal Address)) (other : Nat) (status : VoteStatus) :
    votedStake { w with proposals, votes := w.votes.insert (proposalId, voter) (voteStatus support) }
        (log ++ [.vote proposalId voter support stake]) other status =
      votedStake w log other status + if proposalId = other ∧ voteStatus support = status then stake else 0 := by
  have absent : ∀ support stake, Entry.vote proposalId voter support stake ∉ log := by
    intro support stake member
    have held := (ledger.recorded proposalId voter (voteStatus support)).mpr ⟨support, stake, rfl, member⟩
    simp [unvoted] at held
  have new := @stakeWhenVoting_new Address _ log (proposalId, voter) support stake absent
  unfold votedStake
  rw [total_insert, contribution_none unvoted, sub_zero]
  simp only [new]
  congr 1
  apply total_congr
  rintro ⟨id, address⟩ recorded held
  obtain ⟨support', stake', -, member⟩ := (ledger.recorded id address recorded).mp held
  rw [stakeWhenVoting_recorded _ member]

/-- Executions do not change what was voted. -/
private theorem votedStake_execution (ledger : Ledger w log) {after : World Address} (votes : after.votes = w.votes)
    (proposalId : Nat) (caller : Address) (action : ProposalAction) (value other : Nat) (status : VoteStatus) :
    votedStake after (log ++ [.execution proposalId caller action value]) other status =
      votedStake w log other status := by
  unfold votedStake
  rw [votes]
  apply total_congr
  rintro ⟨id, address⟩ recorded held
  obtain ⟨support, stake, -, member⟩ := (ledger.recorded id address recorded).mp held
  rw [stakeWhenVoting_recorded _ member]

end Entries

omit [DecidableEq Address] in
/-- Replacing a proposal by one that is executed or not as before keeps the count of added pairs. -/
private theorem addedPairs_insert (proposals : Store Nat (Proposal Address)) (proposalId : Nat)
    (proposal : Proposal Address) (same : proposal.addedPair =
      (proposals.lookup proposalId).elim false Proposal.addedPair) :
    ((proposals.insert proposalId proposal).entries.countP fun entry => entry.2.addedPair) =
      proposals.entries.countP fun entry => entry.2.addedPair := by
  have counted := countP_insert proposals (fun entry => entry.2.addedPair) proposalId proposal
  simp only [same] at counted
  cases found : proposals.lookup proposalId with
  | none =>
    simp only [found, Option.elim_none, Bool.false_eq_true, ↓reduceIte] at counted
    omega
  | some held =>
    simp only [found, Option.elim_some] at counted
    omega

omit [DecidableEq Address] in
private theorem addedPairs_executed (proposals : Store Nat (Proposal Address)) (proposalId : Nat)
    (proposal : Proposal Address) (found : proposals.lookup proposalId = some proposal)
    (active : proposal.state = .active) :
    ((proposals.insert proposalId { proposal with state := .executed }).entries.countP fun entry =>
        entry.2.addedPair) =
      (proposals.entries.countP fun entry => entry.2.addedPair) +
        if proposal.action = .addAmmPair then 1 else 0 := by
  have counted := countP_insert proposals (fun entry => entry.2.addedPair) proposalId
    { proposal with state := .executed }
  have before : proposal.addedPair = false := by simp [Proposal.addedPair, active]
  have now : ({ proposal with state := .executed } : Proposal Address).addedPair =
      decide (proposal.action = .addAmmPair) := by simp [Proposal.addedPair]
  simp only [found, Option.elim_some, before, now, Bool.false_eq_true, ↓reduceIte, decide_eq_true_eq] at counted
  split
  · next added =>
    rw [if_pos added] at counted
    omega
  · next other =>
    rw [if_neg other] at counted
    omega

private theorem sound_proposed {w : World Address} {log : List (Entry Address)} (sound : Sound w log)
    (proposer : Address) (description : String) (action : ProposalAction) (value : Nat) :
    Sound { w with
      proposalCount := some (w.proposalCount.getD 0 + 1)
      proposals := w.proposals.insert (w.proposalCount.getD 0 + 1)
        ⟨w.proposalCount.getD 0 + 1, proposer, description, action, value, .pending, 0, 0⟩ } log := by
  obtain ⟨ledger, counted, votedOn, unset⟩ := sound
  set id := w.proposalCount.getD 0 + 1 with next
  have fresh : w.proposals.lookup id = none := by
    cases found : w.proposals.lookup id with
    | none => rfl
    | some proposal =>
      have bound := counted id proposal found
      omega
  have unvoted : ∀ status, votedStake w log id status = 0 := by
    intro status
    have zero : votedStake w log id status = total w.votes fun _ _ => 0 := by
      apply total_congr
      rintro ⟨proposalId, voter⟩ recorded held
      obtain ⟨support, stake, -, member⟩ := (ledger.recorded proposalId voter recorded).mp held
      obtain ⟨proposal, found⟩ := votedOn proposalId voter support stake member
      have other : proposalId ≠ id := by
        rintro rfl
        rw [fresh] at found
        cases found
      simp [other]
    simpa [total] using zero
  have elsewhere : ∀ {other : Nat} {proposal : Proposal Address}, w.proposals.lookup other = some proposal →
      other ≠ id := by
    rintro other proposal found rfl
    rw [fresh] at found
    cases found
  refine ⟨⟨?_, ledger.recorded, ledger.countedOnce, ?_, ?_, ledger.feeBps, ?_⟩, ?_, ?_, ?_⟩
  · intro other proposal found
    rcases lookup_insert_some.mp found with ⟨rfl, rfl⟩ | ⟨-, found⟩
    · exact ⟨(unvoted .votedFor).symm, (unvoted .votedAgainst).symm⟩
    · exact ledger.tallies other proposal found
  · intro other
    by_cases same : other = id
    · subst same
      have none' := ledger.executedOnce id
      rw [fresh] at none'
      simpa using none'
    · simpa [AList.lookup_insert_ne same] using ledger.executedOnce other
  · intro other caller action value member
    obtain ⟨proposal, found, rest⟩ := ledger.executions other caller action value member
    exact ⟨proposal, by simpa [AList.lookup_insert_ne (elsewhere found)] using found, rest⟩
  · rw [addedPairs_insert _ _ _ (by simp [fresh, Proposal.addedPair])]
    exact ledger.ammPairs
  · intro other proposal found
    rcases lookup_insert_some.mp found with ⟨rfl, -⟩ | ⟨-, found⟩
    · simp
    · have bound := counted other proposal found
      simp
      omega
  · intro other voter support stake member
    obtain ⟨proposal, found⟩ := votedOn other voter support stake member
    exact ⟨proposal, by simpa [AList.lookup_insert_ne (elsewhere found)] using found⟩
  · intro absent
    obtain ⟨empty, unstaked, pending⟩ := unset absent
    refine ⟨empty, unstaked, fun other proposal found => ?_⟩
    rcases lookup_insert_some.mp found with ⟨-, rfl⟩ | ⟨-, found⟩
    · rfl
    · exact pending other proposal found

section Replaced
variable {w : World Address} {log : List (Entry Address)} {id : Nat} {held : Proposal Address}

omit [DecidableEq Address] in
/-- A stored id stays stored when its proposal is replaced. -/
private theorem stored_insert (found : w.proposals.lookup id = some held) {other : Nat}
    (stored : ∃ proposal, w.proposals.lookup other = some proposal) (new : Proposal Address) :
    ∃ proposal, (w.proposals.insert id new).lookup other = some proposal := by
  by_cases same : other = id
  · subst same
    exact ⟨new, AList.lookup_insert _⟩
  · rwa [AList.lookup_insert_ne same]

/-- So do the executed action and value, when the new proposal keeps them. -/
private theorem executions_insert (ledger : Ledger w log) (found : w.proposals.lookup id = some held)
    (new : Proposal Address) (action : new.action = held.action) (value : new.value = held.value) {other : Nat}
    {caller : Address} {done : ProposalAction} {set : Nat} (member : Entry.execution other caller done set ∈ log) :
    ∃ stored, (w.proposals.insert id new).lookup other = some stored ∧ stored.action = done ∧
      stored.value = set := by
  obtain ⟨stored, lookup, rest⟩ := ledger.executions other caller done set member
  by_cases same : other = id
  · subst same
    rw [found] at lookup
    cases lookup
    exact ⟨new, AList.lookup_insert _, by rw [action]; exact rest.1, by rw [value]; exact rest.2⟩
  · exact ⟨stored, by rwa [AList.lookup_insert_ne same], rest⟩

/-- An open proposal has no execution; a new record counts for itself only. -/
private theorem executedOnce_insert (ledger : Ledger w log) (found : w.proposals.lookup id = some held)
    (opened : held.state ≠ .executed) (new : Proposal Address) (other : Nat) :
    (log.countP (isExecutionOf other) + if id = other ∧ new.state = .executed then 1 else 0) =
      ((w.proposals.insert id new).lookup other).elim 0 fun proposal =>
        if proposal.state = .executed then 1 else 0 := by
  rw [ledger.executedOnce other]
  by_cases same : id = other
  · subst same
    simp [found, opened]
  · simp [AList.lookup_insert_ne (Ne.symm same), same]

private theorem counted_insert (sound : Sound w log) (found : w.proposals.lookup id = some held) {other : Nat}
    {new stored : Proposal Address} (lookup : (w.proposals.insert id new).lookup other = some stored) :
    other ≤ w.proposalCount.getD 0 := by
  rcases lookup_insert_some.mp lookup with ⟨rfl, -⟩ | ⟨-, lookup⟩
  · exact sound.counted other held found
  · exact sound.counted other stored lookup

private theorem sound_voted (sound : Sound w log) {voter : Address} (found : w.proposals.lookup id = some held)
    (opened : held.state = .pending ∨ held.state = .active) (unvoted : w.votes.lookup (id, voter) = none)
    (positive : 0 < getStake w voter) (support : Bool) :
    Sound { w with
      proposals := w.proposals.insert id (held.voted support (getStake w voter))
      votes := w.votes.insert (id, voter) (voteStatus support) }
      (log ++ [.vote id voter support (getStake w voter)]) := by
  have ledger := sound.ledger
  have absent : ∀ support stake, Entry.vote id voter support stake ∉ log := by
    intro support stake member
    have recorded := (ledger.recorded id voter (voteStatus support)).mpr ⟨support, stake, rfl, member⟩
    simp [unvoted] at recorded
  refine ⟨⟨?_, ?_, ?_, ?_, ?_, ?_, ?_⟩, ?_, ?_, ?_⟩
  · intro other proposal lookup
    rw [votedStake_vote ledger unvoted, votedStake_vote ledger unvoted]
    rcases lookup_insert_some.mp lookup with ⟨rfl, rfl⟩ | ⟨distinct, lookup⟩
    · obtain ⟨forVotes, againstVotes⟩ := ledger.tallies other held found
      cases support <;> simp [Proposal.voted, voteStatus, forVotes, againstVotes]
    · simpa [Ne.symm distinct] using ledger.tallies other proposal lookup
  · intro other address status
    rw [lookup_insert_some, ledger.recorded, Prod.mk.injEq]
    constructor
    · rintro (⟨⟨rfl, rfl⟩, rfl⟩ | ⟨-, support', stake, rfl, member⟩)
      · exact ⟨support, getStake w address, rfl, by simp⟩
      · exact ⟨support', stake, rfl, List.mem_append_left _ member⟩
    · rintro ⟨support', stake, rfl, member⟩
      rcases List.mem_append.mp member with older | newest
      · refine .inr ⟨fun same => ?_, support', stake, rfl, older⟩
        obtain ⟨rfl, rfl⟩ := Prod.mk.inj same
        exact absent support' stake older
      · cases List.mem_singleton.mp newest
        exact .inl ⟨⟨rfl, rfl⟩, rfl⟩
  · intro other address
    have before := ledger.countedOnce other address
    by_cases same : id = other ∧ voter = address
    · obtain ⟨rfl, rfl⟩ := same
      have zero : log.countP (isVoteOf id voter) = 0 := by
        rw [List.countP_eq_zero]
        intro entry member
        cases entry <;> simp [isVoteOf]
        rintro rfl rfl
        exact absent _ _ member
      simp [zero, isVoteOf]
    · simp only [List.countP_append]
      simpa [isVoteOf, same] using before
  · intro other
    have unexecuted : held.state ≠ .executed := by rcases opened with state | state <;> simp [state]
    have once := executedOnce_insert ledger found unexecuted (held.voted support (getStake w voter)) other
    simpa [isExecutionOf, Proposal.voted] using once
  · intro other caller action value member
    have member : Entry.execution other caller action value ∈ log := by simpa using member
    exact executions_insert ledger found (held.voted support (getStake w voter)) rfl rfl member
  · rw [List.foldl_append]
    exact ledger.feeBps
  · rw [addedPairs_insert]
    · exact ledger.ammPairs
    · rcases opened with state | state <;> simp [found, Proposal.addedPair, Proposal.voted, state]
  · exact fun other proposal lookup => counted_insert sound found lookup
  · intro other address support' stake member
    apply stored_insert found
    rcases List.mem_append.mp member with member | member
    · exact sound.votedOn other address support' stake member
    · cases List.mem_singleton.mp member
      exact ⟨held, found⟩
  · intro unset
    obtain ⟨-, unstaked, -⟩ := sound.unset unset
    simp [getStake, unstaked] at positive

private theorem sound_defeated (sound : Sound w log) (found : w.proposals.lookup id = some held)
    (active : held.state = .active) (set : w.admin.isSome) :
    Sound { w with proposals := w.proposals.insert id { held with state := .defeated } } log := by
  have ledger := sound.ledger
  have unexecuted : held.state ≠ .executed := by simp [active]
  refine ⟨⟨?_, ledger.recorded, ledger.countedOnce, ?_, ?_, ledger.feeBps, ?_⟩, ?_, ?_, ?_⟩
  · intro other proposal lookup
    rcases lookup_insert_some.mp lookup with ⟨rfl, rfl⟩ | ⟨-, lookup⟩
    · exact ledger.tallies other held found
    · exact ledger.tallies other proposal lookup
  · intro other
    simpa using executedOnce_insert ledger found unexecuted { held with state := .defeated } other
  · intro other caller action value member
    exact executions_insert ledger found { held with state := .defeated } rfl rfl member
  · rw [addedPairs_insert _ _ _ (by simp [found, Proposal.addedPair, active])]
    exact ledger.ammPairs
  · exact fun other proposal lookup => counted_insert sound found lookup
  · exact fun other voter support stake member =>
      stored_insert found (sound.votedOn other voter support stake member) _
  · intro unset
    change w.admin = none at unset
    simp [unset] at set

private theorem sound_executed (sound : Sound w log) {after : World Address} (caller : Address)
    (found : w.proposals.lookup id = some held) (active : held.state = .active) (set : w.admin.isSome)
    (configured : Configured w after held)
    (rest : after = { w with
      feeBps := after.feeBps
      ammPairCount := after.ammPairCount
      proposals := w.proposals.insert id { held with state := .executed } }) :
    Sound after (log ++ [.execution id caller held.action held.value]) := by
  have ledger := sound.ledger
  have unexecuted : held.state ≠ .executed := by simp [active]
  have votes : after.votes = w.votes := by rw [rest]
  have proposals : after.proposals = w.proposals.insert id { held with state := .executed } := by rw [rest]
  refine ⟨⟨?_, ?_, ?_, ?_, ?_, ?_, ?_⟩, ?_, ?_, ?_⟩
  · intro other proposal lookup
    rw [votedStake_execution ledger votes, votedStake_execution ledger votes]
    rw [proposals] at lookup
    rcases lookup_insert_some.mp lookup with ⟨rfl, rfl⟩ | ⟨-, lookup⟩
    · exact ledger.tallies other held found
    · exact ledger.tallies other proposal lookup
  · intro other voter status
    rw [votes, ledger.recorded]
    simp
  · intro other voter
    simpa [isVoteOf] using ledger.countedOnce other voter
  · intro other
    rw [proposals, ← executedOnce_insert ledger found unexecuted { held with state := .executed } other]
    simp [isExecutionOf, List.countP_cons]
  · intro other caller' action value member
    rw [proposals]
    rcases List.mem_append.mp member with older | newest
    · exact executions_insert ledger found { held with state := .executed } rfl rfl older
    · cases List.mem_singleton.mp newest
      exact ⟨_, AList.lookup_insert _, rfl, rfl⟩
  · have fee := ledger.feeBps
    rw [List.foldl_append, ← fee]
    cases action : held.action <;> simp only [Configured, action] at configured <;>
      simp [getFeeBps, latestFee, configured.1]
  · have pairs := ledger.ammPairs
    rw [proposals, addedPairs_executed _ _ _ found active, ← pairs]
    cases action : held.action <;> simp only [Configured, action] at configured <;>
      simp [getAmmPairCount, configured.2]
  · intro other proposal lookup
    rw [proposals] at lookup
    rw [rest]
    exact counted_insert sound found lookup
  · intro other voter support stake member
    rw [proposals]
    have older : Entry.vote other voter support stake ∈ log := by simpa using member
    exact stored_insert found (sound.votedOn other voter support stake older) _
  · intro unset
    rw [rest] at unset
    change w.admin = none at unset
    simp [unset] at set

end Replaced

/-- Allowlist, storage version and stakes do not enter the records. -/
private theorem sound_frame {w : World Address} {log : List (Entry Address)} (sound : Sound w log)
    (executors : Option (Store Address Bool)) (storageVersion : Option Nat) (stakes : Store Address Int)
    (unstaked : w.admin = none → stakes = w.stakes) : Sound { w with executors, storageVersion, stakes } log := by
  obtain ⟨⟨tallies, recorded, countedOnce, executedOnce, executions, feeBps, ammPairs⟩, counted, votedOn, unset⟩ :=
    sound
  refine ⟨⟨tallies, recorded, countedOnce, executedOnce, executions, feeBps, ammPairs⟩, counted, votedOn, ?_⟩
  intro absent
  obtain ⟨empty, none', pending⟩ := unset absent
  exact ⟨empty, (unstaked absent).trans none', pending⟩

private theorem sound_initialized (admin : Address) (threshold : Int) :
    Sound ⟨some admin, some threshold, some 0, ∅, ∅, ∅, some defaultFeeBps, some 0, some storageVersionCurrent,
      some ∅⟩ [] := by
  refine ⟨⟨?_, ?_, ?_, ?_, ?_, rfl, rfl⟩, ?_, ?_, ?_⟩ <;> simp

/-- Every event keeps the records true to the history. -/
private theorem sound_step (w : World Address) (log : List (Entry Address)) (event : Event Address)
    (sound : Sound w log) : Sound (step w event) (log ++ (entry w event).toList) := by
  have changes := step_changes w event
  revert changes
  generalize step w event = after
  generalize entry w event = added
  intro changes
  cases changes with
  | quiet executors storageVersion =>
    rw [Option.toList_none, List.append_nil]
    exact sound_frame sound executors storageVersion w.stakes fun _ => rfl
  | initialized admin threshold unset =>
    obtain ⟨rfl, -, -⟩ := sound.unset unset
    exact sound_initialized admin threshold
  | staked voter amount set nonneg call =>
    rw [Option.toList_none, List.append_nil]
    refine sound_frame sound w.executors w.storageVersion (w.stakes.insert voter amount) fun unset => ?_
    simp [unset] at set
  | proposed proposer description action value =>
    rw [Option.toList_none, List.append_nil]
    exact sound_proposed sound proposer description action value
  | voted proposalId voter support proposal found opened unvoted positive =>
    exact sound_voted sound found opened unvoted positive support
  | defeated proposalId proposal found active set lost =>
    rw [Option.toList_none, List.append_nil]
    exact sound_defeated sound found active set
  | executed proposalId caller proposal after found active set signed entitled won configured rest =>
    exact sound_executed sound caller found active set configured rest

private theorem sound_run (events : List (Event Address)) :
    Sound (run step .deployed events) (journal step entry .deployed events) := by
  apply journal_invariant Sound sound_step
  refine ⟨⟨?_, ?_, ?_, ?_, ?_, rfl, rfl⟩, ?_, ?_, ?_⟩ <;> simp [World.deployed]

/-- Executed and defeated proposals. -/
def Proposal.Closed (proposal : Proposal Address) : Prop :=
  proposal.state = .executed ∨ proposal.state = .defeated

/-- How one event may change a proposal: not at all, by a vote while it is open,
or by closing it. -/
inductive Moves (proposal : Proposal Address) : Proposal Address → Prop
  | stays : Moves proposal proposal
  | activated (support stake) (pending : proposal.state = .pending) : Moves proposal (proposal.voted support stake)
  | counted (support stake) (active : proposal.state = .active) : Moves proposal (proposal.voted support stake)
  | defeated (active : proposal.state = .active) (lost : proposal.forVotes ≤ proposal.againstVotes) :
    Moves proposal { proposal with state := .defeated }
  | executed (active : proposal.state = .active) (won : proposal.againstVotes < proposal.forVotes) :
    Moves proposal { proposal with state := .executed }

/-- What one event may do to proposals and votes, and who executes. -/
structure Lawful (w : World Address) (event : Event Address) : Prop where
  /-- Only `initialize` forgets proposals, and only ones that nobody voted on. -/
  moves : ∀ proposalId proposal, w.proposals.lookup proposalId = some proposal →
    (∃ after, (step w event).proposals.lookup proposalId = some after ∧ Moves proposal after) ∨
      w.admin = none ∧ (step w event).admin.isSome ∧ proposal.state = .pending
  created : ∀ proposalId proposal, w.proposals.lookup proposalId = none →
    (step w event).proposals.lookup proposalId = some proposal →
      proposal.state = .pending ∧ proposal.forVotes = 0 ∧ proposal.againstVotes = 0
  closedVotes : ∀ proposalId proposal voter, w.proposals.lookup proposalId = some proposal → proposal.Closed →
    (step w event).votes.lookup (proposalId, voter) = w.votes.lookup (proposalId, voter)
  executes : ∀ proposalId caller action value,
    entry w event = some (.execution proposalId caller action value) → caller ∈ event.auths ∧
      ∃ proposal, w.proposals.lookup proposalId = some proposal ∧ MayExecute w caller proposal ∧
        proposal.state = .active ∧ proposal.againstVotes < proposal.forVotes

section Steps
variable {w after : World Address} {event : Event Address} {added : Option (Entry Address)} {id proposalId : Nat}
  {held new proposal : Proposal Address}

omit [DecidableEq Address] in
/-- Replacing one proposal by a permitted change of it moves every proposal. -/
private theorem moves_insert {proposals : Store Nat (Proposal Address)} (found : proposals.lookup id = some held)
    (moves : Moves held new) (lookup : proposals.lookup proposalId = some proposal) :
    ∃ after, (proposals.insert id new).lookup proposalId = some after ∧ Moves proposal after := by
  by_cases same : proposalId = id
  · subst same
    rw [found] at lookup
    cases lookup
    exact ⟨new, AList.lookup_insert _, moves⟩
  · exact ⟨proposal, by rwa [AList.lookup_insert_ne same], .stays⟩

omit [DecidableEq Address] in
private theorem stored_of_insert {proposals : Store Nat (Proposal Address)} (found : proposals.lookup id = some held)
    (lookup : (proposals.insert id new).lookup proposalId = some proposal) :
    proposals.lookup proposalId ≠ none := by
  rcases lookup_insert_some.mp lookup with ⟨rfl, -⟩ | ⟨-, lookup⟩
  · simp [found]
  · simp [lookup]

private theorem changes_moves {log : List (Entry Address)} (sound : Sound w log)
    (changes : Changes w event after added) (lookup : w.proposals.lookup proposalId = some proposal) :
    (∃ later, after.proposals.lookup proposalId = some later ∧ Moves proposal later) ∨
      w.admin = none ∧ after.admin.isSome ∧ proposal.state = .pending := by
  cases changes with
  | quiet executors storageVersion => exact .inl ⟨proposal, lookup, .stays⟩
  | initialized admin threshold unset =>
    obtain ⟨-, -, pending⟩ := sound.unset unset
    exact .inr ⟨unset, rfl, pending proposalId proposal lookup⟩
  | staked voter amount set nonneg call => exact .inl ⟨proposal, lookup, .stays⟩
  | proposed proposer description action value =>
    have older : proposalId ≠ w.proposalCount.getD 0 + 1 := by
      have bound := sound.counted proposalId proposal lookup
      omega
    exact .inl ⟨proposal, by simpa [AList.lookup_insert_ne older] using lookup, .stays⟩
  | voted id voter support held found opened unvoted positive =>
    rcases opened with pending | active
    · exact .inl (moves_insert found (.activated support (getStake w voter) pending) lookup)
    · exact .inl (moves_insert found (.counted support (getStake w voter) active) lookup)
  | defeated id held found active set lost => exact .inl (moves_insert found (.defeated active lost) lookup)
  | executed id caller held _ found active set signed entitled won configured rest =>
    rw [rest]
    exact .inl (moves_insert found (.executed active won) lookup)

private theorem changes_created (changes : Changes w event after added)
    (absent : w.proposals.lookup proposalId = none) (lookup : after.proposals.lookup proposalId = some proposal) :
    proposal.state = .pending ∧ proposal.forVotes = 0 ∧ proposal.againstVotes = 0 := by
  cases changes with
  | quiet executors storageVersion => simp [absent] at lookup
  | initialized admin threshold unset => simp at lookup
  | staked voter amount set nonneg call => simp [absent] at lookup
  | proposed proposer description action value =>
    rcases lookup_insert_some.mp lookup with ⟨-, rfl⟩ | ⟨-, lookup⟩
    · exact ⟨rfl, rfl, rfl⟩
    · simp [absent] at lookup
  | voted id voter support held found opened unvoted positive =>
    exact absurd absent (stored_of_insert found lookup)
  | defeated id held found active set lost => exact absurd absent (stored_of_insert found lookup)
  | executed id caller held _ found active set signed entitled won configured rest =>
    rw [rest] at lookup
    exact absurd absent (stored_of_insert found lookup)

private theorem changes_closedVotes {log : List (Entry Address)} (sound : Sound w log)
    (changes : Changes w event after added) (voter : Address)
    (lookup : w.proposals.lookup proposalId = some proposal) (closed : proposal.Closed) :
    after.votes.lookup (proposalId, voter) = w.votes.lookup (proposalId, voter) := by
  cases changes with
  | quiet executors storageVersion => rfl
  | initialized admin threshold unset =>
    obtain ⟨-, -, pending⟩ := sound.unset unset
    have state := pending proposalId proposal lookup
    simp [Proposal.Closed, state] at closed
  | staked voter amount set nonneg call => rfl
  | proposed proposer description action value => rfl
  | voted id address support held found opened unvoted positive =>
    have distinct : proposalId ≠ id := by
      rintro rfl
      rw [found] at lookup
      cases lookup
      rcases opened with state | state <;> simp [Proposal.Closed, state] at closed
    exact AList.lookup_insert_ne fun same => distinct (Prod.mk.inj same).1
  | defeated id held found active set lost => rfl
  | executed id caller held _ found active set signed entitled won configured rest => rw [rest]

private theorem changes_executes {caller : Address} {action : ProposalAction} {value : Nat}
    (changes : Changes w event after (some (.execution proposalId caller action value))) :
    caller ∈ event.auths ∧ ∃ proposal, w.proposals.lookup proposalId = some proposal ∧
      MayExecute w caller proposal ∧ proposal.state = .active ∧ proposal.againstVotes < proposal.forVotes := by
  cases changes with
  | executed _ _ held _ found active set signed entitled won configured rest =>
    exact ⟨signed, held, found, entitled, active, won⟩

private theorem lawful_step {log : List (Entry Address)} (sound : Sound w log) (event : Event Address) :
    Lawful w event where
  moves _ _ lookup := changes_moves sound (step_changes w event) lookup
  created _ _ absent lookup := changes_created (step_changes w event) absent lookup
  closedVotes _ _ voter lookup closed := changes_closedVotes sound (step_changes w event) voter lookup closed
  executes _ _ _ _ executes := changes_executes (executes ▸ step_changes w event)

/-- A closed proposal and its votes are the same after every lawful event. -/
private theorem closed_step (lawful : Lawful w event) (closed : proposal.Closed)
    (lookup : w.proposals.lookup proposalId = some proposal) :
    (step w event).proposals.lookup proposalId = some proposal ∧
      ∀ voter, (step w event).votes.lookup (proposalId, voter) = w.votes.lookup (proposalId, voter) := by
  refine ⟨?_, fun voter => lawful.closedVotes proposalId proposal voter lookup closed⟩
  rcases lawful.moves proposalId proposal lookup with ⟨later, found, moves⟩ | ⟨-, -, pending⟩
  · cases moves with
    | stays => exact found
    | activated support stake state => simp [Proposal.Closed, state] at closed
    | counted support stake state => simp [Proposal.Closed, state] at closed
    | defeated state lost => simp [Proposal.Closed, state] at closed
    | executed state won => simp [Proposal.Closed, state] at closed
  · simp [Proposal.Closed, pending] at closed

private theorem closed_run {events : List (Event Address)} (lawful : Throughout step Lawful w events)
    (closed : proposal.Closed) (lookup : w.proposals.lookup proposalId = some proposal) :
    (run step w events).proposals.lookup proposalId = some proposal ∧
      ∀ voter, (run step w events).votes.lookup (proposalId, voter) = w.votes.lookup (proposalId, voter) := by
  refine run_invariant_of (fun later => later.proposals.lookup proposalId = some proposal ∧
    ∀ voter, later.votes.lookup (proposalId, voter) = w.votes.lookup (proposalId, voter)) ?_
    ⟨lookup, fun _ => rfl⟩ lawful
  rintro later event ⟨found, votes⟩ here
  obtain ⟨still, same⟩ := closed_step here closed found
  exact ⟨still, fun voter => (same voter).trans (votes voter)⟩

end Steps

/-- In every run of the governor the records agree with the history, every
event is lawful, and closed proposals keep their record and their votes. -/
theorem governor_ledger (events : List (Event Address)) :
    Ledger (run step .deployed events) (journal step entry .deployed events) ∧
      Throughout step Lawful .deployed events ∧
      ∀ before later : List (Event Address), events = before ++ later → ∀ proposalId proposal,
        (run step .deployed before).proposals.lookup proposalId = some proposal → proposal.Closed →
        (run step .deployed events).proposals.lookup proposalId = some proposal ∧
          ∀ voter, (run step .deployed events).votes.lookup (proposalId, voter) =
            (run step .deployed before).votes.lookup (proposalId, voter) := by
  have lawful : Throughout step Lawful .deployed events := by
    apply throughout_of_at
    intro before event after split
    exact lawful_step (sound_run before) event
  refine ⟨(sound_run events).ledger, lawful, ?_⟩
  rintro before later rfl proposalId proposal lookup closed
  rw [run_append]
  exact closed_run ((throughout_append _ before later).mp lawful).2 closed lookup

end AfroPay.Governor
