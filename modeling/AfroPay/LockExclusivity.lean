import AfroPay.LockService

/-! What a call of `withLock` may conclude from its end. A call whose release found its
own token has held the lease all along, so nobody acquired the key in between. Work that
outlives its lease goes on running beside the next holder: the lease cannot stop it. -/
namespace AfroPay.LockService
open KeyedStore LeaseStore Runs

/-- Everything an event can do for its call: the leases it leaves and the call after it. -/
inductive Moves (s : State) (id : Nat) (call : Call) : Store String (Lease Nat) → Call → Prop where
  | stays (next : Call) (key : next.key = call.key) (phase : next.phase = call.phase) :
      Moves s id call s.leases next
  | prolongs (next : Call) (key : next.key = call.key) (phase : next.phase = call.phase) :
      Moves s id call (LeaseStore.extend s.leases s.now call.key id call.ttlMs).2 next
  | grants (acquiring : call.phase = .acquiring)
      (granted : (setNx s.leases s.now call.key id call.ttlMs).1 = true) :
      Moves s id call (setNx s.leases s.now call.key id call.ttlMs).2 (call.become .acquired)
  | refuses (acquiring : call.phase = .acquiring) : Moves s id call s.leases (call.become .refused)
  | starts (acquired : call.phase = .acquired) :
      Moves s id call s.leases { call with phase := .working, heartbeat := .sleeping }
  | ends (working : call.phase = .working) (threw : Bool) : Moves s id call s.leases (call.become (.releasing threw))
  | releases (threw : Bool) (releasing : call.phase = .releasing threw) :
      Moves s id call (release s.leases s.now call.key id).2
        (call.become (.released threw (release s.leases s.now call.key id).1))
  | returns (threw deleted : Bool) (result : Result) (released : call.phase = .released threw deleted) :
      Moves s id call s.leases (call.become (.returned result deleted))
  | fails (result : Result) (early : ∀ threw deleted, call.phase ≠ .released threw deleted)
      (unreturned : ∀ result deleted, call.phase ≠ .returned result deleted) :
      Moves s id call s.leases (call.become (.returned result false))
  | crashes (unreturned : ∀ result deleted, call.phase ≠ .returned result deleted) :
      Moves s id call s.leases { call with phase := .gone, heartbeat := .off }

theorem executeCommand_moves (s : State) (id : Nat) (call : Call) :
    Moves s id call (executeCommand s id call).1 (executeCommand s id call).2 := by
  obtain ⟨key, ttlMs, phase, heartbeat, lost⟩ := call
  cases phase with
  | acquiring =>
    simp only [executeCommand]
    by_cases granted : (setNx s.leases s.now key id ttlMs).1 = true
    · rw [if_pos granted]
      exact .grants rfl granted
    · have same : (setNx s.leases s.now key id ttlMs).2 = s.leases := by
        unfold setNx at granted ⊢
        split <;> simp_all
      rw [if_neg granted, same]
      exact .refuses rfl
  | releasing threw => exact .releases threw rfl
  | _ => exact .stays _ rfl rfl

theorem onAnswer_moves (s : State) (id : Nat) (call : Call) : Moves s id call s.leases (onAnswer call) := by
  obtain ⟨key, ttlMs, phase, heartbeat, lost⟩ := call
  cases phase with
  | acquired => exact .starts rfl
  | refused => exact .fails _ (by simp) (by simp)
  | released threw deleted => exact .returns threw deleted _ rfl
  | _ => exact .stays _ rfl rfl

theorem onFailure_moves (s : State) (id : Nat) (call : Call) : Moves s id call s.leases (onFailure call) := by
  obtain ⟨key, ttlMs, phase, heartbeat, lost⟩ := call
  cases phase with
  | acquiring => exact .fails _ (by simp) (by simp)
  | acquired => exact .fails _ (by simp) (by simp)
  | refused => exact .fails _ (by simp) (by simp)
  | releasing threw => exact .fails _ (by simp) (by simp)
  | released threw deleted => exact .returns threw deleted _ rfl
  | _ => exact .stays _ rfl rfl

theorem heartbeat_moves (s : State) (id : Nat) (call : Call) (arrives : Bool) :
    Moves s id call s.leases (onBeat call) ∧ Moves s id call s.leases (onRenewed call arrives) ∧
      Moves s id call (executeExtend s id call).1 (executeExtend s id call).2 := by
  obtain ⟨key, ttlMs, phase, heartbeat, lost⟩ := call
  refine ⟨?_, ?_, ?_⟩
  · cases heartbeat <;> exact .stays _ rfl rfl
  · unfold onRenewed
    split <;> exact .stays _ rfl rfl
  · cases heartbeat with
    | extending => exact .prolongs _ rfl rfl
    | _ => exact .stays _ rfl rfl

theorem callStep_moves (s : State) (id : Nat) (call : Call) (event : Event) :
    Moves s id call (callStep s id call event).1 (callStep s id call event).2 := by
  cases event with
  | withLock fresh key ttlMs => exact .stays _ rfl rfl
  | tick ms => exact .stays _ rfl rfl
  | execute target => exact executeCommand_moves s id call
  | answer target arrives =>
    cases arrives with
    | true => exact onAnswer_moves s id call
    | false => exact onFailure_moves s id call
  | workEnds target threw =>
    simp only [callStep]
    split
    · rename_i working
      exact .ends working threw
    · exact .stays _ rfl rfl
  | beat target => exact (heartbeat_moves s id call true).1
  | extend target => exact (heartbeat_moves s id call true).2.2
  | renewed target arrives => exact (heartbeat_moves s id call arrives).2.1
  | crash target =>
    obtain ⟨key, ttlMs, phase, heartbeat, lost⟩ := call
    cases phase with
    | returned result deleted => exact .stays _ rfl rfl
    | _ => exact .crashes (by simp)

/-- Everything an event can do to the state. -/
inductive Steps (s : State) : State → Prop where
  | idle : Steps s s
  | ticks (ms : Nat) : Steps s { s with now := s.now + ms }
  | begins (id : Nat) (key : String) (ttlMs : Nat) (fresh : s.calls.lookup id = none) :
      Steps s { s with calls := s.calls.insert id ⟨key, ttlMs, .acquiring, .off, false⟩ }
  | moves (id : Nat) (call next : Call) (leases : Store String (Lease Nat)) (found : s.calls.lookup id = some call)
      (moved : Moves s id call leases next) : Steps s { s with leases, calls := s.calls.insert id next }

theorem step_cases (s : State) (event : Event) : Steps s (step s event) := by
  have about : ∀ id, event.call = some id → step s event = match s.calls.lookup id with
      | some call =>
        { s with leases := (callStep s id call event).1, calls := s.calls.insert id (callStep s id call event).2 }
      | none => s := by
    intro id same
    cases event <;> cases same <;> simp only [step, Event.call, Option.bind_some] <;>
      cases s.calls.lookup id <;> rfl
  cases event with
  | withLock id key ttlMs =>
    simp only [step]
    split
    · rename_i fresh
      exact .begins id key ttlMs fresh
    · exact .idle
  | tick ms => exact .ticks ms
  | _ =>
    rw [about _ rfl]
    split
    · rename_i call found
      exact .moves _ call _ _ found (callStep_moves s _ call _)
    · exact .idle

/-- Between its acquisition and its release. -/
def Phase.holds : Phase → Bool
  | .acquired | .working | .releasing _ => true
  | _ => false

/-- Beyond its release, or without one. -/
def Phase.past : Phase → Bool
  | .released _ _ | .returned _ _ | .gone => true
  | _ => false

/-- Over, without having released its own lease. -/
def Phase.forfeited : Phase → Bool
  | .released _ deleted | .returned _ deleted => !deleted
  | .gone => true
  | _ => false

def Holds (s : State) (id : Nat) : Prop := ∃ call, s.calls.lookup id = some call ∧ call.phase.holds

def Past (s : State) (id : Nat) : Prop := ∃ call, s.calls.lookup id = some call ∧ call.phase.past

/-- The call is between its acquisition and its release without the lease. -/
def LeaseLost (s : State) (id : Nat) : Prop :=
  ∃ call, s.calls.lookup id = some call ∧ call.phase.holds ∧ holder s.leases s.now call.key ≠ some id

def Returned (s : State) (id : Nat) (result : Result) (deleted : Bool) : Prop :=
  ∃ call, s.calls.lookup id = some call ∧ call.phase = .returned result deleted

/-- The lease is lost for good. -/
def Forfeited (s : State) (id : Nat) : Prop :=
  LeaseLost s id ∨ ∃ call, s.calls.lookup id = some call ∧ call.phase.forfeited

/-- No move gives a key to a call that is not acquiring it. -/
theorem Moves.holder_before {s : State} {id held : Nat} {call next : Call} {leases : Store String (Lease Nat)} {key : String}
    (moved : Moves s id call leases next) (owns : holder leases s.now key = some held) :
    holder s.leases s.now key = some held ∨ held = id ∧ call.phase = .acquiring := by
  cases moved with
  | prolongs => exact .inl (holder_extend owns)
  | grants acquiring granted =>
    rcases holder_setNx owns with before | ⟨-, rfl, -⟩
    · exact .inl before
    · exact .inr ⟨rfl, acquiring⟩
  | releases => exact .inl (holder_release owns)
  | _ => exact .inl owns

theorem Moves.key {s : State} {id : Nat} {call next : Call} {leases : Store String (Lease Nat)}
    (moved : Moves s id call leases next) : next.key = call.key := by
  cases moved with
  | stays next key => exact key
  | prolongs next key => exact key
  | _ => rfl

/-- A call that has lost its lease stays without it, and its release finds no token. -/
theorem Moves.forfeited {s : State} {id : Nat} {call next : Call} {leases : Store String (Lease Nat)}
    (moved : Moves s id call leases next)
    (lost : call.phase.holds ∧ holder s.leases s.now call.key ≠ some id ∨ call.phase.forfeited) :
    next.phase.holds ∧ holder s.leases s.now call.key ≠ some id ∨ next.phase.forfeited := by
  cases moved with
  | stays next key phase => rwa [phase]
  | prolongs next key phase => rwa [phase]
  | grants acquiring => simp [acquiring, Phase.holds, Phase.forfeited] at lost
  | refuses acquiring => simp [acquiring, Phase.holds, Phase.forfeited] at lost
  | starts acquired =>
    simp only [acquired, Phase.holds, Phase.forfeited, true_and, Bool.false_eq_true, or_false] at lost
    exact .inl ⟨rfl, lost⟩
  | ends working threw =>
    simp only [working, Phase.holds, Phase.forfeited, true_and, Bool.false_eq_true, or_false] at lost
    exact .inl ⟨rfl, lost⟩
  | releases threw releasing =>
    simp only [releasing, Phase.holds, Phase.forfeited, true_and, Bool.false_eq_true, or_false] at lost
    have kept := release_deleted.not.mpr lost
    exact .inr (by simp [Call.become, Phase.forfeited, kept])
  | returns threw deleted result released =>
    simp only [released, Phase.holds, Phase.forfeited, Bool.false_eq_true, false_and, false_or] at lost
    exact .inr lost
  | fails result => exact .inr rfl
  | crashes => exact .inr rfl

theorem forfeited_iff {s : State} {id : Nat} : Forfeited s id ↔ ∃ call, s.calls.lookup id = some call ∧
    (call.phase.holds ∧ holder s.leases s.now call.key ≠ some id ∨ call.phase.forfeited) := by
  constructor
  · rintro (⟨call, found, lost⟩ | ⟨call, found, ended⟩)
    · exact ⟨call, found, .inl lost⟩
    · exact ⟨call, found, .inr ended⟩
  · rintro ⟨call, found, lost | ended⟩
    · exact .inl ⟨call, found, lost⟩
    · exact .inr ⟨call, found, ended⟩

theorem Forfeited.steps {s after : State} {id : Nat} (forfeited : Forfeited s id) (steps : Steps s after) :
    Forfeited after id := by
  obtain ⟨call, found, lost⟩ := forfeited_iff.mp forfeited
  rw [forfeited_iff]
  cases steps with
  | idle => exact ⟨call, found, lost⟩
  | ticks ms =>
    refine ⟨call, found, lost.imp_left fun held => ⟨held.1, fun owns => held.2 ?_⟩⟩
    exact holder_later (Nat.le_add_right _ _) owns
  | begins fresh key ttlMs absent =>
    have distinct : id ≠ fresh := by
      rintro rfl
      cases absent.symm.trans found
    exact ⟨call, (AList.lookup_insert_ne distinct).trans found, lost⟩
  | moves target held next leases stored moved =>
    by_cases same : id = target
    · subst same
      cases found.symm.trans stored
      refine ⟨next, AList.lookup_insert _, (moved.forfeited lost).imp_left fun kept => ⟨kept.1, fun owns => ?_⟩⟩
      rw [moved.key] at owns
      rcases moved.holder_before owns with before | ⟨-, acquiring⟩
      · exact kept.2 before
      · simp [acquiring, Phase.holds, Phase.forfeited] at lost
    · refine ⟨call, (AList.lookup_insert_ne same).trans found, lost.imp_left fun kept => ⟨kept.1, fun owns => ?_⟩⟩
      rcases moved.holder_before owns with before | ⟨mine, -⟩
      · exact kept.2 before
      · exact same mine

theorem Forfeited.stays {s : State} {id : Nat} (forfeited : Forfeited s id) (events : List Event) :
    Forfeited (run step s events) id :=
  run_invariant (fun reached => Forfeited reached id) (fun reached event held => held.steps (step_cases reached event))
    forfeited events

/-- A release that found its token proves that the lease was held until then. -/
theorem owns_until_release {early late : List Event} {id : Nat} {result : Result}
    (returned : Returned (run step State.empty (early ++ late)) id result true) :
    ¬ LeaseLost (run step State.empty early) id := by
  intro lost
  have final := Forfeited.stays (.inl lost) late
  rw [← run_append] at final
  obtain ⟨call, found, ended⟩ := returned
  obtain ⟨same, found', kept⟩ := forfeited_iff.mp final
  cases found.symm.trans found'
  simp [ended, Phase.holds, Phase.forfeited] at kept

/-- A call on the key in one of these phases. -/
def On (s : State) (key : String) (id : Nat) (phases : Phase → Bool) : Prop :=
  ∃ call, s.calls.lookup id = some call ∧ call.key = key ∧ phases call.phase

def Phase.works : Phase → Bool
  | .working => true
  | _ => false

/-- Past its acquisition, with its work still to come or to end. -/
def Phase.admitted : Phase → Bool
  | .acquired | .working => true
  | _ => false

theorem Moves.past {s : State} {id : Nat} {call next : Call} {leases : Store String (Lease Nat)}
    (moved : Moves s id call leases next) (past : call.phase.past) : next.phase.past := by
  cases moved with
  | stays next key phase => rwa [phase]
  | prolongs next key phase => rwa [phase]
  | returns => rfl
  | fails => rfl
  | crashes => rfl
  | releases => rfl
  | grants acquiring => simp [acquiring, Phase.past] at past
  | refuses acquiring => simp [acquiring, Phase.past] at past
  | starts acquired => simp [acquired, Phase.past] at past
  | ends working => simp [working, Phase.past] at past

theorem Moves.holds {s : State} {id : Nat} {call next : Call} {leases : Store String (Lease Nat)}
    (moved : Moves s id call leases next) (holds : call.phase.holds) : next.phase.holds ∨ next.phase.past := by
  cases moved with
  | stays next key phase => exact .inl (by rwa [phase])
  | prolongs next key phase => exact .inl (by rwa [phase])
  | grants => exact .inl rfl
  | refuses acquiring => simp [acquiring, Phase.holds] at holds
  | starts => exact .inl rfl
  | ends => exact .inl rfl
  | _ => exact .inr rfl

/-- What holds of a call's phase after each of its moves holds after each step. -/
theorem Steps.phase {s after : State} {id : Nat} (steps : Steps s after) (before later : Phase → Bool)
    (stays : ∀ phase, before phase → later phase)
    (moves : ∀ call next leases, Moves s id call leases next → before call.phase → later next.phase)
    (held : ∃ call, s.calls.lookup id = some call ∧ before call.phase) :
    ∃ call, after.calls.lookup id = some call ∧ later call.phase := by
  obtain ⟨call, found, phase⟩ := held
  cases steps with
  | idle => exact ⟨call, found, stays _ phase⟩
  | ticks ms => exact ⟨call, found, stays _ phase⟩
  | begins fresh key ttlMs absent =>
    have distinct : id ≠ fresh := by
      rintro rfl
      cases absent.symm.trans found
    exact ⟨call, (AList.lookup_insert_ne distinct).trans found, stays _ phase⟩
  | moves target held next leases stored moved =>
    by_cases same : id = target
    · subst same
      cases found.symm.trans stored
      exact ⟨next, AList.lookup_insert _, moves call next leases moved phase⟩
    · exact ⟨call, (AList.lookup_insert_ne same).trans found, stays _ phase⟩

theorem Past.stays {s : State} {id : Nat} (past : Past s id) (events : List Event) : Past (run step s events) id :=
  run_invariant (fun reached => Past reached id)
    (fun reached event held => (step_cases reached event).phase Phase.past Phase.past (fun _ phase => phase)
      (fun _ _ _ moved => moved.past) held) past events

/-- A call that holds now and after some more events holds after the first of them. -/
theorem Holds.between {s : State} {id : Nat} {event : Event} {events : List Event} (holds : Holds s id)
    (still : Holds (run step s (event :: events)) id) : Holds (step s event) id := by
  have next := (step_cases s event).phase Phase.holds (fun phase => phase.holds || phase.past)
    (fun phase held => by simp [held])
    (fun call next leases moved held => by simpa using moved.holds held) holds
  obtain ⟨call, found, phase⟩ := next
  simp only [Bool.or_eq_true] at phase
  rcases phase with kept | past
  · exact ⟨call, found, kept⟩
  · obtain ⟨later, found', ended⟩ := Past.stays ⟨call, found, past⟩ events
    obtain ⟨same, found'', held⟩ := still
    cases found'.symm.trans found''
    cases phase : later.phase <;> simp [phase, Phase.past, Phase.holds] at ended held

/-- While somebody holds the key, nobody is admitted to it. -/
theorem Steps.admitted {s after : State} {key : String} {id : Nat} (steps : Steps s after)
    (taken : holder s.leases s.now key ≠ none) (admitted : On after key id Phase.admitted) :
    On s key id Phase.admitted := by
  obtain ⟨call, found, mine, phase⟩ := admitted
  cases steps with
  | idle => exact ⟨call, found, mine, phase⟩
  | ticks ms => exact ⟨call, found, mine, phase⟩
  | begins fresh key ttlMs absent =>
    obtain ⟨-, rfl⟩ | ⟨-, old⟩ := lookup_insert_some.mp found
    · cases phase
    · exact ⟨call, old, mine, phase⟩
  | moves target held next leases stored moved =>
    obtain ⟨rfl, rfl⟩ | ⟨-, old⟩ := lookup_insert_some.mp found
    · rw [moved.key] at mine
      cases moved with
      | stays next key same => exact ⟨held, stored, mine, same ▸ phase⟩
      | prolongs next key same => exact ⟨held, stored, mine, same ▸ phase⟩
      | grants acquiring granted => exact absurd (mine ▸ setNx_granted granted) taken
      | starts acquired => exact ⟨held, stored, mine, by rw [acquired]; rfl⟩
      | _ => cases phase
    · exact ⟨call, old, mine, phase⟩

/-- Whoever is on the key when its holder is still there was admitted before. -/
theorem admitted_before {s : State} {key : String} {id other : Nat} {events : List Event} (holds : Holds s id)
    (owned : ∀ first rest, events = first ++ rest → Holds (run step s first) id →
      holder (run step s first).leases (run step s first).now key ≠ none)
    (still : Holds (run step s events) id) (admitted : On (run step s events) key other Phase.admitted) :
    On s key other Phase.admitted := by
  induction events generalizing s with
  | nil => exact admitted
  | cons event rest ih =>
    have next := holds.between still
    have later := ih next (fun first after same => owned (event :: first) after (by rw [same]; rfl)) still admitted
    exact (step_cases s event).admitted (owned [] _ rfl holds) later

/-- A call that returned normally was alone with its key, and a call that lost its lease
failed because of that. -/
def Exclusive (events : List Event) : Prop :=
  (∀ id deleted, Returned (run step State.empty events) id .value deleted →
    ∀ early late call other, events = early ++ late →
      (run step State.empty early).calls.lookup id = some call → call.phase.holds → other ≠ id →
        ¬ On (run step State.empty early) call.key other Phase.works) ∧
  ∀ id early late result deleted, events = early ++ late → LeaseLost (run step State.empty early) id →
    Returned (run step State.empty events) id result deleted → result ≠ .redisError → result = .lockLostError

/-- A call whose release found its token held the lease from its acquisition on: other
work that ran meanwhile had been admitted before and had lost its lease. A call that has
lost its lease and knows it when its release is answered fails with `LockLostError`. -/
def LeaseReported (events : List Event) : Prop :=
  (∀ id result, Returned (run step State.empty events) id result true →
    ∀ early late call, events = early ++ late →
      (run step State.empty early).calls.lookup id = some call → call.phase.holds →
        holder (run step State.empty early).leases (run step State.empty early).now call.key = some id ∧
        ∀ other, other ≠ id → On (run step State.empty early) call.key other Phase.works →
          LeaseLost (run step State.empty early) other ∧
          ∀ first second, early = first ++ second → Holds (run step State.empty first) id →
            On (run step State.empty first) call.key other Phase.admitted) ∧
  ∀ id early middle late call threw deleted, events = early ++ middle ++ .answer id true :: late →
    LeaseLost (run step State.empty early) id →
      (run step State.empty (early ++ middle)).calls.lookup id = some call →
        call.phase = .released threw deleted → call.lost →
          Returned (run step State.empty (early ++ middle ++ [.answer id true])) id .lockLostError false

theorem holder_of_not_lost {s : State} {id : Nat} {call : Call} (kept : ¬ LeaseLost s id)
    (found : s.calls.lookup id = some call) (holds : call.phase.holds) :
    holder s.leases s.now call.key = some id := by
  by_contra lost
  exact kept ⟨call, found, holds, lost⟩

/-- A call keeps its key. -/
theorem Steps.key {s after : State} {id : Nat} {call : Call} (steps : Steps s after)
    (found : s.calls.lookup id = some call) : ∃ later, after.calls.lookup id = some later ∧ later.key = call.key := by
  cases steps with
  | idle => exact ⟨call, found, rfl⟩
  | ticks ms => exact ⟨call, found, rfl⟩
  | begins fresh key ttlMs absent =>
    have distinct : id ≠ fresh := by
      rintro rfl
      cases absent.symm.trans found
    exact ⟨call, (AList.lookup_insert_ne distinct).trans found, rfl⟩
  | moves target held next leases stored moved =>
    by_cases same : id = target
    · subst same
      cases found.symm.trans stored
      exact ⟨next, AList.lookup_insert _, moved.key⟩
    · exact ⟨call, (AList.lookup_insert_ne same).trans found, rfl⟩

theorem run_key {s : State} {id : Nat} {call : Call} (found : s.calls.lookup id = some call) (events : List Event) :
    ∃ later, (run step s events).calls.lookup id = some later ∧ later.key = call.key := by
  refine run_invariant (fun reached : State => ∃ later, reached.calls.lookup id = some later ∧ later.key = call.key) ?_
    ⟨call, found, rfl⟩ events
  rintro reached event ⟨later, stored, key⟩
  obtain ⟨next, stored', key'⟩ := (step_cases reached event).key stored
  exact ⟨next, stored', key'.trans key⟩

theorem released_owner_alone {early late : List Event} {id other : Nat} {result : Result} {call : Call}
    (returned : Returned (run step State.empty (early ++ late)) id result true)
    (found : (run step State.empty early).calls.lookup id = some call) (holds : call.phase.holds)
    (working : On (run step State.empty early) call.key other Phase.works) (first second : List Event)
    (split : early = first ++ second) (held : Holds (run step State.empty first) id) :
    On (run step State.empty first) call.key other Phase.admitted := by
  subst split
  rw [run_append] at found working
  have keys : ∀ middle rest, second = middle ++ rest →
      ∃ later, (run step (run step State.empty first) middle).calls.lookup id = some later ∧ later.key = call.key := by
    rintro middle rest rfl
    obtain ⟨start, stored, -⟩ := held
    obtain ⟨later, lookup, key⟩ := run_key stored middle
    obtain ⟨last, lookup', key'⟩ := run_key stored (middle ++ rest)
    cases found.symm.trans lookup'
    exact ⟨later, lookup, key.trans key'.symm⟩
  refine admitted_before held ?_ ⟨call, found, holds⟩ ?_
  · rintro middle rest rfl ⟨later, lookup, phase⟩
    obtain ⟨same, lookup', key⟩ := keys middle rest rfl
    cases lookup.symm.trans lookup'
    have whole : Returned (run step State.empty ((first ++ middle) ++ (rest ++ late))) id result true := by
      simpa only [List.append_assoc] using returned
    have kept := owns_until_release whole
    rw [run_append] at kept
    rw [← key, holder_of_not_lost kept lookup phase]
    exact Option.some_ne_none id
  · obtain ⟨worker, stored, key, works⟩ := working
    refine ⟨worker, stored, key, ?_⟩
    cases phase : worker.phase <;> simp [phase, Phase.works, Phase.admitted] at works ⊢

/-- A call that was lost meanwhile has nothing left to release. -/
theorem LeaseLost.undeleted {s : State} {id : Nat} {call : Call} {threw deleted : Bool} (lost : LeaseLost s id)
    (events : List Event) (found : (run step s events).calls.lookup id = some call)
    (released : call.phase = .released threw deleted) : deleted = false := by
  obtain ⟨same, found', kept⟩ := forfeited_iff.mp (Forfeited.stays (.inl lost) events)
  cases found.symm.trans found'
  simpa [released, Phase.holds, Phase.forfeited] using kept

/-- Over every run of any number of calls, what `withLock` reports about its lease is true. -/
theorem lease_reported (events : List Event) : LeaseReported events := by
  constructor
  · rintro id result returned early late call rfl found holds
    have owns := holder_of_not_lost (owns_until_release returned) found holds
    refine ⟨owns, fun other distinct working => ⟨?_, ?_⟩⟩
    · obtain ⟨worker, stored, key, works⟩ := working
      refine ⟨worker, stored, ?_, ?_⟩
      · cases phase : worker.phase <;> simp [phase, Phase.works, Phase.holds] at works ⊢
      · rw [key, owns]
        simpa using distinct.symm
    · exact released_owner_alone returned found holds working
  · rintro id early middle late call threw deleted rfl lost found released noticed
    have missing : deleted = false := by
      rw [run_append] at found
      exact lost.undeleted middle found released
    subst missing
    refine ⟨call.become (.returned .lockLostError false), ?_, rfl⟩
    rw [run_append _ (early ++ middle), run_cons, run_nil]
    simp [step, Event.call, found, callStep, onAnswer, released, settle, noticed]

/-- A call that acquires the key and whose work starts. -/
def acquires (id : Nat) (key : String) : List Event :=
  [.withLock id key lockTtlMs, .execute id, .answer id true]

/-- A call's work that ends well and the release of its lease. -/
def completes (id : Nat) : List Event := [.workEnds id false, .execute id, .answer id true]

/-- The first call's work outlives its lease, and the second call returns normally with
that work still running beside its own. -/
theorem overrun_work_runs_beside_holder : ¬ ∀ events, Exclusive events := by
  intro exclusive
  have second : Returned (run step State.empty
      (acquires 0 "k" ++ [.tick lockTtlMs] ++ acquires 1 "k" ++ completes 1)) 1 .value true :=
    ⟨⟨"k", lockTtlMs, .returned .value true, .sleeping, false⟩, by decide +kernel, rfl⟩
  have alone := (exclusive _).1 1 true second (acquires 0 "k" ++ [.tick lockTtlMs] ++ acquires 1 "k") (completes 1)
    ⟨"k", lockTtlMs, .working, .sleeping, false⟩ 0 rfl (by decide +kernel) rfl (by decide)
  exact alone ⟨⟨"k", lockTtlMs, .working, .sleeping, false⟩, by decide +kernel, rfl, rfl⟩

end AfroPay.LockService
