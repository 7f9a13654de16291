import AfroPay.LockExclusivity

/-! Leases under a punctual clock. Where time never passes the end of the lease of a call
that is between its grant and its release, no other call takes a lease away: each of these
calls holds its own, and so at most one call on a key is there. -/
namespace AfroPay.LeaseStore
open KeyedStore

variable {Key Token : Type} [DecidableEq Key] [DecidableEq Token]

/-- Extending a lease by a positive time changes nobody's hold now. -/
theorem holder_extend_eq {store : Store Key (Lease Token)} {now : Nat} {key other : Key} {token : Token} {ttl : Nat}
    (positive : 0 < ttl) : holder (extend store now key token ttl).2 now other = holder store now other := by
  unfold extend
  split
  · rename_i mine
    rw [holder_insert]
    split
    · rename_i same
      rw [same, mine]
      exact if_pos (Nat.lt_add_of_pos_right positive)
    · rfl
  · rfl

end AfroPay.LeaseStore

namespace AfroPay.LockService
open KeyedStore LeaseStore Runs

/-- The clock spares the leases of all calls between their grant and their release. -/
def punctual (s : State) : Event → Bool
  | .tick ms => s.calls.entries.all fun entry =>
      !entry.2.phase.holds || holder s.leases (s.now + ms) entry.2.key = some entry.1
  | _ => true

/-- A lease belongs to a call that was granted it, and a call between its grant and its
release holds its lease. -/
structure Kept (s : State) : Prop where
  granted : ∀ key lease, s.leases.lookup key = some lease →
    ∃ call, s.calls.lookup lease.token = some call ∧ call.phase ≠ .acquiring
  lasting : ∀ id call, s.calls.lookup id = some call → call.phase.holds → 0 < call.ttlMs
  held : ∀ id call, s.calls.lookup id = some call → call.phase.holds → holder s.leases s.now call.key = some id

theorem kept_empty : Kept State.empty :=
  ⟨by simp [State.empty], by simp [State.empty], by simp [State.empty]⟩

/-- The step of an event that is about a call. -/
theorem step_about {s : State} {event : Event} {id : Nat} (about : event.call = some id) : step s event =
    match s.calls.lookup id with
    | some call =>
      { s with leases := (callStep s id call event).1, calls := s.calls.insert id (callStep s id call event).2 }
    | none => s := by
  cases event <;> cases about <;> simp only [step, Event.call, Option.bind_some] <;>
    cases s.calls.lookup id <;> rfl

section About
variable {s : State} {event : Event} {id : Nat}

theorem step_calls (about : event.call = some id) :
    (step s event).calls.lookup id = (s.calls.lookup id).map fun call => (callStep s id call event).2 := by
  rw [step_about about]
  cases found : s.calls.lookup id with
  | none => exact found
  | some call => exact AList.lookup_insert _

theorem step_calls_other (about : event.call = some id) {other : Nat} (distinct : other ≠ id) :
    (step s event).calls.lookup other = s.calls.lookup other := by
  rw [step_about about]
  split
  · exact AList.lookup_insert_ne distinct
  · rfl

theorem step_now (about : event.call = some id) : (step s event).now = s.now := by
  rw [step_about about]
  split <;> rfl

theorem step_leases (about : event.call = some id) :
    (step s event).leases = (s.calls.lookup id).elim s.leases fun call => (callStep s id call event).1 := by
  rw [step_about about]
  cases s.calls.lookup id <;> rfl

/-- An event that sends nothing to Redis leaves all leases as they are. -/
theorem step_leases_quiet (about : event.call = some id)
    (quiet : ∀ call, s.calls.lookup id = some call → (callStep s id call event).1 = s.leases) :
    (step s event).leases = s.leases := by
  rw [step_leases about]
  cases found : s.calls.lookup id with
  | none => rfl
  | some call => exact quiet call found

end About

/-- No event changes what a call asked for. -/
theorem callStep_ttl (s : State) (id : Nat) (call : Call) (event : Event) :
    (callStep s id call event).2.ttlMs = call.ttlMs := by
  obtain ⟨key, ttlMs, phase, heartbeat, lost⟩ := call
  cases event with
  | execute target => cases phase <;> rfl
  | answer target arrives => cases arrives <;> cases phase <;> rfl
  | workEnds target threw =>
    simp only [callStep]
    split <;> rfl
  | beat target => cases heartbeat <;> rfl
  | extend target => cases heartbeat <;> rfl
  | renewed target arrives =>
    simp only [callStep, onRenewed]
    split <;> rfl
  | _ => rfl

/-- The leases after a call's move: those from before, perhaps prolonged, and one it was granted. -/
theorem Moves.lease {s : State} {id : Nat} {call next : Call} {leases : Store String (Lease Nat)} {key : String}
    {lease : Lease Nat} (moved : Moves s id call leases next) (found : leases.lookup key = some lease) :
    (∃ old, s.leases.lookup key = some old ∧ old.token = lease.token) ∨
      lease.token = id ∧ next.phase = .acquired := by
  cases moved with
  | prolongs =>
    unfold LeaseStore.extend at found
    split at found
    · rename_i mine
      obtain ⟨rfl, rfl⟩ | ⟨-, old⟩ := lookup_insert_some.mp found
      · obtain ⟨expiresAt, stored, -⟩ := holder_eq_some.mp mine
        exact .inl ⟨_, stored, rfl⟩
      · exact .inl ⟨lease, old, rfl⟩
    · exact .inl ⟨lease, found, rfl⟩
  | grants acquiring granted =>
    unfold setNx at found
    split at found
    · obtain ⟨-, rfl⟩ | ⟨-, old⟩ := lookup_insert_some.mp found
      · exact .inr ⟨rfl, rfl⟩
      · exact .inl ⟨lease, old, rfl⟩
    · exact .inl ⟨lease, found, rfl⟩
  | releases =>
    unfold release at found
    split at found
    · exact .inl ⟨lease, lookup_erase_some found, rfl⟩
    · exact .inl ⟨lease, found, rfl⟩
  | _ => exact .inl ⟨lease, found, rfl⟩

theorem Moves.unasking {s : State} {id : Nat} {call next : Call} {leases : Store String (Lease Nat)}
    (moved : Moves s id call leases next) (granted : call.phase ≠ .acquiring) : next.phase ≠ .acquiring := by
  cases moved with
  | stays next key phase => rwa [phase]
  | prolongs next key phase => rwa [phase]
  | _ => simp [Call.become]

/-- A call's move takes no lease from another call that holds one. -/
theorem Moves.spares {s : State} {id other : Nat} {call next : Call} {leases : Store String (Lease Nat)} {key : String}
    (moved : Moves s id call leases next) (distinct : other ≠ id) (held : holder s.leases s.now key = some other) :
    holder leases s.now key = some other := by
  cases moved with
  | prolongs =>
    unfold LeaseStore.extend
    split
    · rename_i mine
      rw [holder_insert, if_neg ?_]
      · exact held
      · rintro rfl
        rw [held] at mine
        exact distinct (Option.some_inj.mp mine)
    · exact held
  | grants acquiring granted =>
    unfold setNx
    split
    · rename_i free
      rw [holder_insert, if_neg ?_]
      · exact held
      · rintro rfl
        cases held.symm.trans free.1
    · exact held
  | releases =>
    unfold release
    split
    · rename_i mine
      have elsewhere : key ≠ call.key := by
        rintro rfl
        rw [held] at mine
        exact distinct (Option.some_inj.mp mine)
      simpa [holder, AList.lookup_erase_ne elsewhere] using held
    · exact held
  | _ => exact held

/-- A call that is granted its lease, or goes on between its grant and its release, holds it. -/
theorem Moves.owns {s : State} {id : Nat} {call next : Call} {leases : Store String (Lease Nat)}
    (moved : Moves s id call leases next) (lasting : call.phase.holds → 0 < call.ttlMs)
    (held : call.phase.holds → holder s.leases s.now call.key = some id) (holds : next.phase.holds) :
    0 < call.ttlMs ∧ holder leases s.now next.key = some id := by
  cases moved with
  | stays next key phase =>
    rw [phase] at holds
    exact ⟨lasting holds, by rw [key]; exact held holds⟩
  | prolongs next key phase =>
    rw [phase] at holds
    have positive := lasting holds
    refine ⟨positive, ?_⟩
    rw [key, LeaseStore.extend, if_pos (held holds), holder_insert, if_pos rfl, if_pos (Nat.lt_add_of_pos_right positive)]
  | grants acquiring granted =>
    have free : holder s.leases s.now call.key = none ∧ 0 < call.ttlMs := by
      unfold setNx at granted
      split at granted
      · assumption
      · cases granted
    refine ⟨free.2, ?_⟩
    simp only [Call.become]
    rw [setNx, if_pos free, holder_insert, if_pos rfl, if_pos (Nat.lt_add_of_pos_right free.2)]
  | starts acquired => exact ⟨lasting (by rw [acquired]; rfl), held (by rw [acquired]; rfl)⟩
  | ends working => exact ⟨lasting (by rw [working]; rfl), held (by rw [working]; rfl)⟩
  | _ => cases holds

theorem Kept.about {s : State} {event : Event} {id : Nat} (kept : Kept s) (about : event.call = some id) :
    Kept (step s event) := by
  rw [step_about about]
  split
  · rename_i call found
    have moved := callStep_moves s id call event
    have owns := moved.owns (kept.lasting id call found) (kept.held id call found)
    refine ⟨?_, ?_, ?_⟩
    · intro key lease stored
      rcases moved.lease stored with ⟨old, before, token⟩ | ⟨token, next⟩
      · obtain ⟨owner, lookup, granted⟩ := kept.granted key old before
        rw [token] at lookup
        by_cases mine : lease.token = id
        · rw [mine] at lookup ⊢
          cases found.symm.trans lookup
          exact ⟨_, AList.lookup_insert _, moved.unasking granted⟩
        · exact ⟨owner, (AList.lookup_insert_ne mine).trans lookup, granted⟩
      · rw [token]
        exact ⟨_, AList.lookup_insert _, by simp [next]⟩
    · intro other rival lookup holds
      obtain ⟨rfl, rfl⟩ | ⟨-, old⟩ := lookup_insert_some.mp lookup
      · rw [callStep_ttl]
        exact (owns holds).1
      · exact kept.lasting other rival old holds
    · intro other rival lookup holds
      obtain ⟨rfl, rfl⟩ | ⟨distinct, old⟩ := lookup_insert_some.mp lookup
      · exact (owns holds).2
      · exact moved.spares distinct (kept.held other rival old holds)
  · exact kept

/-- A step under a punctual clock takes no lease from a call between its grant and its release. -/
theorem Kept.step {s : State} {event : Event} (kept : Kept s) (spares : punctual s event) :
    Kept (LockService.step s event) := by
  cases event with
  | withLock id key ttlMs =>
    simp only [LockService.step]
    split
    · rename_i fresh
      refine ⟨?_, ?_, ?_⟩
      · intro stored lease found
        obtain ⟨call, lookup, granted⟩ := kept.granted stored lease found
        have distinct : lease.token ≠ id := by
          intro same
          rw [same, fresh] at lookup
          cases lookup
        exact ⟨call, (AList.lookup_insert_ne distinct).trans lookup, granted⟩
      · intro other call lookup holds
        obtain ⟨-, rfl⟩ | ⟨-, old⟩ := lookup_insert_some.mp lookup
        · cases holds
        · exact kept.lasting other call old holds
      · intro other call lookup holds
        obtain ⟨-, rfl⟩ | ⟨-, old⟩ := lookup_insert_some.mp lookup
        · cases holds
        · exact kept.held other call old holds
    · exact kept
  | tick ms =>
    refine ⟨kept.granted, kept.lasting, ?_⟩
    intro id call found holds
    simp only [punctual, List.all_eq_true, Bool.or_eq_true, Bool.not_eq_true', decide_eq_true_eq] at spares
    have inside : call.phase.holds = true := holds
    have spared := spares ⟨id, call⟩ (AList.mem_lookup_iff.mp found)
    rw [inside] at spared
    exact spared.resolve_left (by simp)
  | _ => exact kept.about rfl

/-- Between its grant and its release a call is alone with its key. -/
theorem Kept.alone {s : State} {id other : Nat} {call rival : Call} (kept : Kept s)
    (found : s.calls.lookup id = some call) (holds : call.phase.holds)
    (lookup : s.calls.lookup other = some rival) (inside : rival.phase.holds) (same : rival.key = call.key) :
    other = id := by
  have mine := kept.held id call found holds
  have theirs := kept.held other rival lookup inside
  rw [same, mine] at theirs
  exact (Option.some_inj.mp theirs).symm

end AfroPay.LockService
