import AfroPay.LeaseStore
import AfroPay.Runs

/-! The token-checked lease store behind every lock. `RedisLockService` of the API and
`LockManager` of the worker send Redis the same three commands: `SET NX PX`, and the two
scripts that compare the stored token before they extend or delete. Without a Redis url the
service falls back on `InMemoryRedisLockStore`. A store sees the commands of all its callers
in one order, late ones included. -/
namespace AfroPay.LockStores
open KeyedStore LeaseStore Runs

inductive Backend where
  | redis
  | memory
  deriving DecidableEq

variable {Key Token : Type} [DecidableEq Key] [DecidableEq Token]

namespace InMemoryRedisLockStore

def acquire (entries : Store Key (Lease Token)) (now : Nat) (key : Key) (token : Token) (ttlMs : Nat) :
    Bool × Store Key (Lease Token) :=
  match entries.lookup key with
  | some current =>
    if current.expiresAt > now then (false, entries) else (true, entries.insert key ⟨token, now + ttlMs⟩)
  | none => (true, entries.insert key ⟨token, now + ttlMs⟩)

def extend (entries : Store Key (Lease Token)) (now : Nat) (key : Key) (token : Token) (ttlMs : Nat) :
    Bool × Store Key (Lease Token) :=
  match entries.lookup key with
  | some current =>
    if current.token ≠ token ∨ current.expiresAt ≤ now then (false, entries)
    else (true, entries.insert key { current with expiresAt := now + ttlMs })
  | none => (false, entries)

/-- An entry is deleted by its own token also after it has expired. -/
def release (entries : Store Key (Lease Token)) (key : Key) (token : Token) : Bool × Store Key (Lease Token) :=
  match entries.lookup key with
  | some current => if current.token ≠ token then (false, entries) else (true, entries.erase key)
  | none => (false, entries)

end InMemoryRedisLockStore

def acquire (backend : Backend) (leases : Store Key (Lease Token)) (now : Nat) (key : Key) (token : Token)
    (ttlMs : Nat) : Bool × Store Key (Lease Token) :=
  match backend with
  | .redis => setNx leases now key token ttlMs
  | .memory => InMemoryRedisLockStore.acquire leases now key token ttlMs

def extend (backend : Backend) (leases : Store Key (Lease Token)) (now : Nat) (key : Key) (token : Token)
    (ttlMs : Nat) : Bool × Store Key (Lease Token) :=
  match backend with
  | .redis => LeaseStore.extend leases now key token ttlMs
  | .memory => InMemoryRedisLockStore.extend leases now key token ttlMs

def release (backend : Backend) (leases : Store Key (Lease Token)) (now : Nat) (key : Key) (token : Token) :
    Bool × Store Key (Lease Token) :=
  match backend with
  | .redis => LeaseStore.release leases now key token
  | .memory => InMemoryRedisLockStore.release leases key token

/-- The store, the clock, and what the store's answers let each token believe: until when
it holds each key. -/
structure State (Key Token : Type) [DecidableEq Key] [DecidableEq Token] where
  now : Nat
  leases : Store Key (Lease Token)
  granted : Store (Key × Token) Nat

def State.empty : State Key Token := ⟨0, ∅, ∅⟩

inductive Event (Key Token : Type) where
  | acquire (key : Key) (token : Token) (ttlMs : Nat)
  | extend (key : Key) (token : Token) (ttlMs : Nat)
  | release (key : Key) (token : Token)
  | tick (ms : Nat)

def step (backend : Backend) (s : State Key Token) : Event Key Token → State Key Token
  | .acquire key token ttlMs =>
    let (acquired, leases) := acquire backend s.leases s.now key token ttlMs
    { s with leases, granted := if acquired then s.granted.insert (key, token) (s.now + ttlMs) else s.granted }
  | .extend key token ttlMs =>
    let (renewed, leases) := extend backend s.leases s.now key token ttlMs
    { s with leases, granted := if renewed then s.granted.insert (key, token) (s.now + ttlMs) else s.granted }
  | .release key token =>
    let (released, leases) := release backend s.leases s.now key token
    { s with leases, granted := if released then s.granted.erase (key, token) else s.granted }
  | .tick ms => { s with now := s.now + ms }

/-- The token was told that it holds the key, and the time it was told has not passed. -/
def Unexpired (s : State Key Token) (key : Key) (token : Token) : Prop :=
  ∃ expiresAt, s.granted.lookup (key, token) = some expiresAt ∧ s.now < expiresAt

omit [DecidableEq Token] in
/-- Only a key without an unexpired lease is granted, and it goes to the caller. -/
theorem acquire_cases (backend : Backend) (leases : Store Key (Lease Token)) (now : Nat) (key : Key) (token : Token)
    (ttlMs : Nat) :
    acquire backend leases now key token ttlMs = (false, leases) ∨
      (∀ other, holder leases now key ≠ some other) ∧
        acquire backend leases now key token ttlMs = (true, leases.insert key ⟨token, now + ttlMs⟩) := by
  cases backend with
  | redis =>
    simp only [acquire, setNx]
    split
    · rename_i free
      exact .inr ⟨by simp [free.1], rfl⟩
    · exact .inl rfl
  | memory =>
    simp only [acquire, InMemoryRedisLockStore.acquire]
    split
    · rename_i current found
      by_cases held : current.expiresAt > now
      · exact .inl (if_pos held)
      · refine .inr ⟨fun other taken => ?_, if_neg held⟩
        obtain ⟨expiresAt, there, unexpired⟩ := holder_eq_some.mp taken
        rw [found] at there
        cases there
        exact held unexpired
    · rename_i absent
      refine .inr ⟨fun other taken => ?_, rfl⟩
      obtain ⟨expiresAt, there, -⟩ := holder_eq_some.mp taken
      rw [absent] at there
      cases there

/-- Only the unexpired lease of the caller itself is extended. -/
theorem extend_cases (backend : Backend) (leases : Store Key (Lease Token)) (now : Nat) (key : Key) (token : Token)
    (ttlMs : Nat) :
    extend backend leases now key token ttlMs = (false, leases) ∨
      holder leases now key = some token ∧
        extend backend leases now key token ttlMs = (true, leases.insert key ⟨token, now + ttlMs⟩) := by
  cases backend with
  | redis =>
    simp only [extend, LeaseStore.extend]
    split
    · rename_i mine
      exact .inr ⟨mine, rfl⟩
    · exact .inl rfl
  | memory =>
    simp only [extend, InMemoryRedisLockStore.extend]
    split
    · rename_i current found
      obtain ⟨owner, expiresAt⟩ := current
      by_cases foreign : owner ≠ token ∨ expiresAt ≤ now
      · exact .inl (if_pos foreign)
      · have mine : owner = token := by
          by_contra differs
          exact foreign (.inl differs)
        subst mine
        exact .inr ⟨holder_eq_some.mpr ⟨expiresAt, found, by omega⟩, if_neg foreign⟩
    · exact .inl rfl

/-- Only a lease that carries the caller's token is deleted. -/
theorem release_cases (backend : Backend) (leases : Store Key (Lease Token)) (now : Nat) (key : Key) (token : Token) :
    release backend leases now key token = (false, leases) ∨
      (∃ expiresAt, leases.lookup key = some ⟨token, expiresAt⟩) ∧
        release backend leases now key token = (true, leases.erase key) := by
  cases backend with
  | redis =>
    simp only [release, LeaseStore.release]
    split
    · rename_i mine
      obtain ⟨expiresAt, found, -⟩ := holder_eq_some.mp mine
      exact .inr ⟨⟨expiresAt, found⟩, rfl⟩
    · exact .inl rfl
  | memory =>
    simp only [release, InMemoryRedisLockStore.release]
    split
    · rename_i current found
      by_cases foreign : current.token ≠ token
      · exact .inl (if_pos foreign)
      · have mine : current.token = token := not_not.mp foreign
        refine .inr ⟨⟨current.expiresAt, ?_⟩, if_neg foreign⟩
        rw [found, ← mine]
    · exact .inl rfl

/-- An answer that has not run out is backed by the store: the key carries this token and
this expiry. -/
def Backed (s : State Key Token) : Prop :=
  ∀ key token expiresAt, s.granted.lookup (key, token) = some expiresAt → s.now < expiresAt →
    s.leases.lookup key = some ⟨token, expiresAt⟩

/-- A grant is backed when nobody else was holding the key. -/
private theorem backed_granted {s : State Key Token} (backed : Backed s) {key : Key} {token : Token} {expiresAt : Nat}
    (alone : ∀ other, holder s.leases s.now key = some other → other = token) :
    Backed { s with leases := s.leases.insert key ⟨token, expiresAt⟩,
                    granted := s.granted.insert (key, token) expiresAt } := by
  intro key' token' expiresAt' told unexpired
  by_cases same : key' = key
  · subst same
    by_cases mine : token' = token
    · subst mine
      rw [AList.lookup_insert] at told
      cases told
      exact AList.lookup_insert _
    · have differs : (key', token') ≠ (key', token) := by simp [mine]
      rw [AList.lookup_insert_ne differs] at told
      have found := backed key' token' expiresAt' told unexpired
      exact absurd (alone token' (holder_eq_some.mpr ⟨expiresAt', found, unexpired⟩)) mine
  · have differs : (key', token') ≠ (key, token) := by simp [same]
    rw [AList.lookup_insert_ne differs] at told
    rw [AList.lookup_insert_ne same]
    exact backed key' token' expiresAt' told unexpired

private theorem backed_released {s : State Key Token} (backed : Backed s) {key : Key} {token : Token} {expiresAt : Nat}
    (mine : s.leases.lookup key = some ⟨token, expiresAt⟩) :
    Backed { s with leases := s.leases.erase key, granted := s.granted.erase (key, token) } := by
  intro key' token' expiresAt' told unexpired
  by_cases same : (key', token') = (key, token)
  · rw [same, AList.lookup_erase] at told
    cases told
  · rw [AList.lookup_erase_ne same] at told
    have found := backed key' token' expiresAt' told unexpired
    by_cases sameKey : key' = key
    · subst sameKey
      rw [mine] at found
      cases found
      exact absurd rfl same
    · rw [AList.lookup_erase_ne sameKey]
      exact found

theorem step_backed (backend : Backend) (s : State Key Token) (event : Event Key Token) (backed : Backed s) :
    Backed (step backend s event) := by
  cases event with
  | acquire key token ttlMs =>
    simp only [step]
    obtain refused | ⟨free, granted⟩ := acquire_cases backend s.leases s.now key token ttlMs
    · rw [refused]
      exact backed
    · rw [granted]
      exact backed_granted backed (fun other held => absurd held (free other))
  | extend key token ttlMs =>
    simp only [step]
    obtain refused | ⟨held, renewed⟩ := extend_cases backend s.leases s.now key token ttlMs
    · rw [refused]
      exact backed
    · rw [renewed]
      exact backed_granted backed (fun other found => by rw [held] at found; cases found; rfl)
  | release key token =>
    simp only [step]
    obtain refused | ⟨⟨expiresAt, mine⟩, released⟩ := release_cases backend s.leases s.now key token
    · rw [refused]
      exact backed
    · rw [released]
      exact backed_released backed mine
  | tick ms =>
    intro key token expiresAt told unexpired
    exact backed key token expiresAt told (by simp only [step] at unexpired; omega)

theorem run_backed (backend : Backend) (events : List (Event Key Token)) :
    Backed (run (step backend) State.empty events) :=
  run_invariant Backed (step_backed backend) (fun _ _ _ told => by cases told) events

/-- What a command with a token leaves alone: the leases of every other token, expiry
included, and what those tokens were told. -/
structure SparesOthers (before after : State Key Token) (token : Token) : Prop where
  leases : ∀ key lease, lease.token ≠ token →
    (after.leases.lookup key = some lease ↔ before.leases.lookup key = some lease)
  granted : ∀ key other, other ≠ token → after.granted.lookup (key, other) = before.granted.lookup (key, other)

private theorem sparesOthers_refl (s : State Key Token) (token : Token) : SparesOthers s s token :=
  ⟨fun _ _ _ => Iff.rfl, fun _ _ _ => rfl⟩

theorem extend_sparesOthers (backend : Backend) (s : State Key Token) (key : Key) (token : Token) (ttlMs : Nat) :
    SparesOthers s (step backend s (.extend key token ttlMs)) token := by
  simp only [step]
  obtain refused | ⟨held, renewed⟩ := extend_cases backend s.leases s.now key token ttlMs
  · rw [refused]
    exact sparesOthers_refl s token
  · rw [renewed]
    obtain ⟨expiresAt, found, -⟩ := holder_eq_some.mp held
    refine ⟨fun key' lease other => ?_, fun key' other differs => ?_⟩
    · by_cases same : key' = key
      · subst same
        simp only [AList.lookup_insert, found, Option.some.injEq]
        -- Both the old and the new lease of the key carry the caller's token.
        constructor <;> (rintro rfl; exact absurd rfl other)
      · rw [AList.lookup_insert_ne same]
    · exact AList.lookup_insert_ne (by simp [differs])

theorem release_sparesOthers (backend : Backend) (s : State Key Token) (key : Key) (token : Token) :
    SparesOthers s (step backend s (.release key token)) token := by
  simp only [step]
  obtain refused | ⟨⟨expiresAt, mine⟩, released⟩ := release_cases backend s.leases s.now key token
  · rw [refused]
    exact sparesOthers_refl s token
  · rw [released]
    refine ⟨fun key' lease other => ?_, fun key' other differs => ?_⟩
    · by_cases same : key' = key
      · subst same
        rw [AList.lookup_erase, mine]
        constructor
        · intro impossible
          cases impossible
        · rintro ⟨⟩
          exact absurd rfl other
      · rw [AList.lookup_erase_ne same]
    · exact AList.lookup_erase_ne (by simp [differs])

/-- The holders, as the store sees them, after a command of a token that does not hold the key. -/
theorem holder_of_stale {backend : Backend} {s : State Key Token} {key : Key} {token : Token}
    (stale : holder s.leases s.now key ≠ some token) :
    (∀ ttlMs, (step backend s (.extend key token ttlMs)).leases = s.leases) ∧
      ∀ key', holder (step backend s (.release key token)).leases s.now key' = holder s.leases s.now key' := by
  refine ⟨fun ttlMs => ?_, fun key' => ?_⟩
  · simp only [step]
    obtain refused | ⟨held, -⟩ := extend_cases backend s.leases s.now key token ttlMs
    · rw [refused]
    · exact absurd held stale
  · simp only [step]
    obtain refused | ⟨⟨expiresAt, mine⟩, released⟩ := release_cases backend s.leases s.now key token
    · rw [refused]
    · rw [released]
      by_cases same : key' = key
      · subst same
        have expired : ¬ s.now < expiresAt := fun unexpired =>
          stale (holder_eq_some.mpr ⟨expiresAt, mine, unexpired⟩)
        simp [holder, AList.lookup_erase, mine, expired]
      · simp [holder, AList.lookup_erase_ne same]

/-- After every run, on either store and for any number of tokens: a key has at most one
token that may still believe to hold it, and that is the one the store has with the same
expiry; a command with some token spares all the others; and an extend or a release of a
token that does not hold the key changes no holder. -/
theorem lease_store_safe (backend : Backend) (events : List (Event Key Token)) :
    let s := run (step backend) State.empty events
    (∀ key token other, Unexpired s key token → Unexpired s key other → token = other) ∧
      (∀ key token, Unexpired s key token → holder s.leases s.now key = some token) ∧
      (∀ key token ttlMs, SparesOthers s (step backend s (.extend key token ttlMs)) token) ∧
      (∀ key token, SparesOthers s (step backend s (.release key token)) token) ∧
      ∀ key token, holder s.leases s.now key ≠ some token →
        (∀ ttlMs, (step backend s (.extend key token ttlMs)).leases = s.leases) ∧
          ∀ key', holder (step backend s (.release key token)).leases s.now key' = holder s.leases s.now key' := by
  intro s
  have backed : Backed s := run_backed backend events
  have held : ∀ key token, Unexpired s key token → holder s.leases s.now key = some token := by
    rintro key token ⟨expiresAt, told, unexpired⟩
    exact holder_eq_some.mpr ⟨expiresAt, backed key token expiresAt told unexpired, unexpired⟩
  refine ⟨fun key token other mine theirs => ?_, held, extend_sparesOthers backend s,
    release_sparesOthers backend s, fun key token stale => holder_of_stale stale⟩
  have same : some token = some other := (held key token mine).symm.trans (held key other theirs)
  exact Option.some.inj same

end AfroPay.LockStores
