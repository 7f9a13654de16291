import AfroPay.LockStores

/-! The in-memory store of locks beside Redis. Redis drops a key when its time is up; the map
keeps the entry until it is replaced or deleted. To `acquire` and `extend` such an entry is
absent, to `release` it is not. -/
namespace AfroPay.LockAgreement
open KeyedStore LockStores Runs
open LeaseStore (Lease holder)

variable {Key Token : Type} [DecidableEq Key] [DecidableEq Token]

/-- A Redis server and its clock. Every key has its time, and is gone when it has come. -/
structure Redis (Key Token : Type) where
  now : Nat
  keys : Key → Option (Lease Token)

namespace Redis

def empty : Redis Key Token := ⟨0, fun _ => none⟩

def get (redis : Redis Key Token) (key : Key) : Option Token := (redis.keys key).map Lease.token

def put (redis : Redis Key Token) (key : Key) (lease : Option (Lease Token)) : Redis Key Token :=
  { redis with keys := Function.update redis.keys key lease }

/-- `SET key token PX ttl NX`, which is an error for a `ttl` of zero. -/
def set (redis : Redis Key Token) (key : Key) (token : Token) (ttlMs : Nat) : Bool × Redis Key Token :=
  if ttlMs = 0 ∨ (redis.keys key).isSome then (false, redis)
  else (true, redis.put key (some ⟨token, redis.now + ttlMs⟩))

/-- `PEXPIRE key ttl` of a key that is there, which deletes it for a `ttl` of zero. -/
def pexpire (redis : Redis Key Token) (key : Key) (ttlMs : Nat) : Redis Key Token :=
  redis.put key (if ttlMs = 0 then none
    else (redis.keys key).map fun lease => { lease with expiresAt := redis.now + ttlMs })

/-- `EXTEND_SCRIPT`. -/
def extendScript (redis : Redis Key Token) (key : Key) (token : Token) (ttlMs : Nat) : Bool × Redis Key Token :=
  if redis.get key = some token then (true, redis.pexpire key ttlMs) else (false, redis)

/-- `RELEASE_SCRIPT`. -/
def releaseScript (redis : Redis Key Token) (key : Key) (token : Token) : Bool × Redis Key Token :=
  if redis.get key = some token then (true, redis.put key none) else (false, redis)

def tick (redis : Redis Key Token) (ms : Nat) : Redis Key Token where
  now := redis.now + ms
  keys := fun key => (redis.keys key).filter (redis.now + ms < ·.expiresAt)

/-- A command with its answer; time passes without one. -/
def execute (redis : Redis Key Token) : Event Key Token → Option Bool × Redis Key Token
  | .acquire key token ttlMs => (redis.set key token ttlMs).map some id
  | .extend key token ttlMs => (redis.extendScript key token ttlMs).map some id
  | .release key token => (redis.releaseScript key token).map some id
  | .tick ms => (none, redis.tick ms)

def step (redis : Redis Key Token) (event : Event Key Token) : Redis Key Token := (redis.execute event).2

def answer (redis : Redis Key Token) (event : Event Key Token) : Option Bool := (redis.execute event).1

end Redis

/-- What a store answers. -/
def answer (backend : Backend) (s : State Key Token) : Event Key Token → Option Bool
  | .acquire key token ttlMs => some (acquire backend s.leases s.now key token ttlMs).1
  | .extend key token ttlMs => some (extend backend s.leases s.now key token ttlMs).1
  | .release key token => some (release backend s.leases s.now key token).1
  | .tick _ => none

/-- A token of its own is not presented for an entry that has expired, and no free key is asked
for no time at all. -/
def Timely (s : State Key Token) : Event Key Token → Prop
  | .acquire key _ ttlMs => ttlMs = 0 → (holder s.leases s.now key).isSome
  | .release key token => ∀ lease ∈ s.leases.lookup key, lease.token = token → s.now < lease.expiresAt
  | .extend .. | .tick _ => True

instance (s : State Key Token) : DecidablePred (Timely s)
  | .acquire .. => inferInstanceAs (Decidable (_ → _))
  | .release .. => inferInstanceAs (Decidable (∀ lease ∈ _, _))
  | .extend .. | .tick _ => isTrue trivial

variable {s : State Key Token} {redis : Redis Key Token} {event : Event Key Token}

/-- The part of an entry's life that counts. -/
def live (now : Nat) (lease : Option (Lease Token)) : Option (Lease Token) := lease.filter (now < ·.expiresAt)

/-- Redis holds what has not expired in the map. -/
structure Mirrors (s : State Key Token) (redis : Redis Key Token) : Prop where
  now : redis.now = s.now
  keys : ∀ key, redis.keys key = live s.now (s.leases.lookup key)

section Live
variable {Token : Type} {now : Nat} {lease : Lease Token}

end Live

section Memory
variable (leases : Store Key (Lease Token)) (now : Nat) (key : Key) (token : Token) (ttlMs : Nat)

end Memory

section Mirror
variable {key : Key}

end Mirror

end AfroPay.LockAgreement
