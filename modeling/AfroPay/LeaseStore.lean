import AfroPay.KeyedStore

/-! A store of leases: a key is held by one token until a time, a free key can be taken,
and only the token that holds a key can extend or release it. A lease that has run out
is as good as absent. -/
namespace AfroPay.LeaseStore
open KeyedStore

structure Lease (Token : Type) where
  token : Token
  expiresAt : Nat
  deriving DecidableEq

variable {Key Token : Type} [DecidableEq Key]

/-- The token that holds the key now. -/
def holder (store : Store Key (Lease Token)) (now : Nat) (key : Key) : Option Token :=
  match store.lookup key with
  | some lease => if now < lease.expiresAt then some lease.token else none
  | none => none

theorem holder_eq_some {store : Store Key (Lease Token)} {now : Nat} {key : Key} {token : Token} :
    holder store now key = some token ↔
      ∃ expiresAt, store.lookup key = some ⟨token, expiresAt⟩ ∧ now < expiresAt := by
  unfold holder
  constructor
  · intro held
    split at held
    · rename_i lease found
      split at held
      · rename_i unexpired
        cases held
        exact ⟨lease.expiresAt, found, unexpired⟩
      · cases held
    · cases held
  · rintro ⟨expiresAt, found, unexpired⟩
    rw [found]
    exact if_pos unexpired

/-- `SET key token PX ttl NX`. -/
def setNx (store : Store Key (Lease Token)) (now : Nat) (key : Key) (token : Token) (ttl : Nat) :
    Bool × Store Key (Lease Token) :=
  if holder store now key = none ∧ 0 < ttl then (true, store.insert key ⟨token, now + ttl⟩) else (false, store)

/-- `SET key token PX ttl`, whoever holds the key; refused if it would expire at once. -/
def setEx (store : Store Key (Lease Token)) (now : Nat) (key : Key) (token : Token) (ttl : Nat) :
    Option (Store Key (Lease Token)) :=
  if ttl = 0 then none else some (store.insert key ⟨token, now + ttl⟩)

theorem setEx_eq_some {store after : Store Key (Lease Token)} {now : Nat} {key : Key} {token : Token} {ttl : Nat} :
    setEx store now key token ttl = some after ↔ 0 < ttl ∧ after = store.insert key ⟨token, now + ttl⟩ := by
  unfold setEx
  split
  · simp [*]
  · simp [Nat.pos_iff_ne_zero, *, eq_comm]

/-- Time only takes leases away. -/
theorem holder_later {store : Store Key (Lease Token)} {now later : Nat} {key : Key} {token : Token}
    (le : now ≤ later) (held : holder store later key = some token) : holder store now key = some token := by
  unfold holder at held ⊢
  split at held
  · rename_i lease found
    split at held
    · rw [if_pos (by omega)]
      exact held
    · cases held
  · cases held

theorem holder_insert {store : Store Key (Lease Token)} {now : Nat} {key other : Key} {lease : Lease Token} :
    holder (store.insert key lease) now other =
      if other = key then if now < lease.expiresAt then some lease.token else none else holder store now other := by
  by_cases same : other = key
  · subst same
    simp [holder, AList.lookup_insert]
  · simp [holder, AList.lookup_insert_ne same, same]

/-- Taking a key gives it to the taker and changes no other holder. -/
theorem holder_setNx {store : Store Key (Lease Token)} {now : Nat} {key other : Key} {token held : Token} {ttl : Nat}
    (after : holder (setNx store now key token ttl).2 now other = some held) :
    holder store now other = some held ∨
      other = key ∧ held = token ∧ (setNx store now key token ttl).1 = true := by
  unfold setNx at after ⊢
  split at after
  · rw [holder_insert] at after
    split at after
    · rename_i free same
      split at after
      · cases after
        exact .inr ⟨same, rfl, by simp [free]⟩
      · cases after
    · exact .inl after
  · exact .inl after

theorem setNx_granted {store : Store Key (Lease Token)} {now : Nat} {key : Key} {token : Token} {ttl : Nat}
    (granted : (setNx store now key token ttl).1 = true) : holder store now key = none := by
  unfold setNx at granted
  split at granted
  · rename_i free
    exact free.1
  · cases granted

variable [DecidableEq Token]

/-- `PEXPIRE key ttl`, if the token holds the key. -/
def extend (store : Store Key (Lease Token)) (now : Nat) (key : Key) (token : Token) (ttl : Nat) :
    Bool × Store Key (Lease Token) :=
  if holder store now key = some token then (true, store.insert key ⟨token, now + ttl⟩) else (false, store)

/-- `DEL key`, if the token holds the key. -/
def release (store : Store Key (Lease Token)) (now : Nat) (key : Key) (token : Token) :
    Bool × Store Key (Lease Token) :=
  if holder store now key = some token then (true, store.erase key) else (false, store)

/-- Extending a lease changes no holder. -/
theorem holder_extend {store : Store Key (Lease Token)} {now : Nat} {key other : Key} {token held : Token} {ttl : Nat}
    (after : holder (extend store now key token ttl).2 now other = some held) :
    holder store now other = some held := by
  unfold extend at after
  split at after
  · rename_i mine
    rw [holder_insert] at after
    split at after
    · rename_i same
      split at after
      · cases after
        rw [same]
        exact mine
      · cases after
    · exact after
  · exact after

/-- Releasing a lease gives no key to anyone. -/
theorem holder_release {store : Store Key (Lease Token)} {now : Nat} {key other : Key} {token held : Token}
    (after : holder (release store now key token).2 now other = some held) :
    holder store now other = some held := by
  unfold release at after
  split at after
  · by_cases same : other = key
    · subst same
      simp [holder, AList.lookup_erase] at after
    · simpa [holder, AList.lookup_erase_ne same] using after
  · exact after

theorem release_deleted {store : Store Key (Lease Token)} {now : Nat} {key : Key} {token : Token} :
    (release store now key token).1 = true ↔ holder store now key = some token := by
  unfold release
  split <;> simp_all

end AfroPay.LeaseStore
