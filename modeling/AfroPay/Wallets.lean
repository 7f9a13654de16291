import AfroPay.Interleaving
import AfroPay.WebText

/-! The wallets of a user: `createWallet`, `setDefaultWallet` and `deleteWallet`, each a
sequence of database statements without a transaction around them. Nothing in the schema
keeps the number of wallets or of default flags; the reads before a write are meant to. -/
namespace AfroPay.Wallets
open Interleaving KeyedStore Runs WebText

structure Wallet where
  userId : String
  publicKey : String
  walletAlias : Option String
  isDefault : Bool
  /-- What `createWallet` leaves out. -/
  encryptedSecret : Option String
  encryptedDek : Option String
  kmsKeyId : Option String
  deriving DecidableEq

/-- The row that `createWallet` inserts. -/
def newWallet (userId publicKey : String) (walletAlias : Option String) (isDefault : Bool) : Wallet :=
  ⟨userId, publicKey, walletAlias, isDefault, none, none, none⟩

structure Database where
  wallets : Store String Wallet
  /-- The `walletId` of every transaction; the foreign key restricts deletion. -/
  transactionWallets : List String

inductive Exception where
  | error (message : String)
  | notFound (message : String)
  /-- What the database client threw. -/
  | database (code : String)
  deriving DecidableEq

inductive Request where
  | createWallet (publicKey : String) (walletAlias : Option String)
  | setDefaultWallet (walletId : String)
  | deleteWallet (walletId : String)
  deriving DecidableEq

/-- What `setDefaultWallet` returns to: its caller, or the deletion of a default wallet. -/
inductive Goal where
  | done
  | delete (walletId : String)
  deriving DecidableEq

/-- The statement that a call makes next. -/
inductive Phase where
  /-- `createWallet` lists the wallets of the user. -/
  | listing (publicKey : String) (walletAlias : Option String)
  | inserting (publicKey : String) (walletAlias : Option String) (isDefault : Bool)
  /-- `setDefaultWallet` checks the owner, clears the flags and sets one. -/
  | owning (walletId : String) (goal : Goal)
  | clearing (walletId : String) (goal : Goal)
  | setting (walletId : String) (goal : Goal)
  /-- `deleteWallet` checks the owner, counts, reads the wallet again and chooses another. -/
  | owningDeleted (walletId : String)
  | counting (walletId : String)
  | rereading (walletId : String)
  | choosing (walletId : String)
  | deleting (walletId : String)
  | returned (result : Except Exception (Option Wallet))

/-- What a statement is given from outside: the id of a new row or the row that `findFirst`
comes across first, and whether the client takes the payload of an insert. That payload
leaves out `encryptedSecret`, which the schema requires. -/
structure Outside where
  walletId : String
  accepted : Bool
  deriving DecidableEq

section Queries
variable (userId : String) (db : Database)

/-- The number of wallets of the user. -/
def walletCount : Nat := db.wallets.entries.countP fun entry => entry.2.userId = userId

def defaultCount : Nat := db.wallets.entries.countP fun entry => entry.2.userId = userId && entry.2.isDefault

/-- The wallet, if it is the user's. -/
def getWalletById (walletId : String) : Except Exception Wallet :=
  match db.wallets.lookup walletId with
  | some wallet => if wallet.userId = userId then .ok wallet else .error (.notFound "Wallet not found")
  | none => .error (.notFound "Wallet not found")

/-- The ids of the user's wallets other than one. -/
def otherWallets (walletId : String) : List String :=
  (db.wallets.entries.filter fun entry => entry.2.userId = userId && entry.1 ≠ walletId).map (·.1)

/-- `findFirst` without an order: any of the rows. -/
def findFirst (rows : List String) (first : String) : Option String :=
  if first ∈ rows then some first else rows.head?

/-- The public key, or the user's alias, is taken, or the id is. -/
def conflicts (walletId publicKey : String) (walletAlias : Option String) : Bool :=
  (db.wallets.lookup walletId).isSome || db.wallets.entries.any fun entry =>
    entry.2.publicKey = publicKey || (walletAlias.isSome && entry.2.userId = userId && entry.2.walletAlias = walletAlias)

/-- `updateMany`: no wallet of the user is the default. -/
def clearDefaults : Database :=
  { db with wallets := mapValues db.wallets fun wallet =>
      if wallet.userId = userId then { wallet with isDefault := false } else wallet }

end Queries

def fail (exception : Exception) : Phase := .returned (.error exception)

/-- The limit, then the length of the alias, are checked on what was listed. -/
def checkNew (existing : Nat) (publicKey : String) (walletAlias : Option String) : Phase :=
  if existing ≥ 5 then fail (.error "Wallet limit (5) reached for this user")
  else if walletAlias.any (utf16Length · > 32) then fail (.error "Wallet alias must be 32 characters or less")
  else .inserting publicKey walletAlias (existing = 0)

/-- After the flag is set the call returns, or deletes the wallet that was the default. -/
def Goal.next (wallet : Wallet) : Goal → Phase
  | .done => .returned (.ok (some wallet))
  | .delete walletId => .deleting walletId

/-- One statement of a call of the user. -/
def proceed (userId : String) (db : Database) (phase : Phase) (outside : Outside) : Database × Phase :=
  match phase with
  | .listing publicKey walletAlias => (db, checkNew (walletCount userId db) publicKey walletAlias)
  | .inserting publicKey walletAlias isDefault =>
    if ¬ outside.accepted then (db, fail (.database "PrismaClientValidationError"))
    else if conflicts userId db outside.walletId publicKey walletAlias then (db, fail (.database "P2002"))
    else
      let wallet := newWallet userId publicKey walletAlias isDefault
      ({ db with wallets := db.wallets.insert outside.walletId wallet }, .returned (.ok (some wallet)))
  | .owning walletId goal =>
    match getWalletById userId db walletId with
    | .ok _ => (db, .clearing walletId goal)
    | .error exception => (db, fail exception)
  | .clearing walletId goal => (clearDefaults userId db, .setting walletId goal)
  | .setting walletId goal =>
    match db.wallets.lookup walletId with
    | some wallet =>
      let updated := { wallet with isDefault := true }
      ({ db with wallets := db.wallets.insert walletId updated }, goal.next updated)
    | none => (db, fail (.database "P2025"))
  | .owningDeleted walletId =>
    match getWalletById userId db walletId with
    | .ok _ => (db, .counting walletId)
    | .error exception => (db, fail exception)
  | .counting walletId =>
    if walletCount userId db ≤ 1 then (db, fail (.error "Cannot delete the last wallet"))
    else (db, .rereading walletId)
  | .rereading walletId =>
    if (db.wallets.lookup walletId).any (·.isDefault) then (db, .choosing walletId) else (db, .deleting walletId)
  | .choosing walletId =>
    match findFirst (otherWallets userId db walletId) outside.walletId with
    | some another => (db, .owning another (.delete walletId))
    | none => (db, .deleting walletId)
  | .deleting walletId =>
    if (db.wallets.lookup walletId).isNone then (db, fail (.database "P2025"))
    else if walletId ∈ db.transactionWallets then (db, fail (.database "P2003"))
    else ({ db with wallets := db.wallets.erase walletId }, .returned (.ok none))
  | .returned _ => (db, phase)

def start : Request → Phase
  | .createWallet publicKey walletAlias => .listing publicKey walletAlias
  | .setDefaultWallet walletId => .owning walletId .done
  | .deleteWallet walletId => .owningDeleted walletId

/-- Nothing happens to the wallets of the user outside of these calls. -/
def service (userId : String) : Service Database Phase Request Outside Empty where
  begin := start
  proceed := proceed userId
  act db _ := db

abbrev State := System Database Phase

abbrev Step := Event Request Outside Empty

/-- Between one and five wallets, one of them the default. -/
structure WellKept (userId : String) (db : Database) : Prop where
  atLeastOne : 1 ≤ walletCount userId db
  atMostFive : walletCount userId db ≤ 5
  oneDefault : defaultCount userId db = 1

def Phase.isReturned : Phase → Bool
  | .returned _ => true
  | _ => false

/-- No call is under way. -/
def Finished (s : State) : Prop := ∀ entry ∈ s.calls.entries, entry.2.isReturned

instance (s : State) : Decidable (Finished s) := inferInstanceAs (Decidable (∀ entry ∈ s.calls.entries, _))

/-- What the call read before still stands when its write lands: an insert finds fewer than
five wallets, and none at all if it makes the first default; the wallet that becomes the
default is there, and no other is the default; the wallet that is deleted is not the default. -/
def Timely (userId : String) (db : Database) (outside : Outside) : Phase → Prop
  | .inserting publicKey walletAlias isDefault =>
    outside.accepted → ¬ conflicts userId db outside.walletId publicKey walletAlias →
      walletCount userId db < 5 ∧ (isDefault → walletCount userId db = 0)
  | .setting walletId _ => (db.wallets.lookup walletId).isSome ∧
      ∀ entry ∈ db.wallets.entries, entry.2.userId = userId → entry.2.isDefault → entry.1 = walletId
  | .deleting walletId => walletId ∉ db.transactionWallets →
      ∀ wallet ∈ db.wallets.lookup walletId, wallet.isDefault = false
  | _ => True

instance (userId : String) (db : Database) (outside : Outside) : DecidablePred (Timely userId db outside)
  | .inserting .. => inferInstanceAs (Decidable (_ → _ → _ ∧ _))
  | .setting .. => inferInstanceAs (Decidable (_ ∧ _))
  | .deleting _ => inferInstanceAs (Decidable (_ → _))
  | .listing .. | .owning .. | .clearing .. | .owningDeleted _ | .counting _ | .rereading _ | .choosing _
  | .returned _ => isTrue trivial

def NoStaleWrite (userId : String) (s : State) : Step → Prop
  | .advance id outside => ∀ phase ∈ s.calls.lookup id, Timely userId s.shared outside phase
  | .call .. | .act _ => True

instance (userId : String) (s : State) : DecidablePred (NoStaleWrite userId s)
  | .advance .. => inferInstanceAs (Decidable (∀ phase ∈ _, _))
  | .call .. | .act _ => isTrue trivial

variable {userId : String} {db : Database} {phase : Phase} {outside : Outside} {s : State} {event : Step}

/-- The wallet `setDefaultWallet` works on is the user's. -/
def Owned (userId : String) (db : Database) : Phase → Prop
  | .clearing walletId _ | .setting walletId _ =>
    ∀ wallet, db.wallets.lookup walletId = some wallet → wallet.userId = userId
  | _ => True

/-- Everything a statement can do. -/
inductive Proceeds (userId : String) (db : Database) (outside : Outside) : Phase → Database × Phase → Prop where
  | reads (phase next : Phase) (before : ∀ walletId goal, phase ≠ .setting walletId goal) (owned : Owned userId db next)
      (after : ∀ walletId goal, next ≠ .setting walletId goal) : Proceeds userId db outside phase (db, next)
  | inserts (publicKey : String) (walletAlias : Option String) (isDefault : Bool) (accepted : outside.accepted)
      (free : ¬ conflicts userId db outside.walletId publicKey walletAlias) :
      Proceeds userId db outside (.inserting publicKey walletAlias isDefault)
        ({ db with wallets := db.wallets.insert outside.walletId (newWallet userId publicKey walletAlias isDefault) },
          .returned (.ok (some (newWallet userId publicKey walletAlias isDefault))))
  | clears (walletId : String) (goal : Goal) :
      Proceeds userId db outside (.clearing walletId goal) (clearDefaults userId db, .setting walletId goal)
  | sets (walletId : String) (goal : Goal) (wallet : Wallet) (found : db.wallets.lookup walletId = some wallet) :
      Proceeds userId db outside (.setting walletId goal)
        ({ db with wallets := db.wallets.insert walletId { wallet with isDefault := true } },
          goal.next { wallet with isDefault := true })
  | misses (walletId : String) (goal : Goal) (absent : db.wallets.lookup walletId = none) (next : Phase)
      (after : ∃ result, next = .returned result) : Proceeds userId db outside (.setting walletId goal) (db, next)
  | deletes (walletId : String) (wallet : Wallet) (found : db.wallets.lookup walletId = some wallet)
      (unused : walletId ∉ db.transactionWallets) :
      Proceeds userId db outside (.deleting walletId)
        ({ db with wallets := db.wallets.erase walletId }, .returned (.ok none))

theorem getWalletById_ok {walletId : String} {wallet : Wallet} (found : getWalletById userId db walletId = .ok wallet) :
    db.wallets.lookup walletId = some wallet ∧ wallet.userId = userId := by
  unfold getWalletById at found
  split at found
  · split at found
    · cases found
      exact ⟨‹_›, ‹_›⟩
    · cases found
  · cases found

theorem checkNew_reads (existing : Nat) (publicKey : String) (walletAlias : Option String) :
    (∃ result, checkNew existing publicKey walletAlias = .returned result) ∨
      ∃ isDefault, checkNew existing publicKey walletAlias = .inserting publicKey walletAlias isDefault := by
  unfold checkNew fail
  split
  · exact .inl ⟨_, rfl⟩
  · split
    · exact .inl ⟨_, rfl⟩
    · exact .inr ⟨_, rfl⟩

theorem proceeds (userId : String) (db : Database) (phase : Phase) (outside : Outside) :
    Proceeds userId db outside phase (proceed userId db phase outside) := by
  cases phase with
  | listing publicKey walletAlias =>
    simp only [proceed]
    rcases checkNew_reads (walletCount userId db) publicKey walletAlias with ⟨_, next⟩ | ⟨_, next⟩ <;> rw [next]
    · exact .reads _ _ (by simp) trivial (by simp)
    · exact .reads _ _ (by simp) trivial (by simp)
  | inserting publicKey walletAlias isDefault =>
    simp only [proceed]
    split
    · exact .reads _ _ (by simp) trivial (by simp [fail])
    · rename_i accepted
      split
      · exact .reads _ _ (by simp) trivial (by simp [fail])
      · rename_i free
        exact .inserts publicKey walletAlias isDefault (not_not.mp accepted) free
  | owning walletId goal =>
    simp only [proceed]
    split
    · rename_i wallet found
      refine .reads _ _ (by simp) ?_ (by simp)
      intro other held
      rw [(getWalletById_ok found).1] at held
      cases held
      exact (getWalletById_ok found).2
    · exact .reads _ _ (by simp) trivial (by simp [fail])
  | clearing walletId goal => exact .clears walletId goal
  | setting walletId goal =>
    simp only [proceed]
    split
    · exact .sets walletId goal _ ‹_›
    · exact .misses walletId goal ‹_› _ ⟨_, rfl⟩
  | owningDeleted walletId =>
    simp only [proceed]
    split
    · exact .reads _ _ (by simp) trivial (by simp)
    · exact .reads _ _ (by simp) trivial (by simp [fail])
  | counting walletId =>
    simp only [proceed]
    split
    · exact .reads _ _ (by simp) trivial (by simp [fail])
    · exact .reads _ _ (by simp) trivial (by simp)
  | rereading walletId =>
    simp only [proceed]
    split
    · exact .reads _ _ (by simp) trivial (by simp)
    · exact .reads _ _ (by simp) trivial (by simp)
  | choosing walletId =>
    simp only [proceed]
    split
    · exact .reads _ _ (by simp) trivial (by simp)
    · exact .reads _ _ (by simp) trivial (by simp)
  | deleting walletId =>
    simp only [proceed]
    split
    · exact .reads _ _ (by simp) trivial (by simp [fail])
    · rename_i present
      split
      · exact .reads _ _ (by simp) trivial (by simp [fail])
      · rename_i unused
        obtain ⟨wallet, found⟩ := Option.ne_none_iff_exists'.mp (mt Option.isNone_iff_eq_none.mpr present)
        exact .deletes walletId wallet found unused
  | returned result => exact .reads _ _ (by simp) trivial (by simp)

/-- A wallet after a statement is the user's, or it has the owner it had. -/
theorem owner_proceed {result : Database × Phase} (all : Proceeds userId db outside phase result) {walletId : String}
    {wallet : Wallet} (found : result.1.wallets.lookup walletId = some wallet) :
    wallet.userId = userId ∨ ∃ old, db.wallets.lookup walletId = some old ∧ old.userId = wallet.userId := by
  cases all with
  | reads => exact .inr ⟨wallet, found, rfl⟩
  | inserts publicKey walletAlias isDefault accepted free =>
    rcases lookup_insert_some.mp found with ⟨-, rfl⟩ | ⟨-, old⟩
    · exact .inl rfl
    · exact .inr ⟨wallet, old, rfl⟩
  | clears =>
    simp only [clearDefaults, lookup_mapValues, Option.map_eq_some_iff] at found
    obtain ⟨old, held, rfl⟩ := found
    refine .inr ⟨old, held, ?_⟩
    split <;> rfl
  | sets other goal old held =>
    rcases lookup_insert_some.mp found with ⟨rfl, rfl⟩ | ⟨-, same⟩
    · exact .inr ⟨old, held, rfl⟩
    · exact .inr ⟨wallet, same, rfl⟩
  | misses => exact .inr ⟨wallet, found, rfl⟩
  | deletes => exact .inr ⟨wallet, lookup_erase_some found, rfl⟩

/-- Statements of any call keep what `setDefaultWallet` knows of its wallet. -/
theorem owned_proceed {result : Database × Phase} (all : Proceeds userId db outside phase result) {other : Phase}
    (owned : Owned userId db other) : Owned userId result.1 other := by
  have keeps (walletId : String)
      (mine : ∀ wallet, db.wallets.lookup walletId = some wallet → wallet.userId = userId) (wallet : Wallet)
      (found : result.1.wallets.lookup walletId = some wallet) : wallet.userId = userId := by
    rcases owner_proceed all found with direct | ⟨old, held, same⟩
    · exact direct
    · rw [← same]
      exact mine old held
  cases other with
  | clearing walletId goal => exact keeps walletId owned
  | setting walletId goal => exact keeps walletId owned
  | _ => trivial

theorem owned_next {result : Database × Phase} (all : Proceeds userId db outside phase result)
    (owned : Owned userId db phase) : Owned userId result.1 result.2 := by
  cases all with
  | reads phase next before owned after => exact owned
  | inserts => trivial
  | clears walletId goal => exact owned_proceed (@Proceeds.clears userId db outside walletId goal) owned
  | sets walletId goal => cases goal <;> trivial
  | misses walletId goal absent next after =>
    obtain ⟨result, rfl⟩ := after
    trivial
  | deletes => trivial

theorem step_owned (owned : Each (Owned userId) s) : Each (Owned userId) (step (service userId) s event) := by
  apply each_step owned
  · intro request
    cases request <;> trivial
  · intro id outside phase _ found
    have all := proceeds userId s.shared phase outside
    exact ⟨owned_next all (owned id phase found), fun other held => owned_proceed all held⟩
  · intro act
    exact act.elim

theorem walletCount_insert (userId : String) (db : Database) (walletId : String) (wallet : Wallet) :
    (walletCount userId { db with wallets := db.wallets.insert walletId wallet } : Int) = walletCount userId db -
        (db.wallets.lookup walletId).elim 0 (fun held => if held.userId = userId then 1 else 0) +
      if wallet.userId = userId then 1 else 0 := by
  simpa [walletCount] using countP_insert db.wallets (fun entry => entry.2.userId = userId) walletId wallet

theorem defaultCount_insert (userId : String) (db : Database) (walletId : String) (wallet : Wallet) :
    (defaultCount userId { db with wallets := db.wallets.insert walletId wallet } : Int) = defaultCount userId db -
        (db.wallets.lookup walletId).elim 0 (fun held => if held.userId = userId && held.isDefault then 1 else 0) +
      if wallet.userId = userId && wallet.isDefault then 1 else 0 :=
  countP_insert db.wallets (fun entry => entry.2.userId = userId && entry.2.isDefault) walletId wallet

theorem defaultCount_erase (userId : String) (db : Database) (walletId : String) :
    (defaultCount userId { db with wallets := db.wallets.erase walletId } : Int) = defaultCount userId db -
      (db.wallets.lookup walletId).elim 0 (fun held => if held.userId = userId && held.isDefault then 1 else 0) :=
  countP_erase db.wallets (fun entry => entry.2.userId = userId && entry.2.isDefault) walletId

theorem walletCount_erase_le (walletId : String) :
    walletCount userId { db with wallets := db.wallets.erase walletId } ≤ walletCount userId db :=
  (List.kerase_sublist walletId db.wallets.entries).countP_le

theorem walletCount_clear : walletCount userId (clearDefaults userId db) = walletCount userId db := by
  unfold walletCount clearDefaults
  rw [countP_mapValues]
  congr 1
  funext entry
  split <;> simp_all

theorem defaultCount_le_walletCount (userId : String) (db : Database) : defaultCount userId db ≤ walletCount userId db := by
  apply List.countP_mono_left
  intro entry _ counted
  simp only [Bool.and_eq_true] at counted
  exact counted.1

/-- Where the only default can be the given wallet, setting it leaves exactly one. -/
theorem defaultCount_set {walletId : String} {wallet : Wallet} (owner : wallet.userId = userId)
    (others : ∀ entry ∈ db.wallets.entries, entry.2.userId = userId → entry.2.isDefault → entry.1 = walletId) :
    defaultCount userId { db with wallets := db.wallets.insert walletId { wallet with isDefault := true } } = 1 := by
  subst owner
  have rest : defaultCount wallet.userId { db with wallets := db.wallets.erase walletId } = 0 := by
    refine List.countP_eq_zero.mpr ?_
    rintro ⟨other, held⟩ member counted
    have kept : (db.wallets.erase walletId).lookup other = some held := AList.mem_lookup_iff.mpr member
    simp only [Bool.and_eq_true, decide_eq_true_eq] at counted
    have before : db.wallets.lookup other = some held := lookup_erase_some kept
    have same : other = walletId := others _ (AList.mem_lookup_iff.mp before) counted.1 counted.2
    rw [same, AList.lookup_erase] at kept
    cases kept
  have without := defaultCount_erase wallet.userId db walletId
  have after := defaultCount_insert wallet.userId db walletId { wallet with isDefault := true }
  rw [rest] at without
  simp only [decide_true, Bool.and_true, if_true] at after
  omega

/-- The flag was cleared and the call is about to set it. -/
def Setting (s : State) : Prop := ∃ id walletId goal, s.calls.lookup id = some (.setting walletId goal)

/-- At most five wallets, and exactly one default unless a call is about to set it. -/
structure Kept (userId : String) (s : State) : Prop where
  atMostFive : walletCount userId s.shared ≤ 5
  oneDefault : defaultCount userId s.shared = 1 ∨ Setting s

/-- A call that was about to set the flag still is when another call has stepped. -/
theorem setting_insert {shared : Database} {id : Nat} {next : Phase} (setting : Setting s)
    (mine : ∀ walletId goal, s.calls.lookup id ≠ some (.setting walletId goal)) :
    Setting ⟨shared, s.calls.insert id next⟩ := by
  obtain ⟨other, walletId, goal, found⟩ := setting
  refine ⟨other, walletId, goal, lookup_insert_some.mpr (.inr ⟨?_, found⟩)⟩
  rintro rfl
  exact mine walletId goal found

theorem step_kept (kept : Kept userId s) (owned : Each (Owned userId) s) (timely : NoStaleWrite userId s event) :
    Kept userId (step (service userId) s event) := by
  have moves := steps (service userId) s event
  generalize step (service userId) s event = s' at moves
  cases moves with
  | idle => exact kept
  | begins id request free =>
    refine ⟨kept.atMostFive, kept.oneDefault.imp_right fun setting => setting_insert setting ?_⟩
    simp [free]
  | advances id outside phase found =>
    have all := proceeds userId s.shared phase outside
    have written := timely phase found
    have mine := owned id phase found
    change Kept userId ⟨(proceed userId s.shared phase outside).1,
      s.calls.insert id (proceed userId s.shared phase outside).2⟩
    generalize proceed userId s.shared phase outside = result at all
    cases all with
    | reads _ next before owned after =>
      refine ⟨kept.atMostFive, kept.oneDefault.imp_right fun setting => setting_insert setting ?_⟩
      intro walletId goal held
      rw [found] at held
      exact before walletId goal (Option.some.inj held)
    | inserts publicKey walletAlias isDefault accepted free =>
      obtain ⟨room, first⟩ := written accepted free
      have absent : s.shared.wallets.lookup outside.walletId = none := by
        simp only [conflicts, Bool.or_eq_true, not_or] at free
        simpa using free.1
      have count := walletCount_insert userId s.shared outside.walletId
        (newWallet userId publicKey walletAlias isDefault)
      have defaults := defaultCount_insert userId s.shared outside.walletId
        (newWallet userId publicKey walletAlias isDefault)
      simp only [absent, Option.elim_none, newWallet, if_true, decide_true, Bool.true_and] at count defaults
      simp only [newWallet]
      refine ⟨by simp only; omega, ?_⟩
      refine kept.oneDefault.imp ?_ fun setting => setting_insert setting (by simp [found])
      intro one
      have some := defaultCount_le_walletCount userId s.shared
      have plain : isDefault = false := by
        cases isDefault with
        | false => rfl
        | true =>
          have none := first rfl
          omega
      simp only [plain, Bool.false_eq_true, if_false] at defaults
      simp only [plain]
      omega
    | clears walletId goal =>
      refine ⟨?_, .inr ⟨id, walletId, goal, AList.lookup_insert _⟩⟩
      simp only [walletCount_clear]
      exact kept.atMostFive
    | sets walletId goal wallet held =>
      obtain ⟨-, others⟩ := written
      have owner := mine wallet held
      have count := walletCount_insert userId s.shared walletId { wallet with isDefault := true }
      have most := kept.atMostFive
      simp only [held, Option.elim_some, if_pos owner] at count
      exact ⟨by simp only; omega, .inl (defaultCount_set owner others)⟩
    | misses walletId goal absent next after =>
      have present := written.1
      simp [absent] at present
    | deletes walletId wallet held unused =>
      have plain := written unused wallet held
      have defaults := defaultCount_erase userId s.shared walletId
      simp only [held, Option.elim_some, plain, Bool.and_false, Bool.false_eq_true, if_false] at defaults
      refine ⟨(walletCount_erase_le walletId).trans kept.atMostFive, ?_⟩
      refine kept.oneDefault.imp ?_ fun setting => setting_insert setting (by simp [found])
      intro one
      simp only
      omega
  | acts act => exact act.elim

/-- Along a run without stale writes, the wallets are well kept whenever no call is under way. -/
theorem wellKept_of_noStaleWrite (wellKept : WellKept userId db) (events : List Step)
    (timely : Throughout (step (service userId)) (NoStaleWrite userId) (.fresh db) events)
    (finished : Finished (run (step (service userId)) (.fresh db) events)) :
    WellKept userId (run (step (service userId)) (.fresh db) events).shared := by
  have initial : Kept userId (.fresh db) ∧ Each (Owned userId) (.fresh db) :=
    ⟨⟨wellKept.atMostFive, .inl wellKept.oneDefault⟩, each_fresh _ db⟩
  have final := run_invariant_of (fun s => Kept userId s ∧ Each (Owned userId) s)
    (fun _ _ both timely => ⟨step_kept both.1 both.2 timely, step_owned both.2⟩) initial timely
  have one : defaultCount userId (run (step (service userId)) (.fresh db) events).shared = 1 := by
    rcases final.1.oneDefault with one | ⟨id, walletId, goal, found⟩
    · exact one
    · have returned := finished _ (AList.mem_lookup_iff.mp found)
      cases returned
  have some := defaultCount_le_walletCount userId (run (step (service userId)) (.fresh db) events).shared
  exact ⟨by omega, final.1.atMostFive, one⟩

/-- A user with two wallets, the first of them the default. -/
def twoWallets : Database :=
  ⟨AList.insert "w1" (newWallet "user" "G1" none true) (AList.insert "w2" (newWallet "user" "G2" none false) ∅), []⟩

def nothing : Outside := ⟨"", false⟩

/-- The default moves to the second wallet, and then the first is deleted. -/
def moveAndDelete : List Step :=
  [.call 0 (.setDefaultWallet "w2"), .advance 0 nothing, .advance 0 nothing, .advance 0 nothing,
    .call 1 (.deleteWallet "w1"), .advance 1 nothing, .advance 1 nothing, .advance 1 nothing, .advance 1 nothing]

/-- Both wallets are made the default, each clearing the flags before either sets its own. -/
def overlappingDefaults : List Step :=
  [.call 0 (.setDefaultWallet "w1"), .call 1 (.setDefaultWallet "w2"), .advance 0 nothing, .advance 1 nothing,
    .advance 0 nothing, .advance 1 nothing, .advance 0 nothing, .advance 1 nothing]

theorem wellKept_of_noStaleWrite_moveAndDelete :
    WellKept "user" (run (step (service "user")) (.fresh twoWallets) moveAndDelete).shared :=
  wellKept_of_noStaleWrite ⟨by decide +kernel, by decide +kernel, by decide +kernel⟩ moveAndDelete
    (by decide +kernel) (by decide +kernel)

/-- Two overlapping calls leave two defaults. -/
theorem overlapping_defaults_both_set :
    WellKept "user" twoWallets ∧ Finished (run (step (service "user")) (.fresh twoWallets) overlappingDefaults) ∧
      defaultCount "user" (run (step (service "user")) (.fresh twoWallets) overlappingDefaults).shared = 2 ∧
      ¬ WellKept "user" (run (step (service "user")) (.fresh twoWallets) overlappingDefaults).shared := by
  have two : defaultCount "user" (run (step (service "user")) (.fresh twoWallets) overlappingDefaults).shared = 2 := by
    decide +kernel
  refine ⟨⟨by decide +kernel, by decide +kernel, by decide +kernel⟩, by decide +kernel, two, ?_⟩
  intro wellKept
  have one := wellKept.oneDefault
  omega

end AfroPay.Wallets
