import AfroPay.Erasure
import AfroPay.Interleaving

/-! The financial records of a user across erasures, with wallets being created and transfers
being sent at the same time. The wallets are listed before the transaction that moves them, and
what is not moved is deleted with the user; but no wallet comes in between, since the only
insert leaves out a column that the schema requires. -/
namespace AfroPay.Erasure.Records
open Interleaving KeyedStore Runs

/-- What `sendTransfer` is given. -/
structure Send where
  userId : String
  dto : Transfer.SendDto
  idempotencyKey : Option String
  deriving DecidableEq

/-- The statement that `sendTransfer` makes next. -/
inductive SendPhase where
  /-- The cached response and the daily limit, which change no row. -/
  | checking
  | wallet
  | insert (walletId : String)
  | replayFind
  /-- The row is there; the queue and the cache follow. -/
  | sent (txId : String)
  | gone
  deriving DecidableEq

/-- What a statement of `sendTransfer` is given from outside: whether it goes through, the row
that `findFirst` comes across first, and the id and time of a new row. -/
structure SendOutside where
  passes : Bool
  walletId : String
  txId : String
  now : Nat
  deriving DecidableEq

section Calls
variable (db : Database)

/-- The row of the user with the key. -/
def findByKey (userId key : String) : Option String :=
  (db.transactions.entries.find? fun entry => entry.2.userId = userId && entry.2.idempotencyKey = some key).map (·.1)

/-- The id is taken, or the user has the key already. -/
def sendConflicts (send : Send) (txId : String) : Bool :=
  (db.transactions.lookup txId).isSome || send.idempotencyKey.any fun key => (findByKey db send.userId key).isSome

def sendTransfer (send : Send) (phase : SendPhase) (outside : SendOutside) : Database × SendPhase :=
  match phase with
  | .sent txId => (db, .sent txId)
  | .gone => (db, .gone)
  | .checking => (db, if outside.passes then .wallet else .gone)
  | .wallet =>
    match Wallets.findFirst (walletsOf db send.userId) outside.walletId with
    | some walletId => (db, if outside.passes then .insert walletId else .gone)
    | none => (db, .gone)
  | .insert walletId =>
    if ¬ outside.passes then (db, .gone)
    else if sendConflicts db send outside.txId then
      (db, if send.idempotencyKey.any (· ≠ "") then .replayFind else .gone)
    -- the foreign keys
    else if (db.users.lookup send.userId).isNone ∨ (db.wallets.lookup walletId).isNone then (db, .gone)
    else
      let row : Transaction :=
        ⟨send.userId, walletId, send.dto, send.idempotencyKey, .pending, none, false, outside.now⟩
      ({ db with transactions := db.transactions.insert outside.txId row }, .sent outside.txId)
  | .replayFind =>
    match send.idempotencyKey.bind (findByKey db send.userId) with
    | some txId => (db, if outside.passes then .sent txId else .gone)
    | none => (db, .gone)

/-- What the service of the wallets sees. -/
def walletTable : Wallets.Database := ⟨db.wallets, db.transactions.entries.map (·.2.walletId)⟩

/-- A statement of the service, with the foreign key of a new row. -/
def withOwner (userId : String) (phase : Wallets.Phase) (outside : Wallets.Outside) : Database × Wallets.Phase :=
  match Wallets.proceed userId (walletTable db) phase outside with
  | (after, .returned (.ok wallet)) =>
    if (db.users.lookup userId).isSome then ({ db with wallets := after.wallets }, .returned (.ok wallet))
    else (db, Wallets.fail (.database "P2003"))
  | (_, next) => (db, next)

/-- The schema requires `encryptedSecret` and gives it no default, so that the client takes no
row without it. -/
def accepts (wallet : Wallets.Wallet) : Bool := wallet.encryptedSecret.isSome

/-- The statements of `createWallet`; other phases are not its own. -/
def createWallet (userId : String) (phase : Wallets.Phase) (walletId : String) : Database × Wallets.Phase :=
  match phase with
  | .listing publicKey walletAlias => withOwner db userId (.listing publicKey walletAlias) ⟨walletId, true⟩
  | .inserting publicKey walletAlias isDefault =>
    withOwner db userId (.inserting publicKey walletAlias isDefault)
      ⟨walletId, accepts (Wallets.newWallet userId publicKey walletAlias isDefault)⟩
  | phase => (db, phase)

end Calls

inductive Call where
  | erasing (request : Request) (phase : Phase)
  | creating (userId : String) (phase : Wallets.Phase)
  | sending (send : Send) (phase : SendPhase)

inductive Start where
  | eraseUser (request : Request)
  | createWallet (userId publicKey : String) (walletAlias : Option String)
  | sendTransfer (send : Send)

/-- What a step of each kind of call is given; a new wallet is given an id. -/
structure Input where
  erasing : Outside
  creating : String
  sending : SendOutside

def begin : Start → Call
  | .eraseUser request => .erasing request .asserting
  | .createWallet userId publicKey walletAlias => .creating userId (.listing publicKey walletAlias)
  | .sendTransfer send => .sending send .checking

def advance (db : Database) (call : Call) (input : Input) : Database × Call :=
  match call with
  | .erasing request phase =>
    let (db, phase) := proceed request db phase input.erasing
    (db, .erasing request phase)
  | .creating userId phase =>
    let (db, phase) := createWallet db userId phase input.creating
    (db, .creating userId phase)
  | .sending send phase =>
    let (db, phase) := sendTransfer db send phase input.sending
    (db, .sending send phase)

def service : Service Database Call Start Input Empty where
  begin := begin
  proceed := advance
  act db _ := db

abbrev State := System Database Call

abbrev Step := Event Start Input Empty

/-- The user whose erasure a step completes, and the user that now stands for it. -/
def Call.erases (db : Database) (input : Input) : Call → Option (String × String)
  | .erasing request (.committing found) =>
    match (proceed request db (.committing found) input.erasing).2 with
    | .returned (.ok (.erased pseudonymousUserId _ _)) => some (request.userId, pseudonymousUserId)
    | _ => none
  | _ => none

def erases (s : State) : Step → Option (String × String)
  | .advance id input => (s.calls.lookup id).bind (·.erases s.shared input)
  | .call .. | .act _ => none

/-- Every wallet and transaction is still there. -/
structure Kept (before after : Database) : Prop where
  wallets : ∀ walletId, (before.wallets.lookup walletId).isSome → (after.wallets.lookup walletId).isSome
  transactions : ∀ txId, (before.transactions.lookup txId).isSome → (after.transactions.lookup txId).isSome

/-- What the user had belongs to the pseudonymous user. -/
structure Inherited (before after : Database) (userId pseudonymousUserId : String) : Prop where
  wallets : ∀ walletId wallet, before.wallets.lookup walletId = some wallet → wallet.userId = userId →
    ∃ moved, after.wallets.lookup walletId = some moved ∧ moved.userId = pseudonymousUserId
  transactions : ∀ txId row, before.transactions.lookup txId = some row → row.userId = userId →
    ∃ moved, after.transactions.lookup txId = some moved ∧ moved.userId = pseudonymousUserId

/-- The event loses no financial record. -/
def Retains (s : State) (event : Step) : Prop :=
  Kept s.shared (step service s event).shared ∧
    ∀ userId pseudonymousUserId, erases s event = some (userId, pseudonymousUserId) →
      Inherited s.shared (step service s event).shared userId pseudonymousUserId

variable {db : Database} {s : State} {event : Step} {input : Input}

theorem Kept.refl (db : Database) : Kept db db := ⟨fun _ => id, fun _ => id⟩

/-- Everything is as it was, but for transactions that may have come. -/
structure Unharmed (before after : Database) : Prop where
  users : after.users = before.users
  tombstones : after.tombstones = before.tombstones
  wallets : after.wallets = before.wallets
  transactions : ∀ txId, (before.transactions.lookup txId).isSome → (after.transactions.lookup txId).isSome

theorem Unharmed.refl (db : Database) : Unharmed db db := ⟨rfl, rfl, rfl, fun _ => id⟩

theorem Unharmed.kept {after : Database} (unharmed : Unharmed db after) : Kept db after :=
  ⟨fun _ => by rw [unharmed.wallets]; exact id, unharmed.transactions⟩

/-- The only insert of a wallet is refused. -/
theorem createWallet_refused (db : Database) (userId : String) (phase : Wallets.Phase) (walletId : String) :
    (createWallet db userId phase walletId).1 = db := by
  unfold createWallet
  split
  · rename_i publicKey walletAlias
    simp only [withOwner, Wallets.proceed]
    split
    · rename_i after wallet inserted
      simp only [Wallets.checkNew, Wallets.fail] at inserted
      split_ifs at inserted <;> cases inserted
    · rfl
  · rfl
  · rfl

theorem createWallet_unharmed (db : Database) (userId : String) (phase : Wallets.Phase) (walletId : String) :
    Unharmed db (createWallet db userId phase walletId).1 := by
  rw [createWallet_refused]
  exact .refl db

theorem sendTransfer_unharmed (db : Database) (send : Send) (phase : SendPhase) (outside : SendOutside) :
    Unharmed db (sendTransfer db send phase outside).1 := by
  unfold sendTransfer
  split
  · exact .refl db
  · exact .refl db
  · exact .refl db
  · split <;> exact .refl db
  · split
    · exact .refl db
    · split
      · exact .refl db
      · split
        · exact .refl db
        · exact ⟨rfl, rfl, rfl, fun _ => isSome_lookup_insert⟩
  · split <;> exact .refl db

section Commits
variable {after : Database} {userId : String} {found : Found} {outside : Outside}

/-- All wallets of the user are in what was found. -/
def Listed (db : Database) (userId : String) (found : Found) : Prop :=
  ∀ walletId wallet, db.wallets.lookup walletId = some wallet → wallet.userId = userId → walletId ∈ found.wallets

theorem commit_kept (commit : Committed db userId found outside after) (listed : Listed db userId found) :
    Kept db after := by
  constructor
  · intro walletId present
    obtain ⟨wallet, stored⟩ := Option.isSome_iff_exists.mp present
    by_cases mine : walletId ∈ found.wallets
    · obtain ⟨_, _, -, moved⟩ := commit.moved walletId mine
      rw [moved]
      rfl
    · have stranger : wallet.userId ≠ userId := fun owner => mine (listed walletId wallet stored owner)
      rw [commit.kept walletId mine, stored]
      simpa using stranger
  · intro txId present
    rw [commit.transactions, Option.isSome_map]
    exact present

theorem commit_inherited (commit : Committed db userId found outside after) (listed : Listed db userId found) :
    Inherited db after userId outside.pseudonymousUserId := by
  constructor
  · intro walletId wallet stored owner
    obtain ⟨_, secret, -, moved⟩ := commit.moved walletId (listed walletId wallet stored owner)
    exact ⟨_, moved, rfl⟩
  · intro txId row stored owner
    refine ⟨row.moved userId outside.pseudonymousUserId, ?_, ?_⟩
    · rw [commit.transactions, stored]
      rfl
    · rw [Transaction.moved, if_pos owner]

/-- Who is there stays, and is given no wallet, when somebody else is erased: what is moved goes
to a user that was not there. -/
theorem commit_spares (commit : Committed db userId found outside after) {other : String} (ne : other ≠ userId)
    (live : (db.users.lookup other).isSome) : (after.users.lookup other).isSome ∧
      ∀ walletId wallet, after.wallets.lookup walletId = some wallet → wallet.userId = other →
        db.wallets.lookup walletId = some wallet := by
  have stranger : outside.pseudonymousUserId ≠ other := by
    rintro rfl
    rw [commit.fresh] at live
    cases live
  refine ⟨?_, ?_⟩
  · rw [commit.users, AList.lookup_erase_ne ne]
    exact isSome_lookup_insert live
  · intro walletId wallet stored owner
    by_cases moved : walletId ∈ found.wallets
    · obtain ⟨_, _, -, now⟩ := commit.moved walletId moved
      rw [stored] at now
      cases now
      exact absurd owner stranger
    · rw [commit.kept walletId moved] at stored
      exact (Option.filter_eq_some_iff.mp stored).1

end Commits

/-- The user of an erasure that is about to commit is there with the wallets that were listed,
unless another erasure came first. -/
def Current (db : Database) : Call → Prop
  | .erasing request (.committing found) => (db.tombstones.lookup (lookupHash request.userId)).isSome ∨
      (db.users.lookup request.userId).isSome ∧ Listed db request.userId found
  | _ => True

theorem current_seen {request : Request} {phase : Phase} (current : Current db (.erasing request phase)) :
    SeenAt db request phase := by
  cases phase with
  | committing found => exact current.symm.imp And.left id
  | _ => trivial

theorem current_unharmed {after : Database} (unharmed : Unharmed db after) {call : Call} (current : Current db call) :
    Current after call := by
  cases call with
  | erasing request phase =>
    cases phase with
    | committing found =>
      simp only [Current, Listed, unharmed.tombstones, unharmed.users, unharmed.wallets] at current ⊢
      exact current
    | _ => trivial
  | creating | sending => trivial

theorem current_commit {after : Database} {userId : String} {found : Found} {outside : Outside}
    (commit : Committed db userId found outside after) {call : Call} (current : Current db call) :
    Current after call := by
  cases call with
  | erasing request phase =>
    cases phase with
    | committing listed =>
      by_cases same : request.userId = userId
      · refine .inl ?_
        rw [commit.tombstones, same, AList.lookup_insert]
        rfl
      · refine current.imp ?_ ?_
        · intro buried
          rw [commit.tombstones]
          exact isSome_lookup_insert buried
        · rintro ⟨live, all⟩
          obtain ⟨stays, spared⟩ := commit_spares commit same live
          exact ⟨stays, fun walletId wallet stored owner => all walletId wallet (spared walletId wallet stored owner) owner⟩
    | _ => trivial
  | creating | sending => trivial

theorem findUser_current {request : Request} {found : Found} (read : findUser db request.userId = some found) :
    Current db (.erasing request (.committing found)) := by
  refine .inr ⟨findUser_live read, ?_⟩
  obtain ⟨user, -, rfl⟩ := Option.map_eq_some_iff.mp read
  exact fun walletId wallet stored owner => mem_walletsOf.mpr ⟨wallet, stored, owner⟩

/-- Everything a step of a call can do to the tables, and what the call goes on with. -/
inductive Advances (db : Database) (input : Input) : Call → Database × Call → Prop where
  | harmless (call next : Call) (after : Database) (unharmed : Unharmed db after)
      (unerased : call.erases db input = none) (current : Current after next) : Advances db input call (after, next)
  | commits (request : Request) (found : Found) (after : Database) (result : Except Exception Outcome)
      (done : ∃ count, transaction db request found input.erasing = .ok (after, count))
      (erased : (Call.erasing request (.committing found)).erases db input =
        some (request.userId, input.erasing.pseudonymousUserId)) :
      Advances db input (.erasing request (.committing found)) (after, .erasing request (.returned result))

theorem advances (db : Database) (call : Call) (input : Input) : Advances db input call (advance db call input) := by
  cases call with
  | creating userId phase =>
    exact .harmless _ _ _ (createWallet_unharmed db userId phase input.creating) rfl trivial
  | sending send phase => exact .harmless _ _ _ (sendTransfer_unharmed db send phase input.sending) rfl trivial
  | erasing request phase =>
    have all := proceeds request db phase input.erasing
    change Advances db input _ ((proceed request db phase input.erasing).1,
      .erasing request (proceed request db phase input.erasing).2)
    generalize same : proceed request db phase input.erasing = next at all
    cases all with
    | stops _ result unerased =>
      refine .harmless _ _ _ (.refl db) ?_ trivial
      cases phase with
      | committing found =>
        have other := unerased.resolve_left (by simp)
        simp only [Call.erases, same]
        split
        · rename_i erased
          cases erased
          exact absurd rfl (other _ _ _)
        · rfl
      | _ => rfl
    | asserts => exact .harmless _ _ _ (.refl db) rfl trivial
    | logs => exact .harmless _ _ _ ⟨rfl, rfl, rfl, fun _ => id⟩ rfl trivial
    | looks => exact .harmless _ _ _ (.refl db) rfl trivial
    | reads found read => exact .harmless _ _ _ (.refl db) rfl (findUser_current read)
    | commits found after count done =>
      exact .commits request found after _ ⟨count, done⟩ (by simp only [Call.erases, same])

theorem step_current (current : Each Current s) : Each Current (step service s event) := by
  apply each_step current
  · intro request
    cases request <;> trivial
  · intro id input call _ held
    have mine := current id call held
    have all := advances s.shared call input
    change Current (advance s.shared call input).1 (advance s.shared call input).2 ∧
      ∀ other, Current s.shared other → Current (advance s.shared call input).1 other
    generalize advance s.shared call input = next at all
    cases all with
    | harmless call next after unharmed unerased current =>
      exact ⟨current, fun other => current_unharmed unharmed⟩
    | commits request found after result done erased =>
      obtain ⟨count, done⟩ := done
      exact ⟨trivial, fun other => current_commit (transaction_ok (current_seen mine) done)⟩
  · exact fun act => act.elim

/-- An event with all wallets listed loses no record. -/
theorem step_retains (current : Each Current s) (event : Step) : Retains s event := by
  cases event with
  | call id request =>
    refine ⟨?_, by simp [erases]⟩
    have moves := steps service s (.call id request)
    generalize step service s (.call id request) = s' at moves
    cases moves <;> exact .refl _
  | act act => exact act.elim
  | advance id input =>
    cases held : s.calls.lookup id with
    | none =>
      refine ⟨?_, by simp [erases, held]⟩
      simp only [step, held]
      exact .refl _
    | some call =>
      have mine := current id call held
      have all := advances s.shared call input
      unfold Retains
      rw [step_advance held, show erases s (.advance id input) = call.erases s.shared input by simp [erases, held]]
      change Kept s.shared (advance s.shared call input).1 ∧ ∀ userId pseudonymousUserId, _ →
        Inherited s.shared (advance s.shared call input).1 userId pseudonymousUserId
      generalize advance s.shared call input = next at all
      cases all with
      | harmless call next after unharmed unerased current =>
        refine ⟨unharmed.kept, ?_⟩
        rw [unerased]
        simp
      | commits request found after result done erased =>
        obtain ⟨count, done⟩ := done
        have commit := transaction_ok (current_seen mine) done
        have listed : Listed s.shared request.userId found := by
          refine (mine.resolve_left ?_).2
          rw [commit.unburied]
          simp
        refine ⟨commit_kept commit listed, ?_⟩
        rw [erased]
        rintro userId pseudonymousUserId same
        cases same
        exact commit_inherited commit listed

/-- In every run, in whatever order the statements of erasures, wallets and transfers of any users
are made, no financial record is lost, and what an erased user had when the transaction committed
belongs to the pseudonymous one. -/
theorem records_retained (db : Database) (events : List Step) :
    Throughout (step service) Retains (.fresh db) events := by
  refine throughout_of_at fun before event after _ => step_retains ?_ event
  exact run_invariant (Each Current) (fun _ _ current => step_current current) (each_fresh Current db) before

end AfroPay.Erasure.Records
