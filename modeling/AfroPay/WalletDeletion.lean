import AfroPay.Wallets

/-! `deleteWallet` when database calls throw. The default flag moves to another wallet in two
statements before the row is deleted in a third, and nothing takes a statement back. -/
namespace AfroPay.Wallets
open KeyedStore Runs

/-- A database call is answered, or throws and has changed nothing. -/
inductive Attempt where
  | answers (outside : Outside)
  | throws (code : String)
  deriving DecidableEq

def Attempt.isAnswer : Attempt → Bool
  | .answers _ => true
  | .throws _ => false

/-- The next database call of a call that runs alone. -/
def attempt (userId : String) (s : Database × Phase) (outcome : Attempt) : Database × Phase :=
  match outcome with
  | .answers outside => proceed userId s.1 s.2 outside
  | .throws code => if s.2.isReturned then s else (s.1, fail (.database code))

/-- A deletion makes eight database calls at most; the outcome of each is given. -/
def deleteWallet (userId : String) (db : Database) (walletId : String) (outcomes : Nat → Attempt) : Database × Phase :=
  run (attempt userId) (db, start (.deleteWallet walletId)) ((List.range 8).map outcomes)

/-- A wallet of the user apart from its flag. -/
def unflagged (userId : String) (wallet : Wallet) : Wallet :=
  if wallet.userId = userId then { wallet with isDefault := false } else wallet

/-- The wallet is gone, the others are there, and one of the user's is the default. -/
structure Removes (userId : String) (db : Database) (walletId : String) (after : Database) : Prop where
  found : (db.wallets.lookup walletId).isSome
  gone : after.wallets.lookup walletId = none
  others : ∀ other, other ≠ walletId →
    (after.wallets.lookup other).map (unflagged userId) = (db.wallets.lookup other).map (unflagged userId)
  transactions : after.transactionWallets = db.transactionWallets
  oneDefault : defaultCount userId after = 1

/-- The call returned and removed the wallet, or threw and changed nothing. -/
def AllOrNothing (userId : String) (db : Database) (walletId : String) (after : Database × Phase) : Prop :=
  match after.2 with
  | .returned (.ok _) => Removes userId db walletId after.1
  | .returned (.error _) => after.1 = db
  | _ => False

/-- The user's default wallet of several is deleted; the flags are cleared, which is the sixth
call, and then the new flag is not set or the row is not deleted. -/
def CutShort (userId : String) (db : Database) (walletId : String) (outcomes : Nat → Attempt) : Prop :=
  (∃ wallet ∈ db.wallets.lookup walletId, wallet.userId = userId ∧ wallet.isDefault) ∧ 2 ≤ walletCount userId db ∧
    (∀ n < 6, (outcomes n).isAnswer) ∧
    (¬ (outcomes 6).isAnswer ∨ ¬ (outcomes 7).isAnswer ∨ walletId ∈ db.transactionWallets)

/-- The call has returned, and as it should. -/
def Settles (userId : String) (db : Database) (walletId : String) (after : Database × Phase) : Prop :=
  after.2.isReturned ∧ AllOrNothing userId db walletId after

/-- The call has returned, and as it should unless it was cut. -/
def Meets (userId : String) (db : Database) (walletId : String) (cut : Prop) (after : Database × Phase) : Prop :=
  after.2.isReturned ∧ (AllOrNothing userId db walletId after ↔ ¬ cut)

variable {userId : String} {db : Database} {walletId another : String} {cut : Prop} {wallet held : Wallet}
  {outside : Outside}

section Statements

/-- A call that has returned makes no more database calls. -/
theorem run_returned (result : Except Exception (Option Wallet)) (outcomes : List Attempt) :
    run (attempt userId) (db, .returned result) outcomes = (db, .returned result) := by
  induction outcomes with
  | nil => rfl
  | cons outcome rest ih =>
    have stays : attempt userId (db, .returned result) outcome = (db, .returned result) := by cases outcome <;> rfl
    rw [run_cons, stays, ih]

theorem nothing_of_error (exception : Exception) (outcomes : List Attempt) :
    Settles userId db walletId (run (attempt userId) (db, fail exception) outcomes) := by
  rw [fail, run_returned]
  exact ⟨rfl, rfl⟩

/-- Of several wallets there is another one. -/
theorem otherWallets_ne_nil (found : db.wallets.lookup walletId = some wallet) (owner : wallet.userId = userId)
    (several : 2 ≤ walletCount userId db) : otherWallets userId db walletId ≠ [] := by
  intro none
  have without := countP_erase db.wallets (fun entry => entry.2.userId = userId) walletId
  simp only [found, Option.elim_some, owner, decide_true, if_true] at without
  have positive : 0 < (db.wallets.erase walletId).entries.countP fun entry => entry.2.userId = userId := by
    simp only [walletCount] at several
    omega
  obtain ⟨⟨other, held⟩, member, counted⟩ := List.countP_pos_iff.mp positive
  have kept : (db.wallets.erase walletId).lookup other = some held := AList.mem_lookup_iff.mpr member
  have different : other ≠ walletId := by
    rintro rfl
    rw [AList.lookup_erase] at kept
    cases kept
  have listed : (⟨other, held⟩ : Sigma fun _ : String => Wallet) ∈ db.wallets.entries :=
    AList.mem_lookup_iff.mp (lookup_erase_some kept)
  rw [otherWallets, List.map_eq_nil_iff, List.filter_eq_nil_iff] at none
  have excluded := none _ listed
  simp only [decide_eq_true_eq] at counted
  simp [counted, different] at excluded

theorem mem_otherWallets (member : another ∈ otherWallets userId db walletId) :
    another ≠ walletId ∧ ∃ held, db.wallets.lookup another = some held ∧ held.userId = userId := by
  obtain ⟨⟨stored, held⟩, filtered, rfl⟩ := List.mem_map.mp member
  obtain ⟨listed, matching⟩ := List.mem_filter.mp filtered
  simp only [ne_eq, Bool.and_eq_true, decide_eq_true_eq] at matching
  exact ⟨of_decide_eq_true (by simpa using matching.2), held, AList.mem_lookup_iff.mpr listed, matching.1⟩

/-- `findFirst` comes across one of them. -/
theorem findFirst_mem {rows : List String} (nonempty : rows ≠ []) (first : String) :
    ∃ row ∈ rows, findFirst rows first = some row := by
  unfold findFirst
  split
  · exact ⟨first, ‹_›, rfl⟩
  · obtain ⟨row, rest, rfl⟩ := List.exists_cons_of_ne_nil nonempty
    exact ⟨row, List.mem_cons_self, rfl⟩

end Statements

section Deletion

/-- A wallet without the flag is removed alone. -/
theorem removes_plain (one : defaultCount userId db = 1) (found : db.wallets.lookup walletId = some wallet)
    (plain : wallet.isDefault = false) :
    Removes userId db walletId { db with wallets := db.wallets.erase walletId } := by
  refine ⟨by rw [found]; rfl, AList.lookup_erase _ _, ?_, rfl, ?_⟩
  · intro other different
    rw [AList.lookup_erase_ne different]
  · have without := defaultCount_erase userId db walletId
    simp only [found, Option.elim_some, plain, Bool.and_false, Bool.false_eq_true, if_false] at without
    omega

/-- What the two statements that move the flag have written. -/
def moved (userId : String) (db : Database) (another : String) (held : Wallet) : Database :=
  { clearDefaults userId db with
    wallets := (clearDefaults userId db).wallets.insert another { held with isDefault := true } }

theorem lookup_clearDefaults (other : String) :
    (clearDefaults userId db).wallets.lookup other = (db.wallets.lookup other).map (unflagged userId) :=
  lookup_mapValues db.wallets _ other

theorem unflagged_unflagged (wallet : Wallet) : unflagged userId (unflagged userId wallet) = unflagged userId wallet := by
  unfold unflagged
  split <;> simp_all

theorem lookup_moved {other : String} (different : other ≠ another) :
    (moved userId db another held).wallets.lookup other = (db.wallets.lookup other).map (unflagged userId) := by
  simp only [moved]
  rw [AList.lookup_insert_ne different, lookup_clearDefaults]

/-- No wallet of the user has the flag once it is cleared. -/
theorem cleared (entry : Sigma fun _ : String => Wallet) (member : entry ∈ (clearDefaults userId db).wallets.entries)
    (owner : entry.2.userId = userId) : entry.2.isDefault = false := by
  have kept : (clearDefaults userId db).wallets.lookup entry.1 = some entry.2 := AList.mem_lookup_iff.mpr member
  rw [lookup_clearDefaults, Option.map_eq_some_iff] at kept
  obtain ⟨before, -, same⟩ := kept
  rw [← same] at owner ⊢
  unfold unflagged at owner ⊢
  split
  · rfl
  · rw [if_neg ‹_›] at owner
    contradiction

/-- The default wallet is removed after another one has its flag. -/
theorem removes_moved (found : db.wallets.lookup walletId = some wallet) (owner : wallet.userId = userId)
    (different : another ≠ walletId) (present : db.wallets.lookup another = some held) (mine : held.userId = userId) :
    Removes userId db walletId { moved userId db another (unflagged userId held) with
      wallets := (moved userId db another (unflagged userId held)).wallets.erase walletId } := by
  have same : (unflagged userId held).userId = userId := by rw [unflagged, if_pos mine]; exact mine
  refine ⟨by rw [found]; rfl, AList.lookup_erase _ _, ?_, rfl, ?_⟩
  · intro other apart
    simp only
    rw [AList.lookup_erase_ne apart]
    by_cases chosen : other = another
    · subst chosen
      simp only [moved]
      rw [AList.lookup_insert, present, Option.map_some, Option.map_some]
      simp only [unflagged, mine, if_true]
    · rw [lookup_moved chosen, Option.map_map]
      congr 1
      funext before
      exact unflagged_unflagged before
  · have set : defaultCount userId (moved userId db another (unflagged userId held)) = 1 := by
      apply defaultCount_set same
      intro entry member owned flagged
      rw [cleared entry member owned] at flagged
      cases flagged
    have without := defaultCount_erase userId (moved userId db another (unflagged userId held)) walletId
    rw [lookup_moved different.symm, found] at without
    simp only [Option.map_some, Option.elim_some, unflagged, owner, if_true, Bool.and_false, Bool.false_eq_true,
      if_false] at without
    simp only [unflagged, mine, if_true] at set without ⊢
    omega

/-- The last statement removes the row, or throws and leaves it. -/
theorem attempt_deleting (present : (db.wallets.lookup walletId).isSome) (outcome : Attempt) :
    attempt userId (db, .deleting walletId) outcome =
        ({ db with wallets := db.wallets.erase walletId }, .returned (.ok none)) ∧
      outcome.isAnswer ∧ walletId ∉ db.transactionWallets ∨
    ∃ exception, attempt userId (db, .deleting walletId) outcome = (db, fail exception) ∧
      (¬ outcome.isAnswer ∨ walletId ∈ db.transactionWallets) := by
  cases outcome with
  | throws code => exact .inr ⟨.database code, rfl, .inl Bool.false_ne_true⟩
  | answers outside =>
    by_cases restricted : walletId ∈ db.transactionWallets
    · refine .inr ⟨.database "P2003", ?_, .inr restricted⟩
      simp [attempt, proceed, restricted, Option.isSome_iff_ne_none.mp present]
    · refine .inl ⟨?_, rfl, restricted⟩
      simp [attempt, proceed, restricted, Option.isSome_iff_ne_none.mp present]

/-- Deleting a wallet without the flag is all or nothing. -/
theorem settles_plain (one : defaultCount userId db = 1) (found : db.wallets.lookup walletId = some wallet)
    (plain : wallet.isDefault = false) (outcome : Attempt) (rest : List Attempt) :
    Settles userId db walletId (run (attempt userId) (db, .deleting walletId) (outcome :: rest)) := by
  rw [run_cons]
  rcases @attempt_deleting userId db walletId (by rw [found]; rfl) outcome with ⟨removed, -⟩ | ⟨exception, left, -⟩
  · rw [removed, run_returned]
    exact ⟨rfl, removes_plain one found plain⟩
  · rw [left]
    exact nothing_of_error exception rest

/-- Whatever the call has written, it threw after the default lost its flag. -/
theorem not_settles_unflagged {after : Database} (found : db.wallets.lookup walletId = some wallet)
    (flagged : wallet.isDefault) (owner : wallet.userId = userId)
    (lost : after.wallets.lookup walletId = (db.wallets.lookup walletId).map (unflagged userId))
    (exception : Exception) : ¬ AllOrNothing userId db walletId (after, fail exception) := by
  intro same
  have unchanged : after = db := same
  rw [unchanged, found, Option.map_some, unflagged, if_pos owner] at lost
  have cleared : wallet.isDefault = false := congrArg Wallet.isDefault (Option.some.inj lost)
  rw [flagged] at cleared
  cases cleared

theorem Settles.meets {after : Database × Phase} (settles : Settles userId db walletId after) (whole : ¬ cut) :
    Meets userId db walletId cut after :=
  ⟨settles.1, iff_of_true settles.2 whole⟩

theorem Meets.congr {other : Prop} {after : Database × Phase} (meets : Meets userId db walletId cut after)
    (same : cut ↔ other) : Meets userId db walletId other after :=
  ⟨meets.1, meets.2.trans (not_congr same)⟩

/-- A statement that reads is answered and the call goes on, or it throws and nothing is written. -/
theorem meets_read {phase : Phase} (next : Outside → Phase) (outcome : Attempt) {rest : List Attempt}
    (underway : phase.isReturned = false) (reads : ∀ outside, proceed userId db phase outside = (db, next outside))
    (goes : ∀ outside, Meets userId db walletId cut (run (attempt userId) (db, next outside) rest)) :
    Meets userId db walletId (outcome.isAnswer ∧ cut) (run (attempt userId) (db, phase) (outcome :: rest)) := by
  cases outcome with
  | answers outside =>
    rw [run_cons, attempt, reads]
    exact (goes outside).congr ⟨fun cut => ⟨rfl, cut⟩, And.right⟩
  | throws code =>
    rw [run_cons, attempt, underway, if_neg Bool.false_ne_true]
    exact (nothing_of_error (.database code) rest).meets fun cut => Bool.false_ne_true cut.1

variable (clears sets deletes : Attempt)

/-- From the statement that clears the flags, the call settles unless it is cut short after it. -/
theorem meets_clearing (found : db.wallets.lookup walletId = some wallet) (flagged : wallet.isDefault)
    (owner : wallet.userId = userId) (different : another ≠ walletId)
    (present : db.wallets.lookup another = some held) (mine : held.userId = userId) :
    Meets userId db walletId
      (clears.isAnswer ∧ (¬ sets.isAnswer ∨ ¬ deletes.isAnswer ∨ walletId ∈ db.transactionWallets))
      (run (attempt userId) (db, .clearing another (.delete walletId)) [clears, sets, deletes]) := by
  have lost : (clearDefaults userId db).wallets.lookup walletId = (db.wallets.lookup walletId).map (unflagged userId) :=
    lookup_clearDefaults walletId
  cases clears with
  | throws code => exact (nothing_of_error (.database code) _).meets fun cut => Bool.false_ne_true cut.1
  | answers first =>
    cases sets with
    | throws code =>
      rw [run_cons, run_cons, attempt, proceed, attempt, if_neg (by exact Bool.false_ne_true), fail, run_returned]
      have torn := not_settles_unflagged found flagged owner lost (.database code)
      exact ⟨rfl, iff_of_false torn fun whole => whole ⟨rfl, .inl Bool.false_ne_true⟩⟩
    | answers second =>
      have target : (clearDefaults userId db).wallets.lookup another = some (unflagged userId held) := by
        rw [lookup_clearDefaults, present, Option.map_some]
      have moves : run (attempt userId) (db, .clearing another (.delete walletId))
          [.answers first, .answers second, deletes] =
          attempt userId (moved userId db another (unflagged userId held), .deleting walletId) deletes := by
        simp only [run_cons, run_nil, attempt, proceed, target]
        rfl
      have kept := @lookup_moved userId db another (unflagged userId held) walletId different.symm
      have some : ((moved userId db another (unflagged userId held)).wallets.lookup walletId).isSome := by
        rw [kept, found]
        rfl
      rw [moves]
      rcases @attempt_deleting userId _ _ some deletes with
        ⟨removed, answered, unused⟩ | ⟨exception, left, cut⟩
      · rw [removed]
        refine ⟨rfl, iff_of_true (removes_moved found owner different present mine) ?_⟩
        rintro ⟨-, thrown | thrown | restricted⟩
        · exact thrown rfl
        · exact thrown answered
        · exact unused restricted
      · rw [left]
        refine ⟨rfl, iff_of_false (not_settles_unflagged found flagged owner kept exception) fun whole => whole ⟨rfl, ?_⟩⟩
        exact .inr cut

theorem getWalletById_found (found : db.wallets.lookup walletId = some wallet) (owner : wallet.userId = userId) :
    getWalletById userId db walletId = .ok wallet := by
  simp [getWalletById, found, owner]

/-- From the choice of another wallet on, its owner is read and then the flag moves. -/
theorem meets_choosing (found : db.wallets.lookup walletId = some wallet) (flagged : wallet.isDefault)
    (owner : wallet.userId = userId) (several : 2 ≤ walletCount userId db) (chooses owns : Attempt) :
    Meets userId db walletId
      (chooses.isAnswer ∧ owns.isAnswer ∧
        clears.isAnswer ∧ (¬ sets.isAnswer ∨ ¬ deletes.isAnswer ∨ walletId ∈ db.transactionWallets))
      (run (attempt userId) (db, .choosing walletId) [chooses, owns, clears, sets, deletes]) := by
  have choosing (outside : Outside) : ∃ another ∈ otherWallets userId db walletId,
      proceed userId db (.choosing walletId) outside = (db, .owning another (.delete walletId)) := by
    obtain ⟨row, member, first⟩ := findFirst_mem (otherWallets_ne_nil found owner several) outside.walletId
    refine ⟨row, member, ?_⟩
    simp only [proceed, first]
  choose another member chosen using choosing
  apply meets_read _ chooses rfl chosen
  intro outside
  obtain ⟨different, held, present, mine⟩ := mem_otherWallets (member outside)
  apply meets_read (fun _ => .clearing (another outside) (.delete walletId)) owns rfl
  · intro _
    simp only [proceed, getWalletById_found present mine]
  · intro _
    exact meets_clearing clears sets deletes found flagged owner different present mine

/-- The wallet is read again; one without the flag is deleted at once. -/
theorem meets_rereading (one : defaultCount userId db = 1) (found : db.wallets.lookup walletId = some wallet)
    (owner : wallet.userId = userId) (several : 2 ≤ walletCount userId db) (rereads chooses owns : Attempt) :
    Meets userId db walletId
      (rereads.isAnswer ∧ wallet.isDefault ∧ chooses.isAnswer ∧ owns.isAnswer ∧
        clears.isAnswer ∧ (¬ sets.isAnswer ∨ ¬ deletes.isAnswer ∨ walletId ∈ db.transactionWallets))
      (run (attempt userId) (db, .rereading walletId) [rereads, chooses, owns, clears, sets, deletes]) := by
  apply meets_read (fun _ => if wallet.isDefault then .choosing walletId else .deleting walletId) rereads rfl
  · intro outside
    cases flagged : wallet.isDefault <;> simp [proceed, found, flagged]
  · intro outside
    cases flagged : wallet.isDefault with
    | false => exact (settles_plain one found flagged chooses _).meets fun cut => Bool.false_ne_true cut.1
    | true =>
      have goes := meets_choosing clears sets deletes found flagged owner several chooses owns
      exact goes.congr ⟨fun cut => ⟨rfl, cut⟩, And.right⟩

/-- The only wallet of a user is not deleted. -/
theorem meets_counting (one : defaultCount userId db = 1) (found : db.wallets.lookup walletId = some wallet)
    (owner : wallet.userId = userId) (counts rereads chooses owns : Attempt) :
    Meets userId db walletId
      (counts.isAnswer ∧ 2 ≤ walletCount userId db ∧ rereads.isAnswer ∧ wallet.isDefault ∧ chooses.isAnswer ∧
        owns.isAnswer ∧ clears.isAnswer ∧ (¬ sets.isAnswer ∨ ¬ deletes.isAnswer ∨ walletId ∈ db.transactionWallets))
      (run (attempt userId) (db, .counting walletId) [counts, rereads, chooses, owns, clears, sets, deletes]) := by
  apply meets_read (fun _ => if walletCount userId db ≤ 1 then fail (.error "Cannot delete the last wallet")
    else .rereading walletId) counts rfl
  · intro outside
    simp only [proceed]
    split <;> rfl
  · intro outside
    split
    · exact (nothing_of_error _ _).meets fun cut => by omega
    · have several : 2 ≤ walletCount userId db := by omega
      have goes := meets_rereading clears sets deletes one found owner several rereads chooses owns
      exact goes.congr ⟨fun cut => ⟨several, cut⟩, And.right⟩

/-- A user has one default wallet. However the database calls of `deleteWallet` turn out, the
call returns or throws, and it is all or nothing exactly if it is not cut short. -/
theorem all_or_nothing_iff (userId : String) (db : Database) (walletId : String) (outcomes : Nat → Attempt)
    (one : defaultCount userId db = 1) :
    (deleteWallet userId db walletId outcomes).2.isReturned ∧
      (AllOrNothing userId db walletId (deleteWallet userId db walletId outcomes) ↔
        ¬ CutShort userId db walletId outcomes) := by
  have calls : deleteWallet userId db walletId outcomes = run (attempt userId) (db, .owningDeleted walletId)
      [outcomes 0, outcomes 1, outcomes 2, outcomes 3, outcomes 4, outcomes 5, outcomes 6, outcomes 7] := rfl
  rw [calls]
  change Meets userId db walletId (CutShort userId db walletId outcomes) _
  cases owned : getWalletById userId db walletId with
  | error exception =>
    have reads (outside : Outside) : proceed userId db (.owningDeleted walletId) outside = (db, fail exception) := by
      simp only [proceed, owned]
    refine (meets_read _ (outcomes 0) rfl reads fun _ => (nothing_of_error exception _).meets not_false).congr ?_
    refine ⟨fun cut => cut.2.elim, ?_⟩
    rintro ⟨⟨wallet, found, owner, -⟩, -⟩
    rw [getWalletById_found found owner] at owned
    cases owned
  | ok wallet =>
    obtain ⟨found, owner⟩ := getWalletById_ok owned
    have counting := meets_counting (outcomes 5) (outcomes 6) (outcomes 7) one found owner (outcomes 1) (outcomes 2)
      (outcomes 3) (outcomes 4)
    have reads (outside : Outside) : proceed userId db (.owningDeleted walletId) outside = (db, .counting walletId) := by
      simp only [proceed, owned]
    refine (meets_read _ (outcomes 0) rfl reads fun _ => counting).congr ?_
    constructor
    · rintro ⟨zeroth, first, several, second, flagged, third, fourth, fifth, cut⟩
      refine ⟨⟨wallet, found, owner, flagged⟩, several, ?_, cut⟩
      intro n early
      obtain rfl | rfl | rfl | rfl | rfl | rfl : n = 0 ∨ n = 1 ∨ n = 2 ∨ n = 3 ∨ n = 4 ∨ n = 5 := by omega
      all_goals assumption
    · rintro ⟨⟨other, held, -, flagged⟩, several, answered, cut⟩
      rw [found] at held
      cases held
      exact ⟨answered 0 (by omega), answered 1 (by omega), several, answered 2 (by omega), flagged,
        answered 3 (by omega), answered 4 (by omega), answered 5 (by omega), cut⟩

/-- Every call is answered; `findFirst` comes across the second wallet. -/
def answered (_ : Nat) : Attempt := .answers ⟨"w2", true⟩

theorem all_or_nothing_answered :
    (deleteWallet "user" twoWallets "w1" answered).2.isReturned ∧
      (AllOrNothing "user" twoWallets "w1" (deleteWallet "user" twoWallets "w1" answered) ↔
        ¬ CutShort "user" twoWallets "w1" answered) :=
  all_or_nothing_iff "user" twoWallets "w1" answered (by decide +kernel)

/-- The first wallet has a transaction: its deletion throws, and the second is the default. -/
def usedWallets : Database := { twoWallets with transactionWallets := ["w1"] }

theorem default_moved_and_not_deleted :
    defaultCount "user" usedWallets = 1 ∧
      (deleteWallet "user" usedWallets "w1" answered).2 = fail (.database "P2003") ∧
      ((deleteWallet "user" usedWallets "w1" answered).1.wallets.lookup "w1").map (·.isDefault) = some false ∧
      ((deleteWallet "user" usedWallets "w1" answered).1.wallets.lookup "w2").map (·.isDefault) = some true ∧
      ¬ AllOrNothing "user" usedWallets "w1" (deleteWallet "user" usedWallets "w1" answered) := by
  have refused : (deleteWallet "user" usedWallets "w1" answered).2 = fail (.database "P2003") := rfl
  have lost : ((deleteWallet "user" usedWallets "w1" answered).1.wallets.lookup "w1").map (·.isDefault) = some false := by
    decide +kernel
  have held : (usedWallets.wallets.lookup "w1").map (·.isDefault) = some true := by decide +kernel
  refine ⟨by decide +kernel, refused, lost, by decide +kernel, ?_⟩
  intro settles
  simp only [AllOrNothing, refused, fail] at settles
  rw [settles, held] at lost
  cases lost

end Deletion

end AfroPay.Wallets
