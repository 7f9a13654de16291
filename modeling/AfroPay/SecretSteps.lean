import AfroPay.SecretRows

/-! What the calls in flight know of the wallets, whatever the others do: an import of the wallet
that it made, an export of the secret that it returned, and the script of the rows behind and
before it. -/
namespace AfroPay.WalletSecrets
open Base64 IntegerText Interleaving JoinedText KeyedStore LossyText Panics Runs WebText

variable {crypto : Crypto} {encryptionKey : Option (List Char)} {data text : List Char} {userId : String} {iv : Iv}

section Invariant
variable {shared after : Shared} {key : Import} {walletId : String} {call next : Call} {outside : Outside}

def Import.Sealed (crypto : Crypto) (encryptionKey : Option (List Char)) (key : Import) : Prop :=
  ∃ iv, encrypt crypto encryptionKey key.secretKey key.userId iv = .ok key.encryptedSecret

/-- The wallet is the import's, and has no secret. -/
def Awaits (key : Import) (wallet : Wallets.Wallet) : Prop := wallet.userId = key.userId ∧ wallet.encryptedSecret = none

def Creates : Wallets.Phase → Prop
  | .listing .. | .inserting .. => True
  | _ => False

/-- The wallet that an import made and has not yet given its secret. -/
def Call.awaits : Call → Option (Import × String)
  | .funding key walletId | .storing key walletId => some (key, walletId)
  | _ => none

/-- What a call found out about a wallet: its owner and its secret. -/
def Call.tells : Call → Option (String × String × List Char)
  | .imported key walletId => some (walletId, key.userId, key.secretKey)
  | .exported userId (.ok (walletId, secret)) => some (walletId, userId, secret)
  | _ => none

/-- A script got past a row: it is no mark of an erasure, and not in the older form any more. -/
def Passed (crypto : Crypto) (encryptionKey : Option (List Char)) (shared : Shared) (row : Listed) : Prop :=
  Keeps shared row.1 (Settled crypto encryptionKey) ∧
    ∃ data read, row.2.encryptedSecret = some data ∧
      decryptLegacyWalletSecret crypto encryptionKey data.toList = .ok read

/-- What a call in flight knows. -/
def Knows (crypto : Crypto) (encryptionKey : Option (List Char)) (shared : Shared) : Call → Prop
  | .creating key phase => key.Sealed crypto encryptionKey ∧ Creates phase
  | .funding key walletId | .storing key walletId =>
    key.Sealed crypto encryptionKey ∧ Keeps shared walletId (Awaits key)
  | .imported key walletId => Keeps shared walletId (Shows crypto encryptionKey key.userId key.secretKey)
  | .exported userId (.ok (walletId, secret)) => Keeps shared walletId (Shows crypto encryptionKey userId secret)
  | .rewriting behind ahead => (∀ row ∈ behind, Passed crypto encryptionKey shared row) ∧
      ∀ row ∈ ahead, Keeps shared row.1 (Later crypto encryptionKey row.2)
  | .migrated behind _ => ∀ row ∈ behind, Passed crypto encryptionKey shared row
  | _ => True

theorem Knows.awaiting (knows : Knows crypto encryptionKey shared call) (waits : call.awaits = some (key, walletId)) :
    key.Sealed crypto encryptionKey ∧ Keeps shared walletId (Awaits key) := by
  cases call with
  | funding | storing =>
    cases waits
    exact knows
  | _ => cases waits

theorem Knows.telling {secret : List Char} (knows : Knows crypto encryptionKey shared call)
    (tells : call.tells = some (walletId, userId, secret)) :
    Keeps shared walletId (Shows crypto encryptionKey userId secret) := by
  cases call with
  | imported =>
    cases tells
    exact knows
  | exported userId result =>
    cases result with
    | ok =>
      cases tells
      exact knows
    | error => cases tells
  | _ => cases tells

theorem Passed.onward {row : Listed} (passed : Passed crypto encryptionKey shared row)
    (onward : Onward crypto encryptionKey shared after) : Passed crypto encryptionKey after row :=
  ⟨passed.1.onward Settled.kept onward, passed.2⟩

/-- The database went on, and what the call awaits still does. -/
theorem Knows.onward (opens : crypto.Opens) (knows : Knows crypto encryptionKey shared call)
    (onward : Onward crypto encryptionKey shared after)
    (awaiting : ∀ key walletId, call.awaits = some (key, walletId) → Keeps shared walletId (Awaits key) →
      Keeps after walletId (Awaits key)) : Knows crypto encryptionKey after call := by
  cases call with
  | creating => exact knows
  | funding key walletId => exact ⟨knows.1, awaiting key walletId rfl knows.2⟩
  | storing key walletId => exact ⟨knows.1, awaiting key walletId rfl knows.2⟩
  | imported => exact Keeps.onward knows (Shows.kept opens) onward
  | exported userId result =>
    cases result with
    | ok => exact Keeps.onward knows (Shows.kept opens) onward
    | error => trivial
  | rewriting behind ahead =>
    refine ⟨fun row member => (knows.1 row member).onward onward, fun row member => ?_⟩
    exact (knows.2 row member).onward (fun _ _ early late => early.trans opens late) onward
  | migrated behind result => exact fun row member => (knows row member).onward onward
  | _ => trivial

theorem Knows.untouched (opens : crypto.Opens) (knows : Knows crypto encryptionKey shared call)
    (untouched : Untouched shared after) : Knows crypto encryptionKey after call :=
  knows.onward opens untouched.onward fun _ _ _ => untouched.keeps fun _ _ owner secret awaits =>
    ⟨owner.trans awaits.1, secret.trans awaits.2⟩

/-- Two calls that tell of one wallet tell the same. -/
def Agree (shared : Shared) (call other : Call) : Prop :=
  ∀ walletId first second, call.tells = some (walletId, first) → other.tells = some (walletId, second) →
    walletId ∈ shared.erased ∨ first = second

/-- What one statement of a call does to the database, to itself and to any other call. -/
structure Advanced (crypto : Crypto) (encryptionKey : Option (List Char)) (shared after : Shared) (call next : Call) :
    Prop where
  onward : Onward crypto encryptionKey shared after
  issued : Issued after
  erased : after.erased = shared.erased
  knows : Knows crypto encryptionKey after next
  /-- The other calls wait for other wallets. -/
  others : ∀ other, Knows crypto encryptionKey shared other →
    (∀ key key' walletId, call.awaits = some (key, walletId) → other.awaits ≠ some (key', walletId)) →
    Knows crypto encryptionKey after other
  awaits : ∀ key walletId, next.awaits = some (key, walletId) →
    call.awaits = some (key, walletId) ∨ walletId ∉ shared.issued
  /-- What the call comes to tell it tells of a wallet that is there. -/
  tells : next.tells = call.tells ∨ ∀ walletId userId secret, next.tells = some (walletId, userId, secret) →
    ∃ wallet, shared.db.wallets.lookup walletId = some wallet ∧
      (Shows crypto encryptionKey userId secret wallet ∨ ∃ key, call.awaits = some (key, walletId))

/-- A call that leaves the secrets alone. -/
theorem advanced_untouched (opens : crypto.Opens) (untouched : Untouched shared after) (issued : Issued after)
    (erased : after.erased = shared.erased) (knows : Knows crypto encryptionKey after next)
    (awaits : ∀ key walletId, next.awaits = some (key, walletId) →
      call.awaits = some (key, walletId) ∨ walletId ∉ shared.issued)
    (tells : next.tells = call.tells ∨ ∀ walletId userId secret, next.tells = some (walletId, userId, secret) →
      ∃ wallet, shared.db.wallets.lookup walletId = some wallet ∧
        (Shows crypto encryptionKey userId secret wallet ∨ ∃ key, call.awaits = some (key, walletId))) :
    Advanced crypto encryptionKey shared after call next where
  onward := untouched.onward
  issued := issued
  erased := erased
  knows := knows
  others _ knew _ := knew.untouched opens untouched
  awaits := awaits
  tells := tells

theorem advanced_idle (opens : crypto.Opens) (issued : Issued shared) (knows : Knows crypto encryptionKey shared call) :
    Advanced crypto encryptionKey shared shared call call :=
  advanced_untouched opens (.refl shared) issued rfl knows (fun _ _ => .inl) (.inl rfl)

/-- `createWallet` goes on, fails, or has inserted its row. -/
theorem creates_proceed {db : Wallets.Database} {phase : Wallets.Phase} (creates : Creates phase)
    (outside : Wallets.Outside) :
    (∃ exception, (Wallets.proceed userId db phase outside).2 = .returned (.error exception)) ∨
      Creates (Wallets.proceed userId db phase outside).2 ∨
      inserts phase = true ∧ ∃ wallet, (Wallets.proceed userId db phase outside).2 = .returned (.ok wallet) := by
  cases phase with
  | listing publicKey walletAlias =>
    simp only [Wallets.proceed, Wallets.checkNew, Wallets.fail]
    split
    · exact .inl ⟨_, rfl⟩
    split
    · exact .inl ⟨_, rfl⟩
    · exact .inr (.inl trivial)
  | inserting publicKey walletAlias isDefault =>
    simp only [Wallets.proceed, Wallets.fail]
    split
    · exact .inl ⟨_, rfl⟩
    split
    · exact .inl ⟨_, rfl⟩
    · exact .inr (.inr ⟨rfl, _, rfl⟩)
  | _ => exact creates.elim

theorem createNext_creates {phase : Wallets.Phase} (creates : Creates phase) :
    createNext key walletId phase = .creating key phase := by
  cases phase with
  | listing | inserting => rfl
  | _ => exact creates.elim

theorem advanced_creating {phase nextPhase : Wallets.Phase} {outside : Wallets.Outside} (opens : crypto.Opens)
    (issued : Issued shared) (knows : Knows crypto encryptionKey shared (.creating key phase))
    (done : walletStatement key.userId shared phase outside = some (after, nextPhase)) :
    Advanced crypto encryptionKey shared after (.creating key phase) (createNext key outside.walletId nextPhase) := by
  obtain ⟨sealed, creates⟩ := knows
  obtain ⟨untouched, erased, issuedAfter, inserted, rfl⟩ := walletStatement_ok issued done
  rcases creates_proceed creates outside with ⟨exception, same⟩ | creating | ⟨inserting, wallet, same⟩
  · rw [same]
    exact advanced_untouched opens untouched issuedAfter erased trivial (fun _ _ waits => nomatch waits) (.inl rfl)
  · rw [createNext_creates creating]
    exact advanced_untouched opens untouched issuedAfter erased ⟨sealed, creating⟩ (fun _ _ => .inl) (.inl rfl)
  · rw [same]
    obtain ⟨new, known, fresh⟩ := inserted inserting
    refine advanced_untouched opens untouched issuedAfter erased ?_ ?_ (.inl rfl)
    · exact ⟨sealed, known, fun row found => .inr (fresh row found)⟩
    · rintro _ _ ⟨⟩
      exact .inr new

/-- The import stores its secret. -/
theorem advanced_storing (opens : crypto.Opens) (issued : Issued shared)
    (knows : Knows crypto encryptionKey shared (.storing key walletId))
    (done : storeSecret shared walletId key.encryptedSecret = .ok after) :
    Advanced crypto encryptionKey shared after (.storing key walletId) (.imported key walletId) := by
  obtain ⟨⟨iv, sealed⟩, keeps⟩ := knows
  have fits (wallet : Wallets.Wallet) (found : shared.db.wallets.lookup walletId = some wallet) :
      walletId ∈ shared.erased ∨ Later crypto encryptionKey wallet
        { wallet with encryptedSecret := some (String.ofList key.encryptedSecret) } :=
    (keeps.2 wallet found).imp_right fun awaits => ⟨rfl, .inr (.inl awaits.2)⟩
  obtain ⟨onward, issuedAfter, erased, others⟩ := storeSecret_onward issued done fits
  obtain ⟨wallet, found, rfl⟩ := storeSecret_ok done
  refine ⟨onward, issuedAfter, erased, ?_, fun other knew apart => ?_, fun _ _ waits => (nomatch waits), .inr ?_⟩
  · refine ⟨keeps.1, fun later held => (keeps.2 wallet found).imp_right fun awaits => ?_⟩
    rcases lookup_insert_some.mp held with ⟨-, rfl⟩ | ⟨ne, -⟩
    · refine ⟨awaits.1, _, rfl, ?_⟩
      rw [String.toList_ofList]
      exact decrypt_encrypt opens sealed
    · exact absurd rfl ne
  · refine knew.onward opens onward fun key' other waits => others other (Awaits key') ?_
    rintro rfl
    exact apart key key' other rfl waits
  · rintro _ _ _ ⟨⟩
    exact ⟨wallet, found, .inr ⟨key, rfl⟩⟩

theorem findFirst_mem_rows {rows : List String} {first row : String} (found : Wallets.findFirst rows first = some row) :
    row ∈ rows := by
  unfold Wallets.findFirst at found
  split at found
  · cases found
    assumption
  · exact List.mem_of_head? found

theorem findWallet_ok {db : Wallets.Database} {given : Option String} {first : String} {wallet : Wallets.Wallet}
    (found : findWallet userId db given first = .ok (walletId, wallet)) :
    db.wallets.lookup walletId = some wallet ∧ wallet.userId = userId := by
  unfold findWallet at found
  split at found
  · split at found
    · rename_i held
      cases found
      exact Wallets.getWalletById_ok held
    · cases found
  · simp only at found
    split at found
    · rename_i id chosen
      split at found
      · rename_i held
        cases found
        obtain ⟨entry, member, rfl⟩ := List.mem_map.mp (findFirst_mem_rows chosen)
        rw [List.mem_filter] at member
        have same := AList.mem_lookup_iff.mpr member.1
        rw [held] at same
        cases same
        exact ⟨held, by simpa using And.left (by simpa using member.2)⟩
      · cases found
    · cases found

theorem exportWallet_ok {db : Wallets.Database} {given : Option String} {first : String} {secret : List Char}
    (done : exportWallet crypto encryptionKey userId db given first = .ok (walletId, secret)) :
    ∃ wallet, db.wallets.lookup walletId = some wallet ∧ Shows crypto encryptionKey userId secret wallet := by
  simp only [exportWallet, bind_ok] at done
  obtain ⟨⟨id, wallet⟩, found, done⟩ := done
  obtain ⟨held, owner⟩ := findWallet_ok found
  cases secretHeld : wallet.encryptedSecret with
  | none =>
    rw [secretHeld] at done
    cases done
  | some data =>
    simp only [secretHeld, bind_ok, pure_ok] at done
    obtain ⟨text, opened, same⟩ := done
    cases same
    exact ⟨wallet, held, owner, data, secretHeld, opened⟩

/-- What the script writes over a row is its text, sealed for its owner; a row that it leaves
alone is settled. -/
theorem rewrite_ok {row : Listed} {written : Option (List Char)}
    (done : rewrite crypto encryptionKey row iv = .ok written) :
    ∃ data read, row.2.encryptedSecret = some data ∧
      decryptLegacyWalletSecret crypto encryptionKey data.toList = .ok read ∧
      (written = none ∧ (read = none ∨ read = some []) ∨ ∃ text encryptedSecret, read = some text ∧
        written = some encryptedSecret ∧ encrypt crypto encryptionKey text row.2.userId iv = .ok encryptedSecret) := by
  unfold rewrite at done
  split at done
  · cases done
  · rename_i data held
    obtain ⟨read, opened, done⟩ := bind_ok.mp done
    refine ⟨data, read, held, opened, ?_⟩
    split at done
    · cases done
      exact .inl ⟨rfl, .inl rfl⟩
    · cases done
      exact .inl ⟨rfl, .inr rfl⟩
    · rename_i text _
      cases sealed : encryptWalletSecret crypto encryptionKey text row.2.userId iv with
      | error failure =>
        rw [sealed] at done
        cases done
      | ok encryptedSecret =>
        rw [sealed] at done
        cases done
        exact .inr ⟨text, encryptedSecret, rfl, rfl, sealed⟩

theorem rewrite_of_read {row : Listed} {stored : String} (held : row.2.encryptedSecret = some stored)
    (read : decryptLegacyWalletSecret crypto encryptionKey stored.toList = .ok (some text)) (full : text ≠ [])
    (sealed : encrypt crypto encryptionKey text row.2.userId iv = .ok data) :
    rewrite crypto encryptionKey row iv = .ok (some data) := by
  cases text with
  | nil => exact absurd rfl full
  | cons => simp only [rewrite, held, read, bind, Except.bind, encryptWalletSecret, sealed, Functor.map, Except.map]

theorem proceed_stored {behind rest : List Listed} {row : Listed} {encryptedSecret : List Char}
    (written : rewrite crypto encryptionKey row outside.iv = .ok (some encryptedSecret))
    (stored : storeSecret shared row.1 encryptedSecret = .ok after) :
    proceed crypto encryptionKey shared (.rewriting behind (row :: rest)) outside =
      (after, .rewriting (behind ++ [row]) rest) := by
  simp only [proceed, rewriteNext, written, stored]

theorem settled_of_left {row : Listed} (left : rewrite crypto encryptionKey row iv = .ok none) :
    Settled crypto encryptionKey row.2 := by
  obtain ⟨data, read, held, opened, ⟨-, rfl | rfl⟩ | ⟨_, _, -, written, -⟩⟩ := rewrite_ok left
  · exact ⟨data, held, .inl (decryptLegacy_none opened)⟩
  · exact ⟨data, held, .inr opened⟩
  · cases written

/-- The script writes over a row. -/
theorem advanced_rewrites {behind rest : List Listed} {row : Listed} {encryptedSecret : List Char} (opens : crypto.Opens)
    (issued : Issued shared) (knows : Knows crypto encryptionKey shared (.rewriting behind (row :: rest)))
    (written : rewrite crypto encryptionKey row iv = .ok (some encryptedSecret))
    (done : storeSecret shared row.1 encryptedSecret = .ok after) :
    Advanced crypto encryptionKey shared after (.rewriting behind (row :: rest))
      (.rewriting (behind ++ [row]) rest) := by
  obtain ⟨data, _, held, read, ⟨none, -⟩ | ⟨text, _, rfl, same, sealed⟩⟩ := rewrite_ok written
  · cases none
  cases same
  obtain ⟨passed, coming⟩ := knows
  have keeps := coming row List.mem_cons_self
  have reseals (wallet : Wallets.Wallet) (later : Later crypto encryptionKey row.2 wallet) :
      ∃ data', wallet.encryptedSecret = some data' ∧
        Resealed crypto encryptionKey wallet.userId data' (String.ofList encryptedSecret) := by
    rw [later.owner]
    rcases later.secret with same | none | ⟨_, data', held', stored, text', iv', origin, before⟩
    · exact ⟨data, same.trans held, text, iv, .inl read, by rw [String.toList_ofList]; exact sealed⟩
    · rw [held] at none
      cases none
    · rw [held] at held'
      cases held'
      rcases origin with read' | ⟨earlier, early⟩
      · rw [read] at read'
        cases read'
        exact ⟨data', stored, text, iv, .inr ⟨iv', before⟩, by rw [String.toList_ofList]; exact sealed⟩
      · exact (encrypt_not_legacy early (decryptLegacy_some read).1).elim
  have fits (wallet : Wallets.Wallet) (found : shared.db.wallets.lookup row.1 = some wallet) :
      row.1 ∈ shared.erased ∨ Later crypto encryptionKey wallet
        { wallet with encryptedSecret := some (String.ofList encryptedSecret) } := by
    refine (keeps.2 wallet found).imp_right fun later => ⟨rfl, .inr (.inr ?_)⟩
    obtain ⟨data', stored, resealed⟩ := reseals wallet later
    exact ⟨data', _, stored, rfl, resealed⟩
  obtain ⟨onward, issuedAfter, erased, others⟩ := storeSecret_onward issued done fits
  obtain ⟨wallet, found, rfl⟩ := storeSecret_ok done
  refine ⟨onward, issuedAfter, erased, ?_, fun other knew _ => ?_, fun _ _ waits => (nomatch waits), .inl rfl⟩
  · refine ⟨fun other member => ?_, fun other member => ?_⟩
    · rcases List.mem_append.mp member with before | last
      · exact (passed other before).onward onward
      · cases List.mem_singleton.mp last
        refine ⟨⟨keeps.1, fun later found => .inr ?_⟩, data, _, held, read⟩
        rcases lookup_insert_some.mp found with ⟨-, rfl⟩ | ⟨ne, -⟩
        · refine ⟨_, rfl, .inl ?_⟩
          rw [String.toList_ofList]
          exact encrypt_not_legacy sealed
        · exact absurd rfl ne
    · exact (coming other (List.mem_cons_of_mem _ member)).onward (fun _ _ early late => early.trans opens late) onward
  · refine knew.onward opens onward fun key other waits awaits => ?_
    by_cases same : other = row.1
    · subst same
      refine ⟨awaits.1, fun later held => ?_⟩
      rcases keeps.2 wallet found with gone | later
      · exact .inl gone
      · rcases awaits.2 wallet found with gone | awaits
        · exact .inl gone
        · obtain ⟨data', stored, -⟩ := reseals wallet later
          rw [awaits.2] at stored
          cases stored
    · exact others other (Awaits key) same awaits

/-- The script goes past a row that it leaves alone. -/
theorem knows_left {behind rest : List Listed} {row : Listed}
    (knows : Knows crypto encryptionKey shared (.rewriting behind (row :: rest)))
    (left : rewrite crypto encryptionKey row iv = .ok none) :
    Knows crypto encryptionKey shared (.rewriting (behind ++ [row]) rest) := by
  obtain ⟨passed, coming⟩ := knows
  obtain ⟨data, read, held, opened, -⟩ := rewrite_ok left
  have keeps := coming row List.mem_cons_self
  refine ⟨fun other member => ?_, fun other member => coming other (List.mem_cons_of_mem _ member)⟩
  rcases List.mem_append.mp member with before | last
  · exact passed other before
  · cases List.mem_singleton.mp last
    refine ⟨⟨keeps.1, fun wallet found => (keeps.2 wallet found).imp_right fun later => ?_⟩, data, read, held, opened⟩
    exact (settled_of_left left).kept row.2 wallet later

theorem advanced_rewriteNext {behind rest : List Listed} {row : Listed} (opens : crypto.Opens) (issued : Issued shared)
    (knows : Knows crypto encryptionKey shared (.rewriting behind (row :: rest))) :
    Advanced crypto encryptionKey shared (rewriteNext crypto encryptionKey shared behind row rest iv).1
      (.rewriting behind (row :: rest)) (rewriteNext crypto encryptionKey shared behind row rest iv).2 := by
  have reads {next : Call} (knowsNext : Knows crypto encryptionKey shared next) (awaits : next.awaits = none)
      (tells : next.tells = none) :
      Advanced crypto encryptionKey shared shared (.rewriting behind (row :: rest)) next := by
    refine advanced_untouched opens (.refl shared) issued rfl knowsNext (fun key walletId waits => ?_) (.inl tells)
    rw [awaits] at waits
    cases waits
  unfold rewriteNext
  split
  · exact reads knows.1 rfl rfl
  · rename_i left
    exact reads (knows_left knows left) rfl rfl
  · rename_i encryptedSecret written
    split
    · rename_i after done
      exact advanced_rewrites opens issued knows written done
    · exact reads knows.1 rfl rfl

theorem advanced (opens : crypto.Opens) (issued : Issued shared) (knows : Knows crypto encryptionKey shared call)
    (outside : Outside) :
    Advanced crypto encryptionKey shared (proceed crypto encryptionKey shared call outside).1 call
      (proceed crypto encryptionKey shared call outside).2 := by
  have reads {next : Call} (knowsNext : Knows crypto encryptionKey shared next) (awaits : next.awaits = none)
      (tells : next.tells = call.tells) : Advanced crypto encryptionKey shared shared call next := by
    refine advanced_untouched opens (.refl shared) issued rfl knowsNext (fun key walletId waits => ?_) (.inl tells)
    rw [awaits] at waits
    cases waits
  cases call with
  | wallet userId phase =>
    simp only [proceed]
    split
    · rename_i after next done
      obtain ⟨untouched, erased, issuedAfter, -⟩ := walletStatement_ok issued done
      exact advanced_untouched opens untouched issuedAfter erased trivial (fun _ _ waits => (nomatch waits)) (.inl rfl)
    · exact advanced_idle opens issued knows
  | creating key phase =>
    simp only [proceed]
    split
    · rename_i after next done
      exact advanced_creating opens issued knows done
    · exact advanced_idle opens issued knows
  | funding key walletId =>
    simp only [proceed]
    split
    · exact advanced_untouched opens (.refl shared) issued rfl knows (fun _ _ => .inl) (.inl rfl)
    · exact reads trivial rfl rfl
  | storing key walletId =>
    simp only [proceed]
    split
    · rename_i after done
      exact advanced_storing opens issued knows done
    · exact reads trivial rfl rfl
  | exporting userId given =>
    simp only [proceed]
    cases done : exportWallet crypto encryptionKey userId shared.db given outside.wallet.walletId with
    | error failure => exact reads trivial rfl rfl
    | ok result =>
      obtain ⟨walletId, secret⟩ := result
      obtain ⟨wallet, found, shows⟩ := exportWallet_ok done
      refine advanced_untouched opens (.refl shared) issued rfl ?_ (fun _ _ waits => (nomatch waits)) (.inr ?_)
      · refine ⟨issued walletId wallet found, fun other held => .inr ?_⟩
        rw [found] at held
        cases held
        exact shows
      · rintro _ _ _ ⟨⟩
        exact ⟨wallet, found, .inl shows⟩
  | listing =>
    refine reads ⟨by simp, fun row member => ?_⟩ rfl rfl
    rw [(outside.order _).property.mem_iff] at member
    obtain ⟨entry, listed, rfl⟩ := List.mem_map.mp member
    have found := AList.mem_lookup_iff.mpr listed
    refine ⟨issued _ _ found, fun wallet held => .inr ?_⟩
    rw [found] at held
    cases held
    exact .refl _
  | rewriting behind ahead =>
    cases ahead with
    | nil => exact reads knows.1 rfl rfl
    | cons row rest => exact advanced_rewriteNext opens issued knows
  | imported | refused | exported | migrated => exact advanced_idle opens issued knows

/-- What a call is when it begins. -/
inductive Begun (crypto : Crypto) (encryptionKey : Option (List Char)) : Call → Prop where
  | wallet (userId : String) (request : Wallets.Request) :
      Begun crypto encryptionKey (.wallet userId (Wallets.start request))
  | refused (failure : Failure) : Begun crypto encryptionKey (.refused failure)
  | creating (key : Import) (sealed : key.Sealed crypto encryptionKey) (publicKey : String)
      (walletAlias : Option String) : Begun crypto encryptionKey (.creating key (.listing publicKey walletAlias))
  | exporting (userId : String) (walletId : Option String) : Begun crypto encryptionKey (.exporting userId walletId)
  | listing : Begun crypto encryptionKey .listing

theorem begun (request : Request) : Begun crypto encryptionKey (begin crypto encryptionKey request) := by
  cases request with
  | wallet userId request => exact .wallet userId request
  | importWallet userId secretKey walletAlias iv =>
    simp only [begin]
    split
    · exact .refused _
    · rename_i publicKey _
      split
      · exact .refused _
      · rename_i encryptedSecret sealed
        exact .creating ⟨userId, secretKey, encryptedSecret⟩ ⟨iv, sealed⟩ publicKey walletAlias
  | exportWallet userId walletId => exact .exporting userId walletId
  | migrateEncryption => exact .listing

theorem Begun.knows (begun : Begun crypto encryptionKey call) : Knows crypto encryptionKey shared call := by
  cases begun with
  | creating key sealed => exact ⟨sealed, trivial⟩
  | _ => trivial

theorem Begun.awaits (begun : Begun crypto encryptionKey call) : call.awaits = none := by
  cases begun <;> rfl

theorem Begun.tells (begun : Begun crypto encryptionKey call) : call.tells = none := by
  cases begun <;> rfl

/-- The invariant of a run. -/
structure Sound (crypto : Crypto) (encryptionKey : Option (List Char)) (sys : State) : Prop where
  issued : Issued sys.shared
  each : Each (Knows crypto encryptionKey) sys
  /-- A wallet without a secret is one import's. -/
  sole : ∀ id id' call call' key key' walletId, sys.calls.lookup id = some call → sys.calls.lookup id' = some call' →
    call.awaits = some (key, walletId) → call'.awaits = some (key', walletId) → id = id'
  agree : ∀ id id' call call', sys.calls.lookup id = some call → sys.calls.lookup id' = some call' →
    Agree sys.shared call call'

variable {sys : State}

theorem Agree.symm {other : Call} (agree : Agree shared call other) : Agree shared other call :=
  fun walletId first second told tells => (agree walletId second first tells told).imp_right Eq.symm

/-- What a call comes to tell agrees with what another has told. -/
theorem Advanced.agree {other : Call} (advanced : Advanced crypto encryptionKey shared after call next)
    (mine : Knows crypto encryptionKey shared call) (knows : Knows crypto encryptionKey shared other)
    (agree : Agree shared call other) : Agree after next other := by
  rintro walletId ⟨userId, secret⟩ ⟨userId', secret'⟩ told told'
  rw [advanced.erased]
  rcases advanced.tells with same | present
  · exact agree walletId _ _ (same ▸ told) told'
  · obtain ⟨wallet, found, known⟩ := present walletId userId secret told
    rcases (knows.telling told').2 wallet found with gone | ⟨rfl, data, held, opened⟩
    · exact .inl gone
    · rcases known with ⟨rfl, data', held', opened'⟩ | ⟨key, waits⟩
      · rw [held] at held'
        cases held'
        rw [opened] at opened'
        cases opened'
        exact .inr rfl
      · refine ((mine.awaiting waits).2.2 wallet found).imp_right fun awaits => ?_
        rw [awaits.2] at held
        cases held

theorem sound_begins {id : Nat} (sound : Sound crypto encryptionKey sys) (begun : Begun crypto encryptionKey call) :
    Sound crypto encryptionKey { sys with calls := sys.calls.insert id call } where
  issued := sound.issued
  each id' call' found := by
    rcases lookup_insert_some.mp found with ⟨-, rfl⟩ | ⟨-, old⟩
    · exact begun.knows
    · exact sound.each id' call' old
  sole id₁ id₂ call₁ call₂ key₁ key₂ walletId found₁ found₂ waits₁ waits₂ := by
    rcases lookup_insert_some.mp found₁ with ⟨-, rfl⟩ | ⟨-, old₁⟩
    · rw [begun.awaits] at waits₁
      cases waits₁
    rcases lookup_insert_some.mp found₂ with ⟨-, rfl⟩ | ⟨-, old₂⟩
    · rw [begun.awaits] at waits₂
      cases waits₂
    exact sound.sole id₁ id₂ call₁ call₂ key₁ key₂ walletId old₁ old₂ waits₁ waits₂
  agree id₁ id₂ call₁ call₂ found₁ found₂ walletId first second told₁ told₂ := by
    rcases lookup_insert_some.mp found₁ with ⟨-, rfl⟩ | ⟨-, old₁⟩
    · rw [begun.tells] at told₁
      cases told₁
    rcases lookup_insert_some.mp found₂ with ⟨-, rfl⟩ | ⟨-, old₂⟩
    · rw [begun.tells] at told₂
      cases told₂
    exact sound.agree id₁ id₂ call₁ call₂ old₁ old₂ walletId first second told₁ told₂

theorem sound_advances {id : Nat} (sound : Sound crypto encryptionKey sys) (found : sys.calls.lookup id = some call)
    (advanced : Advanced crypto encryptionKey sys.shared after call next) :
    Sound crypto encryptionKey ⟨after, sys.calls.insert id next⟩ where
  issued := advanced.issued
  each id' call' held := by
    rcases lookup_insert_some.mp held with ⟨-, rfl⟩ | ⟨ne, old⟩
    · exact advanced.knows
    · refine advanced.others call' (sound.each id' call' old) fun key key' walletId waits waits' => ne ?_
      exact sound.sole id' id call' call key' key walletId old found waits' waits
  sole id₁ id₂ call₁ call₂ key₁ key₂ walletId found₁ found₂ waits₁ waits₂ := by
    rcases lookup_insert_some.mp found₁ with ⟨rfl, rfl⟩ | ⟨ne₁, old₁⟩
    · rcases lookup_insert_some.mp found₂ with ⟨rfl, rfl⟩ | ⟨ne₂, old₂⟩
      · rfl
      · rcases advanced.awaits key₁ walletId waits₁ with waits | new
        · exact sound.sole _ id₂ call call₂ key₁ key₂ walletId found old₂ waits waits₂
        · exact absurd ((sound.each id₂ call₂ old₂).awaiting waits₂).2.1 new
    · rcases lookup_insert_some.mp found₂ with ⟨rfl, rfl⟩ | ⟨ne₂, old₂⟩
      · rcases advanced.awaits key₂ walletId waits₂ with waits | new
        · exact sound.sole id₁ _ call₁ call key₁ key₂ walletId old₁ found waits₁ waits
        · exact absurd ((sound.each id₁ call₁ old₁).awaiting waits₁).2.1 new
      · exact sound.sole id₁ id₂ call₁ call₂ key₁ key₂ walletId old₁ old₂ waits₁ waits₂
  agree id₁ id₂ call₁ call₂ found₁ found₂ := by
    have mine := sound.each id call found
    rcases lookup_insert_some.mp found₁ with ⟨-, rfl⟩ | ⟨ne₁, old₁⟩
    · rcases lookup_insert_some.mp found₂ with ⟨-, rfl⟩ | ⟨ne₂, old₂⟩
      · intro walletId first second told told'
        rw [told] at told'
        cases told'
        exact .inr rfl
      · exact advanced.agree mine (sound.each id₂ call₂ old₂) (sound.agree id id₂ call call₂ found old₂)
    · rcases lookup_insert_some.mp found₂ with ⟨-, rfl⟩ | ⟨ne₂, old₂⟩
      · exact (advanced.agree mine (sound.each id₁ call₁ old₁) (sound.agree id id₁ call call₁ found old₁)).symm
      · intro walletId first second told told'
        rw [advanced.erased]
        exact sound.agree id₁ id₂ call₁ call₂ old₁ old₂ walletId first second told told'

theorem sound_acts (opens : crypto.Opens) (sound : Sound crypto encryptionKey sys) (erase : Erase) :
    Sound crypto encryptionKey { sys with shared := act sys.shared erase } := by
  obtain ⟨untouched, issued, -⟩ := act_ok sound.issued erase
  exact ⟨issued, fun id call found => (sound.each id call found).untouched opens untouched, sound.sole,
    fun id₁ id₂ call₁ call₂ found₁ found₂ walletId first second told₁ told₂ =>
      (sound.agree id₁ id₂ call₁ call₂ found₁ found₂ walletId first second told₁ told₂).imp_left
        (untouched.erased walletId)⟩

theorem sound_step (opens : crypto.Opens) (sound : Sound crypto encryptionKey sys) (event : Step) :
    Sound crypto encryptionKey (step (service crypto encryptionKey) sys event) := by
  have all := steps (service crypto encryptionKey) sys event
  generalize step (service crypto encryptionKey) sys event = next at all
  cases all with
  | idle => exact sound
  | begins id request free => exact sound_begins sound (begun request)
  | advances id outside call found =>
    exact sound_advances sound found (advanced opens sound.issued (sound.each id call found) outside)
  | acts erase => exact sound_acts opens sound erase

theorem issued_found (db : Wallets.Database) : Issued (.found db) := by
  intro id wallet found
  have present := AList.lookup_isSome.mp (Option.isSome_of_eq_some found)
  exact AList.mem_keys.mpr present

theorem sound_fresh (db : Wallets.Database) : Sound crypto encryptionKey (System.fresh (.found db)) where
  issued := issued_found db
  each := each_fresh _ _
  sole _ _ _ _ _ _ _ found := by cases found
  agree _ _ _ _ found := by cases found

theorem reached_append (db : Wallets.Database) (before after : List Step) :
    reached crypto encryptionKey db (before ++ after) =
      run (step (service crypto encryptionKey)) (reached crypto encryptionKey db before) after :=
  run_append _ before after

theorem sound_run (opens : crypto.Opens) (db : Wallets.Database) (events : List Step) :
    Sound crypto encryptionKey (reached crypto encryptionKey db events) :=
  run_invariant (Sound crypto encryptionKey) (fun _ event sound => sound_step opens sound event) (sound_fresh db) events

end Invariant

end AfroPay.WalletSecrets
