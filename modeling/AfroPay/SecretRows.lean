import AfroPay.WalletSecrets

/-! The two forms of a secret, what a wallet can become while it is not erased, and what one
statement of the wallet service, of an import or of an erasure does to the wallets. -/
namespace AfroPay.WalletSecrets
open Base64 IntegerText Interleaving JoinedText KeyedStore LossyText Panics Runs WebText

variable {crypto : Crypto} {encryptionKey : Option (List Char)} {data text : List Char} {userId : String} {iv : Iv}

section Forms

theorem not_separator {bytes : Bytes} : ':' ∉ toHex bytes := by
  intro member
  have digit := isHex_of_mem_toHex member
  simp [digitValue] at digit

/-- The hexadecimal text of bytes has two characters for each. -/
theorem utf16Length_toHex (bytes : Bytes) : utf16Length (String.ofList (toHex bytes)) = 2 * bytes.length := by
  have table : ∀ d ∈ List.range 16, (Nat.digitChar d).toNat < 0x10000 := by decide
  rw [utf16Length, String.toList_ofList]
  induction bytes with
  | nil => rfl
  | cons byte rest ih =>
    have small : byte.toNat < 256 := byte.toNat_lt
    have high := table (byte.toNat / 16) (List.mem_range.mpr (by omega))
    have low := table (byte.toNat % 16) (List.mem_range.mpr (by omega))
    rw [toHex] at ih ⊢
    simp only [List.flatMap_cons, List.cons_append, List.nil_append, List.map_cons, List.sum_cons, ih, if_pos high,
      if_pos low, List.length_cons]
    omega

theorem splitOn_parts (first second third : Bytes) :
    ([':'].intercalate [toHex first, toHex second, toHex third]).splitOn ':' =
      [toHex first, toHex second, toHex third] := by
  rw [splitOn_join (List.cons_ne_nil _ _), pieces_of_free]
  simp only [List.mem_cons, List.not_mem_nil, or_false, forall_eq_or_imp, forall_eq]
  exact ⟨not_separator, not_separator, not_separator⟩

/-- The older form, of two parts. -/
def Legacy (data : List Char) : Prop := ∃ ivHex encrypted, data.splitOn ':' = [ivHex, encrypted]

theorem encrypt_ok : encrypt crypto encryptionKey text userId iv = .ok data ↔
    ∃ key, deriveUserKey crypto encryptionKey userId = .ok key ∧
      [':'].intercalate [toHex iv.val, toHex (crypto.gcmSeal key iv (utf8 text)).2,
        toHex (crypto.gcmSeal key iv (utf8 text)).1] = data := by
  simp only [encrypt, bind_ok, pure_ok]

theorem encrypt_not_legacy (sealed : encrypt crypto encryptionKey text userId iv = .ok data) : ¬ Legacy data := by
  obtain ⟨key, -, rfl⟩ := encrypt_ok.mp sealed
  rintro ⟨ivHex, encrypted, parts⟩
  rw [splitOn_parts] at parts
  cases parts

/-- What was sealed for a user opens for him. -/
theorem decrypt_encrypt (opens : crypto.Opens) (sealed : encrypt crypto encryptionKey text userId iv = .ok data) :
    decrypt crypto encryptionKey data userId = .ok text := by
  obtain ⟨key, derived, rfl⟩ := encrypt_ok.mp sealed
  obtain ⟨masterKey, configured, same⟩ := bind_ok.mp derived
  cases same
  obtain ⟨starts, opened⟩ := opens masterKey (utf8 userId.toList) (utf8 text) iv
  simp only [decrypt, splitOn_parts, derived, bind_ok, fromHex_toHex]
  refine ⟨_, rfl, (), by rw [starts]; rfl, ?_⟩
  rw [opened]
  exact congrArg Except.ok (decodeUtf8_utf8 text)

/-- The script reads what the service reads, whoever the owner is. -/
theorem decryptLegacy_some (read : decryptLegacyWalletSecret crypto encryptionKey data = .ok (some text)) :
    Legacy data ∧ ∀ userId, decrypt crypto encryptionKey data userId = .ok text := by
  unfold decryptLegacyWalletSecret at read
  split at read
  · rename_i ivHex encrypted parts
    refine ⟨⟨ivHex, encrypted, parts⟩, fun userId => ?_⟩
    simp only [decrypt, parts]
    cases opened : decryptParts crypto encryptionKey ivHex encrypted with
    | ok value =>
      rw [opened] at read
      cases read
      rfl
    | error failure =>
      rw [opened] at read
      cases read
  · cases read

theorem decryptLegacy_none (read : decryptLegacyWalletSecret crypto encryptionKey data = .ok none) : ¬ Legacy data := by
  rintro ⟨ivHex, encrypted, parts⟩
  simp only [decryptLegacyWalletSecret, parts] at read
  cases opened : decryptParts crypto encryptionKey ivHex encrypted with
  | ok value =>
    rw [opened] at read
    cases read
  | error failure =>
    rw [opened] at read
    cases read

/-- The script reads what was enciphered in the older form. -/
theorem decryptLegacy_of_opens {masterKey iv ciphertext : Bytes} (configured : getMasterKey encryptionKey = .ok masterKey)
    (starts : crypto.cbcStart masterKey iv = .ok ()) (opened : crypto.cbcOpen masterKey iv ciphertext = .ok (utf8 text)) :
    decryptLegacyWalletSecret crypto encryptionKey ([':'].intercalate [toHex iv, toHex ciphertext]) = .ok (some text) := by
  have parts : ([':'].intercalate [toHex iv, toHex ciphertext]).splitOn ':' = [toHex iv, toHex ciphertext] := by
    rw [splitOn_join (List.cons_ne_nil _ _), pieces_of_free]
    simp only [List.mem_cons, List.not_mem_nil, or_false, forall_eq_or_imp, forall_eq]
    exact ⟨not_separator, not_separator⟩
  simp only [decryptLegacyWalletSecret, parts, decryptParts, configured, fromHex_toHex, bind, Except.bind, starts,
    passed, utf16Length_toHex, opened, decodeUtf8_utf8]
  rw [if_neg (by omega)]
  rfl

/-- The mark of an erasure has two parts. -/
theorem erasedSecret_parts (random : Bytes) :
    (erasedSecret random).toList.splitOn ':' = ["ERASED".toList, toHex random] := by
  have joined : (erasedSecret random).toList = [':'].intercalate ["ERASED".toList, toHex random] := by
    simp [erasedSecret, List.intercalate]
  rw [joined, splitOn_join (List.cons_ne_nil _ _), pieces_of_free]
  simp only [List.mem_cons, List.not_mem_nil, or_false, forall_eq_or_imp, forall_eq]
  exact ⟨by decide, not_separator⟩

/-- The first of them is no IV. -/
theorem decryptParts_erased (checks : crypto.ChecksIv) (encrypted : List Char) :
    ∃ failure, decryptParts crypto encryptionKey "ERASED".toList encrypted = .error failure := by
  have none : fromHex "ERASED".toList = [] := by decide
  simp only [decryptParts, none]
  cases getMasterKey encryptionKey with
  | error failure => exact ⟨failure, rfl⟩
  | ok masterKey =>
    obtain ⟨message, refused⟩ := checks masterKey [] (by simp)
    exact ⟨.library message, by simp only [bind, Except.bind, refused, passed]⟩

theorem decryptLegacy_erased (checks : crypto.ChecksIv) (random : Bytes) :
    ∃ failure, decryptLegacyWalletSecret crypto encryptionKey (erasedSecret random).toList = .error failure := by
  simp only [decryptLegacyWalletSecret, erasedSecret_parts]
  obtain ⟨failure, refused⟩ := decryptParts_erased checks (toHex random)
  exact ⟨failure, by rw [refused]; rfl⟩

theorem decrypt_erased (checks : crypto.ChecksIv) (random : Bytes) (userId : String) :
    ∃ failure, decrypt crypto encryptionKey (erasedSecret random).toList userId = .error failure := by
  simp only [decrypt, erasedSecret_parts]
  exact decryptParts_erased checks (toHex random)

end Forms

section Rows

/-- The script rewrote a secret of the older form, or one that another run of it had rewritten. -/
def Resealed (crypto : Crypto) (encryptionKey : Option (List Char)) (userId data data' : String) : Prop :=
  ∃ text iv, (decryptLegacyWalletSecret crypto encryptionKey data.toList = .ok (some text) ∨
      ∃ earlier, encrypt crypto encryptionKey text userId earlier = .ok data.toList) ∧
    encrypt crypto encryptionKey text userId iv = .ok data'.toList

/-- What a wallet can become while it is not erased: its owner stays, and its secret is as it
was, was stored, or left the older form. -/
structure Later (crypto : Crypto) (encryptionKey : Option (List Char)) (wallet later : Wallets.Wallet) : Prop where
  owner : later.userId = wallet.userId
  secret : later.encryptedSecret = wallet.encryptedSecret ∨ wallet.encryptedSecret = none ∨
    ∃ data data', wallet.encryptedSecret = some data ∧ later.encryptedSecret = some data' ∧
      Resealed crypto encryptionKey wallet.userId data data'

/-- A wallet that was there once has what its later forms keep, if it is still there and not erased. -/
def Keeps (shared : Shared) (walletId : String) (holds : Wallets.Wallet → Prop) : Prop :=
  walletId ∈ shared.issued ∧ ∀ wallet, shared.db.wallets.lookup walletId = some wallet →
    walletId ∈ shared.erased ∨ holds wallet

/-- What can become of the database. -/
structure Onward (crypto : Crypto) (encryptionKey : Option (List Char)) (shared after : Shared) : Prop where
  issued : ∀ id ∈ shared.issued, id ∈ after.issued
  erased : ∀ id ∈ shared.erased, id ∈ after.erased
  rows : ∀ id ∈ shared.issued, ∀ later, after.db.wallets.lookup id = some later →
    id ∈ after.erased ∨ ∃ wallet, shared.db.wallets.lookup id = some wallet ∧ Later crypto encryptionKey wallet later

variable {wallet later last : Wallets.Wallet} {shared middle after : Shared}

/-- Both forms open to the same text. -/
theorem Resealed.opened (opens : crypto.Opens) {data data' : String}
    (resealed : Resealed crypto encryptionKey userId data data') :
    decrypt crypto encryptionKey data'.toList userId = decrypt crypto encryptionKey data.toList userId := by
  obtain ⟨text, iv, read | ⟨earlier, before⟩, sealed⟩ := resealed
  · rw [decrypt_encrypt opens sealed, (decryptLegacy_some read).2]
  · rw [decrypt_encrypt opens sealed, decrypt_encrypt opens before]

theorem Resealed.not_legacy {data data' : String} (resealed : Resealed crypto encryptionKey userId data data') :
    ¬ Legacy data'.toList := by
  obtain ⟨_, _, -, sealed⟩ := resealed
  exact encrypt_not_legacy sealed

theorem Resealed.trans (opens : crypto.Opens) {first second third : String}
    (early : Resealed crypto encryptionKey userId first second)
    (late : Resealed crypto encryptionKey userId second third) : Resealed crypto encryptionKey userId first third := by
  obtain ⟨text, iv, origin, sealed⟩ := early
  obtain ⟨text', iv', read | ⟨earlier, before⟩, again⟩ := late
  · exact (encrypt_not_legacy sealed (decryptLegacy_some read).1).elim
  · have same := decrypt_encrypt opens sealed
    rw [decrypt_encrypt opens before] at same
    cases same
    exact ⟨text, iv', origin, again⟩

theorem Later.refl (wallet : Wallets.Wallet) : Later crypto encryptionKey wallet wallet := ⟨rfl, .inl rfl⟩

theorem Later.trans (opens : crypto.Opens) (early : Later crypto encryptionKey wallet later)
    (late : Later crypto encryptionKey later last) : Later crypto encryptionKey wallet last := by
  refine ⟨late.owner.trans early.owner, ?_⟩
  rcases early.secret with same | none | ⟨data, data', held, stored, resealed⟩
  · rw [← same, ← early.owner]
    exact late.secret
  · exact .inr (.inl none)
  · rcases late.secret with same | none | ⟨_, data'', held', stored', again⟩
    · exact .inr (.inr ⟨data, data', held, same.trans stored, resealed⟩)
    · rw [stored] at none
      cases none
    · rw [stored] at held'
      cases held'
      rw [early.owner] at again
      exact .inr (.inr ⟨data, data'', held, stored', resealed.trans opens again⟩)

theorem Onward.refl (shared : Shared) : Onward crypto encryptionKey shared shared :=
  ⟨fun _ => id, fun _ => id, fun _ _ wallet found => .inr ⟨wallet, found, .refl wallet⟩⟩

theorem Keeps.onward {walletId : String} {holds : Wallets.Wallet → Prop} (keeps : Keeps shared walletId holds)
    (closed : ∀ wallet later, holds wallet → Later crypto encryptionKey wallet later → holds later)
    (onward : Onward crypto encryptionKey shared after) : Keeps after walletId holds := by
  refine ⟨onward.issued walletId keeps.1, fun later found => ?_⟩
  rcases onward.rows walletId keeps.1 later found with gone | ⟨wallet, held, change⟩
  · exact .inl gone
  rcases keeps.2 wallet held with gone | holding
  · exact .inl (onward.erased walletId gone)
  · exact .inr (closed wallet later holding change)

/-- The wallet is the user's, and he can have its secret. -/
def Shows (crypto : Crypto) (encryptionKey : Option (List Char)) (userId : String) (secret : List Char)
    (wallet : Wallets.Wallet) : Prop :=
  wallet.userId = userId ∧ ∃ data, wallet.encryptedSecret = some data ∧
    decrypt crypto encryptionKey data.toList userId = .ok secret

/-- The wallet has a secret that is not in the older form, or an empty one. -/
def Settled (crypto : Crypto) (encryptionKey : Option (List Char)) (wallet : Wallets.Wallet) : Prop :=
  ∃ data, wallet.encryptedSecret = some data ∧
    (¬ Legacy data.toList ∨ decryptLegacyWalletSecret crypto encryptionKey data.toList = .ok (some []))

theorem Shows.kept (opens : crypto.Opens) {secret : List Char} (wallet later : Wallets.Wallet)
    (shows : Shows crypto encryptionKey userId secret wallet) (change : Later crypto encryptionKey wallet later) :
    Shows crypto encryptionKey userId secret later := by
  obtain ⟨rfl, data, held, opened⟩ := shows
  refine ⟨change.owner, ?_⟩
  rcases change.secret with same | none | ⟨_, data', held', stored, resealed⟩
  · exact ⟨data, same.trans held, opened⟩
  · rw [held] at none
    cases none
  · rw [held] at held'
    cases held'
    exact ⟨data', stored, (resealed.opened opens).trans opened⟩

theorem Settled.kept (wallet later : Wallets.Wallet) (settled : Settled crypto encryptionKey wallet)
    (change : Later crypto encryptionKey wallet later) : Settled crypto encryptionKey later := by
  obtain ⟨data, held, form⟩ := settled
  rcases change.secret with same | none | ⟨_, data', -, stored, resealed⟩
  · exact ⟨data, same.trans held, form⟩
  · rw [held] at none
    cases none
  · exact ⟨data', stored, .inl resealed.not_legacy⟩

end Rows

section Statements
variable {shared after : Shared} {phase next : Wallets.Phase} {outside : Wallets.Outside}

/-- A wallet after a statement of the service was there with its owner and secret, or it is new. -/
theorem row_proceed {db : Wallets.Database} {result : Wallets.Database × Wallets.Phase}
    (all : Wallets.Proceeds userId db outside phase result) {walletId : String} {wallet : Wallets.Wallet}
    (found : result.1.wallets.lookup walletId = some wallet) :
    (∃ old, db.wallets.lookup walletId = some old ∧ wallet.userId = old.userId ∧
        wallet.encryptedSecret = old.encryptedSecret) ∨
      inserts phase = true ∧ walletId = outside.walletId ∧ wallet.userId = userId ∧ wallet.encryptedSecret = none := by
  cases all with
  | reads => exact .inl ⟨wallet, found, rfl, rfl⟩
  | inserts publicKey walletAlias isDefault accepted free =>
    rcases lookup_insert_some.mp found with ⟨rfl, rfl⟩ | ⟨-, old⟩
    · exact .inr ⟨rfl, rfl, rfl, rfl⟩
    · exact .inl ⟨wallet, old, rfl, rfl⟩
  | clears =>
    simp only [Wallets.clearDefaults, lookup_mapValues, Option.map_eq_some_iff] at found
    obtain ⟨old, held, rfl⟩ := found
    refine .inl ⟨old, held, ?_⟩
    split <;> exact ⟨rfl, rfl⟩
  | sets other goal old held =>
    rcases lookup_insert_some.mp found with ⟨rfl, rfl⟩ | ⟨-, same⟩
    · exact .inl ⟨old, held, rfl, rfl⟩
    · exact .inl ⟨wallet, same, rfl, rfl⟩
  | misses => exact .inl ⟨wallet, found, rfl, rfl⟩
  | deletes => exact .inl ⟨wallet, lookup_erase_some found, rfl, rfl⟩

def Marked (wallet : Wallets.Wallet) : Prop := ∃ random, wallet.encryptedSecret = some (erasedSecret random)

/-- Wallets that were there keep owner and secret, or are erased and have the mark of it. -/
structure Untouched (shared after : Shared) : Prop where
  issued : ∀ id ∈ shared.issued, id ∈ after.issued
  erased : ∀ id ∈ shared.erased, id ∈ after.erased
  rows : ∀ id ∈ shared.issued, ∀ later, after.db.wallets.lookup id = some later →
    id ∈ after.erased ∧ Marked later ∨ ∃ wallet, shared.db.wallets.lookup id = some wallet ∧
      later.userId = wallet.userId ∧ later.encryptedSecret = wallet.encryptedSecret

theorem Untouched.refl (shared : Shared) : Untouched shared shared :=
  ⟨fun _ => id, fun _ => id, fun _ _ wallet found => .inr ⟨wallet, found, rfl, rfl⟩⟩

theorem Untouched.onward (untouched : Untouched shared after) : Onward crypto encryptionKey shared after where
  issued := untouched.issued
  erased := untouched.erased
  rows id known later found := by
    rcases untouched.rows id known later found with ⟨gone, -⟩ | ⟨wallet, held, owner, secret⟩
    · exact .inl gone
    · exact .inr ⟨wallet, held, owner, .inl secret⟩

theorem Untouched.keeps {walletId : String} {holds : Wallets.Wallet → Prop} (untouched : Untouched shared after)
    (closed : ∀ wallet later, later.userId = wallet.userId → later.encryptedSecret = wallet.encryptedSecret →
      holds wallet → holds later) (keeps : Keeps shared walletId holds) : Keeps after walletId holds := by
  refine ⟨untouched.issued walletId keeps.1, fun later found => ?_⟩
  rcases untouched.rows walletId keeps.1 later found with ⟨gone, -⟩ | ⟨wallet, held, owner, secret⟩
  · exact .inl gone
  · exact (keeps.2 wallet held).imp (untouched.erased walletId) (closed wallet later owner secret)

/-- Every wallet has an id that was given out. -/
def Issued (shared : Shared) : Prop := ∀ id wallet, shared.db.wallets.lookup id = some wallet → id ∈ shared.issued

/-- A statement of the service leaves the wallets that were there alone, and what it inserts is new. -/
theorem walletStatement_ok (issued : Issued shared)
    (done : walletStatement userId shared phase outside = some (after, next)) :
    Untouched shared after ∧ after.erased = shared.erased ∧ Issued after ∧
      (inserts phase = true → outside.walletId ∉ shared.issued ∧ outside.walletId ∈ after.issued ∧
        ∀ wallet, after.db.wallets.lookup outside.walletId = some wallet → wallet.userId = userId ∧ wallet.encryptedSecret = none) ∧
      next = (Wallets.proceed userId shared.db phase outside).2 := by
  have all := Wallets.proceeds userId shared.db phase outside
  unfold walletStatement at done
  split at done
  · rename_i inserting
    split at done
    · cases done
    · rename_i unknown
      cases done
      refine ⟨⟨fun id known => List.mem_cons_of_mem _ known, fun _ => id, fun id known later found => ?_⟩, rfl,
        fun id wallet found => ?_, fun _ => ⟨unknown, List.mem_cons_self, fun wallet found => ?_⟩, rfl⟩
      · rcases row_proceed all found with old | ⟨-, rfl, -⟩
        · exact .inr old
        · exact absurd known unknown
      · rcases row_proceed all found with ⟨old, held, -⟩ | ⟨-, rfl, -⟩
        · exact List.mem_cons_of_mem _ (issued id old held)
        · exact List.mem_cons_self
      · rcases row_proceed all found with ⟨old, held, -⟩ | ⟨-, -, new⟩
        · exact absurd (issued _ old held) unknown
        · exact new
  · rename_i reading
    cases done
    refine ⟨⟨fun _ => id, fun _ => id, fun id known later found => ?_⟩, rfl, fun id wallet found => ?_,
      fun inserting => absurd inserting reading, rfl⟩
    · rcases row_proceed all found with old | ⟨inserting, -⟩
      · exact .inr old
      · exact absurd inserting reading
    · rcases row_proceed all found with ⟨old, held, -⟩ | ⟨inserting, -⟩
      · exact issued id old held
      · exact absurd inserting reading

/-- The database with one secret written over. -/
def Shared.stored (shared : Shared) (walletId : String) (wallet : Wallets.Wallet) (encryptedSecret : List Char) :
    Shared :=
  let updated := { wallet with encryptedSecret := some (String.ofList encryptedSecret) }
  { shared with db := { shared.db with wallets := shared.db.wallets.insert walletId updated } }

theorem storeSecret_ok {walletId : String} {encryptedSecret : List Char}
    (done : storeSecret shared walletId encryptedSecret = .ok after) : ∃ wallet,
      shared.db.wallets.lookup walletId = some wallet ∧ after = shared.stored walletId wallet encryptedSecret := by
  unfold storeSecret at done
  split at done
  · cases done
  · rename_i wallet found
    cases done
    exact ⟨wallet, found, rfl⟩

/-- A secret that is stored is one that the wallet can come to have, and only this wallet gets it. -/
theorem storeSecret_onward {walletId : String} {encryptedSecret : List Char} (issued : Issued shared)
    (done : storeSecret shared walletId encryptedSecret = .ok after)
    (fits : ∀ wallet, shared.db.wallets.lookup walletId = some wallet → walletId ∈ shared.erased ∨
      Later crypto encryptionKey wallet { wallet with encryptedSecret := some (String.ofList encryptedSecret) }) :
    Onward crypto encryptionKey shared after ∧ Issued after ∧ after.erased = shared.erased ∧
      ∀ other holds, other ≠ walletId → Keeps shared other holds → Keeps after other holds := by
  obtain ⟨wallet, found, rfl⟩ := storeSecret_ok done
  refine ⟨⟨fun _ => id, fun _ => id, fun id known later held => ?_⟩, fun id later held => ?_, rfl,
    fun other holds ne keeps => ⟨keeps.1, fun later held => ?_⟩⟩
  · rcases lookup_insert_some.mp held with ⟨rfl, rfl⟩ | ⟨-, same⟩
    · exact (fits wallet found).imp_right fun change => ⟨wallet, found, change⟩
    · exact .inr ⟨later, same, .refl later⟩
  · rcases lookup_insert_some.mp held with ⟨rfl, -⟩ | ⟨-, same⟩
    · exact issued id wallet found
    · exact issued id later same
  · rcases lookup_insert_some.mp held with ⟨same, -⟩ | ⟨-, same⟩
    · exact absurd same ne
    · exact keeps.2 later same

theorem moveWallets_rows {pseudonymousUserId : String} {wallets moved : Store String Wallets.Wallet}
    {listed : List (String × String)} (done : Erasure.moveWallets pseudonymousUserId wallets listed = .ok moved) :
    (∀ walletId ∈ listed.map (·.1), (wallets.lookup walletId).isSome) ∧
      ∀ walletId later, moved.lookup walletId = some later →
        (walletId ∉ listed.map (·.1) ∧ wallets.lookup walletId = some later) ∨
          ∃ secret, (walletId, secret) ∈ listed ∧ later.encryptedSecret = some ("ERASED:" ++ secret) := by
  induction listed generalizing wallets with
  | nil =>
    cases done
    exact ⟨by simp, fun walletId later found => .inl ⟨by simp, found⟩⟩
  | cons entry rest ih =>
    obtain ⟨first, secret⟩ := entry
    simp only [Erasure.moveWallets, bind_ok] at done
    obtain ⟨middle, one, done⟩ := done
    obtain ⟨wallet, held, rfl⟩ := Erasure.moveWallet_ok one
    obtain ⟨present, rows⟩ := ih done
    refine ⟨fun walletId member => ?_, fun walletId later found => ?_⟩
    · by_cases same : walletId = first
      · rw [same, held]
        rfl
      · have later := present walletId (by simpa [same] using member)
        rwa [AList.lookup_insert_ne same] at later
    · rcases rows walletId later found with ⟨absent, same⟩ | ⟨secret', member, mark⟩
      · rcases lookup_insert_some.mp same with ⟨rfl, rfl⟩ | ⟨ne, old⟩
        · exact .inr ⟨secret, List.mem_cons_self, rfl⟩
        · exact .inl ⟨by simpa [ne] using absent, old⟩
      · exact .inr ⟨secret', List.mem_cons_of_mem _ member, mark⟩

/-- An erasure marks the wallets that it moves, and leaves those of others. -/
theorem act_ok (issued : Issued shared) (erase : Erase) :
    Untouched shared (act shared erase) ∧ Issued (act shared erase) ∧
      ∀ id ∈ (act shared erase).erased, id ∈ shared.erased ∨ id ∈ erase.wallets.map (·.1) ∧ id ∈ shared.issued ∧
        ∀ wallet, (act shared erase).db.wallets.lookup id = some wallet → Marked wallet := by
  unfold act
  split
  · exact ⟨.refl shared, issued, fun id gone => .inl gone⟩
  · rename_i wallets done
    have ids : (erase.wallets.map fun wallet => (wallet.1, String.ofList (toHex wallet.2))).map (·.1) =
        erase.wallets.map (·.1) := by simp
    obtain ⟨present, moved⟩ := moveWallets_rows done
    rw [ids] at present
    have known (walletId : String) (member : walletId ∈ erase.wallets.map (·.1)) : walletId ∈ shared.issued := by
      obtain ⟨old, held⟩ := Option.isSome_iff_exists.mp (present walletId member)
      exact issued walletId old held
    have rows {walletId : String} {later : Wallets.Wallet}
        (found : (filterValues wallets fun _ wallet => wallet.userId ≠ erase.userId).lookup walletId = some later) :
        (walletId ∉ erase.wallets.map (·.1) ∧ shared.db.wallets.lookup walletId = some later) ∨
          walletId ∈ erase.wallets.map (·.1) ∧ Marked later := by
      rw [lookup_filterValues, Option.filter_eq_some_iff] at found
      rcases moved walletId later found.1 with ⟨absent, same⟩ | ⟨secret, member, mark⟩
      · exact .inl ⟨ids ▸ absent, same⟩
      · obtain ⟨entry, listed, same⟩ := List.mem_map.mp member
        cases same
        exact .inr ⟨List.mem_map_of_mem listed, entry.2, mark⟩
    refine ⟨⟨fun _ => id, fun id gone => List.mem_append_right _ gone, fun id known later found => ?_⟩,
      fun id wallet found => ?_, fun id gone => ?_⟩
    · rcases rows found with ⟨-, same⟩ | ⟨member, mark⟩
      · exact .inr ⟨later, same, rfl, rfl⟩
      · exact .inl ⟨List.mem_append_left _ member, mark⟩
    · rcases rows found with ⟨-, same⟩ | ⟨member, -⟩
      · exact issued id wallet same
      · exact known id member
    · rcases List.mem_append.mp gone with member | before
      · refine .inr ⟨member, known id member, fun wallet found => ?_⟩
        rcases rows found with ⟨absent, -⟩ | ⟨-, mark⟩
        · exact absurd member absent
        · exact mark
      · exact .inl before

end Statements

end AfroPay.WalletSecrets
