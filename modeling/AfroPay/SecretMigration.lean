import AfroPay.SecretSteps

/-! What becomes of the secrets over whole runs of the wallet service, the rewriting script and
erasures. A secret that a wallet shows is the one it shows later, in whichever form, and a script
that comes to its end has left nothing in the older form. -/
namespace AfroPay.WalletSecrets
open Base64 IntegerText Interleaving JoinedText KeyedStore LossyText Panics Runs WebText

variable {crypto : Crypto} {encryptionKey : Option (List Char)} {data text : List Char} {userId : String} {iv : Iv}

section Node

/-- A secret, and what Node makes of it under one setting for one user. -/
def nodeSecret : List Char := 'S' :: "A2YNBQZ6FJ6OKMOQHZ2BUZBS5ERLSOXFPUCXJ66ASOLFSLG57YPOOHH".toList

def nodeMaster : Bytes := (List.range 32).map UInt8.ofNat

/-- The setting. -/
def nodeKey : Option (List Char) := some (toHex nodeMaster)

def nodeDerived : Bytes := fromHex "b18b30b793b2ae7d274848de4bd8456fdc119e29a08a85ba799a2926f0dc6a21".toList

def nodeCbcIv : Bytes := (List.range 16).reverse.map UInt8.ofNat

def nodeCbcText : Bytes :=
  fromHex ("f62f88ffcef1ab79e4c739abfe7ddb58a531bc11a0b8038d7559d3c7031390a7" ++
    "f289f8577707c92e7692725513ecec3774b56e9f3d8077be083db806a3e11658").toList

def nodeIv : Iv := ⟨(List.range 12).map fun n => UInt8.ofNat (n + 160), by simp⟩

def nodeTag : Bytes :=
  [0x58, 0x5a, 0x14, 0xa1, 0x3f, 0xfd, 0x7f, 0xc5, 0x4f, 0x93, 0x32, 0xe1, 0xe6, 0xc2, 0x38, 0x36]

def nodeText : Bytes :=
  fromHex ("799c75f42d4c1e5018a68428fddf60f4ae8cab1b5f1f7dab220752a80e051e35" ++
    "920a8d6c548adabd20d4c77f3e26e2e176ffed32eaf6314b").toList

/-- Node's answers for them. -/
def nodeCrypto : Crypto where
  hkdf key info := if key = nodeMaster ∧ info = utf8 "user_1".toList then nodeDerived else []
  gcmSeal key iv text :=
    if key = nodeDerived ∧ iv = nodeIv.val ∧ text = utf8 nodeSecret then (nodeText, nodeTag)
    else (text, List.replicate 16 0)
  gcmStart _ _ _ := .ok ()
  gcmOpen key iv authTag ciphertext :=
    if key = nodeDerived ∧ iv = nodeIv.val ∧ authTag = nodeTag ∧ ciphertext = nodeText then some (utf8 nodeSecret)
    else if authTag = List.replicate 16 0 then some ciphertext
    else none
  cbcStart key iv :=
    if iv.length ≠ 16 then .error "Invalid initialization vector"
    else if key.length ≠ 32 then .error "Invalid key length"
    else .ok ()
  cbcOpen key iv ciphertext :=
    if key = nodeMaster ∧ iv = nodeCbcIv ∧ ciphertext = nodeCbcText then .ok (utf8 nodeSecret)
    else .error "bad decrypt"
  fromSecret secretKey :=
    if secretKey = nodeSecret then .ok "GBZDVZMN65YLWARGZ5Y4DBWECYJBWHKEBSNZUMPKKTKOP3OWSYVD23BQ"
    else .error "invalid encoded string"

theorem nodeTag_ne : List.replicate 16 0 ≠ nodeTag := by
  intro same
  cases (List.cons.inj same).1

theorem nodeCrypto_opens : nodeCrypto.Opens := by
  intro masterKey info text iv
  refine ⟨rfl, ?_⟩
  simp only [nodeCrypto]
  generalize (if masterKey = nodeMaster ∧ info = utf8 "user_1".toList then nodeDerived else []) = key
  by_cases listed : key = nodeDerived ∧ iv.val = nodeIv.val ∧ text = utf8 nodeSecret
  · rw [if_pos listed]
    simp [listed]
  · rw [if_neg listed, if_neg fun same => nodeTag_ne same.2.2.1, if_pos rfl]

theorem nodeCrypto_checksIv : nodeCrypto.ChecksIv :=
  fun _ _ wrong => ⟨"Invalid initialization vector", if_pos wrong⟩

/-- The two forms of the secret. -/
def nodeLegacy : List Char := [':'].intercalate [toHex nodeCbcIv, toHex nodeCbcText]

def nodeSealed : List Char := [':'].intercalate [toHex nodeIv.val, toHex nodeTag, toHex nodeText]

theorem getMasterKey_node : getMasterKey nodeKey = .ok nodeMaster := by
  have full : toHex nodeMaster = '0' :: '0' :: toHex ((List.range 31).map fun n => UInt8.ofNat (n + 1)) := rfl
  rw [nodeKey, full, getMasterKey, ← full, fromHex_toHex]
  simp

theorem node_read : decryptLegacyWalletSecret nodeCrypto nodeKey nodeLegacy = .ok (some nodeSecret) := by
  have starts : nodeCrypto.cbcStart nodeMaster nodeCbcIv = .ok () := rfl
  have opened : nodeCrypto.cbcOpen nodeMaster nodeCbcIv nodeCbcText = .ok (utf8 nodeSecret) := by
    simp only [nodeCrypto, and_self, ↓reduceIte]
  exact decryptLegacy_of_opens getMasterKey_node starts opened

theorem node_sealed : encrypt nodeCrypto nodeKey nodeSecret "user_1" nodeIv = .ok nodeSealed := by
  have derived : deriveUserKey nodeCrypto nodeKey "user_1" = .ok nodeDerived := by
    simp only [deriveUserKey, getMasterKey_node, bind, Except.bind]
    simp only [nodeCrypto, and_self, ↓reduceIte]
    rfl
  have sealed : nodeCrypto.gcmSeal nodeDerived nodeIv (utf8 nodeSecret) = (nodeText, nodeTag) := by
    simp only [nodeCrypto, and_self, ↓reduceIte]
  exact encrypt_ok.mpr ⟨nodeDerived, derived, by rw [sealed, nodeSealed]⟩

/-- A wallet with the older form. -/
def nodeWallet (data : List Char) : Wallets.Wallet :=
  { Wallets.newWallet "user_1" "GBZDVZMN65YLWARGZ5Y4DBWECYJBWHKEBSNZUMPKKTKOP3OWSYVD23BQ" none true with
    encryptedSecret := some (String.ofList data) }

def nodeDatabase (data : List Char) : Wallets.Database :=
  ⟨(∅ : Store String Wallets.Wallet).insert "w1" (nodeWallet data), []⟩

def nodeOutside : Outside := ⟨⟨"w1", true⟩, true, nodeIv, fun rows => ⟨rows, .refl rows⟩⟩

/-- The script begins; it lists; it rewrites and ends. -/
def nodeBefore : List Step := [.call 0 .migrateEncryption]

def nodeAfter : List Step := [.advance 0 nodeOutside, .advance 0 nodeOutside]

def nodeMigration : List Step := nodeBefore ++ .advance 0 nodeOutside :: nodeAfter

theorem node_rewrite : rewrite nodeCrypto nodeKey ("w1", nodeWallet nodeLegacy) nodeIv =
    .ok (some nodeSealed) := by
  refine rewrite_of_read rfl ?_ (List.cons_ne_nil _ _) node_sealed
  rw [String.toList_ofList]
  exact node_read

/-- The wallet's database before and after. -/
def nodeShared (data : List Char) : Shared := ⟨nodeDatabase data, ["w1"], []⟩

theorem node_stores : storeSecret (nodeShared nodeLegacy) "w1" nodeSealed = .ok (nodeShared nodeSealed) := by
  simp only [storeSecret, nodeShared, nodeDatabase, AList.lookup_insert, AList.insert_insert, nodeWallet]

theorem node_rewrites (calls : Store Nat Call)
    (found : calls.lookup 0 = some (.rewriting [] [("w1", nodeWallet nodeLegacy)])) :
    step (service nodeCrypto nodeKey) ⟨nodeShared nodeLegacy, calls⟩ (.advance 0 nodeOutside) =
      ⟨nodeShared nodeSealed, calls.insert 0 (.rewriting [("w1", nodeWallet nodeLegacy)] [])⟩ := by
  have written : rewrite nodeCrypto nodeKey ("w1", nodeWallet nodeLegacy) nodeOutside.iv = .ok (some nodeSealed) :=
    node_rewrite
  have writes := @proceed_stored nodeCrypto nodeKey (nodeShared nodeLegacy) (nodeShared nodeSealed) nodeOutside []
    [] ("w1", nodeWallet nodeLegacy) nodeSealed written node_stores
  rw [step_advance found]
  simp only [service, writes, List.nil_append]

theorem node_migrated :
    reached nodeCrypto nodeKey (nodeDatabase nodeLegacy) nodeMigration = ⟨nodeShared nodeSealed,
        (∅ : Store Nat Call).insert 0 (.migrated [("w1", nodeWallet nodeLegacy)] (.ok 1))⟩ := by
  have listed : step (service nodeCrypto nodeKey) (reached nodeCrypto nodeKey (nodeDatabase nodeLegacy) nodeBefore)
      (.advance 0 nodeOutside) =
        ⟨nodeShared nodeLegacy, (∅ : Store Nat Call).insert 0 (.rewriting [] [("w1", nodeWallet nodeLegacy)])⟩ := rfl
  rw [nodeMigration, reached_append, run_cons, listed, nodeAfter, run_cons, node_rewrites _ (AList.lookup_insert _),
    run_cons, run_nil, step_advance (AList.lookup_insert _), AList.insert_insert, AList.insert_insert]
  rfl

theorem node_held {events : List Step} (same : events = nodeMigration) :
    (reached nodeCrypto nodeKey (nodeDatabase nodeLegacy) events).shared.db.wallets.lookup "w1" =
        some (nodeWallet nodeSealed) ∧
      (reached nodeCrypto nodeKey (nodeDatabase nodeLegacy) events).calls.lookup 0 =
        some (.migrated [("w1", nodeWallet nodeLegacy)] (.ok 1)) := by
  rw [same, node_migrated]
  exact ⟨AList.lookup_insert _, AList.lookup_insert _⟩

theorem node_shows : Shows nodeCrypto nodeKey "user_1" nodeSecret (nodeWallet nodeLegacy) := by
  refine ⟨rfl, _, rfl, ?_⟩
  rw [String.toList_ofList]
  exact (decryptLegacy_some node_read).2 "user_1"

end Node

section Survival
variable {sys : State}

theorem onward_step (opens : crypto.Opens) (sound : Sound crypto encryptionKey sys) (event : Step) :
    Onward crypto encryptionKey sys.shared (step (service crypto encryptionKey) sys event).shared := by
  have all := steps (service crypto encryptionKey) sys event
  generalize step (service crypto encryptionKey) sys event = next at all
  cases all with
  | idle => exact .refl _
  | begins => exact .refl _
  | advances id outside call found => exact (advanced opens sound.issued (sound.each id call found) outside).onward
  | acts erase => exact (act_ok sound.issued erase).1.onward

/-- What a wallet keeps it keeps to the end of a run. -/
theorem Keeps.run {walletId : String} {holds : Wallets.Wallet → Prop} (opens : crypto.Opens)
    (closed : ∀ wallet later, holds wallet → Later crypto encryptionKey wallet later → holds later)
    (sound : Sound crypto encryptionKey sys) (keeps : Keeps sys.shared walletId holds) (events : List Step) :
    Keeps (Runs.run (step (service crypto encryptionKey)) sys events).shared walletId holds := by
  refine (run_invariant (fun reached : State => Sound crypto encryptionKey reached ∧ Keeps reached.shared walletId holds)
    (fun reached event held => ?_) ⟨sound, keeps⟩ events).2
  exact ⟨sound_step opens held.1 event, held.2.onward closed (onward_step opens held.1 event)⟩

/-- Whatever is imported, exported, rewritten or erased meanwhile: a secret that a wallet shows
once it shows for as long as it is there and not erased. -/
theorem secret_survives (opens : crypto.Opens) (db : Wallets.Database) (before after : List Step) {walletId : String}
    {secret : List Char} {wallet later : Wallets.Wallet}
    (found : (reached crypto encryptionKey db before).shared.db.wallets.lookup walletId = some wallet)
    (shows : Shows crypto encryptionKey userId secret wallet)
    (held : (reached crypto encryptionKey db (before ++ after)).shared.db.wallets.lookup walletId = some later) :
    walletId ∈ (reached crypto encryptionKey db (before ++ after)).shared.erased ∨
      Shows crypto encryptionKey userId secret later := by
  have sound : Sound crypto encryptionKey _ := sound_run opens db before
  rw [reached_append] at held ⊢
  have keeps : Keeps _ walletId (Shows crypto encryptionKey userId secret) :=
    ⟨sound.issued walletId wallet found, fun other same => .inr (by rw [found] at same; cases same; exact shows)⟩
  exact (keeps.run opens (Shows.kept opens) sound after).2 later held

/-- A secret in the older form is shown after the script has rewritten it. -/
theorem secret_survives_migration :
    "w1" ∈ (reached nodeCrypto nodeKey (nodeDatabase nodeLegacy) ([] ++ nodeMigration : List Step)).shared.erased ∨
      Shows nodeCrypto nodeKey "user_1" nodeSecret (nodeWallet nodeSealed) :=
  secret_survives nodeCrypto_opens (nodeDatabase nodeLegacy) [] nodeMigration (AList.lookup_insert _) node_shows
    (node_held (List.nil_append _)).1

/-- Imports that are done and exports that returned a secret tell one owner and one secret of a
wallet that is not erased, and the wallet shows them. -/
theorem tellings_agree (opens : crypto.Opens) (db : Wallets.Database) (events : List Step) {id : Nat} {call : Call}
    {walletId userId : String} {secret : List Char}
    (held : (reached crypto encryptionKey db events).calls.lookup id = some call)
    (told : call.tells = some (walletId, userId, secret))
    (kept : walletId ∉ (reached crypto encryptionKey db events).shared.erased) :
    (∀ wallet, (reached crypto encryptionKey db events).shared.db.wallets.lookup walletId = some wallet →
        Shows crypto encryptionKey userId secret wallet) ∧
      ∀ id' call' told', (reached crypto encryptionKey db events).calls.lookup id' = some call' →
        call'.tells = some (walletId, told') → told' = (userId, secret) := by
  have sound : Sound crypto encryptionKey _ := sound_run opens db events
  constructor
  · intro wallet found
    exact (((sound.each id call held).telling told).2 wallet found).resolve_left kept
  · intro id' call' told' held' tells
    exact (sound.agree id' id call' call held' held walletId told' (userId, secret) tells told).resolve_left kept

/-- Two exports, one after the other. -/
def nodeExports : List Step :=
  [.call 0 (.exportWallet "user_1" (some "w1")), .advance 0 nodeOutside, .call 1 (.exportWallet "user_1" none),
    .advance 1 nodeOutside]

theorem node_exports (walletId : Option String)
    (found : findWallet "user_1" (nodeDatabase nodeLegacy) walletId "w1" = .ok ("w1", nodeWallet nodeLegacy)) :
    exportWallet nodeCrypto nodeKey "user_1" (nodeDatabase nodeLegacy) walletId "w1" =
      .ok ("w1", nodeSecret) := by
  obtain ⟨-, data, held, opened⟩ := node_shows
  simp only [exportWallet, found, bind, Except.bind, held, opened]
  rfl

theorem node_exporting {walletId : Option String} {id : Nat} {calls : Store Nat Call}
    (held : calls.lookup id = some (.exporting "user_1" walletId))
    (found : findWallet "user_1" (nodeDatabase nodeLegacy) walletId "w1" = .ok ("w1", nodeWallet nodeLegacy)) :
    step (service nodeCrypto nodeKey) ⟨nodeShared nodeLegacy, calls⟩ (.advance id nodeOutside) =
      ⟨nodeShared nodeLegacy, calls.insert id (.exported "user_1" (.ok ("w1", nodeSecret)))⟩ := by
  have same := node_exports walletId found
  rw [step_advance held]
  simp only [service, proceed, nodeOutside, nodeShared, same]

theorem node_begins {walletId : Option String} {id : Nat} {calls : Store Nat Call} (free : calls.lookup id = none) :
    step (service nodeCrypto nodeKey) ⟨nodeShared nodeLegacy, calls⟩
      (.call id (.exportWallet "user_1" walletId)) =
        ⟨nodeShared nodeLegacy, calls.insert id (.exporting "user_1" walletId)⟩ :=
  step_call free _

theorem node_exported :
    reached nodeCrypto nodeKey (nodeDatabase nodeLegacy) nodeExports =
      ⟨nodeShared nodeLegacy, ((∅ : Store Nat Call).insert 0 (.exported "user_1" (.ok ("w1", nodeSecret)))).insert 1
        (.exported "user_1" (.ok ("w1", nodeSecret)))⟩ := by
  have first : findWallet "user_1" (nodeDatabase nodeLegacy) (some "w1") "w1" = .ok ("w1", nodeWallet nodeLegacy) := rfl
  have second : findWallet "user_1" (nodeDatabase nodeLegacy) none "w1" = .ok ("w1", nodeWallet nodeLegacy) := rfl
  have fresh : (System.fresh (.found (nodeDatabase nodeLegacy)) : State) = ⟨nodeShared nodeLegacy, ∅⟩ := rfl
  rw [nodeExports, reached, fresh, run_cons, node_begins rfl, run_cons, node_exporting (AList.lookup_insert _) first,
    AList.insert_insert, run_cons, node_begins rfl, run_cons, node_exporting (AList.lookup_insert _) second,
    AList.insert_insert, run_nil]

/-- An export by the wallet's id and one of the default wallet. -/
theorem tellings_agree_exports :
    (∀ wallet, (reached nodeCrypto nodeKey (nodeDatabase nodeLegacy) nodeExports).shared.db.wallets.lookup "w1" =
        some wallet → Shows nodeCrypto nodeKey "user_1" nodeSecret wallet) ∧
      ∀ id' call' told', (reached nodeCrypto nodeKey (nodeDatabase nodeLegacy) nodeExports).calls.lookup id' =
        some call' → call'.tells = some ("w1", told') → told' = ("user_1", nodeSecret) := by
  have held : (reached nodeCrypto nodeKey (nodeDatabase nodeLegacy) nodeExports).calls.lookup 1 =
      some (.exported "user_1" (.ok ("w1", nodeSecret))) := by
    rw [node_exported]
    exact AList.lookup_insert _
  have kept : "w1" ∉ (reached nodeCrypto nodeKey (nodeDatabase nodeLegacy) nodeExports).shared.erased := by
    rw [node_exported]
    exact List.not_mem_nil
  exact tellings_agree nodeCrypto_opens (nodeDatabase nodeLegacy) nodeExports held rfl kept

end Survival

section Script
variable {sys : State} {id : Nat} {call : Call} {listed : List Listed}

/-- The script goes through what it listed, row by row. -/
def Through (listed : List Listed) : Call → Prop
  | .rewriting behind ahead => behind ++ ahead = listed
  | .migrated behind (.ok count) => behind = listed ∧ count = listed.length
  | .migrated behind (.error _) => behind <+: listed
  | _ => False

theorem through_rewriteNext {shared : Shared} {behind rest : List Listed} {row : Listed}
    (through : behind ++ row :: rest = listed) :
    Through listed (rewriteNext crypto encryptionKey shared behind row rest iv).2 := by
  subst through
  have past : behind ++ [row] ++ rest = behind ++ row :: rest := by simp
  unfold rewriteNext
  split
  · exact List.prefix_append behind _
  · exact past
  · split
    · exact past
    · exact List.prefix_append behind _

theorem through_proceed (through : Through listed call) (shared : Shared) (outside : Outside) :
    Through listed (proceed crypto encryptionKey shared call outside).2 := by
  cases call with
  | rewriting behind ahead =>
    cases ahead with
    | nil =>
      rw [Through, List.append_nil] at through
      subst through
      exact ⟨rfl, rfl⟩
    | cons row rest => exact through_rewriteNext through
  | migrated => exact through
  | _ => exact through.elim

theorem through_step (event : Step) (through : ∃ call, sys.calls.lookup id = some call ∧ Through listed call) :
    ∃ call, (step (service crypto encryptionKey) sys event).calls.lookup id = some call ∧ Through listed call := by
  obtain ⟨call, held, through⟩ := through
  have all := steps (service crypto encryptionKey) sys event
  generalize step (service crypto encryptionKey) sys event = next at all
  cases all with
  | idle => exact ⟨call, held, through⟩
  | begins other request free =>
    have ne : id ≠ other := by
      rintro rfl
      rw [held] at free
      cases free
    exact ⟨call, by rw [AList.lookup_insert_ne ne, held], through⟩
  | advances other outside call' found =>
    by_cases same : id = other
    · subst same
      rw [held] at found
      cases found
      exact ⟨_, AList.lookup_insert _, through_proceed through sys.shared outside⟩
    · exact ⟨call, by rw [AList.lookup_insert_ne same, held], through⟩
  | acts => exact ⟨call, held, through⟩

/-- The script lists every wallet. -/
theorem listed_all (lists : sys.calls.lookup id = some .listing) (outside : Outside) :
    ∃ listed : List Listed, listed.Perm (sys.shared.db.wallets.entries.map fun entry => (entry.1, entry.2)) ∧
      (step (service crypto encryptionKey) sys (.advance id outside)).calls.lookup id = some (.rewriting [] listed) := by
  refine ⟨_, (outside.order _).property, ?_⟩
  rw [step_advance lists]
  exact AList.lookup_insert _

/-- A script that comes to its end had every wallet of its list behind it, none of them with the
mark of an erasure, and none that is not erased has a secret in the older form from then on. -/
theorem migration_settles (opens : crypto.Opens) (checks : crypto.ChecksIv) (db : Wallets.Database)
    (before after : List Step) {outside : Outside} {behind : List Listed} {count : Nat}
    (lists : (reached crypto encryptionKey db before).calls.lookup id = some .listing)
    (ends : (reached crypto encryptionKey db (before ++ .advance id outside :: after)).calls.lookup id =
      some (.migrated behind (.ok count))) :
    count = (reached crypto encryptionKey db before).shared.db.wallets.entries.length ∧
      ∀ walletId wallet, (reached crypto encryptionKey db before).shared.db.wallets.lookup walletId = some wallet →
        (∀ random, wallet.encryptedSecret ≠ some (erasedSecret random)) ∧
          ∀ later,
            (reached crypto encryptionKey db (before ++ .advance id outside :: after)).shared.db.wallets.lookup walletId =
                some later →
              walletId ∈ (reached crypto encryptionKey db (before ++ .advance id outside :: after)).shared.erased ∨
                Settled crypto encryptionKey later := by
  have sound : Sound crypto encryptionKey _ := sound_run opens db (before ++ .advance id outside :: after)
  rw [reached_append, run_cons] at ends sound ⊢
  generalize reached crypto encryptionKey db before = sys at *
  obtain ⟨listed, order, lists⟩ := listed_all lists outside
  obtain ⟨call, held, through⟩ := run_invariant (fun later : State => ∃ call, later.calls.lookup id = some call ∧
    Through listed call) (fun _ event => through_step event) ⟨_, lists, rfl⟩ after
  rw [ends] at held
  cases held
  obtain ⟨rfl, rfl⟩ := through
  refine ⟨by simp [order.length_eq], fun walletId wallet found => ?_⟩
  have member := order.mem_iff.mpr (List.mem_map.mpr ⟨⟨walletId, wallet⟩, AList.mem_lookup_iff.mp found, rfl⟩)
  obtain ⟨⟨-, settled⟩, data, read, stored, opened⟩ := sound.each id _ ends (walletId, wallet) member
  refine ⟨fun random mark => ?_, settled⟩
  rw [stored] at mark
  cases mark
  obtain ⟨failure, refused⟩ := decryptLegacy_erased checks random
  rw [opened] at refused
  cases refused

theorem migration_settles_one :
    1 = (reached nodeCrypto nodeKey (nodeDatabase nodeLegacy) nodeBefore).shared.db.wallets.entries.length ∧
      (∀ random, (nodeWallet nodeLegacy).encryptedSecret ≠ some (erasedSecret random)) ∧
      ∀ later, (reached nodeCrypto nodeKey (nodeDatabase nodeLegacy) (nodeBefore ++
          .advance 0 nodeOutside :: nodeAfter : List Step)).shared.db.wallets.lookup "w1" = some later →
        "w1" ∈ (reached nodeCrypto nodeKey (nodeDatabase nodeLegacy) (nodeBefore ++
          .advance 0 nodeOutside :: nodeAfter : List Step)).shared.erased ∨ Settled nodeCrypto nodeKey later := by
  have settles := migration_settles nodeCrypto_opens nodeCrypto_checksIv (nodeDatabase nodeLegacy) nodeBefore nodeAfter
    (AList.lookup_insert _) (node_held rfl).2
  exact ⟨settles.1, settles.2 "w1" (nodeWallet nodeLegacy) (AList.lookup_insert _)⟩

end Script

end AfroPay.WalletSecrets
