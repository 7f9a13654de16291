import AfroPay.SecretMigration

/-! The mark of an erasure is read as the older form, so that no script gets past it, and it is
the last thing that a wallet has for a secret unless a write was on its way. -/
namespace AfroPay.WalletSecrets
open Base64 IntegerText Interleaving JoinedText KeyedStore LossyText Panics Runs WebText

variable {crypto : Crypto} {encryptionKey : Option (List Char)} {data text : List Char} {userId : String} {iv : Iv}

section Erasures
variable {shared after : Shared} {sys : State} {call next : Call} {outside : Outside}

/-- The call is to write a secret of the wallet. -/
def Touches (walletId : String) : Call → Prop
  | .funding _ id | .storing _ id => id = walletId
  | .rewriting _ ahead => walletId ∈ ahead.map (·.1)
  | _ => False

/-- No erasure comes while a call is to write a secret of a wallet that it moves. -/
def Undisturbed (sys : State) : Step → Prop
  | .act erase => ∀ id call, sys.calls.lookup id = some call → ∀ wallet ∈ erase.wallets, ¬ Touches wallet.1 call
  | _ => True

/-- Wallets that were erased have the mark. -/
def Erased (shared : Shared) : Prop := ∀ id ∈ shared.erased, id ∈ shared.issued ∧
  ∀ wallet, shared.db.wallets.lookup id = some wallet → Marked wallet

/-- The call is to write over no mark. -/
def Harmless (shared : Shared) : Call → Prop
  | .funding _ walletId | .storing _ walletId => walletId ∈ shared.issued ∧ walletId ∉ shared.erased
  | .rewriting _ ahead => ∀ row ∈ ahead, row.1 ∈ shared.issued ∧ (row.1 ∈ shared.erased → Marked row.2)
  | .creating _ phase => Creates phase
  | _ => True

theorem Erased.untouched (all : Erased shared) (untouched : Untouched shared after)
    (new : ∀ id ∈ after.erased, id ∈ shared.erased ∨ id ∈ shared.issued ∧
      ∀ wallet, after.db.wallets.lookup id = some wallet → Marked wallet) : Erased after := by
  intro id gone
  rcases new id gone with before | ⟨known, marked⟩
  · obtain ⟨known, marked⟩ := all id before
    refine ⟨untouched.issued id known, fun later found => ?_⟩
    rcases untouched.rows id known later found with ⟨-, mark⟩ | ⟨wallet, held, -, secret⟩
    · exact mark
    · obtain ⟨random, mark⟩ := marked wallet held
      exact ⟨random, secret.trans mark⟩
  · exact ⟨untouched.issued id known, marked⟩

theorem Harmless.onward (harmless : Harmless shared call) (issued : ∀ id ∈ shared.issued, id ∈ after.issued)
    (new : ∀ id ∈ after.erased, id ∈ shared.erased ∨ ¬ Touches id call) : Harmless after call := by
  cases call with
  | funding key walletId =>
    exact ⟨issued walletId harmless.1, fun gone => (new walletId gone).elim harmless.2 fun apart => apart rfl⟩
  | storing key walletId =>
    exact ⟨issued walletId harmless.1, fun gone => (new walletId gone).elim harmless.2 fun apart => apart rfl⟩
  | rewriting behind ahead =>
    refine fun row member => ⟨issued row.1 (harmless row member).1, fun gone => ?_⟩
    refine (new row.1 gone).elim (harmless row member).2 fun apart => ?_
    exact absurd (List.mem_map_of_mem member) apart
  | _ => exact harmless

/-- A secret is stored in a wallet that was not erased. -/
theorem storeSecret_erased {walletId : String} {encryptedSecret : List Char} (all : Erased shared)
    (kept : walletId ∉ shared.erased) (done : storeSecret shared walletId encryptedSecret = .ok after) :
    Erased after := by
  obtain ⟨wallet, found, rfl⟩ := storeSecret_ok done
  intro id gone
  refine ⟨(all id gone).1, fun later held => ?_⟩
  rcases lookup_insert_some.mp held with ⟨rfl, -⟩ | ⟨-, same⟩
  · exact absurd gone kept
  · exact (all id gone).2 later same

theorem storeSecret_issued {walletId : String} {encryptedSecret : List Char} (issued : Issued shared)
    (done : storeSecret shared walletId encryptedSecret = .ok after) :
    Issued after ∧ after.issued = shared.issued ∧ after.erased = shared.erased := by
  obtain ⟨wallet, found, rfl⟩ := storeSecret_ok done
  refine ⟨fun id later held => ?_, rfl, rfl⟩
  rcases lookup_insert_some.mp held with ⟨rfl, -⟩ | ⟨-, same⟩
  · exact issued id wallet found
  · exact issued id later same

/-- What a statement leaves of the marks. -/
structure Spared (shared after : Shared) (next : Call) : Prop where
  issued : Issued after
  known : ∀ id ∈ shared.issued, id ∈ after.issued
  erased : after.erased = shared.erased
  marks : Erased after
  harmless : Harmless after next

theorem spared_reads (issued : Issued shared) (all : Erased shared) (harmless : Harmless shared next) :
    Spared shared shared next := ⟨issued, fun _ => id, rfl, all, harmless⟩

theorem spared_statement {phase nextPhase : Wallets.Phase} {outside : Wallets.Outside} (issued : Issued shared)
    (all : Erased shared) (done : walletStatement userId shared phase outside = some (after, nextPhase))
    (harmless : Harmless after next) : Spared shared after next := by
  obtain ⟨untouched, erased, issuedAfter, -⟩ := walletStatement_ok issued done
  refine ⟨issuedAfter, untouched.issued, erased, all.untouched untouched fun id gone => .inl ?_, harmless⟩
  rwa [erased] at gone

theorem harmless_creating {key : Import} {phase nextPhase : Wallets.Phase} {outside : Wallets.Outside}
    (issued : Issued shared) (all : Erased shared) (creates : Creates phase)
    (done : walletStatement key.userId shared phase outside = some (after, nextPhase)) :
    Harmless after (createNext key outside.walletId nextPhase) := by
  obtain ⟨-, erased, -, inserted, rfl⟩ := walletStatement_ok issued done
  rcases creates_proceed creates outside with ⟨exception, same⟩ | creating | ⟨inserting, wallet, same⟩
  · rw [same]
    trivial
  · rw [createNext_creates creating]
    exact creating
  · rw [same]
    obtain ⟨new, known, -⟩ := inserted inserting
    refine ⟨known, fun gone => new ?_⟩
    rw [erased] at gone
    exact (all _ gone).1

/-- The script stops at a mark, and writes over no other erased wallet. -/
theorem spared_rewriteNext {behind rest : List Listed} {row : Listed} (checks : crypto.ChecksIv) (issued : Issued shared)
    (all : Erased shared) (harmless : Harmless shared (.rewriting behind (row :: rest))) :
    Spared shared (rewriteNext crypto encryptionKey shared behind row rest iv).1
      (rewriteNext crypto encryptionKey shared behind row rest iv).2 := by
  have others : Harmless shared (.rewriting (behind ++ [row]) rest) :=
    fun other member => harmless other (List.mem_cons_of_mem _ member)
  unfold rewriteNext
  split
  · exact spared_reads issued all trivial
  · exact spared_reads issued all others
  · rename_i encryptedSecret written
    split
    · rename_i after done
      obtain ⟨issuedAfter, sameIssued, sameErased⟩ := storeSecret_issued issued done
      have kept : row.1 ∉ shared.erased := by
        intro gone
        obtain ⟨random, mark⟩ := (harmless row List.mem_cons_self).2 gone
        obtain ⟨data, read, held, opened, -⟩ := rewrite_ok written
        rw [mark] at held
        cases held
        obtain ⟨failure, refused⟩ := decryptLegacy_erased checks random
        rw [opened] at refused
        cases refused
      have known (id : String) (member : id ∈ shared.issued) : id ∈ after.issued := sameIssued ▸ member
      exact ⟨issuedAfter, known, sameErased, storeSecret_erased all kept done,
        others.onward known fun id gone => .inl (sameErased ▸ gone)⟩
    · exact spared_reads issued all trivial

theorem spared (checks : crypto.ChecksIv) (issued : Issued shared) (all : Erased shared)
    (harmless : Harmless shared call) (outside : Outside) :
    Spared shared (proceed crypto encryptionKey shared call outside).1
      (proceed crypto encryptionKey shared call outside).2 := by
  cases call with
  | wallet userId phase =>
    simp only [proceed]
    split
    · exact spared_statement issued all ‹_› trivial
    · exact spared_reads issued all trivial
  | creating key phase =>
    simp only [proceed]
    split
    · exact spared_statement issued all ‹_› (harmless_creating issued all harmless ‹_›)
    · exact spared_reads issued all harmless
  | funding key walletId =>
    simp only [proceed]
    split
    · exact spared_reads issued all harmless
    · exact spared_reads issued all trivial
  | storing key walletId =>
    simp only [proceed]
    split
    · rename_i after done
      obtain ⟨issuedAfter, sameIssued, sameErased⟩ := storeSecret_issued issued done
      have known (id : String) (member : id ∈ shared.issued) : id ∈ after.issued := sameIssued ▸ member
      exact ⟨issuedAfter, known, sameErased, storeSecret_erased all harmless.2 done, trivial⟩
    · exact spared_reads issued all trivial
  | exporting => exact spared_reads issued all trivial
  | listing =>
    refine spared_reads issued all fun row member => ?_
    rw [(outside.order _).property.mem_iff] at member
    obtain ⟨entry, listed, rfl⟩ := List.mem_map.mp member
    have found := AList.mem_lookup_iff.mpr listed
    exact ⟨issued _ _ found, fun gone => (all _ gone).2 _ found⟩
  | rewriting behind ahead =>
    cases ahead with
    | nil => exact spared_reads issued all trivial
    | cons row rest => exact spared_rewriteNext checks issued all harmless
  | imported | refused | exported | migrated => exact spared_reads issued all harmless

theorem Begun.harmless (begun : Begun crypto encryptionKey call) : Harmless shared call := by
  cases begun <;> trivial

/-- The invariant of a run in which erasures are undisturbed. -/
structure Final (sys : State) : Prop where
  issued : Issued sys.shared
  marks : Erased sys.shared
  each : Each Harmless sys

theorem final_step (checks : crypto.ChecksIv) (final : Final sys) {event : Step} (undisturbed : Undisturbed sys event) :
    Final (step (service crypto encryptionKey) sys event) := by
  have all := steps (service crypto encryptionKey) sys event
  generalize step (service crypto encryptionKey) sys event = next at all
  cases all with
  | idle => exact final
  | begins id request free =>
    refine ⟨final.issued, final.marks, fun other call found => ?_⟩
    rcases lookup_insert_some.mp found with ⟨-, rfl⟩ | ⟨-, old⟩
    · exact Begun.harmless (begun request)
    · exact final.each other call old
  | advances id outside call held =>
    have spares : Spared sys.shared (proceed crypto encryptionKey sys.shared call outside).1
        (proceed crypto encryptionKey sys.shared call outside).2 :=
      spared checks final.issued final.marks (final.each id call held) outside
    refine ⟨spares.issued, spares.marks, fun other call' found => ?_⟩
    rcases lookup_insert_some.mp found with ⟨-, rfl⟩ | ⟨-, old⟩
    · exact spares.harmless
    · exact (final.each other call' old).onward spares.known fun id gone => .inl (spares.erased ▸ gone)
  | acts erase =>
    obtain ⟨untouched, issued, new⟩ := act_ok final.issued erase
    refine ⟨issued, final.marks.untouched untouched fun id gone => (new id gone).imp_right And.right, ?_⟩
    intro id call held
    refine (final.each id call held).onward untouched.issued fun walletId gone => (new walletId gone).imp_right ?_
    rintro ⟨member, -⟩
    obtain ⟨wallet, listed, rfl⟩ := List.mem_map.mp member
    exact undisturbed id call held wallet listed

/-- A write that was on its way brings the secret back, for the owner that the row names. -/
theorem rewriteNext_restores {behind rest : List Listed} {row : Listed} {wallet : Wallets.Wallet}
    {encryptedSecret : List Char} (opens : crypto.Opens)
    (written : rewrite crypto encryptionKey row iv = .ok (some encryptedSecret))
    (found : shared.db.wallets.lookup row.1 = some wallet) :
    (rewriteNext crypto encryptionKey shared behind row rest iv).1 = shared.stored row.1 wallet encryptedSecret ∧
      ∃ data, row.2.encryptedSecret = some data ∧ decrypt crypto encryptionKey encryptedSecret row.2.userId =
        decrypt crypto encryptionKey data.toList row.2.userId := by
  obtain ⟨data, _, held, read, ⟨none, -⟩ | ⟨text, _, rfl, same, sealed⟩⟩ := rewrite_ok written
  · cases none
  cases same
  refine ⟨?_, data, held, ?_⟩
  · simp only [rewriteNext, written, storeSecret, found]
    rfl
  · rw [decrypt_encrypt opens sealed, (decryptLegacy_some read).2]

/-- An erased wallet that is still there has nothing but the mark, and no one can have a secret
of it, as long as no erasure comes while an import or a script is to write in a wallet that it
moves: that write would bring the secret back. -/
theorem erasure_final (checks : crypto.ChecksIv) (db : Wallets.Database) {events : List Step}
    (undisturbed : Throughout (step (service crypto encryptionKey)) Undisturbed (System.fresh (.found db)) events)
    {walletId : String}
    (gone : walletId ∈ (reached crypto encryptionKey db events).shared.erased) :
    (∀ wallet, (reached crypto encryptionKey db events).shared.db.wallets.lookup walletId = some wallet →
        Marked wallet) ∧
      ∀ userId given first secret, exportWallet crypto encryptionKey userId
        (reached crypto encryptionKey db events).shared.db given first ≠ .ok (walletId, secret) := by
  have initial : Final (System.fresh (.found db)) := by
    refine ⟨issued_found db, ?_, each_fresh _ _⟩
    intro id gone
    cases gone
  have final := run_invariant_of Final (fun _ _ held meets => final_step checks held meets) initial undisturbed
  have marked := (final.marks walletId gone).2
  refine ⟨marked, fun userId given first secret shown => ?_⟩
  obtain ⟨wallet, found, -, data, held, opened⟩ := exportWallet_ok shown
  obtain ⟨random, mark⟩ := marked wallet found
  rw [held] at mark
  cases mark
  obtain ⟨failure, refused⟩ := decrypt_erased checks random userId
  rw [opened] at refused
  cases refused

/-- The user's wallet is erased. -/
def nodeErase : Erase := ⟨"user_1", "user_2", [("w1", List.replicate 32 7)]⟩

theorem node_erased : "w1" ∈ (reached nodeCrypto nodeKey (nodeDatabase nodeLegacy) [.act nodeErase]).shared.erased := by
  have found : (nodeDatabase nodeLegacy).wallets.lookup "w1" = some (nodeWallet nodeLegacy) := AList.lookup_insert _
  have free : ¬ ((nodeWallet nodeLegacy).walletAlias.isSome ∧ (nodeDatabase nodeLegacy).wallets.entries.any (fun entry =>
      entry.1 ≠ "w1" && entry.2.userId = "user_2" && entry.2.walletAlias = (nodeWallet nodeLegacy).walletAlias)) :=
    fun named => (nomatch named.1)
  have moved : Erasure.moveWallets "user_2" (nodeDatabase nodeLegacy).wallets
      [("w1", String.ofList (toHex (List.replicate 32 7)))] = .ok ((nodeDatabase nodeLegacy).wallets.insert "w1"
        (Erasure.erasedWallet "user_2" (String.ofList (toHex (List.replicate 32 7))) (nodeWallet nodeLegacy))) := by
    simp only [Erasure.moveWallets, Erasure.moveWallet, found, if_neg free, bind, Except.bind]
  have acts : (act (.found (nodeDatabase nodeLegacy)) nodeErase).erased = ["w1"] := by
    simp only [act, nodeErase, Shared.found, List.map_cons, List.map_nil, moved]
    rfl
  exact acts ▸ List.mem_singleton.mpr rfl

theorem erasure_final_one :
    (∀ wallet, (reached nodeCrypto nodeKey (nodeDatabase nodeLegacy) [.act nodeErase]).shared.db.wallets.lookup "w1" =
        some wallet → Marked wallet) ∧
      ∀ userId given first secret, exportWallet nodeCrypto nodeKey userId
        (reached nodeCrypto nodeKey (nodeDatabase nodeLegacy) [.act nodeErase]).shared.db given first ≠
          .ok ("w1", secret) :=
  have undisturbed : Throughout (step (service nodeCrypto nodeKey)) Undisturbed
      (System.fresh (.found (nodeDatabase nodeLegacy))) [.act nodeErase] := ⟨fun _ _ held => (nomatch held), trivial⟩
  erasure_final nodeCrypto_checksIv (nodeDatabase nodeLegacy) undisturbed node_erased

end Erasures

end AfroPay.WalletSecrets
