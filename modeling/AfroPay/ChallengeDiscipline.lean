import AfroPay.OneTimeTokens
import AfroPay.Panics
import AfroPay.Runs
import AfroPay.WebAuthn

/-! The challenges of the passkey service as one-time tokens: the lists of pending challenges are
a book of tokens in which every verify call that succeeds has spent one. -/
namespace AfroPay.WebAuthn
open Json KeyedStore OneTimeTokens Panics Runs WebText

inductive Ceremony where
  | registration
  | authentication
  deriving DecidableEq

/-- A challenge that was issued, or one that a verify call accepted. -/
inductive Entry where
  | issued (ceremony : Ceremony) (userId challenge : String) (time : Nat)
  | accepted (ceremony : Ceremony) (userId challenge : String) (time : Nat) (passkey : StoredPasskey)

def Entry.ceremony : Entry → Ceremony
  | .issued ceremony .. => ceremony
  | .accepted ceremony .. => ceremony

def Entry.token : Entry → OneTimeTokens.Entry String String
  | .issued _ userId challenge time => .issued challenge userId time
  | .accepted _ userId challenge time _ => .accepted challenge userId time

section Statements
variable (bufferFrom : Value → Option (List UInt8))

/-- What an event issues or accepts. -/
def record (w : World) : Event → Option Entry
  | .tick _ => none
  | .generateRegistrationOptions userId username displayName rpId random =>
    some (.issued .registration userId
      (generateRegistrationOptions w userId username displayName rpId random).2.challenge w.now)
  | .generateAuthenticationOptions userId random =>
    some (.issued .authentication userId (generateAuthenticationOptions w userId random).2.challenge w.now)
  | .verifyRegistration call => (verifyRegistration bufferFrom w call).2.toOption.map
      (.accepted .registration call.userId call.expectedChallenge w.now)
  | .verifyAuthentication call => (verifyAuthentication bufferFrom w call).2.toOption.map
      (.accepted .authentication call.userId call.expectedChallenge w.now)

def log (now : Nat) (events : List Event) : List Entry :=
  journal (step bufferFrom) (record bufferFrom) (World.empty now) events

/-- All challenges that were drawn are different. -/
def DistinctChallenges (entries : List Entry) : Prop := Distinct (entries.map Entry.token)

/-- The passkey of a call is the one that was registered, whenever it was last used. -/
def SamePasskey (registered passkey : StoredPasskey) : Prop :=
  registered.userId = passkey.userId ∧ registered.credentialId = passkey.credentialId ∧
    registered.publicKey = passkey.publicKey ∧ registered.createdAt = passkey.createdAt

/-- Only client data of the call's own type are accepted, and only a passkey with the
identifier that the client sent. -/
def Typed (w : World) : Event → Prop
  | .verifyRegistration call => ∀ passkey, (verifyRegistration bufferFrom w call).2 = .ok passkey →
      ∃ clientData, clientDataOf bufferFrom call.response = .ok clientData ∧
        getMember clientData "type" = some (.string "webauthn.create")
  | .verifyAuthentication call => ∀ passkey, (verifyAuthentication bufferFrom w call).2 = .ok passkey →
      (∃ clientData, clientDataOf bufferFrom call.response = .ok clientData ∧
        getMember clientData "type" = some (.string "webauthn.get")) ∧
      strictEq passkey.credentialId (credentialIdOf call.response)
  | _ => True

/-- No two passkeys of a user have one identifier. -/
def UniqueCredentials (w : World) : Prop :=
  ∀ userId, (getPasskeysForUser w userId).Pairwise fun a b => !strictEq a.credentialId b.credentialId

structure Disciplined (now : Nat) (events : List Event) : Prop where
  once : (((log bufferFrom now events).map Entry.token).filterMap OneTimeTokens.Entry.acceptedToken).Nodup
  issued : ∀ ceremony userId challenge time passkey,
    .accepted ceremony userId challenge time passkey ∈ log bufferFrom now events →
      ∃ ceremony' issuedAt, .issued ceremony' userId challenge issuedAt ∈ log bufferFrom now events
  rightful : ∀ ceremony userId challenge time passkey ceremony' userId' issuedAt,
    .accepted ceremony userId challenge time passkey ∈ log bufferFrom now events →
    .issued ceremony' userId' challenge issuedAt ∈ log bufferFrom now events →
      userId = userId' ∧ issuedAt ≤ time ∧ time < issuedAt + 60000
  typed : Throughout (step bufferFrom) (Typed bufferFrom) (World.empty now) events
  registered : ∀ before userId challenge time passkey after,
    log bufferFrom now events = before ++ .accepted .authentication userId challenge time passkey :: after →
      ∃ challenge' time' registered, .accepted .registration userId challenge' time' registered ∈ before ∧
        SamePasskey registered passkey
  unique : Always (step bufferFrom) UniqueCredentials (World.empty now) events

/-- A challenge is only accepted in the ceremony that it was issued for. -/
def SameCeremony (entries : List Entry) : Prop :=
  ∀ issue ∈ entries, ∀ acceptance ∈ entries, ∀ challenge ∈ issue.token.issuedToken,
    acceptance.token.acceptedToken = some challenge → acceptance.ceremony = issue.ceremony

end Statements

variable {bufferFrom : Value → Option (List UInt8)} {w w' : World} {userId challenge : String} {call : Verify}

section Steps

/-- The challenge was pending in its time, and is taken out of the list. -/
theorem consumeChallenge_ok (consumed : consumeChallenge w userId challenge = .ok w') :
    ∃ before expiresAt after, pendingOf w userId = before ++ ⟨challenge, expiresAt⟩ :: after ∧ w.now < expiresAt ∧
      w' = { w with pendingChallenges := w.pendingChallenges.insert userId (before ++ after) } := by
  unfold consumeChallenge at consumed
  dsimp only at consumed
  split at consumed
  · cases consumed
  · rename_i index found
    cases consumed
    obtain ⟨inside, matching, -⟩ := List.findIdx?_eq_some_iff_getElem.mp found
    simp only [Bool.and_eq_true, decide_eq_true_eq] at matching
    refine ⟨(pendingOf w userId).take index, (pendingOf w userId)[index].expiresAt,
      (pendingOf w userId).drop (index + 1), ?_, matching.2, ?_⟩
    · rw [← matching.1, List.cons_getElem_drop_succ, List.take_append_drop]
    · rw [List.eraseIdx_eq_take_drop_succ]

theorem strictEq_string {actual : Option Value} {expected : String} (same : strictEq actual (some (.string expected))) :
    actual = some (.string expected) := by
  unfold strictEq at same
  split at same
  all_goals simp_all

theorem property_ok {value actual : Option Value} {key : String} (read : property value key = .ok actual) :
    actual = value.bind fun value => getMember value key := by
  unfold property at read
  split at read
  · cases read
  · cases read
  · cases read
    rfl

theorem assertClientData_type {clientData : Value} {origin type : String}
    (passed : assertClientData clientData challenge origin type = .ok ()) :
    getMember clientData "type" = some (.string type) := by
  simp only [assertClientData, bind_ok] at passed
  obtain ⟨_, _, _, _, _, _, _, _, actual, read, asserted⟩ := passed
  unfold assertType at asserted
  split at asserted
  · rename_i same
    rw [← strictEq_string same, property_ok read, Option.bind_some]
  · cases asserted

/-- Everything an event can do, and what it records. -/
inductive Does (bufferFrom : Value → Option (List UInt8)) (w : World) : Event → World → Option Entry → Prop where
  | ticks (ms : Nat) : Does bufferFrom w (.tick ms) { w with now := w.now + ms } none
  | issues (event : Event) (ceremony : Ceremony) (userId challenge : String) :
      Does bufferFrom w event (saveChallenge w userId challenge) (some (.issued ceremony userId challenge w.now))
  | fails (event : Event) : Does bufferFrom w event w none
  | spends (event : Event) (userId challenge : String) (after : World)
      (consumed : consumeChallenge w userId challenge = .ok after) : Does bufferFrom w event after none
  | registers (call : Verify) (passkey : StoredPasskey) (after : World) (own : passkey.userId = call.userId)
      (consumed : consumeChallenge w call.userId call.expectedChallenge = .ok after) :
      Does bufferFrom w (.verifyRegistration call) (register after passkey)
        (some (.accepted .registration call.userId call.expectedChallenge w.now passkey))
  | authenticates (call : Verify) (passkey : StoredPasskey) (passkeys : List StoredPasskey) (after : World)
      (touched :
        touch w.now (credentialIdOf call.response) (getPasskeysForUser w call.userId) = some (passkey, passkeys))
      (consumed : consumeChallenge w call.userId call.expectedChallenge = .ok after) :
      Does bufferFrom w (.verifyAuthentication call)
        { after with registrations := after.registrations.insert call.userId passkeys }
        (some (.accepted .authentication call.userId call.expectedChallenge w.now passkey))

theorem does (bufferFrom : Value → Option (List UInt8)) (w : World) (event : Event) :
    Does bufferFrom w event (step bufferFrom w event) (record bufferFrom w event) := by
  cases event with
  | tick ms => exact .ticks ms
  | generateRegistrationOptions userId username displayName rpId random => exact .issues _ .registration userId _
  | generateAuthenticationOptions userId random => exact .issues _ .authentication userId _
  | verifyRegistration call =>
    rw [step, record]
    unfold verifyRegistration
    split
    · exact .fails _
    split
    · exact .fails _
    rename_i clientData decoded
    cases consumed : consumeChallenge w call.userId call.expectedChallenge with
    | error refused => exact .fails _
    | ok after =>
      dsimp only
      split
      · exact .spends _ _ _ _ consumed
      · rename_i publicKey asserted
        exact .registers call _ _ rfl consumed
  | verifyAuthentication call =>
    rw [step, record]
    unfold verifyAuthentication
    split
    · exact .fails _
    split
    · exact .fails _
    rename_i passkey passkeys touched
    split
    · exact .fails _
    rename_i clientData decoded
    cases consumed : consumeChallenge w call.userId call.expectedChallenge with
    | error refused => exact .fails _
    | ok after =>
      dsimp only
      split
      · exact .spends _ _ _ _ consumed
      · exact .authenticates call passkey passkeys _ touched consumed

end Steps

section Responses

theorem SamePasskey.refl (passkey : StoredPasskey) : SamePasskey passkey passkey := ⟨rfl, rfl, rfl, rfl⟩

theorem SamePasskey.trans {a b c : StoredPasskey} (same : SamePasskey a b) (same' : SamePasskey b c) :
    SamePasskey a c :=
  ⟨same.1.trans same'.1, same.2.1.trans same'.2.1, same.2.2.1.trans same'.2.2.1, same.2.2.2.trans same'.2.2.2⟩

/-- A passkey that is used is one of the list, with the identifier that was sent; the list
keeps all else. -/
theorem touch_some {now : Nat} {credentialId : Option Value} {passkeys used : List StoredPasskey}
    {passkey : StoredPasskey} (touched : touch now credentialId passkeys = some (passkey, used)) :
    strictEq passkey.credentialId credentialId ∧ (∃ stored ∈ passkeys, SamePasskey stored passkey) ∧
      used.map StoredPasskey.credentialId = passkeys.map StoredPasskey.credentialId ∧
      ∀ held ∈ used, ∃ stored ∈ passkeys, SamePasskey stored held := by
  induction passkeys generalizing used with
  | nil => cases touched
  | cons first rest ih =>
    rw [touch] at touched
    split at touched
    · rename_i same
      cases touched
      refine ⟨same, ⟨first, List.mem_cons_self, rfl, rfl, rfl, rfl⟩, rfl, ?_⟩
      intro held listed
      rcases List.mem_cons.mp listed with rfl | later
      · exact ⟨first, List.mem_cons_self, rfl, rfl, rfl, rfl⟩
      · exact ⟨held, List.mem_cons_of_mem _ later, .refl held⟩
    · obtain ⟨⟨passkey', used'⟩, found, equal⟩ := Option.map_eq_some_iff.mp touched
      cases equal
      obtain ⟨same, ⟨stored, listed, samePasskey⟩, ids, all⟩ := ih found
      refine ⟨same, ⟨stored, List.mem_cons_of_mem _ listed, samePasskey⟩, congrArg (first.credentialId :: ·) ids, ?_⟩
      intro held member
      rcases List.mem_cons.mp member with rfl | later
      · exact ⟨held, List.mem_cons_self, .refl held⟩
      · obtain ⟨stored, listed, samePasskey⟩ := all held later
        exact ⟨stored, List.mem_cons_of_mem _ listed, samePasskey⟩

theorem registration_typed (passkey : StoredPasskey)
    (accepted : (verifyRegistration bufferFrom w call).2 = .ok passkey) :
    ∃ clientData, clientDataOf bufferFrom call.response = .ok clientData ∧
      getMember clientData "type" = some (.string "webauthn.create") := by
  unfold verifyRegistration at accepted
  split at accepted
  · cases accepted
  split at accepted
  · cases accepted
  rename_i clientData decoded
  split at accepted
  · cases accepted
  split at accepted
  · cases accepted
  rename_i publicKey asserted
  obtain ⟨⟨⟩, passed, -⟩ := bind_ok.mp asserted
  exact ⟨clientData, decoded, assertClientData_type passed⟩

theorem authentication_typed (passkey : StoredPasskey)
    (accepted : (verifyAuthentication bufferFrom w call).2 = .ok passkey) :
    (∃ clientData, clientDataOf bufferFrom call.response = .ok clientData ∧
      getMember clientData "type" = some (.string "webauthn.get")) ∧
      strictEq passkey.credentialId (credentialIdOf call.response) := by
  unfold verifyAuthentication at accepted
  split at accepted
  · cases accepted
  split at accepted
  · cases accepted
  rename_i passkey' passkeys touched
  split at accepted
  · cases accepted
  rename_i clientData decoded
  split at accepted
  · cases accepted
  split at accepted
  · cases accepted
  rename_i asserted
  cases accepted
  obtain ⟨⟨⟩, passed, -⟩ := bind_ok.mp asserted
  exact ⟨⟨clientData, decoded, assertClientData_type passed⟩, (touch_some touched).1⟩

theorem typed (w : World) (event : Event) : Typed bufferFrom w event := by
  cases event with
  | verifyRegistration call => exact registration_typed
  | verifyAuthentication call => exact authentication_typed
  | tick | generateRegistrationOptions | generateAuthenticationOptions => trivial

end Responses

section Book

/-- The pending challenges of all users. -/
def book (w : World) (userId : String) : List (Pending String) :=
  (pendingOf w userId).map fun item => ⟨item.challenge, item.expiresAt⟩

theorem book_insert (w : World) (userId : String) (pending : List PendingChallenge) :
    book { w with pendingChallenges := w.pendingChallenges.insert userId pending } =
      Function.update (book w) userId (pending.map fun item => ⟨item.challenge, item.expiresAt⟩) := by
  funext other
  by_cases same : other = userId
  · subst same
    rw [Function.update_self, book, pendingOf, AList.lookup_insert, Option.getD_some]
  · rw [Function.update_of_ne same, book, pendingOf, AList.lookup_insert_ne same, book, pendingOf]

theorem kept_saves {tokens : List (OneTimeTokens.Entry String String)} (kept : Kept 60000 w.now (book w) tokens)
    (fresh : Distinct (tokens ++ [.issued challenge userId w.now])) :
    Kept 60000 (saveChallenge w userId challenge).now (book (saveChallenge w userId challenge))
      (tokens ++ [.issued challenge userId w.now]) := by
  let pending := (pendingOf w userId).filter fun item => w.now < item.expiresAt
  have thinner : ∀ other, (book { w with pendingChallenges := w.pendingChallenges.insert userId pending } other).Sublist
      (book w other) := by
    intro other
    rw [book_insert]
    by_cases same : other = userId
    · subst same
      rw [Function.update_self]
      exact List.filter_sublist.map _
    · rw [Function.update_of_ne same]
  have saved := (kept.thin le_rfl thinner).issue fresh
  rw [book_insert, Function.update_self, Function.update_idem] at saved
  rw [saveChallenge, book_insert, List.map_append]
  exact saved

theorem kept_consumes {tokens : List (OneTimeTokens.Entry String String)} (kept : Kept 60000 w.now (book w) tokens)
    (consumed : consumeChallenge w userId challenge = .ok w') (distinct : Distinct tokens) :
    Kept 60000 w'.now (book w') (tokens ++ [.accepted challenge userId w.now]) := by
  obtain ⟨before, expiresAt, after, pending, inTime, rfl⟩ := consumeChallenge_ok consumed
  rw [book_insert, List.map_append]
  refine kept.accept distinct ?_ inTime
  rw [book, pending, List.map_append, List.map_cons]

/-- A challenge that is spent for nothing is gone as well. -/
theorem kept_spends {tokens : List (OneTimeTokens.Entry String String)} (kept : Kept 60000 w.now (book w) tokens)
    (consumed : consumeChallenge w userId challenge = .ok w') : Kept 60000 w'.now (book w') tokens := by
  obtain ⟨before, expiresAt, after, pending, inTime, rfl⟩ := consumeChallenge_ok consumed
  refine kept.thin le_rfl fun other => ?_
  rw [book_insert]
  by_cases same : other = userId
  · subst same
    rw [Function.update_self, book, pending]
    exact ((List.sublist_cons_self _ _).append_left before).map _
  · rw [Function.update_of_ne same]

/-- The book is kept by whatever an event does. -/
theorem kept_does {tokens : List (OneTimeTokens.Entry String String)} {event : Event} {after : World}
    {entry : Option Entry} (outcome : Does bufferFrom w event after entry) (kept : Kept 60000 w.now (book w) tokens)
    (distinct : Distinct (tokens ++ (entry.map Entry.token).toList)) :
    Kept 60000 after.now (book after) (tokens ++ (entry.map Entry.token).toList) := by
  cases outcome with
  | ticks ms =>
    rw [Option.map_none, Option.toList_none, List.append_nil]
    exact kept.thin (Nat.le_add_right w.now ms) fun _ => List.Sublist.refl _
  | issues event ceremony userId challenge => exact kept_saves kept distinct
  | fails event =>
    rw [Option.map_none, Option.toList_none, List.append_nil]
    exact kept
  | spends event userId challenge after consumed =>
    rw [Option.map_none, Option.toList_none, List.append_nil]
    exact kept_spends kept consumed
  | registers call passkey after own consumed =>
    have next := kept_consumes kept consumed (distinct_before distinct)
    exact next
  | authenticates call passkey passkeys after touched consumed =>
    have next := kept_consumes kept consumed (distinct_before distinct)
    exact next

end Book

section Passkeys

theorem getPasskeysForUser_insert (w : World) (userId other : String) (passkeys : List StoredPasskey) :
    getPasskeysForUser { w with registrations := w.registrations.insert userId passkeys } other =
      if other = userId then passkeys else getPasskeysForUser w other := by
  unfold getPasskeysForUser
  split
  · rename_i same
    rw [same, AList.lookup_insert, Option.getD_some]
  · rename_i different
    rw [AList.lookup_insert_ne different]

/-- A verify call leaves the passkeys alone when it takes the challenge. -/
theorem consumed_passkeys (consumed : consumeChallenge w userId challenge = .ok w') :
    getPasskeysForUser w' = getPasskeysForUser w := by
  obtain ⟨-, -, -, -, -, rfl⟩ := consumeChallenge_ok consumed
  rfl

/-- Every stored passkey was registered by a call of its user. -/
def Registered (w : World) (entries : List Entry) : Prop :=
  ∀ userId, ∀ passkey ∈ getPasskeysForUser w userId, ∃ challenge time registered,
    .accepted .registration userId challenge time registered ∈ entries ∧ SamePasskey registered passkey

/-- Every passkey that was accepted had been registered before. -/
def Backed (entries : List Entry) : Prop :=
  ∀ before userId challenge time passkey after,
    entries = before ++ .accepted .authentication userId challenge time passkey :: after →
      ∃ challenge' time' registered, .accepted .registration userId challenge' time' registered ∈ before ∧
        SamePasskey registered passkey

variable {event : Event} {after : World} {entry : Option Entry} {entries : List Entry}

theorem Registered.append (registered : Registered w entries) (more : List Entry) : Registered w (entries ++ more) := by
  intro userId passkey listed
  obtain ⟨challenge, time, original, member, same⟩ := registered userId passkey listed
  exact ⟨challenge, time, original, List.mem_append_left _ member, same⟩

theorem registered_does (outcome : Does bufferFrom w event after entry) (registered : Registered w entries) :
    Registered after (entries ++ entry.toList) := by
  have before := registered.append entry.toList
  cases outcome with
  | ticks ms => exact before
  | issues event ceremony userId challenge => exact before
  | fails event => exact before
  | spends event userId challenge after consumed =>
    intro userId passkey listed
    rw [consumed_passkeys consumed] at listed
    exact before userId passkey listed
  | registers call passkey after own consumed =>
    intro userId held listed
    rw [register, getPasskeysForUser_insert, consumed_passkeys consumed] at listed
    split at listed
    · rename_i same
      subst same
      rcases List.mem_append.mp listed with kept | new
      · exact before _ held (List.mem_of_mem_filter kept)
      · rw [List.mem_singleton.mp new, own]
        exact ⟨call.expectedChallenge, w.now, passkey, by simp, .refl passkey⟩
    · exact before userId held listed
  | authenticates call passkey passkeys after touched consumed =>
    intro userId held listed
    rw [getPasskeysForUser_insert, consumed_passkeys consumed] at listed
    split at listed
    · rename_i same
      subst same
      obtain ⟨stored, inside, alike⟩ := (touch_some touched).2.2.2 held listed
      obtain ⟨challenge, time, original, member, same⟩ := before _ stored inside
      exact ⟨challenge, time, original, member, same.trans alike⟩
    · exact before userId held listed

theorem backed_does (outcome : Does bufferFrom w event after entry) (registered : Registered w entries)
    (backed : Backed entries) : Backed (entries ++ entry.toList) := by
  cases entry with
  | none => simpa using backed
  | some entry =>
    intro before userId challenge time passkey rest split
    rw [Option.toList_some] at split
    rcases List.eq_nil_or_concat rest with rfl | ⟨rest, last, rfl⟩
    · obtain ⟨rfl, newest⟩ := List.append_inj' split rfl
      cases newest
      cases outcome with
      | authenticates call passkey passkeys after touched consumed =>
        obtain ⟨-, ⟨stored, inside, alike⟩, -⟩ := touch_some touched
        obtain ⟨challenge, time, original, member, same⟩ := registered _ stored inside
        exact ⟨challenge, time, original, member, same.trans alike⟩
    · rw [List.concat_eq_append, ← List.cons_append, ← List.append_assoc] at split
      exact backed before userId challenge time passkey rest (List.append_inj' split rfl).1

theorem unique_does (outcome : Does bufferFrom w event after entry) (unique : UniqueCredentials w) :
    UniqueCredentials after := by
  cases outcome with
  | ticks ms => exact unique
  | issues event ceremony userId challenge => exact unique
  | fails event => exact unique
  | spends event userId challenge after consumed =>
    intro userId
    rw [consumed_passkeys consumed]
    exact unique userId
  | registers call passkey after own consumed =>
    intro userId
    rw [register, getPasskeysForUser_insert, consumed_passkeys consumed]
    split
    · refine List.pairwise_append.mpr ⟨(unique _).filter _, List.pairwise_singleton _ _, ?_⟩
      intro other kept _ new
      rw [List.mem_singleton.mp new]
      exact (List.mem_filter.mp kept).2
    · exact unique userId
  | authenticates call passkey passkeys after touched consumed =>
    intro userId
    rw [getPasskeysForUser_insert, consumed_passkeys consumed]
    split
    · have before := unique call.userId
      rw [← List.pairwise_map (f := StoredPasskey.credentialId) (R := fun a b => !strictEq a b)] at before ⊢
      rw [(touch_some touched).2.2.1]
      exact before
    · exact unique userId

end Passkeys

theorem map_token (entries : List Entry) (entry : Option Entry) :
    (entries ++ entry.toList).map Entry.token = entries.map Entry.token ++ (entry.map Entry.token).toList := by
  cases entry <;> simp

/-- The state of the service after a run, and the log of the run. -/
theorem log_kept (bufferFrom : Value → Option (List UInt8)) (now : Nat) (events : List Event) :
    (DistinctChallenges (log bufferFrom now events) →
      Sound 60000 ((log bufferFrom now events).map Entry.token)) ∧ Backed (log bufferFrom now events) := by
  let invariant (w : World) (entries : List Entry) : Prop :=
    (DistinctChallenges entries → Kept 60000 w.now (book w) (entries.map Entry.token)) ∧
      Registered w entries ∧ Backed entries
  have preserved (w : World) (entries : List Entry) (event : Event) (holds : invariant w entries) :
      invariant (step bufferFrom w event) (entries ++ (record bufferFrom w event).toList) := by
    obtain ⟨kept, registered, backed⟩ := holds
    have outcome := does bufferFrom w event
    refine ⟨fun distinct => ?_, registered_does outcome registered, backed_does outcome registered backed⟩
    rw [DistinctChallenges, map_token] at distinct
    rw [map_token]
    have before : DistinctChallenges entries := by
      cases entry : record bufferFrom w event with
      | none => simpa [entry, DistinctChallenges] using distinct
      | some entry' =>
        rw [entry] at distinct
        exact distinct_before distinct
    exact kept_does outcome (kept before) distinct
  have initial : invariant (World.empty now) [] := by
    refine ⟨fun _ => kept_empty 60000 now, nofun, ?_⟩
    intro before userId challenge time passkey after split
    simp at split
  obtain ⟨kept, -, backed⟩ := journal_invariant invariant preserved initial events
  exact ⟨fun distinct => (kept distinct).sound, backed⟩

/-- With challenges that are all different, every run is disciplined. -/
theorem challenges_disciplined (bufferFrom : Value → Option (List UInt8)) (now : Nat) (events : List Event)
    (distinct : DistinctChallenges (log bufferFrom now events)) : Disciplined bufferFrom now events := by
  obtain ⟨sound, backed⟩ := log_kept bufferFrom now events
  have tokens {entry : Entry} (member : entry ∈ log bufferFrom now events) :
      entry.token ∈ (log bufferFrom now events).map Entry.token := List.mem_map_of_mem member
  refine ⟨(sound distinct).once, ?_, ?_, throughout_of_at fun _ _ _ _ => typed _ _, backed, ?_⟩
  · intro ceremony userId challenge time passkey accepted
    obtain ⟨issuedAt, issued, -⟩ := (sound distinct).issued challenge userId time (tokens accepted)
    obtain ⟨entry, member, same⟩ := List.mem_map.mp issued
    cases entry with
    | issued ceremony' userId' challenge' time' =>
      cases same
      exact ⟨ceremony', issuedAt, member⟩
    | accepted => cases same
  · intro ceremony userId challenge time passkey ceremony' userId' issuedAt accepted issued
    exact (sound distinct).rightful distinct (tokens accepted) (tokens issued)
  · have everywhere : Throughout (step bufferFrom) (fun _ _ => True) (World.empty now) events :=
      throughout_of_at fun _ _ _ _ => trivial
    exact always_of UniqueCredentials (fun w event unique _ => unique_does (does bufferFrom w event) unique)
      (fun _ unique => unique) (fun _ => .nil) everywhere

def drawn (byte : UInt8) : Random := ⟨List.replicate 32 byte, List.length_replicate⟩

/-- A response with the data of an honest client. -/
def response (type challenge : String) (more : List (String × Value)) : Option Value :=
  let clientData := .object [("type", .string type), ("challenge", .string challenge), ("origin", .string "http://a")]
  some (.object [("type", .string "public-key"), ("id", .string "key"),
    ("response", .object (("clientDataJSON", .string (toBase64Url (Base64.utf8 (stringify clientData)))) :: more))])

def registering (challenge : String) : Verify :=
  ⟨"ada", response "webauthn.create" challenge
    [("attestationObject", .string (toBase64Url (Base64.utf8 (stringify (.object [("fmt", .string "none")])))))],
    challenge, "http://a"⟩

def authenticating (challenge : String) : Verify :=
  ⟨"ada", response "webauthn.get" challenge [("authenticatorData", .string "data"), ("signature", .string "signature")],
    challenge, "http://a"⟩

/-- A passkey is registered, and then used with the challenge of another registration. -/
def crossed : List Event :=
  [.generateRegistrationOptions "ada" "ada" none none (drawn 1), .tick 1000,
    .verifyRegistration (registering (drawn 1).challenge), .generateRegistrationOptions "ada" "ada" none none (drawn 2),
    .verifyAuthentication (authenticating (drawn 2).challenge)]

theorem crossed_log : ((log (fun _ => none) 0 crossed).map fun entry => (entry.ceremony, entry.token)) =
    [(.registration, .issued (drawn 1).challenge "ada" 0), (.registration, .accepted (drawn 1).challenge "ada" 1000),
      (.registration, .issued (drawn 2).challenge "ada" 1000),
      (.authentication, .accepted (drawn 2).challenge "ada" 1000)] := by decide +kernel

theorem crossed_distinct : DistinctChallenges (log (fun _ => none) 0 crossed) := by
  have token_snd : Prod.snd ∘ (fun entry : Entry => (entry.ceremony, entry.token)) = Entry.token := rfl
  have tokens := congrArg (List.map Prod.snd) crossed_log
  rw [List.map_map, token_snd] at tokens
  rw [DistinctChallenges, Distinct, tokens]
  simp only [List.map_cons, List.map_nil, List.filterMap_cons, List.filterMap_nil, OneTimeTokens.Entry.issuedToken]
  decide +kernel

theorem challenges_disciplined_crossed : Disciplined (fun _ => none) 0 crossed :=
  challenges_disciplined (fun _ => none) 0 crossed crossed_distinct

/-- The challenges are all different, and one changes its ceremony. -/
theorem registration_challenge_authenticates : DistinctChallenges (log (fun _ => none) 0 crossed) ∧
    ¬ SameCeremony (log (fun _ => none) 0 crossed) := by
  refine ⟨crossed_distinct, fun same => ?_⟩
  have listed {ceremony : Ceremony} {token : OneTimeTokens.Entry String String}
      (member : (ceremony, token) ∈ (log (fun _ => none) 0 crossed).map fun entry => (entry.ceremony, entry.token)) :
      ∃ entry ∈ log (fun _ => none) 0 crossed, entry.ceremony = ceremony ∧ entry.token = token := by
    obtain ⟨entry, inside, equal⟩ := List.mem_map.mp member
    exact ⟨entry, inside, congrArg Prod.fst equal, congrArg Prod.snd equal⟩
  obtain ⟨issue, inside, registration, issued⟩ :=
    listed (crossed_log ▸ List.mem_cons_of_mem _ (List.mem_cons_of_mem _ List.mem_cons_self))
  obtain ⟨acceptance, inside', authentication, accepted⟩ :=
    listed (crossed_log ▸ List.mem_cons_of_mem _ (List.mem_cons_of_mem _ (List.mem_cons_of_mem _ List.mem_cons_self)))
  have crossing := same issue inside acceptance inside' (drawn 2).challenge (by rw [issued]; rfl)
    (by rw [accepted]; rfl)
  rw [registration, authentication] at crossing
  cases crossing

end AfroPay.WebAuthn
