import AfroPay.Interleaving
import AfroPay.Kyc
import AfroPay.Sha256

/-! The document reference of a KYC record. `confirmUpload` stores one only after it has
hashed the uploaded object; `submitKyc` and `updateKycRecord` write the same record from
what they are given. Every statement and every request to the object store is a step. -/
namespace AfroPay.KycDocuments
open Interleaving KeyedStore Kyc Runs ScriptText

inductive KycStatus where
  | pending
  | approved
  | rejected
  deriving DecidableEq

structure KycRecord where
  status : KycStatus
  tier : KycTier
  documentType : Option String
  documentRef : Option String
  submittedAt : Option Nat
  reviewedAt : Option Nat
  rejectionReason : Option String
  deriving DecidableEq

/-- A row as the schema's defaults make it. -/
def KycRecord.blank : KycRecord := ⟨.pending, .none, none, none, none, none, none⟩

/-- An object whose hash `confirmUpload` computed for a user. -/
structure Hashed where
  userId : String
  s3Key : String
  content : List UInt8
  deriving DecidableEq

structure World where
  now : Nat
  /-- The records by `userId`, which is unique. -/
  records : Store String KycRecord
  /-- The objects of the bucket. -/
  objects : Store String (List UInt8)
  /-- All that `confirmUpload` has hashed so far. -/
  hashed : List Hashed

inductive Exception where
  | forbidden (message : String)
  | badRequest (message : String)
  | notFound (message : String)
  | internal (message : String)
  /-- What the database client threw. -/
  | database
  deriving DecidableEq

structure KycSubmitDto where
  documentType : Option String
  documentUrl : Option String
  deriving DecidableEq

/-- The fields a review may write; one that is left out is not written. -/
structure Updates where
  status : Option KycStatus
  tier : Option KycTier
  rejectionReason : Option String
  deriving DecidableEq

inductive Request where
  | confirmUpload (userId s3Key expectedSha256 : String)
  | submitKyc (userId : String) (data : KycSubmitDto)
  | updateKycRecord (userId : String) (updates : Updates)
  deriving DecidableEq

inductive Answer where
  | confirmed (documentRef : String) (verifiedAt : Nat)
  | record (record : KycRecord)
  deriving DecidableEq

/-- What a call does next. -/
inductive Phase where
  /-- `HeadObject`. -/
  | heading (userId s3Key expectedSha256 : String)
  /-- `GetObject`, and the hash of what comes. -/
  | getting (userId s3Key expectedSha256 : String)
  /-- The upsert of a verified reference. -/
  | storing (userId s3Key computedHash : String)
  | submitting (userId : String) (data : KycSubmitDto)
  | updating (userId : String) (updates : Updates)
  | returned (result : Except Exception Answer)
  deriving DecidableEq

def maxUploadBytes : Nat := 10 * 1024 * 1024

def startsWith (text lead : String) : Bool := lead.toList.isPrefixOf text.toList

/-- What keys of a user's objects start with. -/
def userFolder (userId : String) : String := "kyc/" ++ userId ++ "/"

def isHexDigit (c : Char) : Bool := c.isDigit || ('a' ≤ c && c ≤ 'f') || ('A' ≤ c && c ≤ 'F')

/-- `/^[0-9a-f]{64}$/i`. -/
def isSha256Hex (text : String) : Bool := text.toList.length = 64 && text.toList.all isHexDigit

def validDocTypes : List String := ["PASSPORT", "NATIONAL_ID", "DRIVERS_LICENSE"]

def fail (exception : Exception) : Phase := .returned (.error exception)

/-- The checks before the first request or statement. -/
def start : Request → Phase
  | .confirmUpload userId s3Key expectedSha256 =>
    if ¬ startsWith s3Key (userFolder userId) then fail (.forbidden "S3 key does not belong to this user")
    else if ¬ isSha256Hex expectedSha256 then fail (.badRequest "expectedSha256 must be a 64-char hex string")
    else .heading userId s3Key expectedSha256
  | .submitKyc userId data =>
    if (truthy data.documentType).any (· ∉ validDocTypes) then fail (.badRequest "Invalid document type")
    else .submitting userId data
  | .updateKycRecord userId updates => .updating userId updates

/-- `upsert`: the row is written with a change, on the defaults if there is none yet. -/
def upsert (w : World) (userId : String) (change : KycRecord → KycRecord) : World :=
  { w with records := w.records.insert userId (change ((w.records.lookup userId).getD .blank)) }

def confirmChange (w : World) (documentRef : String) (record : KycRecord) : KycRecord :=
  { record with documentRef := some documentRef, submittedAt := some w.now, status := .pending }

/-- A document type that is left out is not written. -/
def submitChange (w : World) (data : KycSubmitDto) (record : KycRecord) : KycRecord :=
  { record with
    status := .pending
    documentType := data.documentType.or record.documentType
    documentRef := truthy data.documentUrl
    submittedAt := some w.now }

def updateChange (w : World) (updates : Updates) (record : KycRecord) : KycRecord :=
  { record with
    status := updates.status.getD record.status
    tier := updates.tier.getD record.tier
    rejectionReason := updates.rejectionReason.or record.rejectionReason
    reviewedAt := some w.now }

/-- A write and the row it returns. -/
def write (w : World) (userId : String) (change : KycRecord → KycRecord) : World × Phase :=
  (upsert w userId change, .returned (.ok (.record (change ((w.records.lookup userId).getD .blank)))))

/-- One step of a call; `answered` says whether the store or the database answers it. -/
def proceed (w : World) (phase : Phase) (answered : Bool) : World × Phase :=
  match phase with
  | .heading userId s3Key expectedSha256 =>
    if ¬ answered then (w, fail (.internal "Could not verify upload"))
    else match w.objects.lookup s3Key with
      | none => (w, fail (.notFound "Uploaded document not found in storage. Upload may have expired."))
      | some content =>
        if content.length > maxUploadBytes then (w, fail (.badRequest "Document exceeds maximum size of 10 MB"))
        else (w, .getting userId s3Key expectedSha256)
  | .getting userId s3Key expectedSha256 =>
    match answered, w.objects.lookup s3Key with
    | true, some content =>
      let computedHash := Sha256.hexDigest content
      let w := { w with hashed := w.hashed ++ [⟨userId, s3Key, content⟩] }
      if computedHash ≠ expectedSha256.toLower then
        (w, fail (.badRequest "SHA-256 hash mismatch — document may have been tampered with during upload"))
      else (w, .storing userId s3Key computedHash)
    | _, _ => (w, fail (.internal "Could not verify document hash"))
  | .storing userId s3Key computedHash =>
    let documentRef := s3Key ++ ":" ++ computedHash
    if ¬ answered then (w, fail .database)
    else (upsert w userId (confirmChange w documentRef), .returned (.ok (.confirmed documentRef w.now)))
  | .submitting userId data => if answered then write w userId (submitChange w data) else (w, fail .database)
  | .updating userId updates => if answered then write w userId (updateChange w updates) else (w, fail .database)
  | .returned _ => (w, phase)

/-- What happens outside of calls: time passes, objects are uploaded and removed. -/
inductive Act where
  | tick (ms : Nat)
  | put (s3Key : String) (content : List UInt8)
  | remove (s3Key : String)
  deriving DecidableEq

def act (w : World) : Act → World
  | .tick ms => { w with now := w.now + ms }
  | .put s3Key content => { w with objects := w.objects.insert s3Key content }
  | .remove s3Key => { w with objects := w.objects.erase s3Key }

def service : Service World Phase Request Bool Act := ⟨start, proceed, act⟩

abbrev State := System World Phase

abbrev Step := Event Request Bool Act

/-- The reference is the user's key and the hash that `confirmUpload` computed of its object. -/
def Verified (w : World) (userId documentRef : String) : Prop :=
  ∃ s3Key content, (⟨userId, s3Key, content⟩ : Hashed) ∈ w.hashed ∧ startsWith s3Key (userFolder userId) ∧
    documentRef = s3Key ++ ":" ++ Sha256.hexDigest content

/-- Every reference in the table is verified. -/
def AllVerified (w : World) : Prop :=
  ∀ userId record documentRef, w.records.lookup userId = some record → record.documentRef = some documentRef →
    Verified w userId documentRef

/-- A record whose reference the event replaces is not left approved. -/
def Unapproved (s : State) (event : Step) : Prop :=
  ∀ userId record, (step service s event).shared.records.lookup userId = some record →
    (s.shared.records.lookup userId).bind (·.documentRef) ≠ record.documentRef → record.status ≠ .approved

/-- The promise about document references along a run. -/
structure ReferencesVerified (w : World) (events : List Step) : Prop where
  verified : Always (step service) (fun s => AllVerified s.shared) (.fresh w) events
  unapproved : Throughout (step service) Unapproved (.fresh w) events

/-- A submission that is written brings no document reference of its own, unless it is one
that was verified for the user. -/
def SubmitsVerified (s : State) : Step → Prop
  | .advance id true => ∀ userId data documentUrl, s.calls.lookup id = some (.submitting userId data) →
      truthy data.documentUrl = some documentUrl → Verified s.shared userId documentUrl
  | _ => True

variable {w w' : World} {phase : Phase} {answered : Bool} {s : State} {event : Step} {userId documentRef : String}

/-- What a call of `confirmUpload` has found out so far. -/
def Backed (w : World) : Phase → Prop
  | .heading userId s3Key _ | .getting userId s3Key _ => startsWith s3Key (userFolder userId)
  | .storing userId s3Key computedHash => Verified w userId (s3Key ++ ":" ++ computedHash)
  | _ => True

/-- Everything a step of a call can do. -/
inductive Proceeds (w : World) : Phase → Bool → World × Phase → Prop where
  | reads (phase : Phase) (answered : Bool) (next : Phase) (backed : Backed w phase → Backed w next) :
      Proceeds w phase answered (w, next)
  | hashes (userId s3Key expectedSha256 : String) (content : List UInt8) (next : Phase)
      (after : ∀ computedHash, next = .storing userId s3Key computedHash → computedHash = Sha256.hexDigest content)
      (shape : (∃ result, next = .returned result) ∨ ∃ computedHash, next = .storing userId s3Key computedHash) :
      Proceeds w (.getting userId s3Key expectedSha256) true
        ({ w with hashed := w.hashed ++ [⟨userId, s3Key, content⟩] }, next)
  | stores (userId s3Key computedHash : String) (answer : Answer) :
      Proceeds w (.storing userId s3Key computedHash) true
        (upsert w userId (confirmChange w (s3Key ++ ":" ++ computedHash)), .returned (.ok answer))
  | submits (userId : String) (data : KycSubmitDto) (answer : Answer) :
      Proceeds w (.submitting userId data) true (upsert w userId (submitChange w data), .returned (.ok answer))
  | updates (userId : String) (changes : Updates) (answer : Answer) :
      Proceeds w (.updating userId changes) true (upsert w userId (updateChange w changes), .returned (.ok answer))

theorem proceeds (w : World) (phase : Phase) (answered : Bool) : Proceeds w phase answered (proceed w phase answered) := by
  cases phase with
  | heading userId s3Key expectedSha256 =>
    simp only [proceed]
    split
    · exact .reads _ _ _ fun _ => trivial
    · split
      · exact .reads _ _ _ fun _ => trivial
      · split
        · exact .reads _ _ _ fun _ => trivial
        · exact .reads _ _ _ id
  | getting userId s3Key expectedSha256 =>
    simp only [proceed]
    split
    · rename_i content found
      split
      · exact .hashes userId s3Key expectedSha256 content _ (by simp [fail]) (.inl ⟨_, rfl⟩)
      · exact .hashes userId s3Key expectedSha256 content _ (by simp) (.inr ⟨_, rfl⟩)
    · exact .reads _ _ _ fun _ => trivial
  | storing userId s3Key computedHash =>
    cases answered with
    | false => exact .reads _ _ _ fun _ => trivial
    | true => exact .stores userId s3Key computedHash _
  | submitting userId data =>
    cases answered with
    | false => exact .reads _ _ _ fun _ => trivial
    | true => exact .submits userId data _
  | updating userId changes =>
    cases answered with
    | false => exact .reads _ _ _ fun _ => trivial
    | true => exact .updates userId changes _
  | returned result => exact .reads _ _ _ id

/-- What was hashed stays hashed. -/
theorem verified_mono (more : ∀ hashed ∈ w.hashed, hashed ∈ w'.hashed) (verified : Verified w userId documentRef) :
    Verified w' userId documentRef := by
  obtain ⟨s3Key, content, member, folder, same⟩ := verified
  exact ⟨s3Key, content, more _ member, folder, same⟩

theorem backed_mono (more : ∀ hashed ∈ w.hashed, hashed ∈ w'.hashed) (backed : Backed w phase) : Backed w' phase := by
  cases phase with
  | storing userId s3Key computedHash => exact verified_mono more backed
  | _ => exact backed

theorem proceeds_hashed {result : World × Phase} (all : Proceeds w phase answered result) :
    ∀ hashed ∈ w.hashed, hashed ∈ result.1.hashed := by
  intro hashed member
  cases all with
  | hashes userId s3Key expectedSha256 content next after shape => exact List.mem_append_left _ member
  | _ => exact member

theorem proceeds_backed {result : World × Phase} (all : Proceeds w phase answered result) (backed : Backed w phase) :
    Backed result.1 result.2 := by
  cases all with
  | reads _ _ next keeps => exact keeps backed
  | hashes userId s3Key expectedSha256 content next after shape =>
    rcases shape with ⟨result, rfl⟩ | ⟨computedHash, rfl⟩
    · trivial
    · have hash := after computedHash rfl
      exact ⟨s3Key, content, by simp, backed, by rw [hash]⟩
  | _ => trivial

theorem start_backed (w : World) (request : Request) : Backed w (start request) := by
  cases request with
  | confirmUpload userId s3Key expectedSha256 =>
    simp only [start]
    split
    · trivial
    · rename_i folder
      split
      · trivial
      · exact not_not.mp folder
  | submitKyc userId data =>
    simp only [start]
    split <;> trivial
  | updateKycRecord userId updates => trivial

theorem act_hashed (w : World) (outside : Act) : (act w outside).hashed = w.hashed ∧ (act w outside).records = w.records := by
  cases outside <;> exact ⟨rfl, rfl⟩

theorem step_backed (backed : Each Backed s) : Each Backed (step service s event) := by
  apply each_step backed
  · exact start_backed s.shared
  · intro id input call _ found
    have all := proceeds s.shared call input
    exact ⟨proceeds_backed all (backed id call found), fun other held => backed_mono (proceeds_hashed all) held⟩
  · intro outside other _ held
    refine backed_mono ?_ held
    intro hashed member
    rw [show (service.act s.shared outside).hashed = s.shared.hashed from (act_hashed _ _).1]
    exact member

/-- Writing one record leaves every reference verified, if the one it writes is. -/
theorem upsert_verified {change : KycRecord → KycRecord} (all : AllVerified w)
    (new : ∀ documentRef, (change ((w.records.lookup userId).getD .blank)).documentRef = some documentRef →
      Verified w userId documentRef) : AllVerified (upsert w userId change) := by
  intro other record documentRef found held
  rcases lookup_insert_some.mp found with ⟨rfl, rfl⟩ | ⟨-, old⟩
  · exact new documentRef held
  · exact all other record documentRef old held

/-- A step keeps every reference verified when a submission brings a verified one, or none. -/
theorem step_verified (all : AllVerified s.shared) (backed : Each Backed s) (submits : SubmitsVerified s event) :
    AllVerified (step service s event).shared := by
  have moves := steps service s event
  generalize step service s event = s' at moves
  cases moves with
  | idle => exact all
  | begins id request free => exact all
  | advances id answered phase found =>
    have effect := proceeds s.shared phase answered
    have known := backed id phase found
    change AllVerified (proceed s.shared phase answered).1
    generalize proceed s.shared phase answered = result at effect
    cases effect with
    | reads => exact all
    | hashes userId s3Key expectedSha256 content next after shape =>
      intro other record documentRef held reference
      refine verified_mono ?_ (all other record documentRef held reference)
      exact fun hashed member => List.mem_append_left _ member
    | stores userId s3Key computedHash answer =>
      refine upsert_verified all ?_
      intro documentRef held
      cases held
      exact known
    | submits userId data answer =>
      refine upsert_verified all ?_
      intro documentRef held
      exact submits userId data documentRef found held
    | updates userId changes answer =>
      refine upsert_verified all ?_
      intro documentRef held
      cases old : s.shared.records.lookup userId with
      | none =>
        rw [old] at held
        cases held
      | some record =>
        rw [old] at held
        exact all userId record documentRef old held
  | acts outside =>
    obtain ⟨hashed, records⟩ := act_hashed s.shared outside
    intro other record documentRef held reference
    change (act s.shared outside).records.lookup other = some record at held
    rw [records] at held
    refine verified_mono ?_ (all other record documentRef held reference)
    intro entry member
    change entry ∈ (act s.shared outside).hashed
    rw [hashed]
    exact member

/-- A write that leaves a record approved leaves its reference. -/
theorem upsert_unapproved {change : KycRecord → KycRecord}
    (keeps : ∀ record, (change record).documentRef = record.documentRef ∨ (change record).status ≠ .approved)
    {other : String} {record : KycRecord} (found : (upsert w userId change).records.lookup other = some record)
    (replaced : (w.records.lookup other).bind (·.documentRef) ≠ record.documentRef) : record.status ≠ .approved := by
  rcases lookup_insert_some.mp found with ⟨rfl, rfl⟩ | ⟨-, old⟩
  · refine (keeps _).resolve_left fun same => replaced ?_
    rw [same]
    cases w.records.lookup other <;> rfl
  · simp [old] at replaced

theorem step_unapproved (s : State) (event : Step) : Unapproved s event := by
  intro userId record found replaced
  have moves := steps service s event
  generalize step service s event = s' at moves found
  cases moves with
  | idle => simp [found] at replaced
  | begins id request free => simp [show s.shared.records.lookup userId = some record from found] at replaced
  | advances id answered phase held =>
    have effect := proceeds s.shared phase answered
    change (proceed s.shared phase answered).1.records.lookup userId = some record at found
    generalize proceed s.shared phase answered = result at effect found
    cases effect with
    | reads => simp [found] at replaced
    | hashes other s3Key expectedSha256 content next after shape =>
      simp [show s.shared.records.lookup userId = some record from found] at replaced
    | stores other s3Key computedHash answer =>
      exact upsert_unapproved (fun _ => .inr (by simp [confirmChange])) found replaced
    | submits other data answer => exact upsert_unapproved (fun _ => .inr (by simp [submitChange])) found replaced
    | updates other changes answer =>
      refine upsert_unapproved ?_ found replaced
      exact fun _ => .inl rfl
  | acts outside =>
    rw [show (service.act s.shared outside).records = s.shared.records from (act_hashed _ _).2] at found
    simp [found] at replaced

/-- A submission whose reference is verified once it is written was verified before. -/
theorem submitsVerified_of_verified (after : AllVerified (step service s event).shared) : SubmitsVerified s event := by
  cases event with
  | call id request => trivial
  | act outside => trivial
  | advance id answered =>
    cases answered with
    | false => trivial
    | true =>
      intro userId data documentUrl found brought
      rw [step_advance found] at after
      have written : (upsert s.shared userId (submitChange s.shared data)).records.lookup userId =
          some (submitChange s.shared data ((s.shared.records.lookup userId).getD .blank)) := AList.lookup_insert _
      exact after userId _ documentUrl written brought

/-- The promise holds along a run exactly when it starts with verified references and every
submission that is written brings a verified one, or none. -/
theorem referencesVerified_iff (w : World) (events : List Step) :
    ReferencesVerified w events ↔ AllVerified w ∧ Throughout (step service) SubmitsVerified (.fresh w) events := by
  constructor
  · rintro ⟨always, -⟩
    refine ⟨always_at always [] events rfl, throughout_of_at ?_⟩
    intro earlier event rest split
    apply submitsVerified_of_verified
    have after := always_at always (earlier ++ [event]) rest (by simp [split])
    rwa [run_append] at after
  · rintro ⟨initial, submits⟩
    refine ⟨?_, throughout_of_at fun _ event _ _ => step_unapproved _ event⟩
    exact always_of (fun s => AllVerified s.shared ∧ Each Backed s)
      (fun _ _ held submits => ⟨step_verified held.1 held.2 submits, step_backed held.2⟩)
      (fun _ held => held.1) ⟨initial, each_fresh _ w⟩ submits

/-- An account without a record, and nothing in the bucket. -/
def emptyWorld : World := ⟨0, ∅, ∅, []⟩

/-- A submission with a link of the user's own choice. -/
def submitsLink : List Step :=
  [.call 0 (.submitKyc "user" ⟨some "PASSPORT", some "s3://bucket/kyc-docs/user-123/passport.pdf"⟩), .advance 0 true]

/-- The link is stored as the document reference, and nothing was ever hashed. -/
theorem submitted_link_is_stored :
    ((run (step service) (.fresh emptyWorld) submitsLink).shared.records.lookup "user").bind (·.documentRef) =
        some "s3://bucket/kyc-docs/user-123/passport.pdf" ∧
      (run (step service) (.fresh emptyWorld) submitsLink).shared.hashed = [] ∧
      ¬ ReferencesVerified emptyWorld submitsLink := by
  have stored : ((run (step service) (.fresh emptyWorld) submitsLink).shared.records.lookup "user").bind
      (·.documentRef) = some "s3://bucket/kyc-docs/user-123/passport.pdf" := by decide +kernel
  have unhashed : (run (step service) (.fresh emptyWorld) submitsLink).shared.hashed = [] := by decide +kernel
  refine ⟨stored, unhashed, ?_⟩
  rintro ⟨⟨-, all⟩, -⟩
  obtain ⟨record, found, reference⟩ := Option.bind_eq_some_iff.mp stored
  obtain ⟨s3Key, content, member, -⟩ := all "user" record _ found reference
  rw [unhashed] at member
  cases member

end AfroPay.KycDocuments
