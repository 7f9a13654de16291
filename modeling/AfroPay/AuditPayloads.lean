import AfroPay.AuditLog
import AfroPay.CalendarDates

/-! What the hash of an audit row covers. The text that is hashed gives back every field, so a
changed row keeps its hash only where two texts have one SHA-256 digest. -/
namespace AfroPay.AuditLog
open Base64 CalendarDates IntegerText WebText

/-- The rows agree on every field that is hashed; absent metadata and the JSON `null` are one. -/
structure Agree (one two : Row) : Prop where
  id : one.id = two.id
  userId : one.userId = two.userId
  category : one.category = two.category
  operation : one.operation = two.operation
  outcome : one.outcome = two.outcome
  walletPublicKey : one.walletPublicKey = two.walletPublicKey
  amount : one.amount = two.amount
  assetCode : one.assetCode = two.assetCode
  destination : one.destination = two.destination
  txHash : one.txHash = two.txHash
  metadata : one.metadata.getD .null = two.metadata.getD .null
  previousHash : one.previousHash = two.previousHash
  createdAt : one.createdAt = two.createdAt

/-- The bytes that are hashed. -/
def payload (row : Row) : List UInt8 := utf8 (Json.stringify (canonical row))

/-- Two messages with one digest. -/
def Collide (message other : List UInt8) : Prop := message ≠ other ∧ Sha256.digest message = Sha256.digest other

variable {one two : Row}

theorem nullable_injective {text other : Option String} (same : nullable text = nullable other) : text = other := by
  cases text <;> cases other <;> simp_all [nullable]

theorem stringify_injective {value other : Json.Value} (same : Json.stringify value = Json.stringify other) :
    value = other := by
  have parsed := congrArg Json.parse same
  rwa [Json.parse_stringify, Json.parse_stringify, Option.some.injEq] at parsed

/-- The members of the hashed object stand in a fixed order, each under its own name. -/
theorem canonical_eq_iff : canonical one = canonical two ↔ Agree one two := by
  simp only [canonical, Json.Value.object.injEq, List.cons.injEq, Prod.mk.injEq, true_and, and_true,
    Json.Value.string.injEq]
  constructor
  · rintro ⟨id, userId, category, operation, outcome, walletPublicKey, amount, assetCode, destination, txHash, metadata,
      previousHash, createdAt⟩
    exact ⟨id, nullable_injective userId, category, operation, outcome, nullable_injective walletPublicKey,
      nullable_injective amount, nullable_injective assetCode, nullable_injective destination,
      nullable_injective txHash, metadata, nullable_injective previousHash, toISOString_injective createdAt⟩
  · intro agree
    simp only [agree.id, agree.userId, agree.category, agree.operation, agree.outcome, agree.walletPublicKey,
      agree.amount, agree.assetCode, agree.destination, agree.txHash, agree.metadata, agree.previousHash,
      agree.createdAt, and_self]

theorem payload_eq_iff : payload one = payload two ↔ Agree one two := by
  rw [← canonical_eq_iff]
  constructor
  · intro same
    exact stringify_injective (utf8_injective same)
  · intro same
    rw [payload, payload, same]

theorem hexDigest_eq_iff {message other : List UInt8} :
    Sha256.hexDigest message = Sha256.hexDigest other ↔ Sha256.digest message = Sha256.digest other := by
  constructor
  · intro same
    have digits := congrArg (fun text => fromHex text.toList) same
    simpa only [Sha256.hexDigest, String.toList_ofList, fromHex_toHex] using digits
  · intro same
    rw [Sha256.hexDigest, Sha256.hexDigest, same]

theorem hashEntry_eq_iff : hashEntry one = hashEntry two ↔ Agree one two ∨ Collide (payload one) (payload two) := by
  have digests : hashEntry one = hashEntry two ↔ Sha256.digest (payload one) = Sha256.digest (payload two) :=
    hexDigest_eq_iff
  rw [digests, ← payload_eq_iff, Collide]
  by_cases same : payload one = payload two
  · simp [same]
  · simp [same]

/-- Rows have one text exactly when they agree, and one hash exactly when they agree or their
texts collide; a row that takes over the hash of a sealed row is sealed by it in no other case. -/
theorem payload_exact (one two : Row) :
    (Json.stringify (canonical one) = Json.stringify (canonical two) ↔ Agree one two) ∧
      (hashEntry one = hashEntry two ↔ Agree one two ∨ Collide (payload one) (payload two)) ∧
      (Sealed one → two.hash = one.hash → (Sealed two ↔ Agree one two ∨ Collide (payload one) (payload two))) := by
  refine ⟨?_, hashEntry_eq_iff, ?_⟩
  · rw [← canonical_eq_iff]
    exact ⟨stringify_injective, congrArg Json.stringify⟩
  · intro sealed kept
    rw [Sealed] at sealed
    rw [Sealed, kept, sealed, Option.some.injEq, hashEntry_eq_iff]

def sealedRow : Row := { loggedRow with hash := some (hashEntry loggedRow) }

/-- A sealed row whose operation was changed. -/
def forgedRow : Row := { sealedRow with operation := "WALLET_DELETED" }

theorem payload_exact_forged :
    Sealed forgedRow ↔ Agree sealedRow forgedRow ∨ Collide (payload sealedRow) (payload forgedRow) :=
  (payload_exact sealedRow forgedRow).2.2 rfl rfl

end AfroPay.AuditLog
