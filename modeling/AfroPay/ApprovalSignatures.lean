import AfroPay.Compliance
import AfroPay.JoinedText

/-! What an officer's signature binds. `signApproval` joins five fields and the
secret with colons; `execute` dispatches a job of six fields of the same row. -/
namespace AfroPay.Compliance
open JoinedText

/-- The variables of the process that the two functions read. -/
structure Environment where
  complianceSigningSecret : Option String
  jwtSecret : Option String
  stellarNetwork : Option String

def Environment.secret (env : Environment) : String :=
  (env.complianceSigningSecret <|> env.jwtSecret).getD "dev-secret"

/-- A loaded row of the action table, with the text of its id. -/
structure LoadedAction where
  id : String
  row : Action
  deriving DecidableEq

/-- One approval to be signed. -/
structure Approval where
  officerId : String
  action : LoadedAction
  deriving DecidableEq

/-- The fields that `signApproval` puts before the secret. -/
def Approval.signed (approval : Approval) : List String :=
  [approval.officerId, approval.action.id, approval.action.row.targetAccount, approval.action.row.assetCode,
    approval.action.row.amount.getD ""]

/-- The text that `signApproval` hashes. -/
def Approval.canonical (env : Environment) (approval : Approval) : String :=
  ":".intercalate (approval.signed ++ [env.secret])

/-- The job `execute` hands to the executor. -/
def LoadedAction.job (env : Environment) (action : LoadedAction) : ComplianceJobPayload String :=
  ⟨action.id, action.row.type, action.row.targetAccount, action.row.assetCode, action.row.assetIssuer,
    action.row.amount, networkOf env.stellarNetwork⟩

/-- The same officer would release the same job. -/
def Approval.Same (env : Environment) (first second : Approval) : Prop :=
  first.officerId = second.officerId ∧ first.action.job env = second.action.job env

instance (env : Environment) (first second : Approval) : Decidable (first.Same env second) :=
  inferInstanceAs (Decidable (_ ∧ _))

/-- A signature tells the two approvals apart if they differ in the officer or in the job. -/
def ToldApart (env : Environment) (first second : Approval) : Prop :=
  ¬ first.Same env second → first.canonical env ≠ second.canonical env

variable (env : Environment) (first second : Approval)

/-- Two approvals are signed alike when the colons of their fields and those between
them fall in the same places. -/
theorem canonical_eq_iff : first.canonical env = second.canonical env ↔
    pieces ':' (first.signed.map String.toList) = pieces ':' (second.signed.map String.toList) :=
  joined_strings_eq_iff ':' first.signed second.signed env.secret

/-- The secret plays no part in it, and neither do the type and the issuer. -/
theorem approvals_told_apart_iff : ToldApart env first second ↔
    first.Same env second ∨
      pieces ':' (first.signed.map String.toList) ≠ pieces ':' (second.signed.map String.toList) := by
  rw [ToldApart, Ne, canonical_eq_iff]
  exact Decidable.or_iff_not_imp_left.symm

/-- The clawback of an asset from one of its issuers. -/
def clawback (assetIssuer : String) : Approval where
  officerId := "officer-1"
  action :=
    ⟨"action-1", .clawback, .pendingApproval, "GTARGET", "USDC", some assetIssuer, some "100", none, "officer-1", none⟩

/-- A row that is given another issuer keeps its signatures. -/
theorem issuer_not_signed : ¬ ToldApart ⟨none, none, none⟩ (clawback "GISSUER") (clawback "GOTHER") := by
  intro apart
  exact apart (by decide) rfl

/-- Where no signed field holds a colon, the fields are told apart one by one, and an
absent amount from every amount but the empty one. -/
theorem told_apart_of_free (free : ∀ text ∈ first.signed, ':' ∉ text.toList)
    (free' : ∀ text ∈ second.signed, ':' ∉ text.toList) (differ : first.signed ≠ second.signed) :
    ToldApart env first second := by
  intro _ same
  have same_pieces := (canonical_eq_iff env first second).mp same
  rw [pieces_of_free (List.forall_mem_map.mpr free), pieces_of_free (List.forall_mem_map.mpr free')] at same_pieces
  exact differ (List.map_injective_iff.mpr (fun _ _ => String.toList_inj.mp) same_pieces)

end AfroPay.Compliance
