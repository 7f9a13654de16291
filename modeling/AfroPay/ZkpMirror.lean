import AfroPay.ZkpEquivocation
import AfroPay.ZkpReference

/-! The auditor's verifier as a mirror of the reference verifier: both decide the same equations
on the same numbers, and differ in which texts, limits and commitments they take. -/
namespace AfroPay.Zkp
open IntegerText Panics ScriptText

def BitProofDto.texts (bp : BitProofDto) : List (List Char) := [bp.t0, bp.t1, bp.c0, bp.c1, bp.s0, bp.s1]

def RangeProofDto.texts (rp : RangeProofDto) : List (List Char) := rp.bitCommitments ++ rp.bitProofs.flatMap BitProofDto.texts

/-- The hexadecimal texts of a dictionary. -/
def ComplianceProofDto.texts (proof : ComplianceProofDto) : List (List Char) :=
  proof.commitment :: (proof.amountRange.texts ++ proof.upperRange.texts)

/-- A dictionary of the shape that `to_dict` writes. -/
structure ComplianceProofDto.WellFormed (proof : ComplianceProofDto) : Prop where
  hexadecimal : ∀ text ∈ proof.texts, Hexadecimal text
  decimal : Decimal proof.maxLimit

/-- The numbers a dictionary stands for. -/
def BitProofDto.values (bp : BitProofDto) : BitProof :=
  ⟨hexValue bp.t0, hexValue bp.t1, hexValue bp.c0, hexValue bp.c1, hexValue bp.s0, hexValue bp.s1⟩

def RangeProofDto.values (rp : RangeProofDto) : RangeProof :=
  ⟨rp.bitCommitments.map hexValue, rp.bitProofs.map BitProofDto.values⟩

def ComplianceProofDto.values (proof : ComplianceProofDto) : ComplianceProof :=
  ⟨hexValue proof.commitment, decimalValue proof.maxLimit, proof.k, proof.amountRange.values, proof.upperRange.values⟩

section Texts

end Texts

section Auditor
variable {z : Parameters}

private theorem answered_iff {x : ZMod z.P} {t c s : Int} (c_nonneg : 0 ≤ c) (s_nonneg : 0 ≤ s) :
    Answered z x t c s ↔ (z.H : ZMod z.P) ^ s.toNat = t * x ^ c.toNat := by
  simp [Answered, IsPower, c_nonneg, s_nonneg]

end Auditor

end AfroPay.Zkp
