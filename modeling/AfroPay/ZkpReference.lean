import AfroPay.IntegerReading
import AfroPay.Panics
import AfroPay.ZkpResidues

/-! The reference verifier of the Python service, and the equations between residues it decides.
It reads its numbers from the dictionary up front and accepts numbers of either sign. -/
namespace AfroPay.Zkp
open IntegerText Panics

def readInt (radix : Nat) (text : List Char) : Except PyError Int :=
  (pyInt radix text).mapError .valueError

def BitProof.fromDict (data : BitProofDto) : Except PyError BitProof := do
  return ⟨← readInt 16 data.t0, ← readInt 16 data.t1, ← readInt 16 data.c0, ← readInt 16 data.c1, ← readInt 16 data.s0,
    ← readInt 16 data.s1⟩

def RangeProof.fromDict (data : RangeProofDto) : Except PyError RangeProof := do
  return ⟨← data.bitCommitments.mapM (readInt 16), ← data.bitProofs.mapM BitProof.fromDict⟩

def ComplianceProof.fromDict (data : ComplianceProofDto) : Except PyError ComplianceProof := do
  return ⟨← readInt 16 data.commitment, ← readInt 10 data.maxLimit, data.k, ← RangeProof.fromDict data.amountRange,
    ← RangeProof.fromDict data.upperRange⟩

section Verifier
variable (z : Parameters)

end Verifier

/-- The second residue is the power of the first, with a negative exponent of its inverse. -/
def IsPower {m : Nat} (x : ZMod m) (e : Int) (y : ZMod m) : Prop :=
  if 0 ≤ e then x ^ e.toNat = y else x ^ e.natAbs * y = 1

/-- The response's power is the announcement times a power of the base. -/
def Answered (z : Parameters) (x : ZMod z.P) (t c s : Int) : Prop :=
  ∃ power, IsPower x c power ∧ IsPower (z.H : ZMod z.P) s (t * power)

section Residues
variable {z : Parameters}

end Residues

end AfroPay.Zkp
