import AfroPay.Base64
import AfroPay.ZkpArithmetic

/-! Zero-knowledge compliance proofs: the prover of the Python analytics service, the dictionary
it sends, and the auditor's verifier in TypeScript. Group and challenge hash are parameters of
both, and the scalars the prover draws are a tape. -/
namespace AfroPay.Zkp
open IntegerText

/-- The module constants `P`, `Q`, `G`, `H` and the Fiat–Shamir hash of a transcript. Both
generators have an order that divides `Q`, and challenges are scalars. -/
structure Parameters where
  P : Nat
  Q : Nat
  G : Nat
  H : Nat
  hash : List (List UInt8) → Nat
  one_lt_P : 1 < P
  Q_pos : 0 < Q
  G_pow : (G : ZMod P) ^ Q = 1
  H_pow : (H : ZMod P) ^ Q = 1
  hash_lt : ∀ parts : List (List UInt8), hash parts < Q

structure BitProofDto where
  t0 : List Char
  t1 : List Char
  c0 : List Char
  c1 : List Char
  s0 : List Char
  s1 : List Char
  deriving Repr, DecidableEq

structure RangeProofDto where
  bitCommitments : List (List Char)
  bitProofs : List BitProofDto
  deriving Repr, DecidableEq

structure ComplianceProofDto where
  commitment : List Char
  maxLimit : List Char
  k : Int
  amountRange : RangeProofDto
  upperRange : RangeProofDto
  deriving Repr, DecidableEq

structure BitProof where
  t0 : Int
  t1 : Int
  c0 : Int
  c1 : Int
  s0 : Int
  s1 : Int
  deriving Repr, DecidableEq

structure RangeProof where
  bitCommitments : List Int
  bitProofs : List BitProof
  deriving Repr, DecidableEq

structure ComplianceProof where
  commitment : Int
  maxLimit : Int
  k : Int
  amountRange : RangeProof
  upperRange : RangeProof
  deriving Repr, DecidableEq

def BitProof.toDict (bp : BitProof) : BitProofDto :=
  ⟨hex bp.t0, hex bp.t1, hex bp.c0, hex bp.c1, hex bp.s0, hex bp.s1⟩

def RangeProof.toDict (rp : RangeProof) : RangeProofDto where
  bitCommitments := rp.bitCommitments.map hex
  bitProofs := rp.bitProofs.map BitProof.toDict

def ComplianceProof.toDict (proof : ComplianceProof) : ComplianceProofDto where
  commitment := hex proof.commitment
  maxLimit := toText 10 proof.maxLimit
  k := proof.k
  amountRange := proof.amountRange.toDict
  upperRange := proof.upperRange.toDict

/-- The base contexts of the two range proofs. -/
def amountCtx : List UInt8 := Base64.utf8 "amount".toList

def upperCtx : List UInt8 := Base64.utf8 "upper".toList

section Prover
variable (z : Parameters)

def commit (amount salt : Int) : Except PyError Int := do
  if amount < 0 ∨ salt < 0 then throw (.valueError "amount and salt must be non-negative")
  let value ← pow z.G amount z.P
  let blinding ← pow z.H (salt % z.Q) z.P
  return value * blinding % z.P

/-- Little-endian bits of `value >> i & 1`. -/
def decomposeBits (value : Int) (k : Nat) : Except PyError (List Int) :=
  if value < 0 ∨ 2 ^ k ≤ value then throw (.valueError s!"value {value} does not fit in {k} bits")
  else return (List.range k).map fun i => value / 2 ^ i % 2

/-- `drawn` scalars were taken from the tape before; this takes `k - 1`. -/
def splitSalt (draws : Nat → Nat) (drawn : Nat) (salt : Int) (k : Nat) : Except PyError (List Int) := do
  let shares := (List.range (k - 1)).map fun i => (draws (drawn + i) : Int)
  let weighted := (shares.zipIdx.map fun share => share.1 * 2 ^ share.2).sum % (z.Q : Int)
  let inv ← pow (2 ^ (k - 1)) (-1) z.Q
  return shares ++ [(salt - weighted) % z.Q * inv % z.Q]

/-- One real and one simulated branch; takes three scalars. -/
def proveBit (draws : Nat → Nat) (drawn : Nat) (bit r : Int) (ctx : List UInt8) : Except PyError BitProof := do
  if ¬ (bit = 0 ∨ bit = 1) then throw .assertionError
  let cB := (← pow z.G bit z.P) * (← pow z.H r z.P) % z.P
  let w := (draws drawn : Int)
  let tReal ← pow z.H w z.P
  let cFake := (draws (drawn + 1) : Int)
  let sFake := (draws (drawn + 2) : Int)
  let xFake := cB * (← pow (← pow z.G (1 - bit) z.P) (-1) z.P) % z.P
  let tFake := (← pow z.H sFake z.P) * (← pow xFake (-cFake) z.P) % z.P
  let t0 := if bit = 0 then tReal else tFake
  let t1 := if bit = 0 then tFake else tReal
  let c := (z.hash [ctx, ← intBytesPy cB, ← intBytesPy t0, ← intBytesPy t1] : Int)
  let cReal := (c - cFake) % z.Q
  let sReal := (w + cReal * r) % z.Q
  if bit = 0 then return ⟨t0, t1, cReal, cFake, sReal, sFake⟩
  else return ⟨t0, t1, cFake, cReal, sFake, sReal⟩

/-- The loop of `_prove_lt_pow2` from index `i` on. -/
def proveBits (draws : Nat → Nat) (drawn : Nat) (ctx : List UInt8) :
    (i : Nat) → List (Int × Int) → Except PyError (List (Int × BitProof))
  | _, [] => return []
  | i, (bit, r) :: rest => do
    let cI := (← pow z.G bit z.P) * (← pow z.H r z.P) % z.P
    let proof ← proveBit z draws (drawn + 3 * i) bit r (ctx ++ (← intBytesPy i))
    let others ← proveBits draws drawn ctx (i + 1) rest
    return (cI, proof) :: others

def proveLtPow2 (draws : Nat → Nat) (drawn : Nat) (value salt : Int) (k : Nat) (ctx : List UInt8) :
    Except PyError RangeProof := do
  let bits ← decomposeBits value k
  let shares ← splitSalt z draws drawn salt k
  let proved ← proveBits z draws (drawn + (k - 1)) ctx 0 (bits.zip shares)
  return ⟨proved.map Prod.fst, proved.map Prod.snd⟩

def proveCompliance (draws : Nat → Nat) (amount salt maxLimit : Int) : Except PyError ComplianceProof := do
  if amount < 0 ∨ salt < 0 then throw (.valueError "amount and salt must be non-negative")
  if maxLimit ≤ 0 then throw (.valueError "max_limit must be positive")
  if maxLimit < amount then
    throw (.valueError s!"amount {amount} exceeds compliance limit {maxLimit}; refusing to prove")
  let k := bitLength maxLimit
  let c ← commit z amount salt
  let amountRange ← proveLtPow2 z draws 0 amount salt k amountCtx
  let u := amount + 2 ^ k - 1 - maxLimit
  let upperRange ← proveLtPow2 z draws (k - 1 + 3 * k) u salt k upperCtx
  return ⟨c, maxLimit, k, amountRange, upperRange⟩

end Prover

/-- A hexadecimal text with or without its mark; nothing for the `SyntaxError` of `BigInt`. -/
def parseHex (value : List Char) : Option Int :=
  bigInt (if ['0', 'x'].isPrefixOf value then value else '0' :: 'x' :: value)

section Verifier
variable (z : Parameters)

/-- Statement 0: the committed bit is 0. -/
def statement0 (commitmentB t0 c0 s0 : Int) : Bool :=
  modPow z.H s0 z.P = (t0 * modPow commitmentB c0 z.P).tmod z.P

/-- Statement 1: the committed bit is 1. -/
def statement1 (commitmentB t1 c1 s1 : Int) : Bool :=
  let x1 := (commitmentB * modInverse z.G z.P).tmod z.P
  modPow z.H s1 z.P = (t1 * modPow x1 c1 z.P).tmod z.P

def verifyBit (commitmentB : Int) (bp : BitProofDto) (ctx : List UInt8) : Option Bool := do
  let t0 ← parseHex bp.t0
  let t1 ← parseHex bp.t1
  let c := z.hash [ctx, intBytes commitmentB, intBytes t0, intBytes t1]
  let c0 ← parseHex bp.c0
  let c1 ← parseHex bp.c1
  if (c0 + c1).tmod z.Q ≠ c then return false
  let s0 ← parseHex bp.s0
  if ¬ statement0 z commitmentB t0 c0 s0 then return false
  let s1 ← parseHex bp.s1
  return statement1 z commitmentB t1 c1 s1

/-- The loop of `verifyLtPow2` from index `i` on: the reconstructed product, or nothing inside if
a bit was refused. The lists are as long as each other by then. -/
def verifyBits (baseCtx : List UInt8) : (i : Nat) → (reconstructed : Int) → List (List Char) → List BitProofDto →
    Option (Option Int)
  | i, reconstructed, commitment :: commitments, bp :: bps => do
    let cI ← parseHex commitment
    if ¬ (← verifyBit z cI bp (baseCtx ++ intBytes i)) then return none
    verifyBits baseCtx (i + 1) ((reconstructed * modPow cI (2 ^ i) z.P).tmod z.P) commitments bps
  | _, reconstructed, _, _ => some (some reconstructed)

def verifyLtPow2 (commitmentC : Int) (rp : RangeProofDto) (k : Int) (baseCtx : List UInt8) : Option Bool := do
  if (rp.bitCommitments.length : Int) ≠ k ∨ (rp.bitProofs.length : Int) ≠ k then return false
  match ← verifyBits z baseCtx 0 1 rp.bitCommitments rp.bitProofs with
  | none => return false
  | some reconstructed => return reconstructed = commitmentC.tmod z.P

/-- `C * G^(2^k - 1 - max_limit)`, which commits to the amount plus that offset. -/
def upperCommitment (c : Int) (k : Nat) (maxLimit : Int) : Int :=
  (c * modPow z.G (2 ^ k - 1 - maxLimit) z.P).tmod z.P

/-- Whether the auditor accepts, or nothing where a number cannot be read. -/
def verifyCompliance (commitmentHex : List Char) (maxLimit : Int) (proof : ComplianceProofDto) : Option Bool := do
  if (← bigInt proof.maxLimit) ≠ maxLimit then return false
  if proof.k ≠ ((toText 2 maxLimit).length : Int) then return false
  let c ← parseHex commitmentHex
  if (← parseHex proof.commitment) ≠ c then return false
  if ¬ (← verifyLtPow2 z c proof.amountRange proof.k amountCtx) then return false
  if ¬ (← verifyLtPow2 z (upperCommitment z c proof.k.toNat maxLimit) proof.upperRange proof.k upperCtx) then
    return false
  return true

end Verifier

end AfroPay.Zkp
