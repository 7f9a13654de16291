import AfroPay.Sha256
import AfroPay.ZkpCompleteness

/-! The constants both services are deployed with. The second generator is a known power of the
first, so whoever reads the module opens any commitment to zero, and the auditor accepts. -/
namespace AfroPay.Zkp
open IntegerText Pedersen

/-- The 2048-bit MODP group 14, in the pieces of the source with their numbers of digits. -/
def groupPieces : List (Nat × Nat) :=
  [ (48, 0xFFFFFFFFFFFFFFFFC90FDAA22168C234C4C6628B80DC1CD1),
    (48, 0x29024E088A67CC74020BBEA63B139B22514A08798E3404DD),
    (48, 0xEF9519B3CD3A431B302B0A6DF25F14374FE1356D6D51C245),
    (48, 0xE485B576625E7EC6F44C42E9A637ED6B0BFF5CB6F406B7ED),
    (49, 0xEE386BFB5A899FA5AE9F24117C4B1FE649286651ECE45B3DC),
    (49, 0x2007CB8A163BF0598DA48361C55D39A69163FA8FD24CF5F83),
    (49, 0x655D23DCA3AD961C62F356208552BB9ED529077096966D670),
    (49, 0xC354E4ABC9804F1746C08CA18217C32905E462E36CE3BE39E),
    (49, 0x772C180E86039B2783A2EC07A28FB5C55DF06F4C52C9DE2BC),
    (50, 0xBF6955817183995497CEA956AE515D2261898FA051015728E5),
    (25, 0xA8AACAA68FFFFFFFFFFFFFFFF) ]

@[irreducible] def groupP : Nat := groupPieces.foldl (fun n piece => n * 16 ^ piece.1 + piece.2) 0

@[irreducible] def groupQ : Nat := (groupP - 1) / 2

/-- `int.from_bytes(sha256(..).digest(), "big")` of the nothing-up-my-sleeve string. -/
@[irreducible] def hExp : Nat := ofBytes (Sha256.digest (Base64.utf8 "AfroPay-ZKP-Pedersen-H-nothing-up-my-sleeve-v1".toList))

/-- What is hashed for a challenge: the domain, then each part behind its length in eight bytes. -/
def transcript (parts : List (List UInt8)) : List UInt8 :=
  Base64.utf8 "AfroPay-ZKP-Compliance-v1".toList ++ parts.flatMap fun part => toBytes 8 part.length ++ part

def hashToScalar (parts : List (List UInt8)) : Nat := ofBytes (Sha256.digest (transcript parts)) % groupQ

theorem groupP_large : 1 < groupP := by decide +kernel

theorem groupQ_pos : 0 < groupQ := by decide +kernel

/-- The first generator lies in the subgroup of order `Q`. -/
theorem four_torsion : ((4 : Nat) : ZMod groupP) ^ groupQ = 1 := by
  have computed : modPow 4 groupQ groupP = 1 := by decide +kernel
  have power := modPow_cast groupP_large 4 groupQ
  rw [computed, Int.toNat_natCast] at power
  simpa using power.symm

/-- The auditor's second generator, `modPow(G, H_EXP, P)`. -/
@[irreducible] def groupH : Nat := (modPow 4 hExp groupP).toNat

theorem groupH_residue : (groupH : ZMod groupP) = ((4 : Nat) : ZMod groupP) ^ hExp := by
  have nonneg := (modPow_range groupP_large (show (0 : Int) ≤ 4 by decide) hExp).1
  have power := modPow_cast groupP_large 4 hExp
  rw [Int.toNat_natCast] at power
  rw [groupH, ← Int.cast_natCast, Int.toNat_of_nonneg nonneg, power, Int.cast_ofNat, Nat.cast_ofNat]

/-- The prover computes the same generator with its built-in `pow`. -/
theorem pow_groupH : pow 4 hExp groupP = .ok (groupH : Int) := by
  have positive : 0 < groupP := by
    have large := groupP_large
    omega
  have range := modPow_range groupP_large (show (0 : Int) ≤ 4 by decide) hExp
  obtain ⟨nonneg, lt, residue⟩ := emod_cast positive ((4 : Int) ^ hExp)
  rw [pow_natCast, groupH, Int.toNat_of_nonneg range.1]
  refine congrArg _ (eq_of_cast_eq ⟨nonneg, lt⟩ range ?_)
  rw [residue, modPow_cast groupP_large, Int.toNat_natCast, Int.cast_pow]

/-- The constants of both services, with their hash. -/
def deployed : Parameters where
  P := groupP
  Q := groupQ
  G := 4
  H := groupH
  hash := hashToScalar
  one_lt_P := groupP_large
  Q_pos := groupQ_pos
  G_pow := four_torsion
  H_pow := by rw [groupH_residue, pow_right_comm, four_torsion, one_pow]
  hash_lt := fun _ => Nat.mod_lt _ groupQ_pos

/-- A blinding is worth as much as a value, once the logarithm of `h` is known. -/
private theorem commitment_shift {A : Type*} [CommGroup A] {g h : A} {q e : ℕ} {inv : ℤ} (torsion : g ^ q = 1)
    (known : h = g ^ e) (inverse : e * inv ≡ 1 [ZMOD q]) (value blinding : ℤ) :
    commitment g h 0 (blinding + value * inv) = commitment g h value blinding := by
  have worth : h ^ (value * inv) = g ^ value := by
    rw [known, ← zpow_natCast, ← zpow_mul]
    apply zpow_congr torsion
    have scaled := inverse.mul_left value
    rwa [mul_one, mul_left_comm] at scaled
  rw [commitment, commitment, zpow_zero, one_mul, zpow_add, worth, mul_comm]

/-- With any parameters whose logarithm is known, every commitment opens to zero. -/
theorem commit_equivocates {z : Parameters} {e : Nat} (known : (z.H : ZMod z.P) = (z.G : ZMod z.P) ^ e) {inv : Int}
    (inverse : e * inv ≡ 1 [ZMOD z.Q]) {amount salt : Int} (amount_nonneg : 0 ≤ amount) (salt_nonneg : 0 ≤ salt) :
    0 ≤ (salt + amount * inv) % z.Q ∧
      ∃ c, commit z amount salt = .ok c ∧ commit z 0 ((salt + amount * inv) % z.Q) = .ok c := by
  have logarithm : z.h = z.g ^ e := by
    apply Units.ext
    rw [Units.val_pow_eq_pow_val, z.coe_g, z.coe_h, known]
  have reduced := Int.emod_nonneg (salt + amount * inv) (show (z.Q : Int) ≠ 0 by exact_mod_cast z.Q_pos.ne')
  obtain ⟨c, commits, committed⟩ := commit_represents z amount_nonneg salt_nonneg
  obtain ⟨c', commits', committed'⟩ := commit_represents z le_rfl reduced
  rw [commitment, zpow_congr z.h_torsion (Int.mod_modEq _ _), ← commitment,
    commitment_shift z.g_torsion logarithm inverse] at committed'
  obtain rfl := committed.unique committed'
  exact ⟨reduced, c, commits, commits'⟩

/-- `(r + m * H_EXP^-1) mod Q`, from the constants of the module alone. -/
def equivocatingSalt (amount salt : Int) : Except PyError Int := do
  let inv ← pow hExp (-1) groupQ
  return (salt + amount * inv) % groupQ

private theorem hExp_invertible : Int.gcd hExp groupQ = 1 := by decide +kernel

private theorem groupQ_odd : Nat.Coprime 2 groupQ := by decide +kernel

/-- The salt exists, and opens the commitment of any amount to zero. -/
theorem equivocatingSalt_opens {amount salt : Int} (amount_nonneg : 0 ≤ amount) (salt_nonneg : 0 ≤ salt) :
    ∃ salt' c, equivocatingSalt amount salt = .ok salt' ∧ 0 ≤ salt' ∧ commit deployed amount salt = .ok c ∧
      commit deployed 0 salt' = .ok c := by
  obtain ⟨inv, computed, _, _, inverse⟩ := pow_negative groupQ_pos hExp_invertible 1
  have congruent : (hExp : ℤ) * inv ≡ 1 [ZMOD deployed.Q] := by
    rw [pow_one, ← Int.cast_mul, ← Int.cast_one] at inverse
    exact (ZMod.intCast_eq_intCast_iff _ _ _).mp inverse
  have known : (deployed.H : ZMod deployed.P) = (deployed.G : ZMod deployed.P) ^ hExp := groupH_residue
  obtain ⟨nonneg, c, commits, commits'⟩ := commit_equivocates known congruent amount_nonneg salt_nonneg
  refine ⟨_, c, ?_, nonneg, commits, commits'⟩
  rw [equivocatingSalt, show (-1 : Int) = -((1 : Nat) : Int) from rfl, computed]
  rfl

/-- Honest proofs are accepted under the deployed constants. -/
theorem deployed_accepts (draws : Nat → Nat) {amount salt maxLimit : Int} (amount_nonneg : 0 ≤ amount)
    (within : amount ≤ maxLimit) (salt_nonneg : 0 ≤ salt) (positive : 0 < maxLimit) :
    Accepted deployed draws amount salt maxLimit := by
  have invertible : Int.gcd (2 ^ (bitLength maxLimit - 1)) deployed.Q = 1 :=
    groupQ_odd.pow_left (bitLength maxLimit - 1)
  exact accepted_of_invertible deployed draws amount_nonneg within salt_nonneg positive invertible

/-- The auditor accepts a proof for zero against the commitment that opens to zero. -/
private theorem zero_accepted (draws : Nat → Nat) {salt maxLimit c : Int} (positive : 0 < maxLimit) (nonneg : 0 ≤ salt)
    (commits : commit deployed 0 salt = .ok c) :
    ∃ proof, proveCompliance deployed draws 0 salt maxLimit = .ok proof ∧
      verifyCompliance deployed (hex c) maxLimit proof.toDict = some true := by
  obtain ⟨c', proof, again, proved, verified⟩ := deployed_accepts draws le_rfl positive.le nonneg positive
  obtain rfl : c = c' := Except.ok.inj (commits.symm.trans again)
  exact ⟨proof, proved, verified⟩

/-- Every commitment to an amount beyond the limit is one to zero as well, under a salt computed
from public constants, and the proof for zero is accepted against it. -/
theorem commitments_equivocated (draws : Nat → Nat) {amount salt maxLimit : Int} (positive : 0 < maxLimit)
    (exceeds : maxLimit < amount) (salt_nonneg : 0 ≤ salt) :
    ∃ salt' c proof, equivocatingSalt amount salt = .ok salt' ∧ commit deployed amount salt = .ok c ∧
      commit deployed 0 salt' = .ok c ∧ proveCompliance deployed draws 0 salt' maxLimit = .ok proof ∧
      verifyCompliance deployed (hex c) maxLimit proof.toDict = some true := by
  have amount_nonneg : 0 ≤ amount := by omega
  obtain ⟨salt', c, computed, nonneg, commits, commits'⟩ := equivocatingSalt_opens amount_nonneg salt_nonneg
  obtain ⟨proof, proved, verified⟩ := zero_accepted draws positive nonneg commits'
  exact ⟨salt', c, proof, computed, commits, commits', proved, verified⟩

theorem commitments_equivocated_daily : ∃ salt' c proof, equivocatingSalt 5000000 42 = .ok salt' ∧
    commit deployed 5000000 42 = .ok c ∧ commit deployed 0 salt' = .ok c ∧
    proveCompliance deployed (fun n => n) 0 salt' 1000000 = .ok proof ∧
    verifyCompliance deployed (hex c) 1000000 proof.toDict = some true :=
  commitments_equivocated _ (by decide) (by decide) (by decide)

/-- One cent above the individual limit. -/
theorem above_limit_accepted : (200000 : Int) < 200001 ∧ ∃ salt' c proof, equivocatingSalt 200001 7 = .ok salt' ∧
    commit deployed 200001 7 = .ok c ∧ commit deployed 0 salt' = .ok c ∧
    proveCompliance deployed (fun _ => 1) 0 salt' 200000 = .ok proof ∧
    verifyCompliance deployed (hex c) 200000 proof.toDict = some true := by
  obtain ⟨salt', c, computed, nonneg, commits, commits'⟩ :=
    equivocatingSalt_opens (show (0 : Int) ≤ 200001 by decide) (show (0 : Int) ≤ 7 by decide)
  obtain ⟨proof, proved, verified⟩ := zero_accepted (fun _ => 1) (show (0 : Int) < 200000 by decide) nonneg commits'
  exact ⟨by decide, salt', c, proof, computed, commits, commits', proved, verified⟩

end AfroPay.Zkp
