import Mathlib.Data.ZMod.Units
import AfroPay.Pedersen
import AfroPay.ZkpCompliance

/-! The integers both sides compute with, as residues in the group the two generators span:
every operation of the prover and of the auditor is the group's own. -/
namespace AfroPay.Zkp
open IntegerText Pedersen

namespace Parameters
variable (z : Parameters)

abbrev Unit := (ZMod z.P)ˣ

/-- The generator of values. -/
def g : z.Unit := Units.ofPowEqOne (z.G : ZMod z.P) z.Q z.G_pow z.Q_pos.ne'

/-- The generator of blindings. -/
def h : z.Unit := Units.ofPowEqOne (z.H : ZMod z.P) z.Q z.H_pow z.Q_pos.ne'

theorem P_pos : 0 < z.P := by
  have one_lt := z.one_lt_P
  omega

@[simp] theorem coe_g : (z.g : ZMod z.P) = z.G := rfl

@[simp] theorem coe_h : (z.h : ZMod z.P) = z.H := rfl

theorem g_torsion : z.g ^ z.Q = 1 := Units.ext z.G_pow

theorem h_torsion : z.h ^ z.Q = 1 := Units.ext z.H_pow

end Parameters

variable {z : Parameters}

/-- A reduced number and the unit it stands for. -/
structure Represents (z : Parameters) (n : Int) (x : z.Unit) : Prop where
  nonneg : 0 ≤ n
  lt : n < z.P
  residue : (n : ZMod z.P) = x

theorem Represents.unique {a b : Int} {x : z.Unit} (left : Represents z a x) (right : Represents z b x) : a = b :=
  eq_of_cast_eq ⟨left.nonneg, left.lt⟩ ⟨right.nonneg, right.lt⟩ (left.residue.trans right.residue.symm)

theorem represents_one (z : Parameters) : Represents z 1 1 where
  nonneg := by decide
  lt := by exact_mod_cast z.one_lt_P
  residue := by simp

theorem represents_emod {a : Int} {x : z.Unit} (residue : (a : ZMod z.P) = x) : Represents z (a % z.P) x := by
  obtain ⟨nonneg, lt, reduced⟩ := emod_cast z.P_pos a
  exact ⟨nonneg, lt, reduced.trans residue⟩

theorem represents_tmod {a : Int} {x : z.Unit} (nonneg : 0 ≤ a) (residue : (a : ZMod z.P) = x) :
    Represents z (a.tmod z.P) x := by
  have range := tmod_range z.P_pos nonneg
  exact ⟨range.1, range.2, (cast_tmod a).trans residue⟩

theorem Represents.mul_cast {a b : Int} {x y : z.Unit} (left : Represents z a x) (right : Represents z b y) :
    ((a * b : Int) : ZMod z.P) = (x * y : z.Unit) := by
  rw [Int.cast_mul, left.residue, right.residue, Units.val_mul]

theorem Represents.mul_emod {a b : Int} {x y : z.Unit} (left : Represents z a x) (right : Represents z b y) :
    Represents z (a * b % z.P) (x * y) :=
  represents_emod (left.mul_cast right)

theorem Represents.mul_tmod {a b : Int} {x y : z.Unit} (left : Represents z a x) (right : Represents z b y) :
    Represents z ((a * b).tmod z.P) (x * y) :=
  represents_tmod (Int.mul_nonneg left.nonneg right.nonneg) (left.mul_cast right)

theorem gcd_of_residue {a : Int} {x : z.Unit} (residue : (a : ZMod z.P) = x) : Int.gcd a z.P = 1 := by
  have unit : IsUnit (a : ZMod z.P) := residue ▸ x.isUnit
  rw [ZMod.coe_int_isUnit_iff_isCoprime] at unit
  exact Int.isCoprime_iff_gcd_eq_one.mp unit.symm

/-- Python's `pow` modulo `P` is the group's, whatever the sign of the exponent. -/
theorem pow_represents {base : Int} {x : z.Unit} (residue : (base : ZMod z.P) = x) (e : Int) :
    ∃ n, pow base e z.P = .ok n ∧ Represents z n (x ^ e) := by
  by_cases sign : 0 ≤ e
  · obtain ⟨k, rfl⟩ := Int.eq_ofNat_of_zero_le sign
    refine ⟨base ^ k % z.P, pow_natCast base k, represents_emod ?_⟩
    rw [Int.cast_pow, residue, zpow_natCast, Units.val_pow_eq_pow_val]
  · obtain ⟨k, rfl⟩ : ∃ k : Nat, e = -(k : Int) := ⟨e.natAbs, by omega⟩
    obtain ⟨n, computed, nonneg, lt, inverse⟩ := pow_negative z.P_pos (gcd_of_residue residue) k
    refine ⟨n, computed, nonneg, lt, ?_⟩
    rw [residue, ← Units.val_pow_eq_pow_val] at inverse
    rw [zpow_neg, zpow_natCast]
    exact (Units.inv_eq_of_mul_eq_one_right inverse).symm

/-- The auditor's `modPow` is the group's for exponents it can receive. -/
theorem modPow_represents {base : Int} {x : z.Unit} (nonneg : 0 ≤ base) (residue : (base : ZMod z.P) = x) {e : Int}
    (sign : 0 ≤ e) : Represents z (modPow base e z.P) (x ^ e) := by
  obtain ⟨k, rfl⟩ := Int.eq_ofNat_of_zero_le sign
  have range := modPow_range z.one_lt_P nonneg k
  refine ⟨range.1, range.2, ?_⟩
  rw [modPow_cast z.one_lt_P, residue, Int.toNat_natCast, zpow_natCast, Units.val_pow_eq_pow_val]

theorem modInverse_represents {base : Int} {x : z.Unit} (residue : (base : ZMod z.P) = x) :
    Represents z (modInverse base z.P) x⁻¹ := by
  have range := modInverse_range z.P_pos base
  have inverse := modInverse_cast z.P_pos (gcd_of_residue residue)
  rw [residue] at inverse
  exact ⟨range.1, range.2, (Units.inv_eq_of_mul_eq_one_right inverse).symm⟩

theorem cast_G (z : Parameters) : ((z.G : Int) : ZMod z.P) = z.g := by
  rw [Int.cast_natCast, z.coe_g]

theorem cast_H (z : Parameters) : ((z.H : Int) : ZMod z.P) = z.h := by
  rw [Int.cast_natCast, z.coe_h]

/-- A commitment is the product both languages form from two powers. -/
theorem commitment_represents (z : Parameters) (value blinding : Int) :
    ∃ a b, pow z.G value z.P = .ok a ∧ pow z.H blinding z.P = .ok b ∧
      Represents z (a * b % z.P) (commitment z.g z.h value blinding) := by
  obtain ⟨a, left, valued⟩ := pow_represents (cast_G z) value
  obtain ⟨b, right, blinded⟩ := pow_represents (cast_H z) blinding
  exact ⟨a, b, left, right, valued.mul_emod blinded⟩

theorem commit_represents (z : Parameters) {amount salt : Int} (amount_nonneg : 0 ≤ amount) (salt_nonneg : 0 ≤ salt) :
    ∃ c, commit z amount salt = .ok c ∧ Represents z c (commitment z.g z.h amount salt) := by
  obtain ⟨a, b, left, right, represents⟩ := commitment_represents z amount (salt % z.Q)
  have reduced : z.h ^ (salt % z.Q) = z.h ^ salt := zpow_congr z.h_torsion (Int.mod_modEq salt z.Q)
  rw [commitment, reduced] at represents
  refine ⟨a * b % z.P, ?_, represents⟩
  rw [commit, if_neg (by omega), left, right]
  rfl

/-- The shape of both statements: the response's power against the announcement times a power. -/
private theorem answer_residue {base t c s : Int} (base_nonneg : 0 ≤ base) (t_nonneg : 0 ≤ t) :
    modPow z.H s z.P = (t * modPow base c z.P).tmod z.P ↔
      (z.H : ZMod z.P) ^ s.toNat = t * (base : ZMod z.P) ^ c.toNat := by
  have left := modPow_range z.one_lt_P (Int.natCast_nonneg z.H) s
  have power := modPow_range z.one_lt_P base_nonneg c
  have right := tmod_range z.P_pos (Int.mul_nonneg t_nonneg power.1)
  have response : ((modPow z.H s z.P : Int) : ZMod z.P) = (z.H : ZMod z.P) ^ s.toNat := by
    rw [modPow_cast z.one_lt_P, Int.cast_natCast]
  rw [← response, ← modPow_cast z.one_lt_P, ← Int.cast_mul, ← cast_tmod (t * _)]
  exact ⟨congrArg _, eq_of_cast_eq left right⟩

/-- Statement 0 is the answer equation about the commitment. -/
theorem statement0_residue {commitmentB t0 c0 s0 : Int} (committed : 0 ≤ commitmentB) (announced : 0 ≤ t0) :
    statement0 z commitmentB t0 c0 s0 = true ↔
      (z.H : ZMod z.P) ^ s0.toNat = t0 * (commitmentB : ZMod z.P) ^ c0.toNat := by
  rw [statement0, decide_eq_true_eq]
  exact answer_residue committed announced

/-- Statement 1 is the answer equation about the commitment without its generator of values. -/
theorem statement1_residue {commitmentB t1 c1 s1 : Int} (committed : 0 ≤ commitmentB) (announced : 0 ≤ t1) :
    statement1 z commitmentB t1 c1 s1 = true ↔
      (z.H : ZMod z.P) ^ s1.toNat = t1 * (commitmentB * (z.g⁻¹ : z.Unit) : ZMod z.P) ^ c1.toNat := by
  have inverse := modInverse_represents (cast_G z)
  have quotient := tmod_range z.P_pos (Int.mul_nonneg committed inverse.nonneg)
  rw [statement1, decide_eq_true_eq]
  have residue := answer_residue (z := z) (t := t1) (c := c1) (s := s1) quotient.1 announced
  rwa [cast_tmod, Int.cast_mul, inverse.residue] at residue

private theorem answers_residue {x t : z.Unit} {c s : Int} (c_nonneg : 0 ≤ c) (s_nonneg : 0 ≤ s) :
    (z.H : ZMod z.P) ^ s.toNat = t * (x : ZMod z.P) ^ c.toNat ↔ Answers z.h x t c s := by
  obtain ⟨m, rfl⟩ := Int.eq_ofNat_of_zero_le c_nonneg
  obtain ⟨n, rfl⟩ := Int.eq_ofNat_of_zero_le s_nonneg
  rw [Answers, Units.ext_iff, zpow_natCast, zpow_natCast, Units.val_mul, Units.val_pow_eq_pow_val,
    Units.val_pow_eq_pow_val, z.coe_h, Int.toNat_natCast, Int.toNat_natCast]

theorem statement0_iff {commitmentB t0 c0 s0 : Int} {x t : z.Unit} (committed : 0 ≤ commitmentB)
    (commits : (commitmentB : ZMod z.P) = x) (announced : 0 ≤ t0) (announces : (t0 : ZMod z.P) = t)
    (c0_nonneg : 0 ≤ c0) (s0_nonneg : 0 ≤ s0) :
    statement0 z commitmentB t0 c0 s0 = true ↔ Answers z.h x t c0 s0 := by
  rw [statement0_residue committed announced, commits, announces]
  exact answers_residue c0_nonneg s0_nonneg

theorem statement1_iff {commitmentB t1 c1 s1 : Int} {x t : z.Unit} (committed : 0 ≤ commitmentB)
    (commits : (commitmentB : ZMod z.P) = x) (announced : 0 ≤ t1) (announces : (t1 : ZMod z.P) = t)
    (c1_nonneg : 0 ≤ c1) (s1_nonneg : 0 ≤ s1) :
    statement1 z commitmentB t1 c1 s1 = true ↔ Answers z.h (x * z.g⁻¹) t c1 s1 := by
  rw [statement1_residue committed announced, commits, announces, ← Units.val_mul]
  exact answers_residue c1_nonneg s1_nonneg

/-- The auditor reads the numbers the prover wrote. -/
@[simp] theorem parseHex_hex {n : Int} (nonneg : 0 ≤ n) : parseHex (hex n) = some n := by
  have marked : ['0', 'x'].isPrefixOf (hex n) = true := by
    rw [hex, if_neg (by omega)]
    rfl
  rw [parseHex, if_pos marked, bigInt_hex nonneg]

end AfroPay.Zkp
