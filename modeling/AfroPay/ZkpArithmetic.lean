import Mathlib.Data.Int.GCD
import Mathlib.Data.ZMod.Basic
import AfroPay.IntegerText
import AfroPay.Loops

/-! The integer arithmetic under the compliance proofs, once as the TypeScript auditor writes it
over `BigInt` and once as the Python prover has it built in, and what both compute modulo `P`. -/
namespace AfroPay.Zkp
open IntegerText Loops

/-- The loop of `modPow`; the fuel bounds the bits of `e`. -/
def modPowLoop (mod : Int) : (fuel e : Nat) → (base result : Int) → Int
  | 0, _, _, result => result
  | fuel + 1, e, base, result =>
    if 0 < e then
      modPowLoop mod fuel (e / 2) ((base * base).tmod mod) (if e % 2 = 1 then (result * base).tmod mod else result)
    else result

/-- Square and multiply. `%` of `BigInt` keeps the sign of the dividend, and a negative exponent
enters no round. -/
def modPow (base exp mod : Int) : Int :=
  if mod = 1 then 0 else modPowLoop mod exp.toNat.size exp.toNat (base.tmod mod) 1

/-- The loop of `modInverse`; the fuel bounds the remainder `r`. -/
def modInverseLoop : (fuel : Nat) → (oldR r oldS s : Int) → Int
  | 0, _, _, oldS, _ => oldS
  | fuel + 1, oldR, r, oldS, s =>
    if r ≠ 0 then modInverseLoop fuel r (oldR - oldR.tdiv r * r) s (oldS - oldR.tdiv r * s) else oldS

/-- Extended Euclid. -/
def modInverse (a mod : Int) : Int :=
  ((modInverseLoop (mod.toNat + 1) ((a.tmod mod + mod).tmod mod) mod 1 0).tmod mod + mod).tmod mod

/-- `intBytes` of the auditor. -/
def intBytes (value : Int) : List UInt8 :=
  if value = 0 then [0] else fromHex (padEven (toText 16 value))

inductive PyError where
  | valueError (message : String)
  | overflowError (message : String)
  | assertionError
  deriving Repr, DecidableEq

/-- `_int_bytes` of the prover. -/
def intBytesPy (value : Int) : Except PyError (List UInt8) :=
  let length := (bitLength value + 7) / 8
  if value < 0 then .error (.overflowError "can't convert negative int to unsigned")
  else .ok (toBytes (if length = 0 then 1 else length) value.toNat)

/-- Python's three-argument `pow` for a positive modulus. -/
def pow (base exp modulus : Int) : Except PyError Int :=
  if 0 ≤ exp then .ok (base ^ exp.toNat % modulus)
  else if Int.gcd base modulus = 1 then .ok ((Int.gcdA base modulus % modulus) ^ exp.natAbs % modulus)
  else .error (.valueError "base is not invertible for the given modulus")

/-! Residues. -/

theorem cast_tmod {m : Nat} (a : Int) : ((a.tmod m : Int) : ZMod m) = a := by
  have split := congrArg (Int.cast : Int → ZMod m) (Int.mul_tdiv_add_tmod a m)
  simpa using split

theorem tmod_range {m : Nat} (positive : 0 < m) {a : Int} (nonneg : 0 ≤ a) : 0 ≤ a.tmod m ∧ a.tmod m < m :=
  ⟨Int.tmod_nonneg _ nonneg, Int.tmod_lt_of_pos a (by omega)⟩

/-- Two reduced numbers with one residue are equal. -/
theorem eq_of_cast_eq {m : Nat} {a b : Int} (left : 0 ≤ a ∧ a < m) (right : 0 ≤ b ∧ b < m)
    (residue : (a : ZMod m) = b) : a = b := by
  rw [ZMod.intCast_eq_intCast_iff] at residue
  rwa [Int.ModEq, Int.emod_eq_of_lt left.1 left.2, Int.emod_eq_of_lt right.1 right.2] at residue

section Power

/-- The variables of `modPow` in its loop. -/
structure PowState where
  e : Nat
  base : Int
  result : Int

def PowState.round (mod : Int) (s : PowState) : PowState where
  e := s.e / 2
  base := (s.base * s.base).tmod mod
  result := if s.e % 2 = 1 then (s.result * s.base).tmod mod else s.result

theorem modPowLoop_eq (mod : Int) (fuel : Nat) (s : PowState) : modPowLoop mod fuel s.e s.base s.result =
    (runFor (fun s : PowState => 0 < s.e) (PowState.round mod) fuel s).result := by
  induction fuel generalizing s with
  | zero => rfl
  | succ fuel ih =>
    rw [modPowLoop, runFor]
    split
    · exact ih (s.round mod)
    · rfl

/-- The loop of `modPow` ends with its result. -/
theorem modPow_ends {mod : Int} (ne_one : mod ≠ 1) (base exp : Int) :
    ∃ t, Ends (fun s : PowState => 0 < s.e) (PowState.round mod) ⟨exp.toNat, base.tmod mod, 1⟩ t ∧
      t.result = modPow base exp mod := by
  refine ⟨_, runFor_ends (fun _ => True) (fun s => s.e.size) (fun _ _ _ => trivial) ?_ trivial le_rfl, ?_⟩
  · intro s _ goes
    have some_bits : 0 < s.e.size := Nat.size_pos.mpr goes
    have fits := Nat.lt_size_self s.e
    have halved : (s.e / 2).size ≤ s.e.size - 1 := by
      rw [Nat.size_le]
      have power : 2 ^ s.e.size = 2 * 2 ^ (s.e.size - 1) := by
        rw [← pow_succ', Nat.sub_add_cancel some_bits]
      omega
    change (s.e / 2).size < s.e.size
    omega
  · rw [modPow, if_neg ne_one]
    exact (modPowLoop_eq mod _ ⟨exp.toNat, base.tmod mod, 1⟩).symm

variable {m : Nat}

/-- A round moves a part of the power that is left into the result. -/
theorem round_power (s : PowState) :
    ((s.round m).result * (s.round m).base ^ (s.round m).e : ZMod m) = s.result * s.base ^ s.e := by
  simp only [PowState.round]
  rw [cast_tmod, Int.cast_mul, ← pow_two, ← pow_mul]
  by_cases odd : s.e % 2 = 1
  · rw [if_pos odd, cast_tmod, Int.cast_mul, mul_assoc, ← pow_succ', ← odd, Nat.div_add_mod]
  · rw [if_neg odd, show 2 * (s.e / 2) = s.e by omega]

/-- A round keeps both variables reduced. -/
theorem round_range (positive : 0 < m) {s : PowState} (base_nonneg : 0 ≤ s.base)
    (range : 0 ≤ s.result ∧ s.result < m) :
    0 ≤ (s.round m).base ∧ 0 ≤ (s.round m).result ∧ (s.round m).result < m := by
  refine ⟨(tmod_range positive (Int.mul_nonneg base_nonneg base_nonneg)).1, ?_⟩
  simp only [PowState.round]
  split
  · exact tmod_range positive (Int.mul_nonneg range.1 base_nonneg)
  · exact range

/-- `modPow` is the power of the residue. -/
theorem modPow_cast (one_lt : 1 < m) (base exp : Int) :
    (modPow base exp m : ZMod m) = (base : ZMod m) ^ exp.toNat := by
  obtain ⟨t, ends, result⟩ := modPow_ends (by omega : (m : Int) ≠ 1) base exp
  obtain ⟨power, done⟩ := ends.invariant
    (fun s => (s.result * s.base ^ s.e : ZMod m) = (base : ZMod m) ^ exp.toNat)
    (fun s kept _ => (round_power s).trans kept) (by rw [cast_tmod, Int.cast_one, one_mul])
  have zero : t.e = 0 := by omega
  rwa [zero, pow_zero, mul_one, result] at power

theorem modPow_range (one_lt : 1 < m) {base : Int} (nonneg : 0 ≤ base) (exp : Int) :
    0 ≤ modPow base exp m ∧ modPow base exp m < m := by
  have positive : 0 < m := by omega
  have one_lt_cast : (1 : Int) < m := by omega
  obtain ⟨t, ends, result⟩ := modPow_ends one_lt_cast.ne' base exp
  have reduced := ends.invariant (fun s : PowState => 0 ≤ s.base ∧ 0 ≤ s.result ∧ s.result < m)
    (fun _ kept _ => round_range positive kept.1 kept.2) ⟨(tmod_range positive nonneg).1, zero_le_one, one_lt_cast⟩
  rw [← result]
  exact reduced.1.2

end Power

section Inverse

/-- The variables of `modInverse` in its loop. -/
structure EuclidState where
  oldR : Int
  r : Int
  oldS : Int
  s : Int

def EuclidState.round (t : EuclidState) : EuclidState :=
  let q := t.oldR.tdiv t.r
  ⟨t.r, t.oldR - q * t.r, t.s, t.oldS - q * t.s⟩

theorem modInverseLoop_eq (fuel : Nat) (t : EuclidState) : modInverseLoop fuel t.oldR t.r t.oldS t.s =
    (runFor (fun t : EuclidState => t.r ≠ 0) EuclidState.round fuel t).oldS := by
  induction fuel generalizing t with
  | zero => rfl
  | succ fuel ih =>
    rw [modInverseLoop, runFor]
    split
    · exact ih t.round
    · rfl

/-- Where the loop of `modInverse` begins. -/
def EuclidState.start (a mod : Int) : EuclidState := ⟨(a.tmod mod + mod).tmod mod, mod, 1, 0⟩

theorem round_r (t : EuclidState) : t.round.r = t.oldR.tmod t.r := by
  have parts := Int.mul_tdiv_add_tmod t.oldR t.r
  have product := mul_comm t.r (t.oldR.tdiv t.r)
  simp only [EuclidState.round]
  omega

/-- The loop of `modInverse` ends with what is then reduced. -/
theorem modInverse_ends {mod : Int} (positive : 0 < mod) (a : Int) :
    ∃ t, Ends (fun t : EuclidState => t.r ≠ 0) EuclidState.round (.start a mod) t ∧
      modInverse a mod = (t.oldS.tmod mod + mod).tmod mod := by
  have above : -mod < a.tmod mod := Int.lt_tmod_of_pos a positive
  have initial : 0 ≤ (EuclidState.start a mod).oldR ∧ 0 ≤ (EuclidState.start a mod).r :=
    ⟨Int.tmod_nonneg _ (by omega), positive.le⟩
  have ends : Ends (fun t : EuclidState => t.r ≠ 0) EuclidState.round (.start a mod)
      (runFor (fun t : EuclidState => t.r ≠ 0) EuclidState.round (mod.toNat + 1) (.start a mod)) := by
    refine runFor_ends (fun t => 0 ≤ t.oldR ∧ 0 ≤ t.r) (fun t => t.r.toNat) ?_ ?_ initial (Nat.le_succ mod.toNat)
    · rintro t ⟨oldR_nonneg, r_nonneg⟩ -
      refine ⟨r_nonneg, ?_⟩
      rw [round_r]
      exact Int.tmod_nonneg _ oldR_nonneg
    · rintro t ⟨oldR_nonneg, r_nonneg⟩ goes
      have below : t.oldR.tmod t.r < t.r := Int.tmod_lt_of_pos _ (by omega)
      rw [round_r]
      omega
  refine ⟨_, ends, ?_⟩
  rw [modInverse, ← modInverseLoop_eq (mod.toNat + 1) (.start a mod)]
  rfl

variable {m : Nat}

/-- Both remainders are multiples of `a` by the cofactors, and coprime. -/
structure Tracks (a : ZMod m) (t : EuclidState) : Prop where
  oldR_nonneg : 0 ≤ t.oldR
  r_nonneg : 0 ≤ t.r
  coprime : Int.gcd t.oldR t.r = 1
  old : a * t.oldS = t.oldR
  current : a * t.s = t.r

theorem Tracks.round {a : ZMod m} {t : EuclidState} (tracks : Tracks a t) : Tracks a t.round where
  oldR_nonneg := tracks.r_nonneg
  r_nonneg := by
    rw [round_r]
    exact Int.tmod_nonneg _ tracks.oldR_nonneg
  coprime := by
    change Int.gcd t.r (t.oldR - t.oldR.tdiv t.r * t.r) = 1
    rw [Int.gcd_sub_mul_right_right, Int.gcd_comm, tracks.coprime]
  old := tracks.current
  current := by
    simp only [EuclidState.round]
    push_cast
    rw [mul_sub, tracks.old, mul_left_comm, tracks.current]

/-- Once the last remainder is zero, the one before is the greatest common divisor. -/
theorem Tracks.inverse {a : ZMod m} {t : EuclidState} (tracks : Tracks a t) (done : t.r = 0) : a * t.oldS = 1 := by
  have one := tracks.coprime
  have nonneg := tracks.oldR_nonneg
  rw [done, Int.gcd_zero_right] at one
  rw [tracks.old, show t.oldR = 1 by omega, Int.cast_one]

private theorem normalise (positive : 0 < m) (a : Int) :
    0 ≤ (a.tmod m + m).tmod m ∧ (a.tmod m + m).tmod m < m ∧ ((a.tmod m + m).tmod m : ZMod m) = a := by
  have above : -(m : Int) < a.tmod m := Int.lt_tmod_of_pos a (by omega)
  have range := tmod_range positive (show 0 ≤ a.tmod m + m by omega)
  refine ⟨range.1, range.2, ?_⟩
  rw [cast_tmod, Int.cast_add, cast_tmod, Int.cast_natCast, ZMod.natCast_self, add_zero]

theorem modInverse_range (positive : 0 < m) (a : Int) : 0 ≤ modInverse a m ∧ modInverse a m < m :=
  ⟨(normalise positive _).1, (normalise positive _).2.1⟩

/-- `modInverse` inverts what is coprime to the modulus. -/
theorem modInverse_cast (positive : 0 < m) {a : Int} (coprime : Int.gcd a m = 1) :
    (a : ZMod m) * modInverse a m = 1 := by
  obtain ⟨nonneg, lt, residue⟩ := normalise positive a
  have congruent := (ZMod.intCast_eq_intCast_iff _ _ _).mp residue
  have same := Int.gcd_sub_right_left_of_dvd a congruent.dvd
  rw [sub_sub_cancel, coprime] at same
  have initial : Tracks (a : ZMod m) (.start a m) :=
    ⟨nonneg, by simp [EuclidState.start], same, by simp [EuclidState.start, residue], by simp [EuclidState.start]⟩
  obtain ⟨t, ends, result⟩ := modInverse_ends (by omega : 0 < (m : Int)) a
  obtain ⟨tracks, done⟩ := ends.invariant (Tracks (a : ZMod m)) (fun _ kept _ => kept.round) initial
  rw [result, (normalise positive _).2.2, tracks.inverse (not_not.mp done)]

end Inverse

/-- Python's `pow` with a natural exponent. -/
theorem pow_natCast {m : Nat} (base : Int) (e : Nat) : pow base e m = .ok (base ^ e % m) := by
  rw [pow, if_pos (by omega), Int.toNat_natCast]

/-- Reduced, and the power of the residue. -/
theorem emod_cast {m : Nat} (positive : 0 < m) (a : Int) : 0 ≤ a % m ∧ a % m < m ∧ ((a % m : Int) : ZMod m) = a :=
  ⟨Int.emod_nonneg a (by omega), Int.emod_lt_of_pos a (by omega), by simp⟩

/-- Python's `pow` with a negative exponent raises the inverse. -/
theorem pow_negative {m : Nat} (positive : 0 < m) {base : Int} (coprime : Int.gcd base m = 1) (e : Nat) :
    ∃ result, pow base (-e) m = .ok result ∧ 0 ≤ result ∧ result < m ∧ (base : ZMod m) ^ e * result = 1 := by
  by_cases zero : e = 0
  · subst zero
    obtain ⟨nonneg, lt, residue⟩ := emod_cast positive 1
    refine ⟨1 % m, by simp [pow], nonneg, lt, ?_⟩
    rw [residue, pow_zero, Int.cast_one, mul_one]
  · obtain ⟨nonneg, lt, residue⟩ := emod_cast positive ((Int.gcdA base m % m) ^ e)
    have bezout := congrArg (Int.cast : Int → ZMod m) (Int.gcd_eq_gcd_ab base m)
    refine ⟨(Int.gcdA base m % m) ^ e % m, ?_, nonneg, lt, ?_⟩
    · rw [pow, if_neg (by omega), if_pos coprime, Int.natAbs_neg, Int.natAbs_natCast]
    · rw [coprime] at bezout
      simp only [Nat.cast_one, Int.cast_one, Int.cast_add, Int.cast_mul, Int.cast_natCast, ZMod.natCast_self, zero_mul,
        add_zero] at bezout
      rw [residue, Int.cast_pow, (emod_cast positive _).2.2, ← mul_pow, ← bezout, one_pow]

/-- Both encoders write one byte string. -/
theorem intBytesPy_eq {value : Int} (nonneg : 0 ≤ value) : intBytesPy value = .ok (intBytes value) := by
  obtain ⟨n, rfl⟩ := Int.eq_ofNat_of_zero_le nonneg
  have length : (if (bitLength n + 7) / 8 = 0 then 1 else (bitLength n + 7) / 8) = max 1 ((n.size + 7) / 8) := by
    rw [bitLength, Int.natAbs_natCast]
    split <;> omega
  dsimp only [intBytesPy]
  have unsigned : ¬ (n : Int) < 0 := by omega
  rw [if_neg unsigned, length, Int.toNat_natCast, ← fromHex_toDigits, intBytes, toText, if_neg unsigned,
    Int.natAbs_natCast]
  split
  case isTrue zero =>
    obtain rfl : n = 0 := by omega
    rfl
  case isFalse => rfl

end AfroPay.Zkp
