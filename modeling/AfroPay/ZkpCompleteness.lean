import AfroPay.ZkpResidues

/-! Honest proofs are accepted. A bit proof answers its real branch with the blinding and its
other branch by simulation; bits and shares recombine to the value and the salt; and the offset
that turns the limit into a power of two is the one the auditor multiplies in. -/
namespace AfroPay.Zkp
open IntegerText Pedersen

variable {z : Parameters}

/-- What the auditor checks of one bit, in the group. -/
structure BitSound (z : Parameters) (x : z.Unit) (bp : BitProof) (challenge : Int) : Prop where
  announced0 : ∃ t, Represents z bp.t0 t ∧ Answers z.h x t bp.c0 bp.s0
  announced1 : ∃ t, Represents z bp.t1 t ∧ Answers z.h (x * z.g⁻¹) t bp.c1 bp.s1
  split : (bp.c0 + bp.c1) % z.Q = challenge
  scalars : 0 ≤ bp.c0 ∧ 0 ≤ bp.c1 ∧ 0 ≤ bp.s0 ∧ 0 ≤ bp.s1

theorem verifyBit_of_sound {commitmentB : Int} {x : z.Unit} {bp : BitProof} {ctx : List UInt8}
    (committed : Represents z commitmentB x)
    (sound : BitSound z x bp (z.hash [ctx, intBytes commitmentB, intBytes bp.t0, intBytes bp.t1])) :
    verifyBit z commitmentB bp.toDict ctx = some true := by
  obtain ⟨t, t0, answer0⟩ := sound.announced0
  obtain ⟨u, t1, answer1⟩ := sound.announced1
  obtain ⟨c0, c1, s0, s1⟩ := sound.scalars
  have first := (statement0_iff committed.nonneg committed.residue t0.nonneg t0.residue c0 s0).mpr answer0
  have second := (statement1_iff committed.nonneg committed.residue t1.nonneg t1.residue c1 s1).mpr answer1
  have split := sound.split
  rw [← Int.tmod_eq_emod_of_nonneg (by omega)] at split
  simp [verifyBit, BitProof.toDict, parseHex_hex, t0.nonneg, t1.nonneg, c0, c1, s0, s1, split, first, second]

/-- The two challenges of a proof add up to the hash. -/
private theorem challenge_split {q : Nat} {challenge fake : Int} (range : 0 ≤ challenge ∧ challenge < q) :
    ((challenge - fake) % q + fake) % q = challenge := by
  rw [Int.emod_add_emod, sub_add_cancel, Int.emod_eq_of_lt range.1 range.2]

/-- Both branches of a bit proof: the announcements stand for a known power of `h` and for one
computed backwards about the commitment without the other value. -/
private theorem proveBit_computes (z : Parameters) (draws : Nat → Nat) (drawn : Nat) {bit : Int}
    (binary : bit = 0 ∨ bit = 1) (r : Int) (ctx : List UInt8) :
    ∃ cB tReal tFake : Int, ∃ real fake : z.Unit, Represents z cB (commitment z.g z.h bit r) ∧
      Represents z tReal real ∧ Represents z tFake fake ∧
      (∀ challenge : Int, Answers z.h (z.h ^ r) real challenge ((draws drawn + challenge * r) % z.Q)) ∧
      Answers z.h (commitment z.g z.h bit r * (z.g ^ (1 - bit))⁻¹) fake (draws (drawn + 1)) (draws (drawn + 2)) ∧
      proveBit z draws drawn bit r ctx =
        let t0 := if bit = 0 then tReal else tFake
        let t1 := if bit = 0 then tFake else tReal
        let cReal := (z.hash [ctx, intBytes cB, intBytes t0, intBytes t1] - draws (drawn + 1) : Int) % z.Q
        let sReal := (draws drawn + cReal * r) % z.Q
        if bit = 0 then .ok ⟨t0, t1, cReal, draws (drawn + 1), sReal, draws (drawn + 2)⟩
        else .ok ⟨t0, t1, draws (drawn + 1), cReal, draws (drawn + 2), sReal⟩ := by
  obtain ⟨a, b, valued, blinded, committed⟩ := commitment_represents z bit r
  obtain ⟨tReal, realPow, real⟩ := pow_represents (cast_H z) (draws drawn)
  obtain ⟨d, otherPow, other⟩ := pow_represents (cast_G z) (1 - bit)
  obtain ⟨e, inversePow, inverse⟩ := pow_represents other.residue (-1)
  rw [zpow_neg_one] at inverse
  have fakeBase := committed.mul_emod inverse
  obtain ⟨f, responsePow, response⟩ := pow_represents (cast_H z) (draws (drawn + 2))
  obtain ⟨k, challengePow, challenge⟩ := pow_represents fakeBase.residue (-(draws (drawn + 1) : Int))
  have fake := response.mul_emod challenge
  have bytes := intBytesPy_eq committed.nonneg
  have realBytes := intBytesPy_eq real.nonneg
  have fakeBytes := intBytesPy_eq fake.nonneg
  refine ⟨a * b % z.P, tReal, f * k % z.P, _, _, committed, real, fake, fun _ => answers_honest z.h_torsion
    (Int.mod_modEq _ _), answers_simulated _ _ _ _, ?_⟩
  rcases binary with rfl | rfl
  · rw [sub_zero] at otherPow
    simp [proveBit, valued, blinded, realPow, otherPow, inversePow, responsePow, challengePow, bytes, realBytes,
      fakeBytes, bind, Except.bind, pure, Except.pure]
  · rw [sub_self] at otherPow
    simp [proveBit, valued, blinded, realPow, otherPow, inversePow, responsePow, challengePow, bytes, realBytes,
      fakeBytes, bind, Except.bind, pure, Except.pure]

theorem proveBit_sound (z : Parameters) (draws : Nat → Nat) (drawn : Nat) {bit : Int} (binary : bit = 0 ∨ bit = 1)
    (r : Int) (ctx : List UInt8) :
    ∃ cB bp, Represents z cB (commitment z.g z.h bit r) ∧ proveBit z draws drawn bit r ctx = .ok bp ∧
      BitSound z (commitment z.g z.h bit r) bp (z.hash [ctx, intBytes cB, intBytes bp.t0, intBytes bp.t1]) := by
  obtain ⟨cB, tReal, tFake, real, fake, committed, realTo, fakeTo, honest, simulated, proved⟩ :=
    proveBit_computes z draws drawn binary r ctx
  have nonneg : ∀ n : Int, 0 ≤ n % z.Q := fun n => Int.emod_nonneg n (by exact_mod_cast z.Q_pos.ne')
  have challenge : ∀ (parts : List (List UInt8)) (fake : Int), ((z.hash parts - fake) % z.Q + fake) % z.Q = z.hash parts :=
    fun parts fake => challenge_split ⟨by omega, by exact_mod_cast z.hash_lt parts⟩
  rcases binary with rfl | rfl
  · -- the real branch is statement 0
    have base : commitment z.g z.h 0 r = z.h ^ r := by rw [commitment, zpow_zero, one_mul]
    rw [sub_zero, zpow_one] at simulated
    refine ⟨cB, _, committed, proved, ⟨⟨real, realTo, ?_⟩, ⟨fake, fakeTo, simulated⟩, challenge _ _, ?_⟩⟩
    · rw [base]
      exact honest _
    · exact ⟨nonneg _, Int.natCast_nonneg _, nonneg _, Int.natCast_nonneg _⟩
  · -- the real branch is statement 1
    have base : commitment z.g z.h 1 r * z.g⁻¹ = z.h ^ r := by
      rw [commitment, zpow_one, mul_comm z.g, mul_assoc, mul_inv_cancel, mul_one]
    rw [sub_self, zpow_zero, inv_one, mul_one] at simulated
    refine ⟨cB, _, committed, proved, ⟨⟨fake, fakeTo, simulated⟩, ⟨real, realTo, ?_⟩, ?_, ?_⟩⟩
    · rw [base]
      exact honest _
    · rw [add_comm]
      exact challenge _ _
    · exact ⟨Int.natCast_nonneg _, nonneg _, Int.natCast_nonneg _, nonneg _⟩

/-- The step of the loop on both sides: the bit just proved is accepted, and its commitment enters
the product with the weight of its place. -/
theorem verifyBits_proveBits (z : Parameters) (draws : Nat → Nat) (drawn : Nat) (ctx : List UInt8) (i : Nat)
    {openings : List (Int × Int)} (binary : ∀ o ∈ openings, o.1 = 0 ∨ o.1 = 1) {acc : Int} {x : z.Unit}
    (accumulated : Represents z acc x) :
    ∃ proved result, proveBits z draws drawn ctx i openings = .ok proved ∧ proved.length = openings.length ∧
      verifyBits z ctx i acc (proved.map fun p => hex p.1) (proved.map fun p => p.2.toDict) = some (some result) ∧
      Represents z result (x * recombine (openings.map fun o => commitment z.g z.h o.1 o.2) ^ (2 ^ i)) := by
  induction openings generalizing i acc x with
  | nil => exact ⟨[], acc, rfl, rfl, rfl, by simpa [recombine] using accumulated⟩
  | cons o rest ih =>
    obtain ⟨bit, r⟩ := o
    obtain ⟨a, b, valued, blinded, committed⟩ := commitment_represents z bit r
    obtain ⟨cB, bp, committed', provedBit, sound⟩ :=
      proveBit_sound z draws (drawn + 3 * i) (binary _ List.mem_cons_self) r (ctx ++ intBytes i)
    obtain rfl := committed.unique committed'
    have accepted := verifyBit_of_sound committed sound
    have weighted := accumulated.mul_tmod (modPow_represents committed.nonneg committed.residue (e := 2 ^ i) (by positivity))
    obtain ⟨proved, result, provedRest, length, verified, represents⟩ :=
      ih (i + 1) (fun o mem => binary o (List.mem_cons_of_mem _ mem)) weighted
    have bytes := intBytesPy_eq (Int.natCast_nonneg i)
    refine ⟨(a * b % z.P, bp) :: proved, result, ?_, by simp [length], ?_, ?_⟩
    · simp [proveBits, valued, blinded, bytes, provedBit, provedRest, bind, Except.bind, pure, Except.pure]
    · simp only [List.map_cons, verifyBits, parseHex_hex committed.nonneg]
      simpa [accepted] using verified
    · rw [weight_recombines] at represents
      exact represents

/-! Bits and shares. -/

private theorem weigh_bitsOf (value : Int) (k : Nat) :
    weigh ((List.range k).map fun i => value / 2 ^ i % 2) = value - 2 ^ k * (value / 2 ^ k) := by
  induction k with
  | zero => simp [weigh]
  | succ k ih =>
    have halves : value / 2 ^ k % 2 = value / 2 ^ k - 2 * (value / 2 ^ (k + 1)) := by
      rw [pow_succ, ← Int.ediv_ediv_of_nonneg (by positivity), Int.emod_def]
    rw [List.range_succ, List.map_append, weigh_append, ih, List.map_singleton, weigh, weigh, halves,
      List.length_map, List.length_range]
    ring

theorem decomposeBits_fits {value : Int} {k : Nat} (nonneg : 0 ≤ value) (lt : value < 2 ^ k) :
    ∃ bits, decomposeBits value k = .ok bits ∧ bits.length = k ∧ (∀ b ∈ bits, b = 0 ∨ b = 1) ∧ weigh bits = value := by
  refine ⟨_, if_neg (by omega), by simp, ?_, ?_⟩
  · intro b mem
    obtain ⟨i, _, rfl⟩ := List.mem_map.mp mem
    omega
  · rw [weigh_bitsOf, Int.ediv_eq_zero_of_lt nonneg lt, mul_zero, sub_zero]

private theorem weigh_zipIdx (shares : List Int) (i : Nat) :
    ((shares.zipIdx i).map fun share => share.1 * 2 ^ share.2).sum = 2 ^ i * weigh shares := by
  induction shares generalizing i with
  | nil => simp [weigh]
  | cons share rest ih =>
    rw [List.zipIdx_cons, List.map_cons, List.sum_cons, ih, weigh]
    ring

/-- The shares weigh the salt modulo `Q`, if the weight of the last one can be inverted. -/
theorem splitSalt_weighs (draws : Nat → Nat) (drawn : Nat) (salt : Int) {k : Nat} (positive : 0 < k)
    (invertible : Int.gcd (2 ^ (k - 1)) z.Q = 1) :
    ∃ shares, splitSalt z draws drawn salt k = .ok shares ∧ shares.length = k ∧ weigh shares ≡ salt [ZMOD z.Q] := by
  obtain ⟨inv, computed, _, _, inverse⟩ := pow_negative z.Q_pos invertible 1
  rw [pow_one] at inverse
  have weighted := weigh_zipIdx ((List.range (k - 1)).map fun i => (draws (drawn + i) : Int)) 0
  rw [pow_zero, one_mul] at weighted
  simp only [splitSalt, weighted]
  rw [show (-1 : Int) = -((1 : Nat) : Int) from rfl, computed]
  refine ⟨_, rfl, by simp; omega, ?_⟩
  rw [← ZMod.intCast_eq_intCast_iff, weigh_append]
  simp only [weigh, mul_zero, add_zero, List.length_map, List.length_range, Int.cast_add, Int.cast_mul,
    (emod_cast z.Q_pos _).2.2, Int.cast_sub]
  rw [mul_left_comm, inverse, mul_one, add_sub_cancel]

/-- Range proofs of honest values are accepted against any number with the commitment's residue. -/
theorem verifyLtPow2_proveLtPow2 (z : Parameters) (draws : Nat → Nat) (drawn : Nat) {value salt : Int} {k : Nat}
    (positive : 0 < k) (invertible : Int.gcd (2 ^ (k - 1)) z.Q = 1) (nonneg : 0 ≤ value) (lt : value < 2 ^ k)
    (ctx : List UInt8) {c : Int} (committed : Represents z c (commitment z.g z.h value salt)) :
    ∃ rp, proveLtPow2 z draws drawn value salt k ctx = .ok rp ∧ verifyLtPow2 z c rp.toDict k ctx = some true := by
  obtain ⟨bits, decomposed, bits_length, binary, bits_weigh⟩ := decomposeBits_fits nonneg lt
  obtain ⟨shares, splitted, shares_length, shares_weigh⟩ := splitSalt_weighs draws drawn salt positive invertible
  have firsts : (bits.zip shares).map Prod.fst = bits := List.map_fst_zip (by omega)
  have seconds : (bits.zip shares).map Prod.snd = shares := List.map_snd_zip (by omega)
  have zipped : ∀ o ∈ bits.zip shares, o.1 = 0 ∨ o.1 = 1 := fun o mem => binary o.1 (List.of_mem_zip mem).1
  obtain ⟨proved, result, proves, length, verified, represents⟩ :=
    verifyBits_proveBits z draws (drawn + (k - 1)) ctx 0 zipped (represents_one z)
  rw [recombine_commitments, firsts, seconds, bits_weigh, pow_zero, pow_one, one_mul, commitment,
    zpow_congr z.h_torsion shares_weigh] at represents
  have same : result = c := represents.unique committed
  have reduced : c.tmod z.P = c := Int.tmod_eq_of_lt committed.nonneg committed.lt
  rw [List.length_zip] at length
  have size : proved.length = k := by omega
  refine ⟨⟨proved.map Prod.fst, proved.map Prod.snd⟩, ?_, ?_⟩
  · simp [proveLtPow2, decomposed, splitted, proves, bind, Except.bind, pure, Except.pure]
  · simp [verifyLtPow2, RangeProof.toDict, size, Function.comp_def, verified, same, reduced]

/-- The offset puts an amount within the limit below the next power of two, and no further. -/
theorem bitLength_offset {maxLimit : Int} (positive : 0 < maxLimit) : maxLimit < 2 ^ bitLength maxLimit := by
  obtain ⟨n, rfl⟩ := Int.eq_ofNat_of_zero_le positive.le
  have fits := Nat.lt_size_self n
  rw [bitLength, Int.natAbs_natCast]
  exact_mod_cast fits

/-- The auditor's upper commitment is the commitment to the shifted amount. -/
theorem upperCommitment_represents {c amount salt maxLimit : Int} {k : Nat}
    (committed : Represents z c (commitment z.g z.h amount salt)) (room : 0 ≤ 2 ^ k - 1 - maxLimit) :
    Represents z (upperCommitment z c k maxLimit) (commitment z.g z.h (amount + 2 ^ k - 1 - maxLimit) salt) := by
  have offset := modPow_represents (Int.natCast_nonneg z.G) (cast_G z) room
  have product := committed.mul_tmod offset
  rw [commitment, mul_right_comm, ← zpow_add] at product
  rw [commitment, show amount + 2 ^ k - 1 - maxLimit = amount + (2 ^ k - 1 - maxLimit) by ring]
  exact product

/-- The auditor accepts what the prover made of an amount, a salt and a limit. -/
def Accepted (z : Parameters) (draws : Nat → Nat) (amount salt maxLimit : Int) : Prop :=
  ∃ c proof, commit z amount salt = .ok c ∧ proveCompliance z draws amount salt maxLimit = .ok proof ∧
    verifyCompliance z (hex c) maxLimit proof.toDict = some true

/-- Honest proofs are accepted wherever the salt can be split. -/
theorem accepted_of_invertible (z : Parameters) (draws : Nat → Nat) {amount salt maxLimit : Int}
    (amount_nonneg : 0 ≤ amount) (within : amount ≤ maxLimit) (salt_nonneg : 0 ≤ salt) (positive : 0 < maxLimit)
    (invertible : Int.gcd (2 ^ (bitLength maxLimit - 1)) z.Q = 1) : Accepted z draws amount salt maxLimit := by
  obtain ⟨c, commits, committed⟩ := commit_represents z amount_nonneg salt_nonneg
  have fits := bitLength_offset positive
  have bits : 0 < bitLength maxLimit := Nat.size_pos.mpr (by omega)
  obtain ⟨lower, provedLower, verifiedLower⟩ := verifyLtPow2_proveLtPow2 z draws 0 bits invertible amount_nonneg
    (lt_of_le_of_lt within fits) amountCtx committed
  obtain ⟨upper, provedUpper, verifiedUpper⟩ := verifyLtPow2_proveLtPow2 z draws
    (bitLength maxLimit - 1 + 3 * bitLength maxLimit) bits invertible (by omega) (by omega) upperCtx
    (upperCommitment_represents committed (show 0 ≤ 2 ^ bitLength maxLimit - 1 - maxLimit by omega))
  refine ⟨c, ⟨c, maxLimit, bitLength maxLimit, lower, upper⟩, commits, ?_, ?_⟩
  · have amountSign : ¬ (amount < 0 ∨ salt < 0) := by omega
    have limitSign : ¬ maxLimit ≤ 0 := by omega
    simp [proveCompliance, amountSign, limitSign, not_lt.mpr within, commits, provedLower, provedUpper, bind,
      Except.bind, pure, Except.pure]
  · simp [verifyCompliance, ComplianceProof.toDict, bigInt_decimal positive.le, length_toText_two positive,
      parseHex_hex committed.nonneg, verifiedLower, verifiedUpper]

/-- A safe prime with two generators of its subgroup of prime order. -/
structure Parameters.SafePrime (z : Parameters) : Prop where
  prime_P : z.P.Prime
  prime_Q : z.Q.Prime
  safe : z.P = 2 * z.Q + 1
  order_G : orderOf (z.G : ZMod z.P) = z.Q
  order_H : orderOf (z.H : ZMod z.P) = z.Q

/-- Of prime order is any power of order dividing it, except the trivial one. -/
theorem Parameters.safePrime_of_nontrivial {z : Parameters} (prime_P : z.P.Prime) (prime_Q : z.Q.Prime)
    (safe : z.P = 2 * z.Q + 1) (g_ne : (z.G : ZMod z.P) ≠ 1) (h_ne : (z.H : ZMod z.P) ≠ 1) : z.SafePrime := by
  have : Fact z.Q.Prime := ⟨prime_Q⟩
  exact ⟨prime_P, prime_Q, safe, orderOf_eq_prime z.G_pow g_ne, orderOf_eq_prime z.H_pow h_ne⟩

/-- The safe prime 23 with the squares 4 and 9. -/
def small : Parameters where
  P := 23
  Q := 11
  G := 4
  H := 9
  hash := fun parts => (parts.flatten.map UInt8.toNat).sum % 11
  one_lt_P := by decide
  Q_pos := by decide
  G_pow := by decide
  H_pow := by decide
  hash_lt := fun parts => Nat.mod_lt _ (by decide)

theorem small_safePrime : small.SafePrime :=
  Parameters.safePrime_of_nontrivial (by decide +kernel) (by decide +kernel) rfl
    (show ((4 : Nat) : ZMod 23) ≠ 1 by decide) (show ((9 : Nat) : ZMod 23) ≠ 1 by decide)

/-- The safe prime 5, whose subgroup has order two. -/
def smallest : Parameters where
  P := 5
  Q := 2
  G := 4
  H := 4
  hash := fun parts => (parts.flatten.map UInt8.toNat).sum % 2
  one_lt_P := by decide
  Q_pos := by decide
  G_pow := by decide
  H_pow := by decide
  hash_lt := fun parts => Nat.mod_lt _ (by decide)

end AfroPay.Zkp
