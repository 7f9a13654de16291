import AfroPay.ZkpCompleteness

/-! What accepted equations say about the commitments. The auditor checks neither that a bit
commitment lies in the subgroup of order `Q` nor that scalars are reduced: two transcripts open a
bit exactly when the commitment does lie there. Opened bits recombine to an opened amount. -/
namespace AfroPay.Zkp
open IntegerText Pedersen

variable {z : Parameters}

/-- The number is a commitment to the value under the blinding, modulo `P`. -/
def OpensTo (z : Parameters) (n : Int) (value blinding : Nat) : Prop :=
  (n : ZMod z.P) = (z.G : ZMod z.P) ^ value * (z.H : ZMod z.P) ^ blinding

/-- A commitment's opening in the group, with natural exponents. -/
theorem opensTo_of_commitment {n value blinding : Int} (nonneg : 0 ≤ value)
    (committed : (n : ZMod z.P) = (commitment z.g z.h value blinding : z.Unit)) : ∃ r, OpensTo z n value.toNat r := by
  obtain ⟨v, rfl⟩ := Int.eq_ofNat_of_zero_le nonneg
  have positive : (0 : Int) < z.Q := by exact_mod_cast z.Q_pos
  obtain ⟨r, reduced⟩ := Int.eq_ofNat_of_zero_le (Int.emod_nonneg blinding positive.ne')
  refine ⟨r, ?_⟩
  have power : z.h ^ blinding = z.h ^ r := by
    rw [← zpow_natCast, ← zpow_congr z.h_torsion (Int.mod_modEq blinding z.Q), reduced]
  rw [OpensTo, committed, commitment, power, zpow_natCast, Units.val_mul, Units.val_pow_eq_pow_val,
    Units.val_pow_eq_pow_val, z.coe_g, z.coe_h, Int.toNat_natCast]

theorem commitment_of_opensTo {n : Int} {value blinding : Nat} (opens : OpensTo z n value blinding) :
    (n : ZMod z.P) = (commitment z.g z.h value blinding : z.Unit) := by
  rw [opens, commitment, zpow_natCast, zpow_natCast, Units.val_mul, Units.val_pow_eq_pow_val,
    Units.val_pow_eq_pow_val, z.coe_g, z.coe_h]

/-- Whatever opens lies in the subgroup. -/
theorem torsion_of_opensTo {n : Int} {value blinding : Nat} (opens : OpensTo z n value blinding) :
    (n : ZMod z.P) ^ z.Q = 1 := by
  rw [opens, mul_pow, pow_right_comm, z.G_pow, one_pow, pow_right_comm, z.H_pow, one_pow, one_mul]

/-- An answered challenge leaves no room for a residue that is not invertible. -/
private theorem isUnit_of_answer {base t : ZMod z.P} {c s : Int} (answer : (z.H : ZMod z.P) ^ s.toNat = t * base ^ c.toNat)
    (positive : 0 < c) : IsUnit base := by
  have unit : IsUnit (t * base ^ c.toNat) := answer ▸ (z.h.isUnit.pow _)
  exact (isUnit_pow_iff (by omega)).mp (isUnit_of_mul_isUnit_right unit)

private theorem isUnit_announcement {base t : ZMod z.P} {c s : Int}
    (answer : (z.H : ZMod z.P) ^ s.toNat = t * base ^ c.toNat) : IsUnit t := by
  have unit : IsUnit (t * base ^ c.toNat) := answer ▸ (z.h.isUnit.pow _)
  exact isUnit_of_mul_isUnit_left unit

/-- The numbers of a transcript of one bit as the auditor reads them: all of them natural. -/
structure Split where
  c0 : Nat
  c1 : Nat
  s0 : Nat
  s1 : Nat

/-- Both equations hold of the commitment and its announcements under the split. -/
def Split.Holds (split : Split) (z : Parameters) (commitmentB t0 t1 : Nat) : Prop :=
  statement0 z commitmentB t0 split.c0 split.s0 = true ∧ statement1 z commitmentB t1 split.c1 split.s1 = true

/-- Two splits whose challenges add up differently leave an invertible commitment. -/
private theorem commitment_unit {commitmentB t0 t1 : Nat} {a b : Split} (first : a.Holds z commitmentB t0 t1)
    (second : b.Holds z commitmentB t0 t1) (distinct : a.c0 + a.c1 ≠ b.c0 + b.c1) :
    IsUnit ((commitmentB : Int) : ZMod z.P) := by
  have nonneg := Int.natCast_nonneg commitmentB
  have zero : ∀ {split : Split}, split.Holds z commitmentB t0 t1 → 0 < split.c0 →
      IsUnit ((commitmentB : Int) : ZMod z.P) := fun holds positive =>
    isUnit_of_answer ((statement0_residue nonneg (Int.natCast_nonneg t0)).mp holds.1) (by exact_mod_cast positive)
  have one : ∀ {split : Split}, split.Holds z commitmentB t0 t1 → 0 < split.c1 →
      IsUnit ((commitmentB : Int) : ZMod z.P) := fun holds positive =>
    isUnit_of_mul_isUnit_left
      (isUnit_of_answer ((statement1_residue nonneg (Int.natCast_nonneg t1)).mp holds.2) (by exact_mod_cast positive))
  have some_challenge : 0 < a.c0 ∨ 0 < a.c1 ∨ 0 < b.c0 ∨ 0 < b.c1 := by omega
  rcases some_challenge with positive | positive | positive | positive
  · exact zero first positive
  · exact one first positive
  · exact zero second positive
  · exact one second positive

/-- In the group, a transcript answers both challenges about one commitment. -/
private theorem answers_of_holds {commitmentB t0 t1 : Nat} {x t u : z.Unit} {split : Split}
    (commits : ((commitmentB : Int) : ZMod z.P) = x) (announces0 : ((t0 : Int) : ZMod z.P) = t)
    (announces1 : ((t1 : Int) : ZMod z.P) = u) (holds : split.Holds z commitmentB t0 t1) :
    Answers z.h x t split.c0 split.s0 ∧ Answers z.h (x * z.g⁻¹) u split.c1 split.s1 :=
  ⟨(statement0_iff (Int.natCast_nonneg _) commits (Int.natCast_nonneg _) announces0 (Int.natCast_nonneg _)
      (Int.natCast_nonneg _)).mp holds.1,
    (statement1_iff (Int.natCast_nonneg _) commits (Int.natCast_nonneg _) announces1 (Int.natCast_nonneg _)
      (Int.natCast_nonneg _)).mp holds.2⟩

/-- Two transcripts after the same announcements open the bit, if its commitment lies in the
subgroup of order `Q`. -/
theorem bit_opens_of_torsion (prime : z.Q.Prime) {commitmentB t0 t1 : Nat} {a b : Split}
    (first : a.Holds z commitmentB t0 t1) (second : b.Holds z commitmentB t0 t1)
    (distinct : (a.c0 + a.c1) % z.Q ≠ (b.c0 + b.c1) % z.Q) (torsion : (commitmentB : ZMod z.P) ^ z.Q = 1) :
    ∃ bit r, bit ≤ 1 ∧ OpensTo z commitmentB bit r := by
  obtain ⟨x, commits⟩ := commitment_unit first second (fun same => distinct (congrArg (· % z.Q) same))
  obtain ⟨t, announces0⟩ := isUnit_announcement
    ((statement0_residue (Int.natCast_nonneg _) (Int.natCast_nonneg _)).mp first.1)
  obtain ⟨u, announces1⟩ := isUnit_announcement
    ((statement1_residue (Int.natCast_nonneg _) (Int.natCast_nonneg _)).mp first.2)
  obtain ⟨first0, first1⟩ := answers_of_holds commits.symm announces0.symm announces1.symm first
  obtain ⟨second0, second1⟩ := answers_of_holds commits.symm announces0.symm announces1.symm second
  have killed : x ^ z.Q = 1 := by
    apply Units.ext
    rw [Units.val_pow_eq_pow_val, commits, Int.cast_natCast, torsion, Units.val_one]
  by_cases same : (a.c0 : Int) ≡ b.c0 [ZMOD z.Q]
  · -- then the challenges of statement 1 differ
    have other : ¬ (a.c1 : Int) ≡ b.c1 [ZMOD z.Q] := fun also => distinct (by exact_mod_cast same.add also)
    have killed' : (x * z.g⁻¹) ^ z.Q = 1 := by rw [mul_pow, inv_pow, killed, z.g_torsion, inv_one, one_mul]
    obtain ⟨r, logarithm⟩ := logarithm_of_answers prime killed' other first1 second1
    have opened : x = commitment z.g z.h 1 r := by
      rw [commitment, zpow_one, mul_comm, ← logarithm, inv_mul_cancel_right]
    obtain ⟨r, opens⟩ := opensTo_of_commitment (z := z) (n := commitmentB) (show (0 : Int) ≤ 1 by decide)
      (commits.symm.trans (by rw [opened]))
    exact ⟨1, r, le_rfl, opens⟩
  · obtain ⟨r, logarithm⟩ := logarithm_of_answers prime killed same first0 second0
    have opened : x = commitment z.g z.h 0 r := by rw [commitment, zpow_zero, one_mul, logarithm]
    obtain ⟨r, opens⟩ := opensTo_of_commitment (z := z) (n := commitmentB) le_rfl (commits.symm.trans (by rw [opened]))
    exact ⟨0, r, by decide, opens⟩

/-- The product of the loop of `verifyLtPow2` from index `i` on. -/
def reconstruct (z : Parameters) : (i : Nat) → (reconstructed : Int) → List Int → Int
  | _, reconstructed, [] => reconstructed
  | i, reconstructed, cI :: rest => reconstruct z (i + 1) ((reconstructed * modPow cI (2 ^ i) z.P).tmod z.P) rest

/-- Of every bit commitment an opening to a bit is known. -/
def BitsOpen (z : Parameters) (commitments : List Int) : Prop :=
  ∀ c ∈ commitments, ∃ bit r, bit ≤ 1 ∧ OpensTo z c bit r

/-- A number the auditor read, perhaps not reduced, and the unit it stands for. -/
def StandsFor (z : Parameters) (c : Int) (u : z.Unit) : Prop := 0 ≤ c ∧ (c : ZMod z.P) = u

private theorem bitsOpen_units {commitments : List Int} (nonneg : ∀ c ∈ commitments, 0 ≤ c)
    (opened : BitsOpen z commitments) :
    ∃ units : List z.Unit, units.length = commitments.length ∧
      List.Forall₂ (StandsFor z) commitments units ∧
      ∀ u ∈ units, ∃ bit blinding : ℤ, (bit = 0 ∨ bit = 1) ∧ u = commitment z.g z.h bit blinding := by
  induction commitments with
  | nil => exact ⟨[], rfl, .nil, by simp⟩
  | cons c rest ih =>
    obtain ⟨bit, r, small, opens⟩ := opened c List.mem_cons_self
    obtain ⟨units, length, stand, others⟩ := ih (fun c mem => nonneg c (List.mem_cons_of_mem _ mem))
      fun c mem => opened c (List.mem_cons_of_mem _ mem)
    refine ⟨commitment z.g z.h bit r :: units, by simp [length],
      .cons ⟨nonneg c List.mem_cons_self, commitment_of_opensTo opens⟩ stand, ?_⟩
    intro u mem
    rcases List.mem_cons.mp mem with rfl | mem
    · exact ⟨bit, r, by omega, rfl⟩
    · exact others u mem

/-- The step of the product: a commitment enters with the weight of its place. -/
theorem reconstruct_represents {commitments : List Int} {units : List z.Unit}
    (stand : List.Forall₂ (StandsFor z) commitments units) (i : Nat) {acc : Int} {x : z.Unit}
    (accumulated : Represents z acc x) :
    Represents z (reconstruct z i acc commitments) (x * recombine units ^ (2 ^ i)) := by
  induction stand generalizing i acc x with
  | nil => simpa [reconstruct, recombine] using accumulated
  | @cons c u commitments units head tail ih =>
    have weighted := ih (i + 1) (accumulated.mul_tmod (modPow_represents head.1 head.2 (e := 2 ^ i) (by positivity)))
    rw [weight_recombines] at weighted
    exact weighted

/-- If all bits open and their product is the commitment, the commitment opens to a value of that
many bits. -/
theorem reconstruct_opens {commitments : List Int} (nonneg : ∀ c ∈ commitments, 0 ≤ c)
    (opened : BitsOpen z commitments) {c : Int} (check : reconstruct z 0 1 commitments = c.tmod z.P) :
    ∃ value r, value < 2 ^ commitments.length ∧ OpensTo z c value r := by
  obtain ⟨units, length, stand, bits⟩ := bitsOpen_units nonneg opened
  have represents := reconstruct_represents stand 0 (represents_one z)
  obtain ⟨value, blinding, value_nonneg, small, combined⟩ := recombine_opens bits
  rw [pow_zero, pow_one, one_mul, combined, check] at represents
  obtain ⟨r, opens⟩ := opensTo_of_commitment value_nonneg ((cast_tmod c).symm.trans represents.residue)
  refine ⟨value.toNat, r, ?_, opens⟩
  rw [length] at small
  zify
  omega

/-- The reconstruction check of `verifyLtPow2` over commitments read from a range proof. -/
structure Reconstructs (z : Parameters) (rp : RangeProofDto) (k : Nat) (commitmentC : Int) (commitments : List Int) :
    Prop where
  length : rp.bitCommitments.length = k
  parsed : List.Forall₂ (fun text c => parseHex text = some c) rp.bitCommitments commitments
  check : reconstruct z 0 1 commitments = commitmentC.tmod z.P

private theorem verifyBits_reconstructs {ctx : List UInt8} {i : Nat} {acc result : Int} {texts : List (List Char)}
    {bps : List BitProofDto} (length : texts.length = bps.length)
    (verified : verifyBits z ctx i acc texts bps = some (some result)) :
    ∃ commitments, List.Forall₂ (fun text c => parseHex text = some c) texts commitments ∧
      reconstruct z i acc commitments = result := by
  induction texts generalizing i acc bps with
  | nil =>
    cases bps with
    | nil => exact ⟨[], .nil, by simpa [verifyBits, reconstruct] using verified⟩
    | cons bp bps => simp at length
  | cons text texts ih =>
    cases bps with
    | nil => simp at length
    | cons bp bps =>
      cases read : parseHex text with
      | none => simp [verifyBits, read] at verified
      | some cI =>
        cases bit : verifyBit z cI bp (ctx ++ intBytes i) with
        | none => simp [verifyBits, read, bit] at verified
        | some accepted =>
          cases accepted with
          | false => simp [verifyBits, read, bit] at verified
          | true =>
            obtain ⟨commitments, parsed, check⟩ := ih (by simpa using length) (by simpa [verifyBits, read, bit] using verified)
            exact ⟨cI :: commitments, .cons read parsed, check⟩

/-- An accepted range proof passes its reconstruction check. -/
theorem verifyLtPow2_reconstructs {commitmentC : Int} {rp : RangeProofDto} {k : Nat} {ctx : List UInt8}
    (verified : verifyLtPow2 z commitmentC rp k ctx = some true) :
    ∃ commitments, Reconstructs z rp k commitmentC commitments := by
  by_cases sizes : rp.bitCommitments.length = k ∧ rp.bitProofs.length = k
  case neg =>
    have refused : ¬ rp.bitCommitments.length = k ∨ ¬ rp.bitProofs.length = k := not_and_or.mp sizes
    simp [verifyLtPow2, refused] at verified
  case pos =>
    cases loop : verifyBits z ctx 0 1 rp.bitCommitments rp.bitProofs with
    | none => simp [verifyLtPow2, sizes, loop] at verified
    | some outcome =>
      cases outcome with
      | none => simp [verifyLtPow2, sizes, loop] at verified
      | some result =>
        obtain ⟨commitments, parsed, check⟩ := verifyBits_reconstructs (by omega) loop
        have equal : result = commitmentC.tmod z.P := by simpa [verifyLtPow2, sizes, loop] using verified
        exact ⟨commitments, by omega, parsed, check.trans equal⟩

/-- No hexadecimal text is read as a negative number. -/
theorem parseHex_nonneg {text : List Char} {n : Int} (read : parseHex text = some n) : 0 ≤ n := by
  rw [parseHex] at read
  split at read
  case isTrue marked =>
    obtain ⟨rest, rfl⟩ := List.isPrefixOf_iff_prefix.mp marked
    exact bigInt_nonneg read
  case isFalse => exact bigInt_nonneg read

private theorem parsed_nonneg {texts : List (List Char)} {commitments : List Int}
    (parsed : List.Forall₂ (fun text c => parseHex text = some c) texts commitments) : ∀ c ∈ commitments, 0 ≤ c := by
  induction parsed with
  | nil => simp
  | cons read _ ih => exact List.forall_mem_cons.mpr ⟨parseHex_nonneg read, ih⟩

/-- One accepted bit: the numbers read from its proof satisfy both equations, and the challenges
add up to the hash. -/
theorem verifyBit_holds {commitmentB : Nat} {bp : BitProofDto} {ctx : List UInt8}
    (accepted : verifyBit z commitmentB bp ctx = some true) :
    ∃ (t0 t1 : Nat) (split : Split), parseHex bp.t0 = some ↑t0 ∧ parseHex bp.t1 = some ↑t1 ∧
      (split.c0 + split.c1) % z.Q = z.hash [ctx, intBytes commitmentB, intBytes t0, intBytes t1] ∧
      split.Holds z commitmentB t0 t1 := by
  simp only [verifyBit, Option.bind_eq_bind, Option.bind_eq_some_iff] at accepted
  obtain ⟨t0, read0, t1, read1, c0, readC0, c1, readC1, accepted⟩ := accepted
  obtain ⟨t0, rfl⟩ := Int.eq_ofNat_of_zero_le (parseHex_nonneg read0)
  obtain ⟨t1, rfl⟩ := Int.eq_ofNat_of_zero_le (parseHex_nonneg read1)
  obtain ⟨c0, rfl⟩ := Int.eq_ofNat_of_zero_le (parseHex_nonneg readC0)
  obtain ⟨c1, rfl⟩ := Int.eq_ofNat_of_zero_le (parseHex_nonneg readC1)
  split at accepted
  case isTrue => cases accepted
  case isFalse challenge =>
    obtain ⟨s0, readS0, accepted⟩ := Option.bind_eq_some_iff.mp accepted
    split at accepted
    case isTrue => cases accepted
    case isFalse first =>
      obtain ⟨s1, readS1, second⟩ := Option.bind_eq_some_iff.mp accepted
      obtain ⟨s0, rfl⟩ := Int.eq_ofNat_of_zero_le (parseHex_nonneg readS0)
      obtain ⟨s1, rfl⟩ := Int.eq_ofNat_of_zero_le (parseHex_nonneg readS1)
      refine ⟨t0, t1, ⟨c0, c1, s0, s1⟩, read0, read1, ?_, not_not.mp first, Option.some.inj second⟩
      rw [not_not, ← Nat.cast_add, ← Int.ofNat_tmod] at challenge
      exact_mod_cast challenge

/-- Where both openings are of one value, it is within the limit: the sum cannot wrap around. -/
private theorem within_limit {k q m u : Nat} {maxLimit : Int} (lower : 2 ^ (k - 1) ≤ maxLimit) (below : maxLimit < 2 ^ k)
    (m_lt : m < 2 ^ k) (u_lt : u < 2 ^ k) (same : (u : Int) ≡ m + 2 ^ k - 1 - maxLimit [ZMOD q])
    (wide : 2 ^ (k + 1) ≤ q) : (m : Int) ≤ maxLimit := by
  have positive : (0 : Int) < 2 ^ (k - 1) := by positivity
  have m_lt' : (m : Int) < 2 ^ k := by exact_mod_cast m_lt
  have u_lt' : (u : Int) < 2 ^ k := by exact_mod_cast u_lt
  have wide' : (2 : Int) ^ k * 2 ≤ q := by
    rw [← pow_succ]
    exact_mod_cast wide
  have equal : (u : Int) = m + 2 ^ k - 1 - maxLimit := by
    rwa [Int.ModEq, Int.emod_eq_of_lt (by omega) (by omega), Int.emod_eq_of_lt (by omega) (by omega)] at same
  omega

/-- What two accepting transcripts say of a bit commitment, and what opened bit commitments say of
the amount. The first needs the commitment to lie in the subgroup of order `Q`, which nothing
checks; a commitment outside of it satisfies the equations as well but opens to nothing. -/
theorem extraction (z : Parameters) (safe : z.SafePrime) :
    (∀ (commitmentB t0 t1 : Nat) (a b : Split), a.Holds z commitmentB t0 t1 → b.Holds z commitmentB t0 t1 →
      (a.c0 + a.c1) % z.Q ≠ (b.c0 + b.c1) % z.Q →
      ((∃ bit r, bit ≤ 1 ∧ OpensTo z commitmentB bit r) ↔ (commitmentB : ZMod z.P) ^ z.Q = 1)) ∧
    (∀ (k : Nat) (maxLimit c : Int) (amountRange upperRange : RangeProofDto) (amountBits upperBits : List Int),
      2 ^ (k - 1) ≤ maxLimit → maxLimit < 2 ^ k → Reconstructs z amountRange k c amountBits →
      Reconstructs z upperRange k (upperCommitment z c k maxLimit) upperBits → BitsOpen z amountBits →
      BitsOpen z upperBits →
      ∃ m u r r', m < 2 ^ k ∧ u < 2 ^ k ∧ OpensTo z c m r ∧
        OpensTo z (c * z.G ^ (2 ^ k - 1 - maxLimit).toNat) u r' ∧
        ((u : Int) ≡ m + 2 ^ k - 1 - maxLimit [ZMOD z.Q] → 2 ^ (k + 1) ≤ z.Q → (m : Int) ≤ maxLimit)) := by
  refine ⟨?_, ?_⟩
  · intro commitmentB t0 t1 a b first second distinct
    constructor
    · rintro ⟨bit, r, _, opens⟩
      simpa using torsion_of_opensTo opens
    · exact bit_opens_of_torsion safe.prime_Q first second distinct
  · intro k maxLimit c amountRange upperRange amountBits upperBits lower below amount upper amountOpen upperOpen
    obtain ⟨m, r, m_lt, opensM⟩ := reconstruct_opens (parsed_nonneg amount.parsed) amountOpen amount.check
    obtain ⟨u, r', u_lt, opensU⟩ := reconstruct_opens (parsed_nonneg upper.parsed) upperOpen upper.check
    rw [← amount.parsed.length_eq, amount.length] at m_lt
    rw [← upper.parsed.length_eq, upper.length] at u_lt
    have residue : ((upperCommitment z c k maxLimit : Int) : ZMod z.P) =
        ((c * z.G ^ (2 ^ k - 1 - maxLimit).toNat : Int) : ZMod z.P) := by
      rw [upperCommitment, cast_tmod, Int.cast_mul, Int.cast_mul, modPow_cast z.one_lt_P, Int.cast_pow]
    rw [OpensTo, residue] at opensU
    exact ⟨m, u, r, r', m_lt, u_lt, opensM, opensU, within_limit lower below m_lt u_lt⟩

/-- Openings the equations do give, at a commitment of the subgroup. -/
theorem extraction_small : (∃ bit r, bit ≤ 1 ∧ OpensTo small 9 bit r) ∧
    ∃ m u r r', m < 2 ^ 1 ∧ u < 2 ^ 1 ∧ OpensTo small 9 m r ∧ OpensTo small (9 * 4 ^ 0) u r' ∧
      ((u : Int) ≡ m + 2 ^ 1 - 1 - 1 [ZMOD 11] → 2 ^ (1 + 1) ≤ 11 → (m : Int) ≤ 1) := by
  have bits : BitsOpen small [9] := by
    intro c mem
    rw [List.mem_singleton.mp mem]
    exact ⟨0, 1, by decide, show ((9 : Int) : ZMod 23) = (4 : Nat) ^ 0 * (9 : Nat) ^ 1 by decide⟩
  have amount : Reconstructs small ⟨["9".toList], []⟩ 1 9 [9] := ⟨rfl, .cons (by decide +kernel) .nil, by decide +kernel⟩
  have upper : Reconstructs small ⟨["9".toList], []⟩ 1 (upperCommitment small 9 1 1) [9] :=
    ⟨rfl, .cons (by decide +kernel) .nil, by decide +kernel⟩
  obtain ⟨openings, amounts⟩ := extraction small small_safePrime
  refine ⟨(openings 9 1 1 ⟨0, 0, 0, 0⟩ ⟨1, 0, 1, 0⟩ (by constructor <;> decide +kernel)
    (by constructor <;> decide +kernel) (by decide +kernel)).mpr ?_, ?_⟩
  · exact show ((9 : Nat) : ZMod 23) ^ 11 = 1 by decide
  · exact amounts 1 1 9 _ _ [9] [9] (by decide) (by decide) amount upper bits bits

/-- The commitment `-1` satisfies the equations under two splits, and is no commitment to a bit. -/
theorem minus_one_accepted : small.SafePrime ∧ Split.Holds ⟨0, 0, 0, 0⟩ small 22 1 1 ∧
    Split.Holds ⟨2, 0, 0, 0⟩ small 22 1 1 ∧ (0 + 0) % small.Q ≠ (2 + 0) % small.Q ∧
    ¬ ∃ bit r, bit ≤ 1 ∧ OpensTo small 22 bit r := by
  refine ⟨small_safePrime, by constructor <;> decide +kernel, by constructor <;> decide +kernel, by decide +kernel, ?_⟩
  rintro ⟨bit, r, _, opens⟩
  have torsion := torsion_of_opensTo opens
  exact absurd torsion (show ((22 : Int) : ZMod 23) ^ 11 ≠ 1 by decide)

end AfroPay.Zkp
