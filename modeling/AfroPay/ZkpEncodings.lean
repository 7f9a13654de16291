import AfroPay.JoinedText
import AfroPay.ZkpEquivocation

/-! What the auditor's arithmetic and its byte strings promise to every proof: its two loops end
with the power and with the inverse, numbers have the prover's bytes, and no two transcripts are
hashed as one. -/
namespace AfroPay.Zkp
open IntegerText JoinedText Loops

section Bytes

/-- A number is what its bytes on the prover's side read back as. -/
theorem ofBytes_intBytes {value : Int} (nonneg : 0 ≤ value) : (ofBytes (intBytes value) : Int) = value := by
  obtain ⟨n, rfl⟩ := Int.eq_ofNat_of_zero_le nonneg
  have encoded := intBytesPy_eq nonneg
  simp only [intBytesPy] at encoded
  rw [if_neg (by omega), Except.ok.injEq, bitLength, Int.natAbs_natCast, Int.toNat_natCast] at encoded
  have fits : n < 256 ^ (if (n.size + 7) / 8 = 0 then 1 else (n.size + 7) / 8) := by
    calc n < 2 ^ n.size := Nat.lt_size_self n
      _ ≤ 2 ^ (8 * if (n.size + 7) / 8 = 0 then 1 else (n.size + 7) / 8) := by
        apply Nat.pow_le_pow_right (by decide)
        split <;> omega
      _ = 256 ^ (if (n.size + 7) / 8 = 0 then 1 else (n.size + 7) / 8) := by rw [pow_mul]; rfl
  rw [← encoded, ofBytes_toBytes, Nat.mod_eq_of_lt fits]

theorem intBytes_injective {value other : Int} (nonneg : 0 ≤ value) (nonneg' : 0 ≤ other)
    (same : intBytes value = intBytes other) : value = other := by
  rw [← ofBytes_intBytes nonneg, same, ofBytes_intBytes nonneg']

/-- Eight bytes tell the lengths of the parts apart. -/
theorem transcript_injective {parts others : List (List UInt8)} (short : ∀ part ∈ parts, part.length < 2 ^ 64)
    (short' : ∀ part ∈ others, part.length < 2 ^ 64) (same : transcript parts = transcript others) :
    parts = others := by
  refine framed_injective (toBytes 8) (fun n => length_toBytes 8 n) (by decide) ?_ short short'
    (List.append_cancel_left same)
  intro m m_lt n n_lt codes
  have values := congrArg ofBytes codes
  rw [ofBytes_toBytes, ofBytes_toBytes] at values
  omega

end Bytes

/-- The power, reduced for a natural base. -/
def PowersExactly (base exp mod : Int) : Prop :=
  (∃ t, Ends (fun s : PowState => 0 < s.e) (PowState.round mod) ⟨exp.toNat, base.tmod mod, 1⟩ t ∧
    t.result = modPow base exp mod) ∧
    modPow base exp mod ≡ base ^ exp.toNat [ZMOD mod] ∧
    (0 ≤ base → 0 ≤ modPow base exp mod ∧ modPow base exp mod < mod)

/-- The loop ends with the reduced inverse. -/
def InvertsExactly (a mod : Int) : Prop :=
  (∃ t, Ends (fun t : EuclidState => t.r ≠ 0) EuclidState.round (.start a mod) t ∧
    modInverse a mod = (t.oldS.tmod mod + mod).tmod mod) ∧
    (0 ≤ modInverse a mod ∧ modInverse a mod < mod) ∧ a * modInverse a mod ≡ 1 [ZMOD mod]

/-- The auditor's powers and inverses are exact, its bytes are the prover's, and neither numbers
nor transcripts share them. -/
theorem arithmetic_exact :
    (∀ base exp mod : Int, 1 < mod → 0 ≤ exp → PowersExactly base exp mod) ∧
      (∀ a mod : Int, 1 < mod → Int.gcd a mod = 1 → InvertsExactly a mod) ∧
      (∀ value : Int, 0 ≤ value → intBytesPy value = .ok (intBytes value)) ∧
      (∀ value other : Int, 0 ≤ value → 0 ≤ other → intBytes value = intBytes other → value = other) ∧
      ∀ parts others : List (List UInt8), (∀ part ∈ parts, part.length < 2 ^ 64) →
        (∀ part ∈ others, part.length < 2 ^ 64) → transcript parts = transcript others → parts = others := by
  refine ⟨?_, ?_, fun value => intBytesPy_eq, fun value other => intBytes_injective,
    fun parts others => transcript_injective⟩
  · intro base exp mod one_lt _
    have ends := modPow_ends one_lt.ne' base exp
    obtain ⟨m, rfl⟩ := Int.eq_ofNat_of_zero_le (by omega : 0 ≤ mod)
    have one_lt_m : 1 < m := by omega
    refine ⟨ends, ?_, fun nonneg => modPow_range one_lt_m nonneg exp⟩
    rw [← ZMod.intCast_eq_intCast_iff, modPow_cast one_lt_m, Int.cast_pow]
  · intro a mod one_lt coprime
    have ends := modInverse_ends (by omega : 0 < mod) a
    obtain ⟨m, rfl⟩ := Int.eq_ofNat_of_zero_le (by omega : 0 ≤ mod)
    have positive : 0 < m := by omega
    refine ⟨ends, modInverse_range positive a, ?_⟩
    rw [← ZMod.intCast_eq_intCast_iff, Int.cast_mul, modInverse_cast positive coprime, Int.cast_one]

theorem arithmetic_exact_small : PowersExactly (-3) 5 7 ∧ InvertsExactly 3 10 ∧
    intBytesPy 256 = .ok (intBytes 256) ∧ (intBytes 0 = intBytes 0 → (0 : Int) = 0) ∧
    (transcript [[1], []] = transcript [[1], []] → [[(1 : UInt8)], []] = [[1], []]) := by
  obtain ⟨powers, inverts, encodes, numbers, transcripts⟩ := arithmetic_exact
  exact ⟨powers _ _ _ (by decide) (by decide), inverts _ _ (by decide) (by decide), encodes _ (by decide),
    numbers _ _ le_rfl le_rfl, transcripts _ _ (by simp) (by simp)⟩

end AfroPay.Zkp
