import Mathlib.Algebra.EuclideanDomain.Int
import Mathlib.Data.Nat.Prime.Int
import Mathlib.GroupTheory.OrderOfElement
import Mathlib.RingTheory.Coprime.Lemmas
import Mathlib.RingTheory.PrincipalIdealDomain
import Mathlib.Tactic.Ring

/-! Pedersen commitments and Schnorr answers in a commutative group: what an honest or a simulated
transcript satisfies, what two transcripts reveal, and how commitments to digits recombine. -/
namespace AfroPay.Pedersen

section Answers
variable {A : Type*} [CommGroup A] {h x t : A} {q : ℕ}

/-- The response answers the challenge about the logarithm of `x` after announcing `t`. -/
def Answers (h x t : A) (challenge response : ℤ) : Prop := h ^ response = t * x ^ challenge

theorem zpow_congr (torsion : h ^ q = 1) {a b : ℤ} (congruent : a ≡ b [ZMOD q]) : h ^ a = h ^ b := by
  have divides : (orderOf h : ℤ) ∣ q := Int.natCast_dvd_natCast.mpr (orderOf_dvd_of_pow_eq_one torsion)
  exact zpow_eq_zpow_iff_modEq.mpr (congruent.of_dvd divides)

/-- An announcement can be computed backwards from challenge and response. -/
theorem answers_simulated (h x : A) (challenge response : ℤ) :
    Answers h x (h ^ response * x ^ (-challenge)) challenge response := by
  rw [Answers, mul_assoc, ← zpow_add, neg_add_cancel, zpow_zero, mul_one]

/-- Whoever knows the logarithm answers every challenge. -/
theorem answers_honest (torsion : h ^ q = 1) {logarithm nonce challenge response : ℤ}
    (congruent : response ≡ nonce + challenge * logarithm [ZMOD q]) :
    Answers h (h ^ logarithm) (h ^ nonce) challenge response := by
  rw [Answers, zpow_congr torsion congruent, zpow_add, mul_comm challenge, zpow_mul]

/-- Two answers after one announcement give the logarithm, if the challenges differ modulo a
prime that kills `x`. -/
theorem logarithm_of_answers (prime : q.Prime) (torsion : x ^ q = 1) {c c' s s' : ℤ}
    (distinct : ¬ c ≡ c' [ZMOD q]) (first : Answers h x t c s) (second : Answers h x t c' s') :
    ∃ logarithm : ℤ, x = h ^ logarithm := by
  have quotient : x ^ (c' - c) = h ^ (s' - s) := by
    rw [zpow_sub, zpow_sub, first, second, ← div_eq_mul_inv, ← div_eq_mul_inv, mul_div_mul_left_eq_div]
  have coprime : IsCoprime (c' - c) (q : ℤ) := by
    rw [Int.modEq_iff_dvd] at distinct
    exact ((Nat.prime_iff_prime_int.mp prime).coprime_iff_not_dvd.mpr distinct).symm
  obtain ⟨a, b, bezout⟩ := coprime
  refine ⟨(s' - s) * a, ?_⟩
  calc x = x ^ (a * (c' - c) + b * q) := by rw [bezout, zpow_one]
    _ = (x ^ (c' - c)) ^ a * (x ^ q) ^ b := by
      rw [zpow_add, mul_comm a, zpow_mul, mul_comm b, zpow_mul, zpow_natCast]
    _ = h ^ ((s' - s) * a) := by rw [quotient, torsion, one_zpow, mul_one, zpow_mul]

end Answers

section Digits
variable {A : Type*} [CommGroup A]

def commitment (g h : A) (value blinding : ℤ) : A := g ^ value * h ^ blinding

/-- Little-endian binary value of a list of weights. -/
def weigh : List ℤ → ℤ
  | [] => 0
  | digit :: rest => digit + 2 * weigh rest

/-- The product with the `i`-th factor raised to `2 ^ i`. -/
def recombine : List A → A
  | [] => 1
  | c :: rest => c * recombine rest ^ 2

theorem weigh_append (a b : List ℤ) : weigh (a ++ b) = weigh a + 2 ^ a.length * weigh b := by
  induction a with
  | nil => simp [weigh]
  | cons digit rest ih =>
    rw [List.cons_append, weigh, ih, weigh, List.length_cons]
    ring

/-- A factor that enters a running product with the weight of its place leaves the rest one place
further on. -/
theorem weight_recombines (x c : A) (i : ℕ) (rest : List A) :
    x * c ^ (2 ^ i : ℤ) * recombine rest ^ 2 ^ (i + 1) = x * recombine (c :: rest) ^ 2 ^ i := by
  have power : c ^ (2 ^ i : ℤ) = c ^ 2 ^ i := by rw [← zpow_natCast, Nat.cast_pow, Nat.cast_ofNat]
  rw [recombine, mul_pow, ← pow_mul, ← pow_succ', power, mul_assoc]

/-- Binary digits weigh less than the next power of two. -/
theorem weigh_bits {bits : List ℤ} (binary : ∀ b ∈ bits, b = 0 ∨ b = 1) :
    0 ≤ weigh bits ∧ weigh bits < 2 ^ bits.length := by
  induction bits with
  | nil => simp [weigh]
  | cons b rest ih =>
    obtain ⟨nonneg, lt⟩ := ih fun b mem => binary b (List.mem_cons_of_mem _ mem)
    have head := binary b List.mem_cons_self
    rw [weigh, List.length_cons, pow_succ]
    omega

/-- Commitments to digits recombine to a commitment to what the digits weigh. -/
theorem recombine_commitments (g h : A) (openings : List (ℤ × ℤ)) :
    recombine (openings.map fun o => commitment g h o.1 o.2) =
      commitment g h (weigh (openings.map Prod.fst)) (weigh (openings.map Prod.snd)) := by
  induction openings with
  | nil => simp [recombine, commitment, weigh]
  | cons o rest ih =>
    rw [List.map_cons, recombine, ih, commitment, commitment, List.map_cons, weigh, List.map_cons, weigh,
      commitment, mul_pow, zpow_add, zpow_add, mul_comm 2, mul_comm 2, zpow_mul, zpow_mul, zpow_ofNat, zpow_ofNat]
    exact mul_mul_mul_comm (g ^ o.1) (h ^ o.2) _ _

/-- Commitments that all open to bits recombine to a commitment to a value of that many bits. -/
theorem recombine_opens {g h : A} {commitments : List A}
    (opens : ∀ c ∈ commitments, ∃ bit blinding : ℤ, (bit = 0 ∨ bit = 1) ∧ c = commitment g h bit blinding) :
    ∃ value blinding : ℤ, 0 ≤ value ∧ value < 2 ^ commitments.length ∧
      recombine commitments = commitment g h value blinding := by
  have openings : ∃ openings : List (ℤ × ℤ), commitments = openings.map (fun o => commitment g h o.1 o.2) ∧
      ∀ b ∈ openings.map Prod.fst, b = 0 ∨ b = 1 := by
    induction commitments with
    | nil => exact ⟨[], rfl, by simp⟩
    | cons c rest ih =>
      obtain ⟨bit, blinding, binary, rfl⟩ := opens c List.mem_cons_self
      obtain ⟨openings, rfl, bits⟩ := ih fun c mem => opens c (List.mem_cons_of_mem _ mem)
      exact ⟨(bit, blinding) :: openings, rfl, by simpa using ⟨binary, by simpa using bits⟩⟩
  obtain ⟨openings, rfl, bits⟩ := openings
  obtain ⟨nonneg, lt⟩ := weigh_bits bits
  rw [recombine_commitments]
  exact ⟨_, _, nonneg, by simpa using lt, rfl⟩

end Digits

end AfroPay.Pedersen
