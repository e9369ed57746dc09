import Mathlib.Data.Rat.Lemmas
import Mathlib.Algebra.Order.Ring.Rat
import Mathlib.Data.Nat.Cast.Order.Ring
import Rulebook.Numeric.Binary64

/-!
# Rounding to decimals without error

Rounding to the nearest natural number, a half going to the even one, gives the one number that is near enough
(`round_half_even_of_near`). Numbers that are not binary64 ones are rounded to decimals in the same way
(`Decimal.round`): what `Binary64.roundPlaces` does with the exact value of a binary64 number, before it looks for the
binary64 number nearest to the decimal.
-/

namespace Rulebook

/-- Rounding goes no further than half a unit. -/
theorem round_half_even_bounds (num : Nat) {den : Nat} (hden : 0 < den) :
    2 * num ≤ 2 * (roundHalfEven num den * den) + den ∧ 2 * (roundHalfEven num den * den) ≤ 2 * num + den := by
  have hdiv := Nat.div_add_mod' num den
  have hmod := Nat.mod_lt num hden
  have hsucc : (num / den + 1) * den = num / den * den + den := Nat.succ_mul _ _
  unfold roundHalfEven
  dsimp only
  split <;> omega

/-- A natural number that is not further than half a unit is the rounded one; at half a unit only if it is even. -/
theorem round_half_even_of_near {num den n : Nat} (hden : 0 < den) (hlow : 2 * (n * den) ≤ 2 * num + den)
    (hhigh : 2 * num ≤ 2 * (n * den) + den)
    (htie : 2 * (n * den) = 2 * num + den ∨ 2 * num = 2 * (n * den) + den → n % 2 = 0) : roundHalfEven num den = n := by
  have hdiv := Nat.div_add_mod' num den
  have hmod := Nat.mod_lt num hden
  have hleast : num / den ≤ n := by
    by_contra hless
    have hnext : (n + 1) * den ≤ num / den * den := Nat.mul_le_mul_right den (by omega)
    rw [Nat.add_mul] at hnext
    omega
  have hmost : n ≤ num / den + 1 := by
    by_contra hmore
    have hnext : (num / den + 2) * den ≤ n * den := Nat.mul_le_mul_right den (by omega)
    rw [Nat.add_mul] at hnext
    omega
  have hsucc : (num / den + 1) * den = num / den * den + den := Nat.succ_mul _ _
  unfold roundHalfEven
  dsimp only
  obtain rfl | rfl : n = num / den ∨ n = num / den + 1 := by omega
  · exact if_neg (by omega)
  · exact if_pos (by omega)

/-- Rounding a quotient does not depend on a common factor. -/
theorem round_half_even_scaled {k : Nat} (hk : 0 < k) (num den : Nat) :
    roundHalfEven (k * num) (k * den) = roundHalfEven num den := by
  rw [roundHalfEven, roundHalfEven, Nat.mul_div_mul_left num den hk, Nat.mul_mod_mul_left]
  have hless : k * den < 2 * (k * (num % den)) ↔ den < 2 * (num % den) := by
    rw [Nat.mul_left_comm]
    exact Nat.mul_lt_mul_left hk
  have heq : 2 * (k * (num % den)) = k * den ↔ 2 * (num % den) = den := by
    rw [Nat.mul_left_comm]
    exact Nat.mul_right_inj hk.ne'
  simp only [hless, heq]

/-- Rounding a quotient does not depend on how it is written. -/
theorem round_half_even_congr {num den num' den' : Nat} (hden : 0 < den) (hden' : 0 < den')
    (h : num * den' = num' * den) : roundHalfEven num den = roundHalfEven num' den' := by
  rw [← round_half_even_scaled hden', ← round_half_even_scaled hden num' den', Nat.mul_comm den' num, h,
    Nat.mul_comm num' den, Nat.mul_comm den' den]

namespace Decimal

/-- A number rounded to the given number of decimal places: the nearest decimal, of two the even one. -/
def round (places : Nat) (q : ℚ) : ℚ :=
  let size : ℚ := roundHalfEven (q.num.natAbs * 10 ^ places) q.den / 10 ^ places
  if q < 0 then -size else size

/-- A quotient of natural numbers is rounded as it is written. -/
theorem round_div (places : Nat) (num : Nat) {den : Nat} (hden : 0 < den) :
    round places (num / den) = roundHalfEven (num * 10 ^ places) den / 10 ^ places := by
  have hnonneg : (0 : ℚ) ≤ num / den := div_nonneg (Nat.cast_nonneg num) (Nat.cast_nonneg den)
  have hsize : (((num : ℚ) / den).num.natAbs : ℤ) = ((num : ℚ) / den).num :=
    Int.natAbs_of_nonneg (Rat.num_nonneg.mpr hnonneg)
  have hcross : ((num : ℚ) / den).num.natAbs * den = num * ((num : ℚ) / den).den := by
    have heq := Rat.num_div_den ((num : ℚ) / den)
    rw [div_eq_div_iff (by simp) (by exact_mod_cast hden.ne'), ← hsize] at heq
    exact_mod_cast heq
  rw [round, if_neg (not_lt.mpr hnonneg), round_half_even_congr (Rat.den_pos _) hden]
  rw [Nat.mul_right_comm, hcross, Nat.mul_right_comm]

end Decimal

end Rulebook
