import Mathlib.Algebra.Group.Nat.Defs
import Rulebook.Numeric.Binary64

/-!
# Integers that are too large for a binary64 number

An integer has no nearest binary64 number exactly if its absolute value is at least halfway between the
largest finite one and the next power of two (`Binary64.of_int_eq_none_iff`).
-/

namespace Rulebook

/-- Rounding to the nearest natural number gives the quotient or its successor. -/
theorem round_half_even_cases (num den : Nat) :
    roundHalfEven num den = num / den ∨ roundHalfEven num den = num / den + 1 := by
  unfold roundHalfEven
  dsimp only
  split
  · exact .inr rfl
  · exact .inl rfl

/-- Rounding leads past an odd quotient exactly from the halfway point on. -/
theorem round_half_even_of_odd {num den : Nat} (hodd : num / den % 2 = 1) :
    roundHalfEven num den = num / den + 1 ↔ den ≤ 2 * (num % den) := by
  unfold roundHalfEven
  dsimp only
  split <;> omega

namespace Binary64

/-- The least natural number that is too large, `2 ^ 1024 - 2 ^ 970`: halfway between the largest binary64
number and the power of two after it. -/
def leastHuge : Nat := (2 ^ 54 - 1) * 2 ^ 970

/-- A mantissa and an exponent do not fit exactly if their bits reach those of infinity. -/
theorem assemble_eq_none_iff {mantissa : Nat} (h : 2 ^ 52 ≤ mantissa) (exponent : Int) :
    assemble? mantissa exponent = none ↔
      2047 * 2 ^ 52 ≤ (exponent + 1074).toNat * 2 ^ 52 + mantissa := by
  have hpow : Nat.pow 2 52 = 2 ^ 52 := rfl
  unfold assemble?
  dsimp only
  rw [hpow, if_neg (Nat.not_lt.mpr h)]
  split <;> simp <;> omega

/-- A natural number scaled by a power of two that leaves it with `k + 1` bits lies between two powers of
two. -/
theorem scaled_bounds {n : Nat} (hne : n ≠ 0) (k : Nat) :
    2 ^ k * 2 ^ (n.log2 - k) ≤ n * 2 ^ (k - n.log2) ∧
      n * 2 ^ (k - n.log2) < 2 ^ (k + 1) * 2 ^ (n.log2 - k) := by
  have hlow : 2 ^ n.log2 ≤ n := Nat.log2_self_le hne
  have hhigh : n < 2 ^ (n.log2 + 1) := Nat.lt_log2_self
  obtain hle | hlt := Nat.le_total k n.log2
  · rw [← Nat.pow_add, ← Nat.pow_add, Nat.sub_eq_zero_of_le hle, Nat.pow_zero, Nat.mul_one]
    have hsum : k + (n.log2 - k) = n.log2 := by omega
    have hnext : k + 1 + (n.log2 - k) = n.log2 + 1 := by omega
    rw [hsum, hnext]
    exact ⟨hlow, hhigh⟩
  · rw [Nat.sub_eq_zero_of_le hlt, Nat.pow_zero, Nat.mul_one, Nat.mul_one]
    have hsum : n.log2 + (k - n.log2) = k := by omega
    have hnext : n.log2 + 1 + (k - n.log2) = k + 1 := by omega
    have hpos : 0 < 2 ^ (k - n.log2) := Nat.two_pow_pos _
    rw [← hsum, Nat.pow_add, hsum, ← hnext, Nat.pow_add]
    exact ⟨Nat.mul_le_mul_right _ hlow, Nat.mul_lt_mul_of_pos_right hhigh hpos⟩

/-- The number nearest to a natural number has the mantissa that is left with 53 bits. -/
theorem nearest_whole_eq {n : Nat} (hne : n ≠ 0) :
    nearest? n 1 = assemble? (roundHalfEven (n * 2 ^ (52 - n.log2)) (2 ^ (n.log2 - 52)))
      ((n.log2 : Int) - 52) := by
  have hone : (1 : Nat).log2 = 0 := by decide
  have hguess : max ((n.log2 : Int) - (0 : Nat) - 53) (-1074) = (n.log2 : Int) - 53 := by omega
  have hdown : (-((n.log2 : Int) - 53)).toNat = 53 - n.log2 := by omega
  have hup : ((n.log2 : Int) - 53).toNat = n.log2 - 53 := by omega
  have hwide : ¬n * 2 ^ (53 - n.log2) / 2 ^ (n.log2 - 53) < 2 ^ 53 := by
    rw [Nat.not_lt, Nat.le_div_iff_mul_le (Nat.two_pow_pos _)]
    exact (scaled_bounds hne 53).1
  have hexponent : (n.log2 : Int) - 53 + 1 = (n.log2 : Int) - 52 := by omega
  have hdown' : (-((n.log2 : Int) - 52)).toNat = 52 - n.log2 := by omega
  have hup' : ((n.log2 : Int) - 52).toNat = n.log2 - 52 := by omega
  rw [nearest?, if_neg (by simp [hne])]
  simp only [Nat.pow_eq, hone, hguess, hdown, hup, Nat.one_mul, if_neg hwide, hexponent, hdown', hup']

/-- A natural number has no nearest binary64 number exactly from the least one that is too large on. -/
theorem nearest_whole_eq_none_iff {n : Nat} : nearest? n 1 = none ↔ leastHuge ≤ n := by
  rw [leastHuge]
  have hpow : ∀ k : Nat, 2 ^ (k + 970) = 2 ^ k * 2 ^ 970 := by
    intro k
    rw [Nat.pow_add]
  have hpos : 0 < 2 ^ 970 := Nat.two_pow_pos 970
  generalize 2 ^ 970 = unit at hpow hpos ⊢
  by_cases hne : n = 0
  · subst hne
    exact iff_of_false (by simp [nearest?]) (by omega)
  have hlow : 2 ^ n.log2 ≤ n := Nat.log2_self_le hne
  have hhigh : n < 2 ^ (n.log2 + 1) := Nat.lt_log2_self
  obtain ⟨hleast, hmost⟩ := scaled_bounds hne 52
  rw [nearest_whole_eq hne]
  generalize hnum : n * 2 ^ (52 - n.log2) = num at hleast hmost ⊢
  generalize hden : 2 ^ (n.log2 - 52) = den at hleast hmost ⊢
  have hden_pos : 0 < den := hden ▸ Nat.two_pow_pos _
  have hquotient : 2 ^ 52 ≤ num / den := (Nat.le_div_iff_mul_le hden_pos).mpr hleast
  have hbound : num / den < 2 ^ 53 := (Nat.div_lt_iff_lt_mul hden_pos).mpr hmost
  have hrounded := round_half_even_cases num den
  have hmono : ∀ {a b : Nat}, a ≤ b → 2 ^ a ≤ 2 ^ b := fun h => Nat.pow_le_pow_right Nat.two_pos h
  have hbits : ((n.log2 : Int) - 52 + 1074).toNat = n.log2 + 1022 := by omega
  rw [assemble_eq_none_iff (by omega), hbits]
  obtain hsmall | heq | hlarge := Nat.lt_trichotomy n.log2 1023
  -- however it is rounded, the number stays in the range
  · have hless : 2 ^ (n.log2 + 1) ≤ 2 ^ 53 * unit := by
      rw [← hpow 53]
      apply hmono
      omega
    omega
  · -- only here it depends on the rounding
    have hwhole : num = n := by rw [← hnum, heq, Nat.pow_zero, Nat.mul_one]
    have hunit : den = 2 * unit := by
      have hexponent : n.log2 - 52 = 1 + 970 := by omega
      calc den = 2 ^ (1 + 970) := by rw [← hden, hexponent]
        _ = 2 ^ 1 * unit := hpow 1
        _ = 2 * unit := by rw [Nat.pow_one]
    have hodd := @round_half_even_of_odd num den
    have hdiv := Nat.div_add_mod num den
    have hmod := Nat.mod_lt num hden_pos
    subst hwhole hunit
    generalize num / (2 * unit) = q at *
    obtain heq | hlt : q = 2 ^ 53 - 1 ∨ q < 2 ^ 53 - 1 := by omega
    · subst heq
      have hodd := hodd rfl
      omega
    · have hless : 2 * unit * (q + 1) ≤ 2 * unit * (2 ^ 53 - 1) := Nat.mul_le_mul_left _ hlt
      rw [Nat.mul_add] at hless
      omega
  -- however it is rounded, the number is out of the range
  · have hless : 2 ^ 54 * unit ≤ 2 ^ n.log2 := by
      rw [← hpow 54]
      apply hmono
      omega
    omega

/-- An integer has no nearest binary64 number exactly if its absolute value is too large. -/
theorem of_int_eq_none_iff {n : Int} : ofInt? n = none ↔ leastHuge ≤ n.natAbs := by
  rw [← nearest_whole_eq_none_iff, ofInt?, nearestSigned?]
  split
  · exact Option.map_eq_none_iff
  · rfl

end Binary64

end Rulebook
