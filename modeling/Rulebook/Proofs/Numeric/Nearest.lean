import Rulebook.Proofs.Numeric.Binary64
import Rulebook.Proofs.Numeric.Comparison
import Rulebook.Proofs.Numeric.Rounding

/-!
# The binary64 number nearest to an integer

The binary64 number nearest to an integer is an integer with 53 significant bits (`Binary64.rounded`,
`Binary64.reads_of_int`). Larger integers are not rounded to smaller ones (`Binary64.rounded_mono`), and integers of
up to `2 ^ 53` stay as they are (`Binary64.rounded_eq_self`).
-/

namespace Rulebook

/-- A whole multiple of the denominator is not rounded. -/
theorem round_half_even_mul (n : Nat) {den : Nat} (hden : 0 < den) : roundHalfEven (n * den) den = n := by
  rw [roundHalfEven, Nat.mul_div_cancel n hden, Nat.mul_mod_left]
  exact if_neg (by omega)

/-- What is larger is not rounded to what is smaller. -/
theorem round_half_even_mono (den : Nat) {a b : Nat} (h : a ≤ b) : roundHalfEven a den ≤ roundHalfEven b den := by
  have hquotient : a / den ≤ b / den := Nat.div_le_div_right h
  have ha := Nat.div_add_mod a den
  have hb := Nat.div_add_mod b den
  obtain hlt | heq := Nat.lt_or_eq_of_le hquotient
  · have hcases := round_half_even_cases a den
    have hcases' := round_half_even_cases b den
    omega
  · unfold roundHalfEven
    dsimp only
    rw [heq] at ha ⊢
    split <;> split <;> omega

namespace Binary64

/-- The distance between the numbers with 53 significant bits around a natural number. -/
def unit (n : Nat) : Nat := 2 ^ (n.log2 - 52)

/-- The number with 53 significant bits that is nearest to a natural number; of two, the one whose last significant
bit is zero. -/
def roundedSize (n : Nat) : Nat := roundHalfEven n (unit n) * unit n

/-- The number with 53 significant bits that is nearest to an integer; of two, the one whose last significant bit is
zero. -/
def rounded (n : Int) : Int := if n < 0 then -roundedSize n.natAbs else roundedSize n.natAbs

/-- The distance between neighbours is at least one. -/
theorem unit_pos (n : Nat) : 0 < unit n := Nat.two_pow_pos _

/-- A number of up to 53 bits stays as it is. -/
theorem rounded_size_eq_self {n : Nat} (h : n ≤ 2 ^ 53) : roundedSize n = n := by
  obtain hlt | rfl := Nat.lt_or_eq_of_le h
  · have hunit : unit n = 1 := by
      rcases Nat.eq_zero_or_pos n with rfl | hpos
      · rfl
      · have hlog : n.log2 < 53 := (Nat.log2_lt hpos.ne').mpr hlt
        rw [unit, Nat.sub_eq_zero_of_le (by omega), Nat.pow_zero]
    have hwhole := round_half_even_mul n Nat.one_pos
    rw [Nat.mul_one] at hwhole
    rw [roundedSize, hunit, hwhole, Nat.mul_one]
  · decide +kernel

/-- A number is rounded to one that begins with the same bit, or to the next power of two. -/
theorem rounded_size_bounds {n : Nat} (hne : n ≠ 0) :
    2 ^ n.log2 ≤ roundedSize n ∧ roundedSize n ≤ 2 ^ (n.log2 + 1) := by
  have hlow : 2 ^ n.log2 ≤ n := Nat.log2_self_le hne
  have hhigh : n ≤ 2 ^ (n.log2 + 1) := Nat.lt_log2_self.le
  have hsplit : 2 ^ n.log2 = 2 ^ (n.log2 - (n.log2 - 52)) * unit n := by
    rw [unit, ← Nat.pow_add]
    congr 1
    omega
  have hsplit' : 2 ^ (n.log2 + 1) = 2 ^ (n.log2 - (n.log2 - 52) + 1) * unit n := by
    rw [Nat.pow_succ, hsplit, Nat.pow_succ, Nat.mul_right_comm]
  rw [hsplit] at hlow ⊢
  rw [hsplit'] at hhigh ⊢
  have hleast := round_half_even_mono (unit n) hlow
  have hmost := round_half_even_mono (unit n) hhigh
  rw [round_half_even_mul _ (unit_pos n)] at hleast hmost
  exact ⟨Nat.mul_le_mul_right _ hleast, Nat.mul_le_mul_right _ hmost⟩

/-- A larger number is not rounded to a smaller one. -/
theorem rounded_size_mono {m n : Nat} (h : m ≤ n) : roundedSize m ≤ roundedSize n := by
  rcases Nat.eq_zero_or_pos m with rfl | hm
  · exact Nat.zero_le _
  have hn : 0 < n := hm.trans_le h
  have hlog : m.log2 ≤ n.log2 := (Nat.le_log2 hn.ne').mpr ((Nat.log2_self_le hm.ne').trans h)
  obtain hlt | heq := Nat.lt_or_eq_of_le hlog
  · calc roundedSize m ≤ 2 ^ (m.log2 + 1) := (rounded_size_bounds hm.ne').2
      _ ≤ 2 ^ n.log2 := Nat.pow_le_pow_right Nat.two_pos hlt
      _ ≤ roundedSize n := (rounded_size_bounds hn.ne').1
  · have hunit : unit m = unit n := by rw [unit, unit, heq]
    rw [roundedSize, roundedSize, hunit]
    exact Nat.mul_le_mul_right _ (round_half_even_mono _ h)

/-- A larger integer is not rounded to a smaller one. -/
theorem rounded_mono {m n : Int} (h : m ≤ n) : rounded m ≤ rounded n := by
  unfold rounded
  by_cases hm : m < 0 <;> by_cases hn : n < 0
  · rw [if_pos hm, if_pos hn]
    have := rounded_size_mono (show n.natAbs ≤ m.natAbs by omega)
    omega
  · rw [if_pos hm, if_neg hn]
    omega
  · omega
  · rw [if_neg hm, if_neg hn]
    have := rounded_size_mono (show m.natAbs ≤ n.natAbs by omega)
    omega

/-- An integer of up to 53 bits stays as it is. -/
theorem rounded_eq_self {n : Int} (h : n.natAbs ≤ 2 ^ 53) : rounded n = n := by
  rw [rounded, rounded_size_eq_self h]
  split <;> omega

/-- The fields of a word of bits are those that it is made of. -/
theorem Exact.of_word_eq {bits : UInt64} {biased fraction : Nat} (hbits : bits.toNat = biased * 2 ^ 52 + fraction)
    (hbiased : biased < 2048) (hfraction : fraction < 2 ^ 52) : ofWord bits = ofFields false biased fraction := by
  have hsign : bits.toNat / 2 ^ 63 = 0 := by omega
  have hexponent : bits.toNat / 2 ^ 52 % 2048 = biased := by omega
  have hmantissa : bits.toNat % 2 ^ 52 = fraction := by omega
  rw [ofWord, hsign, hexponent, hmantissa]
  rfl

/-- What is assembled of a mantissa of 53 bits, or of the power of two after them, has the value of the parts. -/
theorem reads_of_assemble {mantissa : Nat} {exponent : Int} {f : Float} (hwide : 2 ^ 52 ≤ mantissa)
    (hmantissa : mantissa ≤ 2 ^ 53) (hleast : -1074 ≤ exponent) (h : assemble? mantissa exponent = some f) :
    ∃ x, Reads f x ∧ x.value = mantissa * 2 ^ exponent := by
  have hpow : Nat.pow 2 52 = 2 ^ 52 := rfl
  unfold assemble? at h
  dsimp only at h
  rw [hpow, if_neg (Nat.not_lt.mpr hwide)] at h
  split at h
  next hbits =>
    obtain rfl := Option.some.inj h
    have hword : ((exponent + 1074).toNat * 2 ^ 52 + mantissa).toUInt64.toNat =
        (exponent + 1074).toNat * 2 ^ 52 + mantissa := UInt64.toNat_ofNat_of_lt' (by
      have : UInt64.size = 2 ^ 64 := rfl
      omega)
    refine ⟨_, Reads.of_bits (by rw [hword]; omega), ?_⟩
    obtain hlt | rfl := Nat.lt_or_eq_of_le hmantissa
    · have hfields : (exponent + 1074).toNat * 2 ^ 52 + mantissa =
          (exponent + 1075).toNat * 2 ^ 52 + mantissa % 2 ^ 52 := by omega
      rw [Exact.of_word_eq (hword.trans hfields) (by omega) (Nat.mod_lt _ (by decide)),
        Exact.of_fields_of_normal hwide hlt hleast]
      simp [Exact.value]
    -- the mantissa was rounded up to the next power of two
    · have hfields : (exponent + 1074).toNat * 2 ^ 52 + 2 ^ 53 =
          (exponent + 1 + 1075).toNat * 2 ^ 52 + 2 ^ 52 % 2 ^ 52 := by omega
      rw [Exact.of_word_eq (hword.trans hfields) (by omega) (by decide),
        Exact.of_fields_of_normal (Nat.le_refl _) (by decide) (by omega)]
      simp only [Exact.value]
      rw [zpow_add_one₀ two_ne_zero]
      push_cast
      ring
  next => cases h

/-- The number nearest to a natural number has the value of the rounded one. -/
theorem reads_of_nearest {n : Nat} {f : Float} (h : nearest? n 1 = some f) :
    ∃ x, Reads f x ∧ x.value = roundedSize n := by
  rcases Nat.eq_zero_or_pos n with rfl | hpos
  · obtain rfl : 0 = f := Option.some.inj h
    have hview : view 0 = .finite ⟨false, 0, -1074⟩ := by decide +kernel
    exact ⟨_, .of_view hview, by simp [Exact.value, rounded_size_eq_self]⟩
  rw [nearest_whole_eq hpos.ne'] at h
  obtain ⟨hlow, hhigh⟩ := scaled_bounds hpos.ne' 52
  have hleast := round_half_even_mono (unit n) hlow
  have hmost := round_half_even_mono (unit n) hhigh.le
  have hdistance : 2 ^ (n.log2 - 52) = unit n := rfl
  rw [hdistance, round_half_even_mul _ (unit_pos n)] at hleast hmost
  obtain ⟨x, hreads, hvalue⟩ := reads_of_assemble hleast hmost (by omega) h
  refine ⟨x, hreads, hvalue.trans ?_⟩
  obtain hwide | hnarrow := Nat.le_total 52 n.log2
  · have hexponent : (n.log2 : Int) - 52 = (n.log2 - 52 : Nat) := by omega
    rw [Nat.sub_eq_zero_of_le hwide, Nat.pow_zero, Nat.mul_one, roundedSize, hexponent, zpow_natCast, unit]
    push_cast
    rfl
  · have hexponent : (n.log2 : Int) - 52 = -(52 - n.log2 : Nat) := by omega
    have hunit : unit n = 1 := by rw [unit, Nat.sub_eq_zero_of_le hnarrow, Nat.pow_zero]
    have hwhole := round_half_even_mul (n * 2 ^ (52 - n.log2)) Nat.one_pos
    rw [Nat.mul_one] at hwhole
    have hsmall : n ≤ 2 ^ 53 :=
      (Nat.lt_log2_self.trans_le (Nat.pow_le_pow_right Nat.two_pos (by omega))).le
    rw [hunit, hwhole, rounded_size_eq_self hsmall, hexponent, zpow_neg, zpow_natCast]
    push_cast
    rw [mul_assoc, mul_inv_cancel₀ (pow_ne_zero _ two_ne_zero), mul_one]

/-- The number nearest to an integer has the value of the rounded one. -/
theorem reads_of_int {n : Int} {f : Float} (h : ofInt? n = some f) : ∃ x, Reads f x ∧ x.value = rounded n := by
  rw [ofInt?, nearestSigned?] at h
  rw [rounded]
  split at h
  next hneg =>
    obtain ⟨g, hg, rfl⟩ := Option.map_eq_some_iff.mp h
    obtain ⟨x, hreads, hvalue⟩ := reads_of_nearest hg
    refine ⟨x.neg, hreads.neg, ?_⟩
    rw [x.value_neg, hvalue, if_pos hneg]
    push_cast
    rfl
  next hnonneg =>
    obtain ⟨x, hreads, hvalue⟩ := reads_of_nearest h
    refine ⟨x, hreads, ?_⟩
    rw [hvalue, if_neg hnonneg]
    push_cast
    rfl

end Binary64

end Rulebook
