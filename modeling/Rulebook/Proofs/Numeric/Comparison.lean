import Mathlib
import Rulebook.Numeric.Binary64

/-!
# Comparison of binary64 numbers

A finite binary64 number has an exact value (`Binary64.Exact.value`), and `Float` compares such numbers by their
values (`Binary64.Reads.lt_iff`, `Binary64.Reads.beq_iff`). All of them are whole multiples of the least positive one,
and their order by exponent and mantissa is that of these multiples (`Exact.IsBinary64.compare_unpacked`). What is
read of a `Float` is what its bits stand for (`Binary64.Reads.of_view`), also after its sign is changed or when it is
made of bits.
-/

namespace Rulebook.Binary64

open Float.Model Float.Model.UnpackedFloat

namespace Exact

/-- The exact value. -/
def value (x : Exact) : ℚ := (if x.negative then -1 else 1) * x.mantissa * 2 ^ x.exponent

/-- The absolute value in units of the least positive binary64 number. -/
def magnitude (x : Exact) : Nat := x.mantissa * 2 ^ (x.exponent + 1074).toNat

/-- The value in units of the least positive binary64 number. -/
def units (x : Exact) : Int := if x.negative then -x.magnitude else x.magnitude

/-- Mantissa and exponent are those of a binary64 number: the mantissa has 53 bits, or less if the exponent is the
least one. -/
structure IsBinary64 (x : Exact) : Prop where
  mantissa_lt : x.mantissa < 2 ^ 53
  normal : 2 ^ 52 ≤ x.mantissa ∨ x.exponent = -1074
  least : -1074 ≤ x.exponent
  most : x.exponent ≤ 971

/-- The sign as the arithmetic of `Float` has it. -/
def sign (x : Exact) : Sign := if x.negative then .negative else .positive

/-- The number as the arithmetic of `Float` has it. -/
def unpacked (x : Exact) : UnpackedFloat :=
  if h : 0 < x.mantissa then .finite x.sign x.mantissa x.exponent h else .zero x.sign

variable {x y : Exact}

/-- The value as a quotient. -/
theorem value_eq_div (x : Exact) : x.value = (if x.negative then -(x.num : Int) else x.num : Int) / x.den := by
  have hpow : (2 : ℚ) ^ x.exponent = 2 ^ x.exponent.toNat / 2 ^ (-x.exponent).toNat := by
    have hexponent : x.exponent = (x.exponent.toNat : Int) - ((-x.exponent).toNat : Int) := by omega
    conv_lhs => rw [hexponent]
    rw [zpow_sub₀ two_ne_zero, zpow_natCast, zpow_natCast]
  have hnum : (x.num : ℚ) = x.mantissa * 2 ^ x.exponent.toNat := by
    rw [num, Nat.pow_eq]
    push_cast
    rfl
  have hden : (x.den : ℚ) = 2 ^ (-x.exponent).toNat := by
    rw [den, Nat.pow_eq]
    push_cast
    rfl
  rw [value, hpow, hden]
  split <;> push_cast <;> rw [hnum] <;> ring

/-- A number agrees with an integer exactly if its value is that integer. -/
theorem compare_int_eq_iff {n : Int} : x.compareInt n = .eq ↔ x.value = n := by
  have hden : (x.den : ℚ) ≠ 0 := Nat.cast_ne_zero.mpr (Nat.two_pow_pos _).ne'
  rw [compareInt, compare_eq_iff_eq, value_eq_div, div_eq_iff hden]
  exact_mod_cast Iff.rfl

/-- The value in units of the least positive number. -/
theorem IsBinary64.value_eq (h : x.IsBinary64) : x.value = x.units * 2 ^ (-1074 : Int) := by
  have hexponent : x.exponent = ((x.exponent + 1074).toNat : Int) + -1074 := by
    have := h.least
    omega
  have hpow : (2 : ℚ) ^ x.exponent = 2 ^ (x.exponent + 1074).toNat * 2 ^ (-1074 : Int) := by
    conv_lhs => rw [hexponent]
    rw [zpow_add₀ two_ne_zero, zpow_natCast]
  rw [value, units, magnitude, hpow]
  generalize (2 : ℚ) ^ (-1074 : Int) = unit
  split <;> push_cast <;> ring

/-- Values compare as they do in units. -/
theorem IsBinary64.value_lt_iff (hx : x.IsBinary64) (hy : y.IsBinary64) : x.value < y.value ↔ x.units < y.units := by
  rw [hx.value_eq, hy.value_eq, mul_lt_mul_iff_left₀ (zpow_pos two_pos _), Int.cast_lt]

/-- Values are the same if they are in units. -/
theorem IsBinary64.value_eq_iff (hx : x.IsBinary64) (hy : y.IsBinary64) : x.value = y.value ↔ x.units = y.units := by
  rw [hx.value_eq, hy.value_eq, mul_left_inj' (zpow_ne_zero _ two_ne_zero), Int.cast_inj]

/-- A number with a larger exponent is larger, since its mantissa has all bits. -/
theorem IsBinary64.magnitude_lt (hx : x.IsBinary64) (hy : y.IsBinary64) (h : x.exponent < y.exponent) :
    x.magnitude < y.magnitude := by
  have hwide : 2 ^ 52 ≤ y.mantissa := hy.normal.resolve_right (by have := hx.least; omega)
  have hexponent : (x.exponent + 1074).toNat + 1 ≤ (y.exponent + 1074).toNat := by
    have := hx.least
    omega
  calc x.mantissa * 2 ^ (x.exponent + 1074).toNat
      < 2 ^ 53 * 2 ^ (x.exponent + 1074).toNat := Nat.mul_lt_mul_of_pos_right hx.mantissa_lt (Nat.two_pow_pos _)
    _ = 2 ^ 52 * 2 ^ ((x.exponent + 1074).toNat + 1) := by ring
    _ ≤ 2 ^ 52 * 2 ^ (y.exponent + 1074).toNat := Nat.mul_le_mul_left _ (Nat.pow_le_pow_right Nat.two_pos hexponent)
    _ ≤ y.mantissa * 2 ^ (y.exponent + 1074).toNat := Nat.mul_le_mul_right _ hwide

/-- Absolute values compare by exponents first and then by mantissas. -/
theorem IsBinary64.compare_magnitude (hx : x.IsBinary64) (hy : y.IsBinary64) :
    (compare x.exponent y.exponent).then (compare x.mantissa y.mantissa) = compare x.magnitude y.magnitude := by
  obtain h | h | h := lt_trichotomy x.exponent y.exponent
  · rw [compare_lt_iff_lt.mpr h, compare_lt_iff_lt.mpr (hx.magnitude_lt hy h)]
    rfl
  · rw [compare_eq_iff_eq.mpr h, magnitude, magnitude, h]
    have hpos : 0 < 2 ^ (y.exponent + 1074).toNat := Nat.two_pow_pos _
    obtain h | h | h := lt_trichotomy x.mantissa y.mantissa
    · rw [compare_lt_iff_lt.mpr h, compare_lt_iff_lt.mpr (Nat.mul_lt_mul_of_pos_right h hpos)]
      rfl
    · rw [h, compare_eq_iff_eq.mpr rfl, compare_eq_iff_eq.mpr rfl]
      rfl
    · rw [compare_gt_iff_gt.mpr h, compare_gt_iff_gt.mpr (Nat.mul_lt_mul_of_pos_right h hpos)]
      rfl
  · rw [compare_gt_iff_gt.mpr h, compare_gt_iff_gt.mpr (hy.magnitude_lt hx h)]
    rfl

/-- A number is zero, positive or negative. -/
theorem unpacked_cases (x : Exact) :
    (∃ s, x.unpacked = .zero s ∧ x.units = 0) ∨
      (∃ h, x.unpacked = .finite .positive x.mantissa x.exponent h ∧ x.units = x.magnitude ∧ 0 < x.magnitude) ∨
        ∃ h, x.unpacked = .finite .negative x.mantissa x.exponent h ∧ x.units = -x.magnitude ∧ 0 < x.magnitude := by
  unfold unpacked units sign
  by_cases h : 0 < x.mantissa
  · have hpos : 0 < x.magnitude := Nat.mul_pos h (Nat.two_pow_pos _)
    rw [dif_pos h]
    cases x.negative with
    | false => exact .inr (.inl ⟨h, rfl, rfl, hpos⟩)
    | true => exact .inr (.inr ⟨h, rfl, rfl, hpos⟩)
  · have hzero : x.magnitude = 0 := by rw [magnitude, Nat.eq_zero_of_not_pos h, Nat.zero_mul]
    rw [dif_neg h, hzero]
    exact .inl ⟨_, rfl, ite_self 0⟩

/-- The arithmetic of `Float` compares numbers by their values. -/
theorem IsBinary64.compare_unpacked (hx : x.IsBinary64) (hy : y.IsBinary64) :
    x.unpacked.compare y.unpacked = some (compare x.units y.units) := by
  have hmagnitude := hx.compare_magnitude hy
  obtain ⟨s, hxu, hxv⟩ | ⟨_, hxu, hxv, hxpos⟩ | ⟨_, hxu, hxv, hxpos⟩ := x.unpacked_cases <;>
    obtain ⟨t, hyu, hyv⟩ | ⟨_, hyu, hyv, hypos⟩ | ⟨_, hyu, hyv, hypos⟩ := y.unpacked_cases <;>
    rw [hxu, hyu, hxv, hyv]
  case inl.inl => exact congrArg some (compare_eq_iff_eq.mpr rfl).symm
  case inl.inr.inl => exact congrArg some (compare_lt_iff_lt.mpr (by omega)).symm
  case inl.inr.inr => exact congrArg some (compare_gt_iff_gt.mpr (by omega)).symm
  case inr.inl.inl => exact congrArg some (compare_gt_iff_gt.mpr (by omega)).symm
  case inr.inl.inr.inl =>
    rw [UnpackedFloat.compare, hmagnitude, ← cmp_eq_compare, ← cmp_eq_compare, Nat.strictMono_cast.cmp_map_eq]
  case inr.inl.inr.inr => exact congrArg some (compare_gt_iff_gt.mpr (by omega)).symm
  case inr.inr.inl => exact congrArg some (compare_lt_iff_lt.mpr (by omega)).symm
  case inr.inr.inr.inl => exact congrArg some (compare_lt_iff_lt.mpr (by omega)).symm
  case inr.inr.inr.inr =>
    rw [UnpackedFloat.compare, hmagnitude, ← cmp_eq_compare, ← cmp_eq_compare, cmp_swap]
    exact congrArg some (Nat.strictMono_cast.neg.cmp_map_eq _ _).symm

/-- The number with the given sign, biased exponent and fraction. -/
def ofFields (negative : Bool) (biased fraction : Nat) : Exact :=
  ⟨negative, if biased = 0 then fraction else fraction + 2 ^ 52, if biased = 0 then -1074 else (biased : Int) - 1075⟩

/-- Fields of their widths give a binary64 number, unless all bits of the exponent are set. -/
theorem is_binary64_of_fields (negative : Bool) {biased fraction : Nat} (hbiased : biased < 2047)
    (hfraction : fraction < 2 ^ 52) : (ofFields negative biased fraction).IsBinary64 := by
  unfold ofFields
  by_cases hzero : biased = 0
  · rw [if_pos hzero, if_pos hzero]
    exact ⟨hfraction.trans (by decide), .inr rfl, le_refl _, by dsimp only; omega⟩
  · rw [if_neg hzero, if_neg hzero]
    exact ⟨by dsimp only; omega, .inl (Nat.le_add_left _ _), by dsimp only; omega, by dsimp only; omega⟩

/-- The arithmetic of `Float` reads a bit pattern by its fields. -/
theorem unpack_eq_of_fields {bits : BitVec 64} {s : Sign} {ev : BitVec 11} {mv : BitVec 52}
    (hs : @unpackSign .binary64 bits = s.toBitVec) (he : @unpackExponent .binary64 bits = ev)
    (hm : @unpackMantissa .binary64 bits = mv) (h : ev.toNat < 2047) :
    UnpackedFloat.unpack Format.binary64 bits = (ofFields (s == .negative) ev.toNat mv.toNat).unpacked := by
  have hones : ev ≠ -1#11 := by
    rintro rfl
    exact absurd h (by decide)
  have hzero : ev = 0#11 ↔ ev.toNat = 0 := ⟨fun h => congrArg BitVec.toNat h, fun h => BitVec.eq_of_toNat_eq h⟩
  have hnone : mv = 0#52 ↔ mv.toNat = 0 := ⟨fun h => congrArg BitVec.toNat h, fun h => BitVec.eq_of_toNat_eq h⟩
  have hsign : Sign.ofBitVec s.toBitVec = (ofFields (s == .negative) ev.toNat mv.toNat).sign := by
    cases s <;> rfl
  have himplicit : (1#1 ++ mv).toNat = mv.toNat + 2 ^ 52 := by
    rw [BitVec.toNat_append, Nat.shiftLeft_eq, Nat.or_comm]
    exact Nat.or_two_pow_eq_add_of_lt mv.isLt
  unfold UnpackedFloat.unpack
  dsimp only
  simp only [hs, he, hm, if_neg hones, hsign]
  unfold unpacked
  by_cases hbiased : ev.toNat = 0
  · have hmantissa : (ofFields (s == .negative) ev.toNat mv.toNat).mantissa = mv.toNat := if_pos hbiased
    have hexponent : (ofFields (s == .negative) ev.toNat mv.toNat).exponent = -1074 := if_pos hbiased
    simp only [if_pos (hzero.mpr hbiased), hmantissa, hexponent]
    by_cases hfraction : mv.toNat = 0
    · rw [dif_pos (hnone.mpr hfraction), dif_neg (by omega)]
    · have hleast : (ev.toNat : Int) - (Format.binary64.exponentBias + (52 : Nat)) + 1 = -1074 := by
        rw [hbiased]
        rfl
      simp only [dif_neg (hfraction ∘ hnone.mp), dif_pos (Nat.pos_of_ne_zero hfraction), hleast]
  · have hmantissa : (ofFields (s == .negative) ev.toNat mv.toNat).mantissa = mv.toNat + 2 ^ 52 := if_neg hbiased
    have hexponent : (ofFields (s == .negative) ev.toNat mv.toNat).exponent = ev.toNat - 1075 := if_neg hbiased
    simp only [if_neg (hbiased ∘ hzero.mp), hmantissa, hexponent, himplicit]
    rw [dif_pos (by omega)]
    rfl

/-- What a word of bits stands for, unless all bits of its exponent are set. -/
def ofWord (bits : UInt64) : Exact :=
  ofFields (bits.toNat / 2 ^ 63 == 1) (bits.toNat / 2 ^ 52 % 2048) (bits.toNat % 2 ^ 52)

/-- The arithmetic of `Float` reads a word of bits as what it stands for. -/
theorem unpack_of_word {bits : UInt64} (h : bits.toNat / 2 ^ 52 % 2048 ≠ 2047) :
    (ofWord bits).IsBinary64 ∧ UnpackedFloat.unpack .binary64 bits.toBitVec = (ofWord bits).unpacked := by
  have hbiased : bits.toNat / 2 ^ 52 % 2048 < 2047 := by omega
  refine ⟨is_binary64_of_fields _ hbiased (Nat.mod_lt _ (by decide)), ?_⟩
  have hbits := bits.toNat_lt
  have hexponent : (@unpackExponent .binary64 bits.toBitVec).toNat = bits.toNat / 2 ^ 52 % 2048 := by
    change (bits.toNat >>> 52) % 2 ^ 11 = _
    rw [Nat.shiftRight_eq_div_pow]
  have hmantissa : (@unpackMantissa .binary64 bits.toBitVec).toNat = bits.toNat % 2 ^ 52 := rfl
  have hsign : @unpackSign .binary64 bits.toBitVec =
      (if bits.toNat / 2 ^ 63 = 1 then Sign.negative else .positive).toBitVec := by
    refine BitVec.eq_of_toNat_eq ?_
    change (bits.toNat >>> 63) % 2 = _
    rw [Nat.shiftRight_eq_div_pow]
    split
    next h => rw [h]; rfl
    next h =>
      have hzero : bits.toNat / 2 ^ 63 = 0 := by omega
      rw [hzero]
      rfl
  have hnegative : ((if bits.toNat / 2 ^ 63 = 1 then Sign.negative else .positive) == .negative) =
      (bits.toNat / 2 ^ 63 == 1) := by
    split
    next h => rw [h]; rfl
    next h => rw [beq_false_of_ne h]; rfl
  rw [unpack_eq_of_fields hsign rfl rfl (hexponent ▸ hbiased), hexponent, hmantissa, hnegative, ofWord]

/-- The fields of a number whose mantissa has all bits. -/
theorem of_fields_of_normal {negative : Bool} {mantissa : Nat} {exponent : Int} (hwide : 2 ^ 52 ≤ mantissa)
    (hmantissa : mantissa < 2 ^ 53) (hleast : -1074 ≤ exponent) :
    ofFields negative (exponent + 1075).toNat (mantissa % 2 ^ 52) = ⟨negative, mantissa, exponent⟩ := by
  have hbiased : (exponent + 1075).toNat ≠ 0 := by omega
  have hfraction : mantissa % 2 ^ 52 + 2 ^ 52 = mantissa := by omega
  have hexponent : ((exponent + 1075).toNat : Int) - 1075 = exponent := by omega
  rw [ofFields, if_neg hbiased, if_neg hbiased, hfraction, hexponent]

/-- A pattern that is made of the fields of a number reads as the number. -/
theorem unpack_components {e : BitVec 11} {m : BitVec 52} (he : e.toNat < 2047)
    (h : ofFields x.negative e.toNat m.toNat = x) :
    UnpackedFloat.unpack Format.binary64 (packComponents Format.binary64 x.sign e m) = x.unpacked := by
  have hnegative : (x.sign == .negative) = x.negative := by
    rw [sign]
    cases x.negative <;> rfl
  rw [unpack_eq_of_fields (unpackSign_packComponents _ _ _) unpackExponent_packComponents
    unpackMantissa_packComponents he, hnegative, h]

/-- The arithmetic of `Float` packs a number so that it reads the same again. -/
theorem IsBinary64.unpack_pack (hx : x.IsBinary64) :
    UnpackedFloat.unpack Format.binary64 (UnpackedFloat.pack Format.binary64 x.unpacked) = x.unpacked := by
  obtain ⟨hmantissa, hnormal, hleast, hmost⟩ := hx
  by_cases hpos : 0 < x.mantissa
  · have hbias : Format.binary64.exponentBias = 1023 := rfl
    have hbiased : (x.exponent + Format.binary64.exponentBias + (52 : Nat)).toNat = (x.exponent + 1075).toNat := by
      rw [hbias]
      omega
    have hfits : ¬2 ^ 11 ≤ (x.exponent + 1075).toNat + 1 := by omega
    conv_lhs => rw [unpacked, dif_pos hpos, UnpackedFloat.pack]
    dsimp only
    rw [hbiased, if_neg hfits]
    by_cases hwide : 2 ^ 52 ≤ x.mantissa
    · have hbits : x.mantissa.log2 + 1 = Format.binary64.mantissaBits :=
        congrArg (· + 1) ((Nat.log2_eq_iff hpos.ne').mpr ⟨hwide, hmantissa⟩)
      rw [if_pos hbits]
      refine unpack_components ?_ ?_
      · rw [BitVec.toNat_ofNat]
        omega
      · rw [BitVec.toNat_ofNat, BitVec.toNat_ofNat, Nat.mod_eq_of_lt (by omega)]
        exact of_fields_of_normal hwide hmantissa hleast
    · have hexponent : x.exponent = -1074 := hnormal.resolve_left hwide
      have hbits : x.mantissa.log2 + 1 ≠ Format.binary64.mantissaBits := by
        have : x.mantissa.log2 < 52 := (Nat.log2_lt hpos.ne').mpr (Nat.not_le.mp hwide)
        exact fun h => absurd (Nat.succ.inj h) this.ne
      rw [if_neg hbits]
      refine unpack_components (by decide) ?_
      rw [BitVec.toNat_ofNat, BitVec.toNat_ofNat, Nat.mod_eq_of_lt (Nat.not_le.mp hwide), Nat.zero_mod, ofFields,
        if_pos rfl, if_pos rfl, ← hexponent]
  · have hmantissa : x.mantissa = 0 := by omega
    have hexponent : x.exponent = -1074 := hnormal.resolve_left (by omega)
    conv_lhs => rw [unpacked, dif_neg hpos, UnpackedFloat.pack]
    refine unpack_components (e := 0) (m := 0) (by decide) ?_
    show ofFields x.negative 0 0 = x
    rw [ofFields, if_pos rfl, if_pos rfl, ← hmantissa, ← hexponent]

/-- The number with the other sign. -/
def neg (x : Exact) : Exact := { x with negative := !x.negative }

/-- The other sign makes the other value. -/
theorem value_neg (x : Exact) : x.neg.value = -x.value := by
  rw [value, value, neg]
  cases x.negative <;> simp

/-- The arithmetic of `Float` has the other sign by changing it. -/
theorem unpacked_neg (x : Exact) : x.neg.unpacked = x.unpacked.neg := by
  have hsign : x.neg.sign = -x.sign := by
    rw [sign, sign, neg]
    cases x.negative <;> rfl
  unfold unpacked
  rw [hsign]
  by_cases h : 0 < x.mantissa
  · rw [dif_pos h, dif_pos (show 0 < x.neg.mantissa from h)]
    rfl
  · rw [dif_neg h, dif_neg (show ¬0 < x.neg.mantissa from h)]
    rfl

end Exact

/-- A number is seen as finite unless all bits of its exponent are set. -/
theorem view_eq_finite_iff {f : Float} {x : Exact} :
    view f = .finite x ↔ f.toBits.toNat / 2 ^ 52 % 2048 ≠ 2047 ∧ Exact.ofWord f.toBits = x := by
  have hpow : ∀ n, Nat.pow 2 n = 2 ^ n := fun _ => rfl
  rw [view, Exact.ofWord, Exact.ofFields]
  simp only [hpow]
  by_cases hspecial : f.toBits.toNat / 2 ^ 52 % 2048 = 2047
  · rw [if_pos hspecial]
    refine iff_of_false ?_ fun h => h.1 hspecial
    split <;> nofun
  · rw [if_neg hspecial]
    by_cases hzero : f.toBits.toNat / 2 ^ 52 % 2048 = 0
    · simp only [if_pos hzero, View.finite.injEq]
      exact (and_iff_right hspecial).symm
    · simp only [if_neg hzero, View.finite.injEq]
      exact (and_iff_right hspecial).symm

/-- A finite number is seen as such. -/
theorem view_of_finite {f : Float} (h : f.isFinite = true) : ∃ x, view f = .finite x := by
  refine ⟨Exact.ofWord f.toBits, view_eq_finite_iff.mpr ⟨fun hspecial => ?_, rfl⟩⟩
  have hexponent : @unpackExponent .binary64 f.toBits.toBitVec = -1#11 := by
    refine BitVec.eq_of_toNat_eq ?_
    change (f.toBits.toNat >>> 52) % 2 ^ 11 = 2047
    rw [Nat.shiftRight_eq_div_pow]
    exact hspecial
  have hunpack : f.toModel.unpack = UnpackedFloat.unpack .binary64 f.toBits.toBitVec := rfl
  rw [Float.isFinite, Float.Model.isFinite, hunpack, UnpackedFloat.unpack] at h
  dsimp only at h
  rw [if_pos hexponent] at h
  split at h <;> cases h

/-- What a `Float` stands for if it is finite. -/
structure Reads (f : Float) (x : Exact) : Prop where
  proper : x.IsBinary64
  unpack : f.toModel.unpack = x.unpacked

namespace Reads

variable {f g : Float} {x y : Exact}

/-- Finite numbers compare by their values. -/
theorem lt_iff (hf : Reads f x) (hg : Reads g y) : f < g ↔ x.value < y.value := by
  have hlt : f < g ↔ f.toModel.unpack.lt g.toModel.unpack = true := decide_eq_true_iff
  rw [hlt, UnpackedFloat.lt, hf.unpack, hg.unpack, hf.proper.compare_unpacked hg.proper,
    hf.proper.value_lt_iff hg.proper, ← compare_lt_iff_lt]
  simp

/-- Finite numbers are equal if their values are the same. -/
theorem beq_iff (hf : Reads f x) (hg : Reads g y) : (f == g) = true ↔ x.value = y.value := by
  have hbeq : (f == g) = f.toModel.unpack.beq g.toModel.unpack := rfl
  rw [hbeq, UnpackedFloat.beq, hf.unpack, hg.unpack, hf.proper.compare_unpacked hg.proper,
    hf.proper.value_eq_iff hg.proper, ← compare_eq_iff_eq]
  simp

/-- What a number with the other sign stands for. -/
theorem neg (hf : Reads f x) : Reads (-f) x.neg := by
  have hproper : x.neg.IsBinary64 := { hf.proper with }
  refine ⟨hproper, ?_⟩
  change UnpackedFloat.unpack .binary64 (UnpackedFloat.pack .binary64 f.toModel.unpack.neg) = _
  rw [hf.unpack, ← x.unpacked_neg]
  exact hproper.unpack_pack

/-- What a number that is made of bits stands for. -/
theorem of_bits {bits : UInt64} (h : bits.toNat / 2 ^ 52 % 2048 ≠ 2047) : Reads (Float.ofBits bits) (.ofWord bits) := by
  obtain ⟨hproper, hunpack⟩ := Exact.unpack_of_word h
  refine ⟨hproper, ?_⟩
  change UnpackedFloat.unpack .binary64
    (UnpackedFloat.pack .binary64 (UnpackedFloat.unpack .binary64 bits.toBitVec)) = _
  rw [hunpack]
  exact hproper.unpack_pack

/-- What is seen of a finite number is what it stands for. -/
theorem of_view (h : view f = .finite x) : Reads f x := by
  obtain ⟨hbiased, rfl⟩ := view_eq_finite_iff.mp h
  obtain ⟨hproper, hunpack⟩ := Exact.unpack_of_word hbiased
  exact ⟨hproper, hunpack⟩

end Reads

end Rulebook.Binary64
