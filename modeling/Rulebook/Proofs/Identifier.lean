import Rulebook.Identifier

/-!
# Identifiers are told apart

The number of an identifier can be read back from its digits, so identifiers of one kind with
different numbers are different.
-/

namespace Rulebook

/-- Zeros in front of the digits of a number do not change what they stand for. -/
theorem Decimal.of_pad_zeros (width n : Nat) :
    Nat.ofDigitChars 10 (padZeros width (digitChars n)) 0 = n := by
  rw [padZeros, Nat.ofDigitChars_append, Nat.ofDigitChars_replicate_zero, Nat.mul_zero, digitChars,
    Nat.ofDigitChars_ten_toDigits]

/-- Identifiers of one kind are the same only if their numbers are. -/
theorem identifier_injective (kind : String) {m n : Nat} (h : identifier kind m = identifier kind n) :
    m = n := by
  have hpadded := congrArg String.toList h
  simp only [identifier, Date.padded, String.toList_append, String.toList_ofList,
    List.append_cancel_left_eq] at hpadded
  have hnumber := congrArg (Nat.ofDigitChars 10 · 0) hpadded
  simpa [Decimal.of_pad_zeros] using hnumber

end Rulebook
