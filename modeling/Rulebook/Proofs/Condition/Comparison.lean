import Rulebook.Proofs.Fault
import Rulebook.Proofs.Numeric.Nearest

/-!
# How conditions compare integers

A condition tells equal integers from different ones however large they are. To tell the larger of two integers it
rounds both to binary64 first. What it tells then agrees with the order of the integers, but of different integers
that are rounded to the same number it tells none to be larger. Integers of up to `2 ^ 53` are not rounded, so there
exactly one of the three comparisons holds (`Condition.integers_compared`).
-/

namespace Rulebook

open Binary64

/-- An integer that is not too large is measured as the number that it is rounded to. -/
theorem Value.measure_of_int {n : Int} (h : n.natAbs < leastHuge) :
    ∃ f x, (Value.int n).measure? = .ok (some f) ∧ Reads f x ∧ x.value = rounded n := by
  cases hf : ofInt? n with
  | none => exact absurd (of_int_eq_none_iff.mp hf) (Nat.not_le.mpr h)
  | some f =>
      obtain ⟨x, hreads, hvalue⟩ := reads_of_int hf
      exact ⟨f, x, by rw [measure?, hf], hreads, hvalue⟩

namespace Condition

variable {c : Condition} {data : Value} {a b : Int}

/-- Where its field has a value, a condition holds if the value stands in the relation to its own. -/
theorem holds_in_of_resolve {actual : Option Value} (h : Path.resolve data c.field = .ok actual) :
    c.holdsIn data = holds actual c.operator c.value := by
  rw [holdsIn, outcome, h]
  dsimp only
  cases holds actual c.operator c.value <;> rfl

/-- Integers are told to be equal if they are. -/
theorem holds_equals (a b : Int) : holds (some (.int a)) .equals (.int b) = .ok (decide (a = b)) := by
  simp [holds, Value.equals, Value.isBool, Value.isNumber, Value.agrees, Value.agreesFlat, Value.number?, Number.same,
    beq_eq_decide]

/-- One integer is told to be smaller than another if it is rounded to a smaller number. -/
theorem holds_less_than (ha : a.natAbs < leastHuge) (hb : b.natAbs < leastHuge) :
    holds (some (.int a)) .lessThan (.int b) = .ok (decide (rounded a < rounded b)) := by
  obtain ⟨f, x, hf, hx, hxvalue⟩ := Value.measure_of_int ha
  obtain ⟨g, y, hg, hy, hyvalue⟩ := Value.measure_of_int hb
  have hless : f < g ↔ rounded a < rounded b := by
    rw [hx.lt_iff hy, hxvalue, hyvalue, Int.cast_lt]
  simp only [holds, compareMeasures, hf, hg, bind, Except.bind, hless]

/-- An integer is told to be larger than another if the other is told to be smaller. -/
theorem holds_greater_than (a b : Int) :
    holds (some (.int a)) .greaterThan (.int b) = holds (some (.int b)) .lessThan (.int a) := by
  simp only [holds, compareMeasures, Value.measure?, bind, Except.bind]
  cases ofInt? a <;> cases ofInt? b <;> rfl

/-- Of integers that are rounded to different numbers, the larger is rounded to the larger number. -/
theorem lt_of_rounded_lt (h : rounded a < rounded b) : a < b := by
  by_contra hle
  exact absurd (rounded_mono (Int.not_lt.mp hle)) (Int.not_le.mpr h)

/-- The operators that compare numbers. -/
def comparisons : List Operator := [.equals, .greaterThan, .lessThan]

/-- Exactly one of the comparisons holds if it takes the place of the operator of a condition. -/
def HoldsForOne (c : Condition) (data : Value) : Prop :=
  ∃! operator, operator ∈ comparisons ∧ { c with operator }.holdsIn data = .ok true

/-- What a comparison of integers says that are rounded if it is told which one is larger. -/
def Compares (a b : Int) : Operator → Prop
  | .equals => a = b
  | .greaterThan => rounded b < rounded a
  | .lessThan => rounded a < rounded b
  | _ => False

/-- No two comparisons say the truth about the same integers. -/
theorem Compares.unique {operator other : Operator} (h : Compares a b operator) (hother : Compares a b other) :
    operator = other := by
  have hsame : a = b → rounded a = rounded b := congrArg rounded
  cases operator with
  | equals => cases other <;> simp only [Compares, reduceCtorEq] at h hother ⊢ <;> omega
  | greaterThan => cases other <;> simp only [Compares, reduceCtorEq] at h hother ⊢ <;> omega
  | lessThan => cases other <;> simp only [Compares, reduceCtorEq] at h hother ⊢ <;> omega
  | _ => exact h.elim

/-- Exactly one comparison says the truth about two integers, unless they differ and are rounded to the same number. -/
theorem exists_unique_compares_iff :
    (∃! operator, Compares a b operator) ↔ a = b ∨ rounded a ≠ rounded b := by
  constructor
  · rintro ⟨operator, hcompares, _⟩
    match operator, hcompares with
    | .equals, heq => exact .inl heq
    | .greaterThan, hlt => exact .inr hlt.ne'
    | .lessThan, hlt => exact .inr hlt.ne
  · intro h
    have hone : ∃ operator, Compares a b operator := by
      obtain heq | hne := h
      · exact ⟨.equals, heq⟩
      · obtain hlt | hgt := lt_or_gt_of_ne hne
        · exact ⟨.lessThan, hlt⟩
        · exact ⟨.greaterThan, hgt⟩
    exact existsUnique_of_exists_of_unique hone fun _ _ => Compares.unique

/-- A comparison of integers that are not too large holds if it says the truth about what they are rounded to. -/
theorem holds_iff_compares {operator : Operator} (ha : a.natAbs < leastHuge) (hb : b.natAbs < leastHuge) :
    operator ∈ comparisons ∧ holds (some (.int a)) operator (.int b) = .ok true ↔ Compares a b operator := by
  cases operator with
  | equals => simp [comparisons, holds_equals, Compares]
  | greaterThan => simp [comparisons, holds_greater_than, holds_less_than hb ha, Compares]
  | lessThan => simp [comparisons, holds_less_than ha hb, Compares]
  | _ => simp [comparisons, Compares]

/-- Where a field and the value of a condition are integers, they are told to be equal exactly if they are, however
large they may be. Unless one of them is too large, they are told to be larger or smaller as what they are rounded to
is; what is told then agrees with their order, and exactly one of the three comparisons holds unless they differ and
are rounded to the same number. So for integers of up to `2 ^ 53` exactly one of them holds, by their order. -/
theorem integers_compared (hfield : Path.resolve data c.field = .ok (some (.int a))) (hvalue : c.value = .int b) :
    { c with operator := .equals }.holdsIn data = .ok (decide (a = b)) ∧
      (a.natAbs < leastHuge → b.natAbs < leastHuge →
        { c with operator := .greaterThan }.holdsIn data = .ok (decide (rounded b < rounded a)) ∧
        { c with operator := .lessThan }.holdsIn data = .ok (decide (rounded a < rounded b)) ∧
        (rounded b < rounded a → b < a) ∧ (rounded a < rounded b → a < b) ∧
        (c.HoldsForOne data ↔ a = b ∨ rounded a ≠ rounded b)) ∧
      (a.natAbs ≤ 2 ^ 53 → b.natAbs ≤ 2 ^ 53 →
        { c with operator := .greaterThan }.holdsIn data = .ok (decide (b < a)) ∧
        { c with operator := .lessThan }.holdsIn data = .ok (decide (a < b)) ∧ c.HoldsForOne data) := by
  have hholds : ∀ operator,
      { c with operator }.holdsIn data = holds (some (.int a)) operator (.int b) := fun operator => by
    rw [holds_in_of_resolve (c := { c with operator }) hfield, hvalue]
  have hrange : a.natAbs < leastHuge → b.natAbs < leastHuge →
      { c with operator := .greaterThan }.holdsIn data = .ok (decide (rounded b < rounded a)) ∧
      { c with operator := .lessThan }.holdsIn data = .ok (decide (rounded a < rounded b)) ∧
      (c.HoldsForOne data ↔ a = b ∨ rounded a ≠ rounded b) := by
    intro ha hb
    refine ⟨by rw [hholds, holds_greater_than, holds_less_than hb ha], by rw [hholds, holds_less_than ha hb], ?_⟩
    rw [← exists_unique_compares_iff, HoldsForOne]
    refine existsUnique_congr fun operator => ?_
    rw [hholds, holds_iff_compares ha hb]
  refine ⟨by rw [hholds, holds_equals], fun ha hb => ?_, fun ha hb => ?_⟩
  · obtain ⟨hgreater, hless, honly⟩ := hrange ha hb
    exact ⟨hgreater, hless, lt_of_rounded_lt, lt_of_rounded_lt, honly⟩
  · have hlarge : 2 ^ 53 < leastHuge := by decide +kernel
    obtain ⟨hgreater, hless, honly⟩ := hrange (ha.trans_lt hlarge) (hb.trans_lt hlarge)
    rw [rounded_eq_self ha, rounded_eq_self hb] at hgreater hless honly
    exact ⟨hgreater, hless, honly.mpr (Decidable.em _)⟩

/-- Two integers that need 54 bits are rounded away from each other. -/
theorem integers_compared_rounded :
    let c : Condition := ⟨"size", "size", .equals, .int (2 ^ 53 + 3), .and, none⟩
    let data : Value := .object [("size", .int (2 ^ 53 + 1))]
    Path.resolve data c.field = .ok (some (.int (2 ^ 53 + 1))) ∧
      { c with operator := .lessThan }.holdsIn data = .ok true ∧ c.HoldsForOne data := by
  intro c data
  have hfield : Path.resolve (.object [("size", .int (2 ^ 53 + 1))]) "size" =
      .ok (some (.int (2 ^ 53 + 1))) := by cbv
  obtain ⟨-, hrange, -⟩ := integers_compared (c := c) hfield rfl
  obtain ⟨-, hless, -, -, honly⟩ := hrange (by decide +kernel) (by decide +kernel)
  have hdifferent : rounded (2 ^ 53 + 1) < rounded (2 ^ 53 + 3) := by decide +kernel
  rw [decide_eq_true hdifferent] at hless
  exact ⟨hfield, hless, honly.mpr (.inr hdifferent.ne)⟩

/-- An integer that is rounded to the one before it is told neither to be equal to it nor to be larger. -/
theorem integers_not_compared :
    let c : Condition := ⟨"size", "size", .equals, .int (2 ^ 53), .and, none⟩
    let data : Value := .object [("size", .int (2 ^ 53 + 1))]
    ∀ operator ∈ comparisons, { c with operator }.holdsIn data = .ok false := by
  decide +kernel

end Condition

end Rulebook
