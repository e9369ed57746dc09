import Mathlib.Algebra.Order.Archimedean.Basic
import Mathlib.Tactic.Linarith
import Mathlib.Tactic.Positivity
import Mathlib.Tactic.Qify
import Mathlib.Tactic.FieldSimp
import Rulebook.Proofs.Numeric.Rounding
import Rulebook.Proofs.Engine.Tally

/-!
# How far success rates drift

The success rate of a rule is a rolling mean that is rounded each time, so what is rounded off is taken up again with
the next execution. Read without the errors of binary64 arithmetic (`Decimal.successRate`) it moves in ten-thousandths
(`rateUnits`): every outcome adds half a unit at most times the number of outcomes so far to what the sum is off by
(`rate_units_drift`), and from 19999 outcomes on no outcome moves it (`rate_units_frozen`). What is stored is the same
mean in binary64 arithmetic, of the outcomes that were recorded (`Engine.success_rate_drifts`).
-/

namespace Rulebook

/-! ### Rolling success rates -/

/-- The success rate of outcomes, as it is stored. -/
def Binary64.successRate (outcomes : List Bool) : Float :=
  rollingRate (fun n => (ofInt? n).getD 0) (roundPlaces · 4) 0 0 outcomes

/-- The success rate of outcomes without the errors of binary64 arithmetic. -/
def Decimal.successRate (outcomes : List Bool) : ℚ := rollingRate Nat.cast (round 4) 0 0 outcomes

/-- The fraction of the outcomes that are successes. -/
def successFraction (outcomes : List Bool) : ℚ := outcomes.count true / outcomes.length

/-! ### Success rates in ten-thousandths -/

/-- A success rate in ten-thousandths after another outcome. -/
def nextUnits (units before : Nat) (completed : Bool) : Nat :=
  roundHalfEven (units * before + 10000 * completed.toNat) (before + 1)

/-- A success rate in ten-thousandths after further outcomes. -/
def rateUnits : Nat → Nat → List Bool → Nat
  | units, _, [] => units
  | units, before, completed :: later => rateUnits (nextUnits units before completed) (before + 1) later

/-- What is taken in without errors is a number of ten-thousandths again. -/
theorem rolling_mean_units (units before : Nat) (completed : Bool) :
    rollingMean (Decimal.round 4) ((units : ℚ) / 10000) (before : ℚ) (completed.toNat : ℚ) ((before + 1 : Nat) : ℚ) =
      nextUnits units before completed / 10000 := by
  have hwhole : ((units : ℚ) / 10000 * before + completed.toNat) / (before + 1 : Nat) =
      (units * before + 10000 * completed.toNat : Nat) / (10000 * (before + 1) : Nat) := by
    push_cast
    field_simp
  rw [rollingMean, hwhole, Decimal.round_div 4 _ (by omega), Nat.mul_comm _ (10 ^ 4),
    show (10 ^ 4 : Nat) = 10000 from rfl, round_half_even_scaled (by decide), nextUnits]
  norm_num

/-- Without errors a success rate is a number of ten-thousandths. -/
theorem rolling_rate_units (units before : Nat) (outcomes : List Bool) :
    rollingRate Nat.cast (Decimal.round 4) ((units : ℚ) / 10000) before outcomes =
      rateUnits units before outcomes / 10000 := by
  induction outcomes generalizing units before with
  | nil => rfl
  | cons completed outcomes ih => rw [rollingRate, rateUnits, rolling_mean_units, ih]

/-- The success rate of outcomes in ten-thousandths. -/
theorem Decimal.success_rate_eq (outcomes : List Bool) : successRate outcomes = rateUnits 0 0 outcomes / 10000 := by
  rw [← rolling_rate_units, successRate, Nat.cast_zero, zero_div]

/-- Outcomes are taken in one after another. -/
theorem rate_units_append (units before : Nat) (outcomes later : List Bool) :
    rateUnits units before (outcomes ++ later) =
      rateUnits (rateUnits units before outcomes) (before + outcomes.length) later := by
  induction outcomes generalizing units before with
  | nil => rfl
  | cons completed outcomes ih =>
      rw [List.cons_append, rateUnits, rateUnits, ih, List.length_cons, Nat.add_right_comm, Nat.add_assoc]

/-- No outcome makes a success rate more than one. -/
theorem next_units_le {units : Nat} (h : units ≤ 10000) (before : Nat) (completed : Bool) :
    nextUnits units before completed ≤ 10000 := by
  have hbound := (round_half_even_bounds (units * before + 10000 * completed.toNat) before.succ_pos).2
  have hunits : units * before ≤ 10000 * before := Nat.mul_le_mul_right before h
  have hone : completed.toNat ≤ 1 := Bool.toNat_le completed
  rw [nextUnits]
  by_contra hmore
  have hover : 10001 * (before + 1) ≤
      roundHalfEven (units * before + 10000 * completed.toNat) (before + 1) * (before + 1) :=
    Nat.mul_le_mul_right _ (by omega)
  rw [Nat.succ_eq_add_one] at hbound
  omega

/-- A success rate that is not more than one stays so. -/
theorem rate_units_le {units : Nat} (h : units ≤ 10000) (before : Nat) (outcomes : List Bool) :
    rateUnits units before outcomes ≤ 10000 := by
  induction outcomes generalizing units before with
  | nil => exact h
  | cons completed outcomes ih => exact ih (next_units_le h before completed) _

/-- From 19999 outcomes on no outcome moves a success rate: what it adds is rounded off. -/
theorem next_units_frozen {units before : Nat} (h : units ≤ 10000) (hbefore : 19999 ≤ before) (completed : Bool) :
    nextUnits units before completed = units := by
  have hsum : units * (before + 1) = units * before + units := Nat.mul_succ units before
  cases completed with
  | false =>
      rw [nextUnits, Bool.toNat_false, Nat.mul_zero, Nat.add_zero]
      exact round_half_even_of_near (by omega) (by omega) (by omega) (by omega)
  | true =>
      rw [nextUnits, Bool.toNat_true, Nat.mul_one]
      exact round_half_even_of_near (by omega) (by omega) (by linarith) (by omega)

/-- From 19999 outcomes on a success rate in ten-thousandths stays. -/
theorem rate_units_frozen {units before : Nat} (h : units ≤ 10000) (hbefore : 19999 ≤ before)
    (outcomes : List Bool) : rateUnits units before outcomes = units := by
  induction outcomes generalizing before with
  | nil => rfl
  | cons completed outcomes ih =>
      rw [rateUnits, next_units_frozen h hbefore]
      exact ih (by omega)

/-- What is rounded off adds up: after `n` outcomes more the sum is off by half a unit at most for each number of
outcomes on the way. -/
theorem rate_units_drift (units before : Nat) (outcomes : List Bool) :
    |4 * ((before + outcomes.length) * (rateUnits units before outcomes : ℤ) -
      (before * units + 10000 * outcomes.count true))| ≤ outcomes.length * (2 * before + outcomes.length + 1) := by
  induction outcomes generalizing units before with
  | nil => simp [rateUnits]
  | cons completed outcomes ih =>
      obtain ⟨hlow, hhigh⟩ := round_half_even_bounds (units * before + 10000 * completed.toNat) before.succ_pos
      have hrest := abs_le.mp (ih (nextUnits units before completed) (before + 1))
      have hcount : ((completed :: outcomes).count true : ℤ) = completed.toNat + outcomes.count true := by
        cases completed <;> simp [Int.add_comm]
      rw [rateUnits, hcount, List.length_cons]
      rw [← nextUnits] at hlow hhigh
      zify at hlow hhigh
      push_cast at hrest ⊢
      rw [abs_le]
      constructor <;> linarith

/-! ### How near the fraction is -/

/-- A success rate in ten-thousandths is within one of the fraction of `successes` among `count` outcomes. -/
def unitsNear (units count successes : Nat) : Bool :=
  units * count ≤ 10000 * successes + count ∧ 10000 * successes ≤ units * count + count

/-- A success rate stays near the fraction, whatever the next outcomes are. -/
def staysNear : Nat → Nat → Nat → Nat → Bool
  | 0, units, before, successes => unitsNear units before successes
  | steps + 1, units, before, successes =>
    unitsNear units before successes &&
      (staysNear steps (nextUnits units before false) (before + 1) successes &&
        staysNear steps (nextUnits units before true) (before + 1) (successes + 1))

/-- What stays near is near after each number of outcomes. -/
theorem near_of_stays {steps units before successes : Nat} (h : staysNear steps units before successes = true)
    {outcomes : List Bool} (hsteps : outcomes.length ≤ steps) :
    unitsNear (rateUnits units before outcomes) (before + outcomes.length) (successes + outcomes.count true) =
      true := by
  induction outcomes generalizing steps units before successes with
  | nil =>
      cases steps with
      | zero => exact h
      | succ steps => exact (Bool.and_eq_true_iff.mp h).1
  | cons completed outcomes ih =>
      cases steps with
      | zero => exact absurd hsteps (Nat.not_succ_le_zero _)
      | succ steps =>
          rw [staysNear, Bool.and_eq_true, Bool.and_eq_true] at h
          rw [List.length_cons, Nat.succ_le_succ_iff] at hsteps
          rw [rateUnits, List.length_cons, Nat.add_comm outcomes.length, ← Nat.add_assoc]
          cases completed with
          | false => exact ih h.2.1 hsteps
          | true =>
              rw [List.count_cons_self, Nat.add_comm (outcomes.count true), ← Nat.add_assoc]
              exact ih h.2.2 hsteps

namespace Decimal

/-- What a success rate is off by is bounded by what the sum of its outcomes is off by, in ten-thousandths. -/
theorem success_rate_near_iff {outcomes : List Bool} (hsome : outcomes ≠ []) {ε : ℚ} :
    |successRate outcomes - successFraction outcomes| ≤ ε ↔
      |(outcomes.length : ℚ) * rateUnits 0 0 outcomes - 10000 * outcomes.count true| ≤
        ε * (10000 * outcomes.length) := by
  have hlength : (0 : ℚ) < outcomes.length := by simpa [List.length_pos_iff] using hsome
  have herror : successRate outcomes - successFraction outcomes =
      ((outcomes.length : ℚ) * rateUnits 0 0 outcomes - 10000 * outcomes.count true) / (10000 * outcomes.length) := by
    rw [success_rate_eq, successFraction]
    field_simp
  have hpos : (0 : ℚ) < 10000 * outcomes.length := by positivity
  rw [herror, abs_div, abs_of_pos hpos, div_le_iff₀ hpos]

/-- The success rate of outcomes is off by a quarter of a ten-thousandth at most for each of them, and once more. -/
theorem success_rate_near {outcomes : List Bool} (hsome : outcomes ≠ []) :
    |successRate outcomes - successFraction outcomes| ≤ (outcomes.length + 1) / 40000 := by
  have hdrift := rate_units_drift 0 0 outcomes
  rw [Nat.cast_zero, zero_mul, zero_add, zero_add, mul_zero, zero_add] at hdrift
  have hdrift : |4 * ((outcomes.length : ℚ) * rateUnits 0 0 outcomes - 10000 * outcomes.count true)| ≤
      outcomes.length * (outcomes.length + 1) := by exact_mod_cast hdrift
  rw [abs_mul, abs_of_pos (show (0 : ℚ) < 4 by norm_num)] at hdrift
  rw [success_rate_near_iff hsome]
  linarith

/-- The success rate of eight outcomes at most is within a ten-thousandth of the fraction of successes. -/
theorem success_rate_near_of_few {outcomes : List Bool} (hsome : outcomes ≠ []) (hfew : outcomes.length ≤ 8) :
    |successRate outcomes - successFraction outcomes| ≤ 1 / 10000 := by
  have hnear := near_of_stays (show staysNear 8 0 0 0 = true by decide +kernel) hfew
  rw [zero_add, zero_add, unitsNear, decide_eq_true_eq] at hnear
  qify at hnear
  rw [success_rate_near_iff hsome, abs_le]
  constructor <;> linarith

/-- From 19999 outcomes on a success rate stays. -/
theorem success_rate_frozen {outcomes : List Bool} (hmany : 19999 ≤ outcomes.length) (later : List Bool) :
    successRate (outcomes ++ later) = successRate outcomes := by
  rw [success_rate_eq, success_rate_eq, rate_units_append,
    rate_units_frozen (rate_units_le (Nat.zero_le _) 0 outcomes) (by omega)]

/-- A success rate is still 0 after failures. -/
theorem rate_units_of_failures (before n : Nat) : rateUnits 0 before (List.replicate n false) = 0 := by
  induction n generalizing before with
  | zero => rfl
  | succ n ih =>
      rw [List.replicate_succ, rateUnits, nextUnits, Bool.toNat_false, Nat.zero_mul, Nat.mul_zero, Nat.add_zero,
        roundHalfEven, Nat.zero_div, Nat.zero_mod]
      exact ih (before + 1)

/-- Success rates are off by as much as there is: after failures enough, successes do not count any more. -/
theorem success_rate_far {failures : Nat} (hmany : 19999 ≤ failures) {ε : ℚ} (hε : ε < 1) :
    ∃ n, let outcomes := List.replicate failures false ++ List.replicate n true
      ε < |successRate outcomes - successFraction outcomes| := by
  obtain ⟨n, hn⟩ := exists_nat_gt (ε * failures / (1 - ε))
  have hlast : successRate (List.replicate failures false ++ List.replicate n true) = 0 := by
    rw [success_rate_frozen (hmany.trans_eq List.length_replicate.symm), success_rate_eq, rate_units_of_failures,
      Nat.cast_zero, zero_div]
  have hfraction : successFraction (List.replicate failures false ++ List.replicate n true) = n / (failures + n) := by
    simp [successFraction, List.count_replicate]
  have hpos : (0 : ℚ) < failures + n := by exact_mod_cast (show 0 < failures + n by omega)
  refine ⟨n, ?_⟩
  rw [div_lt_iff₀ (by linarith)] at hn
  dsimp only
  rw [hlast, hfraction, zero_sub, abs_neg, abs_of_nonneg (by positivity), lt_div_iff₀ hpos]
  linarith

end Decimal

/-! ### The success rates that are stored -/

namespace Engine

variable {σ : Type} {acts : List (Moment × Act)}

/-- What a new engine keeps of a rule that was created with statistics of zero is the rolling success rate of the
outcomes that were recorded since then, in binary64 arithmetic. Without the errors of binary64 arithmetic it is near
the fraction of successes only as long as there are few outcomes: it is off by a quarter of a ten-thousandth at most
for each of them and once more, by a ten-thousandth at most up to eight; from 19999 on no outcome moves it, so that
after as many failures it is off by nearly 1 in the end. -/
theorem success_rate_drifts {rules : RuleStore} (hrules : rules.IsEmpty) (p : ExecutionStore) (world : σ)
    (hacts : (start rules p world).Admits acts) (v : Environment σ) :
    let e := start rules p world
    (∀ id r, (e.after v acts).rules.get id = .ok (some r) →
      ∃ before now d later, acts = before ++ (now, .createRule d) :: later ∧
        (d.metadata.executionCount = 0 → d.metadata.successRate = 0 →
          let outcomes := ((e.after v (before ++ [(now, .createRule d)])).recordingsOf v later id).map
            fun x => decide (x.status = .completed)
          r.metadata.executionCount = outcomes.length ∧ r.metadata.successRate = Binary64.successRate outcomes)) ∧
    (∀ outcomes ≠ [], let error := |Decimal.successRate outcomes - successFraction outcomes|
      error ≤ (outcomes.length + 1) / 40000 ∧ (outcomes.length ≤ 8 → error ≤ 1 / 10000)) ∧
    (∀ outcomes, 19999 ≤ outcomes.length →
      ∀ later, Decimal.successRate (outcomes ++ later) = Decimal.successRate outcomes) ∧
    ∀ failures ≥ 19999, ∀ ε < 1, ∃ n, let outcomes := List.replicate failures false ++ List.replicate n true
      ε < |Decimal.successRate outcomes - successFraction outcomes| := by
  refine ⟨fun id r hr => ?_, fun outcomes hsome => ⟨Decimal.success_rate_near hsome,
    Decimal.success_rate_near_of_few hsome⟩, fun outcomes hmany => Decimal.success_rate_frozen hmany,
    fun failures hmany ε hε => Decimal.success_rate_far hmany hε⟩
  obtain ⟨before, now, d, later, heq, htallies⟩ := created_tallied hrules hacts hr
  refine ⟨before, now, d, later, heq, fun hcount hrate => ?_⟩
  constructor
  · rw [htallies.count, hcount, Int.zero_add, List.length_map]
  · rw [htallies.rate 0 hcount, hrate]
    rfl

/-- Nine outcomes of which three are successes. -/
def wavering : List Bool := [false, false, false, false, true, true, true, false, false]

/-- A rule with an action is created and executed nine times. -/
def nineCalls : List (Moment × Act) :=
  (.utc 0, .createRule (Rule.plain "rule" [.plain "action"]).toRuleDraft) ::
    List.replicate 9 (.utc 0, .execute "rule_0001" [] .empty none)

/-- Of nine executions three are successes, but the success rate that is stored is 0.3332: it is off by more than a
ten-thousandth. -/
theorem success_rate_drifts_wavering :
    let e : Engine (List Attempt) := start (.memory .empty) (.memory .empty)
      (wavering.map fun completed => .over (if completed then .ok .null else .error (.action "No answer" none)))
    (∃ r, (e.after .scripted nineCalls).rules.get "rule_0001" = .ok (some r) ∧ r.metadata.executionCount = 9 ∧
      r.metadata.successRate = 0.3332 ∧ r.metadata.successRate = Binary64.successRate wavering) ∧
    1 / 10000 < |Decimal.successRate wavering - successFraction wavering| := by
  intro e
  have hstored : (((e.after .scripted nineCalls).rules.get "rule_0001").toOption.join.map fun r =>
      (r.metadata.executionCount, r.metadata.successRate)) = some (9, 0.3332) := by decide +kernel
  have houtcomes : ((e.after .scripted (nineCalls.take 1)).recordingsOf .scripted (nineCalls.drop 1) "rule_0001").map
      (fun x => decide (x.status = .completed)) = wavering := by decide +kernel
  obtain ⟨r, hr, hfields⟩ := Outcome.found_of_map hstored
  rw [Prod.mk.injEq] at hfields
  obtain ⟨hrates, _⟩ := success_rate_drifts (show RuleStore.IsEmpty (.memory .empty) from rfl) (.memory .empty)
    e.world (show e.Admits nineCalls from nofun) .scripted
  obtain ⟨before, now, d, later, hacts, hrate⟩ := hrates "rule_0001" r hr
  have hbefore : before = [] := by
    cases before with
    | nil => rfl
    | cons first before =>
        have hcalls : (now, Act.createRule d) ∈ before ++ (now, .createRule d) :: later :=
          List.mem_append_right before List.mem_cons_self
        have hnine := (List.cons.inj hacts).2
        change _ = before ++ (now, .createRule d) :: later at hnine
        rw [← hnine] at hcalls
        cases (Prod.mk.inj (List.eq_of_mem_replicate hcalls)).2
  subst hbefore
  obtain ⟨hfirst, rfl⟩ := List.cons.inj hacts
  obtain ⟨rfl, hd⟩ := Prod.mk.inj hfirst
  cases hd
  refine ⟨⟨r, hr, hfields.1, hfields.2, ?_⟩, ?_⟩
  · rw [(hrate rfl rfl).2]
    exact congrArg Binary64.successRate houtcomes
  · have hunits : rateUnits 0 0 wavering = 3332 := by decide +kernel
    rw [Decimal.success_rate_eq, hunits, successFraction]
    norm_num [wavering, abs_of_neg]

end Engine

end Rulebook
