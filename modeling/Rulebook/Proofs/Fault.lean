import Rulebook.Engine.Execution
import Rulebook.Proofs.Numeric.Binary64
import Rulebook.Proofs.Outcome

/-!
# What cannot be computed

Three computations that an execution needs can fail: the limits of its rule cannot be checked if times
cannot be compared (`RateLimit.check_eq_error_iff`), its conditions cannot be told if a number cannot be
read or converted (`Condition.all_hold_eq_error_iff`), and it cannot be counted in the metadata of its
rule if the count is out of bounds (`RuleMetadata.recording_cases`).
-/

namespace Rulebook

namespace RateLimit

variable {s : ExecutionStore} {ruleId : String} {settings : RuleSettings} {now last : Moment}
  {fault : TimeFault}

/-- The time that has passed since the last start cannot be compared with the cooldown. -/
def Incomparable (minutes : Int) (last now : Moment) : TimeFault → Prop
  | .mixedOffsets => now.isAware ≠ last.isAware
  | .spanTooLong => now.isAware = last.isAware ∧ Moment.maxSpan < minutes * microsPerMinute
  | _ => False

/-- The check whether a rule cools down fails if times cannot be compared. -/
theorem is_cooling_eq_error_iff (minutes : Int) (last now : Moment) :
    isCooling minutes last now = .error fault ↔ Incomparable minutes last now fault := by
  unfold isCooling Moment.since
  by_cases haware : now.isAware = last.isAware
  · rw [if_pos haware]
    by_cases hlong : Moment.maxSpan < minutes * microsPerMinute
    · cases fault <;> simp [Incomparable, haware, hlong, bind, Except.bind]
    · cases fault <;> simp [Incomparable, haware, hlong, bind, Except.bind]
  · rw [if_neg haware]
    cases fault <;> simp [Incomparable, haware, bind, Except.bind]

/-- The limits of a rule cannot be checked: it is not known which day it is, or the rule has started
before, may still run today and cools down for a time that cannot be compared. -/
def Faults (s : ExecutionStore) (ruleId : String) (settings : RuleSettings) (now : Moment)
    (fault : TimeFault) : Prop :=
  now.utcDay = .error fault ∨
    ∃ day count last, now.utcDay = .ok day ∧ s.count ruleId day = .ok count ∧
      count < settings.maxExecutionsPerDay ∧ 0 < settings.cooldownPeriod ∧
      s.lastStarted ruleId = .ok (some last) ∧ Incomparable settings.cooldownPeriod last now fault

variable {day : Date} {n : Nat} {started : Option Moment}

/-- What the check of limits makes of what the store answers. -/
theorem check_eq (hday : now.utcDay = .ok day) (hn : s.count ruleId day = .ok n) :
    s.lastStarted ruleId = .ok started →
    check s ruleId settings now =
      if settings.maxExecutionsPerDay ≤ n then .ok (some dailyQuota)
      else if settings.cooldownPeriod ≤ 0 then .ok none
      else match started with
        | none => .ok none
        | some last => match isCooling settings.cooldownPeriod last now with
          | .error fault => .error (.time fault)
          | .ok cools => if cools then .ok (some cooldown) else .ok none := by
  intro hstarted
  rw [check, hday]
  dsimp only [Except.mapError, bind, Except.bind]
  rw [hn]
  dsimp only
  rw [hstarted]
  cases started with
  | none => rfl
  | some last => cases hcools : isCooling settings.cooldownPeriod last now <;> simp [hcools]

/-- Limits that cannot be checked by what the store answers, on a day that is known. -/
theorem faults_iff (hday : now.utcDay = .ok day) (hn : s.count ruleId day = .ok n)
    (hstarted : s.lastStarted ruleId = .ok started) :
    Faults s ruleId settings now fault ↔ n < settings.maxExecutionsPerDay ∧
      0 < settings.cooldownPeriod ∧
      ∃ last, started = some last ∧ Incomparable settings.cooldownPeriod last now fault := by
  constructor
  · rintro (hunknown | ⟨day', n', last, hday', hn', hquota, hpositive, hlast, hincomparable⟩)
    · cases hday.symm.trans hunknown
    · obtain rfl := Except.ok.inj (hday.symm.trans hday')
      obtain rfl := Except.ok.inj (hn.symm.trans hn')
      exact ⟨hquota, hpositive, last, Except.ok.inj (hstarted.symm.trans hlast), hincomparable⟩
  · rintro ⟨hquota, hpositive, last, rfl, hincomparable⟩
    exact .inr ⟨day, n, last, hday, hn, hquota, hpositive, hstarted, hincomparable⟩

/-- Where the store answers, the check of limits fails exactly if the limits cannot be checked. -/
theorem check_eq_error_iff {f : Failure} (hcount : ∀ day, ∃ n, s.count ruleId day = .ok n)
    (hstarted : ∃ m, s.lastStarted ruleId = .ok m) :
    check s ruleId settings now = .error f ↔
      ∃ fault, f = .time fault ∧ Faults s ruleId settings now fault := by
  cases hday : now.utcDay with
  | error g =>
      have hcheck : check s ruleId settings now = .error (.time g) := by
        rw [check, hday]
        rfl
      rw [hcheck]
      constructor
      · intro h
        exact ⟨g, (Except.error.inj h).symm, .inl hday⟩
      · rintro ⟨fault, rfl, hunknown | ⟨_, _, _, hknown, _⟩⟩
        · rw [Except.error.inj (hday.symm.trans hunknown)]
        · cases hday.symm.trans hknown
  | ok day =>
      obtain ⟨n, hn⟩ := hcount day
      obtain ⟨started, hstarted⟩ := hstarted
      rw [check_eq hday hn hstarted]
      simp only [faults_iff hday hn hstarted]
      by_cases hquota : settings.maxExecutionsPerDay ≤ n
      · rw [if_pos hquota]
        exact iff_of_false nofun fun ⟨_, _, hlt, _⟩ => absurd hlt (Int.not_lt.mpr hquota)
      by_cases hzero : settings.cooldownPeriod ≤ 0
      · rw [if_neg hquota, if_pos hzero]
        exact iff_of_false nofun fun ⟨_, _, _, hlt, _⟩ => absurd hlt (Int.not_lt.mpr hzero)
      rw [if_neg hquota, if_neg hzero]
      cases started with
      | none => exact iff_of_false nofun fun ⟨_, _, _, _, _, h, _⟩ => nomatch h
      | some last =>
          have hcooling : ∀ fault, isCooling settings.cooldownPeriod last now = .error fault ↔
              Incomparable settings.cooldownPeriod last now fault :=
            fun _ => is_cooling_eq_error_iff _ _ _
          dsimp only
          cases hcools : isCooling settings.cooldownPeriod last now with
          | error g =>
              constructor
              · intro h
                exact ⟨g, (Except.error.inj h).symm, Int.not_le.mp hquota, Int.not_le.mp hzero, last, rfl,
                  (hcooling g).mp hcools⟩
              · rintro ⟨fault, rfl, _, _, _, hlast, hincomparable⟩
                obtain rfl := Option.some.inj hlast
                have hsame := hcools.symm.trans ((hcooling fault).mpr hincomparable)
                rw [Except.error.inj hsame]
          | ok cools =>
              refine iff_of_false (by cases cools <;> nofun) ?_
              rintro ⟨fault, _, _, _, _, hlast, hincomparable⟩
              obtain rfl := Option.some.inj hlast
              cases hcools.symm.trans ((hcooling fault).mpr hincomparable)

end RateLimit

/-- A number that is too large to be compared. -/
def Value.IsHuge (v : Value) : Prop := ∃ n, v = .int n ∧ Binary64.leastHuge ≤ n.natAbs

/-- A value cannot be measured exactly if it is too large. -/
theorem Value.measure_eq_error_iff {v : Value} {fault : NumberFault} :
    v.measure? = .error fault ↔ fault = .tooLargeForFloat ∧ v.IsHuge := by
  cases v with
  | int n =>
      rw [measure?]
      cases hn : Binary64.ofInt? n with
      | none =>
          dsimp only
          refine ⟨fun h => ⟨(Except.error.inj h).symm, n, rfl, Binary64.of_int_eq_none_iff.mp hn⟩, ?_⟩
          rintro ⟨rfl, _⟩
          rfl
      | some x =>
          refine iff_of_false nofun ?_
          rintro ⟨_, m, hm, hhuge⟩
          cases hm
          cases hn.symm.trans (Binary64.of_int_eq_none_iff.mpr hhuge)
  | text s =>
      refine iff_of_false ?_ fun ⟨_, _, h, _⟩ => nomatch h
      rw [measure?]
      split <;> nofun
  | _ => exact iff_of_false nofun fun ⟨_, _, h, _⟩ => nomatch h

namespace Condition

variable {c : Condition} {data : Value} {fault : NumberFault}

/-- A comparison with what was measured fails exactly if the other number is too large. -/
theorem compare_measured_eq_error_iff (less : Float → Float → Bool) (left : Option Float) (expected : Value) :
    (expected.measure?.bind fun right => match left, right with
      | some x, some y => .ok (less x y)
      | _, _ => .ok false) = .error fault ↔ fault = .tooLargeForFloat ∧ expected.IsHuge := by
  rw [← Value.measure_eq_error_iff]
  cases expected.measure? with
  | error g => simp [Except.bind]
  | ok right => cases left <;> cases right <;> exact iff_of_false (by rintro ⟨⟩) (by rintro ⟨⟩)

/-- A comparison fails exactly if one of the numbers is too large. -/
theorem compare_eq_error_iff (less : Float → Float → Bool) (actual : Option Value) (expected : Value) :
    compareMeasures less actual expected = .error fault ↔
      fault = .tooLargeForFloat ∧ ((∃ v, actual = some v ∧ v.IsHuge) ∨ expected.IsHuge) := by
  cases actual with
  | none =>
      refine (compare_measured_eq_error_iff less none expected).trans (and_congr_right fun _ => ?_)
      simp
  | some v =>
      have hleft : ∀ f, v.measure? = .error f ↔ f = .tooLargeForFloat ∧ v.IsHuge :=
        fun _ => Value.measure_eq_error_iff
      rw [compareMeasures]
      dsimp only
      cases hv : v.measure? with
      | error g =>
          obtain ⟨rfl, hhuge⟩ := (hleft g).mp hv
          refine ⟨fun h => ⟨(Except.error.inj h).symm, .inl ⟨v, rfl, hhuge⟩⟩, ?_⟩
          rintro ⟨rfl, _⟩
          rfl
      | ok left =>
          have hsmall : ¬v.IsHuge := by
            intro hhuge
            cases hv.symm.trans ((hleft _).mpr ⟨rfl, hhuge⟩)
          refine (compare_measured_eq_error_iff less left expected).trans (and_congr_right fun _ => ?_)
          simp [hsmall]

/-- A condition cannot be told if its path has digits that are no number, or if it compares a number that
is too large. -/
def Faults (c : Condition) (data : Value) (fault : NumberFault) : Prop :=
  Path.resolve data c.field = .error (.index fault) ∨
    ∃ actual, Path.resolve data c.field = .ok actual ∧
      (c.operator = .greaterThan ∨ c.operator = .lessThan) ∧ fault = .tooLargeForFloat ∧
      ((∃ v, actual = some v ∧ v.IsHuge) ∨ c.value.IsHuge)

/-- The outcome of a condition fails exactly if the condition cannot be told. -/
theorem outcome_eq_error_iff : c.outcome data = .error fault ↔ c.Faults data fault := by
  unfold outcome Faults
  cases hresolve : Path.resolve data c.field with
  | error e =>
      cases e with
      | index f => simp
      | path f => simp
  | ok actual =>
      have hmap : ∀ r : Except NumberFault Bool,
          r.map (Except.ok (ε := ConditionError)) = .error fault ↔ r = .error fault := by
        intro r
        cases r <;> simp [Except.map]
      dsimp only
      rw [hmap]
      cases hoperator : c.operator with
      | greaterThan => simp [holds, compare_eq_error_iff]
      | lessThan => simp [holds, compare_eq_error_iff]
      | contains =>
          refine iff_of_false ?_ (by simp)
          intro h
          simp only [holds] at h
          split at h <;> cases h
      | _ => simp [holds]

/-- The first of some conditions that cannot be told has a fault. -/
def FirstFault (conditions : List Condition) (data : Value) (fault : NumberFault) : Prop :=
  ∃ before c after, conditions = before ++ c :: after ∧ (∀ b ∈ before, ∀ f, ¬b.Faults data f) ∧
    c.Faults data fault

/-- Conditions fail with the fault of the first one that cannot be told. -/
theorem all_hold_eq_error_iff {conditions : List Condition} :
    allHold conditions data = .error fault ↔ FirstFault conditions data fault := by
  have hone : ∀ (c : Condition) f, (c.holdsIn data).map (fun b => (c, b)) = .error f ↔
      c.Faults data f := by
    intro c f
    rw [← outcome_eq_error_iff, holdsIn]
    cases c.outcome data <;> simp [Except.map]
  have hnone : ∀ c : Condition, (∃ r, (c.holdsIn data).map (fun b => (c, b)) = .ok r) ↔
      ∀ f, ¬c.Faults data f := by
    intro c
    simp only [← hone]
    cases (c.holdsIn data).map (fun b => (c, b)) <;> simp
  have hmap := Outcome.map_eq_error_iff (f := fun c : Condition => (c.holdsIn data).map fun b => (c, b))
    (l := conditions) (e := fault)
  simp only [hone, hnone] at hmap
  rw [FirstFault, ← hmap, allHold]
  cases conditions.mapM fun c => (c.holdsIn data).map fun b => (c, b) <;> simp [bind, Except.bind]

/-- It is told whether all conditions hold exactly if none of them has a fault. -/
theorem all_hold_eq_ok_iff {conditions : List Condition} :
    (∃ b, allHold conditions data = .ok b) ↔ ∀ f, ¬FirstFault conditions data f := by
  simp only [← all_hold_eq_error_iff]
  cases allHold conditions data <;> simp

end Condition

/-- Why no further execution can be counted in the metadata of a rule, if there is a reason: the count or
the next one is too large, or the next one is zero. -/
def RuleMetadata.fault? (m : RuleMetadata) : Option Failure :=
  if Binary64.leastHuge ≤ m.executionCount.natAbs ∨
      Binary64.leastHuge ≤ (m.executionCount + 1).natAbs then some (.number .tooLargeForFloat)
  else if m.executionCount = -1 then some .divisionByZero
  else none

/-- A rule that was executed minus one times cannot be executed zero times. -/
theorem RuleMetadata.fault_of_minus_one {m : RuleMetadata} (h : m.executionCount = -1) :
    m.fault? = some .divisionByZero := by
  have hsmall : ¬(Binary64.leastHuge ≤ m.executionCount.natAbs ∨
      Binary64.leastHuge ≤ (m.executionCount + 1).natAbs) := by
    rw [h]
    decide +kernel
  rw [fault?, if_neg hsmall, if_pos h]

/-- Recording an execution fails exactly if no further one can be counted. -/
theorem RuleMetadata.recording_cases (m : RuleMetadata) (x : Execution) :
    (∃ f, m.fault? = some f ∧ m.recording x = .error f) ∨
      m.fault? = none ∧ ∃ m', m.recording x = .ok m' := by
  simp only [fault?, ← Binary64.of_int_eq_none_iff]
  unfold recording
  have hcount : m.executionCount + 1 = 0 ↔ m.executionCount = -1 := by omega
  cases Binary64.ofInt? m.executionCount with
  | none => exact .inl ⟨_, if_pos (.inl rfl), rfl⟩
  | some before =>
      dsimp only
      cases Binary64.ofInt? (m.executionCount + 1) with
      | none => exact .inl ⟨_, if_pos (.inr rfl), rfl⟩
      | some after =>
          dsimp only
          rw [if_neg (by simp)]
          by_cases h : m.executionCount = -1
          · rw [if_pos h, if_pos (hcount.mpr h)]
            exact .inl ⟨_, rfl, rfl⟩
          · rw [if_neg h, if_neg (h ∘ hcount.mp)]
            exact .inr ⟨rfl, _, rfl⟩

end Rulebook
