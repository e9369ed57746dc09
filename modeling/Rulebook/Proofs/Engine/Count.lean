import Rulebook.Proofs.Engine.Rewrite
import Rulebook.Proofs.Engine.Tally

/-!
# Which executions can be counted

A rule comes with the number of its executions, which may be below zero. Recorded executions are counted from there
on, but none is counted from -1 to zero, since there the means are divided by zero: a number below zero stays so, and
a rule that has come to -1 fails each further call when its execution is over (`Engine.execution_count_nonneg_iff`).
-/

namespace Rulebook

namespace Engine

variable {σ : Type} {v : Environment σ} {e : Engine σ} {acts : List (Moment × Act)} {x : Execution} {r : Rule}

/-- While the store of rules answers, writing down how an execution went fails exactly if it cannot be counted. -/
theorem record_outcome_answer (hrules : e.rules.Answers) (hr : e.rules.get x.ruleId = .ok (some r)) :
    (e.perform (recordOutcome x)).2 = match r.metadata.fault? with
      | some f => .error f
      | none => .ok () := by
  rw [recordOutcome, perform_bind, perform_get]
  dsimp only
  rw [perform_bind, perform_lift, hr]
  dsimp only
  rw [perform_bind, perform_lift]
  obtain ⟨f, hfault, hrecording⟩ | ⟨hfault, metadata, hrecording⟩ := r.metadata.recording_cases x
  · rw [hfault, hrecording]
  · obtain ⟨t, ht⟩ := hrules.kept _ _ metadata hr
    rw [hfault, hrecording]
    dsimp only
    rw [saveRule, perform_bind, perform_get]
    dsimp only
    rw [perform_bind, perform_lift, ht]
    rfl

end Engine

/-- No further execution can be counted at -1, because that would make zero of them. -/
theorem RuleMetadata.fault_eq_division_iff {m : RuleMetadata} :
    m.fault? = some .divisionByZero ↔ m.executionCount = -1 := by
  refine ⟨fun h => ?_, fault_of_minus_one⟩
  rw [fault?] at h
  split at h
  next => cases h
  next =>
    split at h
    next hcount => exact hcount
    next => cases h

/-- A further execution can be counted from a number that is not -1 and lies in the range of binary64 numbers with
its successor. -/
theorem RuleMetadata.fault_eq_none_iff {m : RuleMetadata} :
    m.fault? = none ↔ m.executionCount ≠ -1 ∧ -(Binary64.leastHuge : Int) < m.executionCount ∧
      m.executionCount + 1 < Binary64.leastHuge := by
  rw [fault?]
  split
  next hlarge => exact iff_of_false (Option.some_ne_none _) (by omega)
  next hsmall =>
    split
    next hcount => exact iff_of_false (Option.some_ne_none _) fun h => h.1 hcount
    next hcount => exact iff_of_true rfl (by omega)

namespace Engine

variable {σ : Type} {acts : List (Moment × Act)}

/-- Whatever is done to a new engine, the number of executions of a rule that it keeps is the one that the rule was
created with and those that were recorded since then. It is not below zero exactly if it was not in the first place.
Writing down how an execution went fails for a division by zero exactly at -1, and it does not fail exactly if the
number is another one and lies in the range of binary64 numbers with its successor. -/
theorem execution_count_nonneg_iff {rules : RuleStore} (hrules : rules.IsEmpty) (p : ExecutionStore) (world : σ)
    (hacts : (start rules p world).Admits acts) (v : Environment σ) :
    let e := (start rules p world).after v acts
    ∀ id r, e.rules.get id = .ok (some r) →
      ∃ before now d later, acts = before ++ (now, .createRule d) :: later ∧
        r.metadata.executionCount = d.metadata.executionCount +
          (((start rules p world).after v (before ++ [(now, .createRule d)])).recordingsOf v later id).length ∧
        (0 ≤ r.metadata.executionCount ↔ 0 ≤ d.metadata.executionCount) ∧
        ∀ x : Execution, x.ruleId = id →
          ((e.perform (recordOutcome x)).2 = .error .divisionByZero ↔ r.metadata.executionCount = -1) ∧
          ((e.perform (recordOutcome x)).2 = .ok () ↔
            r.metadata.executionCount ≠ -1 ∧ -(Binary64.leastHuge : Int) < r.metadata.executionCount ∧
              r.metadata.executionCount + 1 < Binary64.leastHuge) := by
  intro e id r hr
  obtain ⟨before, now, d, later, heq, htallies⟩ := created_tallied hrules hacts hr
  have hsign : 0 ≤ r.metadata.executionCount ↔ 0 ≤ d.metadata.executionCount := by
    have hcount := htallies.count
    have hbelow := htallies.sign
    omega
  refine ⟨before, now, d, later, heq, htallies.count, hsign, fun x hx => ?_⟩
  rw [record_outcome_answer (after_answers hrules hacts) (hx ▸ hr), ← RuleMetadata.fault_eq_division_iff,
    ← RuleMetadata.fault_eq_none_iff]
  cases r.metadata.fault? <;> simp

/-- A definition whose rule comes with a number of executions. -/
def counting (executionCount : Int) : RuleDraft :=
  { (Rule.plain "rule" []).toRuleDraft with metadata := { RuleMetadata.plain with executionCount } }

/-- A rule that comes with -2 executions is executed twice: one execution is recorded, and none can be any more. -/
theorem execution_count_below_zero :
    let e : Engine (List Attempt) := (start (.memory .empty) (.memory .empty) []).after .scripted
      ((.utc 0, .createRule (counting (-2))) :: List.replicate 2 (.utc 0, .execute "rule_0001" [] .empty none))
    ∃ r, e.rules.get "rule_0001" = .ok (some r) ∧ r.metadata.executionCount = -1 ∧
      ∀ x : Execution, x.ruleId = "rule_0001" → (e.perform (recordOutcome x)).2 = .error .divisionByZero := by
  intro e
  have hstored : ((e.rules.get "rule_0001").toOption.join.map (·.metadata.executionCount)) = some (-1) := by
    decide +kernel
  obtain ⟨r, hr, hcount⟩ := Outcome.found_of_map hstored
  obtain ⟨_, _, _, _, _, _, _, hrecords⟩ := execution_count_nonneg_iff
    (show RuleStore.IsEmpty (.memory .empty) from rfl) (.memory .empty) [] (fun hdatabase => nomatch hdatabase)
    .scripted "rule_0001" r hr
  exact ⟨r, hr, hcount, fun x hx => (hrecords x hx).1.mpr hcount⟩

end Engine

end Rulebook
