import Rulebook.Proofs.Metrics.Tally
import Rulebook.Proofs.Store.Table
import Rulebook.Proofs.Time.Calendar

/-!
# What metrics add up to

While all clocks have known offsets, metrics count the executions that were triggered in the period
(`Metrics.counted`). They fail if one of these has no day in UTC, since the instant falls out of the years 1 to 9999
there; else their parts agree with one another (`Metrics.Conserves`), and those of two periods that meet add up to
those of both (`Metrics.conserved`).
-/

namespace Rulebook

/-- The day in UTC on which the execution was triggered. -/
def Execution.day (e : Execution) : Date := Date.ofDays e.triggeredAt.dayNumber

/-- A moment on a clock of a known offset has a day in UTC unless the instant is not representable there. -/
theorem Moment.utc_day_of_aware {m : Moment} (h : m.isAware = true) :
    m.utcDay = if m.overruns then .error .outOfRange else .ok (Date.ofDays m.dayNumber) := by
  rw [utcDay, if_pos h, toUtc, overruns]
  cases inRange m.instant <;> rfl

namespace Metrics

/-- The executions that metrics count. -/
def counted (executions : List Execution) (period : Option Period) : List Execution :=
  executions.filter fun e => (period.map (·.holds e.triggeredAt)).getD true

/-- The executions of a day. -/
def dayTally (executions : List Execution) (date : Date) : DayTally :=
  ⟨date, executions.countP (·.day == date), executions.countP fun e => e.day == date && e.isSuccess,
    executions.countP fun e => e.day == date && e.isFailure⟩

/-- The parts of metrics agree with the executions that are counted, and with one another. -/
structure Conserves (m : Metrics) (executions : List Execution) : Prop where
  total : m.totalExecutions = executions.length
  successes : m.successes = executions.countP (·.isSuccess)
  skipped : m.skipped = executions.countP (·.wasSkipped)
  failures : m.failures = executions.countP (·.status == .failed)
  completed : m.successes + m.skipped = executions.countP (·.status == .completed)
  settled : m.successes + m.skipped + m.failures ≤ m.totalExecutions
  /-- The days are those of executions, in their order, each with what was triggered on it. -/
  day_iff : ∀ date, (∃ d ∈ m.days, d.date = date) ↔ ∃ e ∈ executions, e.triggeredAt.utcDay = .ok date
  days_counted : ∀ d ∈ m.days, d = dayTally executions d.date
  days_ascend : m.days.Pairwise fun a b => a.date.toDays < b.date.toDays
  days_executions : (m.days.map (·.executions)).sum = m.totalExecutions
  days_successes : (m.days.map (·.successes)).sum = m.successes
  days_failures : (m.days.map (·.failures)).sum = m.failures
  errors_sum : (m.errors.map (·.count)).sum = m.failures
  errors_distinct : (m.errors.map (·.kind)).Nodup
  errors_descend : m.errors.Pairwise fun a b => b.count ≤ a.count
  rules_limited : m.topRules.length ≤ topRulesLimit
  rules_distinct : (m.topRules.map (·.ruleId)).Nodup
  rules_descend : m.topRules.Pairwise fun a b => b.executions ≤ a.executions
  rules_counted : ∀ t ∈ m.topRules, t.executions = executions.countP (·.ruleId == t.ruleId)
  /-- A rule is left out only if there are enough others that were executed as often. -/
  rules_left_out : ∀ e ∈ executions, e.ruleId ∉ m.topRules.map (·.ruleId) → m.topRules.length = topRulesLimit ∧
    ∀ t ∈ m.topRules, executions.countP (·.ruleId == e.ruleId) ≤ t.executions

variable {rules : List Rule} {executions : List Execution} {period : Option Period}

/-- The days that are counted come once each, in their order. -/
theorem sorted_days (executions : List Execution) :
    let dates := ((tally (executions.map (·.day))).mergeSort fun a b => decide (a.1.toDays ≤ b.1.toDays)).map (·.1)
    dates.Nodup ∧ (∀ date, date ∈ dates ↔ date ∈ executions.map (·.day)) ∧ dates.Pairwise (·.toDays < ·.toDays) := by
  intro dates
  have hperm : dates.Perm (executions.map (·.day)).eraseDups :=
    ((List.mergeSort_perm _ _).map Prod.fst).trans (.of_eq (tally_keys _))
  have hnodup : dates.Nodup := hperm.nodup_iff.mpr (erase_dups_nodup _)
  have hmem : ∀ date, date ∈ dates ↔ date ∈ executions.map (·.day) := fun date =>
    hperm.mem_iff.trans List.mem_eraseDups
  have hsorted : dates.Pairwise fun a b => a.toDays ≤ b.toDays := by
    have hcounts := sorted_by_key (fun a : Date × Nat => a.1.toDays) (tally (executions.map (·.day)))
    exact List.pairwise_map.mpr hcounts
  refine ⟨hnodup, hmem, (hsorted.and hnodup).imp_of_mem fun {a b} ha hb h => ?_⟩
  -- days are told by their numbers
  obtain ⟨e, _, rfl⟩ := List.mem_map.mp ((hmem a).mp ha)
  obtain ⟨e', _, rfl⟩ := List.mem_map.mp ((hmem b).mp hb)
  refine lt_of_le_of_ne h.1 fun heq => h.2 ?_
  unfold Execution.day at heq ⊢
  rw [Date.to_days_of_days, Date.to_days_of_days] at heq
  rw [heq]

/-- What was triggered on a day is what is counted of the executions with that day. -/
theorem day_tally_eq {date : Date} {count : Nat} (h : (date, count) ∈ tally (executions.map (·.day))) :
    let ofDay := ((executions.map fun e => (e.day, e)).filter fun d => d.1 == date).map (·.2)
    (⟨date, count, ofDay.countP (·.isSuccess), ofDay.countP (·.isFailure)⟩ : DayTally) = dayTally executions date := by
  intro ofDay
  have hofday : ofDay = executions.filter (·.day == date) := by
    show List.map _ (List.filter _ _) = _
    rw [List.filter_map, List.map_map]
    exact List.map_id _
  rw [hofday, List.countP_filter, List.countP_filter, count_of_mem_tally h, count_keys, dayTally]
  simp only [Bool.and_comm]

/-- If the executions have days in UTC, these come once each, in their order, with what was triggered on them. -/
theorem days_of_eq (haware : ∀ e ∈ executions, e.triggeredAt.isAware = true)
    (hdays : ∀ e ∈ executions, e.triggeredAt.overruns = false) :
    ∃ dates : List Date, dates.Nodup ∧ (∀ date, date ∈ dates ↔ date ∈ executions.map (·.day)) ∧
      dates.Pairwise (·.toDays < ·.toDays) ∧ daysOf executions = .ok (dates.map (dayTally executions)) := by
  obtain ⟨hnodup, hmem, hsorted⟩ := sorted_days executions
  refine ⟨_, hnodup, hmem, hsorted, ?_⟩
  have hdated : executions.mapM (fun e => e.triggeredAt.utcDay.map fun day => (day, e)) =
      .ok (executions.map fun e => (e.day, e)) :=
    Outcome.map_eq_ok_of_eq fun e he => by
      rw [Moment.utc_day_of_aware (haware e he), hdays e he]
      rfl
  have hkeys : (executions.map fun e => (e.day, e)).map (·.1) = executions.map (·.day) := by
    rw [List.map_map]
    rfl
  unfold daysOf
  rw [hdated]
  dsimp only [bind, Except.bind]
  rw [hkeys, List.map_map]
  exact congrArg Except.ok (List.map_congr_left fun p hp => day_tally_eq (List.mem_mergeSort.mp hp))

/-- If an execution has no day in UTC, there is no list of days. -/
theorem days_of_overrun {e : Execution} (haware : ∀ e ∈ executions, e.triggeredAt.isAware = true) (he : e ∈ executions)
    (hday : e.triggeredAt.overruns = true) : daysOf executions = .error .outOfRange := by
  unfold daysOf
  cases hdated : executions.mapM fun e => e.triggeredAt.utcDay.map fun day => (day, e) with
  | ok dated =>
      obtain ⟨_, _, hok⟩ := Outcome.ok_of_mem hdated he
      rw [Moment.utc_day_of_aware (haware e he), hday] at hok
      cases hok
  | error f =>
      obtain ⟨before, x, after, rfl, _, hx⟩ := Outcome.map_eq_error_iff.mp hdated
      have hmem : x ∈ before ++ x :: after := List.mem_append_right _ List.mem_cons_self
      rw [Moment.utc_day_of_aware (haware x hmem)] at hx
      split at hx <;> cases hx
      rfl

/-- The kinds of failures are listed by frequency, and there are as many failures of them as failed executions. -/
theorem errors_listed (executions : List Execution) :
    ((errorsOf executions).map (·.count)).sum = executions.countP (·.isFailure) ∧
      ((errorsOf executions).map (·.kind)).Nodup ∧ (errorsOf executions).Pairwise fun a b => b.count ≤ a.count := by
  let kinds := (executions.filter (·.isFailure)).map fun e => ErrorKind.ofText e.failureText
  have hperm := most_frequent_perm (tally kinds)
  have hcounts : (errorsOf executions).map (·.count) = (mostFrequent (tally kinds)).map (·.2) := by
    unfold errorsOf
    rw [List.map_map]
    rfl
  have hkinds : (errorsOf executions).map (·.kind) = (mostFrequent (tally kinds)).map (·.1) := by
    unfold errorsOf
    rw [List.map_map]
    rfl
  refine ⟨?_, ?_, ?_⟩
  · rw [hcounts, (hperm.map _).sum_eq, tally_sum, List.length_map, List.countP_eq_length_filter]
  · rw [hkinds, (hperm.map _).nodup_iff, tally_keys]
    exact erase_dups_nodup kinds
  · exact List.pairwise_map.mpr (most_frequent_sorted _)

/-- The rules that are listed are counted as often as they were executed, by frequency. -/
theorem top_rules_listed (rules : List Rule) (executions : List Execution) :
    let top := topRulesOf rules executions
    (top.map (·.ruleId)).Nodup ∧ (top.Pairwise fun a b => b.executions ≤ a.executions) ∧
      ∀ t ∈ top, t.executions = executions.countP (·.ruleId == t.ruleId) := by
  intro top
  let counts := tally (executions.map (·.ruleId))
  have hids : top.map (·.ruleId) = ((mostFrequent counts).take topRulesLimit).map (·.1) := by
    show List.map _ (List.map _ _) = _
    rw [List.map_map]
    rfl
  have htaken := List.take_sublist topRulesLimit (mostFrequent counts)
  refine ⟨?_, ?_, fun t ht => ?_⟩
  · rw [hids]
    refine List.Nodup.sublist (htaken.map _) ?_
    rw [((most_frequent_perm counts).map _).nodup_iff, tally_keys]
    exact erase_dups_nodup _
  · exact List.pairwise_map.mpr ((most_frequent_sorted counts).sublist htaken)
  · obtain ⟨⟨id, count⟩, hmem, rfl⟩ := List.mem_map.mp ht
    have hcounted := (most_frequent_perm counts).mem_iff.mp (htaken.subset hmem)
    exact (count_of_mem_tally hcounted).trans (count_keys (·.ruleId) executions id)

/-- A rule that was executed is left out only if there are enough others that were executed as often. -/
theorem top_rules_left_out {e : Execution} (he : e ∈ executions)
    (hleft : e.ruleId ∉ (topRulesOf rules executions).map (·.ruleId)) :
    (topRulesOf rules executions).length = topRulesLimit ∧
      ∀ t ∈ topRulesOf rules executions, executions.countP (·.ruleId == e.ruleId) ≤ t.executions := by
  let counts := tally (executions.map (·.ruleId))
  have hcounted : (e.ruleId, executions.countP (·.ruleId == e.ruleId)) ∈ counts := by
    show _ ∈ tally _
    rw [tally_eq, List.mem_map]
    exact ⟨e.ruleId, List.mem_eraseDups.mpr (List.mem_map_of_mem he), by rw [count_keys]⟩
  have hnot : (e.ruleId, executions.countP (·.ruleId == e.ruleId)) ∉ (mostFrequent counts).take topRulesLimit := by
    refine fun hmem => hleft ?_
    unfold topRulesOf
    rw [List.map_map]
    exact List.mem_map_of_mem hmem
  obtain ⟨hle, hlength⟩ := le_of_not_taken hcounted hnot
  refine ⟨by rw [topRulesOf, List.length_map]; exact hlength, fun t ht => ?_⟩
  obtain ⟨p, hp, rfl⟩ := List.mem_map.mp ht
  exact hle p hp

/-- Executions that completed succeeded or were skipped. -/
theorem completed_counted (executions : List Execution) : executions.countP (·.isSuccess) +
    executions.countP (·.wasSkipped) = executions.countP (·.status == .completed) := by
  refine count_of_either (fun e => ?_) (fun e h => ?_) executions
  · unfold Execution.isSuccess Execution.wasSkipped
    cases e.status == .completed <;> simp
  · unfold Execution.isSuccess at h
    simpa using (Bool.and_eq_true_iff.mp h).2

/-- An execution that completed did not fail. -/
theorem settled_le (executions : List Execution) : executions.countP (·.status == .completed) +
    executions.countP (·.isFailure) ≤ executions.length := by
  rw [count_of_either (fun _ => rfl) (fun e h => ?_) executions]
  · exact List.countP_le_length
  · unfold Execution.isFailure
    rw [beq_iff_eq.mp h]
    rfl

/-- Metrics of a period are those of the executions that are counted. -/
theorem compute_eq (haware : ∀ e ∈ executions, e.triggeredAt.isAware = true) (hperiod : ∀ p ∈ period, p.IsAware) :
    compute rules executions period = compute rules (counted executions period) none := by
  cases period with
  | none =>
      have hall : counted executions none = executions := List.filter_eq_self.mpr fun _ _ => rfl
      rw [hall]
  | some p =>
      have hfilter : executions.filterM (fun e => p.contains e.triggeredAt) = .ok (counted executions (some p)) :=
        Outcome.filter_eq_ok fun e he => Period.contains_eq (hperiod p rfl) (haware e he)
      unfold compute
      dsimp only
      rw [hfilter]

/-- The dates that are listed are the days in UTC of the executions. -/
theorem mem_dates_iff {dates : List Date} {date : Date} (hmem : ∀ date, date ∈ dates ↔ date ∈ executions.map (·.day))
    (haware : ∀ e ∈ executions, e.triggeredAt.isAware = true)
    (hdays : ∀ e ∈ executions, e.triggeredAt.overruns = false) :
    date ∈ dates ↔ ∃ e ∈ executions, e.triggeredAt.utcDay = .ok date := by
  rw [hmem, List.mem_map]
  refine exists_congr fun e => and_congr_right fun he => ?_
  rw [Moment.utc_day_of_aware (haware e he), hdays e he]
  exact Except.ok.injEq _ _ ▸ Iff.rfl

/-- What is listed for a date is what was triggered on it. -/
theorem mem_tallies {dates : List Date} {d : DayTally} (h : d ∈ dates.map (dayTally executions)) :
    d.date ∈ dates ∧ d = dayTally executions d.date := by
  obtain ⟨date, hdate, rfl⟩ := List.mem_map.mp h
  exact ⟨hdate, rfl⟩

/-- If the executions have days in UTC, their metrics agree with them. -/
theorem compute_all (rules : List Rule) (haware : ∀ e ∈ executions, e.triggeredAt.isAware = true)
    (hdays : ∀ e ∈ executions, e.triggeredAt.overruns = false) :
    ∃ m, compute rules executions none = .ok m ∧ m.Conserves executions := by
  obtain ⟨dates, hnodup, hmem, hsorted, hok⟩ := days_of_eq haware hdays
  have hlisted : ∀ e ∈ executions, e.day ∈ dates := fun e he => (hmem _).mpr (List.mem_map_of_mem he)
  obtain ⟨herrors, hkinds, hfrequent⟩ := errors_listed executions
  obtain ⟨hids, hbusiest, hexact⟩ := top_rules_listed rules executions
  have hcompleted := completed_counted executions
  unfold compute
  dsimp only [bind, Except.bind]
  rw [hok]
  refine ⟨_, rfl, ?_⟩
  exact {
    total := rfl
    successes := rfl
    skipped := rfl
    failures := rfl
    completed := hcompleted
    settled := hcompleted ▸ settled_le executions
    day_iff := fun date => by
      rw [← mem_dates_iff hmem haware hdays]
      exact ⟨fun ⟨_, hd, h⟩ => h ▸ (mem_tallies hd).1, fun h => ⟨_, List.mem_map_of_mem h, rfl⟩⟩
    days_counted := fun d hd => (mem_tallies hd).2
    days_ascend := List.pairwise_map.mpr hsorted
    days_executions := by
      rw [List.map_map]
      have hall := sum_by_key hnodup Execution.day (fun _ => true) hlisted
      simp only [Bool.and_true, List.countP_true] at hall
      exact hall
    days_successes := by
      rw [List.map_map]
      exact sum_by_key hnodup Execution.day Execution.isSuccess hlisted
    days_failures := by
      rw [List.map_map]
      exact sum_by_key hnodup Execution.day Execution.isFailure hlisted
    errors_sum := herrors
    errors_distinct := hkinds
    errors_descend := hfrequent
    rules_limited := by
      rw [topRulesOf, List.length_map]
      exact List.length_take_le _ _
    rules_distinct := hids
    rules_descend := hbusiest
    rules_counted := hexact
    rules_left_out := fun e he hleft => top_rules_left_out he hleft }

/-- What is counted in two periods that meet is what is counted in both. -/
theorem counted_in_both (executions : List Execution) {start mid stop : Moment} (hstart : start.instant ≤ mid.instant)
    (hstop : mid.instant ≤ stop.instant) (test : Execution → Bool) :
    (counted executions (some ⟨start, mid⟩)).countP test + (counted executions (some ⟨mid, stop⟩)).countP test =
      (counted executions (some ⟨start, stop⟩)).countP test := by
  simp only [counted, List.countP_filter, Option.map_some, Option.getD_some]
  refine count_of_either (fun e => ?_) (fun e h => ?_) executions
  · rw [← Bool.and_or_distrib_left, Bool.eq_iff_iff]
    simp only [Period.holds, Bool.and_eq_true, Bool.or_eq_true, decide_eq_true_eq]
    refine and_congr_right fun _ => ?_
    omega
  · simp only [Period.holds, Bool.and_eq_true, decide_eq_true_eq] at h
    simp only [Period.holds, Bool.and_eq_false_iff, decide_eq_false_iff_not]
    omega

/-- What is counted in a part of a period is counted in the period. -/
theorem counted_mono {start stop start' stop' : Moment} (hstart : start'.instant ≤ start.instant)
    (hstop : stop.instant ≤ stop'.instant) {e : Execution} (h : e ∈ counted executions (some ⟨start, stop⟩)) :
    e ∈ counted executions (some ⟨start', stop'⟩) := by
  obtain ⟨hmem, hholds⟩ := List.mem_filter.mp h
  refine List.mem_filter.mpr ⟨hmem, ?_⟩
  simp only [Period.holds, Option.map_some, Option.getD_some, Bool.and_eq_true, decide_eq_true_eq] at hholds ⊢
  omega

/-- The clocks of executions that are counted have known offsets if all have. -/
theorem aware_of_counted (haware : ∀ e ∈ executions, e.triggeredAt.isAware = true) :
    ∀ e ∈ counted executions period, e.triggeredAt.isAware = true :=
  fun e he => haware e (List.mem_of_mem_filter he)

/-- Metrics of rules and executions with clocks of known offsets, be it of a period: if each of the executions that
are counted was triggered on a day in UTC, they are given, and their parts agree with what is counted and with one
another; else they fail. What is counted in two periods of which one ends where the other one starts adds up to what
is counted in both. -/
theorem conserved (rules : List Rule) (executions : List Execution)
    (haware : ∀ e ∈ executions, e.triggeredAt.isAware = true) :
    (∀ period : Option Period, (∀ p ∈ period, p.IsAware) →
      ((∀ e ∈ counted executions period, e.triggeredAt.overruns = false) →
        ∃ m, compute rules executions period = .ok m ∧ m.Conserves (counted executions period)) ∧
      ((∃ e ∈ counted executions period, e.triggeredAt.overruns = true) →
        compute rules executions period = .error .outOfRange)) ∧
      ∀ start mid stop : Moment, start.isAware = true → mid.isAware = true → stop.isAware = true →
        start.instant ≤ mid.instant → mid.instant ≤ stop.instant →
        (∀ e ∈ counted executions (some ⟨start, stop⟩), e.triggeredAt.overruns = false) →
        ∃ a b m, compute rules executions (some ⟨start, mid⟩) = .ok a ∧
          compute rules executions (some ⟨mid, stop⟩) = .ok b ∧
          compute rules executions (some ⟨start, stop⟩) = .ok m ∧
          a.totalExecutions + b.totalExecutions = m.totalExecutions ∧ a.successes + b.successes = m.successes ∧
          a.failures + b.failures = m.failures ∧ a.skipped + b.skipped = m.skipped := by
  have hcompute : ∀ period : Option Period, (∀ p ∈ period, p.IsAware) →
      (∀ e ∈ counted executions period, e.triggeredAt.overruns = false) →
      ∃ m, compute rules executions period = .ok m ∧ m.Conserves (counted executions period) := by
    intro period hperiod hdays
    rw [compute_eq haware hperiod]
    exact compute_all rules (aware_of_counted haware) hdays
  refine ⟨fun period hperiod => ⟨hcompute period hperiod, ?_⟩, ?_⟩
  · rintro ⟨e, he, hday⟩
    rw [compute_eq haware hperiod]
    unfold compute
    dsimp only [bind, Except.bind]
    rw [days_of_overrun (aware_of_counted haware) he hday]
  · intro start mid stop hstart hmid hstop hfirst hlast hdays
    have hboth := counted_in_both executions hfirst hlast
    have htotal := hboth fun _ => true
    simp only [List.countP_true] at htotal
    obtain ⟨a, ha, hcount⟩ := hcompute (some ⟨start, mid⟩) (by rintro _ ⟨⟩; exact ⟨hstart, hmid⟩)
      fun e he => hdays e (counted_mono (Int.le_refl _) hlast he)
    obtain ⟨b, hb, hcount'⟩ := hcompute (some ⟨mid, stop⟩) (by rintro _ ⟨⟩; exact ⟨hmid, hstop⟩)
      fun e he => hdays e (counted_mono hfirst (Int.le_refl _) he)
    obtain ⟨m, hm, hcounts⟩ := hcompute (some ⟨start, stop⟩) (by rintro _ ⟨⟩; exact ⟨hstart, hstop⟩) hdays
    refine ⟨a, b, m, ha, hb, hm, ?_, ?_, ?_, ?_⟩
    · rw [hcount.total, hcount'.total, hcounts.total, htotal]
    · rw [hcount.successes, hcount'.successes, hcounts.successes, hboth]
    · rw [hcount.failures, hcount'.failures, hcounts.failures, hboth]
    · rw [hcount.skipped, hcount'.skipped, hcounts.skipped, hboth]

/-- An execution that was triggered at a moment and has a status. -/
def triggered (at_ : Moment) (status : ExecutionStatus) : Execution where
  id := "execution"
  ruleId := "rule"
  tenantId := "tenant"
  triggeredBy := "manual"
  triggeredAt := at_
  status := status
  startedAt := none
  completedAt := none
  duration := none
  triggerData := []
  context := .empty
  steps := []
  error := none
  result := none

/-- An execution is counted on its day in UTC, which is the one before the day that the clock shows. -/
theorem conserved_before_midnight :
    let executions := [triggered (.utc microsPerDay) .failed, triggered ⟨microsPerDay, some 3600⟩ .completed]
    (∀ e ∈ executions, e.triggeredAt.isAware = true) ∧
      (∀ e ∈ counted executions none, e.triggeredAt.overruns = false) ∧
      (∃ m, compute [] executions none = .ok m ∧ ∃ d ∈ m.days, d.date = ⟨1, 1, 1⟩) ∧
      (∀ e ∈ counted executions (some ⟨.utc 0, .utc (2 * microsPerDay)⟩), e.triggeredAt.overruns = false) ∧
      ∃ a b m, compute [] executions (some ⟨.utc 0, .utc microsPerDay⟩) = .ok a ∧
        compute [] executions (some ⟨.utc microsPerDay, .utc (2 * microsPerDay)⟩) = .ok b ∧
        compute [] executions (some ⟨.utc 0, .utc (2 * microsPerDay)⟩) = .ok m ∧
        a.totalExecutions + b.totalExecutions = m.totalExecutions := by
  intro executions
  have haware : ∀ e ∈ executions, e.triggeredAt.isAware = true := by
    decide
  have hdays : ∀ e ∈ counted executions none, e.triggeredAt.overruns = false := by
    decide
  have hdays' : ∀ e ∈ counted executions (some ⟨.utc 0, .utc (2 * microsPerDay)⟩), e.triggeredAt.overruns = false := by
    decide
  obtain ⟨hperiods, hsplit⟩ := conserved [] executions haware
  obtain ⟨m, hm, hcount⟩ := (hperiods none nofun).1 hdays
  obtain ⟨a, b, both, ha, hb, hboth, htotal, _⟩ := hsplit (.utc 0) (.utc microsPerDay) (.utc (2 * microsPerDay)) rfl rfl
    rfl (by decide) (by decide) hdays'
  have hday : (triggered ⟨microsPerDay, some 3600⟩ .completed).triggeredAt.utcDay = .ok ⟨1, 1, 1⟩ := by
    decide +kernel
  have hlisted := (hcount.day_iff ⟨1, 1, 1⟩).mpr ⟨_, List.mem_cons_of_mem _ List.mem_cons_self, hday⟩
  exact ⟨haware, hdays, ⟨m, hm, hlisted⟩, hdays', a, b, both, ha, hb, hboth, htotal⟩

/-- At the beginning of year 1 on a clock that is ahead of UTC there is no day in UTC, and there are no metrics. -/
theorem not_computed_before_years :
    let e := triggered ⟨0, some 7200⟩ .pending
    e.triggeredAt.isAware = true ∧ ¬∃ m, compute [] [e] none = .ok m ∧ m.Conserves (counted [e] none) := by
  intro e
  refine ⟨rfl, ?_⟩
  rintro ⟨m, hm, _⟩
  have hfault : compute [] [e] none = .error .outOfRange := by
    unfold compute
    dsimp only [bind, Except.bind]
    rw [days_of_overrun (by decide) List.mem_cons_self (by decide)]
  cases hfault.symm.trans hm

end Metrics

end Rulebook
