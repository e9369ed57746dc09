import Rulebook.Proofs.Store.Entry
import Rulebook.Proofs.Time.Calendar

/-!
# Trials in a store

A trial is one attempt to execute a rule: of which rule, for which tenant, when it was made, and when the
execution started if it did. What a store keeps of executions tells their trials in the order in which they were
recorded (`ExecutionStore.trials`). An execution that is added adds its trial
(`ExecutionStore.trials_of_create`), and a later version of it leaves the trials
(`ExecutionStore.trials_saved`). How often a rule was tried on a day and when it last started are questions about
the trials (`ExecutionStore.count_eq`, `ExecutionStore.instant_le_last`).
-/

namespace Rulebook

/-- An attempt to execute a rule. -/
structure Trial where
  id : String
  ruleId : String
  tenantId : String
  triggeredAt : Moment
  startedAt : Option Moment
deriving DecidableEq

/-- The trial that an execution is. -/
def Execution.trial (x : Execution) : Trial := ⟨x.id, x.ruleId, x.tenantId, x.triggeredAt, x.startedAt⟩

namespace Trial

/-- A trial is told as another one if only the clocks differ on which its times are read. -/
structure ToldAs (u t : Trial) : Prop where
  id : t.id = u.id
  ruleId : t.ruleId = u.ruleId
  tenantId : t.tenantId = u.tenantId
  triggeredAt : t.triggeredAt.instant = u.triggeredAt.instant
  startedAt : t.startedAt.map Moment.instant = u.startedAt.map Moment.instant

end Trial

/-- A time is kept as the same instant. -/
theorem Stored.instant_of_time {m k : Moment} (h : time m = .ok k) : k.instant = m.instant := by
  have hkept : m.normalize = .ok k := Outcome.map_error_eq_ok.mp h
  have hutc : ∀ wall, (Moment.utc wall).instant = wall := by
    intro wall
    show wall - 0 * microsPerSecond = wall
    omega
  cases haware : m.isAware with
  | true =>
      have hshown : m.toUtc = .ok k := by simpa [Moment.normalize, haware] using hkept
      unfold Moment.toUtc at hshown
      split at hshown
      next =>
        obtain rfl := Except.ok.inj hshown
        exact hutc _
      next => cases hshown
  | false =>
      obtain rfl : Moment.utc m.wall = k := by simpa [Moment.normalize, haware] using hkept
      have hoffset : m.offset = none := by simpa [Moment.isAware] using haware
      rw [hutc]
      simp [Moment.instant, Moment.offsetMicros, hoffset]

/-- An optional time is kept as the same instant. -/
theorem Stored.instant_of_optional {m k : Option Moment} (h : time? m = .ok k) :
    k.map Moment.instant = m.map Moment.instant := by
  cases m with
  | none =>
      obtain rfl := Except.ok.inj h
      rfl
  | some m =>
      obtain ⟨k', hk, rfl⟩ := Outcome.map_eq_ok.mp h
      exact congrArg some (instant_of_time hk)

namespace ExecutionStore

/-- The trials of the executions that a store keeps, in the order in which they were recorded. -/
def trials : ExecutionStore → List Trial
  | memory t => t.executions.map (·.trial)
  | sql t => t.rows.map (·.execution.trial)

/-- The trial that a store tells of when it keeps an execution. -/
def told : ExecutionStore → Trial → Outcome Trial
  | memory _, u => .ok u
  | sql _, u => do
    let triggeredAt ← Stored.time u.triggeredAt
    let startedAt ← Stored.time? u.startedAt
    .ok { u with triggeredAt, startedAt }

variable {s t : ExecutionStore} {x y : Execution} {u : Trial} {id ruleId : String} {now m : Moment}

/-- What a store tells of a trial differs from it in the clocks only. -/
theorem told_as (h : s.told u = .ok v) : u.ToldAs v := by
  cases s with
  | memory t =>
      obtain rfl := Except.ok.inj h
      exact ⟨rfl, rfl, rfl, rfl, rfl⟩
  | sql t =>
      simp only [told, Outcome.bind_eq_ok, Except.ok.injEq] at h
      obtain ⟨triggeredAt, htriggered, startedAt, hstarted, rfl⟩ := h
      exact ⟨rfl, rfl, rfl, Stored.instant_of_time htriggered, Stored.instant_of_optional hstarted⟩

/-- A row tells the trial of its execution. -/
theorem told_of_row {t : ExecutionRows} {r : ExecutionRow} (h : ExecutionRow.ofExecution x = .ok r) :
    (sql t).told x.trial = .ok r.execution.trial := by
  obtain ⟨triggeredAt, htriggered, startedAt, hstarted, _, _, _, _, rfl⟩ :=
    ExecutionRow.of_execution_eq_ok.mp h
  simp only [told, Outcome.bind_eq_ok]
  exact ⟨triggeredAt, htriggered, startedAt, hstarted, rfl⟩

/-- Adding an execution does not change how trials are told. -/
theorem told_created (s : ExecutionStore) (x : Execution) : (s.created x).told = s.told := by
  cases s with
  | memory t => rfl
  | sql t =>
      rw [created, create]
      cases t.create x <;> rfl

/-- Replacing an execution does not change how trials are told. -/
theorem told_saved (s : ExecutionStore) (x : Execution) : (s.saved x).told = s.told := by
  cases s with
  | memory t =>
      rw [saved, update]
      cases t.update x <;> rfl
  | sql t =>
      rw [saved, update]
      cases t.update x <;> rfl

/-- An execution that is added under a new identifier adds its trial. -/
theorem trials_of_create (h : s.create x = .ok t) (hnew : ∀ u ∈ s.trials, u.id ≠ x.id) :
    ∃ u, s.told x.trial = .ok u ∧ t.trials = s.trials ++ [u] := by
  cases s with
  | memory table =>
      obtain rfl := Except.ok.inj h
      have hnone : (table.get? x.id).isSome = false := by
        rw [Option.isSome_eq_false_iff, Option.isNone_iff_eq_none, ExecutionTable.get?, List.find?_eq_none]
        intro y hy
        have hne : y.id ≠ x.id := hnew y.trial (List.mem_map_of_mem hy)
        simpa using hne
      refine ⟨x.trial, rfl, ?_⟩
      rw [ExecutionTable.create, hnone, if_neg Bool.false_ne_true]
      exact List.map_append
  | sql rows =>
      obtain ⟨rows', hrows, rfl⟩ := Outcome.map_eq_ok.mp h
      obtain ⟨row, hrow, hadded⟩ := Outcome.bind_eq_ok.mp hrows
      split at hadded
      next => cases hadded
      next =>
        obtain rfl := Except.ok.inj hadded
        exact ⟨row.execution.trial, told_of_row hrow, List.map_append⟩

/-- An execution that is replaced has its trial instead of that of the version before. -/
theorem trials_of_update (h : s.update x = .ok t) :
    ∃ u, s.told x.trial = .ok u ∧ t.trials = s.trials.map fun v => if v.id == x.id then u else v := by
  cases s with
  | memory table =>
      obtain ⟨table', htable, rfl⟩ := Outcome.map_eq_ok.mp h
      unfold ExecutionTable.update at htable
      split at htable
      next =>
        obtain rfl := Except.ok.inj htable
        refine ⟨x.trial, rfl, ?_⟩
        simp only [trials, ExecutionTable.replace, List.map_map]
        refine List.map_congr_left fun y _ => ?_
        show Execution.trial (if y.id == x.id then x else y) = if y.id == x.id then x.trial else y.trial
        split <;> rfl
      next => cases htable
  | sql rows =>
      obtain ⟨rows', hrows, rfl⟩ := Outcome.map_eq_ok.mp h
      unfold ExecutionRows.update at hrows
      split at hrows
      next =>
        obtain ⟨row, hrow, rfl⟩ := Outcome.map_eq_ok.mp hrows
        obtain ⟨new, hnew, hexecution, _⟩ := written_row hrow
        refine ⟨row.execution.trial, hexecution ▸ told_of_row hnew, ?_⟩
        simp only [trials, List.map_map]
        refine List.map_congr_left fun old _ => ?_
        show Execution.trial (if old.id == x.id then row else old).execution =
          if old.id == x.id then row.execution.trial else old.execution.trial
        split <;> rfl
      next => cases hrows

/-- A later version of an execution leaves the trials. -/
theorem trials_saved (hids : (s.trials.map (·.id)).Nodup) (hu : u ∈ s.trials)
    (hx : s.told x.trial = .ok u) : (s.saved x).trials = s.trials := by
  rw [saved]
  cases hupdate : s.update x with
  | error f => rfl
  | ok t =>
      obtain ⟨v, hv, htrials⟩ := trials_of_update hupdate
      obtain rfl := Except.ok.inj (hx.symm.trans hv)
      rw [htrials]
      refine (List.map_congr_left fun w hw => ?_).trans (List.map_id _)
      -- the only trial with the identifier is the one that is told again
      split
      next heq =>
        have hid : w.id = u.id := by rw [(told_as hx).id]; exact eq_of_beq heq
        exact (List.inj_on_of_nodup_map hids hw hu hid).symm
      next => rfl

/-- An execution that is read tells one of the trials. -/
theorem trial_mem_of_get (h : s.get id = .ok (some x)) : x.trial ∈ s.trials := by
  cases s with
  | memory t =>
      exact List.mem_map_of_mem (Keyed.mem_of_find (Except.ok.inj h)).1
  | sql t =>
      obtain ⟨row, hrow, hx⟩ := Outcome.made_eq_ok_iff.mp h
      obtain ⟨_, _, hx⟩ := Outcome.bind_eq_ok.mp hx
      obtain rfl := Except.ok.inj hx
      exact List.mem_map_of_mem (f := fun row : ExecutionRow => row.execution.trial) (Keyed.mem_of_find hrow).1

/-- An execution that is read is that of the identifier. -/
theorem id_of_get (h : s.get id = .ok (some x)) : x.id = id := by
  cases s with
  | memory t =>
      exact (Keyed.mem_of_find (Except.ok.inj h)).2
  | sql t =>
      obtain ⟨row, hrow, hx⟩ := Outcome.made_eq_ok_iff.mp h
      obtain ⟨_, _, hx⟩ := Outcome.bind_eq_ok.mp hx
      obtain rfl := Except.ok.inj hx
      exact (Keyed.mem_of_find hrow).2

/-- A store that holds no execution tells no trial. -/
theorem IsEmpty.trials_eq_nil (h : s.IsEmpty) : s.trials = [] := by
  -- the first entry would be found under its identifier
  cases s with
  | memory t =>
      obtain ⟨_ | ⟨x, l⟩⟩ := t
      · rfl
      · have hnone := h.entry_at_eq_none x.id
        simp [entryAt, ExecutionTable.get?] at hnone
  | sql t =>
      obtain ⟨_ | ⟨row, l⟩⟩ := t
      · rfl
      · have hnone := h.entry_at_eq_none row.id
        simp [entryAt, ExecutionRows.row?] at hnone

/-! ### How often and when last -/

/-- The times at which a rule started. -/
def starts (s : ExecutionStore) (ruleId : String) : List Moment :=
  (s.trials.filter (·.ruleId == ruleId)).filterMap (·.startedAt)

/-- A time at which a rule started is that of a trial. -/
theorem mem_starts_iff : m ∈ s.starts ruleId ↔ ∃ u ∈ s.trials, u.ruleId = ruleId ∧ u.startedAt = some m := by
  simp [starts, and_assoc]

/-- No time is later than the latest. -/
theorem instant_le_latest (rest : List Moment) (first : Moment) :
    ∀ m ∈ first :: rest, m.instant ≤ (rest.foldl ExecutionTable.later first).instant := by
  induction rest generalizing first with
  | nil =>
      intro m hm
      obtain rfl := List.mem_singleton.mp hm
      exact Int.le_refl _
  | cons next rest ih =>
      have hnext := ih (ExecutionTable.later first next) _ List.mem_cons_self
      have hlater : first.instant ≤ (ExecutionTable.later first next).instant ∧
          next.instant ≤ (ExecutionTable.later first next).instant := by
        unfold ExecutionTable.later
        split <;> omega
      intro m hm
      show m.instant ≤ (rest.foldl ExecutionTable.later (ExecutionTable.later first next)).instant
      simp only [List.mem_cons] at hm
      obtain rfl | rfl | hm := hm
      · omega
      · omega
      · exact ih _ m (List.mem_cons_of_mem _ hm)

/-- The latest of times is one of them. -/
theorem latest_mem (rest : List Moment) (first : Moment) :
    rest.foldl ExecutionTable.later first ∈ first :: rest := by
  induction rest generalizing first with
  | nil => exact List.mem_singleton_self first
  | cons next rest ih =>
      have hlater : ExecutionTable.later first next = first ∨ ExecutionTable.later first next = next := by
        unfold ExecutionTable.later
        split
        · exact .inr rfl
        · exact .inl rfl
      show rest.foldl ExecutionTable.later (ExecutionTable.later first next) ∈ first :: next :: rest
      obtain hlatest | hlatest := List.mem_cons.mp (ih (ExecutionTable.later first next))
      · rw [hlatest]
        obtain heq | heq := hlater <;> rw [heq] <;> simp
      · exact List.mem_cons_of_mem _ (List.mem_cons_of_mem _ hlatest)

/-- When a rule started last is told by its starts. -/
theorem last_started_eq {last : Option Moment} (h : s.lastStarted ruleId = .ok last) :
    last = match s.starts ruleId with
      | [] => none
      | first :: rest => some (rest.foldl ExecutionTable.later first) := by
  cases s with
  | memory t =>
      have hsame : (t.executions.filter (·.ruleId == ruleId)).filterMap (·.startedAt) =
          (memory t).starts ruleId := by
        rw [starts, trials, List.filter_map, List.filterMap_map]
        rfl
      rw [lastStarted, ExecutionTable.lastStarted, hsame] at h
      cases hstarts : (memory t).starts ruleId with
      | nil =>
          rw [hstarts] at h
          exact (Except.ok.inj h).symm
      | cons first rest =>
          rw [hstarts] at h
          obtain ⟨_, _, hlast⟩ := Outcome.bind_eq_ok.mp (Outcome.map_error_eq_ok.mp h)
          exact (Except.ok.inj hlast).symm
  | sql t =>
      have hsame : (t.rows.filter (·.execution.ruleId == ruleId)).filterMap (·.execution.startedAt) =
          (sql t).starts ruleId := by
        rw [starts, trials, List.filter_map, List.filterMap_map]
        rfl
      rw [lastStarted, ExecutionRows.lastStarted, hsame] at h
      exact (Except.ok.inj h).symm

/-- No start of a rule is later than the last one that is told. -/
theorem instant_le_last {last : Option Moment} (h : s.lastStarted ruleId = .ok last)
    (hm : m ∈ s.starts ruleId) : ∃ k, last = some k ∧ m.instant ≤ k.instant := by
  have hlast := last_started_eq h
  cases hstarts : s.starts ruleId with
  | nil =>
      rw [hstarts] at hm
      cases hm
  | cons first rest =>
      rw [hstarts] at hm hlast
      exact ⟨_, hlast, instant_le_latest rest first m hm⟩

/-- The last start of a rule that is told is one of its starts. -/
theorem last_mem_starts (h : s.lastStarted ruleId = .ok (some m)) : m ∈ s.starts ruleId := by
  have hlast := last_started_eq h
  cases hstarts : s.starts ruleId with
  | nil =>
      rw [hstarts] at hlast
      cases hlast
  | cons first rest =>
      rw [hstarts] at hlast
      obtain rfl := Option.some.inj hlast
      exact latest_mem rest first

/-- The number of trials of a rule on a day, counted from a moment of the day. -/
def triedOn (s : ExecutionStore) (ruleId : String) (day : Int) : Nat :=
  s.trials.countP fun u => u.ruleId == ruleId && u.triggeredAt.dayNumber == day

/-- The number of executions of a rule on a day is that of its trials, whether they started or not. -/
theorem count_eq {day : Date} {n : Nat} (hday : now.utcDay = .ok day) (h : s.count ruleId day = .ok n) :
    n = s.triedOn ruleId now.dayNumber := by
  obtain rfl := Moment.utc_day_eq hday
  cases s with
  | memory t =>
      obtain ⟨days, hdays, hcount⟩ := Outcome.bind_eq_ok.mp (Outcome.map_error_eq_ok.mp h)
      obtain rfl := Except.ok.inj hcount
      have hmap : days = (t.executions.filter (·.ruleId == ruleId)).map
          fun x => Date.ofDays x.triggeredAt.dayNumber := by
        have hall := Outcome.forall_of_map_eq_ok hdays
        clear hdays hcount h
        generalize t.executions.filter (·.ruleId == ruleId) = tried at hall
        induction hall with
        | nil => rfl
        | cons hx _ ih => rw [List.map_cons, ih, Moment.utc_day_eq hx]
      rw [hmap, List.count, List.countP_map, List.countP_filter, triedOn, trials, List.countP_map]
      refine List.countP_congr fun x _ => ?_
      simp [Date.of_days_inj, Execution.trial, and_comm]
  | sql t =>
      obtain ⟨stop, hstop, hcount⟩ := Outcome.bind_eq_ok.mp h
      obtain rfl := Except.ok.inj hcount
      have hbounds : stop.instant = now.dayNumber * microsPerDay + microsPerDay := by
        have hadd := Outcome.map_error_eq_ok.mp hstop
        unfold Moment.add at hadd
        split at hadd
        next =>
          obtain rfl := Except.ok.inj hadd
          show (Date.ofDays _).toDays * microsPerDay + 0 + microsPerDay - 0 * microsPerSecond = _
          rw [Date.to_days_of_days]
          omega
        next => cases hadd
      have hstart : (Moment.ofDate (Date.ofDays now.dayNumber) 0 (some 0)).instant =
          now.dayNumber * microsPerDay := by
        show (Date.ofDays _).toDays * microsPerDay + 0 - 0 * microsPerSecond = _
        rw [Date.to_days_of_days]
        omega
      rw [triedOn, trials, List.countP_map]
      refine List.countP_congr fun row _ => ?_
      have hrow : row.triggered = row.execution.trial.triggeredAt.instant := rfl
      simp [ExecutionRows.isIn, hstart, hbounds, hrow, Moment.day_number_eq_iff, Execution.trial]

end ExecutionStore

end Rulebook
