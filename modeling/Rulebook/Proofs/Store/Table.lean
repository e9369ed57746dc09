import Rulebook.Proofs.Store.Row

/-!
# Tables in memory and tables of rows

A table in memory and the table of the rows of its records (`RuleTable.asRows`, `ExecutionTable.asRows`) are asked
the same and answer the same, with times in UTC. They are written alike, but for two things: a record with a time
that is not representable in UTC has no row, and a payload that is written over one with the same content does not
replace it (`Rule.keptOver`, `Execution.keptOver`).
-/

namespace Rulebook

namespace Stored

/-- What is kept when something is written over an older version: the older one, if the payloads have the same
content. -/
def staying {α : Type} (payload : α → Value) (old new : α) : α :=
  if (payload new).agrees (payload old) then old else new

/-- The payload that is kept is that of what is kept. -/
theorem overlay_payload {α : Type} (payload : α → Value) (old new : α) :
    overlay (payload old) (payload new) = payload (staying payload old new) := by
  rw [overlay, staying]
  split <;> rfl

/-- What holds of both versions holds of the one that is kept. -/
theorem of_staying {α : Type} {P : α → Prop} (payload : α → Value) {old new : α} (hold : P old) (hnew : P new) :
    P (staying payload old new) := by
  rw [staying]
  split
  · exact hold
  · exact hnew

end Stored

/-! ### Rules -/

namespace Rule

/-- The rule that a database keeps when it is written over an older version. -/
def keptOver (old new : Rule) : Rule :=
  { new with
    triggers := Stored.staying (Stored.items Trigger.toValue) old.triggers new.triggers
    conditions := Stored.staying (Stored.items Condition.toValue) old.conditions new.conditions
    actions := Stored.staying (Stored.items Action.toValue) old.actions new.actions
    settings := Stored.staying (fun s => s.toValue.written) old.settings new.settings
    metadata := Stored.staying (fun m => m.toValue.written) old.metadata new.metadata }

variable {old new : Rule}

/-- The row that is kept is that of the rule that is kept. -/
theorem row_kept_over (old new : Rule) : old.row.overlay new.row = (old.keptOver new).row := by
  have htriggers := Stored.overlay_payload (Stored.items Trigger.toValue) old.triggers new.triggers
  have hconditions := Stored.overlay_payload (Stored.items Condition.toValue) old.conditions new.conditions
  have hactions := Stored.overlay_payload (Stored.items Action.toValue) old.actions new.actions
  have hsettings := Stored.overlay_payload (fun s : RuleSettings => s.toValue.written) old.settings new.settings
  have hmetadata := Stored.overlay_payload (fun m : RuleMetadata => m.toValue.written) old.metadata new.metadata
  simp only [RuleRow.overlay, row, keptOver, htriggers, hconditions, hactions, hsettings, hmetadata]

/-- The rule that is kept can be read again if both versions can. -/
theorem IsReadable.kept_over (hold : old.IsReadable) (hnew : new.IsReadable) : (old.keptOver new).IsReadable where
  reread :=
    { name := hnew.reread.name
      description := hnew.reread.description
      triggers := Stored.of_staying (P := fun l => ∀ fresh : Nat → String,
        Schema.listOf (fun i => Trigger.read (fresh i)) (Stored.items Trigger.toValue l) = .valid l)
        (Stored.items Trigger.toValue) hold.reread.triggers hnew.reread.triggers
      conditions := Stored.of_staying (P := fun l => ∀ fresh : Nat → String,
        Schema.listOf (fun i => Condition.read (fresh i)) (Stored.items Condition.toValue l) = .valid l)
        (Stored.items Condition.toValue) hold.reread.conditions hnew.reread.conditions
      actions := Stored.of_staying (P := fun l => ∀ fresh : Nat → String,
        Schema.listOf (fun i => Action.read (fresh i)) (Stored.items Action.toValue l) = .valid l)
        (Stored.items Action.toValue) hold.reread.actions hnew.reread.actions
      settings := Stored.of_staying (P := fun s => RuleSettings.read s.toValue.written = .valid s) _
        hold.reread.settings hnew.reread.settings
      metadata := Stored.of_staying (P := fun m => RuleMetadata.read m.toValue.written = .valid m) _
        hold.reread.metadata hnew.reread.metadata }
  tenant := hnew.tenant

end Rule

namespace RuleTable

/-- The rows of the rules of a table. -/
def asRows (t : RuleTable) : RuleRows := ⟨t.rules.map Rule.row⟩

/-- The rule that a database keeps when it is written over what it has of it. -/
def staying (t : RuleTable) (r : Rule) : Rule := (t.get? r.id).elim r (·.keptOver r)

variable {t u : RuleTable} {r : Rule} {id : String}

/-- A rule that is found is in the table. -/
theorem mem_of_get (h : t.get? id = some r) : r ∈ t.rules ∧ r.id = id := Keyed.mem_of_find h

/-- The rule that is kept has the identifier of the one that is written. -/
theorem staying_id (t : RuleTable) (r : Rule) : (t.staying r).id = r.id := by
  rw [staying]
  cases t.get? r.id <;> rfl

/-- The row that is found is that of the rule that is found. -/
theorem row_at (t : RuleTable) (id : String) : t.asRows.row? id = (t.get? id).map Rule.row := List.find?_map ..

/-- Rows give the rule that is found. -/
theorem get_as_rows (h : ∀ r ∈ t.rules, r.IsReadable) : t.asRows.get id = .ok ((t.get? id).map Rule.inUtc) := by
  rw [RuleRows.get, row_at]
  cases hr : t.get? id with
  | none => rfl
  | some r =>
      show r.row.toRule.map some = _
      rw [RuleRow.to_rule_of_row (h r (mem_of_get hr).1)]
      rfl

/-- Rules that are read of their rows. -/
theorem read_rows {l : List Rule} (h : ∀ r ∈ l, r.IsReadable) :
    (l.map Rule.row).mapM RuleRow.toRule = .ok (l.map Rule.inUtc) := by
  rw [List.mapM_map]
  exact Outcome.map_eq_ok_of_eq fun r hr => RuleRow.to_rule_of_row (h r hr)

/-- Rows list the same rules, if these were created one after the other. -/
theorem list_as_rows (h : ∀ r ∈ t.rules, r.IsReadable)
    (horder : t.rules.Pairwise fun q r => q.createdAt.instant < r.createdAt.instant) (tenantId : Option String) :
    t.asRows.list tenantId = .ok ((t.list tenantId).map Rule.inUtc) := by
  have hlist : t.list tenantId = t.rules.filter fun r => (tenantId.map (· == r.tenantId)).getD true := by
    cases tenantId with
    | none => exact (List.filter_true _).symm
    | some tenant => exact List.filter_congr fun r _ => Bool.beq_comm
  have hrows : t.asRows.rows.filter (fun row => (tenantId.map (· == row.tenantId)).getD true) =
      (t.list tenantId).map Rule.row := by
    rw [hlist, asRows, List.filter_map]
    rfl
  have hsorted : ((t.list tenantId).map Rule.row).Pairwise fun a b =>
      isEarlier (a.createdAt.instant, a.id) (b.createdAt.instant, b.id) = true := by
    rw [List.pairwise_map, hlist]
    refine (horder.filter _).imp fun {q r} hlt => ?_
    have hrow : ∀ r : Rule, r.row.createdAt.instant = r.createdAt.instant := fun r => Moment.instant_in_utc _
    rw [isEarlier, hrow, hrow]
    simp [hlt]
  rw [RuleRows.list, hrows, List.mergeSort_of_pairwise hsorted]
  refine read_rows fun r hr => h r ?_
  rw [hlist] at hr
  exact (List.mem_filter.mp hr).1

/-- A rule is created alike, unless one of its times is not representable in UTC. -/
theorem create_as_rows (h : r.IsDated) : t.asRows.create r =
    (t.create r >>= fun u => Outcome.barring Stored.overrun r.overruns u).map asRows := by
  rw [RuleRows.create, create, row_at, Option.isSome_map, RuleRow.of_rule_eq h]
  cases (t.get? r.id).isSome
  · show (Outcome.barring Stored.overrun r.overruns r.row).map _ =
      (Outcome.barring Stored.overrun r.overruns _).map _
    cases r.overruns
    · refine congrArg (fun rows => Except.ok (RuleRows.mk rows)) ?_
      show t.rules.map Rule.row ++ [r.row] = (t.rules ++ [r]).map Rule.row
      rw [List.map_append, List.map_singleton]
    · rfl
  · rfl

/-- A rule is replaced alike, unless one of its times is not representable in UTC, by the rule that is kept. -/
theorem update_as_rows (h : r.IsDated) : t.asRows.update r =
    (t.update (t.staying r) >>= fun u => Outcome.barring Stored.overrun r.overruns u).map asRows := by
  rw [RuleRows.update, update, RuleRows.written, staying_id, row_at, Option.isSome_map, RuleRow.of_rule_eq h]
  cases hold : t.get? r.id with
  | none => rfl
  | some old =>
      have hkept : t.staying r = old.keptOver r := by rw [staying, hold]; rfl
      rw [hkept]
      show ((Outcome.barring Stored.overrun r.overruns r.row).map fun row => old.row.overlay row).map _ =
        (Outcome.barring Stored.overrun r.overruns _).map _
      cases r.overruns
      · refine congrArg (fun rows => Except.ok (RuleRows.mk rows)) ?_
        show (t.rules.map Rule.row).map (fun row => if row.id == r.id then old.row.overlay r.row else row) =
          (t.rules.map fun s => if s.id == r.id then old.keptOver r else s).map Rule.row
        rw [List.map_map, List.map_map, Rule.row_kept_over]
        exact List.map_congr_left fun q _ => (apply_ite Rule.row _ _ _).symm
      · rfl

end RuleTable

/-! ### Executions -/

namespace Execution

/-- The execution that a database keeps when it is written over an older version. -/
def keptOver (old new : Execution) : Execution :=
  { new with
    triggerData := Stored.staying (fun fs => (Value.object fs).written) old.triggerData new.triggerData
    context := Stored.staying (fun c => c.toValue.written) old.context new.context
    result := Stored.staying (fun r => (Value.ofOption .object r).written) old.result new.result }

variable {old new : Execution}

/-- The row that is kept is that of the execution that is kept. -/
theorem row_kept_over (old new : Execution) : old.row.overlay new.row = (old.keptOver new).row := by
  have htrigger := Stored.overlay_payload (fun fs => (Value.object fs).written) old.triggerData new.triggerData
  have hcontext := Stored.overlay_payload (fun c : ExecutionContext => c.toValue.written) old.context new.context
  have hresult := Stored.overlay_payload (fun r => (Value.ofOption .object r).written) old.result new.result
  simp only [ExecutionRow.overlay, row, keptOver, htrigger, hcontext, hresult]
  rfl

/-- The execution that is kept can be read again if both versions can. -/
theorem IsReadable.kept_over (hold : old.IsReadable) (hnew : new.IsReadable) : (old.keptOver new).IsReadable where
  triggerData := Stored.of_staying (P := fun fs => haveJson fs = true) (fun fs => (Value.object fs).written)
    hold.triggerData hnew.triggerData
  metadata := Stored.of_staying (P := fun c : ExecutionContext => haveJson c.metadata = true)
    (fun c => c.toValue.written) hold.metadata hnew.metadata
  result := Stored.of_staying (P := fun r : Option Fields => ∀ fs ∈ r, haveJson fs = true)
    (fun r => (Value.ofOption .object r).written) hold.result hnew.result
  input := hnew.input
  output := hnew.output

end Execution

namespace ExecutionTable

/-- The rows of the executions of a table. -/
def asRows (t : ExecutionTable) : ExecutionRows := ⟨t.executions.map Execution.row⟩

/-- The execution that a database keeps when it is written over what it has of it. -/
def staying (t : ExecutionTable) (x : Execution) : Execution := (t.get? x.id).elim x (·.keptOver x)

variable {t : ExecutionTable} {x : Execution} {id : String}

/-- An execution that is found is in the table. -/
theorem mem_of_get (h : t.get? id = some x) : x ∈ t.executions ∧ x.id = id := Keyed.mem_of_find h

/-- The execution that is kept has the identifier, the times and the steps of the one that is written. -/
theorem staying_dated (t : ExecutionTable) (x : Execution) :
    (t.staying x).id = x.id ∧ (t.staying x).times = x.times ∧ (t.staying x).steps = x.steps := by
  rw [staying]
  cases t.get? x.id <;> exact ⟨rfl, rfl, rfl⟩

/-- The row that is found is that of the execution that is found. -/
theorem row_at (t : ExecutionTable) (id : String) : t.asRows.row? id = (t.get? id).map Execution.row :=
  List.find?_map ..

/-- Rows give the execution that is found. -/
theorem get_as_rows (h : ∀ x ∈ t.executions, x.IsReadable) :
    t.asRows.get id = .ok ((t.get? id).map Execution.inUtc) := by
  rw [ExecutionRows.get, row_at]
  cases hx : t.get? id with
  | none => rfl
  | some x =>
      show x.row.toExecution.map some = _
      rw [ExecutionRow.to_execution_of_row (h x (mem_of_get hx).1)]
      rfl

/-- An execution is created alike under a new identifier, unless one of its times is not representable in UTC. -/
theorem create_as_rows (h : x.IsDated) (hnew : t.get? x.id = none) : t.asRows.create x =
    (Outcome.barring Stored.overrun x.overruns (t.create x)).map asRows := by
  rw [ExecutionRows.create, create, row_at, hnew, ExecutionRow.of_execution_eq h]
  cases x.overruns
  · refine congrArg (fun rows => Except.ok (ExecutionRows.mk rows)) ?_
    show t.executions.map Execution.row ++ [x.row] = (t.executions ++ [x]).map Execution.row
    rw [List.map_append, List.map_singleton]
  · rfl

/-- An execution is replaced alike, unless one of its times is not representable in UTC, by the execution that is
kept. -/
theorem update_as_rows (h : x.IsDated) : t.asRows.update x =
    (t.update (t.staying x) >>= fun u => Outcome.barring Stored.overrun x.overruns u).map asRows := by
  rw [ExecutionRows.update, update, ExecutionRows.written, (staying_dated t x).1, row_at, Option.isSome_map,
    ExecutionRow.of_execution_eq h]
  cases hold : t.get? x.id with
  | none => rfl
  | some old =>
      have hkept : t.staying x = old.keptOver x := by rw [staying, hold]; rfl
      rw [hkept]
      show ((Outcome.barring Stored.overrun x.overruns x.row).map fun row => old.row.overlay row).map _ =
        (Outcome.barring Stored.overrun x.overruns _).map _
      cases x.overruns
      · refine congrArg (fun rows => Except.ok (ExecutionRows.mk rows)) ?_
        show (t.executions.map Execution.row).map (fun row => if row.id == x.id then old.row.overlay x.row else row) =
          (t.executions.map fun y => if y.id == x.id then old.keptOver x else y).map Execution.row
        rw [List.map_map, List.map_map, Execution.row_kept_over]
        exact List.map_congr_left fun y _ => (apply_ite Execution.row _ _ _).symm
      · rfl

end ExecutionTable

/-! ### Lists of executions -/

namespace Period

/-- Whether an instant belongs to the period. -/
def holds (p : Period) (m : Moment) : Bool := p.start.instant ≤ m.instant && m.instant < p.stop.instant

/-- The clocks of the ends have known offsets. -/
def IsAware (p : Period) : Prop := p.start.isAware = true ∧ p.stop.isAware = true

/-- Whether one of the ends is not representable in UTC. -/
def overruns (p : Period) : Bool := p.start.overruns || p.stop.overruns

/-- If the offsets of all clocks are known, a moment belongs to a period if its instant does. -/
theorem contains_eq {p : Period} {m : Moment} (hp : p.IsAware) (hm : m.isAware = true) :
    p.contains m = .ok (p.holds m) := by
  have hbefore : ∀ k : Moment, k.isAware = true → m.before k = .ok (decide (m.instant < k.instant)) := by
    intro k hk
    rw [Moment.before, Moment.since, if_pos (hm.trans hk.symm)]
    exact congrArg Except.ok (by rw [decide_eq_decide]; omega)
  rw [contains, hbefore _ hp.1, hbefore _ hp.2, holds]
  by_cases hstart : m.instant < p.start.instant
  · have hlow : ¬p.start.instant ≤ m.instant := by omega
    simp [bind, Except.bind, hstart, hlow]
  · have hlow : p.start.instant ≤ m.instant := by omega
    simp [bind, Except.bind, hstart, hlow]

end Period

/-- Whether an end of the period that is asked for is not representable in UTC. -/
def ExecutionQuery.overruns (q : ExecutionQuery) : Bool := q.period.any Period.overruns

namespace ExecutionTable

variable {t : ExecutionTable} {q : ExecutionQuery}

/-- Whether an execution is wanted. -/
def meets (q : ExecutionQuery) (x : Execution) : Bool :=
  x.tenantId == q.tenantId && (q.period.map (·.holds x.triggeredAt)).getD true && q.accepts x.ruleId x.status

/-- The executions that are wanted, by the instants at which they were triggered. -/
def wanted (t : ExecutionTable) (q : ExecutionQuery) : List Execution :=
  (t.executions.filter (meets q)).mergeSort fun a b => decide (a.triggeredAt.instant ≤ b.triggeredAt.instant)

/-- Moments on clocks of known offsets can be ordered. -/
theorem comparable_of_aware {moments : List Moment} (h : ∀ m ∈ moments, m.isAware = true) :
    comparable moments = .ok () := by
  rw [comparable, List.all_eq_true.mpr h]
  rfl

/-- If the offsets of all clocks are known, the executions that meet the query are listed. -/
theorem list_eq (ht : ∀ x ∈ t.executions, x.triggeredAt.isAware = true) (hq : ∀ p ∈ q.period, p.IsAware) :
    t.list q = .ok (t.wanted q) := by
  have hrest : ∀ l : List Execution, l.filter (fun x => q.accepts x.ruleId x.status) = t.executions.filter (meets q) →
      (comparable ((l.filter fun x => q.accepts x.ruleId x.status).map (·.triggeredAt)) >>= fun _ =>
        .ok ((l.filter fun x => q.accepts x.ruleId x.status).mergeSort fun a b =>
          decide (a.triggeredAt.instant ≤ b.triggeredAt.instant))) = .ok (t.wanted q) := by
    intro l hl
    rw [hl, comparable_of_aware fun m hm => ?_]
    · rfl
    · obtain ⟨x, hx, rfl⟩ := List.mem_map.mp hm
      exact ht x (List.mem_filter.mp hx).1
  rw [list]
  cases hp : q.period with
  | none =>
      refine hrest _ ?_
      rw [List.filter_filter]
      exact List.filter_congr fun x _ => by simp [meets, hp, Bool.and_comm]
  | some p =>
      have hfilter := Outcome.filter_eq_ok fun x (hx : x ∈ t.executions.filter (·.tenantId == q.tenantId)) =>
        Period.contains_eq (hq p hp) (ht x (List.mem_filter.mp hx).1)
      dsimp only
      rw [hfilter]
      refine hrest _ ?_
      rw [List.filter_filter, List.filter_filter]
      exact List.filter_congr fun x _ => by
        rw [meets, hp, Option.map_some, Option.getD_some]
        ac_rfl

/-- Executions that are read of their rows. -/
theorem read_rows {l : List Execution} (h : ∀ x ∈ l, x.IsReadable) :
    (l.map Execution.row).mapM ExecutionRow.toExecution = .ok (l.map Execution.inUtc) := by
  rw [List.mapM_map]
  exact Outcome.map_eq_ok_of_eq fun x hx => ExecutionRow.to_execution_of_row (h x hx)

/-- Rows list the executions that are wanted, if these were triggered at different instants and the period is
representable in UTC. -/
theorem list_as_rows (h : ∀ x ∈ t.executions, x.IsReadable)
    (hapart : t.executions.Pairwise fun x y => x.triggeredAt.instant ≠ y.triggeredAt.instant)
    (hq : ∀ p ∈ q.period, p.IsAware) :
    t.asRows.list q = (Outcome.barring Stored.overrun q.overruns (t.wanted q)).map (·.map Execution.inUtc) := by
  have htriggered : ∀ x : Execution, x.row.triggered = x.triggeredAt.instant := fun x => Moment.instant_in_utc _
  have hbounds : (q.period.mapM fun p => do
      let start ← Stored.time p.start
      let stop ← Stored.time p.stop
      Except.ok (start, stop)) = Outcome.barring Stored.overrun q.overruns
        (q.period.map fun p => (p.start.inUtc, p.stop.inUtc)) := by
    rw [ExecutionQuery.overruns]
    cases hp : q.period with
    | none => rfl
    | some p =>
        obtain ⟨hstart, hstop⟩ := hq p hp
        have hboth : (Stored.time p.start >>= fun start => Stored.time p.stop >>= fun stop => Except.ok (start, stop)) =
            Outcome.barring Stored.overrun p.overruns (p.start.inUtc, p.stop.inUtc) := by
          rw [Stored.time_eq hstart, Stored.time_eq hstop]
          exact Outcome.barring_bind (Outcome.barring_bind_ok rfl)
        show (Stored.time p.start >>= fun start => Stored.time p.stop >>= fun stop =>
          Except.ok (start, stop)).map some = _
        rw [hboth]
        show (Outcome.barring Stored.overrun p.overruns _).map some = Outcome.barring Stored.overrun p.overruns _
        cases p.overruns <;> rfl
  have hfilter : t.asRows.rows.filter (fun row => row.execution.tenantId == q.tenantId &&
      ((q.period.map fun p => (p.start.inUtc, p.stop.inUtc)).map fun b =>
        ExecutionRows.isIn b.1 b.2 row).getD true && q.accepts row.execution.ruleId row.execution.status) =
      (t.executions.filter (meets q)).map Execution.row := by
    rw [asRows, List.filter_map]
    refine congrArg (List.map Execution.row) (List.filter_congr fun x _ => ?_)
    show (x.tenantId == q.tenantId && _ && q.accepts x.ruleId x.status) = meets q x
    rw [meets]
    cases q.period with
    | none => rfl
    | some p =>
        show (_ && ExecutionRows.isIn p.start.inUtc p.stop.inUtc x.row && _) = (_ && p.holds x.triggeredAt && _)
        rw [ExecutionRows.isIn, htriggered, Moment.instant_in_utc, Moment.instant_in_utc, Period.holds]
  have hsort : ((t.executions.filter (meets q)).map Execution.row).mergeSort
      (fun a b => isEarlier (a.triggered, a.id) (b.triggered, b.id)) = (t.wanted q).map Execution.row := by
    refine (List.map_mergeSort fun x hx y hy => ?_).symm
    rw [htriggered, htriggered, isEarlier]
    by_cases hsame : x.triggeredAt.instant = y.triggeredAt.instant
    · -- those that were triggered at the same instant are the same
      have hnodup : (t.executions.map (·.triggeredAt.instant)).Nodup := List.pairwise_map.mpr hapart
      obtain rfl := List.inj_on_of_nodup_map hnodup (List.mem_filter.mp hx).1 (List.mem_filter.mp hy).1 hsame
      simp
    · have hlt : x.triggeredAt.instant ≤ y.triggeredAt.instant ↔ x.triggeredAt.instant < y.triggeredAt.instant := by
        omega
      simp [hsame, hlt]
  rw [ExecutionRows.list, hbounds]
  cases q.overruns
  · show (List.mergeSort (t.asRows.rows.filter fun row => row.execution.tenantId == q.tenantId &&
      ((q.period.map fun p => (p.start.inUtc, p.stop.inUtc)).map fun b =>
        ExecutionRows.isIn b.1 b.2 row).getD true && q.accepts row.execution.ruleId row.execution.status)
      _).mapM ExecutionRow.toExecution = _
    rw [hfilter, hsort]
    refine read_rows fun x hx => h x ?_
    exact (List.mem_filter.mp (List.mem_mergeSort.mp hx)).1
  · rfl

/-! ### How often and when last -/

/-- Whether a day ends after the last representable reading. -/
def isLastDay (day : Date) : Bool := !Moment.inRange (day.toDays * microsPerDay + microsPerDay)

/-- Rows count the same executions of a day that exists, unless the day is the last one. -/
theorem count_as_rows (ruleId : String) {day : Date} (hday : day.isValid = true)
    (ht : ∀ x ∈ t.executions, x.triggeredAt.isAware = true ∧ x.triggeredAt.overruns = false) :
    ∃ n, t.count ruleId day = .ok n ∧
      t.asRows.count ruleId day = Outcome.barring Stored.overrun (isLastDay day) n := by
  obtain ⟨days, hdays⟩ : ∃ days, (t.executions.filter (·.ruleId == ruleId)).mapM (·.triggeredAt.utcDay) = .ok days := by
    refine Outcome.map_eq_ok_of_forall fun x hx => ?_
    obtain ⟨haware, hrange⟩ := ht x (List.mem_filter.mp hx).1
    have hutc : x.triggeredAt.toUtc = .ok (.utc x.triggeredAt.instant) := by
      rw [Moment.toUtc, if_pos (by simpa [Moment.overruns] using hrange)]
    exact ⟨_, by rw [Moment.utcDay, haware, hutc]; rfl⟩
  have hmemory : t.count ruleId day = .ok (days.count day) := by rw [count, hdays]; rfl
  refine ⟨_, hmemory, ?_⟩
  have hstop : (Moment.ofDate day 0 (some 0)).add microsPerDay =
      Outcome.barring TimeFault.outOfRange (isLastDay day) ⟨day.toDays * microsPerDay + microsPerDay, some 0⟩ := by
    have hwall : (Moment.ofDate day 0 (some 0)).wall = day.toDays * microsPerDay := Int.add_zero _
    rw [Moment.add, hwall, isLastDay, Outcome.barring]
    cases Moment.inRange (day.toDays * microsPerDay + microsPerDay) <;> rfl
  cases hlast : isLastDay day with
  | true =>
      rw [ExecutionRows.count, hstop, hlast]
      rfl
  | false =>
      -- both counts are those of the trials of the day
      have hnow : (⟨day.toDays * microsPerDay, none⟩ : Moment).utcDay = .ok day := by
        have hday' : microsPerDay = 86400000000 := rfl
        show Except.ok (Date.ofDays (day.toDays * microsPerDay / microsPerDay)) = _
        rw [hday', Int.mul_ediv_cancel _ (by omega), Date.of_days_to_days hday]
      have hrows : ∃ m, t.asRows.count ruleId day = .ok m := by
        rw [ExecutionRows.count, hstop, hlast]
        exact ⟨_, rfl⟩
      obtain ⟨m, hm⟩ := hrows
      have hkept : (ExecutionStore.memory t).count ruleId day = .ok (days.count day) := by
        rw [ExecutionStore.count, hmemory]
        rfl
      have hcounted := ExecutionStore.count_eq hnow hkept
      have hcounted' := ExecutionStore.count_eq (s := .sql t.asRows) hnow hm
      rw [hm, hcounted, hcounted', ExecutionStore.triedOn, ExecutionStore.triedOn, ExecutionStore.trials,
        ExecutionStore.trials, asRows, List.map_map, List.countP_map, List.countP_map]
      refine congrArg Except.ok (List.countP_congr fun x _ => ?_)
      have hnumber : x.row.execution.trial.triggeredAt.dayNumber = x.trial.triggeredAt.dayNumber := by
        show x.triggeredAt.inUtc.dayNumber = x.triggeredAt.dayNumber
        rw [Moment.dayNumber, Moment.instant_in_utc, Moment.dayNumber]
      simp only [Function.comp_apply, hnumber]
      rfl

/-- The later of two moments in UTC is the later one, in UTC. -/
theorem later_in_utc (a b : Moment) : later a.inUtc b.inUtc = (later a b).inUtc := by
  rw [later, later, Moment.instant_in_utc, Moment.instant_in_utc]
  split <;> rfl

/-- Rows tell the same last start of a rule. -/
theorem last_started_as_rows (ruleId : String)
    (h : ∀ x ∈ t.executions, ∀ m ∈ x.startedAt, m.isAware = true) :
    ∃ last, t.lastStarted ruleId = .ok last ∧ t.asRows.lastStarted ruleId = last.map Moment.inUtc := by
  have hstarts : (t.asRows.rows.filter (·.execution.ruleId == ruleId)).filterMap (·.execution.startedAt) =
      ((t.executions.filter (·.ruleId == ruleId)).filterMap (·.startedAt)).map Moment.inUtc := by
    rw [asRows, List.filter_map, List.filterMap_map, List.map_filterMap]
    rfl
  have haware : ∀ m ∈ (t.executions.filter (·.ruleId == ruleId)).filterMap (·.startedAt), m.isAware = true := by
    intro m hm
    obtain ⟨x, hx, hstarted⟩ := List.mem_filterMap.mp hm
    exact h x (List.mem_filter.mp hx).1 m hstarted
  rw [lastStarted, ExecutionRows.lastStarted, hstarts]
  cases hlist : (t.executions.filter (·.ruleId == ruleId)).filterMap (·.startedAt) with
  | nil => exact ⟨none, rfl, rfl⟩
  | cons first rest =>
      rw [hlist] at haware
      refine ⟨some (rest.foldl later first), by dsimp only; rw [comparable_of_aware haware]; rfl, ?_⟩
      show some ((rest.map Moment.inUtc).foldl later first.inUtc) = some (rest.foldl later first).inUtc
      rw [List.foldl_map]
      exact congrArg some (List.foldl_hom Moment.inUtc fun a b => later_in_utc a b)

end ExecutionTable

end Rulebook
