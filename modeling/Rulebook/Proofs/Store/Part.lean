import Rulebook.Proofs.Schema.Reread
import Rulebook.Proofs.Store.Rule
import Rulebook.Proofs.Store.Trial
import Rulebook.RateLimit

/-!
# What a store keeps of some tenants

A store can be looked at as if it kept the rules or executions of some tenants only (`RuleStore.part`,
`ExecutionStore.part`). Questions about these tenants are answered by the part alone. What is written for one of
them is written into the part (`RuleStore.update_part`), and what is written for another one leaves it as it is
(`RuleStore.part_of_update`, `ExecutionStore.part_saved`).
-/

namespace Rulebook

/-! ### Lists with keys -/

namespace Keyed

variable {α : Type} (key : α → String) {id : String} {change : α → α} {wanted : α → Bool} {l : List α}

/-- What is found under a key is found among the wanted entries, if those under the key are wanted. -/
theorem find_filter (h : ∀ a ∈ l, key a = id → wanted a = true) :
    (l.filter wanted).find? (fun a => key a == id) = l.find? fun a => key a == id := by
  rw [List.find?_filter]
  induction l with
  | nil => rfl
  | cons a l ih =>
      obtain ⟨ha, hrest⟩ := List.forall_mem_cons.mp h
      rw [List.find?_cons, List.find?_cons, ih hrest]
      by_cases hkey : key a = id
      · simp [hkey, ha hkey]
      · simp [beq_false_of_ne hkey]

/-- A change under a key shows among the wanted entries alone, if it does not make them unwanted. -/
theorem filter_change (change : α → α) (wanted : α → Bool)
    (h : ∀ a ∈ l, key a = id → wanted (change a) = wanted a) :
    (l.map fun a => if key a == id then change a else a).filter wanted =
      (l.filter wanted).map fun a => if key a == id then change a else a := by
  rw [List.filter_map]
  congr 1
  refine List.filter_congr fun a ha => ?_
  show wanted (if key a == id then change a else a) = wanted a
  split
  next hkey => exact h a ha (eq_of_beq hkey)
  next => rfl

/-- A change under a key changes nothing if there are no entries under it. -/
theorem change_of_absent (h : ∀ a ∈ l, key a ≠ id) :
    (l.map fun a => if key a == id then change a else a) = l := by
  refine (List.map_congr_left fun a ha => ?_).trans (List.map_id l)
  rw [if_neg (by simpa using h a ha)]
  rfl

/-- A change under a key does not show among the wanted entries, if those under the key are unwanted. -/
theorem filter_change_unwanted (hold : ∀ a ∈ l, key a = id → wanted a = false)
    (hnew : ∀ a ∈ l, key a = id → wanted (change a) = false) :
    (l.map fun a => if key a == id then change a else a).filter wanted = l.filter wanted := by
  rw [filter_change key change wanted fun a ha hkey => (hnew a ha hkey).trans (hold a ha hkey).symm]
  refine change_of_absent key fun a ha hkey => ?_
  obtain ⟨ha, hwanted⟩ := List.mem_filter.mp ha
  rw [hold a ha hkey] at hwanted
  cases hwanted

end Keyed

/-! ### Rules -/

/-- What is read of a row has the identifier and the tenant of the row. -/
theorem RuleRow.owner_of_read {row : RuleRow} {r : Rule} (h : row.toRule = .ok r) :
    r.id = row.id ∧ r.tenantId = row.tenantId := by
  have hread : Rule.read ⟨0⟩ row.toValue = .valid r := by
    have hexcept := Outcome.map_error_eq_ok.mp h
    cases hc : Rule.read ⟨0⟩ row.toValue with
    | valid q =>
        rw [hc] at hexcept
        exact congrArg Checked.valid (Except.ok.inj hexcept)
    | invalid issues =>
        rw [hc] at hexcept
        cases hexcept
  obtain ⟨fs, hfs, hread⟩ := Schema.model_eq_valid.mp hread
  simp only [RuleDraft.readFields, Checked.seq_eq_valid, Checked.map_eq_valid, Schema.required_eq_valid] at hread
  obtain ⟨_, ⟨_, ⟨_, ⟨_, ⟨_, ⟨d, _, rfl⟩, tenant, ⟨v, hv, htenant⟩, rfl⟩, rfl⟩, id, ⟨w, hw, hid⟩, rfl⟩, _, _, rfl⟩,
    _, _, rfl⟩ := hread
  cases hfs
  cases hv
  cases hw
  exact ⟨(Checked.valid.inj hid).symm, (Value.text.inj (Schema.text_of_length_valid htenant)).symm⟩

namespace RuleStore

/-- The store as if it kept the rules of the wanted tenants only. -/
def part (wanted : String → Bool) : RuleStore → RuleStore
  | memory t => memory ⟨t.rules.filter (wanted ·.tenantId)⟩
  | sql t => sql ⟨t.rows.filter (wanted ·.tenantId)⟩

/-- Which rules the store keeps, and whose they are. -/
def owners : RuleStore → List (String × String)
  | memory t => t.rules.map fun r => (r.id, r.tenantId)
  | sql t => t.rows.map fun row => (row.id, row.tenantId)

/-- Whether the store can keep a rule, apart from its identifier. -/
def admits : RuleStore → Rule → Outcome Unit
  | memory _, _ => .ok ()
  | sql _, r => (RuleRow.ofRule r).map fun _ => ()

variable {s t : RuleStore} {r : Rule} {id tenant : String} {wanted : String → Bool}

/-- The rules of a part are those of the wanted tenants. -/
theorem owners_part (s : RuleStore) (wanted : String → Bool) :
    (s.part wanted).owners = s.owners.filter fun o => wanted o.2 := by
  cases s <;> (rw [part, owners, owners, List.filter_map]; rfl)

/-- A part admits what the store admits. -/
theorem admits_part (s : RuleStore) (wanted : String → Bool) : (s.part wanted).admits = s.admits := by
  cases s <;> rfl

/-- Whether a rule is admitted does not depend on its identifier. -/
theorem admits_renamed (s : RuleStore) (r : Rule) (id : String) : s.admits { r with id } = s.admits r := by
  cases s with
  | memory t => rfl
  | sql t =>
      show (RuleRow.ofRule { r with id }).map _ = (RuleRow.ofRule r).map _
      rw [RuleRow.ofRule, RuleRow.ofRule]
      dsimp only
      cases Stored.time r.createdAt with
      | error f => rfl
      | ok createdAt =>
          cases Stored.time r.updatedAt with
          | error f => rfl
          | ok updatedAt => cases Stored.integer r.priority <;> rfl

/-- A rule of a wanted tenant is found in the part. -/
theorem get_part (h : ∀ o ∈ s.owners, o.1 = id → wanted o.2 = true) : (s.part wanted).get id = s.get id := by
  cases s with
  | memory t =>
      exact congrArg Except.ok (Keyed.find_filter Rule.id fun r hr => h _ (List.mem_map_of_mem hr))
  | sql t =>
      exact congrArg (Option.mapM RuleRow.toRule)
        (Keyed.find_filter RuleRow.id fun row hrow => h _ (List.mem_map_of_mem hrow))

/-- A rule that is found is that of the identifier, and its tenant's. -/
theorem owner_of_get (h : s.get id = .ok (some r)) : r.id = id ∧ (id, r.tenantId) ∈ s.owners := by
  cases s with
  | memory t =>
      obtain ⟨hmem, hid⟩ := Keyed.mem_of_find (Except.ok.inj h)
      refine ⟨hid, ?_⟩
      rw [← hid]
      exact List.mem_map_of_mem (f := fun r : Rule => (r.id, r.tenantId)) hmem
  | sql t =>
      obtain ⟨row, hrow, hread⟩ := Outcome.made_eq_ok_iff.mp h
      obtain ⟨hmem, hfound⟩ := Keyed.mem_of_find hrow
      obtain ⟨hid, htenant⟩ := RuleRow.owner_of_read hread
      refine ⟨hid.trans hfound, ?_⟩
      rw [← hfound, htenant]
      exact List.mem_map_of_mem (f := fun row : RuleRow => (row.id, row.tenantId)) hmem

/-- The rules of a wanted tenant are listed by the part. -/
theorem list_part (h : wanted tenant = true) : (s.part wanted).list (some tenant) = s.list (some tenant) := by
  cases s with
  | memory t =>
      refine congrArg Except.ok ?_
      rw [RuleTable.list, List.filter_filter, RuleTable.list]
      refine List.filter_congr fun r _ => ?_
      by_cases htenant : r.tenantId = tenant
      · simp [htenant, h]
      · simp [htenant]
  | sql t =>
      refine congrArg (fun rows : List RuleRow => (rows.mergeSort fun a b =>
        isEarlier (a.createdAt.instant, a.id) (b.createdAt.instant, b.id)).mapM RuleRow.toRule) ?_
      rw [List.filter_filter]
      refine List.filter_congr fun row _ => ?_
      by_cases htenant : tenant = row.tenantId
      · simp [← htenant, h]
      · simp [htenant]

/-- A rule that is created is one more rule of its tenant, under a new identifier. -/
theorem owners_of_create (h : s.create r = .ok t) :
    t.owners = s.owners ++ [(r.id, r.tenantId)] ∧ ∀ o ∈ s.owners, o.1 ≠ r.id := by
  cases s with
  | memory table =>
      obtain ⟨table', ht, rfl⟩ := Outcome.map_eq_ok.mp h
      unfold RuleTable.create at ht
      split at ht
      next => cases ht
      next hnone =>
        cases ht
        exact ⟨List.map_append, List.forall_mem_map.mpr (forall_ne_of_find hnone)⟩
  | sql rows =>
      obtain ⟨rows', ht, rfl⟩ := Outcome.map_eq_ok.mp h
      unfold RuleRows.create at ht
      split at ht
      next => cases ht
      next hnone =>
        obtain ⟨row, hrow, rfl⟩ := Outcome.map_eq_ok.mp ht
        obtain ⟨hid, htenant⟩ := row_of_rule_owner hrow
        refine ⟨?_, List.forall_mem_map.mpr (forall_ne_of_find hnone)⟩
        rw [← hid, ← htenant]
        exact List.map_append

/-- Whether a rule can be created under a new identifier is up to what the store admits. -/
theorem create_of_absent (h : ∀ o ∈ s.owners, o.1 ≠ r.id) :
    (s.create r).map (fun _ => ()) = s.admits r := by
  cases s with
  | memory t =>
      have hnone : t.get? r.id = none := List.find?_eq_none.mpr fun q hq => by
        simpa using h _ (List.mem_map_of_mem hq)
      rw [create, RuleTable.create, hnone]
      rfl
  | sql t =>
      have hnone : t.row? r.id = none := List.find?_eq_none.mpr fun row hrow => by
        simpa using h _ (List.mem_map_of_mem hrow)
      rw [create, RuleRows.create, hnone, admits]
      cases RuleRow.ofRule r <;> rfl

/-- A rule that is replaced belongs to the tenant of the new version. -/
theorem owners_of_update (h : s.update r = .ok t) :
    t.owners = s.owners.map fun o => if o.1 == r.id then (r.id, r.tenantId) else o := by
  cases s with
  | memory table =>
      obtain ⟨table', ht, rfl⟩ := Outcome.map_eq_ok.mp h
      unfold RuleTable.update at ht
      split at ht
      next =>
        cases ht
        simp only [owners, List.map_map]
        refine List.map_congr_left fun q _ => ?_
        dsimp only [Function.comp]
        split <;> rfl
      next => cases ht
  | sql rows =>
      obtain ⟨rows', ht, rfl⟩ := Outcome.map_eq_ok.mp h
      unfold RuleRows.update at ht
      split at ht
      next =>
        obtain ⟨row, hrow, rfl⟩ := Outcome.map_eq_ok.mp ht
        obtain ⟨hid, htenant⟩ := written_rule_owner hrow
        simp only [owners, List.map_map]
        refine List.map_congr_left fun q _ => ?_
        dsimp only [Function.comp]
        rw [← hid, ← htenant]
        split <;> rfl
      next => cases ht

/-- A new version of a rule of the same tenant leaves whose the rules are. -/
theorem owners_kept (hids : (s.owners.map (·.1)).Nodup) (hr : (r.id, r.tenantId) ∈ s.owners)
    (h : s.update r = .ok t) : t.owners = s.owners := by
  rw [owners_of_update h]
  refine (List.map_congr_left fun o ho => ?_).trans (List.map_id _)
  split
  next hid => exact (List.inj_on_of_nodup_map hids ho hr (eq_of_beq hid)).symm
  next => rfl

/-- A rule of an unwanted tenant that is created does not show in the part. -/
theorem part_of_create (hnew : wanted r.tenantId = false) (h : s.create r = .ok t) :
    t.part wanted = s.part wanted := by
  cases s with
  | memory table =>
      obtain ⟨table', ht, rfl⟩ := Outcome.map_eq_ok.mp h
      unfold RuleTable.create at ht
      split at ht
      next => cases ht
      next =>
        cases ht
        simp [part, hnew]
  | sql rows =>
      obtain ⟨rows', ht, rfl⟩ := Outcome.map_eq_ok.mp h
      unfold RuleRows.create at ht
      split at ht
      next => cases ht
      next =>
        obtain ⟨row, hrow, rfl⟩ := Outcome.map_eq_ok.mp ht
        have htenant := (row_of_rule_owner hrow).2
        simp [part, htenant, hnew]

/-- A new version of a rule of a wanted tenant is written into the part. -/
theorem update_part (hold : ∀ o ∈ s.owners, o.1 = r.id → wanted o.2 = true) (hnew : wanted r.tenantId = true) :
    (s.part wanted).update r = (s.update r).map (part wanted) := by
  cases s with
  | memory t =>
      have hfind : (RuleTable.mk (t.rules.filter (wanted ·.tenantId))).get? r.id = t.get? r.id :=
        Keyed.find_filter Rule.id fun q hq => hold _ (List.mem_map_of_mem hq)
      have hmap := Keyed.filter_change Rule.id (fun _ => r) (fun q => wanted q.tenantId)
        fun q hq hid => hnew.trans (hold (q.id, q.tenantId) (List.mem_map_of_mem hq) hid).symm
      rw [part, update, RuleTable.update, hfind, update, RuleTable.update]
      cases (t.get? r.id).isSome with
      | false => rfl
      | true => exact congrArg (fun l => Except.ok (memory ⟨l⟩)) hmap.symm
  | sql t =>
      have hfind : (RuleRows.mk (t.rows.filter (wanted ·.tenantId))).row? r.id = t.row? r.id :=
        Keyed.find_filter RuleRow.id fun row hrow => hold _ (List.mem_map_of_mem hrow)
      rw [part, update, RuleRows.update, RuleRows.written, hfind, update, RuleRows.update]
      cases (t.row? r.id).isSome with
      | false => rfl
      | true =>
          rw [if_pos rfl, if_pos rfl, ← RuleRows.written]
          cases hrow : t.written r with
          | error f => rfl
          | ok row =>
              have htenant := (written_rule_owner hrow).2
              have hmap := Keyed.filter_change RuleRow.id (fun _ => row) (fun q => wanted q.tenantId)
                fun q hq hid => (htenant ▸ hnew).trans
                  (hold (q.id, q.tenantId) (List.mem_map_of_mem hq) hid).symm
              exact congrArg (fun l => Except.ok (sql ⟨l⟩)) hmap.symm

/-- A new version of a rule of an unwanted tenant does not show in the part. -/
theorem part_of_update (hold : ∀ o ∈ s.owners, o.1 = r.id → wanted o.2 = false) (hnew : wanted r.tenantId = false)
    (h : s.update r = .ok t) : t.part wanted = s.part wanted := by
  cases s with
  | memory table =>
      obtain ⟨table', ht, rfl⟩ := Outcome.map_eq_ok.mp h
      unfold RuleTable.update at ht
      split at ht
      next =>
        cases ht
        exact congrArg (fun l => memory ⟨l⟩) (Keyed.filter_change_unwanted Rule.id
          (fun q hq => hold (q.id, q.tenantId) (List.mem_map_of_mem hq)) fun _ _ _ => hnew)
      next => cases ht
  | sql rows =>
      obtain ⟨rows', ht, rfl⟩ := Outcome.map_eq_ok.mp h
      unfold RuleRows.update at ht
      split at ht
      next =>
        obtain ⟨row, hrow, rfl⟩ := Outcome.map_eq_ok.mp ht
        have htenant := (written_rule_owner hrow).2
        exact congrArg (fun l => sql ⟨l⟩) (Keyed.filter_change_unwanted RuleRow.id
          (fun q hq => hold (q.id, q.tenantId) (List.mem_map_of_mem hq)) fun _ _ _ => htenant ▸ hnew)
      next => cases ht

end RuleStore

/-! ### Executions -/

namespace ExecutionStore

/-- The store as if it kept the executions of the wanted tenants only. -/
def part (wanted : String → Bool) : ExecutionStore → ExecutionStore
  | memory t => memory ⟨t.executions.filter (wanted ·.tenantId)⟩
  | sql t => sql ⟨t.rows.filter (wanted ·.execution.tenantId)⟩

variable {s : ExecutionStore} {x : Execution} {id ruleId : String} {wanted : String → Bool}

/-- The trials of a part are those of the wanted tenants. -/
theorem trials_part (s : ExecutionStore) (wanted : String → Bool) :
    (s.part wanted).trials = s.trials.filter fun u => wanted u.tenantId := by
  cases s <;> (rw [part, trials, trials, List.filter_map]; rfl)

/-- A part makes the entries that the store makes. -/
theorem entry_of_part (s : ExecutionStore) (wanted : String → Bool) : (s.part wanted).entryOf = s.entryOf := by
  cases s <;> rfl

/-- The entry of an execution of a wanted tenant is found in the part. -/
theorem entry_part (h : ∀ u ∈ s.trials, u.id = id → wanted u.tenantId = true) :
    (s.part wanted).entryAt id = s.entryAt id := by
  cases s with
  | memory t =>
      exact congrArg (Option.map StoreEntry.execution)
        (Keyed.find_filter Execution.id fun y hy => h y.trial (List.mem_map_of_mem hy))
  | sql t =>
      exact congrArg (Option.map StoreEntry.row)
        (Keyed.find_filter ExecutionRow.id fun row hrow => h row.execution.trial
          (List.mem_map_of_mem (f := fun row : ExecutionRow => row.execution.trial) hrow))

/-- The executions of a wanted tenant are listed by the part. -/
theorem list_part {q : ExecutionQuery} (h : wanted q.tenantId = true) : (s.part wanted).list q = s.list q := by
  cases s with
  | memory t =>
      have hfilter : (t.executions.filter (wanted ·.tenantId)).filter (·.tenantId == q.tenantId) =
          t.executions.filter (·.tenantId == q.tenantId) := by
        rw [List.filter_filter]
        refine List.filter_congr fun x _ => ?_
        by_cases htenant : x.tenantId = q.tenantId
        · simp [htenant, h]
        · simp [htenant]
      rw [part, list, ExecutionTable.list, hfilter]
      rfl
  | sql t =>
      have hfilter : ∀ others : ExecutionRow → Bool,
          (t.rows.filter (wanted ·.execution.tenantId)).filter
              (fun row => row.execution.tenantId == q.tenantId && others row) =
            t.rows.filter fun row => row.execution.tenantId == q.tenantId && others row := by
        intro others
        rw [List.filter_filter]
        refine List.filter_congr fun row _ => ?_
        by_cases htenant : row.execution.tenantId = q.tenantId
        · simp [htenant, h]
        · simp [htenant]
      simp only [part, list, ExecutionRows.list, Bool.and_assoc, hfilter]

/-- The executions of a rule are the same in the part, if they all are of wanted tenants. -/
theorem filter_rule_part {α : Type} (trial : α → Trial) {l : List α}
    (h : ∀ u ∈ l.map trial, u.ruleId = ruleId → wanted u.tenantId = true) :
    (l.filter fun a => wanted (trial a).tenantId).filter (fun a => (trial a).ruleId == ruleId) =
      l.filter fun a => (trial a).ruleId == ruleId := by
  rw [List.filter_filter]
  refine List.filter_congr fun a ha => ?_
  by_cases hrule : (trial a).ruleId = ruleId
  · simp [hrule, h _ (List.mem_map_of_mem ha) hrule]
  · simp [hrule]

/-- How often a rule was executed on a day is told by the part, if its executions all are of wanted tenants. -/
theorem count_part (h : ∀ u ∈ s.trials, u.ruleId = ruleId → wanted u.tenantId = true) (day : Date) :
    (s.part wanted).count ruleId day = s.count ruleId day := by
  cases s with
  | memory t =>
      have hfilter := filter_rule_part Execution.trial h
      simp only [Execution.trial] at hfilter
      rw [part, count, ExecutionTable.count, hfilter]
      rfl
  | sql t =>
      have hfilter := filter_rule_part (fun row : ExecutionRow => row.execution.trial) h
      simp only [Execution.trial] at hfilter
      have hcount : ∀ stop, (t.rows.filter (wanted ·.execution.tenantId)).countP (fun row =>
            row.execution.ruleId == ruleId && ExecutionRows.isIn (Moment.ofDate day 0 (some 0)) stop row) =
          t.rows.countP fun row =>
            row.execution.ruleId == ruleId && ExecutionRows.isIn (Moment.ofDate day 0 (some 0)) stop row := by
        intro stop
        have hsplit : ∀ l : List ExecutionRow, l.countP (fun row =>
              row.execution.ruleId == ruleId && ExecutionRows.isIn (Moment.ofDate day 0 (some 0)) stop row) =
            (l.filter (·.execution.ruleId == ruleId)).countP
              (ExecutionRows.isIn (Moment.ofDate day 0 (some 0)) stop) := fun l => by
          rw [List.countP_filter]
          exact List.countP_congr fun row _ => by rw [Bool.and_comm]
        rw [hsplit, hsplit, hfilter]
      simp only [part, count, ExecutionRows.count, hcount]

/-- When a rule last started is told by the part, if its executions all are of wanted tenants. -/
theorem last_started_part (h : ∀ u ∈ s.trials, u.ruleId = ruleId → wanted u.tenantId = true) :
    (s.part wanted).lastStarted ruleId = s.lastStarted ruleId := by
  cases s with
  | memory t =>
      have hfilter := filter_rule_part Execution.trial h
      simp only [Execution.trial] at hfilter
      rw [part, lastStarted, ExecutionTable.lastStarted, hfilter]
      rfl
  | sql t =>
      have hfilter := filter_rule_part (fun row : ExecutionRow => row.execution.trial) h
      simp only [Execution.trial] at hfilter
      rw [part, lastStarted, ExecutionRows.lastStarted, hfilter]
      rfl

/-- Whether a rule may run is told by the part, if its executions all are of wanted tenants. -/
theorem check_part (h : ∀ u ∈ s.trials, u.ruleId = ruleId → wanted u.tenantId = true) (settings : RuleSettings)
    (now : Moment) : RateLimit.check (s.part wanted) ruleId settings now = RateLimit.check s ruleId settings now := by
  simp only [RateLimit.check, count_part h, last_started_part h]

/-- An execution of an unwanted tenant that is written does not show in the part. -/
theorem part_saved (hold : ∀ u ∈ s.trials, u.id = x.id → wanted u.tenantId = false)
    (hnew : wanted x.tenantId = false) : (s.saved x).part wanted = s.part wanted := by
  rw [saved]
  cases s with
  | memory table =>
      rw [update, ExecutionTable.update]
      split
      next t ht =>
        obtain ⟨table', htable, rfl⟩ := Outcome.map_eq_ok.mp ht
        split at htable
        next =>
          cases htable
          exact congrArg (fun l => memory ⟨l⟩) (Keyed.filter_change_unwanted Execution.id
            (fun y hy => hold y.trial (List.mem_map_of_mem hy)) fun _ _ _ => hnew)
        next => cases htable
      next => rfl
  | sql rows =>
      rw [update, ExecutionRows.update]
      split
      next t ht =>
        obtain ⟨rows', hrows, rfl⟩ := Outcome.map_eq_ok.mp ht
        split at hrows
        next =>
          obtain ⟨row, hrow, rfl⟩ := Outcome.map_eq_ok.mp hrows
          obtain ⟨new, hnewrow, hexecution, _⟩ := written_row hrow
          have htenant : row.execution.tenantId = x.tenantId :=
            (congrArg Execution.tenantId hexecution).trans (told_as (s := sql rows) (told_of_row hnewrow)).tenantId
          exact congrArg (fun l => sql ⟨l⟩) (Keyed.filter_change_unwanted ExecutionRow.id
            (fun y hy => hold y.execution.trial
              (List.mem_map_of_mem (f := fun row : ExecutionRow => row.execution.trial) hy))
            fun _ _ _ => htenant ▸ hnew)
        next => cases hrows
      next => rfl

/-- An execution of an unwanted tenant that is added does not show in the part. -/
theorem part_created (hold : ∀ u ∈ s.trials, u.id = x.id → wanted u.tenantId = false)
    (hnew : wanted x.tenantId = false) : (s.created x).part wanted = s.part wanted := by
  rw [created]
  cases s with
  | memory table =>
      rw [create]
      dsimp only
      rw [ExecutionTable.create]
      split
      · exact congrArg (fun l => memory ⟨l⟩) (Keyed.filter_change_unwanted Execution.id
          (fun y hy => hold y.trial (List.mem_map_of_mem hy)) fun _ _ _ => hnew)
      · simp [part, hnew]
  | sql rows =>
      rw [create, ExecutionRows.create]
      split
      next t ht =>
        obtain ⟨rows', hrows, rfl⟩ := Outcome.map_eq_ok.mp ht
        obtain ⟨row, hrow, hadded⟩ := Outcome.bind_eq_ok.mp hrows
        split at hadded
        next => cases hadded
        next =>
          cases hadded
          have htenant : row.execution.tenantId = x.tenantId := (told_as (s := sql rows) (told_of_row hrow)).tenantId
          simp [part, htenant, hnew]
      next => rfl

end ExecutionStore

end Rulebook
