import Rulebook.Proofs.Store.Rule
import Rulebook.Proofs.Store.Table

/-!
# Versions of a rule in a store

A rule that is created or written over an older version is what is got under its identifier from then on, and
under other identifiers is got what was (`RuleStore.create_get`, `RuleStore.update_get`). In memory that is the rule
itself. A database gives it back with its times in UTC, and it leaves a list of triggers, conditions or actions that
has the same content as the one that is written (`RuleStore.version`); limits and metadata are always replaced.
-/

namespace Rulebook

/-! ### Payloads with the same content -/

namespace Value

variable {v w : Value}

/-- Fields of one name have the same content in objects that do. -/
theorem agrees_of_fields {fs gs : Fields} (name : String) (h : (Value.object fs).agrees (.object gs) = true)
    (hv : Fields.get? fs name = some v) (hw : Fields.get? gs name = some w) : v.agrees w = true := by
  rw [agrees, Bool.and_eq_true] at h
  have hfields := h.2
  clear h
  induction fs with
  | nil => cases hv
  | cons f fs ih =>
      obtain ⟨key, u⟩ := f
      rw [agreesFields, Bool.and_eq_true] at hfields
      obtain ⟨hu, hrest⟩ := hfields
      rw [Fields.get?, List.lookup_cons] at hv
      split at hv
      next hkey =>
        obtain rfl := Option.some.inj hv
        rw [← eq_of_beq hkey, hw] at hu
        exact hu
      next => exact ih hv hrest

/-- Integers have the same content only if they are the same. -/
theorem eq_of_agreeing_ints {m n : Int} (h : (Value.int m).agrees (.int n) = true) : m = n := eq_of_beq h

/-- Truth values have the same content only if they are the same. -/
theorem eq_of_agreeing_bools {b c : Bool} (h : (Value.bool b).agrees (.bool c) = true) : b = c := by
  cases b <;> cases c <;> first | rfl | cases h

/-- Texts have the same content only if they are the same. -/
theorem eq_of_agreeing_text {s t : String} (h : (Value.text s).agrees (.text t) = true) : s = t := eq_of_beq h

/-- Lists of texts have the same content only if they are the same. -/
theorem eq_of_agreeing_texts {l k : List String} (h : (Value.texts l).agrees (.texts k) = true) : l = k := by
  rw [texts, texts, agrees] at h
  induction l generalizing k with
  | nil =>
      cases k with
      | nil => rfl
      | cons => cases h
  | cons s l ih =>
      cases k with
      | nil => cases h
      | cons t k =>
          rw [List.map_cons, List.map_cons, agreesAll, Bool.and_eq_true] at h
          rw [eq_of_agreeing_text h.1, ih h.2]

/-- Texts are written as they are. -/
theorem written_texts (l : List String) : (Value.texts l).written = .texts l := by
  refine written_of_json _ ?_
  show areJson (l.map .text) = true
  induction l with
  | nil => rfl
  | cons s l ih => exact ih

end Value

/-- Limits have the same content only if they are the same. -/
theorem RuleSettings.eq_of_agrees {s t : RuleSettings} (h : s.toValue.written.agrees t.toValue.written = true) :
    s = t := by
  have hquota := Value.eq_of_agreeing_ints (Value.agrees_of_fields "max_executions_per_day" h rfl rfl)
  have hcooldown := Value.eq_of_agreeing_ints (Value.agrees_of_fields "cooldown_period" h rfl rfl)
  have hretries := Value.eq_of_agreeing_ints (Value.agrees_of_fields "retry_attempts" h rfl rfl)
  have htimeout := Value.eq_of_agreeing_ints (Value.agrees_of_fields "timeout_seconds" h rfl rfl)
  have hparallel := Value.eq_of_agreeing_bools (Value.agrees_of_fields "run_in_parallel" h rfl rfl)
  obtain ⟨quota, cooldown, retries, timeout, parallel⟩ := s
  obtain ⟨quota', cooldown', retries', timeout', parallel'⟩ := t
  rw [RuleSettings.mk.injEq]
  exact ⟨hquota, hcooldown, hretries, htimeout, hparallel⟩

namespace RuleMetadata

variable {m n : RuleMetadata}

/-- Metadata have the same content only if they have the same number of executions. -/
theorem count_of_agrees (h : m.toValue.written.agrees n.toValue.written = true) :
    m.executionCount = n.executionCount :=
  Value.eq_of_agreeing_ints (Value.agrees_of_fields "execution_count" h rfl rfl)

/-- Metadata have the same content only if they have the same subject. -/
theorem category_of_agrees (h : m.toValue.written.agrees n.toValue.written = true) : m.category = n.category := by
  have hname : Enumeration.name m.category = Enumeration.name n.category :=
    Value.eq_of_agreeing_text (Value.agrees_of_fields "category" h rfl rfl)
  revert hname
  cases m.category <;> cases n.category <;> decide

/-- Metadata have the same content only if they have the same tags. -/
theorem tags_of_agrees (h : m.toValue.written.agrees n.toValue.written = true) : m.tags = n.tags := by
  have htags := Value.agrees_of_fields "tags" h rfl rfl
  rw [Value.written_texts, Value.written_texts] at htags
  exact Value.eq_of_agreeing_texts htags

end RuleMetadata

/-! ### Rules in a database -/

/-- A time in UTC stays so. -/
theorem Moment.in_utc_in_utc (m : Moment) : m.inUtc.inUtc = m.inUtc := congrArg utc m.instant_in_utc

/-- A time is kept in UTC. -/
theorem Stored.eq_in_utc {m k : Moment} (h : time m = .ok k) : k = m.inUtc := by
  have hinstant := instant_of_time h
  have hutc : k.offset = some 0 := by
    have hkept : m.normalize = .ok k := Outcome.map_error_eq_ok.mp h
    unfold Moment.normalize Moment.toUtc at hkept
    split at hkept
    · split at hkept
      · obtain rfl := Except.ok.inj hkept
        rfl
      · cases hkept
    · obtain rfl := Except.ok.inj hkept
      rfl
  obtain ⟨wall, offset⟩ := k
  obtain rfl : offset = some 0 := hutc
  have hwall : wall - 0 * microsPerSecond = m.instant := hinstant
  rw [Moment.inUtc, ← hwall, Int.zero_mul, Int.sub_zero]
  rfl

/-- The row of a rule is the one that is read as the rule. -/
theorem RuleRow.eq_row {r : Rule} {row : RuleRow} (h : ofRule r = .ok row) : row = r.row := by
  unfold ofRule at h
  obtain ⟨_, hcreated, h⟩ := Outcome.bind_eq_ok.mp h
  obtain ⟨_, hupdated, h⟩ := Outcome.bind_eq_ok.mp h
  obtain ⟨_, hpriority, h⟩ := Outcome.bind_eq_ok.mp h
  obtain rfl := Stored.eq_in_utc hcreated
  obtain rfl := Stored.eq_in_utc hupdated
  obtain rfl := Stored.integer_eq hpriority
  exact (Except.ok.inj h).symm

namespace Rule

variable {old new r : Rule}

/-- A rule in UTC stays so. -/
theorem in_utc_in_utc (r : Rule) : r.inUtc.inUtc = r.inUtc := by
  simp only [inUtc, Moment.in_utc_in_utc]

/-- A rule has the row that it has in UTC. -/
theorem row_in_utc (r : Rule) : r.inUtc.row = r.row := by
  simp only [row, inUtc, Moment.in_utc_in_utc]

/-- A rule in UTC can be read again if the rule can. -/
theorem IsReadable.in_utc (h : r.IsReadable) : r.inUtc.IsReadable :=
  ⟨{ h.reread with }, h.tenant⟩

/-- A rule that can be read again can be with other metadata, if the time of their last execution can be told. -/
theorem IsReadable.with_metadata (h : r.IsReadable) {m : RuleMetadata} (hlast : ∀ t ∈ m.lastExecuted, t.IsTold) :
    ({ r with metadata := m } : Rule).IsReadable :=
  ⟨{ h.reread with metadata := RuleMetadata.read_give m .json fun _ => hlast }, h.tenant⟩

/-- What a database gives back of a rule that is written over an older version: times are in UTC, and lists with the
same content as before stay. -/
def writtenOver (old new : Rule) : Rule :=
  { new with
    triggers := Stored.staying (Stored.items Trigger.toValue) old.triggers new.triggers
    conditions := Stored.staying (Stored.items Condition.toValue) old.conditions new.conditions
    actions := Stored.staying (Stored.items Action.toValue) old.actions new.actions
    createdAt := new.createdAt.inUtc
    updatedAt := new.updatedAt.inUtc }

/-- Limits are replaced, and so are metadata that have the same content only if they are the same. -/
theorem kept_over_in_utc
    (hmetadata : new.metadata.toValue.written.agrees old.metadata.toValue.written = true →
      old.metadata = new.metadata) : (old.keptOver new).inUtc = old.writtenOver new := by
  have hsettings : Stored.staying (fun s : RuleSettings => s.toValue.written) old.settings new.settings =
      new.settings := by
    rw [Stored.staying]
    split
    next h => exact (RuleSettings.eq_of_agrees h).symm
    next => rfl
  have hmetadata' : Stored.staying (fun m : RuleMetadata => m.toValue.written) old.metadata new.metadata =
      new.metadata := by
    rw [Stored.staying]
    split
    next h => exact hmetadata h
    next => rfl
  simp only [inUtc, keptOver, writtenOver, hsettings, hmetadata']

end Rule

namespace RuleStore

/-- Whether rules are kept in a database. -/
def isDatabase : RuleStore → Bool
  | memory _ => false
  | sql _ => true

/-- What the store gives back of a rule that is created. -/
def first (s : RuleStore) (r : Rule) : Rule := if s.isDatabase then r.inUtc else r

/-- What the store gives back of a rule that is written over an older version. -/
def version (s : RuleStore) (old new : Rule) : Rule := if s.isDatabase then old.writtenOver new else new

/-- The store gives back what it keeps: in a database each row is that of a rule in UTC that can be read again. -/
def IsFaithful : RuleStore → Prop
  | memory _ => True
  | sql t => ∀ row ∈ t.rows, ∃ r : Rule, row = r.row ∧ r.inUtc = r ∧ r.IsReadable

variable {s s' : RuleStore} {q r : Rule} {id : String}

/-- A store without rules is faithful. -/
theorem IsEmpty.faithful (h : s.IsEmpty) : s.IsFaithful := by
  cases s with
  | memory t => trivial
  | sql t =>
      have hrows : t.rows = [] := List.map_eq_nil_iff.mp h
      intro row hrow
      rw [hrows] at hrow
      cases hrow

/-- In a store without rules none is found. -/
theorem IsEmpty.get (h : s.IsEmpty) (id : String) : s.get id = .ok none := by
  cases s with
  | memory t =>
      have hrules : t.rules = [] := List.map_eq_nil_iff.mp h
      rw [RuleStore.get, RuleTable.get?, hrules]
      rfl
  | sql t =>
      have hrows : t.rows = [] := List.map_eq_nil_iff.mp h
      rw [RuleStore.get, RuleRows.get, RuleRows.row?, hrows]
      rfl

/-- A row of a faithful store is read as a rule of which it is the row. -/
theorem IsFaithful.get {t : RuleRows} {row : RuleRow} (hs : (sql t).IsFaithful) (h : t.row? id = some row) :
    ∃ q, (sql t).get id = .ok (some q) ∧ row = q.row ∧ q.inUtc = q ∧ q.IsReadable := by
  obtain ⟨q, rfl, hutc, hreadable⟩ := hs row (List.mem_of_find?_eq_some h)
  refine ⟨q, ?_, rfl, hutc, hreadable⟩
  show (t.row? id).mapM RuleRow.toRule = _
  rw [h]
  show q.row.toRule.map some = _
  rw [RuleRow.to_rule_of_row hreadable, hutc]
  rfl

/-- A faithful store finds a rule or none under an identifier. -/
theorem IsFaithful.found (hs : s.IsFaithful) (id : String) : ∃ found, s.get id = .ok found := by
  cases s with
  | memory t => exact ⟨_, rfl⟩
  | sql t =>
      cases hrow : t.row? id with
      | none => exact ⟨none, by rw [RuleStore.get, RuleRows.get, hrow]; rfl⟩
      | some row =>
          obtain ⟨q, hq, _⟩ := hs.get hrow
          exact ⟨some q, hq⟩

/-- A rule that is got of a faithful database is in UTC. -/
theorem IsFaithful.in_utc (hs : s.IsFaithful) (hdatabase : s.isDatabase = true) (h : s.get id = .ok (some r)) :
    r.inUtc = r ∧ r.IsReadable := by
  cases s with
  | memory t => cases hdatabase
  | sql t =>
      obtain ⟨row, hrow, -⟩ := Outcome.made_eq_ok_iff.mp h
      obtain ⟨q, hq, -, hutc⟩ := hs.get hrow
      obtain rfl := Option.some.inj (Except.ok.inj (hq.symm.trans h))
      exact hutc

/-- What is got of a store that was written to. -/
structure Gives (s s' : RuleStore) (id : String) (r : Rule) : Prop where
  faithful : s'.IsFaithful
  database : s'.isDatabase = s.isDatabase
  self : s'.get id = .ok (some r)
  other : ∀ other, other ≠ id → s'.get other = s.get other

/-- A created rule is got from then on, and under other identifiers is got what was. -/
theorem create_get (hs : s.IsFaithful) (hr : s.isDatabase = true → r.IsReadable) (h : s.create r = .ok s') :
    s.get r.id = .ok none ∧ s.Gives s' r.id (s.first r) := by
  cases s with
  | memory t =>
      obtain ⟨t', ht, rfl⟩ := Outcome.map_eq_ok.mp h
      unfold RuleTable.create at ht
      split at ht
      next => cases ht
      next hnone =>
        obtain rfl := Except.ok.inj ht
        have hnew : t.get? r.id = none := Option.not_isSome_iff_eq_none.mp hnone
        exact ⟨congrArg Except.ok hnew, trivial, rfl, congrArg Except.ok (Keyed.find_add_self Rule.id rfl hnew),
          fun other hne => congrArg Except.ok (Keyed.find_add_of_ne Rule.id rfl hne)⟩
  | sql t =>
      obtain ⟨t', ht, rfl⟩ := Outcome.map_eq_ok.mp h
      unfold RuleRows.create at ht
      split at ht
      next => cases ht
      next hnone =>
        obtain ⟨row, hrow, rfl⟩ := Outcome.map_eq_ok.mp ht
        obtain rfl := RuleRow.eq_row hrow
        have hnew : t.row? r.id = none := Option.not_isSome_iff_eq_none.mp hnone
        have hreadable := hr rfl
        refine ⟨by rw [RuleStore.get, RuleRows.get, hnew]; rfl, ?_, rfl, ?_, fun other hne => ?_⟩
        · exact List.forall_mem_append.mpr ⟨hs, List.forall_mem_singleton.mpr
            ⟨r.inUtc, r.row_in_utc.symm, r.in_utc_in_utc, hreadable.in_utc⟩⟩
        · have hfind : (RuleRows.mk (t.rows ++ [r.row])).row? r.id = some r.row :=
            Keyed.find_add_self RuleRow.id rfl hnew
          show ((RuleRows.mk (t.rows ++ [r.row])).row? r.id).mapM RuleRow.toRule = _
          rw [hfind]
          show r.row.toRule.map some = _
          rw [RuleRow.to_rule_of_row hreadable]
          rfl
        · exact congrArg (Option.mapM RuleRow.toRule) (Keyed.find_add_of_ne RuleRow.id rfl hne)

/-- An updated rule is got from then on, and under other identifiers is got what was. -/
theorem update_get (hs : s.IsFaithful) (hr : s.isDatabase = true → r.IsReadable)
    (hmetadata : ∀ q, s.get r.id = .ok (some q) →
      r.metadata.toValue.written.agrees q.metadata.toValue.written = true → q.metadata = r.metadata)
    (h : s.update r = .ok s') :
    ∃ q, s.get r.id = .ok (some q) ∧ s.Gives s' r.id (s.version q r) := by
  cases s with
  | memory t =>
      obtain ⟨t', ht, rfl⟩ := Outcome.map_eq_ok.mp h
      unfold RuleTable.update at ht
      split at ht
      next hsome =>
        obtain rfl := Except.ok.inj ht
        obtain ⟨q, hq⟩ := Option.isSome_iff_exists.mp hsome
        have hself := @Keyed.find_change_self _ Rule.id r.id (fun _ => r) (fun _ _ => rfl) t.rules
        refine ⟨q, congrArg Except.ok hq, trivial, rfl, congrArg Except.ok (hself.trans ?_), fun other hne =>
          congrArg Except.ok (Keyed.find_change_of_ne Rule.id (fun _ _ => rfl) hne t.rules)⟩
        show (t.get? r.id).map (fun _ => r) = some r
        rw [hq]
        rfl
      next => cases ht
  | sql t =>
      obtain ⟨t', ht, rfl⟩ := Outcome.map_eq_ok.mp h
      unfold RuleRows.update at ht
      split at ht
      next hsome =>
        obtain ⟨row, hrow, rfl⟩ := Outcome.map_eq_ok.mp ht
        obtain ⟨new, hnew, rfl⟩ := Outcome.map_eq_ok.mp hrow
        obtain rfl := RuleRow.eq_row hnew
        obtain ⟨old, hold⟩ := Option.isSome_iff_exists.mp hsome
        obtain ⟨q, hq, rfl, _, hreadable⟩ := hs.get hold
        have hid : q.row.id = r.id := (Keyed.mem_of_find hold).2
        have hkept := Rule.kept_over_in_utc (hmetadata q hq)
        have hkeptreadable := hreadable.kept_over (hr rfl)
        have hwritten : (t.row? r.id).elim r.row (·.overlay r.row) = (q.writtenOver r).row := by
          rw [hold, ← hkept, Rule.row_in_utc]
          exact Rule.row_kept_over q r
        rw [hwritten]
        have hkey : ∀ a : RuleRow, a.id = r.id → (q.writtenOver r).row.id = r.id := fun _ _ => rfl
        have hself := Keyed.find_change_self RuleRow.id hkey t.rows
        have hutc : (q.writtenOver r).inUtc = q.writtenOver r := by rw [← hkept, Rule.in_utc_in_utc]
        have hread : (q.writtenOver r).IsReadable := hkept ▸ hkeptreadable.in_utc
        refine ⟨q, hq, ?_, rfl, ?_, fun other hne =>
          congrArg (Option.mapM RuleRow.toRule) (Keyed.find_change_of_ne RuleRow.id hkey hne t.rows)⟩
        · refine List.forall_mem_map.mpr fun old hold => ?_
          split
          · exact ⟨_, rfl, hutc, hread⟩
          · exact hs old hold
        · have hfind := hself.trans (congrArg (Option.map _) hold)
          refine (congrArg (Option.mapM RuleRow.toRule) hfind).trans ?_
          show (q.writtenOver r).row.toRule.map some = _
          rw [RuleRow.to_rule_of_row hread, hutc]
          rfl
      next => cases ht

end RuleStore

end Rulebook
