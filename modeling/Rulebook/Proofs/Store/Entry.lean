import Rulebook.Proofs.Outcome
import Rulebook.Proofs.Store.Keyed

/-!
# Entries of the execution store

A store keeps one entry for each execution: the execution itself in memory, its row in a database.
What a reader gets is read from the entry (`ExecutionStore.get_eq`). Writing an execution makes
its entry anew (`ExecutionStore.entry_saved_self`, `ExecutionStore.entry_created_self`), unless the
store cannot keep it, and leaves the other entries as they are. A database writes the new row over the
old one; nothing of the old row stays if its payloads are not blurred with the new ones
(`ExecutionStore.kept_eq`).
-/

namespace Rulebook

/-- What is written over a payload with the same content only if it is the same is kept. -/
theorem Stored.overlay_eq {old new : Value} (h : new.agrees old = true → old = new) : overlay old new = new := by
  rw [overlay]
  split
  next hagrees => exact h hagrees
  next => rfl

/-- Null has the content of null only. -/
theorem Value.eq_null_of_agrees {v : Value} (h : v.agrees .null = true) : v = .null := by
  cases v <;> simp_all [agrees, agreesFlat, number?]

/-- Nothing of the payloads of the first version stays when the second is written over it. -/
structure Execution.YieldsTo (y x : Execution) : Prop where
  triggerData : y.triggerData = x.triggerData
  context : y.context = x.context
  result : y.result = none ∨ y.result = x.result

/-- What a store keeps of an execution. -/
inductive StoreEntry where
  /-- In memory, the execution. -/
  | execution (x : Execution)
  /-- In a database, its row. -/
  | row (r : ExecutionRow)

/-- The execution that is read from an entry. -/
def StoreEntry.read : StoreEntry → Outcome Execution
  | execution x => .ok x
  | row r => r.toExecution

/-- An execution whose times and counts can be kept has a row. -/
theorem ExecutionRow.of_execution_eq_ok {x : Execution} {r : ExecutionRow} :
    ofExecution x = .ok r ↔ ∃ triggeredAt, Stored.time x.triggeredAt = .ok triggeredAt ∧
      ∃ startedAt, Stored.time? x.startedAt = .ok startedAt ∧
      ∃ completedAt, Stored.time? x.completedAt = .ok completedAt ∧
      ∃ steps, x.steps.mapM StepRow.ofStep = .ok steps ∧
      { execution := { x with
          triggeredAt, startedAt, completedAt, duration := Stored.real? x.duration
          triggerData := [], context := .empty, result := none, steps := [] }
        triggerData := (Value.object x.triggerData).written
        context := x.context.toValue.written
        result := (Value.ofOption .object x.result).written
        steps } = r := by
  simp only [ofExecution, Outcome.bind_eq_ok, Except.ok.injEq]

namespace ExecutionStore

/-- The entry of an identifier. -/
def entryAt : ExecutionStore → String → Option StoreEntry
  | memory t, id => (t.get? id).map .execution
  | sql t, id => (t.row? id).map .row

/-- The entry that the store makes for an execution. -/
def entryOf : ExecutionStore → Execution → Outcome StoreEntry
  | memory _, x => .ok (.execution x)
  | sql _, x => (ExecutionRow.ofExecution x).map .row

/-- The entry that the store keeps of an execution that is written. -/
def kept : ExecutionStore → Execution → Outcome StoreEntry
  | memory _, x => .ok (.execution x)
  | sql t, x => (t.written x).map .row

/-- The store after an execution was to be replaced. -/
def saved (s : ExecutionStore) (x : Execution) : ExecutionStore :=
  match s.update x with
  | .ok t => t
  | .error _ => s

/-- The store after an execution was to be added. -/
def created (s : ExecutionStore) (x : Execution) : ExecutionStore :=
  match s.create x with
  | .ok t => t
  | .error _ => s

variable {s : ExecutionStore} {x : Execution} {id : String}

/-- A reader gets what is read from the entry. -/
theorem get_eq {n : StoreEntry} (h : s.entryAt id = some n) : s.get id = n.read.map some := by
  cases s with
  | memory t =>
      obtain ⟨x, hx, rfl⟩ := Option.map_eq_some_iff.mp h
      rw [get, hx]
      rfl
  | sql t =>
      obtain ⟨r, hr, rfl⟩ := Option.map_eq_some_iff.mp h
      rw [get, ExecutionRows.get, hr]
      rfl

/-- A reader gets an execution if it is what is read from the entry. -/
theorem get_eq_ok_iff {n : StoreEntry} {v : Execution} (h : s.entryAt id = some n) :
    s.get id = .ok (some v) ↔ n.read = .ok v := by
  simp [get_eq h, Outcome.map_eq_ok]

/-- A store that holds no execution. -/
def IsEmpty (s : ExecutionStore) : Prop := ∀ id, s.get id = .ok none

/-- A store that holds no execution has no entries. -/
theorem IsEmpty.entry_at_eq_none (h : s.IsEmpty) (id : String) : s.entryAt id = none := by
  cases hentry : s.entryAt id with
  | none => rfl
  | some n =>
      have hget := get_eq hentry
      rw [h id] at hget
      cases hread : n.read <;> rw [hread] at hget <;> cases hget

/-- Without an entry a reader gets nothing. -/
theorem get_of_entry_eq_none (h : s.entryAt id = none) : s.get id = .ok none := by
  cases s with
  | memory t => rw [get, Option.map_eq_none_iff.mp h]
  | sql t =>
      rw [get, ExecutionRows.get, Option.map_eq_none_iff.mp h]
      rfl

/-- Replacing an execution does not change how the store makes entries. -/
theorem entry_of_saved (s : ExecutionStore) (x : Execution) : (s.saved x).entryOf = s.entryOf := by
  cases s with
  | memory t =>
      rw [saved, update]
      cases t.update x <;> rfl
  | sql t =>
      rw [saved, update]
      cases t.update x <;> rfl

/-- Adding an execution does not change how the store makes entries. -/
theorem entry_of_created (s : ExecutionStore) (x : Execution) :
    (s.created x).entryOf = s.entryOf := by
  cases s with
  | memory t => rfl
  | sql t =>
      rw [created, create]
      cases t.create x <;> rfl

/-- The store that adding an execution gives. -/
theorem created_eq {t : ExecutionStore} (h : s.create x = .ok t) : s.created x = t := by
  rw [created, h]

/-- What can be added has an entry. -/
theorem entry_of_create_eq_ok {t : ExecutionStore} (h : s.create x = .ok t) :
    ∃ n, s.entryOf x = .ok n := by
  cases s with
  | memory _ => exact ⟨_, rfl⟩
  | sql _ =>
      obtain ⟨_, h, _⟩ := Outcome.map_eq_ok.mp h
      obtain ⟨row, hrow, _⟩ := Outcome.bind_eq_ok.mp h
      exact ⟨.row row, by rw [entryOf, hrow]; rfl⟩

/-- The row of an execution has its identifier. -/
theorem row_id {r : ExecutionRow} (h : ExecutionRow.ofExecution x = .ok r) : r.id = x.id := by
  obtain ⟨_, _, _, _, _, _, _, _, rfl⟩ := ExecutionRow.of_execution_eq_ok.mp h
  rfl

/-- The row that is kept of an execution is that of the execution, apart from its payloads. -/
theorem written_row {t : ExecutionRows} {r : ExecutionRow} (h : t.written x = .ok r) :
    ∃ new, ExecutionRow.ofExecution x = .ok new ∧ r.execution = new.execution ∧ r.steps = new.steps := by
  obtain ⟨new, hnew, rfl⟩ := Outcome.map_eq_ok.mp h
  cases t.row? x.id <;> exact ⟨new, hnew, rfl, rfl⟩

/-- The row that is kept of an execution has its identifier. -/
theorem written_id {t : ExecutionRows} {r : ExecutionRow} (h : t.written x = .ok r) : r.id = x.id := by
  obtain ⟨new, hnew, hexecution, _⟩ := written_row h
  exact (congrArg Execution.id hexecution).trans (row_id hnew)

/-- An execution that is replaced has the entry that is kept of it, or the old one if the store cannot keep
it. -/
theorem entry_saved_self (s : ExecutionStore) (x : Execution) :
    (s.saved x).entryAt x.id = (s.entryAt x.id).map ((s.kept x).toOption.getD ·) := by
  cases s with
  | memory t =>
      have hfind : (t.replace x).get? x.id = (t.get? x.id).map fun _ => x :=
        Keyed.find_change_self Execution.id (fun _ _ => rfl) t.executions
      cases hx : t.get? x.id with
      | none => simp [saved, update, ExecutionTable.update, hx, Except.map, entryAt]
      | some y =>
          rw [hx] at hfind
          simp [saved, update, ExecutionTable.update, hx, Except.map, entryAt, hfind, kept,
            Except.toOption]
  | sql t =>
      cases hx : t.row? x.id with
      | none => simp [saved, update, ExecutionRows.update, hx, Except.map, entryAt]
      | some r =>
          cases hrow : t.written x with
          | error f =>
              simp [saved, update, ExecutionRows.update, hx, hrow, Except.map, entryAt, kept,
                Except.toOption]
          | ok row =>
              have hfind : (ExecutionRows.mk (t.rows.map fun r => if r.id == x.id then row else r)).row?
                  x.id = (t.row? x.id).map fun _ => row :=
                Keyed.find_change_self ExecutionRow.id (fun _ _ => written_id hrow) t.rows
              rw [hx] at hfind
              simpa [saved, update, ExecutionRows.update, hx, hrow, Except.map, entryAt, kept,
                Except.toOption] using hfind

/-- What is kept of an execution is the entry that is made for it, if the entry before was made for a version
of which nothing stays. -/
theorem kept_eq (h : ∀ n, s.entryAt x.id = some n → ∃ y, s.entryOf y = .ok n ∧ y.YieldsTo x) :
    s.kept x = s.entryOf x := by
  cases s with
  | memory t => rfl
  | sql t =>
      rw [kept, entryOf, ExecutionRows.written]
      cases hx : ExecutionRow.ofExecution x with
      | error f => rfl
      | ok row =>
          cases hold : t.row? x.id with
          | none => rfl
          | some old =>
              obtain ⟨y, hy, hyields⟩ := h (.row old) (by rw [entryAt, hold]; rfl)
              obtain ⟨_, hrow, hentry⟩ := Outcome.map_eq_ok.mp hy
              obtain rfl := StoreEntry.row.inj hentry
              obtain ⟨_, _, _, _, _, _, _, _, rfl⟩ := ExecutionRow.of_execution_eq_ok.mp hrow
              obtain ⟨_, _, _, _, _, _, _, _, rfl⟩ := ExecutionRow.of_execution_eq_ok.mp hx
              have hkept : ∀ v : Value, v.agrees (Value.ofOption .object y.result).written = true →
                  v = (Value.ofOption .object x.result).written →
                  (Value.ofOption .object y.result).written = v := by
                rintro v hagrees rfl
                obtain hnone | hsame := hyields.result
                · rw [hnone] at hagrees ⊢
                  exact (Value.eq_null_of_agrees hagrees).symm
                · rw [hsame]
              simp only [Except.map, Option.elim, ExecutionRow.overlay, hyields.triggerData, hyields.context,
                Stored.overlay_eq fun _ => rfl, Stored.overlay_eq fun h => hkept _ h rfl]

/-- Replacing an execution leaves the other entries. -/
theorem entry_saved_of_ne (hne : id ≠ x.id) : (s.saved x).entryAt id = s.entryAt id := by
  cases s with
  | memory t =>
      cases hx : (t.get? x.id).isSome with
      | false => simp only [saved, update, ExecutionTable.update, hx, Bool.false_eq_true, if_false,
          Except.map]
      | true =>
          simp only [saved, update, ExecutionTable.update, hx, if_true, Except.map]
          exact congrArg (Option.map StoreEntry.execution)
            (Keyed.find_change_of_ne Execution.id (fun _ _ => rfl) hne t.executions)
  | sql t =>
      cases hx : (t.row? x.id).isSome with
      | false => simp only [saved, update, ExecutionRows.update, hx, Bool.false_eq_true, if_false,
          Except.map]
      | true =>
          cases hrow : t.written x with
          | error f => simp only [saved, update, ExecutionRows.update, hx, if_true, hrow, Except.map]
          | ok row =>
              simp only [saved, update, ExecutionRows.update, hx, if_true, hrow, Except.map]
              exact congrArg (Option.map StoreEntry.row)
                (Keyed.find_change_of_ne ExecutionRow.id (fun _ _ => written_id hrow) hne t.rows)

/-- An execution that is added under a new identifier has its entry if the store can keep it. -/
theorem entry_created_self (h : s.entryAt x.id = none) :
    (s.created x).entryAt x.id = (s.entryOf x).toOption := by
  cases s with
  | memory t =>
      have hx : t.get? x.id = none := Option.map_eq_none_iff.mp h
      simp only [created, create, ExecutionTable.create, hx, Option.isSome_none, Bool.false_eq_true,
        if_false]
      exact congrArg (Option.map StoreEntry.execution) (Keyed.find_add_self Execution.id rfl hx)
  | sql t =>
      have hx : t.row? x.id = none := Option.map_eq_none_iff.mp h
      cases hrow : ExecutionRow.ofExecution x with
      | error f =>
          simp only [created, create, ExecutionRows.create, hrow, entryOf, Except.map, bind,
            Except.bind]
          exact h
      | ok row =>
          simp only [created, create, ExecutionRows.create, hrow, entryOf, Except.map, bind,
            Except.bind, hx, Option.isSome_none, Bool.false_eq_true, if_false]
          exact congrArg (Option.map StoreEntry.row)
            (Keyed.find_add_self ExecutionRow.id (row_id hrow) hx)

/-- Adding an execution leaves the other entries. -/
theorem entry_created_of_ne (hne : id ≠ x.id) : (s.created x).entryAt id = s.entryAt id := by
  cases s with
  | memory t =>
      cases hx : (t.get? x.id).isSome with
      | false =>
          simp only [created, create, ExecutionTable.create, hx, Bool.false_eq_true, if_false]
          exact congrArg (Option.map StoreEntry.execution)
            (Keyed.find_add_of_ne Execution.id rfl hne)
      | true =>
          simp only [created, create, ExecutionTable.create, hx, if_true]
          exact congrArg (Option.map StoreEntry.execution)
            (Keyed.find_change_of_ne Execution.id (fun _ _ => rfl) hne t.executions)
  | sql t =>
      cases hrow : ExecutionRow.ofExecution x with
      | error f =>
          simp only [created, create, ExecutionRows.create, hrow, Except.map, bind, Except.bind]
      | ok row =>
          cases hx : (t.row? x.id).isSome with
          | true =>
              simp only [created, create, ExecutionRows.create, hrow, Except.map, bind, Except.bind,
                hx, if_true]
          | false =>
              simp only [created, create, ExecutionRows.create, hrow, Except.map, bind, Except.bind,
                hx, Bool.false_eq_true, if_false]
              exact congrArg (Option.map StoreEntry.row)
                (Keyed.find_add_of_ne ExecutionRow.id (row_id hrow) hne)

/-- What has an entry can be replaced by what the store can keep. -/
theorem update_eq_ok {n : StoreEntry} (hentry : s.entryAt x.id ≠ none) (hn : s.entryOf x = .ok n) :
    ∃ t, s.update x = .ok t := by
  cases s with
  | memory t =>
      have hx : (t.get? x.id).isSome = true :=
        Option.isSome_iff_ne_none.mpr fun h => hentry (Option.map_eq_none_iff.mpr h)
      exact ⟨_, by rw [update, ExecutionTable.update, if_pos hx]; rfl⟩
  | sql t =>
      have hx : (t.row? x.id).isSome = true :=
        Option.isSome_iff_ne_none.mpr fun h => hentry (Option.map_eq_none_iff.mpr h)
      obtain ⟨row, hrow, _⟩ := Outcome.map_eq_ok.mp hn
      exact ⟨_, by rw [update, ExecutionRows.update, if_pos hx, ExecutionRows.written, hrow]; rfl⟩

/-- What the store can keep can be added under a new identifier, and has its entry then. -/
theorem create_eq_ok {n : StoreEntry} (hfresh : s.entryAt x.id = none) (hn : s.entryOf x = .ok n) :
    ∃ t, s.create x = .ok t ∧ t.entryOf = s.entryOf ∧ t.entryAt x.id = some n := by
  have hcreate : ∃ t, s.create x = .ok t := by
    cases s with
    | memory t => exact ⟨_, rfl⟩
    | sql t =>
        have hx : (t.row? x.id).isSome = false :=
          Option.isSome_eq_false_iff.mpr (Option.isNone_iff_eq_none.mpr (Option.map_eq_none_iff.mp hfresh))
        obtain ⟨row, hrow, _⟩ := Outcome.map_eq_ok.mp hn
        exact ⟨.sql ⟨t.rows ++ [row]⟩, by simp [create, ExecutionRows.create, hrow, hx, bind,
          Except.bind, Except.map]⟩
  obtain ⟨t, ht⟩ := hcreate
  have hkind := entry_of_created s x
  have hentry := entry_created_self hfresh
  rw [created_eq ht] at hkind hentry
  exact ⟨t, ht, hkind, by rw [hentry, hn]; rfl⟩

/-- The entry that is new after an execution was to be added is that of the execution, which was added. -/
theorem added_of_entry {n : StoreEntry} (hfresh : s.entryAt id = none) (h : (s.created x).entryAt id = some n) :
    id = x.id ∧ ∃ t, s.create x = .ok t := by
  by_cases hid : id = x.id
  · subst hid
    rw [entry_created_self hfresh] at h
    cases hn : s.entryOf x with
    | error f =>
        rw [hn] at h
        cases h
    | ok m =>
        obtain ⟨t, ht, _⟩ := create_eq_ok hfresh hn
        exact ⟨rfl, t, ht⟩
  · rw [entry_created_of_ne hid, hfresh] at h
    cases h

end ExecutionStore

end Rulebook
