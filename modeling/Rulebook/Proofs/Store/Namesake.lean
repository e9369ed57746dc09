import Rulebook.Proofs.Run.Namesake
import Rulebook.Proofs.Store.Entry

/-!
# Entries under another identifier

Two stores that keep one execution under different identifiers (`ExecutionStore.Namesakes`) take a later version of
it, or a new execution, in the same way (`ExecutionStore.Namesakes.update`, `ExecutionStore.namesakes_of_create`),
and the same is read of both.
-/

namespace Rulebook

/-- The entry under another identifier. -/
def StoreEntry.named (id : String) : StoreEntry → StoreEntry
  | execution x => .execution (x.named id)
  | row r => .row { r with execution := r.execution.named id }

/-- The same is read of an entry under another identifier. -/
theorem StoreEntry.read_named (id : String) (n : StoreEntry) :
    (n.named id).read = n.read.map (Execution.named id) := by
  cases n with
  | execution x => rfl
  | row r =>
      show ExecutionRow.toExecution _ = (ExecutionRow.toExecution r).map _
      rw [ExecutionRow.toExecution, ExecutionRow.toExecution]
      cases (ExecutionContext.read r.context).toExcept <;> rfl

/-- An execution has the same row under another identifier. -/
theorem ExecutionRow.of_execution_named (id : String) (x : Execution) :
    ofExecution (x.named id) =
      (ofExecution x).map fun r => { r with execution := r.execution.named id } := by
  have htriggered : (x.named id).triggeredAt = x.triggeredAt := rfl
  have hstarted : (x.named id).startedAt = x.startedAt := rfl
  have hcompleted : (x.named id).completedAt = x.completedAt := rfl
  have hsteps : (x.named id).steps = x.steps := rfl
  rw [ofExecution, ofExecution, htriggered, hstarted, hcompleted, hsteps]
  cases Stored.time x.triggeredAt with
  | error f => rfl
  | ok triggeredAt =>
      cases Stored.time? x.startedAt with
      | error f => rfl
      | ok startedAt =>
          cases Stored.time? x.completedAt with
          | error f => rfl
          | ok completedAt => cases x.steps.mapM StepRow.ofStep <;> rfl

namespace ExecutionStore

variable {s s' t : ExecutionStore} {x : Execution} {id id' : String} {n : StoreEntry} {f : Failure}

/-- Two stores of one kind keep one execution, or none, under two identifiers. -/
structure Namesakes (id id' : String) (s s' : ExecutionStore) : Prop where
  kind : s'.entryOf = s.entryOf
  entry : s'.entryAt id' = (s.entryAt id).map (StoreEntry.named id')

/-- An entry is found under its own identifier. -/
theorem named_self (h : s.entryAt id = some n) : n.named id = n := by
  cases s with
  | memory t =>
      obtain ⟨x, hx, rfl⟩ := Option.map_eq_some_iff.mp h
      obtain rfl := (Keyed.mem_of_find hx).2
      rfl
  | sql t =>
      obtain ⟨row, hrow, rfl⟩ := Option.map_eq_some_iff.mp h
      obtain rfl := (Keyed.mem_of_find hrow).2
      rfl

/-- A store makes the same entry for an execution under another identifier. -/
theorem entry_of_named (s : ExecutionStore) (id : String) (x : Execution) :
    s.entryOf (x.named id) = (s.entryOf x).map (StoreEntry.named id) := by
  cases s with
  | memory t => rfl
  | sql t =>
      rw [entryOf, ExecutionRow.of_execution_named, entryOf]
      cases ExecutionRow.ofExecution x <;> rfl

/-- What is kept of an execution is a matter of the entry that is made of it and the entry before. -/
theorem kept_named (h : Namesakes id id' s s') (hx : x.id = id) :
    s'.kept (x.named id') = (s.kept x).map (StoreEntry.named id') := by
  have hentry := h.entry
  have hkind := congrFun h.kind x
  rcases s with t | t <;> rcases s' with t' | t'
  · rfl
  · rw [entryOf, entryOf] at hkind
    cases hrow : ExecutionRow.ofExecution x <;> rw [hrow] at hkind <;> cases hkind
  · rw [entryOf, entryOf] at hkind
    cases hrow : ExecutionRow.ofExecution x <;> rw [hrow] at hkind <;> cases hkind
  · rw [kept, kept, ExecutionRows.written, ExecutionRows.written, ExecutionRow.of_execution_named, hx,
      show (x.named id').id = id' from rfl]
    rw [entryAt, entryAt] at hentry
    cases ExecutionRow.ofExecution x with
    | error f => rfl
    | ok new =>
        cases hold : t.row? id with
        | none =>
            rw [hold] at hentry
            rw [Option.map_eq_none_iff.mp hentry]
            rfl
        | some old =>
            rw [hold] at hentry
            obtain ⟨old', hold', heq⟩ := Option.map_eq_some_iff.mp hentry
            obtain rfl := StoreEntry.row.inj heq
            rw [hold']
            rfl

/-- An execution that has an entry is replaced by what is kept of it, if that can be kept. -/
theorem update_of_kept (hentry : s.entryAt x.id = some n) :
    (∃ f, s.kept x = .error f ∧ s.update x = .error f) ∨
      ∃ m t, s.kept x = .ok m ∧ s.update x = .ok t ∧ t.entryAt x.id = some m ∧ t.entryOf = s.entryOf := by
  have hsaved := s.entry_saved_self x
  rw [hentry] at hsaved
  have hkind := s.entry_of_saved x
  have hstore : ∀ t, s.update x = .ok t → s.saved x = t := fun t ht => by rw [saved, ht]
  cases hkept : s.kept x with
  | error f =>
      refine .inl ⟨f, rfl, ?_⟩
      cases s with
      | memory t => cases hkept
      | sql t =>
          obtain ⟨row, hrow, _⟩ := Option.map_eq_some_iff.mp hentry
          rw [update, ExecutionRows.update, hrow, Option.isSome_some, if_pos rfl,
            Outcome.map_eq_error.mp hkept]
          rfl
  | ok m =>
      obtain ⟨t, ht⟩ : ∃ t, s.update x = .ok t := by
        cases s with
        | memory t =>
            obtain ⟨y, hy, _⟩ := Option.map_eq_some_iff.mp hentry
            exact ⟨_, by rw [update, ExecutionTable.update, hy, Option.isSome_some, if_pos rfl]; rfl⟩
        | sql t =>
            obtain ⟨row, hrow, _⟩ := Option.map_eq_some_iff.mp hentry
            obtain ⟨new, hnew, _⟩ := Outcome.map_eq_ok.mp hkept
            exact ⟨_, by rw [update, ExecutionRows.update, hrow, Option.isSome_some, if_pos rfl, hnew]; rfl⟩
      rw [hstore t ht] at hsaved hkind
      rw [hkept] at hsaved
      exact .inr ⟨m, t, rfl, ht, hsaved, hkind⟩

/-- A later version of an execution is taken in the same way under another identifier. -/
theorem Namesakes.update (h : Namesakes id id' s s') (hx : x.id = id) (hentry : s.entryAt id = some n) :
    (∃ f, s.update x = .error f ∧ s'.update (x.named id') = .error f) ∨
      ∃ m t t', s.kept x = .ok m ∧ s.update x = .ok t ∧ s'.update (x.named id') = .ok t' ∧
        Namesakes id id' t t' ∧ t.entryAt id = some m := by
  have hentry' : s'.entryAt (x.named id').id = some (n.named id') := by
    show s'.entryAt id' = _
    rw [h.entry, hentry]
    rfl
  have hkept := kept_named h hx
  obtain ⟨f, hf, hupdate⟩ | ⟨m, t, hm, ht, hfound, hkind⟩ := update_of_kept (hx ▸ hentry) <;>
    obtain ⟨f', hf', hupdate'⟩ | ⟨m', t', hm', ht', hfound', hkind'⟩ := update_of_kept hentry'
  · rw [hf, hf'] at hkept
    cases hkept
    exact .inl ⟨_, hupdate, hupdate'⟩
  · rw [hf, hm'] at hkept
    cases hkept
  · rw [hm, hf'] at hkept
    cases hkept
  · rw [hm, hm'] at hkept
    cases hkept
    have hid : t.entryAt id = some m := hx ▸ hfound
    exact .inr ⟨m, t, t', hm, ht, ht', ⟨hkind'.trans (h.kind.trans hkind.symm), by rw [hid]; exact hfound'⟩, hid⟩

/-- An execution that has no entry is added if it can be kept. -/
theorem create_of_entry (hfresh : s.entryAt x.id = none) :
    (∃ f, s.entryOf x = .error f ∧ s.create x = .error f) ∨
      ∃ n t, s.entryOf x = .ok n ∧ s.create x = .ok t ∧ t.entryAt x.id = some n ∧ t.entryOf = s.entryOf := by
  cases hn : s.entryOf x with
  | ok n =>
      obtain ⟨t, ht, hkind, hentry⟩ := create_eq_ok hfresh hn
      exact .inr ⟨n, t, rfl, ht, hentry, hkind⟩
  | error f =>
      refine .inl ⟨f, rfl, ?_⟩
      cases s with
      | memory t => cases hn
      | sql t =>
          rw [create, ExecutionRows.create, Outcome.map_eq_error.mp hn]
          rfl

/-- A new execution is added in the same way under another identifier. -/
theorem namesakes_of_create (hkind : s'.entryOf = s.entryOf) (hfresh : s.entryAt x.id = none)
    (hfresh' : s'.entryAt id' = none) :
    (∃ f, s.create x = .error f ∧ s'.create (x.named id') = .error f) ∨
      ∃ n t t', s.entryOf x = .ok n ∧ s.create x = .ok t ∧ s'.create (x.named id') = .ok t' ∧
        Namesakes x.id id' t t' ∧ t.entryAt x.id = some n := by
  have hentry := s.entry_of_named id' x
  rw [← hkind] at hentry
  obtain ⟨f, hf, hcreate⟩ | ⟨n, t, hn, ht, hfound, hkept⟩ := create_of_entry hfresh <;>
    obtain ⟨f', hf', hcreate'⟩ | ⟨n', t', hn', ht', hfound', hkept'⟩ :=
      create_of_entry (x := x.named id') hfresh'
  · rw [hkind, hf, ← hkind, hf'] at hentry
    cases hentry
    exact .inl ⟨_, hcreate, hcreate'⟩
  · rw [hkind, hf, ← hkind, hn'] at hentry
    cases hentry
  · rw [hkind, hn, ← hkind, hf'] at hentry
    cases hentry
  · rw [hkind, hn, ← hkind, hn'] at hentry
    cases hentry
    exact .inr ⟨n, t, t', hn, ht, ht', ⟨hkept'.trans (hkind.trans hkept.symm), by rw [hfound]; exact hfound'⟩,
      hfound⟩

end ExecutionStore

end Rulebook
