import Rulebook.Proofs.Keys
import Rulebook.Proofs.Store.Legible

/-!
# The newest executions first

A store lists the executions of a tenant in the order in which they were triggered. Reversed, the latest come first,
and of those triggered at the same time the one that the store has later (`ExecutionStore.NewestFirst`). It cannot list
them if in memory some of their times have an offset and others none, or if a row cannot be read
(`ExecutionStore.CanList`).
-/

namespace Rulebook

namespace ExecutionQuery

/-- Whether an execution is wanted, whenever it was triggered. -/
def fits (q : ExecutionQuery) (x : Execution) : Bool := x.tenantId == q.tenantId && q.accepts x.ruleId x.status

end ExecutionQuery

/-- To be earlier can be passed on. -/
theorem earlier_trans (a b c : Int × String) (hab : isEarlier a b = true) (hbc : isEarlier b c = true) :
    isEarlier a c = true := by
  simp only [isEarlier, Bool.or_eq_true, Bool.and_eq_true, decide_eq_true_eq, beq_iff_eq] at hab hbc ⊢
  obtain hab | ⟨hab, hname⟩ := hab
  · exact .inl (by omega)
  obtain hbc | ⟨hbc, hname'⟩ := hbc
  · exact .inl (by omega)
  refine .inr ⟨hab.trans hbc, ?_⟩
  obtain hname | hname := hname
  · obtain hname' | hname' := hname'
    · exact .inl (String.lt_trans hname hname')
    · exact .inl (hname' ▸ hname)
  · rw [hname]
    exact hname'

/-- Of two, one is earlier. -/
theorem earlier_total (a b : Int × String) : (isEarlier a b || isEarlier b a) = true := by
  simp only [isEarlier, Bool.or_eq_true, Bool.and_eq_true, decide_eq_true_eq, beq_iff_eq]
  obtain h | h | h := Int.lt_trichotomy a.1 b.1
  · exact .inl (.inl h)
  · obtain hname | hname | hname := Std.lt_trichotomy a.2 b.2
    · exact .inl (.inr ⟨h, .inl hname⟩)
    · exact .inl (.inr ⟨h, .inr hname⟩)
    · exact .inr (.inr ⟨h.symm, .inl hname⟩)
  · exact .inr (.inl h)

namespace ExecutionTable

/-- Moments can be ordered if and only if the offsets of all are known, or those of none. -/
theorem comparable_eq_ok_iff {moments : List Moment} : comparable moments = .ok () ↔
    (∀ m ∈ moments, m.isAware = true) ∨ ∀ m ∈ moments, m.isAware = false := by
  have hnone : (∀ m ∈ moments, (!m.isAware) = true) ↔ ∀ m ∈ moments, m.isAware = false := by
    simp only [Bool.not_eq_true']
  rw [comparable, ← hnone, ← List.all_eq_true, ← List.all_eq_true, ← Bool.or_eq_true]
  split
  · next h => exact iff_of_true rfl h
  · next h => exact iff_of_false nofun h

/-- What a table lists, if its moments can be ordered. -/
theorem list_eq_of_fits (t : ExecutionTable) {q : ExecutionQuery} (hq : q.period = none) :
    t.list q = (comparable ((t.executions.filter q.fits).map (·.triggeredAt))).map fun _ =>
      (t.executions.filter q.fits).mergeSort fun a b => decide (a.triggeredAt.instant ≤ b.triggeredAt.instant) := by
  have hwanted : (t.executions.filter (·.tenantId == q.tenantId)).filter (fun x => q.accepts x.ruleId x.status) =
      t.executions.filter q.fits := by
    rw [List.filter_filter]
    exact List.filter_congr fun x _ => Bool.and_comm ..
  rw [list, hq, ← hwanted]
  show (comparable _ >>= fun _ => _) = _
  cases comparable _ <;> rfl

end ExecutionTable

namespace ExecutionRow

variable {row : ExecutionRow}

/-- A legible row is read. -/
theorem IsLegible.read (h : row.IsLegible) : ∃ x, row.toExecution = .ok x := by
  obtain ⟨c, hc⟩ := h
  rw [toExecution, hc]
  exact ⟨_, rfl⟩

/-- A row that is read is legible. -/
theorem legible_of_read {x : Execution} (h : row.toExecution = .ok x) : row.IsLegible := by
  rw [toExecution] at h
  cases hc : ExecutionContext.read row.context with
  | valid c => exact ⟨c, hc⟩
  | invalid issues =>
      rw [hc] at h
      cases h

/-- A row that cannot be read is invalid, which has no code. -/
theorem code_of_unread {f : Failure} (h : row.toExecution = .error f) : f.code? = none := by
  rw [toExecution] at h
  cases hc : ExecutionContext.read row.context with
  | valid c =>
      rw [hc] at h
      cases h
  | invalid issues =>
      rw [hc] at h
      cases h
      rfl

end ExecutionRow

namespace ExecutionRows

/-- What rows list, if they can be read. -/
theorem list_eq_of_fits (t : ExecutionRows) {q : ExecutionQuery} (hq : q.period = none) :
    t.list q = ((t.rows.filter fun row => q.fits row.execution).mergeSort fun a b =>
      isEarlier (a.triggered, a.id) (b.triggered, b.id)).mapM ExecutionRow.toExecution := by
  have hwanted : t.rows.filter (fun row => row.execution.tenantId == q.tenantId && true &&
      q.accepts row.execution.ruleId row.execution.status) = t.rows.filter fun row => q.fits row.execution :=
    List.filter_congr fun row _ => by rw [Bool.and_true, ExecutionQuery.fits]
  rw [list, hq, ← hwanted]
  rfl

end ExecutionRows

namespace ExecutionStore

/-- How many executions are wanted. -/
def total (q : ExecutionQuery) : ExecutionStore → Nat
  | memory t => t.executions.countP q.fits
  | sql t => t.rows.countP fun row => q.fits row.execution

/-- Whether those that are wanted can be listed. -/
def CanList (q : ExecutionQuery) : ExecutionStore → Prop
  | memory t => (∀ x ∈ t.executions, q.fits x = true → x.triggeredAt.isAware = true) ∨
      ∀ x ∈ t.executions, q.fits x = true → x.triggeredAt.isAware = false
  | sql t => ∀ row ∈ t.rows, q.fits row.execution = true → row.IsLegible

/-- All executions that are wanted, the latest first; of those triggered at the same time the one that the store has
later is first: in memory the one created later, in a database the one of the greater identifier. -/
inductive NewestFirst (q : ExecutionQuery) : ExecutionStore → List Execution → Prop
  /-- In memory. -/
  | memory {t : ExecutionTable} {rows : List Execution} (all : rows.Perm (t.executions.filter q.fits))
      (latest : rows.Pairwise fun x y => y.triggeredAt.instant ≤ x.triggeredAt.instant)
      (same : ∀ n, rows.filter (·.triggeredAt.instant == n) =
        ((t.executions.filter q.fits).filter (·.triggeredAt.instant == n)).reverse) :
      NewestFirst q (.memory t) rows
  /-- In a database. -/
  | sql {t : ExecutionRows} {kept : List ExecutionRow} {rows : List Execution}
      (all : kept.Perm (t.rows.filter fun row => q.fits row.execution))
      (latest : kept.Pairwise fun a b => isEarlier (b.triggered, b.id) (a.triggered, a.id) = true)
      (read : List.Forall₂ (fun row x => row.toExecution = .ok x) kept rows) : NewestFirst q (.sql t) rows

variable {s : ExecutionStore} {q : ExecutionQuery} {rows : List Execution}

/-- The newest executions first are as many as are wanted. -/
theorem NewestFirst.length_eq (h : s.NewestFirst q rows) : rows.length = s.total q := by
  cases h with
  | memory all => rw [all.length_eq, total, List.countP_eq_length_filter]
  | sql all latest read => rw [← read.length_eq, all.length_eq, total, List.countP_eq_length_filter]

/-- What a store can list is listed, and reversed it is the newest first. -/
theorem list_newest (hq : q.period = none) (h : s.CanList q) :
    ∃ rows, s.list q = .ok rows ∧ s.NewestFirst q rows.reverse := by
  cases s with
  | memory t =>
      have hcomparable : ExecutionTable.comparable ((t.executions.filter q.fits).map (·.triggeredAt)) = .ok () := by
        refine ExecutionTable.comparable_eq_ok_iff.mpr (h.imp ?_ ?_) <;>
        · intro hall m hm
          obtain ⟨x, hx, rfl⟩ := List.mem_map.mp hm
          exact hall x (List.mem_filter.mp hx).1 (List.mem_filter.mp hx).2
      refine ⟨(t.executions.filter q.fits).mergeSort fun a b =>
        decide (a.triggeredAt.instant ≤ b.triggeredAt.instant), ?_, .memory ?_ ?_ fun n => ?_⟩
      · rw [list, t.list_eq_of_fits hq, hcomparable]
        rfl
      · exact (List.reverse_perm _).trans (List.mergeSort_perm _ _)
      · rw [List.pairwise_reverse]
        exact sorted_by_key (fun x : Execution => x.triggeredAt.instant) _
      · rw [List.filter_reverse]
        exact congrArg List.reverse (filter_sorted_by_key (fun x : Execution => x.triggeredAt.instant) n _)
  | sql t =>
      obtain ⟨rows, hrows⟩ := Outcome.map_eq_ok_of_forall fun row hrow => by
        obtain ⟨hrow, hfits⟩ := List.mem_filter.mp ((List.mergeSort_perm (t.rows.filter fun row => q.fits row.execution)
          fun a b => isEarlier (a.triggered, a.id) (b.triggered, b.id)).mem_iff.mp hrow)
        exact (h row hrow hfits).read
      refine ⟨rows, (t.list_eq_of_fits hq).trans hrows, .sql ((List.reverse_perm _).trans (List.mergeSort_perm _ _)) ?_
        (List.rel_reverse (Outcome.map_eq_ok_iff.mp hrows))⟩
      rw [List.pairwise_reverse]
      exact List.pairwise_mergeSort
        (fun a b c : ExecutionRow => earlier_trans (a.triggered, a.id) (b.triggered, b.id) (c.triggered, c.id))
        (fun a b : ExecutionRow => earlier_total (a.triggered, a.id) (b.triggered, b.id)) _

/-- What a store cannot list fails, with a fault that has no code. -/
theorem list_fails (hq : q.period = none) (h : ¬s.CanList q) : ∃ f, s.list q = .error f ∧ f.code? = none := by
  cases s with
  | memory t =>
      have hno : ExecutionTable.comparable ((t.executions.filter q.fits).map (·.triggeredAt)) = .error .mixedOffsets := by
        rw [ExecutionTable.comparable]
        split
        · next hall =>
            refine absurd ?_ h
            have hok := ExecutionTable.comparable_eq_ok_iff.mp (if_pos hall)
            refine hok.imp ?_ ?_ <;>
            exact fun hall x hx hfits => hall _ (List.mem_map_of_mem (List.mem_filter.mpr ⟨hx, hfits⟩))
        · rfl
      refine ⟨.time .mixedOffsets, ?_, rfl⟩
      rw [list, t.list_eq_of_fits hq, hno]
      rfl
  | sql t =>
      rw [list, t.list_eq_of_fits hq]
      cases hread : List.mapM ExecutionRow.toExecution _ with
      | error f =>
          obtain ⟨before, row, after, -, -, hrow⟩ := Outcome.map_eq_error_iff.mp hread
          exact ⟨f, rfl, ExecutionRow.code_of_unread hrow⟩
      | ok rows =>
          refine absurd (fun row hrow hfits => ?_) h
          have hmem := (List.mergeSort_perm (t.rows.filter fun row => q.fits row.execution)
            fun a b => isEarlier (a.triggered, a.id) (b.triggered, b.id)).mem_iff.mpr
              (List.mem_filter.mpr ⟨hrow, hfits⟩)
          obtain ⟨x, -, hx⟩ := Outcome.ok_of_mem hread hmem
          exact ExecutionRow.legible_of_read hx

end ExecutionStore

end Rulebook
