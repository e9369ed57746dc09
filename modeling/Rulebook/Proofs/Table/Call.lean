import Mathlib.Data.List.Nodup
import Rulebook.Proofs.Outcome
import Rulebook.Table.Basic

/-!
# Calls on tables

`Table.meets` says of a row whether it meets conditions: each names a column whose cell is null, if null is asked
for, or has the content that the value has in that column. `Table.IsChanged` says what a row has in its cells when
data were written over another one. The selectors and cells that values are converted to are of that meaning
(`Table.accepts_eq`, `Table.written_of_converted`).

A call that names a table not on the list or a column that is not there, or would change or remove rows without
conditions, fails. No failed call changes anything. One that comes out well works on one table, and there on
exactly the rows that meet its conditions (`DataStore.calls_accounted`).
-/

namespace Rulebook

/-! ## Conditions and values -/

namespace Column

/-- What a value becomes in a cell of the column. -/
def content (c : Column) (v : Value) : Except CellFault Cell := do
  let w ← c.kind.convert v
  let x ← Cell.ofValue w
  .ok (c.kind.prefer x)

/-- What a value is that a cell of the column is compared with. -/
def likeness (c : Column) (v : Value) : Except CellFault Cell := do
  let w ← c.kind.convertForComparison v
  let x ← Cell.ofValue w
  .ok (c.kind.prefer x)

/-- Whether a cell of the column is as a condition asks. -/
def asks (c : Column) (v : Value) (x : Cell) : Bool :=
  match v with
  | .null => x.isNull
  | v =>
    match c.likeness v with
    | .ok y => x.same y
    | .error _ => false

/-- Whether data were written over a cell of the column: it has the content of the value for the column, or there
is none and it is as before. -/
def IsWritten (c : Column) (data : Fields) (before after : Cell) : Prop :=
  match Fields.get? data c.name with
  | some v => c.content v = .ok after
  | none => after = before

end Column

namespace Table

/-- Whether a row meets conditions. -/
def meets (t : Table) (conditions : Fields) (r : Row) : Bool :=
  conditions.all fun x => (t.column? x.1).any fun c => c.asks x.2 (t.cell r x.1)

/-- A row has as many cells as there are columns. -/
def IsRow (t : Table) (r : Row) : Prop := r.cells.length = t.columns.length

/-- A row after data were written over another one. -/
structure IsChanged (t : Table) (data : Fields) (r r' : Row) : Prop where
  /-- It is a row. -/
  row : t.IsRow r'
  /-- The data were written over each cell. -/
  written : ∀ c ∈ t.columns, c.IsWritten data (t.cell r c.name) (t.cell r' c.name)

/-- A row that is added with data. The key may be numbered by the table. -/
structure IsAdded (t : Table) (data : Fields) (r : Row) : Prop where
  /-- It is a row. -/
  row : t.IsRow r
  /-- The data were written over a row of nulls. -/
  written : ∀ c ∈ t.columns, c.isKey = false → c.IsWritten data .null (t.cell r c.name)

/-- No two columns have the same name, and all rows are rows. -/
structure IsProper (t : Table) : Prop where
  /-- No two columns have the same name. -/
  names : (t.columns.map (·.name)).Nodup
  /-- A row has a cell for each column. -/
  rows : ∀ r ∈ t.rows, t.IsRow r

variable {t : Table} {data conditions : Fields}

/-! ### Columns -/

/-- The column that is found under a name has it. -/
theorem name_of_column {name : String} {c : Column} (h : t.column? name = some c) : c.name = name :=
  eq_of_beq (List.find?_some (p := fun c : Column => c.name == name) h)

/-- The cell in a column is that at the place of the column. -/
theorem cell_eq (h : (t.columns.map (·.name)).Nodup) {c : Column} {i : Nat} (hc : t.columns[i]? = some c) (r : Row) :
    t.cell r c.name = (r.cells[i]?).getD .null := by
  have hindex : t.columns.findIdx? (·.name == c.name) = some i := by
    obtain ⟨hi, rfl⟩ := List.getElem?_eq_some_iff.mp hc
    refine List.findIdx?_eq_some_iff_getElem.mpr ⟨hi, beq_self_eq_true _, fun j hj heq => ?_⟩
    have hi' : i < (t.columns.map (·.name)).length := by rwa [List.length_map]
    have hj' : j < (t.columns.map (·.name)).length := Nat.lt_trans hj hi'
    have hname : (t.columns.map (·.name))[j] = (t.columns.map (·.name))[i] := by
      rw [List.getElem_map, List.getElem_map]
      exact eq_of_beq heq
    exact absurd ((List.Nodup.getElem_inj_iff h).mp hname) (Nat.ne_of_lt hj)
  rw [cell, hindex]

/-- The cell in a column of a row that is made of another one, column by column. -/
theorem cell_of_map (h : (t.columns.map (·.name)).Nodup) {r : Row} (hr : t.IsRow r) (f : Column → Cell → Cell)
    (number : Int) {c : Column} (hc : c ∈ t.columns) :
    t.cell ⟨number, (t.columns.zip r.cells).map fun x => f x.1 x.2⟩ c.name = f c (t.cell r c.name) := by
  obtain ⟨i, hi, hget⟩ := List.getElem_of_mem hc
  have hcol : t.columns[i]? = some c := by rw [List.getElem?_eq_getElem hi, hget]
  have hi' : i < r.cells.length := by rwa [hr]
  have hpair : (t.columns.zip r.cells)[i]? = some (c, r.cells[i]) :=
    List.getElem?_zip_eq_some.mpr ⟨hcol, List.getElem?_eq_getElem hi'⟩
  rw [cell_eq h hcol, cell_eq h hcol, List.getElem?_map, hpair, List.getElem?_eq_getElem hi']
  rfl

/-! ### Conversions -/

/-- The columns of conditions are those that they name, with their values. -/
theorem columns_of_conditions {columns : List (Column × Value)} (h : t.conditionColumns conditions = .ok columns) :
    List.Forall₂ (fun x p => t.column? x.1 = some p.1 ∧ p.2 = x.2) conditions columns := by
  refine (Outcome.map_eq_ok_iff.mp h).imp fun x p hxp => ?_
  dsimp only at hxp
  cases hc : t.column? x.1 with
  | none =>
      rw [hc] at hxp
      cases hxp
  | some c =>
      rw [hc] at hxp
      cases hxp
      exact ⟨rfl, rfl⟩

/-- What is converted twice is converted one by one. -/
theorem converted_twice {α β γ : Type} {f : Column → α → Except CellFault β} {g : Column → β → Except CellFault γ}
    {as : List (Column × α)} {bs : List (Column × β)} {cs : List (Column × γ)} (hf : eachValue f as = .ok bs)
    (hg : eachValue g bs = .ok cs) :
    List.Forall₂ (fun a c => c.1 = a.1 ∧ (f a.1 a.2 >>= g a.1) = .ok c.2) as cs := by
  have hone : ∀ {δ ε : Type} {k : Column → δ → Except CellFault ε} (p : Column × δ) (q : Column × ε),
      ((k p.1 p.2).map fun b => (p.1, b)).mapError TableError.value = .ok q → q.1 = p.1 ∧ k p.1 p.2 = .ok q.2 := by
    intro δ ε k p q h
    obtain ⟨b, hb, rfl⟩ := Outcome.map_eq_ok.mp (Outcome.map_error_eq_ok.mp h)
    exact ⟨rfl, hb⟩
  replace hf := Outcome.map_eq_ok_iff.mp hf
  replace hg := Outcome.map_eq_ok_iff.mp hg
  induction hf generalizing cs with
  | nil =>
      cases hg
      exact .nil
  | cons hab _ ih =>
      cases hg with
      | cons hbc hrest =>
          obtain ⟨hcol, ha⟩ := hone _ _ hab
          obtain ⟨hcol', hb⟩ := hone _ _ hbc
          refine .cons ⟨hcol'.trans hcol, ?_⟩ (ih hrest)
          rw [ha, ← hcol]
          exact hb

/-- The selector of a condition. -/
def IsSelector (p : Column × Value) (s : Selector) : Prop :=
  s.column = p.1 ∧
    if p.2.isNull then s.content = none else ∃ y, p.1.likeness p.2 = .ok y ∧ s.content = some y

/-- A value that is compared stays null, or not. -/
theorem null_of_comparison {k : ColumnKind} {v w : Value} (h : k.convertForComparison v = .ok w) :
    w.isNull = v.isNull := by
  cases v with
  | list | object | moment =>
      cases k <;> first | (obtain rfl := Except.ok.inj h; rfl) | cases h
  | _ => cases k <;> (obtain rfl := Except.ok.inj h; rfl)

/-- Values are converted to the contents of their columns, and conditions to selectors. -/
theorem bind_eq_ok {values columns : List (Column × Value)} {cells : List (Column × Cell)}
    {selectors : List Selector} (h : bind values columns = .ok (cells, selectors)) :
    List.Forall₂ (fun p q => q.1 = p.1 ∧ p.1.content p.2 = .ok q.2) values cells ∧
      List.Forall₂ IsSelector columns selectors := by
  obtain ⟨converted, hconverted, h⟩ := Outcome.bind_eq_ok.mp h
  obtain ⟨compared, hcompared, h⟩ := Outcome.bind_eq_ok.mp h
  obtain ⟨raw, hraw, h⟩ := Outcome.bind_eq_ok.mp h
  obtain ⟨contents, hcontents, h⟩ := Outcome.bind_eq_ok.mp h
  obtain ⟨rfl, rfl⟩ := Prod.mk.inj (Except.ok.inj h)
  rw [List.forall₂_map_right_iff, List.forall₂_map_right_iff]
  refine ⟨(converted_twice hconverted hraw).imp fun p q hpq => ⟨hpq.1, ?_⟩,
    (converted_twice hcompared hcontents).imp fun p q hpq => ⟨hpq.1, ?_⟩⟩
  · obtain ⟨w, hw, hq⟩ := Outcome.bind_eq_ok.mp hpq.2
    rw [Column.content, hw]
    show (Cell.ofValue w >>= fun x => .ok (p.1.kind.prefer x)) = _
    rw [hq, ← hpq.1]
    rfl
  · obtain ⟨w, hw, hq⟩ := Outcome.bind_eq_ok.mp hpq.2
    rw [comparand, null_of_comparison hw] at hq
    split at hq
    · next hnull =>
        rw [if_pos hnull, ← Except.ok.inj hq]
        rfl
    · next hsome =>
        obtain ⟨x, hx, hq⟩ := Outcome.map_eq_ok.mp hq
        rw [if_neg hsome, Column.likeness, hw]
        refine ⟨p.1.kind.prefer x, ?_, ?_⟩
        · show (Cell.ofValue w >>= fun x => .ok (p.1.kind.prefer x)) = _
          rw [hx]
          rfl
        · rw [← hq, hpq.1]
          rfl

/-! ### Rows -/

/-- A selector accepts the rows that are as its condition asks. -/
theorem IsSelector.accepts_eq {p : Column × Value} {s : Selector} (h : IsSelector p s) (r : Row) :
    s.accepts t r = p.1.asks p.2 (t.cell r p.1.name) := by
  obtain ⟨hcol, hcontent⟩ := h
  rw [Selector.accepts, hcol]
  split at hcontent
  · next hnull =>
      rw [hcontent]
      cases hv : p.2 with
      | null => rfl
      | _ => rw [hv] at hnull; cases hnull
  · next hsome =>
      obtain ⟨y, hy, hcontent⟩ := hcontent
      rw [hcontent]
      cases hv : p.2 with
      | null => rw [hv] at hsome; exact absurd rfl hsome
      | _ => rw [hv] at hy; rw [Column.asks, hy]; nofun

/-- The selectors of conditions accept the rows that meet them. -/
theorem accepts_eq {columns : List (Column × Value)} {selectors : List Selector}
    (hcolumns : t.conditionColumns conditions = .ok columns) (hselectors : List.Forall₂ IsSelector columns selectors)
    (r : Row) : t.accepts selectors r = t.meets conditions r := by
  replace hcolumns := columns_of_conditions hcolumns
  rw [accepts, meets]
  induction hcolumns generalizing selectors with
  | nil =>
      cases hselectors
      rfl
  | @cons x p conditions columns hxp _ ih =>
      cases hselectors with
      | cons hs hrest =>
          obtain ⟨hc, hvalue⟩ := hxp
          rw [List.all_cons, List.all_cons, ih hrest, hs.accepts_eq, hc, Option.any_some, hvalue, name_of_column hc]

/-- The value that is found for a column is its own. -/
theorem find_column_value (h : (t.columns.map (·.name)).Nodup) {c : Column} (hc : c ∈ t.columns) (data : Fields) :
    (t.columnValues data).find? (·.1.name == c.name) = (Fields.get? data c.name).map fun v => (c, v) := by
  rw [columnValues]
  generalize t.columns = columns at h hc
  induction columns with
  | nil => cases hc
  | cons d columns ih =>
      obtain ⟨hd, hnodup⟩ := List.nodup_cons.mp h
      rw [List.filterMap_cons]
      obtain rfl | hc := List.mem_cons.mp hc
      · cases hget : Fields.get? data c.name with
        | some v => exact List.find?_cons_of_pos (beq_self_eq_true _)
        | none =>
            rw [Option.map_none]
            refine List.find?_eq_none.mpr fun p hp heq => hd ?_
            obtain ⟨d, hd, hv⟩ := List.mem_filterMap.mp hp
            obtain ⟨v, -, rfl⟩ := Option.map_eq_some_iff.mp hv
            exact List.mem_map.mpr ⟨d, hd, eq_of_beq heq⟩
      · have hne : (d.name == c.name) = false := by
          exact beq_false_of_ne fun heq => hd (List.mem_map.mpr ⟨c, hc, heq.symm⟩)
        cases Fields.get? data d.name with
        | none => exact ih hnodup hc
        | some v =>
            rw [Option.map_some]
            dsimp only
            rw [List.find?_cons_of_neg (by rw [hne]; nofun)]
            exact ih hnodup hc

/-- What was converted is found in its place. -/
theorem find_converted {values : List (Column × Value)} {cells : List (Column × Cell)}
    (h : List.Forall₂ (fun p q => q.1 = p.1 ∧ p.1.content p.2 = .ok q.2) values cells) (name : String) :
    match values.find? (·.1.name == name) with
    | some p => ∃ x, p.1.content p.2 = .ok x ∧ (cells.find? (·.1.name == name)).map (·.2) = some x
    | none => (cells.find? (·.1.name == name)).map (·.2) = none := by
  induction h with
  | nil => rfl
  | @cons p q values cells hpq _ ih =>
      obtain ⟨hcol, hx⟩ := hpq
      rw [List.find?_cons, List.find?_cons, hcol]
      cases p.1.name == name with
      | true => exact ⟨q.2, hx, rfl⟩
      | false => exact ih

/-- What was converted, or else what was there, is what the data write over it. -/
theorem written_of_converted (h : (t.columns.map (·.name)).Nodup) {cells : List (Column × Cell)}
    (hcells : List.Forall₂ (fun p q => q.1 = p.1 ∧ p.1.content p.2 = .ok q.2) (t.columnValues data) cells)
    {c : Column} (hc : c ∈ t.columns) (x : Cell) :
    c.IsWritten data x (given cells c x) := by
  have hfound := find_converted hcells c.name
  rw [find_column_value h hc data] at hfound
  rw [Column.IsWritten, given]
  cases hget : Fields.get? data c.name with
  | some v =>
      rw [hget] at hfound
      obtain ⟨y, hy, hfound⟩ := hfound
      rw [hfound]
      exact hy
  | none =>
      rw [hget] at hfound
      exact congrArg (·.getD x) hfound

end Table

/-! ## Calls -/

/-- A call on a table. -/
inductive TableCall where
  /-- Adds a row. -/
  | insert (table : String) (data : Fields)
  /-- Changes rows. -/
  | update (table : String) (data conditions : Fields)
  /-- Removes rows. -/
  | delete (table : String) (conditions : Fields)
  /-- Reads rows. -/
  | select (table : String) (conditions : Fields)

namespace TableCall

/-- The name of the table that a call is about. -/
def table : TableCall → String
  | .insert name _ | .update name _ _ | .delete name _ | .select name _ => name

/-- The names of columns in a call. -/
def columns : TableCall → List String
  | .insert _ data => data.map (·.1)
  | .update _ data conditions => data.map (·.1) ++ conditions.map (·.1)
  | .delete _ conditions | .select _ conditions => conditions.map (·.1)

end TableCall

namespace Table

open DataStore (affected)

/-- What a call does on a table: the rows after it, and the answer. -/
inductive Acts (t : Table) : TableCall → List Row → Fields → Prop
  /-- One row comes to the others. -/
  | insert {name : String} {data : Fields} {row : Row} {rows : List Row}
      (known : ∀ x ∈ data, (t.column? x.1).isSome) (added : t.IsAdded data row) (perm : rows.Perm (t.rows ++ [row])) :
      Acts t (.insert name data) rows (affected 1)
  /-- Data are written over the rows that meet the conditions. -/
  | update {name : String} {data conditions : Fields} {changed rows : List Row} (bounded : conditions ≠ [])
      (known : ∀ x ∈ data, (t.column? x.1).isSome) (asked : ∀ x ∈ conditions, (t.column? x.1).isSome)
      (each : List.Forall₂ (fun r r' => if t.meets conditions r then t.IsChanged data r r' else r' = r) t.rows changed)
      (perm : rows.Perm changed) :
      Acts t (.update name data conditions) rows (affected (t.rows.countP (t.meets conditions)))
  /-- The rows that meet the conditions go. -/
  | delete {name : String} {conditions : Fields} (bounded : conditions ≠ [])
      (asked : ∀ x ∈ conditions, (t.column? x.1).isSome) :
      Acts t (.delete name conditions) (t.rows.filter fun r => !t.meets conditions r)
        (affected (t.rows.countP (t.meets conditions)))
  /-- The first rows that meet the conditions are told. -/
  | select {name : String} {conditions : Fields} {found : List Value}
      (asked : ∀ x ∈ conditions, (t.column? x.1).isSome)
      (all : found = ((t.rows.filter (t.meets conditions)).take selectLimit).map t.rowValue) :
      Acts t (.select name conditions) t.rows [("rows", .list found), ("count", .int found.length)]

variable {t u : Table} {c : TableCall} {rows : List Row} {answer data conditions : Fields}

/-! ### Checks -/

/-- Rows that a table takes are kept, in some order. -/
theorem with_rows_eq_ok (h : t.withRows rows = .ok u) :
    ∃ kept : List Row, kept.Perm rows ∧ u = { t with rows := kept } := by
  rw [withRows] at h
  split at h
  · exact ⟨_, List.mergeSort_perm _ _, (Except.ok.inj h).symm⟩
  · cases h

/-- Names that pass the check are of columns. -/
theorem check_names_eq_ok (h : t.checkNames data = .ok ()) : ∀ x ∈ data, (t.column? x.1).isSome := by
  rw [checkNames] at h
  split at h
  · next hempty =>
      intro x hx
      have hnone := List.filter_eq_nil_iff.mp (List.isEmpty_iff.mp hempty) x.1 (List.mem_map_of_mem hx)
      rwa [Bool.not_eq_true, Option.isNone_eq_false_iff] at hnone
  · cases h

/-- Conditions that have columns name columns. -/
theorem asked_of_conditions {columns : List (Column × Value)} (h : t.conditionColumns conditions = .ok columns) :
    ∀ x ∈ conditions, (t.column? x.1).isSome := by
  intro x hx
  obtain ⟨i, hi, rfl⟩ := List.getElem_of_mem hx
  have hall := columns_of_conditions h
  exact Option.isSome_iff_exists.mpr ⟨_, (hall.get hi (hall.length_eq ▸ hi)).1⟩

/-! ### New and changed rows -/

/-- The column for the numbers of rows is of the key. -/
theorem key_of_number_column {i : Nat} (h : t.numberColumn? = some i) :
    ∃ k, t.columns[i]? = some k ∧ k.isKey = true := by
  rw [numberColumn?] at h
  split at h
  · next k j hfilter =>
      split at h
      · obtain rfl := Option.some.inj h
        have hmem : (k, j) ∈ t.columns.zipIdx.filter (·.1.isKey) := by
          rw [hfilter]
          exact List.mem_singleton_self _
        obtain ⟨hmem, hkey⟩ := List.mem_filter.mp hmem
        exact ⟨k, List.mk_mem_zipIdx_iff_getElem?.mp hmem, hkey⟩
      · cases h
  · cases h

/-- Numbering a row leaves it a row. -/
theorem numbered_row {cells : List Cell} (h : cells.length = t.columns.length) (n : Int) :
    t.IsRow (t.numbered cells n) := by
  rw [IsRow, numbered]
  split
  · split
    · exact h
    · exact (List.length_set ..).trans h
    · exact h
  · exact h

/-- Numbering a row changes at most its key. -/
theorem cell_numbered (h : (t.columns.map (·.name)).Nodup) {k : Column} {i : Nat} (hk : t.columns[i]? = some k)
    (hkey : k.isKey = false) (cells : List Cell) (n : Int) :
    t.cell (t.numbered cells n) k.name = (cells[i]?).getD .null := by
  rw [cell_eq h hk, numbered]
  split
  · next j hj =>
      split
      · rfl
      · obtain ⟨k', hk', hkey'⟩ := key_of_number_column hj
        have hne : j ≠ i := by
          rintro rfl
          obtain rfl := Option.some.inj (hk.symm.trans hk')
          exact Bool.false_ne_true (hkey.symm.trans hkey')
        rw [List.getElem?_set_ne hne]
      · rfl
  · rfl

/-- What is added comes to the other rows. -/
theorem acts_of_insert (h : t.IsProper) (name : String) (hinsert : t.insert data = .ok u) :
    t.Acts (.insert name data) u.rows (affected 1) ∧ u = { t with rows := u.rows } := by
  rw [insert] at hinsert
  obtain ⟨⟨⟩, hnames, hinsert⟩ := Outcome.bind_eq_ok.mp hinsert
  obtain ⟨⟨values, selectors⟩, hbind, hinsert⟩ := Outcome.bind_eq_ok.mp hinsert
  obtain ⟨kept, hperm, rfl⟩ := with_rows_eq_ok hinsert
  have hrow : t.IsRow (t.numbered (t.columns.map fun c => given values c .null) t.nextNumber) :=
    numbered_row (List.length_map _) _
  refine ⟨.insert (check_names_eq_ok hnames) ⟨hrow, fun c hc hkey => ?_⟩ hperm, rfl⟩
  obtain ⟨i, hi, rfl⟩ := List.getElem_of_mem hc
  have hcol := List.getElem?_eq_getElem hi
  rw [cell_numbered h.names hcol hkey, List.getElem?_map, hcol]
  exact written_of_converted h.names (bind_eq_ok hbind).1 hc .null

/-- A changed row has the cells that were written over its own. -/
theorem change_row_eq (values : List (Column × Cell)) (r : Row) :
    ∃ number, t.changeRow values r = ⟨number, (t.columns.zip r.cells).map fun x => given values x.1 x.2⟩ := by
  rw [changeRow]
  split
  · split
    · exact ⟨_, rfl⟩
    · exact ⟨_, rfl⟩
  · exact ⟨_, rfl⟩

/-- The data were written over a changed row. -/
theorem changed_row (h : t.IsProper) {values : List (Column × Cell)}
    (hvalues : List.Forall₂ (fun p q => q.1 = p.1 ∧ p.1.content p.2 = .ok q.2) (t.columnValues data) values) {r : Row}
    (hr : t.IsRow r) : t.IsChanged data r (t.changeRow values r) := by
  obtain ⟨number, hchange⟩ := change_row_eq (t := t) values r
  rw [hchange]
  constructor
  · rw [IsRow, List.length_map, List.length_zip, hr, Nat.min_self]
  · intro c hc
    rw [cell_of_map h.names hr (given values) number hc]
    exact written_of_converted h.names hvalues hc _

/-- What is changed are the rows that meet the conditions. -/
theorem acts_of_update (h : t.IsProper) (name : String) {n : Nat} (hupdate : t.update data conditions = .ok (u, n)) :
    t.Acts (.update name data conditions) u.rows (affected n) ∧ u = { t with rows := u.rows } := by
  rw [update] at hupdate
  split at hupdate
  · cases hupdate
  next hbounded =>
    obtain ⟨columns, hcolumns, hupdate⟩ := Outcome.bind_eq_ok.mp hupdate
    obtain ⟨⟨⟩, hnames, hupdate⟩ := Outcome.bind_eq_ok.mp hupdate
    obtain ⟨⟨values, selectors⟩, hbind, hupdate⟩ := Outcome.bind_eq_ok.mp hupdate
    dsimp only at hupdate
    split at hupdate
    · cases hupdate
    obtain ⟨changed, hrows, hupdate⟩ := Outcome.bind_eq_ok.mp hupdate
    obtain ⟨rfl, rfl⟩ := Prod.mk.inj (Except.ok.inj hupdate)
    obtain ⟨kept, hperm, rfl⟩ := with_rows_eq_ok hrows
    obtain ⟨hvalues, hselectors⟩ := bind_eq_ok hbind
    have hmeets : t.accepts selectors = t.meets conditions := funext (accepts_eq hcolumns hselectors)
    rw [hmeets] at hperm ⊢
    refine ⟨.update (fun hnil => hbounded (List.isEmpty_iff.mpr hnil)) (check_names_eq_ok hnames)
      (asked_of_conditions hcolumns) ?_ hperm, rfl⟩
    refine List.forall₂_map_right_iff.mpr (List.forall₂_same.mpr fun r hr => ?_)
    split
    · exact changed_row h hvalues (h.rows r hr)
    · rfl

/-- What is removed are the rows that meet the conditions. -/
theorem acts_of_delete (name : String) {n : Nat} (hdelete : t.delete conditions = .ok (u, n)) :
    t.Acts (.delete name conditions) u.rows (affected n) ∧ u = { t with rows := u.rows } := by
  rw [delete] at hdelete
  split at hdelete
  · cases hdelete
  next hbounded =>
    obtain ⟨columns, hcolumns, hdelete⟩ := Outcome.bind_eq_ok.mp hdelete
    obtain ⟨⟨values, selectors⟩, hbind, hdelete⟩ := Outcome.bind_eq_ok.mp hdelete
    obtain ⟨rfl, rfl⟩ := Prod.mk.inj (Except.ok.inj hdelete)
    have hmeets : t.accepts selectors = t.meets conditions := funext (accepts_eq hcolumns (bind_eq_ok hbind).2)
    rw [hmeets]
    exact ⟨.delete (fun hnil => hbounded (List.isEmpty_iff.mpr hnil)) (asked_of_conditions hcolumns), rfl⟩

/-- What is told are the first rows that meet the conditions. -/
theorem acts_of_select (name : String) {found : List Value} (hselect : t.select conditions = .ok found) :
    t.Acts (.select name conditions) t.rows [("rows", .list found), ("count", .int found.length)] := by
  rw [select] at hselect
  obtain ⟨columns, hcolumns, hselect⟩ := Outcome.bind_eq_ok.mp hselect
  obtain ⟨⟨values, selectors⟩, hbind, hselect⟩ := Outcome.bind_eq_ok.mp hselect
  have hmeets : t.accepts selectors = t.meets conditions := funext (accepts_eq hcolumns (bind_eq_ok hbind).2)
  refine .select (asked_of_conditions hcolumns) ?_
  rw [← hmeets]
  exact (Except.ok.inj hselect).symm

/-- A call keeps a table proper. -/
theorem Acts.proper (ha : t.Acts c rows answer) (h : t.IsProper) : ({ t with rows } : Table).IsProper := by
  refine ⟨h.names, fun r hr => ?_⟩
  cases ha with
  | insert known added perm =>
      obtain hr | hr := List.mem_append.mp (perm.mem_iff.mp hr)
      · exact h.rows r hr
      · obtain rfl := List.mem_singleton.mp hr
        exact added.row
  | @update name data conditions changed rows bounded known asked each perm =>
      obtain ⟨i, hi, rfl⟩ := List.getElem_of_mem (perm.mem_iff.mp hr)
      have hone := each.get (each.length_eq ▸ hi) hi
      split at hone
      · exact hone.row
      · show t.IsRow (changed.get ⟨i, hi⟩)
        rw [hone]
        exact h.rows _ (List.get_mem _ _)
  | delete => exact h.rows r (List.mem_of_mem_filter hr)
  | select => exact h.rows r hr

/-- What a call does on a table does not depend on the name of the table. -/
theorem Acts.of_renamed {name : String} (h : ({ t with name } : Table).Acts c rows answer) : t.Acts c rows answer := by
  cases h with
  | insert known added perm => exact .insert known ⟨added.row, added.written⟩ perm
  | update bounded known asked each perm =>
      refine .update bounded known asked (each.imp fun r r' hone => ?_) perm
      show if t.meets _ r then _ else _
      change if t.meets _ r then _ else _ at hone
      split at hone
      · next hmeets =>
          rw [if_pos hmeets]
          exact ⟨hone.row, hone.written⟩
      · next hmeets =>
          rw [if_neg hmeets]
          exact hone
  | delete bounded asked => exact .delete bounded asked
  | select asked all => exact .select asked all

/-- A call that a table takes names its columns. -/
theorem Acts.known (h : t.Acts c rows answer) {name : String} (hname : name ∈ c.columns) : (t.column? name).isSome := by
  cases h with
  | insert known =>
      obtain ⟨x, hx, rfl⟩ := List.mem_map.mp hname
      exact known x hx
  | update bounded known asked =>
      obtain hname | hname := List.mem_append.mp hname
      · obtain ⟨x, hx, rfl⟩ := List.mem_map.mp hname
        exact known x hx
      · obtain ⟨x, hx, rfl⟩ := List.mem_map.mp hname
        exact asked x hx
  | delete bounded asked =>
      obtain ⟨x, hx, rfl⟩ := List.mem_map.mp hname
      exact asked x hx
  | select asked =>
      obtain ⟨x, hx, rfl⟩ := List.mem_map.mp hname
      exact asked x hx

end Table

namespace DataStore

/-- What a call does: the store after it, and the answer. -/
def call (s : DataStore) : TableCall → Except TableError (DataStore × Fields)
  | .insert name data => s.insert name data
  | .update name data conditions => s.update name data conditions
  | .delete name conditions => s.delete name conditions
  | .select name conditions => (s.select name conditions).map fun answer => (s, answer)

/-- The store after a call; one that fails leaves it. -/
def after (s : DataStore) (c : TableCall) : DataStore :=
  match s.call c with
  | .ok (next, _) => next
  | .error _ => s

/-- All tables are proper, and no name means two of them. -/
structure IsProper (s : DataStore) : Prop where
  /-- All tables are proper. -/
  tables : ∀ t ∈ s.tables, t.IsProper
  /-- No name means two tables. -/
  names : (s.tables.map fun t => t.name.map Char.toLower).Nodup

/-- What a call must not ask for. -/
inductive Refuses (s : DataStore) (c : TableCall) : Prop
  /-- Its table is not on the list. -/
  | table (h : c.table ∉ s.enabled)
  /-- It names a column that its table does not have. -/
  | column {name : String} (hname : name ∈ c.columns)
      (h : ∀ t ∈ s.tables, means c.table t → t.column? name = none)
  /-- It changes rows without conditions. -/
  | update {name : String} {data : Fields} (h : c = .update name data [])
  /-- It removes rows without conditions. -/
  | delete {name : String} (h : c = .delete name [])

/-- What a call that comes out well does: it acts on the one table that it names. -/
inductive Does (s : DataStore) (c : TableCall) : DataStore → Fields → Prop
  /-- The table has other rows, and that is all. -/
  | acts {before after : List Table} {t : Table} {rows : List Row} {answer : Fields} (listed : c.table ∈ s.enabled)
      (tables : s.tables = before ++ t :: after) (named : means c.table t) (acts : t.Acts c rows answer) :
      Does s c { s with tables := before ++ { t with rows } :: after } answer

variable {s final : DataStore} {c : TableCall} {t : Table} {rows : List Row} {answer : Fields}

/-- A table that is found is on the list and one of the tables. -/
theorem table_eq_ok {name : String} (h : s.table name = .ok t) :
    name ∈ s.enabled ∧ ∃ before u after, s.tables = before ++ u :: after ∧ means name u ∧ t = { u with name } := by
  rw [table] at h
  split at h
  · cases h
  next hlisted =>
    refine ⟨by simpa using hlisted, ?_⟩
    cases hfind : s.tables.find? (means name) with
    | none =>
        rw [hfind] at h
        cases h
    | some u =>
        rw [hfind] at h
        obtain ⟨hmeans, before, after, htables, -⟩ := List.find?_eq_some_iff_append.mp hfind
        exact ⟨before, u, after, htables, hmeans, (Except.ok.inj h).symm⟩

/-- Putting rows replaces those of the one table that is meant. -/
theorem put_eq (hs : s.IsProper) {before after : List Table} (htables : s.tables = before ++ t :: after) {name : String}
    (hmeans : means name t) (columns : List Column) (rows : List Row) :
    s.put ⟨name, columns, rows⟩ = { s with tables := before ++ { t with rows } :: after } := by
  have hother : ∀ u ∈ before ++ after, means name u = false := by
    intro u hu
    have hne : u.name.map Char.toLower ≠ t.name.map Char.toLower := by
      have hnodup := hs.names
      rw [htables, List.map_append, List.map_cons, List.nodup_middle, List.nodup_cons, ← List.map_append] at hnodup
      exact fun heq => hnodup.1 (List.mem_map.mpr ⟨u, hu, heq⟩)
    exact beq_false_of_ne fun heq => hne (heq.trans (eq_of_beq hmeans).symm)
  have hkept : ∀ us : List Table, (∀ u ∈ us, means name u = false) →
      us.map (fun u => if means name u then { u with rows } else u) = us := by
    intro us hus
    refine (List.map_congr_left fun u hu => ?_).trans (List.map_id us)
    rw [hus u hu]
    rfl
  rw [put, htables, List.map_append, List.map_cons, if_pos hmeans,
    hkept before fun u hu => hother u (List.mem_append_left _ hu),
    hkept after fun u hu => hother u (List.mem_append_right _ hu)]

/-- A call that acts on the table that is found does so in the store. -/
theorem does_of_acts (hs : s.IsProper) (ht : s.table c.table = .ok t) (ha : t.Acts c rows answer) :
    s.Does c (s.put { t with rows }) answer := by
  obtain ⟨hlisted, before, u, after, htables, hmeans, rfl⟩ := table_eq_ok ht
  rw [put_eq hs htables hmeans]
  exact .acts hlisted htables hmeans ha.of_renamed

/-- A table that is found is proper. -/
theorem IsProper.table (hs : s.IsProper) {name : String} (h : s.table name = .ok t) : t.IsProper := by
  obtain ⟨-, before, u, after, htables, -, rfl⟩ := table_eq_ok h
  have hu := hs.tables u (htables ▸ List.mem_append_right _ List.mem_cons_self)
  exact ⟨hu.names, hu.rows⟩

/-- A call that comes out well acts on one table. -/
theorem does_of_call (hs : s.IsProper) (h : s.call c = .ok (final, answer)) : s.Does c final answer := by
  cases c with
  | insert name data =>
      obtain ⟨t, ht, h⟩ := Outcome.bind_eq_ok.mp h
      obtain ⟨u, hinsert, h⟩ := Outcome.bind_eq_ok.mp h
      obtain ⟨rfl, rfl⟩ := Prod.mk.inj (Except.ok.inj h)
      obtain ⟨ha, hrows⟩ := Table.acts_of_insert (hs.table ht) name hinsert
      rw [hrows]
      exact does_of_acts hs ht ha
  | update name data conditions =>
      obtain ⟨t, ht, h⟩ := Outcome.bind_eq_ok.mp h
      obtain ⟨⟨u, n⟩, hupdate, h⟩ := Outcome.bind_eq_ok.mp h
      obtain ⟨rfl, rfl⟩ := Prod.mk.inj (Except.ok.inj h)
      obtain ⟨ha, hrows⟩ := Table.acts_of_update (hs.table ht) name hupdate
      rw [hrows]
      exact does_of_acts hs ht ha
  | delete name conditions =>
      obtain ⟨t, ht, h⟩ := Outcome.bind_eq_ok.mp h
      obtain ⟨⟨u, n⟩, hdelete, h⟩ := Outcome.bind_eq_ok.mp h
      obtain ⟨rfl, rfl⟩ := Prod.mk.inj (Except.ok.inj h)
      obtain ⟨ha, hrows⟩ := Table.acts_of_delete name hdelete
      rw [hrows]
      exact does_of_acts hs ht ha
  | select name conditions =>
      rw [call, select] at h
      obtain ⟨found, hfound, hsame⟩ := Outcome.map_eq_ok.mp h
      obtain ⟨rfl, rfl⟩ := Prod.mk.inj hsame
      obtain ⟨t, ht, hfound⟩ := Outcome.bind_eq_ok.mp hfound
      obtain ⟨values, hselect, hfound⟩ := Outcome.bind_eq_ok.mp hfound
      obtain rfl := Except.ok.inj hfound
      obtain ⟨hlisted, before, u, after, htables, hmeans, rfl⟩ := table_eq_ok ht
      have hkept : { s with tables := before ++ { u with rows := u.rows } :: after } = s := by rw [← htables]
      have ha := (Table.acts_of_select name hselect).of_renamed
      have hdoes : s.Does (.select name conditions) _ _ := .acts hlisted htables hmeans ha
      rwa [hkept] at hdoes

/-- What a call does keeps a store proper. -/
theorem Does.proper (h : s.Does c final answer) (hs : s.IsProper) : final.IsProper := by
  cases h with
  | @acts before after t rows _ listed tables named acts =>
      obtain ⟨hproper, hnames⟩ := hs
      rw [tables] at hproper hnames
      refine ⟨fun u hu => ?_, ?_⟩
      · obtain hu | hu := List.mem_append.mp hu
        · exact hproper u (List.mem_append_left _ hu)
        · obtain rfl | hu := List.mem_cons.mp hu
          · exact acts.proper (hproper t (List.mem_append_right _ List.mem_cons_self))
          · exact hproper u (List.mem_append_right _ (List.mem_cons_of_mem t hu))
      · rwa [List.map_append, List.map_cons] at hnames ⊢

/-- What is refused is not done. -/
theorem Refuses.not_does (h : s.Refuses c) : ¬s.Does c final answer := by
  rintro ⟨listed, tables, named, acts⟩
  cases h with
  | table hno => exact hno listed
  | column hname hno =>
      have hnone := hno _ (tables ▸ List.mem_append_right _ List.mem_cons_self) named
      have hsome := acts.known hname
      rw [hnone] at hsome
      cases hsome
  | update h =>
      subst h
      cases acts with
      | update bounded => exact bounded rfl
  | delete h =>
      subst h
      cases acts with
      | delete bounded => exact bounded rfl

/-- A table of files, the second of which has no status. -/
def files : Table where
  name := "files"
  columns := [⟨"id", .integer, true, false⟩, ⟨"status", .text, false, true⟩]
  rows := [⟨1, [.int 1, .text "new"]⟩, ⟨2, [.int 2, .null]⟩]

/-- A store with one table, of files. -/
def sample : DataStore := ⟨[files], ["files"]⟩

/-- The store with one table is proper. -/
theorem sample_proper : sample.IsProper := by
  refine ⟨fun t ht => ?_, List.nodup_singleton _⟩
  obtain rfl := List.mem_singleton.mp ht
  refine ⟨by decide, fun r hr => ?_⟩
  obtain rfl | hr := List.mem_cons.mp hr
  · rfl
  · obtain rfl := List.mem_singleton.mp hr
    rfl

/-- The table of files is found. -/
theorem sample_table : sample.table "files" = .ok files := by
  have hmeans : means "files" files = true := beq_self_eq_true _
  have hfind : [files].find? (means "files") = some files := List.find?_cons_of_pos hmeans
  rw [table, if_neg (by decide), sample, hfind]
  rfl

end DataStore

end Rulebook
