import Rulebook.Table.Cell
import Rulebook.Text.Character
/-!
# Tables for actions

A data store holds tables and lets actions work on those that are on its list. A row keeps its
number; if the primary key is one column of integers, the number is that key. A failed operation
changes nothing.
-/

namespace Rulebook

/-- A column. -/
structure Column where
  /-- Its name. -/
  name : String
  /-- What it holds. -/
  kind : ColumnKind
  /-- Whether it belongs to the primary key. -/
  isKey : Bool
  /-- Whether it may be null. -/
  nullable : Bool
deriving DecidableEq, Repr

/-- A row: its number and a cell for each column. -/
structure Row where
  /-- The number of the row. -/
  number : Int
  /-- The cells in the order of the columns. -/
  cells : List Cell

/-- A table. -/
structure Table where
  /-- Its name. -/
  name : String
  /-- Its columns. -/
  columns : List Column
  /-- Its rows in the order of their numbers. -/
  rows : List Row

/-- Which operation lacks conditions. -/
inductive UnboundedChange where
  /-- Changing rows. -/
  | update
  /-- Removing rows. -/
  | delete
deriving DecidableEq, Repr

/-- Why an operation on a table fails. -/
inductive TableError where
  /-- The table is not on the list. -/
  | notEnabled (table : String)
  /-- There is no such table. -/
  | noTable (table : String)
  /-- A condition names no column. -/
  | unknownColumn (column table : String)
  /-- Values are given for what are no columns. -/
  | unknownColumns (columns : List String) (table : String)
  /-- All rows would be changed or removed. -/
  | noConditions (change : UnboundedChange)
  /-- Nothing is to be changed. -/
  | noValues
  /-- A value does not fit its place. -/
  | value (fault : CellFault)
  /-- A key would occur twice or a required cell be null. -/
  | constraint
deriving DecidableEq, Repr

/-- The wording of a table error. -/
def TableError.message : TableError → String
  | .notEnabled t => "Table '" ++ t ++ "' is not enabled for database actions"
  | .noTable t => t
  | .unknownColumn c t => "Unknown column '" ++ c ++ "' on table '" ++ t ++ "'"
  | .unknownColumns cs t => "Unknown columns on table '" ++ t ++ "': " ++ ", ".intercalate cs
  | .noConditions .update => "Database update requires at least one condition"
  | .noConditions .delete => "Database delete requires at least one condition"
  | .noValues => "There is nothing to change"
  | .value .notConvertible => "A value does not fit its column"
  | .value .unsupported => "A value is of an unsupported kind"
  | .value .tooLong => "An integer does not fit into a cell"
  | .constraint => "A constraint is violated"

namespace Table

/-- The column whose values are the numbers of rows, if there is one. -/
def numberColumn? (t : Table) : Option Nat :=
  match (t.columns.zipIdx).filter (·.1.isKey) with
  | [(c, i)] => if c.kind = .integer then some i else none
  | _ => none

/-- The column of a name. -/
def column? (t : Table) (name : String) : Option Column := t.columns.find? (·.name == name)

/-- The cell of a row in a column. -/
def cell (t : Table) (r : Row) (name : String) : Cell :=
  match t.columns.findIdx? (·.name == name) with
  | some i => (r.cells[i]?).getD .null
  | none => .null

/-- A condition: a column and what its cell has to be. -/
structure Selector where
  /-- The column. -/
  column : Column
  /-- The content, as the column prefers it; none if the cell has to be null. -/
  content : Option Cell

/-- Whether a row meets a condition. -/
def Selector.accepts (t : Table) (s : Selector) (r : Row) : Bool :=
  let c := t.cell r s.column.name
  match s.content with
  | none => c.isNull
  | some x => c.same x

/-- Whether a row meets all conditions. -/
def accepts (t : Table) (ss : List Selector) (r : Row) : Bool := ss.all (·.accepts t r)

/-- The columns named by conditions, with the values. -/
def conditionColumns (t : Table) (conditions : Fields) : Except TableError (List (Column × Value)) :=
  conditions.mapM fun (name, v) =>
    match t.column? name with
    | some c => .ok (c, v)
    | none => .error (.unknownColumn name t.name)

/-- Refuses values for what are no columns. -/
def checkNames (t : Table) (data : Fields) : Except TableError Unit :=
  let unknown := (data.map (·.1)).filter fun name => (t.column? name).isNone
  if unknown.isEmpty then .ok ()
  else .error (.unknownColumns (unknown.mergeSort fun a b => decide (a ≤ b)) t.name)

/-- The values for columns, in the order of columns. -/
def columnValues (t : Table) (data : Fields) : List (Column × Value) :=
  t.columns.filterMap fun c => (Fields.get? data c.name).map fun v => (c, v)

/-- Applies a conversion to the second part of each pair. -/
def eachValue {α β : Type} (f : Column → α → Except CellFault β) (ps : List (Column × α)) :
    Except TableError (List (Column × β)) :=
  ps.mapM fun p => ((f p.1 p.2).map fun b => (p.1, b)).mapError .value

/-- The content that the value of a condition stands for; none for null. -/
def comparand (v : Value) : Except CellFault (Option Cell) :=
  if v.isNull then .ok none else (Cell.ofValue v).map some

/-- Converts values for columns and values of conditions, and hands all of them over. -/
def bind (values conditions : List (Column × Value)) :
    Except TableError (List (Column × Cell) × List Selector) := do
  let converted ← eachValue (fun c v => c.kind.convert v) values
  let compared ← eachValue (fun c v => c.kind.convertForComparison v) conditions
  let cells ← eachValue (fun _ v => Cell.ofValue v) converted
  let contents ← eachValue (fun _ v => comparand v) compared
  .ok (cells.map fun p => (p.1, p.1.kind.prefer p.2),
    contents.map fun p => ⟨p.1, p.2.map p.1.kind.prefer⟩)

/-- The cells of the primary key. -/
def key (t : Table) (r : Row) : List Cell :=
  (t.columns.filter (·.isKey)).map fun c => t.cell r c.name

/-- Whether two rows have the same primary key. -/
def sameKey (t : Table) (r s : Row) : Bool :=
  (t.columns.any (·.isKey)) && ((t.key r).zip (t.key s)).all fun (a, b) => a.same b

/-- Whether no two rows have the same primary key. -/
def keysDiffer (t : Table) : List Row → Bool
  | [] => true
  | r :: rest => !rest.any (t.sameKey r) && keysDiffer t rest

/-- Whether a row has something in every cell that must not be null. -/
def isComplete (t : Table) (r : Row) : Bool :=
  (t.columns.zip r.cells).all fun (c, x) => (c.nullable && !c.isKey) || !x.isNull

/-- Whether a row has a number where its number is kept. -/
def isNumbered (t : Table) (r : Row) : Bool :=
  match t.numberColumn? with
  | some i =>
    match r.cells[i]? with
    | some (.int n) => n == r.number
    | _ => false
  | none => true

/-- The table with these rows, if they respect keys and required cells. -/
def withRows (t : Table) (rows : List Row) : Except TableError Table :=
  if rows.all (fun r => t.isComplete r && t.isNumbered r) && t.keysDiffer rows then
    .ok { t with rows := rows.mergeSort fun a b => decide (a.number ≤ b.number) }
  else .error .constraint

/-- The number of a new row that does not name its own. -/
def nextNumber (t : Table) : Int := (t.rows.map (·.number)).foldl max 0 + 1

/-- The number of a row with these cells: that in the column kept for it, or the given one. -/
def numbered (t : Table) (cells : List Cell) (otherwise : Int) : Row :=
  match t.numberColumn? with
  | some i =>
    match cells[i]? with
    | some (.int n) => ⟨n, cells⟩
    | some .null => ⟨otherwise, cells.set i (.int otherwise)⟩
    | _ => ⟨otherwise, cells⟩
  | none => ⟨otherwise, cells⟩

/-- The cell that is given for a column, or else another one. -/
def given (values : List (Column × Cell)) (c : Column) (otherwise : Cell) : Cell :=
  ((values.find? (·.1.name == c.name)).map (·.2)).getD otherwise

/-- The row with cells written over its own; its number is that in the column kept for it, or stays. -/
def changeRow (t : Table) (values : List (Column × Cell)) (r : Row) : Row :=
  let cells : List Cell := (t.columns.zip r.cells).map fun (c, x) => given values c x
  match t.numberColumn? with
  | some i =>
    match cells[i]? with
    | some (.int n) => ⟨n, cells⟩
    | _ => ⟨r.number, cells⟩
  | none => ⟨r.number, cells⟩

/-- Adds a row; what is not given is null. -/
def insert (t : Table) (data : Fields) : Except TableError Table := do
  t.checkNames data
  let (values, _) ← bind (t.columnValues data) []
  let cells := t.columns.map fun c => given values c .null
  t.withRows (t.rows ++ [t.numbered cells t.nextNumber])

/-- Changes the rows that meet the conditions, and counts them. -/
def update (t : Table) (data conditions : Fields) : Except TableError (Table × Nat) := do
  if conditions.isEmpty then throw (.noConditions .update)
  let columns ← t.conditionColumns conditions
  t.checkNames data
  let (values, selectors) ← bind (t.columnValues data) columns
  if values.isEmpty then throw .noValues
  let changed ← t.withRows (t.rows.map fun r => if t.accepts selectors r then t.changeRow values r else r)
  .ok (changed, t.rows.countP (t.accepts selectors))

/-- Removes the rows that meet the conditions, and counts them. -/
def delete (t : Table) (conditions : Fields) : Except TableError (Table × Nat) := do
  if conditions.isEmpty then throw (.noConditions .delete)
  let columns ← t.conditionColumns conditions
  let (_, selectors) ← bind [] columns
  .ok ({ t with rows := t.rows.filter fun r => !t.accepts selectors r },
    t.rows.countP (t.accepts selectors))

/-- The most rows that are read at once. -/
def selectLimit : Nat := 500

/-- What a row stands for. -/
def rowValue (t : Table) (r : Row) : Value :=
  .object ((t.columns.zip r.cells).map fun (c, x) => (c.name, c.kind.valueOf x))

/-- The rows that meet the conditions, up to a limit. -/
def select (t : Table) (conditions : Fields) : Except TableError (List Value) := do
  let columns ← t.conditionColumns conditions
  let (_, selectors) ← bind [] columns
  .ok (((t.rows.filter (t.accepts selectors)).take selectLimit).map t.rowValue)

end Table

/-- Tables and the names of those that actions may work on. -/
structure DataStore where
  /-- The tables. -/
  tables : List Table
  /-- The names on the list. -/
  enabled : List String

namespace DataStore

/-- The store with a list of names, in which blanks and empty names do not count. -/
def make (tables : List Table) (names : List String) : DataStore :=
  ⟨tables, (names.map Text.trim).filter (!·.isEmpty)⟩

/-- Whether a name means a table; case of ASCII letters does not matter. -/
def means (name : String) (t : Table) : Bool :=
  t.name.map Char.toLower == name.map Char.toLower

/-- The table of a name on the list, under that name. -/
def table (s : DataStore) (name : String) : Except TableError Table :=
  if !s.enabled.contains name then .error (.notEnabled name)
  else match s.tables.find? (means name) with
    | some t => .ok { t with name }
    | none => .error (.noTable name)

/-- The store with the rows of a table replaced. -/
def put (s : DataStore) (t : Table) : DataStore :=
  { s with tables := s.tables.map fun u => if means t.name u then { u with rows := t.rows } else u }

/-- The report of a change. -/
def affected (n : Nat) : Fields := [("affected_rows", .int n)]

/-- Adds a row. -/
def insert (s : DataStore) (name : String) (data : Fields) :
    Except TableError (DataStore × Fields) := do
  let t ← s.table name
  let t ← t.insert data
  .ok (s.put t, affected 1)

/-- Changes rows. -/
def update (s : DataStore) (name : String) (data conditions : Fields) :
    Except TableError (DataStore × Fields) := do
  let t ← s.table name
  let (t, n) ← t.update data conditions
  .ok (s.put t, affected n)

/-- Removes rows. -/
def delete (s : DataStore) (name : String) (conditions : Fields) :
    Except TableError (DataStore × Fields) := do
  let t ← s.table name
  let (t, n) ← t.delete conditions
  .ok (s.put t, affected n)

/-- Reads rows. -/
def select (s : DataStore) (name : String) (conditions : Fields) : Except TableError Fields := do
  let t ← s.table name
  let rows ← t.select conditions
  .ok [("rows", .list rows), ("count", .int rows.length)]

end DataStore

end Rulebook
