import Rulebook.Table.Basic
/-!
# Payloads of tables
-/

namespace Rulebook

/-- The column that a payload describes. -/
def Column.ofValue (v : Value) : Column :=
  let fs := v.fields
  let kind : ColumnKind := match Fields.text fs "type" with
    | "integer" => .integer
    | "float" => .real
    | "boolean" => .bool
    | _ => .text
  let nullable := match Fields.value fs "nullable" with
    | .bool b => b
    | _ => true
  ⟨Fields.text fs "name", kind, (Fields.value fs "primary_key").isTruthy, nullable⟩

/-- The table with the columns of a payload and rows, as far as they can be added. -/
def Table.ofValues (name : String) (columns rows : List Value) : Table :=
  rows.foldl (fun t row =>
    match t.insert row.fields with
    | .ok t => t
    | .error _ => t) ⟨name, columns.map Column.ofValue, []⟩

/-- The data store with the tables and the list that a payload describes. -/
def DataStore.ofFields (fs : Fields) : DataStore :=
  let rows := Fields.fields fs "rows"
  let tables := (Fields.fields fs "tables").map fun (name, v) =>
    Table.ofValues name (match v with | .list l => l | _ => []) (Fields.items rows name)
  DataStore.make tables (Fields.texts fs "allowed")

end Rulebook
