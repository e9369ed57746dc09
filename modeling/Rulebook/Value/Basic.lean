import Rulebook.Time.Moment
/-!
# Values

The data that rules read and write: JSON values whose integers and binary64 numbers are kept apart
and whose objects keep the order of their fields, and besides them points in time.
-/

namespace Rulebook

/-- A value. -/
inductive Value where
  /-- The null value. -/
  | null
  /-- A truth value. -/
  | bool (b : Bool)
  /-- An integer of any size. -/
  | int (n : Int)
  /-- A binary64 number. -/
  | float (x : Float)
  /-- A text. -/
  | text (s : String)
  /-- A point in time. -/
  | moment (m : Moment)
  /-- A list. -/
  | list (items : List Value)
  /-- An object with its fields in order; no two fields have the same name. -/
  | object (fields : List (String × Value))
deriving Inhabited

/-- The fields of an object. -/
abbrev Fields := List (String × Value)

namespace Fields

/-- The value of a field. -/
def get? (fs : Fields) (name : String) : Option Value := fs.lookup name

/-- Whether a field of that name exists. -/
def has (fs : Fields) (name : String) : Bool := fs.any (·.1 == name)

/-- Sets a field: an existing one keeps its place, a new one goes to the end. -/
def insert (fs : Fields) (name : String) (v : Value) : Fields :=
  if has fs name then fs.map fun (k, w) => if k == name then (k, v) else (k, w)
  else fs ++ [(name, v)]

/-- Sets every field of the second list in the first, in order. -/
def merge (fs gs : Fields) : Fields := gs.foldl (fun acc (k, v) => insert acc k v) fs

/-- The value of a field, null if it is absent. -/
def value (fs : Fields) (name : String) : Value := (get? fs name).getD .null

/-- The text in a field, or another where there is none. -/
def textOr (fs : Fields) (name absent : String) : String :=
  match value fs name with
  | .text s => s
  | _ => absent

/-- The text in a field, empty where there is none. -/
def text (fs : Fields) (name : String) : String := textOr fs name ""

/-- The integer in a field, or another where there is none. -/
def intOr (fs : Fields) (name : String) (absent : Int) : Int :=
  match value fs name with
  | .int n => n
  | _ => absent

/-- The fields of the object in a field, none where there is no object. -/
def fields (fs : Fields) (name : String) : Fields :=
  match value fs name with
  | .object gs => gs
  | _ => []

/-- The items of the list in a field, none where there is no list. -/
def items (fs : Fields) (name : String) : List Value :=
  match value fs name with
  | .list l => l
  | _ => []

/-- The texts among the items of the list in a field. -/
def texts (fs : Fields) (name : String) : List String :=
  (items fs name).filterMap fun
    | .text s => some s
    | _ => none

/-- The fields whose values are texts, with these. -/
def ofTexts (fs : Fields) : List (String × String) :=
  fs.filterMap fun (k, v) =>
    match v with
    | .text s => some (k, s)
    | _ => none

/-- The fields in which every name has its last value. -/
def ofPairs (ps : List (String × Value)) : Fields := merge [] ps

end Fields

namespace Value

/-- An optional value, null standing for none. -/
def ofOption {α : Type} (f : α → Value) : Option α → Value
  | none => .null
  | some a => f a

/-- A list of texts. -/
def texts (l : List String) : Value := .list (l.map .text)

/-- The value of a field, if this is an object that has it. -/
def field? (v : Value) (name : String) : Option Value :=
  match v with
  | .object fs => Fields.get? fs name
  | _ => none

/-- The fields, if this is an object, and none otherwise. -/
def fields : Value → Fields
  | .object fs => fs
  | _ => []

/-- The text, if this is one. -/
def text? : Value → Option String
  | .text s => some s
  | _ => none

/-- Whether the value is null. -/
def isNull : Value → Bool
  | .null => true
  | _ => false

/-- Whether the value counts as something: not null, false, zero, or empty. -/
def isTruthy : Value → Bool
  | .null => false
  | .bool b => b
  | .int n => n != 0
  | .float x => !(x == 0)
  | .text s => !s.isEmpty
  | .moment _ => true
  | .list l => !l.isEmpty
  | .object fs => !fs.isEmpty

end Value

end Rulebook
