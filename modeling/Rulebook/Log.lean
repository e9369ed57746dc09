import Rulebook.Value.Basic
/-!
# Log entries
-/

namespace Rulebook

/-- How serious a log entry is. -/
inductive LogLevel where
  /-- For tracing. -/
  | debug
  /-- Normal operation. -/
  | info
  /-- Something was refused or failed as expected. -/
  | warning
  /-- Something failed. -/
  | error
deriving DecidableEq, Repr

/-- The name of a level. -/
def LogLevel.name : LogLevel → String
  | .debug => "DEBUG"
  | .info => "INFO"
  | .warning => "WARNING"
  | .error => "ERROR"

/-- An entry of the log: what happened, and the particulars in order. -/
structure LogEntry where
  /-- How serious it is. -/
  level : LogLevel
  /-- What happened. -/
  event : String
  /-- The particulars. -/
  fields : Fields

/-- The payload of an entry. -/
def LogEntry.toValue (e : LogEntry) : Value :=
  .object (("event", .text e.event) :: e.fields ++ [("level", .text e.level.name)])

end Rulebook
