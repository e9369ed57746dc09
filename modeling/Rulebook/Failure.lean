import Rulebook.Condition.Evaluation
import Rulebook.File.Basic
import Rulebook.Mail.Message
import Rulebook.Rule.Authentication
import Rulebook.Schedule.Error
import Rulebook.Table.Basic
/-!
# Failures

Everything that can make a request to the library fail, by cause, and the wording of each.
-/

namespace Rulebook

/-- The wording of a fault in a computation with times. -/
def TimeFault.message : TimeFault → String
  | .outOfRange => "date value out of range"
  | .spanTooLong => "length of time out of range"
  | .mixedOffsets => "can't subtract offset-naive and offset-aware datetimes"
  | .zeroInterval => "integer division or modulo by zero"

/-- Why a request fails. -/
inductive Failure where
  /-- A template lacks a required setting. -/
  | settingRequired (template key : String)
  /-- There is no such rule. -/
  | ruleNotFound (id : String)
  /-- The rule is not in use. -/
  | ruleInactive (id : String)
  /-- The rule ran too often; the refused execution is recorded under the identifier. -/
  | rateLimited (reason : String) (executionId : Option String)
  /-- A condition or path is void. -/
  | condition (e : ConditionError)
  /-- No handler for this kind of action. -/
  | unknownAction (kind : String)
  /-- An action failed, because of another failure if one is given. -/
  | action (message : String) (cause : Option Failure)
  /-- A schedule cannot be armed. -/
  | schedule (e : ScheduleError)
  /-- There is no such template. -/
  | templateNotFound (name : String) (available : List String)
  /-- There is no such execution. -/
  | executionNotFound (id : String)
  /-- A payload is invalid. -/
  | invalid (issues : List Issue)
  /-- A number cannot be read or converted. -/
  | number (f : NumberFault)
  /-- A computation with times failed. -/
  | time (f : TimeFault)
  /-- Credentials are incomplete. -/
  | authentication (e : AuthError)
  /-- There is already a rule with the identifier. -/
  | ruleExists (id : String)
  /-- There is nothing to update under the identifier. -/
  | nothingToUpdate (id : String)
  /-- An integer does not fit into its column. -/
  | integerTooLong
  /-- There is already a row with the key. -/
  | duplicateKey (key : String)
  /-- An operation on a table failed. -/
  | table (e : TableError)
  /-- A file operation failed. -/
  | file (e : FileFault)
  /-- A mail cannot be written. -/
  | mail (e : HeaderFault)
  /-- A value of this kind stands where fields are needed. -/
  | notFields (kind : String)
  /-- A mean over nothing. -/
  | divisionByZero
  /-- Something outside the library failed, with its own name and text. -/
  | outside (kind text : String)
deriving Repr

namespace Failure

/-- The wording of a failure. -/
def message : Failure → String
  | settingRequired template key =>
    "Template '" ++ template ++ "' requires config key '" ++ key ++ "'"
  | ruleNotFound id => "Automation rule '" ++ id ++ "' not found"
  | ruleInactive id => "Automation rule '" ++ id ++ "' is inactive"
  | rateLimited reason _ => reason
  | condition e => e.message
  | unknownAction kind => "Unknown action type: " ++ kind
  | action m _ => m
  | schedule e => e.message
  | templateNotFound name available =>
    "Unknown template '" ++ name ++ "'. Available: " ++ ", ".intercalate available
  | executionNotFound id => "Automation execution '" ++ id ++ "' not found"
  | invalid issues => "\n".intercalate (issues.map fun i => i.flaw.message)
  | number f => f.message
  | time f => f.message
  | authentication e => e.message
  | ruleExists id => "Automation rule '" ++ id ++ "' already exists"
  | nothingToUpdate id => Text.quoted id
  | integerTooLong => "The integer does not fit into its column"
  | duplicateKey key => "There is already a row with the key " ++ Text.quoted key
  | table e => e.message
  | file e => e.message
  | mail e => e.message
  | notFields kind => "'" ++ kind ++ "' object is not a mapping"
  | divisionByZero => "float division by zero"
  | outside _ text => text

/-- The code of a failure that a client is told of by cause; the others are faults within. -/
def code? : Failure → Option String
  | settingRequired _ _ => some "automation_error"
  | ruleNotFound _ => some "rule_not_found"
  | ruleInactive _ => some "rule_inactive"
  | rateLimited _ _ => some "rate_limit_exceeded"
  | condition _ => some "condition_evaluation_error"
  | unknownAction _ => some "unknown_action_type"
  | action _ _ => some "action_execution_error"
  | schedule _ => some "trigger_config_error"
  | templateNotFound _ _ => some "template_not_found"
  | executionNotFound _ => some "execution_not_found"
  | _ => none

/-- The most characters of a short text. -/
def shortLength : Nat := 500

/-- The beginning of a text. -/
def shorten (text : String) : String := String.ofList (text.toList.take shortLength)

/-- The failure of an action that comes from another failure: the wording of that one, cut short, or
its kind if it says nothing. -/
def ofAction : Failure → Failure
  | action m cause => action m cause
  | f =>
    let said := Text.trim f.message
    let text := match said, f with
      | "", outside kind _ => kind ++ " raised by action"
      | said, _ => said
    action (shorten text) (some f)

/-- A lookup that failed. -/
def ofLookup : LookupError → Failure
  | .path e => .condition (.path e)
  | .index f => .number f

end Failure

/-- A computation that may fail. -/
abbrev Outcome (α : Type) := Except Failure α

end Rulebook
