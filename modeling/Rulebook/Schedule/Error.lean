import Rulebook.Value.Literal
/-!
# Errors in schedules

What can be wrong with a schedule, by cause, and the wording of each.
-/

namespace Rulebook

/-- What is wrong with a cron expression or its zone. -/
inductive CronFault where
  /-- Not five fields. -/
  | fieldCount (n : Nat)
  /-- A zone that is not in the catalogue. -/
  | unknownZone (name : String)
  /-- A step of zero. -/
  | zeroStep
  /-- A range that ends before it starts. -/
  | backwards
  /-- Not the name of a month. -/
  | badMonth (name : String)
  /-- Not the name of a day of the week. -/
  | badWeekday (name : String)
  /-- A term of no known form. -/
  | unrecognized (term field : String)
  /-- A step that leads out of the range. -/
  | stepTooLong (term : String) (step range : Int)
  /-- A range that starts too low. -/
  | tooLow (term : String) (first least : Int)
  /-- A range that ends too high. -/
  | tooHigh (term : String) (last greatest : Int)
deriving DecidableEq, Repr

/-- The wording of a fault in a cron expression. -/
def CronFault.message : CronFault → String
  | .fieldCount n => "Wrong number of fields; got " ++ Decimal.intText n ++ ", expected 5"
  | .unknownZone name => Text.quoted ("No time zone found with key " ++ name)
  | .zeroStep => "Increment must be higher than 0"
  | .backwards => "The minimum value in a range must not be higher than the maximum"
  | .badMonth name => "Invalid month name \"" ++ name ++ "\""
  | .badWeekday name => "Invalid weekday name \"" ++ name ++ "\""
  | .unrecognized term field =>
    "Unrecognized expression \"" ++ term ++ "\" for field \"" ++ field ++ "\""
  | .stepTooLong term step range =>
    "Error validating expression " ++ Text.quoted term ++ ": the step value (" ++
      Decimal.intText step ++ ") is higher than the total range of the expression (" ++
      Decimal.intText range ++ ")"
  | .tooLow term first least =>
    "Error validating expression " ++ Text.quoted term ++ ": the first value (" ++
      Decimal.intText first ++ ") is lower than the minimum value (" ++ Decimal.intText least ++ ")"
  | .tooHigh term last greatest =>
    "Error validating expression " ++ Text.quoted term ++ ": the last value (" ++
      Decimal.intText last ++ ") is higher than the maximum value (" ++
      Decimal.intText greatest ++ ")"

/-- Why a schedule cannot be armed. -/
inductive ScheduleError where
  /-- Not an interval expression. -/
  | badInterval (expression : String)
  /-- An interval of length zero. -/
  | emptyInterval (expression : String)
  /-- Not a cron expression, or an unknown time zone. -/
  | badCron (expression timezone : String) (fault : CronFault)
  /-- A cron expression that no instant matches. -/
  | neverFires (expression : String)
  /-- A job with neither interval nor cron schedule. -/
  | noSchedule (ruleId triggerId : String)
deriving DecidableEq, Repr

/-- The wording of a schedule error. -/
def ScheduleError.message : ScheduleError → String
  | .badInterval e => "Invalid interval expression '" ++ e ++ "'; expected e.g. 5m, 1h, 1d"
  | .emptyInterval e => "Interval expression '" ++ e ++ "' must be positive"
  | .badCron e zone fault =>
    "Invalid cron expression '" ++ e ++ "' (" ++ zone ++ "): " ++ fault.message
  | .neverFires e => "Cron expression '" ++ e ++ "' never fires"
  | .noSchedule r t => "Job " ++ r ++ "/" ++ t ++ " has neither an interval nor a cron schedule"

end Rulebook
