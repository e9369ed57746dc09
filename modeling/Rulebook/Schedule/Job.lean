import Rulebook.Rule.Basic
import Rulebook.Schedule.CronTime
import Rulebook.Failure
/-!
# Scheduled jobs

A job fires again and again, by an interval or a cron expression. The scheduler is a table of jobs
with at most one for each rule and trigger, in the order in which they were armed. Slots that were
missed count as one: a job fires at most once when it is asked for what is due, and its next slot is
then the first one after that time.
-/

/-!
## Interval expressions

An interval is written as a whole number, in decimal digits of any script, and a unit: `m` for
minutes, `h` for hours, `d` for days. Blanks around it mean nothing.
-/

namespace Rulebook

namespace Interval

/-- The length of a unit in microseconds. -/
def unit? : Char → Option Int
  | 'm' => some microsPerMinute
  | 'h' => some microsPerHour
  | 'd' => some microsPerDay
  | _ => none

/-- The digits and the unit of an expression that has the form of an interval. -/
def parts? (expression : String) : Option (List Char × Int) :=
  match (Text.trimBy Text.isBlank expression.toList).reverse with
  | [] => none
  | last :: digits =>
    match unit? last with
    | some unit =>
      if !digits.isEmpty && digits.all Text.isDecimal then some (digits.reverse, unit) else none
    | none => none

/-- The length of an interval in microseconds. -/
def read (expression : String) : Outcome Int :=
  match parts? expression with
  | none => .error (.schedule (.badInterval expression))
  | some (digits, unit) =>
    if Path.maxDigits < digits.length then .error (.number (.tooManyDigits digits.length))
    else
      let amount : Int := (Text.numeral? digits).getD 0
      if amount ≤ 0 then .error (.schedule (.emptyInterval expression))
      else if Moment.maxSpan < amount * unit then .error (.time .spanTooLong)
      else .ok (amount * unit)

end Interval

end Rulebook

/-! ## Scheduled jobs -/

namespace Rulebook

/-- A scheduled job. -/
structure Job where
  /-- The rule it belongs to. -/
  ruleId : String
  /-- The trigger of the rule. -/
  triggerId : String
  /-- What kind of schedule it has. -/
  kind : String
  /-- When it fires next. -/
  nextFireAt : Moment
  /-- The length of its interval in microseconds. -/
  interval : Option Int
  /-- Its cron expression, which comes before an interval. -/
  cron : Option Cron
  /-- Whether it is out of use. -/
  cancelled : Bool

namespace Job

/-- The rule and trigger of a job. -/
def key (j : Job) : String × String := (j.ruleId, j.triggerId)

/-- The job out of use. -/
def cancel (j : Job) : Job := { j with cancelled := true }

/-- The job with its first slot after `now`; one whose cron expression has no more slots is out of
use. -/
def advance (j : Job) (now : Moment) : Outcome Job :=
  match j.cron, j.interval with
  | some cron, _ => do
    let after ← (now.add 1).mapError .time
    match ← cron.nextFrom after with
    | some at_ => .ok { j with nextFireAt := at_ }
    | none => .ok j.cancel
  | none, none => .error (.schedule (.noSchedule j.ruleId j.triggerId))
  | none, some interval => do
    let passed ← (now.since j.nextFireAt).mapError .time
    if interval = 0 then .error (.time .zeroInterval)
    else
      let at_ ← (j.nextFireAt.add (interval * (Int.fdiv passed interval + 1))).mapError .time
      .ok { j with nextFireAt := at_ }

/-- Whether the job fires at `now`. -/
def isDue (j : Job) (now : Moment) : Outcome Bool :=
  if j.cancelled then .ok false
  else ((now.since j.nextFireAt).map fun passed => decide (0 ≤ passed)).mapError .time

/-- The job of a schedule from `now` on. -/
def ofSchedule (ruleId triggerId : String) (s : Schedule) (now : Moment) : Outcome Job :=
  match s.kind with
  | .interval => do
    let interval ← Interval.read s.expression
    let at_ ← (now.add interval).mapError .time
    .ok ⟨ruleId, triggerId, "interval", at_, some interval, none, false⟩
  | .cron => do
    let cron ← (Cron.read s.expression s.timezone).mapError .schedule
    match ← cron.nextFrom now with
    | some at_ => .ok ⟨ruleId, triggerId, "cron", at_, none, some cron, false⟩
    | none => .error (.schedule (.neverFires s.expression))

/-- The job that polls a condition at an interval in minutes. -/
def polling (ruleId triggerId : String) (minutes : Int) (now : Moment) : Outcome Job :=
  let interval := minutes * microsPerMinute
  if Moment.maxSpan < interval then .error (.time .spanTooLong)
  else do
    let at_ ← (now.add interval).mapError .time
    .ok ⟨ruleId, triggerId, "condition", at_, some interval, none, false⟩

/-- A length of time in microseconds, written in seconds. -/
def secondsValue (micros : Int) : Value :=
  .float ((Binary64.nearestSigned? micros 1000000).getD 0)

/-- The payload of a job. -/
def toValue (j : Job) : Value :=
  .object [("rule_id", .text j.ruleId), ("trigger_id", .text j.triggerId), ("kind", .text j.kind),
    ("next_fire_at", .moment j.nextFireAt), ("interval", .ofOption secondsValue j.interval),
    ("cron", .bool j.cron.isSome), ("cancelled", .bool j.cancelled)]

end Job

/-- The table of armed jobs. -/
structure Scheduler where
  /-- The jobs in the order in which they were armed. -/
  jobs : List Job

namespace Scheduler

/-- The table without jobs. -/
def empty : Scheduler := ⟨[]⟩

/-- Arms a job. A job of the same rule and trigger is replaced and given back cancelled. -/
def arm (s : Scheduler) (j : Job) : Scheduler × Option Job :=
  (⟨s.jobs.filter (·.key != j.key) ++ [j]⟩, (s.jobs.find? (·.key == j.key)).map Job.cancel)

/-- Removes the job of a rule and trigger and gives it back cancelled. -/
def cancel (s : Scheduler) (ruleId triggerId : String) : Scheduler × Option Job :=
  (⟨s.jobs.filter (·.key != (ruleId, triggerId))⟩,
    (s.jobs.find? (·.key == (ruleId, triggerId))).map Job.cancel)

/-- Removes the jobs of a rule and gives them back cancelled. -/
def cancelRule (s : Scheduler) (ruleId : String) : Scheduler × List Job :=
  (⟨s.jobs.filter (·.ruleId != ruleId)⟩, (s.jobs.filter (·.ruleId == ruleId)).map Job.cancel)

/-- The note about a job without a schedule. -/
def invalidNote (j : Job) (f : Failure) : LogEntry :=
  ⟨.error, "scheduler.job_invalid",
    [("rule_id", .text j.ruleId), ("trigger_id", .text j.triggerId), ("error", .text f.message)]⟩

/-- What looking for due jobs gives. -/
structure DueReport where
  /-- The jobs afterwards. -/
  jobs : List Job
  /-- The due jobs, advanced to their next slots, or why the search broke off. -/
  due : Outcome (List Job)
  /-- Notes about jobs without a schedule, which are cancelled. -/
  notes : List LogEntry

/-- Advances the jobs that are due, in order; the flag tells which ones are. -/
def advanceDue (now : Moment) : List (Job × Bool) → DueReport
  | [] => ⟨[], .ok [], []⟩
  | (j, false) :: rest =>
    let r := advanceDue now rest
    { r with jobs := j :: r.jobs }
  | (j, true) :: rest =>
    match j.advance now with
    | .ok next =>
      let r := advanceDue now rest
      { r with jobs := next :: r.jobs, due := r.due.map (next :: ·) }
    | .error (.schedule e) =>
      let r := advanceDue now rest
      { r with jobs := j.cancel :: r.jobs, notes := invalidNote j (.schedule e) :: r.notes }
    | .error f => ⟨j :: rest.map (·.1), .error f, []⟩

/-- The jobs that are due, advanced to their next slots. -/
def due (s : Scheduler) (now : Moment) : DueReport :=
  match s.jobs.mapM (·.isDue now) with
  | .error f => ⟨s.jobs, .error f, []⟩
  | .ok flags => advanceDue now (s.jobs.zip flags)

end Scheduler

end Rulebook
