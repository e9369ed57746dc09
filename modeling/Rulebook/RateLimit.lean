import Rulebook.Store.Basic
/-!
# Rate limits

A rule may run only so often a day, and only so long after it last started.
-/

namespace Rulebook

/-- Why a rule may not run now. -/
inductive RateLimit where
  /-- Its executions of the day are used up. -/
  | dailyQuota
  /-- It started too short a time ago. -/
  | cooldown
deriving DecidableEq, Repr

namespace RateLimit

/-- The wording of a refusal. -/
def message : RateLimit → String
  | dailyQuota => "Rate limit exceeded"
  | cooldown => "Rate limit exceeded: cooldown period active"

/-- Whether less than the cooldown has passed. -/
def isCooling (minutes : Int) (last now : Moment) : Except TimeFault Bool := do
  let passed ← now.since last
  let wait := minutes * microsPerMinute
  if Moment.maxSpan < wait then .error .spanTooLong else .ok (decide (passed < wait))

/-- Why a rule may not run at `now`, if there is a reason. -/
def check (s : ExecutionStore) (ruleId : String) (settings : RuleSettings) (now : Moment) :
    Outcome (Option RateLimit) := do
  let day ← now.utcDay.mapError .time
  let count ← s.count ruleId day
  if settings.maxExecutionsPerDay ≤ count then .ok (some dailyQuota)
  else if settings.cooldownPeriod ≤ 0 then .ok none
  else match ← s.lastStarted ruleId with
    | none => .ok none
    | some last =>
      if ← (isCooling settings.cooldownPeriod last now).mapError .time then .ok (some cooldown)
      else .ok none

end RateLimit

end Rulebook
