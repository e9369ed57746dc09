import Rulebook.Proofs.Outcome
import Rulebook.Proofs.Registry.Register

/-!
# Which jobs are armed

A trigger in use is armed if it has a schedule that can fire or, where conditions can be polled, a condition
(`Trigger.Arms`). While no time leaves the range of times, registering a rule in use arms just these triggers,
and what the rule had before is gone (`Registry.register_jobs_iff`).
-/

namespace Rulebook

/-- The first whole second that is not before an instant. -/
def Cron.secondFrom (instant : Int) : Int := -(-instant / microsPerSecond)

/-- A schedule is valid and fires from an instant on, be it that it is an interval or that its cron expression
has a match. -/
def Schedule.Fires (s : Schedule) (instant : Int) : Prop :=
  match s.kind with
  | .interval => ∃ length, Interval.read s.expression = .ok length
  | .cron => ∃ cron first, Cron.read s.expression s.timezone = .ok cron ∧
      cron.next? (Cron.secondFrom instant) = some first

/-- A trigger is armed at an instant. -/
def Trigger.Arms (polls : Bool) (instant : Int) (t : Trigger) : Prop :=
  (∃ s, t.source = .schedule s ∧ s.Fires instant) ∨ polls = true ∧ ∃ p, t.source = .condition p

/-- No time leaves the range of times when a schedule starts: an interval ends in the range, and the clock, UTC
and the zone of a cron expression show the times that the search for a match starts and ends with. -/
def Schedule.InRange (now : Moment) (s : Schedule) : Prop :=
  match s.kind with
  | .interval =>
      -- an expression that is no interval is the only fault
      (∀ f, Interval.read s.expression = .error f → ∃ e, f = .schedule e) ∧
        ∀ length, Interval.read s.expression = .ok length → Moment.inRange (now.wall + length) = true
  | .cron => ∀ cron, Cron.read s.expression s.timezone = .ok cron →
      (∃ second, cron.firstSecond now = .ok second) ∧
        ∀ first, cron.next? (Cron.secondFrom now.instant) = some first →
          Moment.inRange (first * microsPerSecond) = true

/-- No time leaves the range of times when a trigger is armed. -/
def Trigger.InRange (polls : Bool) (now : Moment) (t : Trigger) : Prop :=
  match t.source with
  | .schedule s => s.InRange now
  | .condition p => polls = true → p.checkInterval * microsPerMinute ≤ Moment.maxSpan ∧
      Moment.inRange (now.wall + p.checkInterval * microsPerMinute) = true
  | _ => True

/-- No time leaves the range of times when the triggers of a rule are armed. -/
def Rule.InRange (polls : Bool) (now : Moment) (r : Rule) : Prop :=
  ∀ t ∈ r.enabledTriggers, t.InRange polls now

/-- An interval fires at any time, so when a schedule fires is a matter of cron expressions. -/
theorem Schedule.fires_iff {s : Schedule} {instant instant' : Int}
    (h : s.kind = .cron → (s.Fires instant ↔ s.Fires instant')) : s.Fires instant ↔ s.Fires instant' := by
  cases hkind : s.kind with
  | interval =>
      unfold Fires
      rw [hkind]
  | cron => exact h hkind

/-- A time in the range can be told. -/
theorem Moment.add_eq_ok {now : Moment} {length : Int} (h : inRange (now.wall + length) = true) :
    now.add length = .ok { now with wall := now.wall + length } := by
  rw [add, if_pos h]

/-- A unit of time is not empty. -/
theorem Interval.unit_pos {c : Char} {unit : Int} (h : unit? c = some unit) : 0 < unit := by
  unfold unit? at h
  split at h <;> cases h <;> decide

/-- The parts of an interval end with a unit of time. -/
theorem Interval.unit_of_parts {expression : String} {digits : List Char} {unit : Int}
    (h : parts? expression = some (digits, unit)) : 0 < unit := by
  unfold parts? at h
  split at h
  · cases h
  · split at h
    next u hunit =>
      split at h <;> cases h
      exact unit_pos hunit
    next => cases h

/-- An interval that can be read is not empty. -/
theorem Interval.read_pos {expression : String} {length : Int} (h : read expression = .ok length) :
    0 < length := by
  unfold read at h
  split at h
  · cases h
  next hparts =>
    dsimp only at h
    split_ifs at h with hlong hempty hspan
    cases h
    exact Int.mul_pos (Int.not_le.mp hempty) (unit_of_parts hparts)

/-- A clock that shows a later time names a later instant. -/
theorem Moment.instant_later {now : Moment} {length : Int} :
    ({ now with wall := now.wall + length } : Moment).instant = now.instant + length := by
  unfold instant offsetMicros
  dsimp only
  omega

/-- A UTC clock shows the instant. -/
theorem Moment.instant_utc (wall : Int) : (utc wall).instant = wall := by
  simp [instant, offsetMicros, utc]

/-- The search for a match starts at the first whole second, unless a clock cannot show that. -/
theorem Cron.first_second_cases (cron : Cron) (now : Moment) :
    cron.firstSecond now = .ok (secondFrom now.instant) ∨ cron.firstSecond now = .error .outOfRange := by
  unfold firstSecond
  dsimp only
  split
  · exact .inl rfl
  · exact .inr rfl

/-- What the search for a match from a moment on gives is a match that was found. -/
theorem Cron.next_from_eq_some {c : Cron} {m at_ : Moment} (h : c.nextFrom m = .ok (some at_)) :
    ∃ first, c.next? (secondFrom m.instant) = some first ∧ at_ = .utc (first * microsPerSecond) := by
  unfold nextFrom at h
  obtain hstart | hstart := c.first_second_cases m <;> rw [hstart] at h
  · dsimp only [Except.mapError, bind, Except.bind] at h
    split at h
    · cases h
    next first hnext =>
      split at h <;> cases h
      exact ⟨first, hnext, rfl⟩
  · cases h

namespace Scheduler

variable {s : Scheduler} {j : Job} {key : String × String}

/-- The rules and triggers of the jobs. -/
def keys (s : Scheduler) : List (String × String) := s.jobs.map Job.key

/-- Arming a job adds its key. -/
theorem mem_keys_arm_iff : key ∈ (s.arm j).1.keys ↔ key ∈ s.keys ∨ key = j.key := by
  unfold arm keys
  simp only [List.map_append, List.mem_append, List.mem_map, List.mem_filter, List.map_cons, List.map_nil,
    List.mem_singleton]
  by_cases hkey : key = j.key
  · simp [hkey]
  · refine or_congr_left ⟨?_, ?_⟩
    · rintro ⟨k, hk, h⟩
      exact ⟨k, hk.1, h⟩
    · rintro ⟨k, hk, h⟩
      refine ⟨k, ⟨hk, ?_⟩, h⟩
      simpa [h] using hkey

/-- Arming a job keeps the keys distinct. -/
theorem keys_arm_nodup (h : s.keys.Nodup) (j : Job) : (s.arm j).1.keys.Nodup :=
  Keyed.nodup_replace h j

/-- Taking away the jobs of a rule takes its keys away. -/
theorem mem_keys_cancel_rule_iff {ruleId : String} :
    key ∈ (s.cancelRule ruleId).1.keys ↔ key ∈ s.keys ∧ key.1 ≠ ruleId := by
  unfold cancelRule keys
  simp only [List.mem_map, List.mem_filter, bne_iff_ne]
  constructor
  · rintro ⟨k, ⟨hk, hne⟩, rfl⟩
    exact ⟨⟨k, hk, rfl⟩, hne⟩
  · rintro ⟨⟨k, hk, rfl⟩, hne⟩
    exact ⟨k, ⟨hk, hne⟩, rfl⟩

/-- Taking away the jobs of a rule keeps the keys distinct. -/
theorem keys_cancel_rule_nodup (h : s.keys.Nodup) (ruleId : String) : (s.cancelRule ruleId).1.keys.Nodup :=
  h.sublist (List.filter_sublist.map _)

end Scheduler

namespace Job

variable {ruleId triggerId : String} {s : Schedule} {now : Moment} {j : Job}

/-- The job of a schedule is for the rule and the trigger, and does not poll. -/
theorem use_of_schedule (h : ofSchedule ruleId triggerId s now = .ok j) :
    j.ruleId = ruleId ∧ j.triggerId = triggerId ∧ j.kind ≠ "condition" := by
  unfold ofSchedule at h
  split at h
  · obtain ⟨_, _, h⟩ := Outcome.bind_eq_ok.mp h
    obtain ⟨_, _, h⟩ := Outcome.bind_eq_ok.mp h
    cases h
    exact ⟨rfl, rfl, (by decide : "interval" ≠ "condition")⟩
  · obtain ⟨_, _, h⟩ := Outcome.bind_eq_ok.mp h
    obtain ⟨first, _, h⟩ := Outcome.bind_eq_ok.mp h
    cases first <;> cases h
    exact ⟨rfl, rfl, (by decide : "cron" ≠ "condition")⟩

/-- A cron expression gives its first match from a second on. -/
theorem next_from_cases {cron : Cron} (hstart : ∃ second, cron.firstSecond now = .ok second)
    (hend : ∀ first, cron.next? (Cron.secondFrom now.instant) = some first →
      Moment.inRange (first * microsPerSecond) = true) :
    (∃ first, cron.next? (Cron.secondFrom now.instant) = some first ∧
        cron.nextFrom now = .ok (some (.utc (first * microsPerSecond)))) ∨
      cron.next? (Cron.secondFrom now.instant) = none ∧ cron.nextFrom now = .ok none := by
  obtain ⟨second, hsecond⟩ := hstart
  obtain h | h := cron.first_second_cases now <;> cases hsecond.symm.trans h
  unfold Cron.nextFrom
  rw [hsecond]
  dsimp only [Except.mapError, bind, Except.bind]
  cases hnext : cron.next? (Cron.secondFrom now.instant) with
  | none => exact .inr ⟨rfl, rfl⟩
  | some first => exact .inl ⟨first, rfl, if_pos (hend first hnext)⟩

/-- A schedule gets a job exactly if it is valid and fires. -/
theorem of_schedule_cases (ruleId triggerId : String) (h : s.InRange now) :
    s.Fires now.instant ∧ (∃ j, ofSchedule ruleId triggerId s now = .ok j) ∨
      ¬s.Fires now.instant ∧ ∃ e, ofSchedule ruleId triggerId s now = .error (.schedule e) := by
  unfold Schedule.InRange at h
  unfold ofSchedule Schedule.Fires
  cases hkind : s.kind with
  | interval =>
      rw [hkind] at h
      obtain ⟨hfault, hadd⟩ := h
      dsimp only
      cases hread : Interval.read s.expression with
      | error f =>
          obtain ⟨e, rfl⟩ := hfault f hread
          exact .inr ⟨nofun, e, rfl⟩
      | ok length =>
          dsimp only [bind, Except.bind]
          rw [Moment.add_eq_ok (hadd length hread)]
          exact .inl ⟨⟨length, rfl⟩, _, rfl⟩
  | cron =>
      rw [hkind] at h
      dsimp only at h ⊢
      cases hread : Cron.read s.expression s.timezone with
      | error e => exact .inr ⟨nofun, e, rfl⟩
      | ok cron =>
          obtain ⟨hstart, hend⟩ := h cron hread
          dsimp only [Except.mapError, bind, Except.bind]
          obtain ⟨first, hnext, hfrom⟩ | ⟨hnext, hfrom⟩ := next_from_cases hstart hend
          · rw [hfrom]
            exact .inl ⟨⟨cron, first, rfl, hnext⟩, _, rfl⟩
          · rw [hfrom]
            refine .inr ⟨?_, _, rfl⟩
            rintro ⟨cron', first, heq, hfirst⟩
            cases heq
            cases hnext.symm.trans hfirst

/-- The job of a condition is for the rule and the trigger, and polls. -/
theorem use_of_polling {minutes : Int} (h : polling ruleId triggerId minutes now = .ok j) :
    j.ruleId = ruleId ∧ j.triggerId = triggerId ∧ j.kind = "condition" := by
  unfold polling at h
  dsimp only at h
  split at h
  · cases h
  · obtain ⟨_, _, h⟩ := Outcome.bind_eq_ok.mp h
    cases h
    exact ⟨rfl, rfl, rfl⟩

/-- A polled condition gets a job for the rule and the trigger. -/
theorem polling_eq_ok {minutes : Int} (hspan : minutes * microsPerMinute ≤ Moment.maxSpan)
    (hadd : Moment.inRange (now.wall + minutes * microsPerMinute) = true) :
    ∃ j, polling ruleId triggerId minutes now = .ok j ∧ j.key = (ruleId, triggerId) := by
  unfold polling
  dsimp only
  rw [if_neg (by omega), Moment.add_eq_ok hadd]
  exact ⟨_, rfl, rfl⟩

end Job

namespace Job

variable {now : Moment} {j next : Job}

/-- A job that goes on has another next slot, or it is out of use; nothing else changes. -/
theorem advance_eq_ok_cases (h : j.advance now = .ok next) :
    (∃ at_, next = { j with nextFireAt := at_ }) ∨ next = j.cancel := by
  unfold advance at h
  split at h
  · obtain ⟨_, _, h⟩ := Outcome.bind_eq_ok.mp h
    obtain ⟨first, _, h⟩ := Outcome.bind_eq_ok.mp h
    cases first <;> cases h
    · exact .inr rfl
    · exact .inl ⟨_, rfl⟩
  · cases h
  · obtain ⟨_, _, h⟩ := Outcome.bind_eq_ok.mp h
    split at h
    · cases h
    · obtain ⟨_, _, h⟩ := Outcome.bind_eq_ok.mp h
      cases h
      exact .inl ⟨_, rfl⟩

end Job

namespace Registry

variable {g : Registry} {polls : Bool} {now : Moment} {r : Rule} {t : Trigger} {ruleId : String}
  {key : String × String}

/-- A trigger gets a job exactly if it is armed. -/
theorem job_of_cases (ruleId : String) (h : t.InRange polls now) :
    (∃ j, (jobOf polls now ruleId t).outcome = .ok (some j) ∧ j.key = (ruleId, t.id) ∧
        t.Arms polls now.instant) ∨
      (jobOf polls now ruleId t).outcome = .ok none ∧ ¬t.Arms polls now.instant := by
  unfold Trigger.InRange at h
  unfold jobOf Trigger.Arms
  cases hsource : t.source with
  | schedule s =>
      rw [hsource] at h
      dsimp only at h ⊢
      obtain ⟨hfires, j, hj⟩ | ⟨hfires, e, he⟩ := Job.of_schedule_cases ruleId t.id h
      · rw [hj]
        obtain ⟨hrule, hid, _⟩ := Job.use_of_schedule hj
        exact .inl ⟨j, rfl, Prod.ext hrule hid, .inl ⟨s, rfl, hfires⟩⟩
      · rw [he]
        refine .inr ⟨rfl, ?_⟩
        rintro (⟨s', heq, hfires'⟩ | ⟨_, p, heq⟩)
        · cases heq
          exact hfires hfires'
        · cases heq
  | condition p =>
      rw [hsource] at h
      dsimp only at h ⊢
      cases polls with
      | true =>
          obtain ⟨hspan, hadd⟩ := h rfl
          obtain ⟨j, hj, hkey⟩ : ∃ j, Job.polling ruleId t.id p.checkInterval now = .ok j ∧ _ :=
            Job.polling_eq_ok hspan hadd
          rw [if_pos rfl, hj]
          exact .inl ⟨j, rfl, hkey, .inr ⟨rfl, p, rfl⟩⟩
      | false => exact .inr ⟨rfl, by simp⟩
  | _ => exact .inr ⟨rfl, by simp⟩

/-- Arming triggers adds the keys of those that are armed, and it does not fail. -/
theorem arm_cases (triggers : List Trigger) (s : Scheduler) (h : ∀ t ∈ triggers, t.InRange polls now) :
    (∀ key, key ∈ (arm polls now ruleId triggers s).1.keys ↔
        key ∈ s.keys ∨ ∃ t ∈ triggers, key = (ruleId, t.id) ∧ t.Arms polls now.instant) ∧
      (s.keys.Nodup → (arm polls now ruleId triggers s).1.keys.Nodup) ∧
      (arm polls now ruleId triggers s).2.outcome = .ok () := by
  -- by induction on the triggers, for all schedulers: a job that is armed changes the scheduler
  induction triggers generalizing s with
  | nil => exact ⟨fun key => by simp [arm], id, rfl⟩
  | cons t triggers ih =>
      obtain ⟨ht, hrest⟩ := List.forall_mem_cons.mp h
      unfold arm
      dsimp only
      obtain ⟨j, hj, hkey, harms⟩ | ⟨hnone, harms⟩ := job_of_cases ruleId ht
      · rw [hj]
        dsimp only
        obtain ⟨hkeys, hnodup, hok⟩ := ih (s.arm j).1 hrest
        refine ⟨fun key => ?_, fun hs => hnodup (Scheduler.keys_arm_nodup hs j), hok⟩
        rw [hkeys, Scheduler.mem_keys_arm_iff, hkey, List.exists_mem_cons_iff]
        simp only [harms, and_true, or_assoc]
      · rw [hnone]
        dsimp only
        obtain ⟨hkeys, hnodup, hok⟩ := ih s hrest
        refine ⟨fun key => ?_, hnodup, hok⟩
        rw [hkeys, List.exists_mem_cons_iff]
        simp only [harms, and_false, false_or]

/-- Without a rule, the jobs are those of the others. -/
theorem unregister_jobs_iff :
    key ∈ (g.unregister ruleId).scheduler.keys ↔ key ∈ g.scheduler.keys ∧ key.1 ≠ ruleId :=
  Scheduler.mem_keys_cancel_rule_iff

/-- Registering a rule does not fail while no time leaves the range of times. -/
theorem register_eq_ok (h : r.isActive = true → r.InRange polls now) :
    (g.register polls now r).2.outcome = .ok () := by
  unfold register
  dsimp only
  split
  next hactive => exact (arm_cases r.enabledTriggers _ (h hactive)).2.2
  next => rfl

/-- The jobs are those that there were, but of the registered rule those of its armed triggers. -/
theorem register_jobs_iff (h : r.isActive = true → r.InRange polls now) :
    key ∈ (g.register polls now r).1.scheduler.keys ↔ key ∈ g.scheduler.keys ∧ key.1 ≠ r.id ∨
      r.isActive = true ∧ ∃ t ∈ r.enabledTriggers, key = (r.id, t.id) ∧ t.Arms polls now.instant := by
  cases hactive : r.isActive with
  | true =>
      rw [register_of_active hactive]
      dsimp only
      rw [(arm_cases r.enabledTriggers _ (h hactive)).1]
      simpa using or_congr_left unregister_jobs_iff
  | false =>
      rw [register_of_inactive hactive]
      simpa using unregister_jobs_iff

/-- Registering keeps the keys of jobs distinct. -/
theorem register_jobs_nodup (h : r.isActive = true → r.InRange polls now) (hg : g.scheduler.keys.Nodup) :
    (g.register polls now r).1.scheduler.keys.Nodup := by
  have hcancelled := Scheduler.keys_cancel_rule_nodup hg r.id
  cases hactive : r.isActive with
  | true =>
      rw [register_of_active hactive]
      exact (arm_cases r.enabledTriggers _ (h hactive)).2.1 hcancelled
  | false =>
      rw [register_of_inactive hactive]
      exact hcancelled

end Registry

end Rulebook
