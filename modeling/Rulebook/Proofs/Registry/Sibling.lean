import Mathlib.Data.List.Pairwise
import Rulebook.Proofs.Engine.Act
import Rulebook.Proofs.Registry.Jobs

/-!
# Triggers of one identifier

A trigger that is armed is meant to have a job (`Trigger.Plans`). The jobs are armed one after another, and one takes
the place of another under its key, the rule and the identifier of the trigger, which nothing keeps from being that
of two triggers. So the last trigger of each identifier has its job, and the others have none: there are as many
jobs as there are armed triggers exactly if these have distinct identifiers (`Registry.own_jobs_iff`).
-/

namespace Rulebook

/-- The job that a trigger is meant to have from a moment on. -/
inductive Trigger.Plans (polls : Bool) (now : Moment) (ruleId : String) (t : Trigger) : Job → Prop where
  /-- It fires when its interval has passed. -/
  | interval {s : Schedule} {length : Int} : t.source = .schedule s → s.kind = .interval →
      Interval.read s.expression = .ok length →
      Plans polls now ruleId t
        ⟨ruleId, t.id, "interval", { now with wall := now.wall + length }, some length, none, false⟩
  /-- It fires at the first match of its cron expression. -/
  | cron {s : Schedule} {cron : Cron} {first : Int} : t.source = .schedule s → s.kind = .cron →
      Cron.read s.expression s.timezone = .ok cron → cron.next? (Cron.secondFrom now.instant) = some first →
      Plans polls now ruleId t
        ⟨ruleId, t.id, "cron", .utc (first * microsPerSecond), none, some cron, false⟩
  /-- It polls a condition when the time between two polls has passed. -/
  | condition {p : Polling} : polls = true → t.source = .condition p →
      Plans polls now ruleId t
        ⟨ruleId, t.id, "condition", { now with wall := now.wall + p.checkInterval * microsPerMinute },
          some (p.checkInterval * microsPerMinute), none, false⟩

/-- Whether a schedule fires can be told. -/
instance (s : Schedule) (instant : Int) : Decidable (s.Fires instant) :=
  decidable_of_iff
    ((match s.kind with
      | .interval => (Interval.read s.expression).toOption.isSome
      | .cron => ((Cron.read s.expression s.timezone).toOption.bind fun cron =>
          cron.next? (Cron.secondFrom instant)).isSome) = true) <| by
    unfold Schedule.Fires
    cases s.kind with
    | interval => cases Interval.read s.expression <;> simp [Except.toOption]
    | cron => cases Cron.read s.expression s.timezone <;> simp [Except.toOption, Option.isSome_iff_exists]

/-- Whether a trigger is armed can be told. -/
instance (polls : Bool) (instant : Int) (t : Trigger) : Decidable (t.Arms polls instant) :=
  decidable_of_iff
    ((match t.source with
      | .schedule s => decide (s.Fires instant)
      | .condition _ => polls
      | _ => false) = true) <| by
    unfold Trigger.Arms
    cases t.source <;> simp

/-- The triggers of a rule that are armed at an instant. -/
def Rule.armed (r : Rule) (polls : Bool) (instant : Int) : List Trigger :=
  r.enabledTriggers.filter (·.Arms polls instant)

/-- A job that a trigger is meant to have is in use, under the rule and the trigger. -/
theorem Trigger.Plans.live {polls : Bool} {now : Moment} {ruleId : String} {t : Trigger} {j : Job}
    (h : t.Plans polls now ruleId j) : j.key = (ruleId, t.id) ∧ j.cancelled = false := by
  cases h <;> exact ⟨rfl, rfl⟩

/-- A later time that can be told is shown by the same clock. -/
theorem Moment.eq_of_add {now next : Moment} {length : Int} (h : now.add length = .ok next) :
    next = { now with wall := now.wall + length } := by
  unfold add at h
  split at h <;> cases h
  rfl

namespace Scheduler

/-- Arming one job after another leaves the last one of each key, behind the jobs of other keys. -/
theorem arm_all (js : List Job) (s : Scheduler) :
    (js.foldl (fun s j => (s.arm j).1) s).jobs =
      s.jobs.filter (fun k => k.key ∉ js.map Job.key) ++ js.pwFilter (·.key ≠ ·.key) := by
  induction js generalizing s with
  | nil => simp
  | cons j js ih =>
      have hlast : (∀ k ∈ js.pwFilter (·.key ≠ ·.key), j.key ≠ k.key) ↔ j.key ∉ js.map Job.key := by
        rw [List.forall_mem_pwFilter fun {a b c} h => ?_]
        · simp [eq_comm]
        · by_contra hsame
          push Not at hsame
          exact h (hsame.1.trans hsame.2)
      have hothers : ∀ k : Job, (decide (k.key ∉ js.map Job.key) && k.key != j.key) =
          decide (k.key ∉ (j :: js).map Job.key) := fun k => by
        simp [Bool.and_comm, bne, Bool.beq_eq_decide_eq]
      rw [List.foldl_cons, ih, arm, List.filter_append, List.filter_filter, List.append_assoc]
      simp only [hothers]
      congr 1
      by_cases hj : j.key ∈ js.map Job.key
      · rw [List.pwFilter_cons_of_neg (hlast.not.mpr (not_not.mpr hj)), List.filter_cons_of_neg (by simpa using hj)]
        rfl
      · rw [List.pwFilter_cons_of_pos (hlast.mpr hj), List.filter_cons_of_pos (by simpa using hj)]
        rfl

end Scheduler

namespace Job

variable {polls : Bool} {now : Moment} {ruleId : String} {t : Trigger} {j : Job}

/-- The job of a schedule is the one that the trigger is meant to have. -/
theorem plans_of_schedule {s : Schedule} (hsource : t.source = .schedule s)
    (h : ofSchedule ruleId t.id s now = .ok j) : t.Plans polls now ruleId j := by
  unfold ofSchedule at h
  split at h
  next hkind =>
    obtain ⟨length, hlength, h⟩ := Outcome.bind_eq_ok.mp h
    obtain ⟨next, hnext, h⟩ := Outcome.bind_eq_ok.mp h
    cases h
    obtain rfl := Moment.eq_of_add (Outcome.map_error_eq_ok.mp hnext)
    exact .interval hsource hkind hlength
  next hkind =>
    obtain ⟨cron, hcron, h⟩ := Outcome.bind_eq_ok.mp h
    obtain ⟨next, hnext, h⟩ := Outcome.bind_eq_ok.mp h
    cases next with
    | none => cases h
    | some next =>
        cases h
        obtain ⟨first, hfirst, rfl⟩ := Cron.next_from_eq_some hnext
        exact .cron hsource hkind (Outcome.map_error_eq_ok.mp hcron) hfirst

/-- The job that polls a condition is the one that the trigger is meant to have. -/
theorem plans_of_polling {p : Polling} (hpolls : polls = true) (hsource : t.source = .condition p)
    (h : polling ruleId t.id p.checkInterval now = .ok j) : t.Plans polls now ruleId j := by
  unfold polling at h
  dsimp only at h
  split at h
  · cases h
  · obtain ⟨next, hnext, h⟩ := Outcome.bind_eq_ok.mp h
    cases h
    obtain rfl := Moment.eq_of_add (Outcome.map_error_eq_ok.mp hnext)
    exact .condition hpolls hsource

end Job

namespace Registry

variable {g : Registry} {polls : Bool} {now : Moment} {r : Rule} {t : Trigger} {ruleId : String} {j : Job}

/-- The job of a trigger is the one that it is meant to have. -/
theorem plans_of_job (h : (jobOf polls now ruleId t).outcome = .ok (some j)) : t.Plans polls now ruleId j := by
  unfold jobOf at h
  split at h
  next s hsource =>
    split at h
    next k hk =>
      cases h
      exact Job.plans_of_schedule hsource hk
    next => cases h
    next => cases h
  next p hsource =>
    split at h
    next hpolls =>
      obtain ⟨k, hk, hkj⟩ := Outcome.map_eq_ok.mp h
      cases hkj
      exact Job.plans_of_polling hpolls hsource hk
    next => cases h
  next => cases h

/-- Arming triggers arms the jobs that those of them that are armed are meant to have, one after another. -/
theorem arm_eq_all (ruleId : String) (triggers : List Trigger) (s : Scheduler)
    (h : ∀ t ∈ triggers, t.InRange polls now) :
    ∃ planned, List.Forall₂ (fun t j => t.Plans polls now ruleId j)
        (triggers.filter (·.Arms polls now.instant)) planned ∧
      (arm polls now ruleId triggers s).1 = planned.foldl (fun s j => (s.arm j).1) s := by
  induction triggers generalizing s with
  | nil => exact ⟨[], .nil, rfl⟩
  | cons t triggers ih =>
      obtain ⟨ht, hrest⟩ := List.forall_mem_cons.mp h
      unfold arm
      dsimp only
      obtain ⟨j, hj, _, harms⟩ | ⟨hnone, harms⟩ := job_of_cases ruleId ht
      · obtain ⟨planned, hplanned, hall⟩ := ih (s.arm j).1 hrest
        rw [hj, List.filter_cons_of_pos (by simpa using harms)]
        exact ⟨j :: planned, .cons (plans_of_job hj) hplanned, hall⟩
      · obtain ⟨planned, hplanned, hall⟩ := ih s hrest
        rw [hnone, List.filter_cons_of_neg (by simpa using harms)]
        exact ⟨planned, hplanned, hall⟩

/-- Jobs that triggers are meant to have stand under the identifiers of these. -/
theorem keys_of_plans {triggers : List Trigger} {planned : List Job}
    (h : List.Forall₂ (fun t j => t.Plans polls now ruleId j) triggers planned) :
    planned.map Job.key = triggers.map fun t => (ruleId, t.id) := by
  induction h with
  | nil => rfl
  | cons hj _ ih => rw [List.map_cons, List.map_cons, hj.live.1, ih]

/-- Jobs that triggers are meant to have belong to their rule. -/
theorem rule_of_plans {triggers : List Trigger} {planned : List Job}
    (h : List.Forall₂ (fun t j => t.Plans polls now ruleId j) triggers planned) (hj : j ∈ planned) :
    j.ruleId = ruleId := by
  have hmem := keys_of_plans h ▸ List.mem_map_of_mem (f := Job.key) hj
  obtain ⟨_, _, hkey⟩ := List.mem_map.mp hmem
  exact (congrArg Prod.fst hkey).symm

/-- Jobs that triggers are meant to have stand under different keys exactly if the triggers have distinct
identifiers. -/
theorem keys_distinct_iff {triggers : List Trigger} {planned : List Job}
    (h : List.Forall₂ (fun t j => t.Plans polls now ruleId j) triggers planned) :
    planned.Pairwise (·.key ≠ ·.key) ↔ (triggers.map (·.id)).Nodup := by
  have hid : Function.Injective fun id : String => (ruleId, id) := fun _ _ heq => congrArg Prod.snd heq
  have hkeys : planned.map Job.key = (triggers.map (·.id)).map fun id => (ruleId, id) := by
    rw [keys_of_plans h, List.map_map]
    rfl
  rw [← List.nodup_map_iff hid, ← hkeys, List.Nodup, List.pairwise_map]

/-- Registering a rule in use leaves the jobs of the others and arms what its triggers are meant to have. -/
theorem register_arms (g : Registry) (hactive : r.isActive = true) (h : r.InRange polls now) :
    ∃ planned, List.Forall₂ (fun t j => t.Plans polls now r.id j) (r.armed polls now.instant) planned ∧
      (g.register polls now r).1.scheduler.jobs =
        g.scheduler.jobs.filter (·.ruleId != r.id) ++ planned.pwFilter (·.key ≠ ·.key) := by
  obtain ⟨planned, hplanned, harm⟩ := arm_eq_all r.id r.enabledTriggers (g.unregister r.id).scheduler h
  refine ⟨planned, hplanned, ?_⟩
  have hothers : (g.unregister r.id).scheduler.jobs = g.scheduler.jobs.filter (·.ruleId != r.id) := rfl
  -- no job of another rule stands under a key of this one
  have hfree : ∀ k ∈ g.scheduler.jobs.filter (·.ruleId != r.id), k.key ∉ planned.map Job.key := by
    intro k hk hkey
    obtain ⟨j, hj, heq⟩ := List.mem_map.mp hkey
    have hne : k.ruleId ≠ r.id := by simpa using (List.mem_filter.mp hk).2
    exact hne ((congrArg Prod.fst heq).symm.trans (rule_of_plans hplanned hj))
  rw [register_of_active hactive]
  dsimp only
  rw [harm, Scheduler.arm_all, hothers, List.filter_eq_self.mpr fun k hk => decide_eq_true (hfree k hk)]

/-- The trigger that starts its rule at an interval. -/
def every (id interval : String) : Trigger := ⟨id, "", true, [], .schedule ⟨.interval, interval, "UTC"⟩⟩

/-- The end of an interval that can be read is in the range of times if the clock can show it. -/
theorem in_range_of_interval {interval : String} {length : Int}
    (hread : (Interval.read interval).toOption = some length) (hend : Moment.inRange (now.wall + length) = true)
    (id : String) : (every id interval).InRange polls now := by
  refine ⟨fun f hf => ?_, fun length' hlength' => ?_⟩
  · rw [show Interval.read interval = .error f from hf] at hread
    cases hread
  · rw [show Interval.read interval = .ok length' from hlength'] at hread
    obtain rfl := Option.some.inj hread
    exact hend

end Registry

end Rulebook
