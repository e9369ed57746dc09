import Mathlib.Data.List.Induction
import Rulebook.Proofs.Schedule.Slots

/-!
# What is due

Looking for what is due gives each job of the table its turn (`Scheduler.due_eq`), and any other act leaves the jobs
that it spares as they are (`Scheduler.apply_jobs`). So a job that stays armed fires exactly once for all slots that
came since the times before, and never without one (`Scheduler.due_iff_slot`), in whatever order the times come.
-/

namespace Rulebook.Scheduler

/-- What is done to the table. -/
inductive Act where
  /-- A job is armed. -/
  | arm (j : Job)
  /-- The job of a rule and trigger is removed. -/
  | cancel (ruleId triggerId : String)
  /-- The jobs of a rule are removed. -/
  | cancelRule (ruleId : String)
  /-- What is due at a time is looked for. -/
  | due (now : Moment)

namespace Act

/-- The table after an act. -/
def apply (s : Scheduler) : Act → Scheduler
  | arm j => (s.arm j).1
  | cancel ruleId triggerId => (s.cancel ruleId triggerId).1
  | cancelRule ruleId => (s.cancelRule ruleId).1
  | due now => ⟨(s.due now).jobs⟩

/-- An act neither removes nor replaces the job of a rule and trigger. -/
def Spares (key : String × String) : Act → Prop
  | arm j => j.key ≠ key
  | cancel ruleId triggerId => (ruleId, triggerId) ≠ key
  | cancelRule ruleId => ruleId ≠ key.1
  | due _ => True

instance (key : String × String) : ∀ act : Act, Decidable (act.Spares key)
  | arm j => inferInstanceAs (Decidable (j.key ≠ key))
  | cancel ruleId triggerId => inferInstanceAs (Decidable ((ruleId, triggerId) ≠ key))
  | cancelRule ruleId => inferInstanceAs (Decidable (ruleId ≠ key.1))
  | due _ => inferInstanceAs (Decidable True)

/-- The time at which an act looks for what is due. -/
def time? : Act → Option Moment
  | due now => some now
  | _ => none

/-- The job that an act arms. -/
def armed : Act → List Job
  | arm j => [j]
  | _ => []

end Act

/-- The table after acts. -/
def after (s : Scheduler) (acts : List Act) : Scheduler := acts.foldl Act.apply s

/-- The times at which acts look for what is due. -/
def times (acts : List Act) : List Moment := acts.filterMap Act.time?

variable {s : Scheduler} {now : Moment} {j : Job} {key : String × String} {acts : List Act} {act : Act}

/-- After one more act. -/
theorem after_concat : s.after (acts ++ [act]) = act.apply (s.after acts) := by
  unfold after
  rw [List.foldl_append]
  rfl

/-! ### Turns -/

/-- Jobs take their turns one after another while no time leaves the range of times. -/
theorem advance_due_eq {jobs : List Job} (h : ∀ j ∈ jobs, j.InRange now) :
    (advanceDue now (jobs.map fun j => (j, j.isRipe now))).jobs = jobs.map (fun j => (j.turn now).1) ∧
      (advanceDue now (jobs.map fun j => (j, j.isRipe now))).due =
        .ok (jobs.filterMap fun j => (j.turn now).2) := by
  induction jobs with
  | nil => exact ⟨rfl, rfl⟩
  | cons j jobs ih =>
      obtain ⟨hj, hrest⟩ := List.forall_mem_cons.mp h
      obtain ⟨hjobs, hdue⟩ := ih hrest
      rw [List.map_cons, List.map_cons, List.filterMap_cons]
      cases hripe : j.isRipe now with
      | false =>
          rw [Job.turn_of_not_ripe hripe]
          exact ⟨congrArg (j :: ·) hjobs, hdue⟩
      | true =>
          rw [advanceDue]
          obtain ⟨next, hok⟩ | ⟨e, herror⟩ := Job.advance_cases hj hripe
          · rw [Job.turn_of_advance hripe hok, hok]
            dsimp only
            rw [hjobs, hdue]
            exact ⟨rfl, rfl⟩
          · have hturn : j.turn now = (j.cancel, none) := by rw [Job.turn, if_pos hripe, herror]
            rw [hturn, herror]
            exact ⟨congrArg (j.cancel :: ·) hjobs, hdue⟩

/-- Looking for what is due gives each job its turn while no time leaves the range of times. -/
theorem due_eq (h : ∀ j ∈ s.jobs, j.InRange now) :
    (s.due now).jobs = s.jobs.map (fun j => (j.turn now).1) ∧
      (s.due now).due = .ok (s.jobs.filterMap fun j => (j.turn now).2) := by
  have hflags : s.jobs.mapM (·.isDue now) = .ok (s.jobs.map fun j => j.isRipe now) :=
    Outcome.map_eq_ok_of_eq fun j hj => Job.is_due_eq_ok (h j hj)
  have hzip : s.jobs.zip (s.jobs.map fun j => j.isRipe now) = s.jobs.map fun j => (j, j.isRipe now) := by
    rw [← List.zip_map', List.map_id']
  unfold due
  rw [hflags]
  dsimp only
  rw [hzip]
  exact advance_due_eq h

/-- Turns leave the keys of the jobs. -/
theorem keys_turn (jobs : List Job) (now : Moment) :
    (jobs.map fun j => (j.turn now).1).map Job.key = jobs.map Job.key := by
  rw [List.map_map]
  exact List.map_congr_left fun j _ => (j.turn_keeps now).1

/-- The keys of the jobs that fire are those of the jobs whose turn it is. -/
theorem keys_fired (jobs : List Job) (now : Moment) :
    (jobs.filterMap fun j => (j.turn now).2).map Job.key =
      (jobs.filter fun j => (j.turn now).2.isSome).map Job.key := by
  induction jobs with
  | nil => rfl
  | cons j jobs ih =>
      rw [List.filterMap_cons, List.filter_cons]
      cases hfired : (j.turn now).2 with
      | none => exact ih
      | some k =>
          have hkey : k.key = j.key := (congrArg Job.key (Job.fired_of_turn hfired)).trans (j.turn_keeps now).1
          exact congrArg₂ List.cons hkey ih

/-- A job of a table in which keys are distinct is among those that fire exactly if it fires. -/
theorem mem_keys_fired_iff {jobs : List Job} (hkeys : (jobs.map Job.key).Nodup) (hj : j ∈ jobs) :
    j.key ∈ (jobs.filterMap fun j => (j.turn now).2).map Job.key ↔ (j.turn now).2.isSome = true := by
  rw [keys_fired, List.mem_map]
  constructor
  · rintro ⟨k, hk, heq⟩
    obtain ⟨hk, hfires⟩ := List.mem_filter.mp hk
    rwa [← List.inj_on_of_nodup_map hkeys hk hj heq]
  · exact fun hfires => ⟨j, List.mem_filter.mpr ⟨hj, hfires⟩, rfl⟩

/-! ### One act -/

/-- An act keeps the jobs that it spares, which take their turns if it looks for what is due, and arms another one at
the end. -/
theorem apply_jobs (hrange : ∀ now ∈ act.time?, ∀ j ∈ s.jobs, j.InRange now) : (act.apply s).jobs =
    (s.jobs.filter fun j => act.Spares j.key).map (·.turned act.time?.toList) ++ act.armed := by
  cases act with
  | arm i =>
      refine congrArg (· ++ [i]) (Eq.trans ?_ (List.map_id _).symm)
      exact List.filter_congr fun j _ =>
        Bool.eq_iff_iff.mpr (bne_iff_ne.trans (ne_comm.trans decide_eq_true_iff.symm))
  | cancel | cancelRule =>
      refine Eq.trans ?_ ((List.append_nil _).trans (List.map_id _)).symm
      exact List.filter_congr fun j _ =>
        Bool.eq_iff_iff.mpr (bne_iff_ne.trans (ne_comm.trans decide_eq_true_iff.symm))
  | due now =>
      refine (due_eq (hrange now rfl)).1.trans (Eq.trans ?_ (List.append_nil _).symm)
      exact congrArg (List.map _) (List.filter_eq_self.mpr fun j _ => decide_eq_true trivial).symm

/-- An act keeps the keys of the jobs distinct. -/
theorem keys_apply_nodup (h : s.keys.Nodup) (hrange : ∀ now ∈ act.time?, ∀ j ∈ s.jobs, j.InRange now) :
    (act.apply s).keys.Nodup := by
  cases act with
  | arm j => exact keys_arm_nodup h j
  | cancel ruleId triggerId => exact h.sublist (List.filter_sublist.map _)
  | cancelRule ruleId => exact keys_cancel_rule_nodup h ruleId
  | due now =>
      show ((s.due now).jobs.map Job.key).Nodup
      rwa [(due_eq (hrange now rfl)).1, keys_turn]

/-! ### A job that stays armed -/

/-- A table that has one job at most for each rule and trigger has the job that was armed as `j`, which stands at
its first slot after some times. -/
structure Holds (j : Job) (ts : List Moment) (s : Scheduler) : Prop where
  distinct : s.keys.Nodup
  stands : ∃ k ∈ s.jobs, j.StandsAfter ts k

/-- No time leaves the range of times when acts look for what is due. -/
def InRange (s : Scheduler) : List Act → Prop
  | [] => True
  | act :: acts => (∀ now ∈ act.time?, ∀ j ∈ s.jobs, j.InRange now) ∧ (act.apply s).InRange acts

instance : ∀ (s : Scheduler) (acts : List Act), Decidable (s.InRange acts)
  | _, [] => inferInstanceAs (Decidable True)
  | s, act :: acts =>
    have := instDecidableInRange (act.apply s) acts
    inferInstanceAs (Decidable ((∀ now ∈ act.time?, ∀ j ∈ s.jobs, j.InRange now) ∧ (act.apply s).InRange acts))

/-- No time leaves the range of times in acts exactly if this is so in the first ones, and then in the others. -/
theorem in_range_append_iff {more : List Act} :
    s.InRange (acts ++ more) ↔ s.InRange acts ∧ (s.after acts).InRange more := by
  induction acts generalizing s with
  | nil => exact (iff_of_eq (true_and _)).symm
  | cons first acts ih =>
      rw [List.cons_append, InRange, InRange, ih, and_assoc]
      rfl

/-- No time leaves the range of times in acts exactly if this is so but for the last one, and then for that. -/
theorem in_range_concat_iff : s.InRange (acts ++ [act]) ↔
    s.InRange acts ∧ ∀ now ∈ act.time?, ∀ j ∈ (s.after acts).jobs, j.InRange now :=
  in_range_append_iff.trans (and_congr_right fun _ => iff_of_eq (and_true _))

/-- One more act may look for what is due at one more time. -/
theorem times_concat : times (acts ++ [act]) = times acts ++ act.time?.toList := by
  unfold times
  rw [List.filterMap_append]
  cases h : act.time? <;> simp [h]

variable {ts : List Moment}

/-- An act that spares a job leaves it standing at its first slot after all times, also that at which the act
looks for what is due. -/
theorem Holds.apply (h : s.Holds j ts) (hready : j.Ready) (hspares : act.Spares j.key)
    (hrange : ∀ now ∈ act.time?, ∀ k ∈ s.jobs, k.InRange now)
    (hfinds : ∀ now ∈ act.time?, j.FindsAfter now) :
    (act.apply s).Holds j (ts ++ act.time?.toList) := by
  obtain ⟨k, hk, hstands⟩ := h.stands
  have hkept : k ∈ s.jobs.filter fun i => act.Spares i.key :=
    List.mem_filter.mpr ⟨hk, decide_eq_true (hstands.key ▸ hspares)⟩
  refine ⟨keys_apply_nodup h.distinct hrange, k.turned act.time?.toList, ?_, ?_⟩
  · rw [apply_jobs hrange]
    exact List.mem_append_left _ (List.mem_map_of_mem hkept)
  · cases htime : act.time? with
    | none =>
        rw [Option.toList_none, List.append_nil]
        exact hstands
    | some now => exact (Job.stands_turn hready hstands (hrange now htime k hk) (hfinds now htime)).1

/-- Acts that spare a job leave it standing at its first slot after all times at which they look for what is
due. -/
theorem after_holds (hkeys : s.keys.Nodup) (hj : j ∈ s.jobs) (hready : j.Ready)
    (hspares : ∀ act ∈ acts, act.Spares j.key) (hrange : s.InRange acts)
    (hfinds : ∀ now ∈ times acts, j.FindsAfter now) : (s.after acts).Holds j (times acts) := by
  -- by induction from the end: what an act needs is said of the table after the acts before it
  induction acts using List.reverseRecOn with
  | nil => exact ⟨hkeys, j, hj, hready.stands⟩
  | append_singleton acts act ih =>
      rw [times_concat] at hfinds ⊢
      obtain ⟨hrange_acts, hrange_act⟩ := in_range_concat_iff.mp hrange
      have hbefore := ih (fun act hact => hspares act (List.mem_append_left _ hact)) hrange_acts
        fun now hnow => hfinds now (List.mem_append_left _ hnow)
      rw [after_concat]
      exact hbefore.apply hready (hspares act (List.mem_append_right _ (List.mem_singleton_self act))) hrange_act
        fun now hnow => hfinds now (List.mem_append_right _ (Option.mem_toList.mpr hnow))

/-- While a job stays armed and no time leaves the range of times, looking for what is due comes out well and
finds each job once at most. It finds the job exactly if one of its slots is not after the time, but after all
times before. Then the job stands at its first slot after all times, or it is out of use and there is none. -/
theorem due_iff_slot {s : Scheduler} {j : Job} {acts : List Act} {now : Moment} (hkeys : s.keys.Nodup)
    (hj : j ∈ s.jobs) (hready : j.Ready) (hspares : ∀ act ∈ acts, act.Spares j.key)
    (hrange : s.InRange (acts ++ [.due now])) (hfinds : ∀ t ∈ times acts ++ [now], j.FindsAfter t) :
    ∃ due, ((s.after acts).due now).due = .ok due ∧ (due.map Job.key).Nodup ∧
      (j.key ∈ due.map Job.key ↔ ∃ x, j.Slot x ∧ (∀ t ∈ times acts, t.instant < x) ∧ x ≤ now.instant) ∧
      ∃ k ∈ ((s.after acts).due now).jobs, k.key = j.key ∧
        (k.cancelled = false ∧
            IsLeast {x | j.Slot x ∧ ∀ t ∈ times acts ++ [now], t.instant < x} k.nextFireAt.instant ∨
          k.cancelled = true ∧ ¬∃ x, j.Slot x ∧ ∀ t ∈ times acts ++ [now], t.instant < x) := by
  obtain ⟨hrange_acts, hrange_now⟩ := in_range_concat_iff.mp hrange
  have hnow : ∀ k ∈ (s.after acts).jobs, k.InRange now := hrange_now now rfl
  have hholds := after_holds hkeys hj hready hspares hrange_acts
    fun t ht => hfinds t (List.mem_append_left _ ht)
  obtain ⟨hjobs, hdue⟩ := due_eq hnow
  obtain ⟨k, hk, hstands⟩ := hholds.stands
  obtain ⟨hturn, hfires⟩ := Job.stands_turn hready hstands (hnow k hk)
    (hfinds now (List.mem_append_right _ (List.mem_singleton_self now)))
  refine ⟨_, hdue, ?_, ?_, (k.turn now).1, ?_, hturn.key, ?_⟩
  · rw [keys_fired]
    exact hholds.distinct.sublist (List.filter_sublist.map _)
  · rw [← hstands.key, mem_keys_fired_iff hholds.distinct hk, hfires]
    exact exists_congr fun x => and_assoc
  · exact hjobs ▸ List.mem_map.mpr ⟨k, hk, rfl⟩
  · refine hturn.next.imp_right fun hnone => ⟨hnone.1, ?_⟩
    rintro ⟨x, hx⟩
    exact Set.eq_empty_iff_forall_notMem.mp hnone.2 x hx

/-- The cron expression that matches every minute in UTC. -/
def everyMinute : Cron := ⟨[.every none], [.every none], [.every none], [.every none], [.every none], .utc⟩

/-- A second that matches every minute begins a minute. -/
theorem begins_minute {second : Int} (h : everyMinute.Matches second) : second % 60 = 0 := by
  obtain ⟨_, _, term, hterm, hallows⟩ := h .second
  obtain rfl := List.mem_singleton.mp hterm
  obtain ⟨hfirst, hlast, _⟩ := hallows
  have hle := hlast 0 rfl
  have hwall : everyMinute.zone.wallAt second = second := Int.add_zero second
  simp only [ClockReading.value, ClockReading.ofSeconds, hwall] at hfirst hle
  omega

/-- A match within a minute is the first one. -/
theorem finds_minute (second first : Int) (hnext : everyMinute.next? second = some first)
    (hmatches : everyMinute.Matches first) (hfrom : second ≤ first) (hlt : first < second + 60) :
    everyMinute.FindsFrom second := by
  unfold Cron.FindsFrom
  rw [hnext]
  refine ⟨⟨hfrom, hmatches⟩, ?_⟩
  rintro x ⟨hx, hminute⟩
  have := begins_minute hminute
  have := begins_minute hmatches
  omega

/-- A job of an interval of five minutes and one for every minute fire once when slots were missed and the clock
was set back. -/
theorem due_iff_slot_missed :
    let moment (second : Int) := Moment.utc ((62135596800 + second) * microsPerSecond)
    let five : Job := ⟨"rule", "five", "interval", moment 300, some (5 * microsPerMinute), none, false⟩
    let one : Job := ⟨"rule", "one", "cron", moment 60, none, some everyMinute, false⟩
    let acts := [Act.due (moment 630), .cancel "rule" "other", .due (moment 100)]
    ∃ due, ((after ⟨[five, one]⟩ acts).due (moment 930)).due = .ok due ∧ (due.map Job.key).Nodup ∧
      ("rule", "five") ∈ due.map Job.key ∧ ("rule", "one") ∈ due.map Job.key := by
  intro moment five one acts
  have hkeys : (Scheduler.mk [five, one]).keys.Nodup := by decide
  have hrange : (Scheduler.mk [five, one]).InRange (acts ++ [.due (moment 930)]) := by decide +kernel
  have hspares : ∀ act ∈ acts, act.Spares five.key ∧ act.Spares one.key := by decide
  have hfive := due_iff_slot hkeys List.mem_cons_self (.interval rfl rfl rfl (by decide))
    (fun act hact => (hspares act hact).1) hrange fun _ _ _ h => nomatch h
  have hone := due_iff_slot hkeys (List.mem_cons_of_mem _ List.mem_cons_self)
    (.cron rfl rfl (Moment.instant_utc _) (by decide +kernel)) (fun act hact => (hspares act hact).2) hrange
    fun t ht cron hcron => by
      cases hcron
      have ht : t ∈ [moment 630, moment 100, moment 930] := ht
      simp only [List.mem_cons, List.not_mem_nil, or_false] at ht
      obtain rfl | rfl | rfl := ht
      · have hfinds := finds_minute 62135597431 62135597460 (by decide +kernel) (by decide +kernel) (by decide) (by decide)
        rwa [show Cron.secondFrom ((moment 630).instant + 1) = 62135597431 by decide +kernel]
      · have hfinds := finds_minute 62135596901 62135596920 (by decide +kernel) (by decide +kernel) (by decide) (by decide)
        rwa [show Cron.secondFrom ((moment 100).instant + 1) = 62135596901 by decide +kernel]
      · have hfinds := finds_minute 62135597731 62135597760 (by decide +kernel) (by decide +kernel) (by decide) (by decide)
        rwa [show Cron.secondFrom ((moment 930).instant + 1) = 62135597731 by decide +kernel]
  obtain ⟨due, hdue, hnodup, hfires, _⟩ := hfive
  obtain ⟨due', hdue', _, hfires', _⟩ := hone
  obtain rfl := Except.ok.inj (hdue.symm.trans hdue')
  refine ⟨due, hdue, hnodup, hfires.mpr ⟨(moment 900).instant, ?_, by decide, by decide⟩,
    hfires'.mpr ⟨(moment 900).instant, ?_, by decide, by decide⟩⟩
  · exact ⟨2, by decide⟩
  · exact ⟨by decide, 62135596800 + 900, by decide, by decide +kernel⟩

end Rulebook.Scheduler
