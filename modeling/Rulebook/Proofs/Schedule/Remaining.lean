import Rulebook.Proofs.Schedule.Ticks

/-!
# Which jobs remain

Acts on a table without jobs leave those in it that they armed and neither replaced nor removed since
(`Scheduler.Remains`), each after its turns at the times of since (`Job.turned`). The others were given back out of
use when they left. What is due is found among the jobs that remain and have not had their last turn, whatever the
other jobs are like (`Scheduler.acts_accounted`).
-/

namespace Rulebook

/-! ### Turns at several times -/

namespace Job

/-- A job has a schedule to go on by. -/
def HasSchedule (j : Job) : Prop := j.cron ≠ none ∨ j.interval ≠ none

/-- The turn of a job at a time is its last one: it is ripe, but it has no schedule, or its cron expression has no
match after the time. -/
def EndsAt (j : Job) (now : Moment) : Prop :=
  j.isRipe now = true ∧
    (¬j.HasSchedule ∨ ∃ cron, j.cron = some cron ∧ cron.next? (Cron.secondFrom (now.instant + 1)) = none)

/-- A job had its last turn at one of some times. -/
def Ended (j : Job) (times : List Moment) : Prop :=
  ∃ earlier now, earlier ++ [now] <+: times ∧ (j.turned earlier).EndsAt now

variable {j k : Job} {now : Moment} {times : List Moment}

/-- A job after one more turn. -/
theorem turned_concat : j.turned (times ++ [now]) = ((j.turned times).turn now).1 := by
  unfold turned
  rw [List.foldl_append]
  rfl

/-- After its turns a job is the same but for its next slot and its use. -/
theorem turned_keeps (j : Job) (times : List Moment) : (j.turned times).key = j.key ∧
    (j.turned times).cron = j.cron ∧ (j.turned times).interval = j.interval := by
  induction times using List.reverseRecOn with
  | nil => exact ⟨rfl, rfl, rfl⟩
  | append_singleton times now ih =>
      obtain ⟨hkey, hcron, hinterval⟩ := (j.turned times).turn_keeps now
      rw [turned_concat]
      exact ⟨hkey.trans ih.1, hcron.trans ih.2.1, hinterval.trans ih.2.2⟩

/-- Turns leave a job its schedule. -/
theorem has_schedule_turned_iff : (j.turned times).HasSchedule ↔ j.HasSchedule := by
  obtain ⟨_, hcron, hinterval⟩ := j.turned_keeps times
  unfold HasSchedule
  rw [hcron, hinterval]

/-- A job had no last turn before any time. -/
theorem not_ended_nil : ¬j.Ended [] := by
  rintro ⟨earlier, now, hprefix, _⟩
  exact List.append_ne_nil_of_right_ne_nil _ (List.cons_ne_nil _ _) (List.prefix_nil.mp hprefix)

/-- A job had its last turn by one more time if it had it before or has it then. -/
theorem ended_concat_iff : j.Ended (times ++ [now]) ↔ j.Ended times ∨ (j.turned times).EndsAt now := by
  constructor
  · rintro ⟨earlier, t, hprefix, hends⟩
    obtain heq | hprefix := List.prefix_concat_iff.mp hprefix
    · obtain ⟨rfl, hlast⟩ := List.append_inj' heq rfl
      obtain rfl := List.singleton_inj.mp hlast
      exact .inr hends
    · exact .inl ⟨earlier, t, hprefix, hends⟩
  · rintro (⟨earlier, t, hprefix, hends⟩ | hends)
    · exact ⟨earlier, t, hprefix.trans (List.prefix_append ..), hends⟩
    · exact ⟨times, now, List.prefix_refl _, hends⟩

/-- A job that goes on by an interval has no last turn. -/
theorem not_ended_of_interval {interval : Int} (hcron : j.cron = none) (hinterval : j.interval = some interval) :
    ¬j.Ended times := by
  rintro ⟨earlier, now, -, -, hnone | ⟨cron, hsome, -⟩⟩
  · exact hnone (has_schedule_turned_iff.mpr (.inr (by simp [hinterval])))
  · cases (hcron.symm.trans (j.turned_keeps earlier).2.1.symm).trans hsome

/-- A job fires if it is ripe and goes on. -/
theorem turn_fires_iff : (j.turn now).2 = some k ↔ j.isRipe now = true ∧ j.advance now = .ok k := by
  unfold turn
  split <;> rename_i hripe
  · split
    next next hok => simp [hripe, hok]
    next f herror => simp [herror]
  · simp [hripe]

/-- While no time leaves the range of times, a ripe job goes on exactly if it has a schedule. -/
theorem goes_on_iff (h : j.InRange now) (hripe : j.isRipe now = true) :
    (∃ next, j.advance now = .ok next) ↔ j.HasSchedule := by
  cases hcron : j.cron with
  | some cron =>
      refine iff_of_true ?_ (.inl (by simp [hcron]))
      obtain ⟨_, _, hok⟩ | ⟨_, hok⟩ := advance_of_cron hcron h hripe <;> exact ⟨_, hok⟩
  | none =>
      cases hinterval : j.interval with
      | some interval =>
          exact iff_of_true ⟨_, advance_of_interval hcron hinterval h hripe⟩ (.inr (by simp [hinterval]))
      | none =>
          rw [advance_of_none hcron hinterval]
          exact iff_of_false (fun ⟨_, hok⟩ => nomatch hok) (by simp [HasSchedule, hcron, hinterval])

/-- While no time leaves the range of times, a job is out of use after its turn exactly if it was before or the turn
was its last one. -/
theorem cancelled_turn_iff (h : j.InRange now) :
    (j.turn now).1.cancelled = true ↔ j.cancelled = true ∨ j.EndsAt now := by
  cases hripe : j.isRipe now with
  | false =>
      rw [turn_of_not_ripe hripe]
      simp [EndsAt, hripe]
  | true =>
      have hused : j.cancelled = false := (is_ripe_iff.mp hripe).1
      cases hcron : j.cron with
      | some cron =>
          obtain ⟨first, hnext, hok⟩ | ⟨hnext, hok⟩ := advance_of_cron hcron h hripe
          · rw [turn_of_advance hripe hok]
            simp [EndsAt, HasSchedule, hripe, hused, hcron, hnext]
          · rw [turn_of_advance hripe hok]
            simp [EndsAt, hripe, hcron, hnext, cancel]
      | none =>
          cases hinterval : j.interval with
          | some interval =>
              rw [turn_of_advance hripe (advance_of_interval hcron hinterval h hripe)]
              simp [EndsAt, HasSchedule, hused, hcron, hinterval]
          | none =>
              rw [turn, if_pos hripe, advance_of_none hcron hinterval]
              simp [EndsAt, HasSchedule, hripe, hcron, hinterval, cancel]

end Job

namespace Scheduler

/-! ### One act -/

/-- The jobs that an act takes from the table, as it gives them back. -/
def Act.givenBack (s : Scheduler) : Act → List Job
  | arm j => (s.arm j).2.toList
  | cancel ruleId triggerId => (s.cancel ruleId triggerId).2.toList
  | cancelRule ruleId => (s.cancelRule ruleId).2
  | due _ => []

variable {s : Scheduler} {j k : Job} {now : Moment} {acts since : List Act} {act : Act}

/-- An act gives back out of use what it does not spare. -/
theorem mem_given_back_iff (h : s.keys.Nodup) :
    k ∈ act.givenBack s ↔ ∃ j ∈ s.jobs, ¬act.Spares j.key ∧ k = j.cancel := by
  have hfound : ∀ key, k ∈ ((s.jobs.find? (·.key == key)).map Job.cancel).toList ↔
      ∃ j ∈ s.jobs, ¬key ≠ j.key ∧ k = j.cancel := fun key => by
    rw [Option.mem_toList, Option.map_eq_some_iff]
    refine exists_congr fun j => ?_
    rw [Keyed.find_eq_some_iff h, and_assoc, not_not, eq_comm (a := j.key), eq_comm (a := j.cancel)]
  cases act with
  | arm i => exact hfound i.key
  | cancel ruleId triggerId => exact hfound (ruleId, triggerId)
  | cancelRule ruleId =>
      show k ∈ (s.jobs.filter (·.ruleId == ruleId)).map Job.cancel ↔
        ∃ j ∈ s.jobs, ¬ruleId ≠ j.ruleId ∧ k = j.cancel
      rw [List.mem_map]
      refine exists_congr fun j => ?_
      rw [List.mem_filter, beq_iff_eq, and_assoc, not_not, eq_comm (a := j.ruleId), eq_comm (a := j.cancel)]
  | due now => exact iff_of_false List.not_mem_nil fun ⟨_, _, h, _⟩ => h trivial

/-! ### All acts -/

/-- Of some acts one armed a job, and none since replaced or removed it. -/
def Remains (acts : List Act) (j : Job) (since : List Act) : Prop :=
  .arm j :: since <:+ acts ∧ ∀ act ∈ since, act.Spares j.key

/-- Of some acts one replaced or removed a job that remained until then, and gave it back out of use. -/
def Leaves (acts : List Act) (j : Job) (since : List Act) : Prop :=
  ∃ before mid act later, acts = before ++ act :: later ∧ since = mid ++ act :: later ∧ Remains before j mid ∧
    ¬act.Spares j.key ∧ (j.turned (times mid)).cancel ∈ act.givenBack (empty.after before)

/-- A job that remains awaits a time: it was armed in use, had no last turn, has a schedule to go on by, and its next
slot is not after the time. -/
structure Awaits (acts : List Act) (j : Job) (since : List Act) (now : Moment) : Prop where
  remains : Remains acts j since
  used : j.cancelled = false
  goesOn : ¬j.Ended (times since)
  hasSchedule : j.HasSchedule
  isDue : (j.turned (times since)).nextFireAt.instant ≤ now.instant

/-- What becomes of the jobs that acts on a table without jobs arm. -/
structure Accounted (acts : List Act) : Prop where
  /-- The table holds one job at most for each rule and trigger. -/
  distinct : (empty.after acts).keys.Nodup
  /-- It holds the jobs that remain, each after its turns. -/
  held : ∀ k, k ∈ (empty.after acts).jobs ↔ ∃ j since, Remains acts j since ∧ k = j.turned (times since)
  /-- Every job that was armed remains, or it left out of use. -/
  armed : ∀ j since, .arm j :: since <:+ acts → Remains acts j since ∨ Leaves acts j since
  /-- A job that remains is out of use exactly if it was armed so or had its last turn. -/
  marked : ∀ j since, Remains acts j since →
    ((j.turned (times since)).cancelled = true ↔ j.cancelled = true ∨ j.Ended (times since))
  /-- Looking for what is due comes out well and finds just the jobs that await the time, going on. -/
  found : ∀ before now later, acts = before ++ .due now :: later →
    ∃ due, ((empty.after before).due now).due = .ok due ∧ (due.map Job.key).Nodup ∧
      (∀ j since, Awaits before j since now → ∃ k ∈ due, (j.turned (times since)).advance now = .ok k) ∧
      ∀ k ∈ due, ∃ j since, Awaits before j since now ∧ (j.turned (times since)).advance now = .ok k

/-- A job was armed by the last of some acts, or by one of those before it. -/
theorem armed_concat_iff : .arm j :: since <:+ acts ++ [act] ↔
    act = .arm j ∧ since = [] ∨ ∃ mid, since = mid ++ [act] ∧ .arm j :: mid <:+ acts := by
  rw [List.suffix_concat_iff]
  constructor
  · rintro (h | ⟨_ | ⟨first, mid⟩, heq, hsuffix⟩)
    · cases h
    · obtain ⟨rfl, rfl⟩ := List.cons.inj heq
      exact .inl ⟨rfl, rfl⟩
    · obtain ⟨rfl, rfl⟩ := List.cons.inj heq
      exact .inr ⟨mid, rfl, hsuffix⟩
  · rintro (⟨rfl, rfl⟩ | ⟨mid, rfl, hsuffix⟩)
    · exact .inr ⟨[], rfl, List.nil_suffix⟩
    · exact .inr ⟨_, rfl, hsuffix⟩

/-- After one more act, what remains is the job that it arms and what it spares. -/
theorem remains_concat_iff : Remains (acts ++ [act]) j since ↔
    act = .arm j ∧ since = [] ∨ ∃ mid, since = mid ++ [act] ∧ Remains acts j mid ∧ act.Spares j.key := by
  unfold Remains
  rw [armed_concat_iff]
  constructor
  · rintro ⟨⟨rfl, rfl⟩ | ⟨mid, rfl, harmed⟩, hspares⟩
    · exact .inl ⟨rfl, rfl⟩
    · obtain ⟨hmid, hact⟩ := List.forall_mem_append.mp hspares
      exact .inr ⟨mid, rfl, ⟨harmed, hmid⟩, hact act (List.mem_singleton_self act)⟩
  · rintro (⟨rfl, rfl⟩ | ⟨mid, rfl, ⟨harmed, hmid⟩, hact⟩)
    · exact ⟨.inl ⟨rfl, rfl⟩, List.forall_mem_nil _⟩
    · exact ⟨.inr ⟨mid, rfl, harmed⟩, List.forall_mem_append.mpr ⟨hmid, List.forall_mem_singleton.mpr hact⟩⟩

/-- Nothing remains before anything was done. -/
theorem not_remains_nil : ¬Remains [] j since := fun h => nomatch List.suffix_nil.mp h.1

/-- A job that remains after one more act has its turn if this looks for what is due. -/
theorem turned_times_concat : j.turned (times (acts ++ [act])) = (j.turned (times acts)).turned act.time?.toList := by
  rw [times_concat]
  exact List.foldl_append ..

/-- Acts on a table without jobs keep the keys distinct. -/
theorem after_keys_nodup (h : empty.InRange acts) : (empty.after acts).keys.Nodup := by
  induction acts using List.reverseRecOn with
  | nil => exact .nil
  | append_singleton acts act ih =>
      obtain ⟨hacts, hact⟩ := in_range_concat_iff.mp h
      rw [after_concat]
      exact keys_apply_nodup (ih hacts) hact

/-- Acts on a table without jobs leave the jobs that remain in it, each after its turns. -/
theorem mem_after_iff (h : empty.InRange acts) :
    k ∈ (empty.after acts).jobs ↔ ∃ j since, Remains acts j since ∧ k = j.turned (times since) := by
  induction acts using List.reverseRecOn generalizing k with
  | nil => exact iff_of_false List.not_mem_nil fun ⟨_, _, hremains, _⟩ => not_remains_nil hremains
  | append_singleton acts act ih =>
      obtain ⟨hacts, hact⟩ := in_range_concat_iff.mp h
      -- a job of the table is the one that the act arms, or the act spared it
      rw [after_concat, apply_jobs hact, List.mem_append, List.mem_map, or_comm]
      constructor
      · rintro (harmed | ⟨i, hi, rfl⟩)
        · cases act with
          | arm i =>
              obtain rfl := List.mem_singleton.mp harmed
              exact ⟨k, [], remains_concat_iff.mpr (.inl ⟨rfl, rfl⟩), rfl⟩
          | _ => cases harmed
        · obtain ⟨hi, hspares⟩ := List.mem_filter.mp hi
          obtain ⟨j, mid, hremains, rfl⟩ := (ih hacts).mp hi
          rw [(j.turned_keeps _).1] at hspares
          exact ⟨j, mid ++ [act], remains_concat_iff.mpr (.inr ⟨mid, rfl, hremains, of_decide_eq_true hspares⟩),
            turned_times_concat.symm⟩
      · rintro ⟨j, since, hremains, rfl⟩
        obtain ⟨rfl, rfl⟩ | ⟨mid, rfl, hmid, hspares⟩ := remains_concat_iff.mp hremains
        · exact .inl (List.mem_singleton_self j)
        · rw [← (j.turned_keeps (times mid)).1] at hspares
          exact .inr ⟨_, List.mem_filter.mpr ⟨(ih hacts).mpr ⟨j, mid, hmid, rfl⟩, decide_eq_true hspares⟩,
            turned_times_concat.symm⟩

/-- A job that remains is out of use exactly if it was armed so or had its last turn. -/
theorem cancelled_iff_ended (h : empty.InRange acts) (hremains : Remains acts j since) :
    (j.turned (times since)).cancelled = true ↔ j.cancelled = true ∨ j.Ended (times since) := by
  induction acts using List.reverseRecOn generalizing since with
  | nil => exact absurd hremains not_remains_nil
  | append_singleton acts act ih =>
      obtain ⟨hacts, hact⟩ := in_range_concat_iff.mp h
      obtain ⟨rfl, rfl⟩ | ⟨mid, rfl, hmid, -⟩ := remains_concat_iff.mp hremains
      · exact (or_iff_left Job.not_ended_nil).symm
      · -- there is one more turn only if the act looks for what is due
        rw [times_concat]
        cases htime : act.time? with
        | none =>
            rw [Option.toList_none, List.append_nil]
            exact ih hacts hmid
        | some now =>
            have hrange := hact now htime _ ((mem_after_iff hacts).mpr ⟨j, mid, hmid, rfl⟩)
            rw [Option.toList_some, Job.turned_concat, Job.cancelled_turn_iff hrange, ih hacts hmid,
              Job.ended_concat_iff, or_assoc]

/-- Every job that was armed remains, or it left out of use. -/
theorem remains_or_leaves (h : empty.InRange acts) (harmed : .arm j :: since <:+ acts) :
    Remains acts j since ∨ Leaves acts j since := by
  induction acts using List.reverseRecOn generalizing since with
  | nil => cases List.suffix_nil.mp harmed
  | append_singleton acts act ih =>
      obtain ⟨hacts, -⟩ := in_range_concat_iff.mp h
      obtain ⟨rfl, rfl⟩ | ⟨mid, rfl, hbefore⟩ := armed_concat_iff.mp harmed
      · exact .inl (remains_concat_iff.mpr (.inl ⟨rfl, rfl⟩))
      · obtain hmid | ⟨before, mid, gone, later, rfl, rfl, hleaves⟩ := ih hacts hbefore
        · by_cases hspares : act.Spares j.key
          · exact .inl (remains_concat_iff.mpr (.inr ⟨mid, rfl, hmid, hspares⟩))
          · -- it is in the table until this act, which gives it back
            have hheld := (mem_after_iff hacts).mpr ⟨j, mid, hmid, rfl⟩
            refine .inr ⟨acts, mid, act, [], rfl, rfl, hmid, hspares, ?_⟩
            refine (mem_given_back_iff (after_keys_nodup hacts)).mpr ⟨_, hheld, ?_, rfl⟩
            rwa [(j.turned_keeps _).1]
        · exact .inr ⟨before, mid, gone, later ++ [act], List.append_assoc .., List.append_assoc .., hleaves⟩

/-- A job that remains fires at a time exactly if it awaits it. -/
theorem fires_iff_awaits (h : empty.InRange (acts ++ [.due now])) (hremains : Remains acts j since) :
    (∃ k, ((j.turned (times since)).turn now).2 = some k) ↔ Awaits acts j since now := by
  obtain ⟨hacts, hnow⟩ := in_range_concat_iff.mp h
  have hrange := hnow now rfl _ ((mem_after_iff hacts).mpr ⟨j, since, hremains, rfl⟩)
  have hused : (j.turned (times since)).cancelled = false ↔ j.cancelled = false ∧ ¬j.Ended (times since) := by
    rw [← Bool.not_eq_true, cancelled_iff_ended hacts hremains, not_or, Bool.not_eq_true]
  simp only [Job.turn_fires_iff, exists_and_left]
  constructor
  · rintro ⟨hripe, hok⟩
    obtain ⟨hcancelled, hdue⟩ := Job.is_ripe_iff.mp hripe
    obtain ⟨harmed, hended⟩ := hused.mp hcancelled
    exact ⟨hremains, harmed, hended, Job.has_schedule_turned_iff.mp ((Job.goes_on_iff hrange hripe).mp hok), hdue⟩
  · rintro ⟨-, harmed, hended, hschedule, hdue⟩
    have hripe := Job.is_ripe_iff.mpr ⟨hused.mpr ⟨harmed, hended⟩, hdue⟩
    exact ⟨hripe, (Job.goes_on_iff hrange hripe).mpr (Job.has_schedule_turned_iff.mpr hschedule)⟩

/-- After acts on a table without jobs, looking for what is due comes out well and finds just the jobs that await
the time, going on. -/
theorem due_iff_awaits (h : empty.InRange (acts ++ [.due now])) :
    ∃ due, ((empty.after acts).due now).due = .ok due ∧ (due.map Job.key).Nodup ∧
      (∀ j since, Awaits acts j since now → ∃ k ∈ due, (j.turned (times since)).advance now = .ok k) ∧
      ∀ k ∈ due, ∃ j since, Awaits acts j since now ∧ (j.turned (times since)).advance now = .ok k := by
  obtain ⟨hacts, hnow⟩ := in_range_concat_iff.mp h
  refine ⟨_, (due_eq (hnow now rfl)).2, ?_, fun j since hawaits => ?_, fun k hk => ?_⟩
  · rw [keys_fired]
    exact (after_keys_nodup hacts).sublist (List.filter_sublist.map _)
  · obtain ⟨k, hfires⟩ := (fires_iff_awaits h hawaits.remains).mpr hawaits
    have hheld := (mem_after_iff hacts).mpr ⟨j, since, hawaits.remains, rfl⟩
    exact ⟨k, List.mem_filterMap.mpr ⟨_, hheld, hfires⟩, (Job.turn_fires_iff.mp hfires).2⟩
  · obtain ⟨i, hheld, hfires⟩ := List.mem_filterMap.mp hk
    obtain ⟨j, since, hremains, rfl⟩ := (mem_after_iff hacts).mp hheld
    exact ⟨j, since, (fires_iff_awaits h hremains).mp ⟨k, hfires⟩, (Job.turn_fires_iff.mp hfires).2⟩

/-- While no time leaves the range of times, acts on a table without jobs leave one job at most for each rule and
trigger in it, the one that was armed last and not removed since; the others left out of use. What is due is never a
job that left, that was found without a schedule or whose cron expression has no more matches, and all others that are
due go on, also when one without a schedule is found. -/
theorem acts_accounted (h : empty.InRange acts) : Accounted acts where
  distinct := after_keys_nodup h
  held _ := mem_after_iff h
  armed _ _ := remains_or_leaves h
  marked _ _ := cancelled_iff_ended h
  found before now later heq := by
    rw [heq, ← List.singleton_append, ← List.append_assoc] at h
    exact due_iff_awaits (in_range_append_iff.mp h).1

/-- The cron expression that matches half past noon on the last day of each year in UTC. -/
def yearsEnd : Cron :=
  ⟨[.range 30 (some 30) none], [.range 12 (some 12) none], [.lastDay], [.range 12 (some 12) none], [.every none], .utc⟩

/-- A job without a schedule was found when a cron expression had its last match of all; ten minutes later only the job
that took the place of another one is due. -/
theorem acts_accounted_malformed :
    let moment (minute : Int) := Moment.utc (Moment.endOfTime + (minute - 690) * microsPerMinute)
    let broken : Job := ⟨"a", "t", "interval", moment 0, none, none, false⟩
    let last : Job := ⟨"b", "t", "cron", moment 0, none, some yearsEnd, false⟩
    let old : Job := ⟨"c", "t", "interval", moment 0, some (5 * microsPerMinute), none, false⟩
    let new : Job := ⟨"c", "t", "interval", moment 0, some (10 * microsPerMinute), none, false⟩
    let before := [Act.arm broken, .arm last, .arm old, .arm new, .due (moment 0)]
    empty.InRange (before ++ [.due (moment 10)]) ∧
      Leaves (before ++ [.due (moment 10)]) old [.arm new, .due (moment 0), .due (moment 10)] ∧
      ∃ due, ((empty.after before).due (moment 10)).due = .ok due ∧ ∀ key, key ∈ due.map Job.key ↔ key = ("c", "t") := by
  intro moment broken last old new before
  have hrange : empty.InRange (before ++ [.due (moment 10)]) := by decide +kernel
  have haccounted := acts_accounted hrange
  have hreplaced : ¬Act.Spares old.key (.arm new) := fun h => h rfl
  obtain ⟨due, hdue, -, hawaited, hfound⟩ := haccounted.found before (moment 10) [] rfl
  refine ⟨hrange, ?_, due, hdue, fun key => ?_⟩
  · exact (haccounted.armed old _ ⟨[.arm broken, .arm last], rfl⟩).resolve_left
      fun h => hreplaced (h.2 _ List.mem_cons_self)
  · rw [List.mem_map]
    constructor
    · rintro ⟨k, hk, rfl⟩
      obtain ⟨j, since, hawaits, hok⟩ := hfound k hk
      rw [(Job.advance_keeps hok).1, (j.turned_keeps _).1]
      have harmed := hawaits.remains.1
      simp only [before, List.suffix_cons_iff, List.cons.injEq, Act.arm.injEq, List.suffix_nil, reduceCtorEq,
        false_and, or_false] at harmed
      -- of the jobs that were armed, the first two had their last turns and the third one was replaced
      obtain ⟨rfl, -⟩ | ⟨rfl, rfl⟩ | ⟨rfl, rfl⟩ | ⟨rfl, -⟩ := harmed
      · exact absurd hawaits.hasSchedule (by simp [broken, Job.HasSchedule])
      · have hends : last.EndsAt (moment 0) := ⟨by decide +kernel, .inr ⟨yearsEnd, rfl, by decide +kernel⟩⟩
        exact absurd ⟨[], moment 0, List.prefix_refl _, hends⟩ hawaits.goesOn
      · exact absurd (hawaits.remains.2 _ List.mem_cons_self) hreplaced
      · rfl
    · rintro rfl
      obtain ⟨k, hk, hok⟩ := hawaited new [.due (moment 0)]
        ⟨⟨⟨[.arm broken, .arm last, .arm old], rfl⟩, List.forall_mem_singleton.mpr trivial⟩, rfl,
          Job.not_ended_of_interval rfl rfl, .inr (by simp [new]), by decide +kernel⟩
      exact ⟨k, hk, (Job.advance_keeps hok).1.trans (new.turned_keeps _).1⟩

end Scheduler

end Rulebook
