import Rulebook.Proofs.Registry.Jobs
import Rulebook.Proofs.Registry.Meant

/-!
# Triggers that cannot be represented

A schedule that is not valid, or that never fires, is noted and left out. A trigger whose times leave the range
of times or whose numbers have too many digits is not: it overruns (`Trigger.Overruns`), and registering its rule
breaks off there (`Registry.register_eq_error_iff`). What is left of the registration then is told by
`Registry.register_treats`: the rule is entered all the same, and the triggers before are treated as they should
be.
-/

namespace Rulebook

/-! ### What overruns -/

/-- The length of an interval cannot be represented. -/
inductive Interval.Overruns (expression : String) : Failure → Prop where
  /-- It has more digits than a number may have. -/
  | digits {digits : List Char} {unit : Int} : parts? expression = some (digits, unit) →
      Path.maxDigits < digits.length → Overruns expression (.number (.tooManyDigits digits.length))
  /-- It is longer than any length of time. -/
  | span {digits : List Char} {unit : Int} : parts? expression = some (digits, unit) →
      digits.length ≤ Path.maxDigits → Moment.maxSpan < (Text.numeral? digits).getD 0 * unit →
      Overruns expression (.time .spanTooLong)

/-- The first time of a schedule cannot be represented. -/
inductive Schedule.Overruns (now : Moment) (s : Schedule) : Failure → Prop where
  /-- The length of its interval cannot. -/
  | length {f : Failure} : s.kind = .interval → Interval.Overruns s.expression f → Overruns now s f
  /-- Its interval ends out of the range of times. -/
  | stop {length : Int} : s.kind = .interval → Interval.read s.expression = .ok length →
      Moment.inRange (now.wall + length) = false → Overruns now s (.time .outOfRange)
  /-- The search for a match of its cron expression starts out of the range of times. -/
  | search {cron : Cron} : s.kind = .cron → Cron.read s.expression s.timezone = .ok cron →
      cron.firstSecond now = .error .outOfRange → Overruns now s (.time .outOfRange)
  /-- The first match of its cron expression lies out of the range of times. -/
  | found {cron : Cron} {first : Int} : s.kind = .cron → Cron.read s.expression s.timezone = .ok cron →
      cron.next? (Cron.secondFrom now.instant) = some first →
      Moment.inRange (first * microsPerSecond) = false → Overruns now s (.time .outOfRange)

/-- The first time of a trigger cannot be represented. -/
inductive Trigger.Overruns (polls : Bool) (now : Moment) (t : Trigger) : Failure → Prop where
  /-- That of its schedule cannot. -/
  | schedule {s : Schedule} {f : Failure} : t.source = .schedule s → s.Overruns now f → Overruns polls now t f
  /-- Its condition is polled at an interval that is longer than any length of time. -/
  | span {p : Polling} : polls = true → t.source = .condition p →
      Moment.maxSpan < p.checkInterval * microsPerMinute → Overruns polls now t (.time .spanTooLong)
  /-- Its condition is polled for the first time out of the range of times. -/
  | stop {p : Polling} : polls = true → t.source = .condition p →
      p.checkInterval * microsPerMinute ≤ Moment.maxSpan →
      Moment.inRange (now.wall + p.checkInterval * microsPerMinute) = false →
      Overruns polls now t (.time .outOfRange)

/-- Reading an interval fails other than for its form exactly if its length cannot be represented. -/
theorem Interval.read_overruns_iff {expression : String} {f : Failure} :
    (read expression = .error f ∧ ∀ e, f ≠ .schedule e) ↔ Overruns expression f := by
  unfold read
  cases hparts : parts? expression with
  | none =>
      refine iff_of_false ?_ ?_
      · rintro ⟨h, hform⟩
        cases h
        exact hform _ rfl
      · rintro (⟨h, _⟩ | ⟨h, _⟩) <;> cases hparts.symm.trans h
  | some parts =>
      obtain ⟨digits, unit⟩ := parts
      have hunit := unit_of_parts hparts
      dsimp only
      split_ifs with hlong hempty hspan
      · constructor
        · rintro ⟨⟨⟩, _⟩
          exact .digits hparts hlong
        · rintro (⟨h, hdigits⟩ | ⟨h, hdigits, _⟩) <;> cases hparts.symm.trans h
          · exact ⟨rfl, nofun⟩
          · exact absurd hlong (Nat.not_lt.mpr hdigits)
      · refine iff_of_false ?_ ?_
        · rintro ⟨h, hform⟩
          cases h
          exact hform _ rfl
        · rintro (⟨h, hdigits⟩ | ⟨h, _, hlength⟩) <;> cases hparts.symm.trans h
          · exact hlong hdigits
          · -- an empty interval is not too long
            have hle := Int.mul_nonpos_of_nonpos_of_nonneg hempty (Int.le_of_lt hunit)
            have hpos : 0 < Moment.maxSpan := by decide
            omega
      · constructor
        · rintro ⟨⟨⟩, _⟩
          exact .span hparts (Nat.not_lt.mp hlong) hspan
        · rintro (⟨h, hdigits⟩ | ⟨h, _, _⟩) <;> cases hparts.symm.trans h
          · exact absurd hdigits hlong
          · exact ⟨rfl, nofun⟩
      · refine iff_of_false nofun ?_
        rintro (⟨h, hdigits⟩ | ⟨h, _, hlength⟩) <;> cases hparts.symm.trans h
        · exact hlong hdigits
        · exact hspan hlength

/-- No time leaves the range of times when a schedule starts exactly if it does not overrun. -/
theorem Schedule.in_range_iff {s : Schedule} {now : Moment} : s.InRange now ↔ ∀ f, ¬s.Overruns now f := by
  unfold InRange
  cases hkind : s.kind with
  | interval =>
      dsimp only
      constructor
      · rintro ⟨hfault, hadd⟩ f (⟨_, h⟩ | ⟨_, hread, hout⟩ | ⟨hcron, _, _⟩ | ⟨hcron, _, _, _⟩)
        · obtain ⟨hread, hform⟩ := Interval.read_overruns_iff.mpr h
          obtain ⟨e, rfl⟩ := hfault f hread
          exact hform e rfl
        · exact absurd (hadd _ hread) (by simp [hout])
        · cases hkind.symm.trans hcron
        · cases hkind.symm.trans hcron
      · intro hnone
        constructor
        · intro f hread
          by_contra hform
          exact hnone f (.length hkind (Interval.read_overruns_iff.mp ⟨hread, fun e he => hform ⟨e, he⟩⟩))
        · intro length hread
          by_contra hout
          exact hnone _ (.stop hkind hread (by simpa using hout))
  | cron =>
      dsimp only
      constructor
      · rintro h f (⟨hinterval, _⟩ | ⟨hinterval, _, _⟩ | ⟨_, hread, hstart⟩ | ⟨_, hread, hnext, hout⟩)
        · cases hkind.symm.trans hinterval
        · cases hkind.symm.trans hinterval
        · obtain ⟨⟨second, hsecond⟩, _⟩ := h _ hread
          cases hstart.symm.trans hsecond
        · exact absurd ((h _ hread).2 _ hnext) (by simp [hout])
      · intro hnone cron hread
        constructor
        · cases hstart : cron.firstSecond now with
          | ok second => exact ⟨second, rfl⟩
          | error fault =>
              obtain h | h := Cron.first_second_cases cron now <;> cases hstart.symm.trans h
              exact absurd (.search hkind hread hstart) (hnone _)
        · intro first hnext
          by_contra hout
          exact hnone _ (.found hkind hread hnext (by simpa using hout))

/-- No time leaves the range of times when a trigger is armed exactly if it does not overrun. -/
theorem Trigger.in_range_iff {polls : Bool} {now : Moment} {t : Trigger} :
    t.InRange polls now ↔ ∀ f, ¬t.Overruns polls now f := by
  unfold InRange
  cases hsource : t.source with
  | schedule s =>
      dsimp only
      rw [Schedule.in_range_iff]
      refine forall_congr' fun f => not_congr ⟨.schedule hsource, ?_⟩
      rintro (⟨h, hs⟩ | ⟨_, h, _⟩ | ⟨_, h, _, _⟩) <;> cases hsource.symm.trans h
      exact hs
  | condition p =>
      dsimp only
      constructor
      · rintro hrange f (⟨h, _⟩ | ⟨hpolls, h, hspan⟩ | ⟨hpolls, h, _, hout⟩) <;> cases hsource.symm.trans h
        · exact absurd (hrange hpolls).1 (Int.not_le.mpr hspan)
        · exact absurd (hrange hpolls).2 (by simp [hout])
      · intro hnone hpolls
        have hspan : p.checkInterval * microsPerMinute ≤ Moment.maxSpan :=
          Int.not_lt.mp fun h => hnone _ (.span hpolls hsource h)
        refine ⟨hspan, ?_⟩
        by_contra hout
        exact hnone _ (.stop hpolls hsource hspan (by simpa using hout))
  | _ =>
      refine iff_of_true trivial ?_
      rintro f (⟨h, _⟩ | ⟨_, h, _⟩ | ⟨_, h, _, _⟩) <;> cases hsource.symm.trans h

/-! ### What breaks off -/

/-- The search for a match breaks off exactly if it leaves the range of times. -/
theorem Cron.next_from_eq_error_iff {cron : Cron} {now : Moment} {f : Failure} :
    cron.nextFrom now = .error f ↔ f = .time .outOfRange ∧ (cron.firstSecond now = .error .outOfRange ∨
      ∃ first, cron.next? (secondFrom now.instant) = some first ∧
        Moment.inRange (first * microsPerSecond) = false) := by
  by_cases hrange : cron.firstSecond now = .error .outOfRange ∨
      ∃ first, cron.next? (secondFrom now.instant) = some first ∧
        Moment.inRange (first * microsPerSecond) = false
  · have hfails : cron.nextFrom now = .error (.time .outOfRange) := by
      unfold nextFrom
      obtain hsecond | hsecond := cron.first_second_cases now
      · obtain hstart | ⟨first, hnext, hout⟩ := hrange
        · cases hsecond.symm.trans hstart
        · rw [hsecond]
          dsimp only [Except.mapError, bind, Except.bind]
          rw [hnext]
          exact if_neg (by simp [hout])
      · rw [hsecond]
        rfl
    rw [hfails]
    exact ⟨fun h => ⟨by cases h; rfl, hrange⟩, fun h => h.1 ▸ rfl⟩
  · have hstart : ∃ second, cron.firstSecond now = .ok second := by
      obtain h | h := cron.first_second_cases now
      · exact ⟨_, h⟩
      · exact absurd (.inl h) hrange
    refine iff_of_false (fun h => ?_) fun h => hrange h.2
    obtain ⟨first, _, hok⟩ | ⟨_, hok⟩ := Job.next_from_cases hstart fun first hnext => by
      by_contra hout
      exact hrange (.inr ⟨first, hnext, by simpa using hout⟩)
    · cases hok.symm.trans h
    · cases hok.symm.trans h

/-- A time that cannot be told lies out of the range of times. -/
theorem Moment.add_eq_error_iff {now : Moment} {length : Int} {fault : TimeFault} :
    now.add length = .error fault ↔ fault = .outOfRange ∧ inRange (now.wall + length) = false := by
  unfold add
  cases inRange (now.wall + length) <;> simp [eq_comm]

namespace Job

variable {ruleId triggerId : String} {s : Schedule} {now : Moment} {f : Failure}

/-- A schedule gets no job for another reason than its own exactly if it overruns. -/
theorem of_schedule_overruns_iff (ruleId triggerId : String) :
    (ofSchedule ruleId triggerId s now = .error f ∧ ∀ e, f ≠ .schedule e) ↔ s.Overruns now f := by
  unfold ofSchedule
  cases hkind : s.kind with
  | interval =>
      dsimp only
      rw [Outcome.bind_eq_error]
      constructor
      · rintro ⟨hread | ⟨length, hread, h⟩, hform⟩
        · exact .length hkind (Interval.read_overruns_iff.mp ⟨hread, hform⟩)
        · obtain hstop | ⟨_, _, h⟩ := Outcome.bind_eq_error.mp h
          · obtain ⟨fault, hadd, rfl⟩ := Outcome.map_error_eq_error.mp hstop
            obtain ⟨rfl, hout⟩ := Moment.add_eq_error_iff.mp hadd
            exact .stop hkind hread hout
          · cases h
      · rintro (⟨_, h⟩ | ⟨_, hread, hout⟩ | ⟨hcron, _, _⟩ | ⟨hcron, _, _, _⟩)
        · obtain ⟨hread, hform⟩ := Interval.read_overruns_iff.mpr h
          exact ⟨.inl hread, hform⟩
        · refine ⟨.inr ⟨_, hread, ?_⟩, nofun⟩
          rw [Moment.add_eq_error_iff.mpr ⟨rfl, hout⟩]
          rfl
        · cases hkind.symm.trans hcron
        · cases hkind.symm.trans hcron
  | cron =>
      dsimp only
      rw [Outcome.bind_eq_error]
      constructor
      · rintro ⟨hread | ⟨cron, hread, h⟩, hform⟩
        · obtain ⟨e, _, rfl⟩ := Outcome.map_error_eq_error.mp hread
          exact absurd rfl (hform e)
        · have hread := Outcome.map_error_eq_ok.mp hread
          obtain hnext | ⟨first, _, h⟩ := Outcome.bind_eq_error.mp h
          · obtain ⟨rfl, hstart | ⟨first, hnext, hout⟩⟩ := Cron.next_from_eq_error_iff.mp hnext
            · exact .search hkind hread hstart
            · exact .found hkind hread hnext hout
          · cases first <;> cases h
            exact absurd rfl (hform _)
      · have hfails : ∀ cron, Cron.read s.expression s.timezone = .ok cron →
            cron.nextFrom now = .error (.time .outOfRange) → ∀ k : Option Moment → Outcome Job,
            (Cron.read s.expression s.timezone).mapError Failure.schedule = .ok cron ∧
              (cron.nextFrom now >>= k) = .error (.time .outOfRange) := fun cron hread hnext k =>
          ⟨Outcome.map_error_eq_ok.mpr hread, by rw [hnext]; rfl⟩
        rintro (⟨hinterval, _⟩ | ⟨hinterval, _, _⟩ | ⟨_, hread, hstart⟩ | ⟨_, hread, hnext, hout⟩)
        · cases hkind.symm.trans hinterval
        · cases hkind.symm.trans hinterval
        · have hfrom := Cron.next_from_eq_error_iff.mpr ⟨rfl, .inl hstart⟩
          exact ⟨.inr ⟨_, hfails _ hread hfrom _⟩, nofun⟩
        · have hfrom := Cron.next_from_eq_error_iff.mpr ⟨rfl, .inr ⟨_, hnext, hout⟩⟩
          exact ⟨.inr ⟨_, hfails _ hread hfrom _⟩, nofun⟩

/-- A condition gets no job exactly if the first time at which it is polled cannot be told. -/
theorem polling_eq_error_iff {minutes : Int} : polling ruleId triggerId minutes now = .error f ↔
    Moment.maxSpan < minutes * microsPerMinute ∧ f = .time .spanTooLong ∨
      minutes * microsPerMinute ≤ Moment.maxSpan ∧
        Moment.inRange (now.wall + minutes * microsPerMinute) = false ∧ f = .time .outOfRange := by
  unfold polling
  dsimp only
  by_cases hspan : Moment.maxSpan < minutes * microsPerMinute
  · rw [if_pos hspan]
    constructor
    · rintro ⟨⟩
      exact .inl ⟨hspan, rfl⟩
    · rintro (⟨_, rfl⟩ | ⟨h, _⟩)
      · rfl
      · exact absurd hspan (Int.not_lt.mpr h)
  · rw [if_neg hspan]
    cases hrange : Moment.inRange (now.wall + minutes * microsPerMinute) with
    | true =>
        rw [Moment.add_eq_ok hrange]
        exact iff_of_false nofun (by simp [hspan])
    | false =>
        rw [Moment.add_eq_error_iff.mpr ⟨rfl, hrange⟩]
        constructor
        · rintro ⟨⟩
          exact .inr ⟨Int.not_lt.mp hspan, rfl, rfl⟩
        · rintro (⟨h, _⟩ | ⟨_, _, rfl⟩)
          · exact absurd h hspan
          · rfl

end Job

namespace Registry

variable {g : Registry} {polls : Bool} {now : Moment} {r : Rule} {t : Trigger} {ruleId : String} {f : Failure}

/-- A trigger breaks the registration of its rule off exactly if it overruns. -/
theorem job_of_eq_error_iff (ruleId : String) :
    (jobOf polls now ruleId t).outcome = .error f ↔ t.Overruns polls now f := by
  unfold jobOf
  cases hsource : t.source with
  | schedule s =>
      have hiff : t.Overruns polls now f ↔ s.Overruns now f := by
        refine ⟨?_, .schedule hsource⟩
        rintro (⟨h, hs⟩ | ⟨_, h, _⟩ | ⟨_, h, _, _⟩) <;> cases hsource.symm.trans h
        exact hs
      rw [hiff, ← Job.of_schedule_overruns_iff ruleId t.id]
      dsimp only
      split
      next j hj =>
        refine iff_of_false (by rintro ⟨⟩) ?_
        rintro ⟨h, _⟩
        cases hj.symm.trans h
      next e he =>
        refine iff_of_false (by rintro ⟨⟩) ?_
        rintro ⟨h, hform⟩
        cases he.symm.trans h
        exact hform e rfl
      next g hform hg =>
        constructor
        · rintro ⟨⟩
          exact ⟨hg, fun e he => hform e he⟩
        · rintro ⟨h, _⟩
          cases hg.symm.trans h
          rfl
  | condition p =>
      have hiff : t.Overruns polls now f ↔ polls = true ∧
          Job.polling ruleId t.id p.checkInterval now = .error f := by
        rw [Job.polling_eq_error_iff]
        constructor
        · rintro (⟨h, _⟩ | ⟨hpolls, h, hspan⟩ | ⟨hpolls, h, hspan, hout⟩) <;> cases hsource.symm.trans h
          · exact ⟨hpolls, .inl ⟨hspan, rfl⟩⟩
          · exact ⟨hpolls, .inr ⟨hspan, hout, rfl⟩⟩
        · rintro ⟨hpolls, ⟨hspan, rfl⟩ | ⟨hspan, hout, rfl⟩⟩
          · exact .span hpolls hsource hspan
          · exact .stop hpolls hsource hspan hout
      rw [hiff]
      dsimp only
      cases polls with
      | false =>
          refine iff_of_false (by rintro ⟨⟩) ?_
          rintro ⟨⟨⟩, _⟩
      | true =>
          rw [if_pos rfl]
          cases Job.polling ruleId t.id p.checkInterval now <;> simp [Logged.ofOutcome, Except.map]
  | _ =>
      refine iff_of_false (by rintro ⟨⟩) ?_
      rintro (⟨h, _⟩ | ⟨_, h, _⟩ | ⟨_, h, _, _⟩) <;> cases hsource.symm.trans h

/-- Arming triggers fails with the first one that overruns. -/
theorem arm_eq_error_iff (triggers : List Trigger) (s : Scheduler) :
    (arm polls now ruleId triggers s).2.outcome = .error f ↔
      Logged.FirstFault (fun _ => True) (Trigger.Overruns polls now) triggers f := by
  -- by induction on the triggers, for all schedulers: a job that is armed changes the scheduler
  induction triggers generalizing s with
  | nil => exact iff_of_false nofun Logged.not_first_fault_nil
  | cons t triggers ih =>
      rw [Logged.first_fault_cons_iff]
      unfold arm
      dsimp only
      simp only [← job_of_eq_error_iff ruleId]
      cases hjob : (jobOf polls now ruleId t).outcome with
      | error g => simp
      | ok j => simp [ih]

/-- Arming triggers gets as far as the first one that overruns: the jobs of those before it are armed, and they
leave their notes. -/
theorem arm_until (ruleId : String) {before after : List Trigger} (hbefore : ∀ t ∈ before, t.InRange polls now)
    (hafter : ∀ t ∈ after.head?, ∃ f, t.Overruns polls now f) (s : Scheduler) :
    (arm polls now ruleId (before ++ after) s).1 = (arm polls now ruleId before s).1 ∧
      ∀ t ∈ before, ∀ note ∈ (jobOf polls now ruleId t).notes,
        note ∈ (arm polls now ruleId (before ++ after) s).2.notes := by
  induction before generalizing s with
  | nil =>
      refine ⟨?_, List.forall_mem_nil _⟩
      cases after with
      | nil => rfl
      | cons t after =>
          obtain ⟨f, hf⟩ := hafter t rfl
          unfold arm
          dsimp only [List.nil_append]
          rw [(job_of_eq_error_iff ruleId).mpr hf]
  | cons t before ih =>
      obtain ⟨ht, hrest⟩ := List.forall_mem_cons.mp hbefore
      obtain ⟨j, hj⟩ : ∃ j, (jobOf polls now ruleId t).outcome = .ok j := by
        obtain ⟨j, hj, _⟩ | ⟨hj, _⟩ := job_of_cases ruleId ht <;> exact ⟨_, hj⟩
      rw [List.cons_append]
      unfold arm
      dsimp only
      rw [hj]
      dsimp only
      refine ⟨(ih hrest _).1, List.forall_mem_cons.mpr ⟨fun note hnote => ?_, fun u hu note hnote => ?_⟩⟩
      · exact List.mem_append_left _ hnote
      · exact List.mem_append_right _ ((ih hrest _).2 u hu note hnote)

/-- What is left when a rule in use is registered and this gets as far as some of its triggers: the rule stands
behind the others, the indexes list it under what it reacts to, the triggers that are armed have jobs, and the
schedules that cannot be armed are noted. -/
structure Treats (g : Registry) (polls : Bool) (now : Moment) (r : Rule) (triggers : List Trigger)
    (result : Registry × Logged Unit) : Prop where
  rules : result.1.rules = g.rules.filter (·.id != r.id) ++ [r]
  events : ∀ key id, result.1.events.Lists key id ↔
    g.events.Lists key id ∧ id ≠ r.id ∨ id = r.id ∧ r.Hears key
  webhooks : ∀ webhookId id, result.1.webhooks.Lists webhookId id ↔
    g.webhooks.Lists webhookId id ∧ id ≠ r.id ∨ id = r.id ∧ r.Serves webhookId
  jobs : ∀ key, key ∈ result.1.scheduler.keys ↔ key ∈ g.scheduler.keys ∧ key.1 ≠ r.id ∨
    ∃ t ∈ triggers, key = (r.id, t.id) ∧ t.Arms polls now.instant
  skipped : ∀ t ∈ triggers, ∀ s, t.source = .schedule s → ¬s.Fires now.instant →
    ∃ e, Job.ofSchedule r.id t.id s now = .error (.schedule e) ∧ invalidNote r.id t.id e ∈ result.2.notes

/-- Registering a rule fails exactly if it is in use and one of its triggers in use overruns. -/
theorem register_eq_error_iff : (g.register polls now r).2.outcome = .error f ↔
    r.isActive = true ∧ Logged.FirstFault (fun _ => True) (Trigger.Overruns polls now) r.enabledTriggers f := by
  unfold register
  dsimp only
  cases r.isActive with
  | false => exact iff_of_false nofun fun h => nomatch h.1
  | true =>
      rw [if_pos rfl]
      exact (arm_eq_error_iff r.enabledTriggers _).trans (and_iff_right rfl).symm

/-- Registering a rule treats its triggers as they should be, as far as none overruns. -/
theorem register_treats {before after : List Trigger} (hactive : r.isActive = true)
    (hsplit : r.enabledTriggers = before ++ after) (hbefore : ∀ t ∈ before, ∀ f, ¬t.Overruns polls now f)
    (hafter : ∀ t ∈ after.head?, ∃ f, t.Overruns polls now f) :
    g.Treats polls now r before (g.register polls now r) := by
  have hrange : ∀ t ∈ before, t.InRange polls now := fun t ht => Trigger.in_range_iff.mpr (hbefore t ht)
  have hnotes : (g.register polls now r).2.notes =
      (arm polls now r.id r.enabledTriggers (g.unregister r.id).scheduler).2.notes := by
    rw [register, if_pos hactive, ← enter_scheduler (g := g.unregister r.id) (r := r)]
  obtain ⟨hjobs, hnoted⟩ := arm_until r.id hrange hafter (g.unregister r.id).scheduler
  rw [← hsplit] at hjobs hnoted
  refine ⟨?_, fun key id => ?_, fun webhookId id => ?_, fun key => ?_, fun t ht s hs hfires => ?_⟩
  · rw [register_rules, if_pos hactive]
  · simp [register_events_iff, hactive]
  · simp [register_webhooks_iff, hactive]
  · rw [register_of_active hactive]
    dsimp only
    rw [hjobs, (arm_cases before _ hrange).1, unregister_jobs_iff]
  · have hrange_s : s.InRange now := by
      have h := hrange t ht
      rwa [Trigger.InRange, hs] at h
    obtain ⟨hfires', _⟩ | ⟨_, e, he⟩ := Job.of_schedule_cases r.id t.id hrange_s
    · exact absurd hfires' hfires
    · refine ⟨e, he, ?_⟩
      rw [hnotes]
      refine hnoted t ht _ ?_
      unfold jobOf
      rw [hs]
      dsimp only
      rw [he]
      exact List.mem_singleton_self _

end Registry

end Rulebook
