import Mathlib.Order.Bounds.Basic
import Mathlib.Tactic.Ring
import Rulebook.Proofs.Registry.Jobs

/-!
# Slots

A job has slots: those of an interval follow one another at its length, those of a cron expression are its
matches (`Job.Slot`). When what is due at a time is looked for, a job takes its turn (`Job.turn`): it fires
exactly if it has a slot since the times before, and then stands at its first slot after all times
(`Job.stands_turn`). So it never leaves the grid of its slots, however late or early it is looked for.
-/

namespace Rulebook

/-! ### Matches of a cron expression -/

/-- A term allows a value of a field with the given least value, in a month with the given last day. -/
def CronTerm.Allows (least monthEnd value : Int) : CronTerm → Prop
  | every step => ∀ s ∈ step, s ∣ value - least
  | range first last step => first ≤ value ∧ (∀ l ∈ last, value ≤ l) ∧ ∀ s ∈ step, s ∣ value - first
  | lastDay => value = monthEnd

instance (least monthEnd value : Int) : ∀ term : CronTerm, Decidable (term.Allows least monthEnd value)
  | .every step => inferInstanceAs (Decidable (∀ s ∈ step, s ∣ value - least))
  | .range first last step =>
    inferInstanceAs (Decidable (first ≤ value ∧ (∀ l ∈ last, value ≤ l) ∧ ∀ s ∈ step, s ∣ value - first))
  | .lastDay => inferInstanceAs (Decidable (value = monthEnd))

namespace Cron

/-- A cron expression matches a second: the clocks of its zone show values in each field that one of the terms
allows. -/
def Matches (c : Cron) (second : Int) : Prop :=
  let r := ClockReading.ofSeconds (c.zone.wallAt second)
  ∀ f : CronField, f.least ≤ r.value f ∧ r.value f ≤ f.greatest ∧
    ∃ term ∈ c.terms f, term.Allows f.least r.monthEnd (r.value f)

instance (c : Cron) (second : Int) : Decidable (c.Matches second) :=
  let r := ClockReading.ofSeconds (c.zone.wallAt second)
  let fields : List CronField := [.year, .month, .day, .weekday, .hour, .minute, .second]
  decidable_of_iff (∀ f ∈ fields, f.least ≤ r.value f ∧ r.value f ≤ f.greatest ∧
      ∃ term ∈ c.terms f, term.Allows f.least r.monthEnd (r.value f))
    ⟨fun h f => h f (by cases f <;> simp [fields]), fun h f _ => h f⟩

/-- The search for a match from a second on finds the first one, or nothing where there is none. -/
def FindsFrom (c : Cron) (second : Int) : Prop :=
  match c.next? second with
  | some first => IsLeast {x | second ≤ x ∧ c.Matches x} first
  | none => ∀ x, second ≤ x → ¬c.Matches x

/-- No time leaves the range of times when the search for a match starts at a moment. -/
def SearchesInRange (c : Cron) (m : Moment) : Prop :=
  (∃ second, c.firstSecond m = .ok second) ∧
    ∀ first ∈ c.next? (secondFrom m.instant), Moment.inRange (first * microsPerSecond) = true

instance (c : Cron) (m : Moment) : Decidable (c.SearchesInRange m) :=
  decidable_of_iff ((c.firstSecond m).toOption.isSome = true ∧
      ∀ first ∈ c.next? (secondFrom m.instant), Moment.inRange (first * microsPerSecond) = true)
    (and_congr_left' (by cases c.firstSecond m <;> simp [Except.toOption]))

/-- A second is not before an instant exactly if it is not before the first whole one. -/
theorem second_from_le_iff {instant second : Int} :
    secondFrom instant ≤ second ↔ instant ≤ second * microsPerSecond := by
  unfold secondFrom microsPerSecond
  omega

end Cron

/-! ### Slots of a job -/

namespace Job

/-- The slots of a job from its next one on. -/
def Slot (j : Job) (x : Int) : Prop :=
  match j.cron, j.interval with
  | some cron, _ => j.nextFireAt.instant ≤ x ∧ ∃ second, x = second * microsPerSecond ∧ cron.Matches second
  | none, some interval => ∃ n : Nat, x = j.nextFireAt.instant + n * interval
  | none, none => False

/-- The slots of a job after all of some times. -/
def slotsAfter (j : Job) (times : List Moment) : Set Int := {x | j.Slot x ∧ ∀ t ∈ times, t.instant < x}

/-- A job is ready: it is in use, and its next slot is a match of its cron expression, or its interval is not
empty. -/
inductive Ready (j : Job) : Prop where
  /-- It has a cron expression. -/
  | cron {cron : Cron} {second : Int} : j.cancelled = false → j.cron = some cron →
      j.nextFireAt.instant = second * microsPerSecond → cron.Matches second → Ready j
  /-- It has an interval. -/
  | interval {interval : Int} : j.cancelled = false → j.cron = none → j.interval = some interval →
      0 < interval → Ready j

/-- No time leaves the range of times when a job is looked at: its clock is of the kind of the one that is read,
and if it is due, its next slot can be told. -/
def InRange (j : Job) (now : Moment) : Prop :=
  j.cancelled = false → now.isAware = j.nextFireAt.isAware ∧ (j.nextFireAt.instant ≤ now.instant →
    match j.cron, j.interval with
    | some cron, _ => Moment.inRange (now.wall + 1) = true ∧
        cron.SearchesInRange { now with wall := now.wall + 1 }
    | none, some interval => interval ≠ 0 ∧ Moment.inRange (j.nextFireAt.wall +
        interval * (Int.fdiv (now.instant - j.nextFireAt.instant) interval + 1)) = true
    | none, none => True)

instance (j : Job) (now : Moment) : Decidable (j.InRange now) :=
  match hcron : j.cron, hinterval : j.interval with
  | some cron, _ => decidable_of_iff (j.cancelled = false → now.isAware = j.nextFireAt.isAware ∧
      (j.nextFireAt.instant ≤ now.instant → Moment.inRange (now.wall + 1) = true ∧
        cron.SearchesInRange { now with wall := now.wall + 1 })) (by rw [InRange, hcron])
  | none, some interval => decidable_of_iff (j.cancelled = false → now.isAware = j.nextFireAt.isAware ∧
      (j.nextFireAt.instant ≤ now.instant → interval ≠ 0 ∧ Moment.inRange (j.nextFireAt.wall +
        interval * (Int.fdiv (now.instant - j.nextFireAt.instant) interval + 1)) = true))
      (by rw [InRange, hcron, hinterval])
  | none, none => decidable_of_iff (j.cancelled = false → now.isAware = j.nextFireAt.isAware)
      (by rw [InRange, hcron, hinterval]; simp)

/-- The search for a match of a job's cron expression finds the first one after a time. -/
def FindsAfter (j : Job) (now : Moment) : Prop :=
  ∀ cron, j.cron = some cron → cron.FindsFrom (Cron.secondFrom (now.instant + 1))

/-- Whether a job is in use and its next slot is not after a time. -/
def isRipe (j : Job) (now : Moment) : Bool := !j.cancelled && decide (j.nextFireAt.instant ≤ now.instant)

/-- A job after its turn at a time, and as it fires if it does. -/
def turn (j : Job) (now : Moment) : Job × Option Job :=
  if j.isRipe now then
    match j.advance now with
    | .ok next => (next, some next)
    | .error _ => (j.cancel, none)
  else (j, none)

/-- A job after its turns at some times. -/
def turned (j : Job) (times : List Moment) : Job := times.foldl (fun k now => (k.turn now).1) j

variable {j k : Job} {now : Moment} {times : List Moment}

/-- Whether a job is due can be told while no time leaves the range of times. -/
theorem is_due_eq_ok (h : j.InRange now) : j.isDue now = .ok (j.isRipe now) := by
  unfold isDue isRipe
  cases hused : j.cancelled with
  | true => rfl
  | false =>
      rw [if_neg Bool.false_ne_true, Moment.since, if_pos (h hused).1]
      simp [Except.map, Except.mapError]

/-- A ripe job is in use and its next slot is not after the time. -/
theorem is_ripe_iff : j.isRipe now = true ↔ j.cancelled = false ∧ j.nextFireAt.instant ≤ now.instant := by
  simp [isRipe]

/-- A ripe job of a cron expression goes to its first match after the time, and is out of use if there is
none. -/
theorem advance_of_cron {cron : Cron} (hcron : j.cron = some cron) (h : j.InRange now)
    (hripe : j.isRipe now = true) :
    (∃ first, cron.next? (Cron.secondFrom (now.instant + 1)) = some first ∧
        j.advance now = .ok { j with nextFireAt := .utc (first * microsPerSecond) }) ∨
      cron.next? (Cron.secondFrom (now.instant + 1)) = none ∧ j.advance now = .ok j.cancel := by
  obtain ⟨hused, hdue⟩ := is_ripe_iff.mp hripe
  have hrange := (h hused).2 hdue
  rw [hcron] at hrange
  obtain ⟨hafter, hstart, hend⟩ := hrange
  unfold advance
  rw [hcron, ← Moment.instant_later]
  dsimp only
  rw [Moment.add_eq_ok hafter]
  dsimp only [Except.mapError, bind, Except.bind]
  obtain ⟨first, hnext, hfrom⟩ | ⟨hnext, hfrom⟩ := next_from_cases hstart hend
  · rw [hfrom]
    exact .inl ⟨first, hnext, rfl⟩
  · rw [hfrom]
    exact .inr ⟨hnext, rfl⟩

/-- A ripe job of an interval goes on by as many lengths as lead beyond the time. -/
theorem advance_of_interval {interval : Int} (hcron : j.cron = none) (hinterval : j.interval = some interval)
    (h : j.InRange now) (hripe : j.isRipe now = true) :
    j.advance now = .ok { j with nextFireAt := { j.nextFireAt with wall := j.nextFireAt.wall +
      interval * (Int.fdiv (now.instant - j.nextFireAt.instant) interval + 1) } } := by
  obtain ⟨hused, hdue⟩ := is_ripe_iff.mp hripe
  obtain ⟨haware, hrange⟩ := h hused
  have hnext := hrange hdue
  rw [hcron, hinterval] at hnext
  obtain ⟨hne, hnext⟩ := hnext
  unfold advance
  rw [hcron, hinterval]
  dsimp only
  rw [Moment.since, if_pos haware]
  dsimp only [Except.mapError, bind, Except.bind]
  rw [if_neg hne, Moment.add_eq_ok hnext]

/-- A job without a schedule cannot go on. -/
theorem advance_of_none (hcron : j.cron = none) (hinterval : j.interval = none) :
    j.advance now = .error (.schedule (.noSchedule j.ruleId j.triggerId)) := by
  unfold advance
  rw [hcron, hinterval]

/-- A job that goes on is the same but for its next slot and its use. -/
theorem advance_keeps {next : Job} (h : j.advance now = .ok next) :
    next.key = j.key ∧ next.cron = j.cron ∧ next.interval = j.interval := by
  obtain ⟨_, rfl⟩ | rfl := advance_eq_ok_cases h <;> exact ⟨rfl, rfl, rfl⟩

/-- A ripe job goes on while no time leaves the range of times, unless it has no schedule. -/
theorem advance_cases (h : j.InRange now) (hripe : j.isRipe now = true) :
    (∃ next, j.advance now = .ok next) ∨ ∃ e, j.advance now = .error (.schedule e) := by
  cases hcron : j.cron with
  | some cron =>
      obtain ⟨_, _, hok⟩ | ⟨_, hok⟩ := advance_of_cron hcron h hripe <;> exact .inl ⟨_, hok⟩
  | none =>
      cases hinterval : j.interval with
      | some interval => exact .inl ⟨_, advance_of_interval hcron hinterval h hripe⟩
      | none => exact .inr ⟨_, advance_of_none hcron hinterval⟩

/-- A job that is not ripe lets its turn pass. -/
theorem turn_of_not_ripe (h : j.isRipe now = false) : j.turn now = (j, none) := by
  rw [turn, h]
  rfl

/-- A ripe job that goes on fires. -/
theorem turn_of_advance {next : Job} (hripe : j.isRipe now = true) (h : j.advance now = .ok next) :
    j.turn now = (next, some next) := by
  rw [turn, if_pos hripe, h]

/-- After its turn a job is the same but for its next slot and its use. -/
theorem turn_keeps (j : Job) (now : Moment) : (j.turn now).1.key = j.key ∧ (j.turn now).1.cron = j.cron ∧
    (j.turn now).1.interval = j.interval := by
  unfold turn
  split
  · split
    next hok => exact advance_keeps hok
    next => exact ⟨rfl, rfl, rfl⟩
  · exact ⟨rfl, rfl, rfl⟩

/-- A job fires as it is after its turn. -/
theorem fired_of_turn (h : (j.turn now).2 = some k) : k = (j.turn now).1 := by
  unfold turn at h ⊢
  split at h <;> rename_i hripe
  · rw [if_pos hripe]
    split at h <;> cases h
    rfl
  · cases h

/-- The job of a schedule is ready if the search for a match of its cron expression finds the first one. -/
theorem ready_of_schedule {ruleId triggerId : String} {s : Schedule}
    (h : ofSchedule ruleId triggerId s now = .ok j)
    (hfinds : ∀ cron, j.cron = some cron → cron.FindsFrom (Cron.secondFrom now.instant)) : j.Ready := by
  unfold ofSchedule at h
  split at h
  · obtain ⟨length, hread, h⟩ := Outcome.bind_eq_ok.mp h
    obtain ⟨at_, _, h⟩ := Outcome.bind_eq_ok.mp h
    cases h
    exact .interval rfl rfl rfl (Interval.read_pos hread)
  · obtain ⟨cron, _, h⟩ := Outcome.bind_eq_ok.mp h
    obtain ⟨found, hfound, h⟩ := Outcome.bind_eq_ok.mp h
    cases found with
    | none => cases h
    | some at_ =>
        cases h
        obtain ⟨first, hnext, rfl⟩ := Cron.next_from_eq_some hfound
        have hfirst := hfinds cron rfl
        unfold Cron.FindsFrom at hfirst
        rw [hnext] at hfirst
        exact .cron rfl rfl (Moment.instant_utc _) hfirst.1.2

/-- The job of a polled condition is ready. -/
theorem ready_of_polling {ruleId triggerId : String} {minutes : Int} (hminutes : 0 < minutes)
    (h : polling ruleId triggerId minutes now = .ok j) : j.Ready := by
  unfold polling at h
  dsimp only at h
  split at h
  · cases h
  · obtain ⟨at_, _, h⟩ := Outcome.bind_eq_ok.mp h
    cases h
    exact .interval rfl rfl rfl (Int.mul_pos hminutes (by decide))

/-! ### The first slot after all times -/

/-- A job that was armed as `j` stands as `k` after some times: it is at the first slot after all of them, or
it is out of use and there is none. -/
structure StandsAfter (j : Job) (times : List Moment) (k : Job) : Prop where
  key : k.key = j.key
  cron : k.cron = j.cron
  interval : k.interval = j.interval
  next : k.cancelled = false ∧ IsLeast (j.slotsAfter times) k.nextFireAt.instant ∨
    k.cancelled = true ∧ j.slotsAfter times = ∅

/-- A slot is after one more time if it is after that time as well. -/
theorem mem_slots_after_concat_iff {x : Int} :
    x ∈ j.slotsAfter (times ++ [now]) ↔ x ∈ j.slotsAfter times ∧ now.instant < x := by
  show (_ ∧ ∀ t ∈ times ++ [now], t.instant < x) ↔ (_ ∧ ∀ t ∈ times, t.instant < x) ∧ _
  simp only [List.mem_append, List.mem_singleton, or_imp, forall_and, forall_eq, and_assoc]

/-- The slots of a cron expression are its matches. -/
theorem slot_of_cron_iff {cron : Cron} {x : Int} (hcron : j.cron = some cron) : j.Slot x ↔
    j.nextFireAt.instant ≤ x ∧ ∃ second, x = second * microsPerSecond ∧ cron.Matches second := by
  unfold Slot
  rw [hcron]

/-- The slots of an interval follow one another at its length. -/
theorem slot_of_interval_iff {interval x : Int} (hcron : j.cron = none) (hinterval : j.interval = some interval) :
    j.Slot x ↔ ∃ n : Nat, x = j.nextFireAt.instant + n * interval := by
  unfold Slot
  rw [hcron, hinterval]

/-- A job that is ready stands at its next slot. -/
theorem Ready.stands (h : j.Ready) : j.StandsAfter [] j := by
  refine ⟨rfl, rfl, rfl, ?_⟩
  cases h with
  | cron hused hcron hnext hmatches =>
      refine .inl ⟨hused, ⟨(slot_of_cron_iff hcron).mpr ⟨Int.le_refl _, _, hnext, hmatches⟩, nofun⟩, ?_⟩
      exact fun x hx => ((slot_of_cron_iff hcron).mp hx.1).1
  | interval hused hcron hinterval hpos =>
      refine .inl ⟨hused, ⟨(slot_of_interval_iff hcron hinterval).mpr ⟨0, by simp⟩, nofun⟩, ?_⟩
      rintro x ⟨hx, _⟩
      obtain ⟨n, rfl⟩ := (slot_of_interval_iff hcron hinterval).mp hx
      have hnonneg := Int.mul_nonneg (Int.natCast_nonneg n) (Int.le_of_lt hpos)
      omega

/-- The first slot of an interval after a time that is not before one of its slots. -/
theorem next_slot_of_interval {interval start time : Int} (hcron : j.cron = none)
    (hinterval : j.interval = some interval) (hpos : 0 < interval) (hstart : j.Slot start)
    (htime : start ≤ time) :
    IsLeast {x | j.Slot x ∧ time < x} (start + interval * (Int.fdiv (time - start) interval + 1)) := by
  obtain ⟨m, hm⟩ := (slot_of_interval_iff hcron hinterval).mp hstart
  obtain ⟨steps, hsteps⟩ : ∃ steps : Nat, Int.fdiv (time - start) interval = steps :=
    Int.eq_ofNat_of_zero_le (Int.fdiv_nonneg (by omega) (Int.le_of_lt hpos))
  -- whole lengths lead to the time at most, and one more leads beyond it
  have hdivision := Int.emod_add_mul_ediv (time - start) interval
  have hnonneg := Int.emod_nonneg (time - start) (Int.ne_of_gt hpos)
  have hlt := Int.emod_lt_of_pos (time - start) hpos
  rw [← Int.fdiv_eq_ediv_of_nonneg _ (Int.le_of_lt hpos), hsteps] at hdivision
  rw [hsteps]
  have hslot : ∀ n : Nat, j.nextFireAt.instant + ((m + n : Nat) : Int) * interval = start + interval * n := by
    intro n
    rw [hm]
    push_cast
    ring
  have hone : interval * ((steps : Int) + 1) = interval * steps + interval := by ring
  refine ⟨⟨(slot_of_interval_iff hcron hinterval).mpr ⟨m + (steps + 1), ?_⟩, by omega⟩, ?_⟩
  · rw [hslot]
    push_cast
    rfl
  · rintro x ⟨hx, hlater⟩
    obtain ⟨n, rfl⟩ := (slot_of_interval_iff hcron hinterval).mp hx
    -- a slot with a smaller number is not after the time
    have hn : m + (steps + 1) ≤ n := by
      by_contra hsmall
      have hle := Int.mul_le_mul_of_nonneg_right (Int.ofNat_le.mpr (by omega : n ≤ m + steps))
        (Int.le_of_lt hpos)
      have := hslot steps
      omega
    have hle := Int.mul_le_mul_of_nonneg_right (Int.ofNat_le.mpr hn) (Int.le_of_lt hpos)
    have := hslot (steps + 1)
    push_cast at this hle ⊢
    omega

/-- The first slot of a cron expression after a time that is not before one of its slots is what the search
finds. -/
theorem next_slot_of_cron {cron : Cron} {start time : Int} (hcron : j.cron = some cron) (hstart : j.Slot start)
    (htime : start ≤ time) (hfinds : cron.FindsFrom (Cron.secondFrom (time + 1))) :
    match cron.next? (Cron.secondFrom (time + 1)) with
    | some first => IsLeast {x | j.Slot x ∧ time < x} (first * microsPerSecond)
    | none => {x | j.Slot x ∧ time < x} = ∅ := by
  have hbefore := ((slot_of_cron_iff hcron).mp hstart).1
  unfold Cron.FindsFrom at hfinds
  split at hfinds
  next first hnext =>
    obtain ⟨⟨hfrom, hmatches⟩, hleast⟩ := hfinds
    have hlater := Cron.second_from_le_iff.mp hfrom
    refine ⟨⟨(slot_of_cron_iff hcron).mpr ⟨by omega, first, rfl, hmatches⟩, by omega⟩, ?_⟩
    rintro x ⟨hx, hafter⟩
    obtain ⟨_, second, rfl, hsecond⟩ := (slot_of_cron_iff hcron).mp hx
    exact Int.mul_le_mul_of_nonneg_right
      (hleast ⟨Cron.second_from_le_iff.mpr (by omega), hsecond⟩) (by decide)
  next hnext =>
    refine Set.eq_empty_of_forall_notMem ?_
    rintro x ⟨hx, hafter⟩
    obtain ⟨_, second, rfl, hsecond⟩ := (slot_of_cron_iff hcron).mp hx
    exact hfinds second (Cron.second_from_le_iff.mpr (by omega)) hsecond

/-- A job that lets its turn pass has no slot between the times before and this one. -/
theorem stands_of_not_ripe (h : j.StandsAfter times k) (hripe : k.isRipe now = false) :
    j.StandsAfter (times ++ [now]) k ∧ ∀ x ∈ j.slotsAfter times, now.instant < x := by
  obtain ⟨hused, hleast⟩ | ⟨hunused, hnone⟩ := h.next
  · -- the next slot is after this time as well
    have hlater : now.instant < k.nextFireAt.instant := by simpa [isRipe, hused] using hripe
    refine ⟨⟨h.key, h.cron, h.interval, .inl ⟨hused, ?_, ?_⟩⟩, fun x hx => ?_⟩
    · exact mem_slots_after_concat_iff.mpr ⟨hleast.1, hlater⟩
    · exact fun x hx => hleast.2 (mem_slots_after_concat_iff.mp hx).1
    · exact Int.lt_of_lt_of_le hlater (hleast.2 hx)
  · refine ⟨⟨h.key, h.cron, h.interval, .inr ⟨hunused, ?_⟩⟩, fun x hx => ?_⟩
    · exact Set.eq_empty_of_forall_notMem fun x hx =>
        Set.eq_empty_iff_forall_notMem.mp hnone x (mem_slots_after_concat_iff.mp hx).1
    · exact absurd hx (Set.eq_empty_iff_forall_notMem.mp hnone x)

/-- After a time that is not before a slot that is left, the slots that are left are those after this time. -/
theorem slots_after_concat_eq {start : Int} (hstart : start ∈ j.slotsAfter times) (htime : start ≤ now.instant) :
    j.slotsAfter (times ++ [now]) = {x | j.Slot x ∧ now.instant < x} := by
  ext x
  rw [mem_slots_after_concat_iff]
  refine and_congr_left fun hx => ⟨And.left, fun hslot => ⟨hslot, fun t ht => ?_⟩⟩
  exact Int.lt_trans (hstart.2 t ht) (Int.lt_of_le_of_lt htime hx)

/-- A ripe job goes on to its first slot after the time, unless there is none. -/
theorem stands_of_ripe (hready : j.Ready) (h : j.StandsAfter times k) (hrange : k.InRange now)
    (hfinds : j.FindsAfter now) (hripe : k.isRipe now = true) (hslot : k.nextFireAt.instant ∈ j.slotsAfter times) :
    ∃ next, k.advance now = .ok next ∧ (next.cancelled = false ∧
        IsLeast (j.slotsAfter (times ++ [now])) next.nextFireAt.instant ∨
      next.cancelled = true ∧ j.slotsAfter (times ++ [now]) = ∅) := by
  obtain ⟨hused, hdue⟩ := is_ripe_iff.mp hripe
  rw [slots_after_concat_eq hslot hdue]
  cases hready with
  | @cron cron _ _ hcron _ _ =>
      have hleast := next_slot_of_cron hcron hslot.1 hdue (hfinds cron hcron)
      obtain ⟨first, hnext, hok⟩ | ⟨hnext, hok⟩ := advance_of_cron (h.cron.trans hcron) hrange hripe
      · rw [hnext] at hleast
        refine ⟨_, hok, .inl ⟨hused, ?_⟩⟩
        dsimp only
        rwa [Moment.instant_utc]
      · rw [hnext] at hleast
        exact ⟨_, hok, .inr ⟨rfl, hleast⟩⟩
  | @interval interval _ hcron hinterval hpos =>
      have hok := advance_of_interval (h.cron.trans hcron) (h.interval.trans hinterval) hrange hripe
      refine ⟨_, hok, .inl ⟨hused, ?_⟩⟩
      dsimp only
      rw [Moment.instant_later]
      exact next_slot_of_interval hcron hinterval hpos hslot.1 hdue

/-- After its turn a job stands at its first slot after one more time, and it fires exactly if there was a slot
until then. -/
theorem stands_turn (hready : j.Ready) (h : j.StandsAfter times k) (hrange : k.InRange now)
    (hfinds : j.FindsAfter now) :
    j.StandsAfter (times ++ [now]) (k.turn now).1 ∧
      ((k.turn now).2.isSome = true ↔ ∃ x ∈ j.slotsAfter times, x ≤ now.instant) := by
  cases hripe : k.isRipe now with
  | false =>
      obtain ⟨hstands, hnone⟩ := stands_of_not_ripe h hripe
      rw [turn_of_not_ripe hripe]
      refine ⟨hstands, iff_of_false Bool.false_ne_true ?_⟩
      rintro ⟨x, hx, hle⟩
      exact absurd (hnone x hx) (Int.not_lt.mpr hle)
  | true =>
      obtain ⟨hused, hdue⟩ := is_ripe_iff.mp hripe
      obtain ⟨_, hleast⟩ | ⟨hunused, _⟩ := h.next
      · obtain ⟨next, hok, hnext⟩ := stands_of_ripe hready h hrange hfinds hripe hleast.1
        obtain ⟨hkey, hcron, hinterval⟩ := advance_keeps hok
        rw [turn_of_advance hripe hok]
        exact ⟨⟨hkey.trans h.key, hcron.trans h.cron, hinterval.trans h.interval, hnext⟩,
          iff_of_true rfl ⟨_, hleast.1, hdue⟩⟩
      · cases hused.symm.trans hunused

end Job

end Rulebook
