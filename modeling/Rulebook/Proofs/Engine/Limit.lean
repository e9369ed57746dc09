import Rulebook.Proofs.Engine.Answer
import Rulebook.Proofs.Engine.Named
import Rulebook.Proofs.Engine.Trial

/-!
# What the limits of a rule hold back

Every trial that is recorded was made while those before it were recorded (`Engine.tried_at`), so that what the
check of the limits saw is told by the list of trials. As many executions of a rule start on a day as its quota
says at most, and they start as far apart as it cools down, unless it does not cool down and the clock goes back
(`Engine.starts_limited`). The quota counts trials whether they started or not: a call is refused because of it
exactly if the executions that started on the day and those that were refused come to it
(`Engine.quota_refuses_iff`).
-/

namespace Rulebook

/-- A list has at most so many items of a kind if each of them comes after fewer of the kind. -/
theorem countP_le_of_split {α : Type} {kind : α → Bool} {l : List α} {n : Nat}
    (h : ∀ before a after, l = before ++ a :: after → kind a = true → before.countP kind < n) :
    l.countP kind ≤ n := by
  -- from the end: the last item is of the kind, or the count is that of the items before it
  induction l using List.reverseRecOn with
  | nil => exact Nat.zero_le n
  | append_singleton l a ih =>
      have hbefore : l.countP kind ≤ n := ih fun before b after hl hb =>
        h before b (after ++ [a]) (by rw [hl, List.append_assoc]; rfl) hb
      rw [List.countP_append, List.countP_singleton]
      split
      next ha => exact h l a [] rfl ha
      next => exact hbefore

/-- A relation holds along a list if each item has it to those before. -/
theorem pairwise_of_split {α : Type} {R : α → α → Prop} {l : List α}
    (h : ∀ before a after, l = before ++ a :: after → ∀ b ∈ before, R b a) : l.Pairwise R := by
  induction l using List.reverseRecOn with
  | nil => exact .nil
  | append_singleton l a ih =>
      refine List.pairwise_append.mpr ⟨ih fun before b after hl => ?_, List.pairwise_singleton _ _, ?_⟩
      · exact h before b (after ++ [a]) (by rw [hl, List.append_assoc]; rfl)
      · intro b hb c hc
        rw [List.mem_singleton.mp hc]
        exact h l a [] rfl b hb

namespace RateLimit

variable {s : ExecutionStore} {ruleId : String} {settings : RuleSettings} {now : Moment}

/-- A rule that may run has not used up the trials of the day. -/
theorem tried_lt_of_check (h : check s ruleId settings now = .ok none) :
    (s.triedOn ruleId now.dayNumber : Int) < settings.maxExecutionsPerDay := by
  obtain ⟨day, hday, h⟩ := Outcome.bind_eq_ok.mp h
  obtain ⟨n, hn, h⟩ := Outcome.bind_eq_ok.mp h
  have hcount := ExecutionStore.count_eq (Outcome.map_error_eq_ok.mp hday) hn
  split at h
  next => cases h
  next hquota =>
    rw [hcount] at hquota
    exact Int.not_le.mp hquota

/-- Whether a rule cools down is whether the cooldown has passed. -/
theorem is_cooling_eq_ok {minutes : Int} {last : Moment} {cooling : Bool}
    (h : isCooling minutes last now = .ok cooling) :
    cooling = decide (now.instant - last.instant < minutes * microsPerMinute) := by
  obtain ⟨passed, hpassed, hwait⟩ := Outcome.bind_eq_ok.mp h
  unfold Moment.since at hpassed
  split at hpassed
  next =>
    obtain rfl := Except.ok.inj hpassed
    dsimp only at hwait
    split at hwait
    next => cases hwait
    next => exact (Except.ok.inj hwait).symm
  next => cases hpassed

/-- A rule that may run and cools down has done so since each of its starts. -/
theorem cooled_of_check (h : check s ruleId settings now = .ok none) (hcools : 0 < settings.cooldownPeriod)
    {m : Moment} (hm : m ∈ s.starts ruleId) :
    m.instant + settings.cooldownPeriod * microsPerMinute ≤ now.instant := by
  obtain ⟨day, hday, h⟩ := Outcome.bind_eq_ok.mp h
  obtain ⟨n, hn, h⟩ := Outcome.bind_eq_ok.mp h
  rw [if_neg (Int.not_le.mpr hcools)] at h
  split at h
  next => cases h
  next =>
    obtain ⟨last, hlast, h⟩ := Outcome.bind_eq_ok.mp h
    obtain ⟨k, rfl, hk⟩ := ExecutionStore.instant_le_last hlast hm
    obtain ⟨cooling, hcooling, h⟩ := Outcome.bind_eq_ok.mp h
    cases cooling with
    | true => cases h
    | false =>
        have hover := of_decide_eq_false (is_cooling_eq_ok (Outcome.map_error_eq_ok.mp hcooling)).symm
        omega

/-- A rule that may not run because it cools down started less than the cooldown before. -/
theorem started_of_cooldown (h : check s ruleId settings now = .ok (some cooldown)) :
    ∃ m ∈ s.starts ruleId, now.instant < m.instant + settings.cooldownPeriod * microsPerMinute := by
  obtain ⟨day, _, h⟩ := Outcome.bind_eq_ok.mp h
  obtain ⟨n, _, h⟩ := Outcome.bind_eq_ok.mp h
  split at h
  next => cases h
  next =>
    split at h
    next => cases h
    next =>
      obtain ⟨last, hlast, h⟩ := Outcome.bind_eq_ok.mp h
      cases last with
      | none => cases h
      | some m =>
          obtain ⟨cooling, hcooling, h⟩ := Outcome.bind_eq_ok.mp h
          cases cooling with
          | false => cases h
          | true =>
              refine ⟨m, ExecutionStore.last_mem_starts hlast, ?_⟩
              have hover := of_decide_eq_true (is_cooling_eq_ok (Outcome.map_error_eq_ok.mp hcooling)).symm
              omega

/-- A rule may not run because of its quota exactly if its trials of the day have used it up. -/
theorem quota_iff {day : Date} {n : Nat} (hday : now.utcDay = .ok day) (hn : s.count ruleId day = .ok n) :
    check s ruleId settings now = .ok (some dailyQuota) ↔
      settings.maxExecutionsPerDay ≤ s.triedOn ruleId now.dayNumber := by
  rw [← ExecutionStore.count_eq hday hn]
  constructor
  · intro h
    obtain ⟨day', hday', h⟩ := Outcome.bind_eq_ok.mp h
    obtain rfl := Except.ok.inj (hday.symm.trans (Outcome.map_error_eq_ok.mp hday'))
    obtain ⟨n', hn', h⟩ := Outcome.bind_eq_ok.mp h
    obtain rfl := Except.ok.inj (hn.symm.trans hn')
    by_contra hquota
    rw [if_neg hquota] at h
    split at h
    next => cases h
    next =>
      obtain ⟨last, _, h⟩ := Outcome.bind_eq_ok.mp h
      cases last with
      | none => cases h
      | some last =>
          obtain ⟨cooling, _, h⟩ := Outcome.bind_eq_ok.mp h
          cases cooling <;> cases h
  · intro hquota
    refine Outcome.bind_eq_ok.mpr ⟨day, Outcome.map_error_eq_ok.mpr hday, ?_⟩
    refine Outcome.bind_eq_ok.mpr ⟨n, hn, ?_⟩
    rw [if_pos hquota]

/-- The reason for a refusal is known from its wording. -/
theorem message_inj {reason reason' : RateLimit} (h : reason.message = reason'.message) : reason = reason' := by
  cases reason <;> cases reason' <;> first | rfl | exact absurd h (by decide)

end RateLimit

namespace ExecutionStore

/-- The number of executions of a rule that started on a day. -/
def startedOn (s : ExecutionStore) (ruleId : String) (day : Int) : Nat :=
  s.trials.countP fun u => u.ruleId == ruleId && (u.startedAt.map Moment.dayNumber == some day)

/-- The number of trials of a rule on a day that never started. -/
def refusedOn (s : ExecutionStore) (ruleId : String) (day : Int) : Nat :=
  s.trials.countP fun u => u.ruleId == ruleId && u.startedAt.isNone && u.triggeredAt.dayNumber == day

end ExecutionStore

/-- A rule of one action with a quota and a cooldown. -/
def Rule.limited (quota cooldown : Int) : Rule :=
  { Rule.plain "rule" [.plain "action"] with settings := ⟨quota, cooldown, 0, 0, false⟩ }

/-- All rules in memory have the same limits. -/
def RuleStore.isLimited (settings : RuleSettings) : RuleStore → Bool
  | memory t => t.rules.all (·.settings == settings)
  | sql _ => false

/-- Whether a store is in memory. -/
def ExecutionStore.isInMemory : ExecutionStore → Bool
  | .memory _ => true
  | .sql _ => false

namespace Engine

variable {σ : Type} {v : Environment σ} {e : Engine σ} {now : Moment} {act : Act} {r : Rule}
  {reason : Option RateLimit} {u : Trial}

/-- A trial that is recorded is of the rule, at the reading of the clock. -/
theorem Tries.told_as (h : e.Tries now act r reason u) :
    u.ruleId = r.id ∧ u.triggeredAt.instant = now.instant ∧
      ∀ m, u.startedAt = some m → reason = none ∧ m.instant = now.instant := by
  have htold := ExecutionStore.told_as h.told
  refine ⟨htold.ruleId, htold.triggeredAt, fun m hm => ?_⟩
  have hstarted := htold.startedAt
  rw [hm] at hstarted
  cases reason with
  | none => exact ⟨rfl, Option.some.inj hstarted⟩
  | some reason => cases hstarted

/-- During acts a trial was recorded when those before it were recorded. -/
def TriedAt (v : Environment σ) (e : Engine σ) (acts : List (Moment × Act)) (before : List Trial)
    (u : Trial) : Prop :=
  ∃ earlier now act later r reason, acts = earlier ++ (now, act) :: later ∧
    (e.after v earlier).executions.trials = before ∧ (e.after v earlier).Tries now act r reason u

/-- A trial that was recorded during acts was recorded when more acts follow. -/
theorem TriedAt.append {acts : List (Moment × Act)} {before : List Trial} (h : e.TriedAt v acts before u)
    (more : List (Moment × Act)) : e.TriedAt v (acts ++ more) before u := by
  obtain ⟨earlier, now, act, later, r, reason, rfl, hbefore, htries⟩ := h
  exact ⟨earlier, now, act, later ++ more, r, reason, List.append_assoc _ _ _, hbefore, htries⟩

/-- A call of a rule is refused exactly if its limits are a reason to, and the store keeps a record of that. -/
theorem refused_iff (ruleId : String) (data : Fields) (context : ExecutionContext) (triggeredBy : Option String)
    (reason : RateLimit) :
    (∃ id, (Act.execute ruleId data context triggeredBy).answer v now e =
        some (.error (.rateLimited reason.message id))) ↔
      ∃ r t, e.activeRule ruleId = .ok r ∧
        RateLimit.check e.executions r.id r.settings now = .ok (some reason) ∧
        e.executions.create (.refused r e.nextExecution now data context triggeredBy reason) = .ok t := by
  -- a failure of anything else is another one
  have hother : ∀ {f : Failure} {id}, f.isLimit = false →
      some (Except.error f : Outcome String) ≠ some (.error (.rateLimited reason.message id)) := by
    intro f id hf h
    obtain rfl := Except.error.inj (Option.some.inj h)
    cases hf
  constructor
  · rintro ⟨id, h⟩
    rw [execute_answer] at h
    cases hrule : e.activeRule ruleId with
    | error f =>
        rw [hrule] at h
        exact absurd h (hother (active_rule_unlimited e ruleId f hrule))
    | ok r =>
        rw [hrule] at h
        dsimp only at h
        refine ⟨r, ?_⟩
        rcases hcheck : RateLimit.check e.executions r.id r.settings now with f | _ | found <;> rw [hcheck] at h
        · exact absurd h (hother (RateLimit.check_unlimited _ _ _ _ f hcheck))
        · dsimp only at h
          cases hcreate : e.executions.create (.opened r e.nextExecution now data context triggeredBy) with
          | error f =>
              rw [hcreate] at h
              exact absurd h (hother (ExecutionStore.create_unlimited _ _ f hcreate))
          | ok t =>
              rw [hcreate] at h
              dsimp only at h
              obtain ⟨e', l, hcarry, hl⟩ | ⟨e', f, hcarry, hf⟩ := carry_out_gives v now r
                (.opened r e.nextExecution now data context triggeredBy)
                { e with executionIds := e.executionIds + 1, executions := t
                         inFlight := e.inFlight ++ [e.nextExecution] } <;> rw [hcarry] at h
              · obtain rfl | rfl := hl <;> cases h
              · exact absurd h (hother hf)
        · dsimp only at h
          cases hcreate : e.executions.create (.refused r e.nextExecution now data context triggeredBy found) with
          | error f =>
              rw [hcreate] at h
              exact absurd h (hother (ExecutionStore.create_unlimited _ _ f hcreate))
          | ok t =>
              rw [hcreate] at h
              obtain rfl := RateLimit.message_inj (Failure.rateLimited.inj (Except.error.inj (Option.some.inj h))).1
              exact ⟨t, rfl, rfl, hcreate⟩
  · rintro ⟨r, t, hrule, hcheck, hcreate⟩
    refine ⟨some (Execution.refused r e.nextExecution now data context triggeredBy reason).id, ?_⟩
    rw [execute_answer, hrule]
    dsimp only
    rw [hcheck]
    dsimp only
    rw [hcreate]

/-- A rule in use is one of those in memory. -/
theorem settings_of_use {settings : RuleSettings} (h : e.rules.isLimited settings = true) (huse : e.UsesRule r) :
    r.settings = settings := by
  obtain ⟨ruleId, huse⟩ := huse
  rw [activeRule] at huse
  cases hrules : e.rules with
  | sql t =>
      rw [hrules] at h
      cases h
  | memory t =>
      rw [hrules] at h huse
      obtain ⟨found, hfound, huse⟩ := Outcome.bind_eq_ok.mp huse
      obtain rfl := Except.ok.inj hfound
      cases hget : t.get? ruleId with
      | none =>
          rw [hget] at huse
          cases huse
      | some q =>
          rw [hget] at huse
          dsimp only at huse
          split at huse
          next =>
            obtain rfl := Except.ok.inj huse
            exact eq_of_beq (List.all_eq_true.mp h q (List.mem_of_find?_eq_some hget))
          next => cases huse

section Start

variable {rules : RuleStore} {p : ExecutionStore} {world : σ} {acts : List (Moment × Act)}
  {before after : List Trial}

/-- Every trial after acts on a new engine was recorded by one of them. -/
theorem tried_at (hempty : p.IsEmpty)
    (h : ((start rules p world).after v acts).executions.trials = before ++ u :: after) :
    (start rules p world).TriedAt v acts before u := by
  induction acts using List.reverseRecOn generalizing after with
  | nil =>
      have hnone : p.trials = before ++ u :: after := h
      rw [hempty.trials_eq_nil] at hnone
      cases before <;> cases hnone
  | append_singleton acts last ih =>
      have hrecorded := (after_recorded (start_recorded rules hempty world) v acts).1
      rw [after_append] at h
      obtain hsame | ⟨r, reason, w, htries, hadded⟩ := (act_trials hrecorded v last.1 last.2).2
      · exact (ih (hsame.symm.trans h)).append [last]
      · have hlist := hadded.symm.trans h
        -- the last trial is the one that the last act records
        obtain rfl | ⟨rest, x, rfl⟩ := List.eq_nil_or_concat after
        · obtain ⟨hbefore, hlast⟩ := List.append_inj' hlist rfl
          obtain rfl := List.singleton_inj.mp hlast
          exact ⟨acts, last.1, last.2, [], r, reason, rfl, hbefore, htries⟩
        · have hsplit : ((start rules p world).after v acts).executions.trials ++ [w] =
              (before ++ u :: rest) ++ [x] := by simpa using hlist
          exact (ih (List.append_inj' hsplit rfl).1).append [last]

/-- Executions start when they are triggered, if they start. -/
theorem starts_at_once (hempty : p.IsEmpty) (hu : u ∈ ((start rules p world).after v acts).executions.trials)
    {m : Moment} (hm : u.startedAt = some m) : m.instant = u.triggeredAt.instant := by
  obtain ⟨before, after, hsplit⟩ := List.append_of_mem hu
  obtain ⟨_, _, _, _, _, _, _, _, htries⟩ := tried_at hempty hsplit
  obtain ⟨_, htriggered, hstarted⟩ := htries.told_as
  rw [(hstarted m hm).2, htriggered]

/-- The trials of a rule on a day are the executions that started on it and those that never did. -/
theorem tried_on_eq (hempty : p.IsEmpty) (he : e = (start rules p world).after v acts) (ruleId : String)
    (day : Int) : e.executions.triedOn ruleId day =
      e.executions.startedOn ruleId day + e.executions.refusedOn ruleId day := by
  have honce : ∀ u ∈ e.executions.trials, ∀ m, u.startedAt = some m →
      m.instant = u.triggeredAt.instant := fun u hu m hm => starts_at_once hempty (he ▸ hu) hm
  unfold ExecutionStore.triedOn ExecutionStore.startedOn ExecutionStore.refusedOn
  generalize e.executions.trials = trials at honce
  induction trials with
  | nil => rfl
  | cons u trials ih =>
      obtain ⟨hu, hrest⟩ := List.forall_mem_cons.mp honce
      rw [List.countP_cons, List.countP_cons, List.countP_cons, ih hrest]
      cases hstarted : u.startedAt with
      | none =>
          simp
          omega
      | some m =>
          have hday : m.dayNumber = u.triggeredAt.dayNumber := by
            rw [Moment.dayNumber, hu m hstarted, Moment.dayNumber]
          simp [hday]
          omega

/-- An engine that keeps one rule in memory and whose actions wait. -/
def waiting (r : Rule) : Engine (List Attempt) :=
  start (.memory ⟨[r]⟩) (.memory .empty) (List.replicate 3 (.waits .plain))

/-- Calls of the rule at times. -/
def calls (times : List Int) : List (Moment × Act) :=
  times.map fun t => (.utc t, .execute "rule" [] .empty none)

/-- A call of a rule is refused because of its quota exactly if the executions of the day that started and those
that were refused come to it, as far as the day is told and counted and the record of the refusal is kept. A call
that is refused because the rule cools down comes less than the cooldown after one that started. -/
theorem quota_refuses_iff (hempty : p.IsEmpty) (he : e = (start rules p world).after v acts) (ruleId : String)
    (data : Fields) (context : ExecutionContext) (triggeredBy : Option String) :
    ((∃ id, (Act.execute ruleId data context triggeredBy).answer v now e =
        some (.error (.rateLimited RateLimit.dailyQuota.message id))) ↔
      ∃ r day n t, e.activeRule ruleId = .ok r ∧ now.utcDay = .ok day ∧ e.executions.count r.id day = .ok n ∧
        e.executions.create (.refused r e.nextExecution now data context triggeredBy .dailyQuota) = .ok t ∧
        r.settings.maxExecutionsPerDay ≤
          e.executions.startedOn r.id now.dayNumber + e.executions.refusedOn r.id now.dayNumber) ∧
    ((∃ id, (Act.execute ruleId data context triggeredBy).answer v now e =
        some (.error (.rateLimited RateLimit.cooldown.message id))) →
      ∃ r, e.activeRule ruleId = .ok r ∧ ∃ m ∈ e.executions.starts r.id,
        now.instant < m.instant + r.settings.cooldownPeriod * microsPerMinute) := by
  constructor
  · rw [refused_iff]
    constructor
    · rintro ⟨r, t, hrule, hcheck, hcreate⟩
      obtain ⟨day, hday, hcounted⟩ := Outcome.bind_eq_ok.mp hcheck
      obtain ⟨n, hn, _⟩ := Outcome.bind_eq_ok.mp hcounted
      have htried := (RateLimit.quota_iff (Outcome.map_error_eq_ok.mp hday) hn).mp hcheck
      rw [tried_on_eq hempty he] at htried
      exact ⟨r, day, n, t, hrule, Outcome.map_error_eq_ok.mp hday, hn, hcreate, by exact_mod_cast htried⟩
    · rintro ⟨r, day, n, t, hrule, hday, hn, hcreate, hquota⟩
      refine ⟨r, t, hrule, (RateLimit.quota_iff hday hn).mpr ?_, hcreate⟩
      rw [tried_on_eq hempty he]
      exact_mod_cast hquota
  · rintro hrefused
    obtain ⟨r, t, hrule, hcheck, _⟩ := refused_iff _ _ _ _ _ |>.mp hrefused
    exact ⟨r, hrule, RateLimit.started_of_cooldown hcheck⟩

end Start

/-- The third call on a day is refused because of a quota of two, though only the first one started. -/
theorem quota_refuses_iff_cooling :
    let e := (waiting (.limited 2 60)).after Environment.scripted (calls [0, 30 * microsPerMinute])
    (∃ id, (Act.execute "rule" [] .empty none).answer Environment.scripted (.utc (60 * microsPerMinute)) e =
        some (.error (.rateLimited RateLimit.dailyQuota.message id))) ∧
      e.executions.startedOn "rule" 0 = 1 ∧ e.executions.refusedOn "rule" 0 = 1 := by
  intro e
  have hempty : ExecutionStore.IsEmpty (.memory .empty) := fun _ => rfl
  have hcounts : e.executions.startedOn "rule" 0 = 1 ∧ e.executions.refusedOn "rule" 0 = 1 := by decide +kernel
  have hactive : ((e.activeRule "rule").toOption.map fun r => (r.id, r.settings.maxExecutionsPerDay)) =
      some ("rule", 2) := by decide +kernel
  have hday : (Moment.utc (60 * microsPerMinute)).utcDay = .ok ⟨1, 1, 1⟩ := rfl
  have hcount : (e.executions.count "rule" ⟨1, 1, 1⟩).toOption = some 2 := by decide +kernel
  have hmemory : e.executions.isInMemory = true := by decide +kernel
  have hcreate : ∀ x, ∃ t, e.executions.create x = .ok t := by
    intro x
    cases hstore : e.executions with
    | memory t => exact ⟨_, rfl⟩
    | sql t =>
        rw [hstore] at hmemory
        cases hmemory
  obtain ⟨r, hrule, heq⟩ := Outcome.ok_of_map hactive
  obtain ⟨hid, hquota⟩ := Prod.mk.inj heq
  obtain ⟨n, hn, _⟩ := Outcome.ok_of_map (Option.map_id'.trans hcount)
  obtain ⟨t, ht⟩ := hcreate (.refused r e.nextExecution (.utc (60 * microsPerMinute)) [] .empty none .dailyQuota)
  refine ⟨(quota_refuses_iff hempty rfl "rule" [] .empty none).1.mpr
    ⟨r, _, n, t, hrule, hday, hid ▸ hn, ht, ?_⟩, hcounts⟩
  have htried : (2 : Int) ≤ e.executions.startedOn "rule" 0 + e.executions.refusedOn "rule" 0 := by
    rw [hcounts.1, hcounts.2]
    decide
  rw [hid, hquota]
  exact htried

end Engine

end Rulebook
