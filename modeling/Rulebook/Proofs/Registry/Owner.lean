import Rulebook.Proofs.Registry.Jobs
import Rulebook.Proofs.Store.Keyed

/-!
# Which triggers jobs are armed for

Whatever is done to a registry that starts without rules, each of its jobs was armed for a trigger in use of the
rule that is registered, also where registering a rule broke off (`Registry.Reached.owns`). Looking for what is due
leaves the jobs with their triggers.
-/

namespace Rulebook

namespace Job

/-- Two jobs are of one kind and for the same trigger of a rule. -/
structure SameUse (j k : Job) : Prop where
  ruleId : j.ruleId = k.ruleId
  triggerId : j.triggerId = k.triggerId
  kind : j.kind = k.kind

variable {j k : Job} {now : Moment}

/-- A job has its own use. -/
theorem SameUse.refl (j : Job) : j.SameUse j := ⟨rfl, rfl, rfl⟩

/-- A job that goes on stays in its use. -/
theorem same_use_of_advance {next : Job} (h : j.advance now = .ok next) : next.SameUse j := by
  obtain ⟨_, rfl⟩ | rfl := advance_eq_ok_cases h <;> exact ⟨rfl, rfl, rfl⟩

end Job

namespace Scheduler

/-- The jobs after a look at what is due, and those that are due, are those of before in their uses. -/
theorem advance_due_same_use (now : Moment) (flagged : List (Job × Bool)) :
    (∀ k ∈ (advanceDue now flagged).jobs, ∃ j ∈ flagged.map (·.1), k.SameUse j) ∧
      ∀ due, (advanceDue now flagged).due = .ok due → ∀ k ∈ due, ∃ j ∈ flagged.map (·.1), k.SameUse j := by
  induction flagged with
  | nil =>
      refine ⟨List.forall_mem_nil _, fun due hdue => ?_⟩
      cases hdue
      exact List.forall_mem_nil _
  | cons flagged rest ih =>
      obtain ⟨j, ripe⟩ := flagged
      obtain ⟨hjobs, hdues⟩ := ih
      have hrest : ∀ k : Job, (∃ j ∈ rest.map (·.1), k.SameUse j) →
          ∃ j' ∈ j :: rest.map (·.1), k.SameUse j' := fun k ⟨j', hj', h⟩ => ⟨j', List.mem_cons_of_mem _ hj', h⟩
      have hself : ∀ {k : Job}, k.SameUse j → ∃ j' ∈ j :: rest.map (·.1), k.SameUse j' :=
        fun h => ⟨j, List.mem_cons_self, h⟩
      rw [List.map_cons]
      unfold advanceDue
      cases ripe with
      | false =>
          exact ⟨List.forall_mem_cons.mpr ⟨hself (.refl j), fun k hk => hrest k (hjobs k hk)⟩,
            fun due hdue k hk => hrest k (hdues due hdue k hk)⟩
      | true =>
          dsimp only
          split
          next next hok =>
            have hnext := Job.same_use_of_advance hok
            refine ⟨List.forall_mem_cons.mpr ⟨hself hnext, fun k hk => hrest k (hjobs k hk)⟩,
              fun due hdue => ?_⟩
            obtain ⟨due', hdue', rfl⟩ := Outcome.map_eq_ok.mp hdue
            exact List.forall_mem_cons.mpr ⟨hself hnext, fun k hk => hrest k (hdues due' hdue' k hk)⟩
          next =>
            exact ⟨List.forall_mem_cons.mpr ⟨hself ⟨rfl, rfl, rfl⟩, fun k hk => hrest k (hjobs k hk)⟩,
              fun due hdue k hk => hrest k (hdues due hdue k hk)⟩
          next => exact ⟨fun k hk => ⟨k, hk, .refl k⟩, nofun⟩

/-- Looking for what is due leaves the jobs in their uses, and what is due are jobs in their uses. -/
theorem due_same_use (s : Scheduler) (now : Moment) :
    (∀ k ∈ (s.due now).jobs, ∃ j ∈ s.jobs, k.SameUse j) ∧
      ∀ due, (s.due now).due = .ok due → ∀ k ∈ due, ∃ j ∈ s.jobs, k.SameUse j := by
  unfold due
  split
  next => exact ⟨fun k hk => ⟨k, hk, .refl k⟩, nofun⟩
  next flags hflags =>
    have hlength : s.jobs.length ≤ flags.length :=
      Nat.le_of_eq (Outcome.forall_of_map_eq_ok hflags).length_eq
    have hsame := advance_due_same_use now (s.jobs.zip flags)
    rwa [List.map_fst_zip hlength] at hsame

end Scheduler

/-- A trigger is what a job was armed for: it has the identifier, and a condition or a schedule. -/
def Trigger.Arranges (t : Trigger) (j : Job) : Prop :=
  t.id = j.triggerId ∧ if j.kind = "condition" then ∃ p, t.source = .condition p else ∃ s, t.source = .schedule s

/-- A rule has a trigger in use that a job was armed for. -/
def Rule.Arranges (r : Rule) (j : Job) : Prop := ∃ t ∈ r.enabledTriggers, t.Arranges j

namespace Registry

/-- The registered rule of a job has a trigger in use that the job was armed for. -/
def Owns (g : Registry) (j : Job) : Prop := ∃ r, g.rule? j.ruleId = some r ∧ r.Arranges j

/-- What a registry that starts without rules can become when rules are registered and taken away and when what
is due is looked for. -/
inductive Reached : Registry → Prop where
  /-- It has no rules. -/
  | empty : Reached empty
  /-- A rule was registered, though this may have failed. -/
  | register {g : Registry} (polls : Bool) (now : Moment) (r : Rule) :
      Reached g → Reached (g.register polls now r).1
  /-- A rule was taken away. -/
  | unregister {g : Registry} (ruleId : String) : Reached g → Reached (g.unregister ruleId)
  /-- What is due was looked for. -/
  | due {g : Registry} (now : Moment) :
      Reached g → Reached { g with scheduler := ⟨(g.scheduler.due now).jobs⟩ }

variable {g : Registry} {polls : Bool} {now : Moment} {r : Rule} {t : Trigger} {ruleId : String} {j k : Job}

/-- A job in the same use is owned as well. -/
theorem Owns.same_use (h : g.Owns j) (hsame : k.SameUse j) : g.Owns k := by
  obtain ⟨r, hr, t, ht, hid, hkind⟩ := h
  exact ⟨r, hsame.ruleId ▸ hr, t, ht, hsame.triggerId ▸ hid, hsame.kind ▸ hkind⟩

/-- The job of a trigger is for the rule, and armed for the trigger. -/
theorem arranges_of_job (h : (jobOf polls now ruleId t).outcome = .ok (some j)) :
    j.ruleId = ruleId ∧ t.Arranges j := by
  unfold jobOf at h
  cases hsource : t.source with
  | schedule s =>
      rw [hsource] at h
      dsimp only at h
      split at h
      next hj =>
        cases h
        obtain ⟨hrule, hid, hkind⟩ := Job.use_of_schedule hj
        exact ⟨hrule, hid.symm, by rw [if_neg hkind]; exact ⟨s, hsource⟩⟩
      next => cases h
      next => cases h
  | condition p =>
      rw [hsource] at h
      dsimp only at h
      split at h
      · obtain ⟨_, hj, heq⟩ := Outcome.map_eq_ok.mp h
        cases heq
        obtain ⟨hrule, hid, hkind⟩ := Job.use_of_polling hj
        exact ⟨hrule, hid.symm, by rw [if_pos hkind]; exact ⟨p, hsource⟩⟩
      · cases h
  | _ =>
      rw [hsource] at h
      cases h

/-- Jobs that are armed are there already, or they are armed for one of the triggers. -/
theorem mem_arm_cases {triggers : List Trigger} {s : Scheduler}
    (h : j ∈ (arm polls now ruleId triggers s).1.jobs) :
    j ∈ s.jobs ∨ j.ruleId = ruleId ∧ ∃ t ∈ triggers, t.Arranges j := by
  induction triggers generalizing s with
  | nil => exact .inl h
  | cons t triggers ih =>
      unfold arm at h
      dsimp only at h
      split at h
      next => exact .inl h
      next job hjob =>
        obtain hj | ⟨hrule, u, hu, harranges⟩ := ih h
        · cases job with
          | none => exact .inl hj
          | some k =>
              obtain hkept | hnew := List.mem_append.mp hj
              · exact .inl (List.mem_filter.mp hkept).1
              · obtain rfl := List.mem_singleton.mp hnew
                obtain ⟨hrule, harranges⟩ := arranges_of_job hjob
                exact .inr ⟨hrule, t, List.mem_cons_self, harranges⟩
        · exact .inr ⟨hrule, u, List.mem_cons_of_mem _ hu, harranges⟩

/-- The rule of an identifier has the identifier. -/
theorem id_of_rule (h : g.rule? ruleId = some r) : r.id = ruleId := (Keyed.mem_of_find h).2

/-- A rule in use is found when it is registered. -/
theorem rule_of_register_self (hactive : r.isActive = true) :
    (g.register polls now r).1.rule? r.id = some r := by
  rw [rule?, register_rules, if_pos hactive]
  exact Keyed.find_add_self Rule.id rfl (Keyed.find_drop_self Rule.id g.rules)

/-- Without a rule the others are found as before. -/
theorem rule_of_unregister {other : String} (hne : other ≠ ruleId) :
    (g.unregister ruleId).rule? other = g.rule? other :=
  Keyed.find_drop_of_ne Rule.id hne g.rules

/-- When a rule is registered the others are found as before. -/
theorem rule_of_register {other : String} (hne : other ≠ r.id) :
    (g.register polls now r).1.rule? other = g.rule? other := by
  have hdropped : (g.rules.filter (·.id != r.id)).find? (·.id == other) = g.rule? other :=
    rule_of_unregister hne
  rw [rule?, register_rules]
  cases r.isActive with
  | true => exact (Keyed.find_add_of_ne Rule.id rfl hne).trans hdropped
  | false => exact (congrArg (List.find? _) (List.append_nil _)).trans hdropped

/-- Each job of a registry that was reached is owned by a rule. -/
theorem Reached.owns (h : g.Reached) : ∀ j ∈ g.scheduler.jobs, g.Owns j := by
  induction h with
  | empty => exact List.forall_mem_nil _
  | unregister ruleId _ ih =>
      intro j hj
      obtain ⟨hj, hne⟩ := List.mem_filter.mp hj
      obtain ⟨r, hr, harranges⟩ := ih j hj
      exact ⟨r, (rule_of_unregister (by simpa using hne)).trans hr, harranges⟩
  | @register g polls now r _ ih =>
      intro j hj
      cases hactive : r.isActive with
      | false =>
          rw [register_of_inactive hactive] at hj ⊢
          obtain ⟨hj, hne⟩ := List.mem_filter.mp hj
          obtain ⟨q, hq, harranges⟩ := ih j hj
          exact ⟨q, (rule_of_unregister (by simpa using hne)).trans hq, harranges⟩
      | true =>
          -- a job of the rule was armed now, as those that it had before are gone
          rw [register_of_active hactive] at hj
          obtain hj | ⟨hrule, t, ht, harranges⟩ := mem_arm_cases hj
          · obtain ⟨hj, hne⟩ := List.mem_filter.mp hj
            obtain ⟨q, hq, harranges⟩ := ih j hj
            exact ⟨q, (rule_of_register (by simpa using hne)).trans hq, harranges⟩
          · exact ⟨r, hrule ▸ rule_of_register_self hactive, t, ht, harranges⟩
  | due now _ ih =>
      intro k hk
      obtain ⟨j, hj, hsame⟩ := (Scheduler.due_same_use _ now).1 k hk
      exact Owns.same_use (ih j hj) hsame

end Registry

end Rulebook
