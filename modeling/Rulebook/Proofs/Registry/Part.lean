import Rulebook.Proofs.Registry.Overrun
import Rulebook.Proofs.Registry.Owner

/-!
# What a registry holds of some rules

A registry can be looked at as if it held some rules only, with what the indexes list of them and with their jobs
(`Registry.part`). Registering another rule and taking it away leave this part as it is
(`Registry.part_of_register`, `Registry.part_of_unregister`).
-/

namespace Rulebook

namespace Index

/-- The index as if it listed the wanted identifiers only. -/
def part (x : Index) (wanted : String → Bool) : Index :=
  ⟨(x.entries.map fun e => (e.1, e.2.filter wanted)).filter (!·.2.isEmpty)⟩

variable {wanted : String → Bool} {id : String}

/-- Dropping an unwanted identifier leaves the part. -/
theorem part_of_drop (h : wanted id = false) (x : Index) : (x.drop id).part wanted = x.part wanted := by
  have hids : ∀ ids : List String, (ids.filter (· != id)).filter wanted = ids.filter wanted := by
    intro ids
    rw [List.filter_filter]
    refine List.filter_congr fun other _ => ?_
    by_cases hother : other = id
    · simp [hother, h]
    · simp [hother]
  unfold drop part
  dsimp only
  congr 1
  induction x.entries with
  | nil => rfl
  | cons e l ih =>
      rw [List.map_cons, List.filter_cons, List.map_cons, List.filter_cons]
      dsimp only
      split
      next =>
        rw [List.map_cons, List.filter_cons, hids, ih]
      next hempty =>
        -- what is empty without the identifier is empty in the part
        have hnone : e.2.filter wanted = [] := by
          rw [← hids, show e.2.filter (· != id) = [] by simpa using hempty]
          rfl
        rw [hnone]
        exact ih

/-- Listing an unwanted identifier leaves the part. -/
theorem part_of_add (h : wanted id = false) (x : Index) (key : String) : (x.add key id).part wanted = x.part wanted := by
  have hextend : ∀ e : String × List String,
      ((extend key id e).1, (extend key id e).2.filter wanted) = (e.1, e.2.filter wanted) := by
    intro e
    refine Prod.ext (extend_key e) ?_
    unfold extend
    split
    · dsimp only
      split
      · rfl
      · simp [h]
    · rfl
  unfold part
  rw [add_entries]
  congr 1
  split
  next =>
    rw [List.map_map]
    exact congrArg _ (List.map_congr_left fun e _ => hextend e)
  next => simp [h]

end Index

namespace Scheduler

/-- The scheduler as if it held the jobs of the wanted rules only. -/
def part (s : Scheduler) (wanted : String → Bool) : Scheduler := ⟨s.jobs.filter (wanted ·.ruleId)⟩

variable {wanted : String → Bool}

/-- Arming a job of an unwanted rule leaves the part. -/
theorem part_of_arm {j : Job} (h : wanted j.ruleId = false) (s : Scheduler) :
    (s.arm j).1.part wanted = s.part wanted := by
  have hkeys : (s.jobs.filter (·.key != j.key)).filter (wanted ·.ruleId) = s.jobs.filter (wanted ·.ruleId) := by
    rw [List.filter_filter]
    refine List.filter_congr fun k _ => ?_
    by_cases hkey : k.key = j.key
    · have hrule : k.ruleId = j.ruleId := congrArg Prod.fst hkey
      simp [hrule, h]
    · simp [hkey]
  show Scheduler.mk ((s.jobs.filter (·.key != j.key) ++ [j]).filter _) = _
  rw [List.filter_append, hkeys, List.filter_singleton, h]
  exact congrArg Scheduler.mk (List.append_nil _)

/-- Taking the jobs of an unwanted rule away leaves the part. -/
theorem part_of_cancel_rule {ruleId : String} (h : wanted ruleId = false) (s : Scheduler) :
    (s.cancelRule ruleId).1.part wanted = s.part wanted := by
  refine congrArg Scheduler.mk ?_
  show (s.jobs.filter (·.ruleId != ruleId)).filter _ = _
  rw [List.filter_filter]
  refine List.filter_congr fun k _ => ?_
  by_cases hrule : k.ruleId = ruleId
  · simp [hrule, h]
  · simp [hrule]

end Scheduler

namespace Registry

/-- The registry as if it held the wanted rules only. -/
def part (g : Registry) (wanted : String → Bool) : Registry :=
  ⟨g.rules.filter (wanted ·.id), g.events.part wanted, g.webhooks.part wanted, g.scheduler.part wanted⟩

variable {wanted : String → Bool} {polls : Bool} {now : Moment} {ruleId : String} {q r : Rule}

/-- Taking an unwanted rule away leaves the part. -/
theorem part_of_unregister (h : wanted ruleId = false) (g : Registry) :
    (g.unregister ruleId).part wanted = g.part wanted := by
  have hrules : (g.rules.filter (·.id != ruleId)).filter (wanted ·.id) = g.rules.filter (wanted ·.id) := by
    rw [List.filter_filter]
    refine List.filter_congr fun r _ => ?_
    by_cases hid : r.id = ruleId
    · simp [hid, h]
    · simp [hid]
  rw [part, unregister, hrules, Index.part_of_drop h, Index.part_of_drop h, Scheduler.part_of_cancel_rule h, part]

/-- That an unwanted rule listens leaves the part. -/
theorem part_of_listen (h : wanted ruleId = false) (g : Registry) (t : Trigger) :
    (listen ruleId g t).part wanted = g.part wanted := by
  obtain ⟨_, _, _, heq⟩ | ⟨_, _, _, heq⟩ | ⟨_, _, heq⟩ := listen_cases ruleId g t <;> rw [heq]
  · rw [part, Index.part_of_add h, part]
  · rw [part, Index.part_of_add h, part]

/-- Entering an unwanted rule leaves the part. -/
theorem part_of_enter (h : wanted r.id = false) (g : Registry) : (g.enter r).part wanted = g.part wanted := by
  have hlisten : ∀ (triggers : List Trigger) (g : Registry),
      (triggers.foldl (listen r.id) g).part wanted = g.part wanted := by
    intro triggers
    induction triggers with
    | nil => exact fun _ => rfl
    | cons t triggers ih => exact fun g => (ih (listen r.id g t)).trans (part_of_listen h g t)
  refine (hlisten _ _).trans ?_
  simp [part, h]

/-- Arming the jobs of an unwanted rule leaves the part. -/
theorem part_of_armed (h : wanted ruleId = false) (triggers : List Trigger) (s : Scheduler) :
    (arm polls now ruleId triggers s).1.part wanted = s.part wanted := by
  induction triggers generalizing s with
  | nil => rfl
  | cons t triggers ih =>
      unfold arm
      dsimp only
      split
      next => rfl
      next j hj =>
        refine (ih _).trans ?_
        cases j with
        | none => rfl
        | some j => exact Scheduler.part_of_arm ((arranges_of_job hj).1 ▸ h) s

/-- Registering an unwanted rule leaves the part. -/
theorem part_of_register (h : wanted r.id = false) (g : Registry) :
    (g.register polls now r).1.part wanted = g.part wanted := by
  cases hactive : r.isActive with
  | true =>
      have henter := part_of_enter h (g.unregister r.id)
      rw [register_of_active hactive, ← part_of_unregister h g, ← henter, part, part, enter_scheduler,
        part_of_armed h]
  | false => rw [register_of_inactive hactive, part_of_unregister h]

/-- How registering a rule comes out depends on its triggers only. -/
theorem register_outcome_eq (g g' : Registry) (hactive : q.isActive = r.isActive) (htriggers : q.triggers = r.triggers) :
    (g.register polls now q).2.outcome = (g'.register polls now r).2.outcome := by
  have henabled : q.enabledTriggers = r.enabledTriggers := by rw [Rule.enabledTriggers, htriggers]; rfl
  have hiff : ∀ f, (g.register polls now q).2.outcome = .error f ↔ (g'.register polls now r).2.outcome = .error f := by
    intro f
    rw [register_eq_error_iff, register_eq_error_iff, hactive, henabled]
  cases hq : (g.register polls now q).2.outcome with
  | error f => exact ((hiff f).mp hq).symm
  | ok u =>
      cases hr : (g'.register polls now r).2.outcome with
      | error f => cases hq.symm.trans ((hiff f).mpr hr)
      | ok w => rfl

end Registry

end Rulebook
