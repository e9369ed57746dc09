import Mathlib.Data.List.Induction
import Rulebook.Proofs.Engine.Act
import Rulebook.Proofs.Engine.Core
import Rulebook.Proofs.Evaluation
import Rulebook.Proofs.Run.Tries

/-!
# How conditions are joined

One pass over a list of conditions keeps a result for those without a group and one for each group. The list can
also be read group by group: the conditions without a group are joined from the left starting from true, those of each
group from the left starting from the first, and all of these must hold. Both readings agree
(`Condition.all_hold_joined`), so conditions of different groups may change places, and a condition that comes to hold
does no harm. Where no condition holds the list does, if all conditions are joined by "or" and none is in a group;
in any other case the actions of the rule are left alone (`Condition.all_hold_of_none`).
-/

namespace Rulebook

namespace Condition

variable {holds holds' : Condition → Bool} {conditions others : List Condition} {c : Condition} {g : Option String}

/-- The conditions of a group, or those without one, in their order. -/
def inGroup (g : Option String) (conditions : List Condition) : List Condition :=
  conditions.filter (·.groupName? == g)

/-- Conditions joined from the left, starting from a truth value. -/
def joinFrom (holds : Condition → Bool) (b : Bool) (conditions : List Condition) : Bool :=
  conditions.foldl (fun b c => c.connective.apply b (holds c)) b

/-- Conditions joined from the left, starting from the first, whose own connective does not count. -/
def joinSeeded (holds : Condition → Bool) : List Condition → Bool
  | [] => true
  | c :: rest => joinFrom holds (holds c) rest

/-- Conditions joined group by group. -/
def joined (holds : Condition → Bool) (conditions : List Condition) : Bool :=
  joinFrom holds true (inGroup none conditions) &&
    (conditions.filterMap groupName?).all fun g => joinSeeded holds (inGroup (some g) conditions)

/-- A condition is added to the end of its group. -/
theorem in_group_append_of_eq (h : c.groupName? = g) : inGroup g (conditions ++ [c]) = inGroup g conditions ++ [c] := by
  simp [inGroup, h]

/-- A condition is added to no other group. -/
theorem in_group_append_of_ne (h : c.groupName? ≠ g) : inGroup g (conditions ++ [c]) = inGroup g conditions := by
  simp [inGroup, h]

/-- A group has conditions if it is the group of one. -/
theorem in_group_ne_nil_iff : inGroup g conditions ≠ [] ↔ ∃ c ∈ conditions, c.groupName? = g := by
  simp [inGroup, List.filter_eq_nil_iff]

/-- A further condition is joined with those before it. -/
theorem join_from_append (b : Bool) :
    joinFrom holds b (conditions ++ [c]) = c.connective.apply (joinFrom holds b conditions) (holds c) := by
  rw [joinFrom, List.foldl_append]
  rfl

/-- A further condition is joined with those before it, if there are any. -/
theorem join_seeded_append : joinSeeded holds (conditions ++ [c]) =
    if conditions = [] then holds c else c.connective.apply (joinSeeded holds conditions) (holds c) := by
  cases conditions with
  | nil => rfl
  | cons d rest =>
      rw [if_neg (List.cons_ne_nil d rest)]
      exact join_from_append (holds d)

/-- Conditions joined group by group hold if those without a group and those of each group do. -/
theorem joined_eq_true_iff : joined holds conditions = true ↔ joinFrom holds true (inGroup none conditions) = true ∧
    ∀ g, joinSeeded holds (inGroup (some g) conditions) = true := by
  rw [joined, Bool.and_eq_true, List.all_eq_true]
  refine and_congr_right fun _ => ⟨fun h g => ?_, fun h g _ => h g⟩
  by_cases hgroup : inGroup (some g) conditions = []
  · rw [hgroup]
    rfl
  · obtain ⟨c, hc, hname⟩ := in_group_ne_nil_iff.mp hgroup
    exact h g (List.mem_filterMap.mpr ⟨c, hc, hname⟩)

/-- What is kept of the conditions so far after a further one. -/
def joinStep (holds : Condition → Bool) (kept : Bool × List (String × Bool)) (c : Condition) :
    Bool × List (String × Bool) :=
  match c.groupName? with
  | some g => (kept.1, joinGroup kept.2 g c.connective (holds c))
  | none => (c.connective.apply kept.1 (holds c), kept.2)

/-- Joining takes one step for each condition. -/
theorem combine_eq_fold : combine (conditions.map fun c => (c, holds c)) =
    ((conditions.foldl (joinStep holds) (true, [])).1 &&
      (conditions.foldl (joinStep holds) (true, [])).2.all (·.2)) := by
  rw [combine, List.foldl_map]
  rfl

/-- A group has a result if it is found among the results. -/
theorem any_group_iff {groups : List (String × Bool)} {label : String} :
    groups.any (·.1 == label) = true ↔ ∃ d, (label, d) ∈ groups := by
  simp

/-- A group that has a result gets a new one, and the others keep theirs. -/
theorem mem_join_known {groups : List (String × Bool)} {label other : String} {k : Connective} {a b : Bool}
    (hlabel : ∃ d, (label, d) ∈ groups) : (other, b) ∈ joinGroup groups label k a ↔
      other ≠ label ∧ (other, b) ∈ groups ∨ other = label ∧ ∃ d, (label, d) ∈ groups ∧ b = k.apply d a := by
  rw [joinGroup, if_pos (any_group_iff.mpr hlabel), List.mem_map]
  constructor
  · rintro ⟨⟨l, d⟩, hmem, heq⟩
    dsimp only at heq
    split at heq
    next hsame =>
      obtain ⟨rfl, rfl⟩ := Prod.mk.inj heq
      obtain rfl := beq_iff_eq.mp hsame
      exact .inr ⟨rfl, d, hmem, rfl⟩
    next hdiffers =>
      obtain ⟨rfl, rfl⟩ := Prod.mk.inj heq
      exact .inl ⟨hdiffers ∘ beq_iff_eq.mpr, hmem⟩
  · rintro (⟨hne, hmem⟩ | ⟨rfl, d, hmem, rfl⟩)
    · exact ⟨(other, b), hmem, by simp [hne]⟩
    · exact ⟨(other, d), hmem, by simp⟩

/-- A group without a result gets its first one, and the others keep theirs. -/
theorem mem_join_new {groups : List (String × Bool)} {label other : String} {k : Connective} {a b : Bool}
    (hlabel : ¬∃ d, (label, d) ∈ groups) :
    (other, b) ∈ joinGroup groups label k a ↔ (other, b) ∈ groups ∨ other = label ∧ b = a := by
  rw [joinGroup, if_neg (hlabel ∘ any_group_iff.mp), List.mem_append, List.mem_singleton, Prod.mk.injEq]

/-- What is kept of conditions are the results of those without a group and of each group. -/
structure Kept (holds : Condition → Bool) (conditions : List Condition) (kept : Bool × List (String × Bool)) :
    Prop where
  overall : kept.1 = joinFrom holds true (inGroup none conditions)
  groups : ∀ g b, (g, b) ∈ kept.2 ↔
    inGroup (some g) conditions ≠ [] ∧ b = joinSeeded holds (inGroup (some g) conditions)

/-- A step keeps the results up to date. -/
theorem Kept.step {kept : Bool × List (String × Bool)} (h : Kept holds conditions kept) :
    Kept holds (conditions ++ [c]) (joinStep holds kept c) := by
  unfold joinStep
  split
  next label hlabel =>
    have hother : ∀ {g}, g ≠ some label → inGroup g (conditions ++ [c]) = inGroup g conditions :=
      fun hne => in_group_append_of_ne (hlabel ▸ hne.symm)
    refine ⟨by rw [hother (Option.some_ne_none label).symm]; exact h.overall, fun g b => ?_⟩
    have hknown : (∃ d, (label, d) ∈ kept.2) ↔ inGroup (some label) conditions ≠ [] := by simp [h.groups]
    by_cases hg : g = label
    · subst hg
      rw [in_group_append_of_eq hlabel, join_seeded_append]
      by_cases hfirst : inGroup (some g) conditions = []
      · rw [mem_join_new (hknown.not.mpr (not_not_intro hfirst))]
        simp [h.groups, hfirst]
      · rw [mem_join_known (hknown.mpr hfirst)]
        simp [h.groups, hfirst]
    · rw [hother (hg ∘ Option.some.inj), ← h.groups]
      by_cases hfirst : ∃ d, (label, d) ∈ kept.2
      · simp [mem_join_known hfirst, hg]
      · simp [mem_join_new hfirst, hg]
  next hnone =>
    refine ⟨by rw [in_group_append_of_eq hnone, join_from_append, h.overall], fun g b => ?_⟩
    rw [in_group_append_of_ne (by rw [hnone]; nofun)]
    exact h.groups g b

/-- After any number of conditions the results are up to date. -/
theorem kept_of_fold (holds : Condition → Bool) (conditions : List Condition) :
    Kept holds conditions (conditions.foldl (joinStep holds) (true, [])) := by
  induction conditions using List.reverseRecOn with
  | nil => exact ⟨rfl, by simp [inGroup]⟩
  | append_singleton conditions c ih =>
      rw [List.foldl_append]
      exact ih.step

/-- One pass joins conditions as they are joined group by group. -/
theorem combine_eq_joined : combine (conditions.map fun c => (c, holds c)) = joined holds conditions := by
  have hkept := kept_of_fold holds conditions
  rw [combine_eq_fold, Bool.eq_iff_iff, joined_eq_true_iff, Bool.and_eq_true, hkept.overall, List.all_eq_true]
  refine and_congr_right fun _ => ⟨fun h g => ?_, ?_⟩
  · by_cases hgroup : inGroup (some g) conditions = []
    · rw [hgroup]
      rfl
    · exact h (g, _) ((hkept.groups g _).mpr ⟨hgroup, rfl⟩)
  · rintro h ⟨g, b⟩ hmem
    rw [((hkept.groups g b).mp hmem).2]
    exact h g

variable {data : Value}

/-- Conditions that are told one by one are joined group by group. -/
theorem all_hold_eq_joined (h : ∀ c ∈ conditions, c.holdsIn data = .ok (holds c)) :
    allHold conditions data = .ok (joined holds conditions) := by
  have hpair : ∀ c ∈ conditions, (c.holdsIn data).map (fun b => (c, b)) = .ok (c, holds c) :=
    fun c hc => by rw [h c hc]; rfl
  rw [allHold, Outcome.map_eq_ok_of_eq (g := fun c => (c, holds c)) hpair, ← combine_eq_joined]
  rfl

/-- Lists with the same conditions in each group, in the same order, have the same result. -/
theorem joined_eq_of_groups (h : ∀ g, inGroup g others = inGroup g conditions) :
    joined holds others = joined holds conditions := by
  rw [Bool.eq_iff_iff, joined_eq_true_iff, joined_eq_true_iff, h none]
  simp only [h]

/-- A condition that is joined as another one and holds where that one does. -/
structure Exceeds (holds holds' : Condition → Bool) (c d : Condition) : Prop where
  group : d.groupName? = c.groupName?
  connective : d.connective = c.connective
  holds : holds c = true → holds' d = true

/-- Conditions that hold where others do are joined to what holds where those do. -/
theorem join_from_mono {b b' : Bool} (h : List.Forall₂ (Exceeds holds holds') conditions others)
    (hb : b = true → b' = true) (hjoin : joinFrom holds b conditions = true) : joinFrom holds' b' others = true := by
  induction h generalizing b b' with
  | nil => exact hb hjoin
  | @cons c d conditions others hcd _ ih =>
      refine ih ?_ hjoin
      dsimp only
      rw [hcd.connective]
      cases c.connective with
      | and =>
          simp only [Connective.apply, Bool.and_eq_true]
          exact And.imp hb hcd.holds
      | or =>
          simp only [Connective.apply, Bool.or_eq_true]
          exact Or.imp hb hcd.holds

/-- Conditions of a group that hold where others do hold together where those do. -/
theorem join_seeded_mono (h : List.Forall₂ (Exceeds holds holds') conditions others)
    (hjoin : joinSeeded holds conditions = true) : joinSeeded holds' others = true := by
  cases h with
  | nil => rfl
  | cons hcd hrest => exact join_from_mono hrest hcd.holds hjoin

/-- Conditions that hold where others do hold together where those do. -/
theorem joined_mono (h : List.Forall₂ (Exceeds holds holds') conditions others)
    (hjoined : joined holds conditions = true) : joined holds' others = true := by
  have hgroup : ∀ g, List.Forall₂ (Exceeds holds holds') (inGroup g conditions) (inGroup g others) := fun g =>
    List.rel_filter (fun c d hcd => by dsimp only; rw [hcd.group]) h
  obtain ⟨hnone, hsome⟩ := joined_eq_true_iff.mp hjoined
  exact joined_eq_true_iff.mpr
    ⟨join_from_mono (hgroup none) (fun h => h) hnone, fun g => join_seeded_mono (hgroup (some g)) (hsome g)⟩

/-- Conditions that are told one by one are joined group by group: those without a group from the left starting from
true, and those of each group from the left starting from the first, and all of these must hold. Conditions in another
order have the same result if those of each group, and those without one, keep their order; and conditions that hold
together still do when more of them hold. -/
theorem all_hold_joined (h : ∀ c ∈ conditions, c.holdsIn data = .ok (holds c)) :
    allHold conditions data = .ok (joined holds conditions) ∧
      (∀ others, (∀ g, inGroup g others = inGroup g conditions) → allHold others data = allHold conditions data) ∧
      ∀ others data' holds', (∀ d ∈ others, d.holdsIn data' = .ok (holds' d)) →
        List.Forall₂ (Exceeds holds holds') conditions others → allHold conditions data = .ok true →
        allHold others data' = .ok true := by
  have hjoined := all_hold_eq_joined h
  refine ⟨hjoined, fun others hgroups => ?_, fun others data' holds' hothers hexceed htrue => ?_⟩
  · have hothers : ∀ c ∈ others, c.holdsIn data = .ok (holds c) := by
      intro c hc
      have hmem : c ∈ inGroup c.groupName? others := List.mem_filter.mpr ⟨hc, beq_self_eq_true _⟩
      rw [hgroups] at hmem
      exact h c (List.mem_filter.mp hmem).1
    rw [all_hold_eq_joined hothers, hjoined, joined_eq_of_groups hgroups]
  · rw [hjoined] at htrue
    rw [all_hold_eq_joined hothers, joined_mono hexceed (Except.ok.inj htrue)]

/-- A condition that a field is one. -/
def isOne (field : String) (connective : Connective) (group : Option String) : Condition :=
  ⟨field, field, .equals, .int 1, connective, group⟩

/-- Data in which some fields are one and there are no others. -/
def ones (fields : List String) : Value := .object (fields.map (·, .int 1))

/-- Conditions of two groups among some without a group. -/
def mixed : List Condition :=
  [isOne "a" .or (some "left"), isOne "b" .and none, isOne "c" .or (some "right"), isOne "d" .or (some "left"),
    isOne "e" .or (some "")]

/-- Mixed conditions hold together although the first of a group does not hold. They do so in another order, and
when more of them hold. -/
theorem all_hold_joined_mixed :
    (∀ x ∈ mixed, x.holdsIn (ones ["c", "d", "e"]) = .ok (["c", "d", "e"].contains x.field)) ∧
      allHold mixed (ones ["c", "d", "e"]) = .ok true ∧
      allHold [isOne "c" .or (some "right"), isOne "b" .and none, isOne "a" .or (some "left"), isOne "e" .or (some ""),
        isOne "d" .or (some "left")] (ones ["c", "d", "e"]) = .ok true ∧
      allHold mixed (ones ["a", "c", "d", "e"]) = .ok true := by
  have heach : ∀ x ∈ mixed, x.holdsIn (ones ["c", "d", "e"]) = .ok (["c", "d", "e"].contains x.field) := by
    decide +kernel
  have hmore : ∀ x ∈ mixed, x.holdsIn (ones ["a", "c", "d", "e"]) = .ok (["a", "c", "d", "e"].contains x.field) := by
    decide +kernel
  have hjoined : joined (fun x => ["c", "d", "e"].contains x.field) mixed = true := by decide +kernel
  obtain ⟨hall, horder, hmono⟩ := all_hold_joined heach
  rw [hjoined] at hall
  refine ⟨heach, hall, (horder _ fun g => ?_).trans hall, hmono _ _ _ hmore ?_ hall⟩
  · rcases g with _ | g
    · rfl
    by_cases hleft : g = "left"
    · subst hleft
      rfl
    by_cases hright : g = "right"
    · subst hright
      rfl
    simp [inGroup, mixed, isOne, groupName?, Ne.symm hleft, Ne.symm hright]
  · refine List.forall₂_same.mpr fun x _ => ⟨rfl, rfl, fun hx => ?_⟩
    rw [List.contains_cons, hx, Bool.or_true]

/-- Conditions of which none holds are met exactly if all are joined by "or" to what is met. -/
theorem join_from_of_none {b : Bool} (h : ∀ c ∈ conditions, holds c = false) :
    joinFrom holds b conditions = (b && conditions.all (·.connective == .or)) := by
  induction conditions generalizing b with
  | nil => exact (Bool.and_true b).symm
  | cons c conditions ih =>
      obtain ⟨hc, hrest⟩ := List.forall_mem_cons.mp h
      have hfirst : c.connective.apply b (holds c) = (b && c.connective == .or) := by
        rw [hc]
        cases c.connective <;> cases b <;> rfl
      rw [List.all_cons, ← Bool.and_assoc, ← hfirst]
      exact ih hrest

/-- A group is not met if none of its conditions holds, whatever their connectives. -/
theorem join_seeded_of_none (h : ∀ c ∈ conditions, holds c = false) :
    joinSeeded holds conditions = true ↔ conditions = [] := by
  cases conditions with
  | nil => exact iff_of_true rfl rfl
  | cons c conditions =>
      obtain ⟨hc, hrest⟩ := List.forall_mem_cons.mp h
      rw [joinSeeded, hc, join_from_of_none hrest]
      exact iff_of_false nofun nofun

/-- Conditions of which none holds are met exactly if none is in a group and all are joined by "or". -/
theorem joined_of_none (h : ∀ c ∈ conditions, holds c = false) :
    joined holds conditions = conditions.all fun c => c.groupName? == none && c.connective == .or := by
  have hgroup : ∀ g, ∀ c ∈ inGroup g conditions, holds c = false := fun g c hc => h c (List.mem_filter.mp hc).1
  rw [Bool.eq_iff_iff, joined_eq_true_iff, join_from_of_none (hgroup none)]
  simp only [fun g => join_seeded_of_none (hgroup (some g)), Bool.true_and, List.all_eq_true, Bool.and_eq_true,
    beq_iff_eq]
  constructor
  · rintro ⟨hor, hempty⟩ c hc
    have hnone : c.groupName? = none := by
      cases hname : c.groupName? with
      | none => rfl
      | some g => exact absurd (hempty g) (in_group_ne_nil_iff.mpr ⟨c, hc, hname⟩)
    exact ⟨hnone, hor c (List.mem_filter.mpr ⟨hc, beq_iff_eq.mpr hnone⟩)⟩
  · intro hall
    refine ⟨fun c hc => (hall c (List.mem_filter.mp hc).1).2, fun g => ?_⟩
    by_contra hne
    obtain ⟨c, hc, hname⟩ := in_group_ne_nil_iff.mp hne
    rw [(hall c hc).1] at hname
    cases hname

end Condition

/-- A rule whose conditions do not hold leaves the world and the runs as they are. -/
theorem Engine.execute_unmet {σ : Type} {e : Engine σ} {v : Environment σ} {now : Moment} {ruleId : String} {r : Rule}
    {data : Fields} {context : ExecutionContext} {triggeredBy : Option String} (hrule : e.activeRule ruleId = .ok r)
    (hunmet : Condition.allHold r.conditions (.object (evaluationData data (some context))) = .ok false) :
    (e.execute v now ruleId data context triggeredBy).1.world = e.world ∧
      (e.execute v now ruleId data context triggeredBy).1.runs = e.runs := by
  have hsame : ∀ k : Core σ, (e.execute v now ruleId data context triggeredBy).1.core = k →
      k.world = e.world ∧ k.runs = e.runs →
      (e.execute v now ruleId data context triggeredBy).1.world = e.world ∧
        (e.execute v now ruleId data context triggeredBy).1.runs = e.runs := by
    rintro k rfl hk
    exact hk
  obtain ⟨_, h⟩ | h | ⟨_, _, _, _, h⟩ | ⟨r', x, t, hr, _, rfl, _, h⟩ :=
    e.execute_core v now ruleId data context triggeredBy
  · exact hsame _ h ⟨rfl, rfl⟩
  · exact hsame _ h ⟨rfl, rfl⟩
  · exact hsame _ h ⟨rfl, rfl⟩
  · obtain rfl := Except.ok.inj (hr.symm.trans hrule)
    have hseen : (Execution.opened r' (identifier "exec" (e.executionIds + 1)) now data context triggeredBy).seen =
        .object (evaluationData data (some context)) := rfl
    rw [hseen, hunmet] at h
    exact hsame _ h ⟨rfl, rfl⟩

/-- Conditions of which none holds are met exactly if none is in a group and all are joined by "or". So if one is in a
group or is joined by "and" they are not met, and executing a rule with these conditions calls no action. -/
theorem Condition.all_hold_of_none {conditions : List Condition} {data : Value}
    (h : ∀ c ∈ conditions, c.holdsIn data = .ok false) :
    allHold conditions data = .ok (conditions.all fun c => c.groupName? == none && c.connective == .or) ∧
      ((∃ c ∈ conditions, c.groupName? ≠ none ∨ c.connective = .and) → allHold conditions data = .ok false ∧
        ∀ {σ : Type} (v : Environment σ) (now : Moment) (e : Engine σ) (ruleId : String) (r : Rule) (fields : Fields)
          (context : ExecutionContext) (triggeredBy : Option String), e.activeRule ruleId = .ok r →
          r.conditions = conditions → data = .object (evaluationData fields (some context)) →
          (e.execute v now ruleId fields context triggeredBy).1.world = e.world ∧
            (e.execute v now ruleId fields context triggeredBy).1.runs = e.runs) := by
  have hall : allHold conditions data = .ok (joined (fun _ => false) conditions) := all_hold_eq_joined h
  rw [joined_of_none fun _ _ => rfl] at hall
  refine ⟨hall, ?_⟩
  rintro ⟨c, hc, hjoins⟩
  have hunmet : allHold conditions data = .ok false := by
    rw [hall, Except.ok.injEq, List.all_eq_false]
    refine ⟨c, hc, ?_⟩
    obtain hgroup | hand := hjoins
    · simp [hgroup]
    · simp [hand]
  refine ⟨hunmet, fun v now e ruleId r fields context triggeredBy hrule hconditions hdata => ?_⟩
  subst hconditions hdata
  exact Engine.execute_unmet hrule hunmet

/-- A condition that is joined by "or" before one in a group: neither holds, and the action is not called. -/
theorem Condition.all_hold_of_none_grouped :
    let r := { Rule.plain "rule" [.plain "action"] with conditions := [isOne "a" .or none, isOne "b" .or (some "g")] }
    let e : Engine (Traced (List Attempt)) := .start (.memory ⟨[r]⟩) (.memory .empty) ⟨[], []⟩
    let data : Value := .object (evaluationData [] (some .empty))
    (∀ c ∈ r.conditions, c.holdsIn data = .ok false) ∧ allHold r.conditions data = .ok false ∧
      (e.execute Environment.scripted.traced (.utc 0) "rule" [] .empty none).1.world.tries = [] := by
  intro r e data
  have hnone : ∀ c ∈ r.conditions, c.holdsIn data = .ok false := by decide +kernel
  obtain ⟨hunmet, hidle⟩ := (all_hold_of_none hnone).2 ⟨isOne "b" .or (some "g"), by simp [r], .inl (by decide)⟩
  have hworld := (hidle Environment.scripted.traced (.utc 0) e "rule" r [] .empty none rfl rfl rfl).1
  exact ⟨hnone, hunmet, congrArg Traced.tries hworld⟩

/-- A single condition that is joined by "or" and does not hold is met all the same, and the action is called. -/
theorem Condition.met_without_holding :
    let r := { Rule.plain "rule" [.plain "action"] with conditions := [isOne "a" .or none] }
    let e : Engine (Traced (List Attempt)) := .start (.memory ⟨[r]⟩) (.memory .empty) ⟨[], []⟩
    let data : Value := .object (evaluationData [("a", .int 0)] (some .empty))
    (∀ c ∈ r.conditions, c.holdsIn data = .ok false) ∧ allHold r.conditions data = .ok true ∧
      TryEvent.begunAt ⟨e.nextExecution, 0⟩
        (e.execute Environment.scripted.traced (.utc 0) "rule" [("a", .int 0)] .empty none).1.world.tries = 1 := by
  decide +kernel

end Rulebook
