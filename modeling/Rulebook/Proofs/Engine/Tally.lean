import Rulebook.Proofs.Engine.Recorded

/-!
# What recorded executions add up to

Recording an execution in a rule counts it and takes its outcome into the rolling success rate. Whatever is done to an
engine, the statistics of a rule are those that it was created with and what the executions made of them that were
recorded since then (`Engine.created_tallied`).
-/

namespace Rulebook

/-- A success rate after further outcomes, each taken in as it comes; `number` tells the numbers that it is made of. -/
def rollingRate {α : Type} [Add α] [Mul α] [Div α] (number : Nat → α) (round : α → α) : α → Nat → List Bool → α
  | rate, _, [] => rate
  | rate, before, completed :: later =>
    rollingRate number round
      (rollingMean round rate (number before) (number completed.toNat) (number (before + 1))) (before + 1) later

/-- Outcomes are taken in one after another. -/
theorem rolling_rate_append {α : Type} [Add α] [Mul α] [Div α] (number : Nat → α) (round : α → α) (rate : α)
    (before : Nat) (outcomes later : List Bool) :
    rollingRate number round rate before (outcomes ++ later) =
      rollingRate number round (rollingRate number round rate before outcomes) (before + outcomes.length) later := by
  induction outcomes generalizing rate before with
  | nil => rfl
  | cons completed outcomes ih =>
      rw [List.cons_append, rollingRate, rollingRate, ih, List.length_cons, Nat.add_right_comm, Nat.add_assoc]

namespace RuleMetadata

/-- What the statistics become when executions are recorded. They are counted, and what is below zero stays there. From
a natural number on, the success rate takes in how they ended. -/
structure Tallies (m n : RuleMetadata) (xs : List Execution) : Prop where
  count : n.executionCount = m.executionCount + xs.length
  sign : m.executionCount < 0 → n.executionCount < 0
  rate : ∀ before : Nat, m.executionCount = before → n.successRate =
    rollingRate (fun n => (Binary64.ofInt? n).getD 0) (Binary64.roundPlaces · 4) m.successRate before
      (xs.map fun x => decide (x.status = .completed))

namespace Tallies

variable {l m n : RuleMetadata} {x : Execution} {xs ys : List Execution}

/-- Statistics that are recorded without a call are tallied. -/
theorem of_records (h : m.Records n []) : m.Tallies n [] where
  count := h.count
  sign hsign := by
    rw [h.count]
    exact (Int.add_zero _).trans_lt hsign
  rate _ _ := (h.rates rfl).1

/-- Executions add up. -/
theorem trans (h : l.Tallies m xs) (h' : m.Tallies n ys) : l.Tallies n (xs ++ ys) where
  count := by
    rw [h'.count, h.count, List.length_append]
    omega
  sign hsign := h'.sign (h.sign hsign)
  rate before hbefore := by
    have hcount : m.executionCount = (before + xs.length : Nat) := by
      rw [h.count, hbefore]
      rfl
    rw [h'.rate _ hcount, h.rate before hbefore, List.map_append, rolling_rate_append, List.length_map]

/-- Recording an execution tallies it. -/
theorem of_recording (h : m.recording x = .ok n) : m.Tallies n [x] := by
  unfold recording at h
  dsimp only at h
  split at h
  next before after hbefore hafter =>
    split at h
    next => cases h
    next hnonzero =>
      obtain rfl := Except.ok.inj h
      refine ⟨rfl, fun hsign => ?_, fun count hcount => ?_⟩
      · show m.executionCount + 1 < 0
        omega
      have hsuccess : (if x.status = .completed then (1 : Float) else 0) =
          (Binary64.ofInt? (decide (x.status = .completed)).toNat).getD 0 := by
        by_cases hstatus : x.status = .completed
        · rw [if_pos hstatus, decide_eq_true hstatus]
          decide +kernel
        · rw [if_neg hstatus, decide_eq_false hstatus]
          decide +kernel
      rw [hcount] at hbefore hafter
      rw [← Int.natCast_succ] at hafter
      rw [List.map_singleton, rollingRate, rollingRate, hbefore, hafter, ← hsuccess]
      rfl
  next => cases h

end Tallies

end RuleMetadata

namespace Engine

variable {σ : Type} {v : Environment σ} {now : Moment} {e : Engine σ} {act : Act} {acts : List (Moment × Act)}
  {q r : Rule} {id : String}

/-- The executions of a rule that acts record. -/
def recordingsOf (v : Environment σ) (e : Engine σ) (acts : List (Moment × Act)) (ruleId : String) : List Execution :=
  (e.recordings v acts).filter (·.ruleId == ruleId)

/-- An act tallies the execution that it records. -/
theorem act_tallied (he : e.Faithful) (hnow : e.rules.isDatabase = true → now.IsTold)
    (hact : e.rules.isDatabase = true → act.IsAdmitted) (hq : e.rules.get id = .ok (some q))
    (hr : (act.apply v now e).rules.get id = .ok (some r)) :
    q.metadata.Tallies r.metadata (e.recordingsOf v [(now, act)] id) := by
  obtain ⟨_, hr', hbecomes⟩ := (act_becomes he hnow hact v).2 id q hq
  obtain rfl := Option.some.inj (Except.ok.inj (hr.symm.trans hr'))
  have hid := (RuleStore.owner_of_get hq).1
  have hstatistics := hbecomes.statistics
  rw [answered, answered, List.append_nil, hid] at hstatistics
  rw [recordingsOf, recordings, recordings, List.append_nil, recorded?]
  cases hanswered : act.answered? v now e with
  | none =>
      rw [hanswered] at hstatistics
      exact .of_records hstatistics
  | some u =>
      obtain ⟨y, hy, rfl, hrecords⟩ := answered_records hanswered
      rw [Option.isSome_some, if_pos rfl, hy, Option.toList_some]
      by_cases hmine : y.ruleId = id
      · rw [List.filter_cons_of_pos (by simpa using hmine), List.filter_nil]
        obtain ⟨hnone, _⟩ | ⟨p, metadata, hp, hrecording, hupdate⟩ := hrecords
        · rw [hmine, hq] at hnone
          cases hnone
        · rw [hmine, hq] at hp
          obtain rfl := Option.some.inj (Except.ok.inj hp)
          rw [← hid] at hq hr
          have hgives :=
            (recorded_gives he.rules (he.told_of_answered hnow hanswered) hq hrecording hupdate).self
          obtain rfl := Option.some.inj (Except.ok.inj (hr.symm.trans hgives))
          exact .of_recording hrecording
      · rw [List.filter_cons_of_neg (by simpa using hmine), List.filter_nil]
        have hother : ¬(y.trial.ruleId == id) = true := mt beq_iff_eq.mp hmine
        rw [hanswered, Option.toList_some, List.filter_cons, if_neg hother] at hstatistics
        exact .of_records hstatistics

/-- Acts tally the executions that they record. -/
theorem after_tallied (he : e.Faithful) (hacts : e.Admits acts) (hq : e.rules.get id = .ok (some q))
    (hr : (e.after v acts).rules.get id = .ok (some r)) :
    q.metadata.Tallies r.metadata (e.recordingsOf v acts id) := by
  induction acts generalizing e q with
  | nil =>
      obtain rfl := Option.some.inj (Except.ok.inj (hq.symm.trans hr))
      exact .of_records (.refl _)
  | cons act acts ih =>
      obtain ⟨now, act⟩ := act
      obtain ⟨hnow, hact⟩ := hacts.head
      obtain ⟨⟨hfaithful, hdatabase⟩, hstep⟩ := act_becomes he hnow hact v
      obtain ⟨p, hp, _⟩ := hstep id q hq
      have hfirst := act_tallied he hnow hact hq hp
      have hrest := ih hfaithful (hacts.tail hdatabase) hp hr
      rw [recordingsOf, recordings, recordings, List.append_nil] at hfirst
      rw [recordingsOf, recordings, List.filter_append]
      exact hfirst.trans hrest

/-- Whatever is done to a new engine, a rule that it keeps was created, and its statistics are those of the executions
that were recorded since then. -/
theorem created_tallied {rules : RuleStore} (hrules : rules.IsEmpty) {p : ExecutionStore} {world : σ}
    (hacts : (start rules p world).Admits acts)
    (hr : ((start rules p world).after v acts).rules.get id = .ok (some r)) :
    ∃ before now d later, acts = before ++ (now, .createRule d) :: later ∧
      d.metadata.Tallies r.metadata
        (((start rules p world).after v (before ++ [(now, .createRule d)])).recordingsOf v later id) := by
  have he := start_faithful hrules p world
  obtain ⟨before, now, d, later, heq, hcreated⟩ := after_creates he hrules.get hacts hr
  have hsplit : acts = (before ++ [(now, .createRule d)]) ++ later := by rw [heq, List.append_assoc]; rfl
  rw [hsplit] at hacts hr
  obtain ⟨⟨hfaithful, hsame⟩, _⟩ := after_becomes he hacts.left v
  rw [after_append] at hr
  have htallies := after_tallied hfaithful (hacts.right hsame) hcreated hr
  have hfirst : ∀ q : Rule, (rules.first q).metadata = q.metadata := fun q => by
    rw [RuleStore.first]
    split <;> rfl
  change RuleMetadata.Tallies (rules.first _).metadata _ _ at htallies
  rw [hfirst] at htallies
  exact ⟨before, now, d, later, heq, htallies⟩

end Engine

end Rulebook
