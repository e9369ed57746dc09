import Rulebook.Proofs.Engine.Statistics
import Rulebook.Proofs.Engine.Stray

/-!
# Rules that can be written again

A database refuses a rule whose priority or times do not fit in their columns, so what it keeps fits, and can be
written again with other metadata. Hence the store of an engine that was new answers, whatever was done to the engine
(`Engine.after_answers`).
-/

namespace Rulebook

/-- On a UTC clock the same instants are representable. -/
theorem Moment.overruns_in_utc (m : Moment) : m.inUtc.overruns = m.overruns := by
  rw [overruns, overruns, instant_in_utc]

/-- The priority and the times of a rule fit in the columns of a database. -/
structure Rule.Fits (r : Rule) : Prop where
  priority : Stored.fits r.priority = true
  createdAt : r.createdAt.overruns = false
  updatedAt : r.updatedAt.overruns = false

namespace Stored

/-- A time that can be told and is kept is representable in UTC. -/
theorem overruns_of_time {m k : Moment} (htold : m.IsTold) (h : time m = .ok k) : m.overruns = false := by
  cases haware : m.isAware with
  | true =>
      rw [time_eq haware, Outcome.barring] at h
      split at h
      next => cases h
      next hfits => exact Bool.eq_false_of_not_eq_true hfits
  | false =>
      have hoffset : m.offset = none := by simpa [Moment.isAware] using haware
      have hinstant : m.instant = m.wall := by
        rw [Moment.instant, Moment.offsetMicros, hoffset]
        show m.wall - 0 * microsPerSecond = m.wall
        omega
      rw [Moment.overruns, hinstant, htold.inRange]
      rfl

end Stored

namespace RuleRow

variable {r : Rule} {row : RuleRow}

/-- The parts of a rule that has a row are kept. -/
theorem parts_of_of_rule (h : ofRule r = .ok row) :
    (∃ m, Stored.time r.createdAt = .ok m) ∧ (∃ m, Stored.time r.updatedAt = .ok m) ∧
      Stored.fits r.priority = true := by
  rw [ofRule] at h
  obtain ⟨createdAt, hcreated, h⟩ := Outcome.bind_eq_ok.mp h
  obtain ⟨updatedAt, hupdated, h⟩ := Outcome.bind_eq_ok.mp h
  obtain ⟨priority, hpriority, _⟩ := Outcome.bind_eq_ok.mp h
  refine ⟨⟨createdAt, hcreated⟩, ⟨updatedAt, hupdated⟩, ?_⟩
  rw [Stored.integer] at hpriority
  split at hpriority
  next hfits => exact decide_eq_true hfits
  next => cases hpriority

/-- A rule in UTC that fits has a row. -/
theorem of_rule_of_fits (h : r.Fits) (hutc : r.inUtc = r) : ofRule r = .ok r.row := by
  have haware : ∀ m : Moment, m.inUtc.isAware = true := fun _ => rfl
  have hdated : r.IsDated :=
    ⟨by rw [← hutc]; exact haware _, by rw [← hutc]; exact haware _, h.priority⟩
  rw [of_rule_eq hdated, Rule.overruns, h.createdAt, h.updatedAt]
  rfl

end RuleRow

namespace RuleStore

variable {s s' : RuleStore} {q r : Rule} {id : String}

/-- The rules that a database keeps fit. -/
def Fits (s : RuleStore) : Prop := s.isDatabase = true → ∀ id q, s.get id = .ok (some q) → q.Fits

/-- A database has a row for what it takes. -/
theorem parts_of_create (hdatabase : s.isDatabase = true) (h : s.create r = .ok s') :
    ∃ row, RuleRow.ofRule r = .ok row := by
  cases s with
  | memory t => cases hdatabase
  | sql t =>
      obtain ⟨t', ht, rfl⟩ := Outcome.map_eq_ok.mp h
      unfold RuleRows.create at ht
      split at ht
      next => cases ht
      next =>
        obtain ⟨row, hrow, _⟩ := Outcome.map_eq_ok.mp ht
        exact ⟨row, hrow⟩

/-- A database has a row for what it takes. -/
theorem parts_of_update (hdatabase : s.isDatabase = true) (h : s.update r = .ok s') :
    ∃ row, RuleRow.ofRule r = .ok row := by
  cases s with
  | memory t => cases hdatabase
  | sql t =>
      obtain ⟨t', ht, rfl⟩ := Outcome.map_eq_ok.mp h
      unfold RuleRows.update at ht
      split at ht
      next =>
        obtain ⟨_, hwritten, _⟩ := Outcome.map_eq_ok.mp ht
        obtain ⟨row, hrow, _⟩ := Outcome.map_eq_ok.mp hwritten
        exact ⟨row, hrow⟩
      next => cases ht

/-- A store that gives back a rule that fits keeps rules that fit. -/
theorem Gives.fits (h : s.Gives s' id r) (hs : s.Fits) (hr : s.isDatabase = true → r.Fits) : s'.Fits := by
  intro hdatabase other q hq
  rw [h.database] at hdatabase
  by_cases hother : other = id
  · rw [hother, h.self] at hq
    obtain rfl := Option.some.inj (Except.ok.inj hq)
    exact hr hdatabase
  · rw [h.other other hother] at hq
    exact hs hdatabase other q hq

/-- A faithful store whose rules fit answers. -/
theorem IsFaithful.answers (hs : s.IsFaithful) (hfits : s.Fits) : s.Answers := by
  cases s with
  | memory t => exact memory_answers t
  | sql t =>
      refine ⟨hs.found, fun id q metadata hq => ?_⟩
      obtain ⟨hutc, _⟩ := hs.in_utc rfl hq
      have hrow : RuleRow.ofRule { q with metadata } = .ok _ :=
        RuleRow.of_rule_of_fits { hfits rfl id q hq with } (by
          have hcreated := congrArg Rule.createdAt hutc
          have hupdated := congrArg Rule.updatedAt hutc
          change q.createdAt.inUtc = q.createdAt at hcreated
          change q.updatedAt.inUtc = q.updatedAt at hupdated
          rw [Rule.inUtc]
          simp only [hcreated, hupdated])
      have hfound : (t.row? q.id).isSome = true := by
        rw [(owner_of_get hq).1]
        cases hnone : t.row? id with
        | some row => rfl
        | none =>
            rw [RuleStore.get, RuleRows.get, hnone] at hq
            cases hq
      show ∃ t', Except.map sql (t.update { q with metadata }) = .ok t'
      unfold RuleRows.update RuleRows.written
      rw [if_pos hfound, hrow]
      exact ⟨_, rfl⟩

end RuleStore

namespace Engine

variable {σ : Type} {v : Environment σ} {now : Moment} {e : Engine σ} {act : Act} {acts : List (Moment × Act)}

/-- The version that an act makes of a rule was last changed by the act. -/
theorem updated_of_revise {q r : Rule} (h : act.revise now q = some r) : r.updatedAt = now := by
  obtain ⟨_, _, ⟨d, rfl, rfl⟩ | ⟨rfl, rfl⟩⟩ := revise_cases h
  · rfl
  · rfl

/-- The rules that a database keeps fit, whatever is done to the engine. -/
theorem act_fits (he : e.Faithful) (hfits : e.rules.Fits) (hnow : e.rules.isDatabase = true → now.IsTold)
    (hact : e.rules.isDatabase = true → act.IsAdmitted) : (act.apply v now e).rules.Fits := by
  have htime : e.rules.isDatabase = true → ∀ k, Stored.time now = .ok k → now.overruns = false :=
    fun hdatabase k hk => Stored.overruns_of_time (hnow hdatabase) hk
  cases act_rules v now e act with
  | same hrules => exact hrules ▸ hfits
  | @created d hcreates hrules =>
      subst hcreates
      have hd : e.rules.isDatabase = true → d.IsAdmitted := hact
      obtain ⟨_, hgives⟩ := RuleStore.create_get he.rules
        (fun hdatabase => ⟨(hd hdatabase).reread.1, (hd hdatabase).reread.2⟩) hrules
      refine hgives.fits hfits fun hdatabase => ?_
      obtain ⟨row, hrow⟩ := RuleStore.parts_of_create hdatabase hrules
      obtain ⟨⟨_, hcreated⟩, _, hpriority⟩ := RuleRow.parts_of_of_rule hrow
      have hover := (now.overruns_in_utc).trans (htime hdatabase _ hcreated)
      rw [RuleStore.first, if_pos hdatabase]
      exact ⟨hpriority, hover, hover⟩
  | @revised q r hq hr hrules =>
      refine (revised_gives he.rules hact hq hr hrules).fits hfits fun hdatabase => ?_
      obtain ⟨row, hrow⟩ := RuleStore.parts_of_update hdatabase hrules
      obtain ⟨_, ⟨_, hupdated⟩, hpriority⟩ := RuleRow.parts_of_of_rule hrow
      rw [updated_of_revise hr] at hupdated
      have hcreated := (hfits hdatabase _ q hq).createdAt
      rw [← (origin_of_revise hr).2.1] at hcreated
      rw [RuleStore.version, if_pos hdatabase]
      refine ⟨hpriority, r.createdAt.overruns_in_utc.trans hcreated, r.updatedAt.overruns_in_utc.trans ?_⟩
      rw [updated_of_revise hr]
      exact htime hdatabase _ hupdated
  | @recorded x q metadata hanswered hq hmetadata hrules =>
      have hid := (RuleStore.owner_of_get hq).1
      rw [← hid] at hq
      have hgives := recorded_gives he.rules (he.told_of_answered hnow hanswered) hq hmetadata hrules
      exact hgives.fits hfits fun hdatabase => { hfits hdatabase _ q hq with }

/-- Whatever is done to an engine, the rules that its database keeps fit. -/
theorem after_fits (he : e.Faithful) (hfits : e.rules.Fits) (hacts : e.Admits acts) : (e.after v acts).rules.Fits := by
  induction acts generalizing e with
  | nil => exact hfits
  | cons act acts ih =>
      obtain ⟨now, act⟩ := act
      obtain ⟨hnow, hact⟩ := hacts.head
      obtain ⟨⟨hfaithful, hdatabase⟩, _⟩ := act_becomes he hnow hact v
      exact ih hfaithful (act_fits he hfits hnow hact) (hacts.tail hdatabase)

/-- The store of rules of an engine that was new answers, whatever was done to the engine. -/
theorem after_answers {rules : RuleStore} (hrules : rules.IsEmpty) {p : ExecutionStore} {world : σ}
    (hacts : (start rules p world).Admits acts) : ((start rules p world).after v acts).rules.Answers := by
  have he := start_faithful hrules p world
  have hfits : (start rules p world).rules.Fits := fun _ id q hq => by
    rw [show (start rules p world).rules = rules from rfl, hrules.get] at hq
    cases hq
  exact (after_becomes he hacts v).1.1.rules.answers (after_fits he hfits hacts)

end Engine

end Rulebook
