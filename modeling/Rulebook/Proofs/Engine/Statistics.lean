import Rulebook.Proofs.Engine.Revision

/-!
# What rules record

A rule is read and written again by those that change its definition and by executions that end, whatever version of
it they began with. Still nothing is lost: what becomes of a rule that is kept (`Engine.Becomes`) is told by the
changes of its definition that the store took, in their order, and by the calls that were answered with the identifier
of an execution, in theirs. An act does one of these at most (`Engine.act_becomes`), and what acts do adds up
(`Engine.after_becomes`).
-/

namespace Rulebook

/-! ### Definitions and statistics -/

/-- The rule without the statistics of its executions. -/
def Rule.bare (r : Rule) : Rule :=
  { r with metadata := { r.metadata with lastExecuted := none, executionCount := 0, successRate := 0
                                         avgExecutionTime := 0 } }

/-- What metadata become when calls are answered: each is counted, the last one is remembered, and without one the
success rate and the mean duration stay. -/
structure RuleMetadata.Records (m n : RuleMetadata) (answered : List Trial) : Prop where
  count : n.executionCount = m.executionCount + answered.length
  last : n.lastExecuted = (answered.getLast?.map (·.triggeredAt)).or m.lastExecuted
  rates : answered = [] → n.successRate = m.successRate ∧ n.avgExecutionTime = m.avgExecutionTime

namespace RuleMetadata.Records

variable {l m n : RuleMetadata} {x : Execution} {before later : List Trial}

/-- Without a call metadata stay. -/
theorem refl (m : RuleMetadata) : m.Records m [] := ⟨(Int.add_zero _).symm, rfl, fun _ => ⟨rfl, rfl⟩⟩

/-- Calls add up. -/
theorem trans (h : l.Records m before) (h' : m.Records n later) : l.Records n (before ++ later) where
  count := by
    rw [h'.count, h.count, List.length_append]
    omega
  last := by
    rw [h'.last, h.last, List.getLast?_append]
    cases later.getLast? <;> rfl
  rates hnone := by
    obtain ⟨rfl, rfl⟩ := List.append_eq_nil_iff.mp hnone
    exact ⟨(h'.rates rfl).1.trans (h.rates rfl).1, (h'.rates rfl).2.trans (h.rates rfl).2⟩

/-- Recording an execution counts its call. -/
theorem of_recording (h : m.recording x = .ok n) : m.Records n [x.trial] := by
  unfold recording at h
  dsimp only at h
  split at h
  next =>
    split at h
    next => cases h
    next =>
      obtain rfl := Except.ok.inj h
      exact ⟨rfl, rfl, nofun⟩
  next => cases h

end RuleMetadata.Records

/-- What is given to an engine was admitted. -/
def Act.IsAdmitted : Act → Prop
  | createRule d => d.IsAdmitted
  | updateRule _ d _ => d.IsAdmitted
  | _ => True

/-- Statistics do not matter to whether a version is taken. -/
theorem RuleStore.takes_bare (s : RuleStore) (r : Rule) : s.takes r.bare = s.takes r := by
  cases s with
  | memory t =>
      rw [takes, takes, update, update, RuleTable.update, RuleTable.update, Rule.bare]
      dsimp only
      cases (t.get? r.id).isSome <;> rfl
  | sql t =>
      have hrow : (RuleRow.ofRule r.bare).toOption.isSome = (RuleRow.ofRule r).toOption.isSome := by
        rw [RuleRow.ofRule, RuleRow.ofRule, Rule.bare]
        dsimp only
        cases Stored.time r.createdAt with
        | error f => rfl
        | ok createdAt =>
            cases Stored.time r.updatedAt with
            | error f => rfl
            | ok updatedAt => cases Stored.integer r.priority <;> rfl
      rw [takes, takes, update, update, RuleRows.update, RuleRows.update, RuleRows.written, RuleRows.written]
      show (Except.map sql (if (t.row? r.id).isSome then _ else _)).toOption.isSome = _
      cases (t.row? r.id).isSome with
      | false => rfl
      | true =>
          revert hrow
          cases RuleRow.ofRule r.bare <;> cases RuleRow.ofRule r <;> intro hrow
          · rfl
          · cases hrow
          · cases hrow
          · rfl

namespace Engine

variable {σ : Type} {v : Environment σ} {now : Moment} {e : Engine σ}
variable {act : Act} {q r : Rule} {ruleId : String} {tenantId : Option String} {u : Trial}

/-- Statistics do not matter to the version that an act makes. -/
theorem revise_bare (act : Act) (q : Rule) : act.revise now q.bare = (act.revise now q).map Rule.bare := by
  cases act with
  | updateRule | deactivateRule =>
      rw [Act.revise, Act.revise, apply_ite (Option.map Rule.bare)]
      rfl
  | _ => rfl

/-! ### What a rule becomes -/

/-- The executions whose calls acts answer with their identifiers, in the order of the answers. -/
def answered (v : Environment σ) : Engine σ → List (Moment × Act) → List Trial
  | _, [] => []
  | e, (now, act) :: acts => (act.answered? v now e).toList ++ answered v (act.apply v now e) acts

/-- A rule after acts, as far as they change its definition. -/
def redefined (v : Environment σ) : Engine σ → List (Moment × Act) → Rule → Rule
  | _, [], q => q
  | e, (now, act) :: acts, q => redefined v (act.apply v now e) acts (e.revised now act q)

/-- What a rule becomes by acts: it stays the tenant's, and as it was created; its definition and the time of its last
change are those of the changes that the store took; and its statistics are those of the calls for the rule that were
answered. -/
structure Becomes (v : Environment σ) (e : Engine σ) (acts : List (Moment × Act)) (q r : Rule) : Prop where
  id : r.id = q.id
  tenantId : r.tenantId = q.tenantId
  createdAt : r.createdAt = q.createdAt
  createdBy : r.metadata.createdBy = q.metadata.createdBy
  definition : r.bare = e.redefined v acts q.bare
  statistics : q.metadata.Records r.metadata ((e.answered v acts).filter (·.ruleId == q.id))

/-- The rules of an engine can be read again, and in a database also after the executions that are under way. -/
structure Faithful (e : Engine σ) : Prop where
  rules : e.rules.IsFaithful
  runs : e.rules.isDatabase = true → ∀ run ∈ e.runs, run.execution.trial.triggeredAt.IsTold

/-- The call that a faithful engine answers was made at a time that can be told, if it keeps its rules in a database. -/
theorem Faithful.told_of_answered (he : e.Faithful) (hnow : e.rules.isDatabase = true → now.IsTold)
    (h : act.answered? v now e = some u) (hdatabase : e.rules.isDatabase = true) : u.triggeredAt.IsTold :=
  of_answered (P := fun u => u.triggeredAt.IsTold) (he.runs hdatabase) (fun _ _ _ _ _ _ _ => hnow hdatabase) h

/-- A rule becomes what it does one act after another. -/
theorem Becomes.cons {acts : List (Moment × Act)} {p : Rule} (h : e.Becomes v [(now, act)] p q)
    (h' : (act.apply v now e).Becomes v acts q r) : e.Becomes v ((now, act) :: acts) p r where
  id := h'.id.trans h.id
  tenantId := h'.tenantId.trans h.tenantId
  createdAt := h'.createdAt.trans h.createdAt
  createdBy := h'.createdBy.trans h.createdBy
  definition := by
    rw [h'.definition, h.definition]
    rfl
  statistics := by
    have hrecords := h.statistics.trans (h.id ▸ h'.statistics)
    rw [answered, answered, List.append_nil] at hrecords
    rwa [answered, List.filter_append]

/-- An act that neither changes the definition of a rule nor answers a call for it leaves it. -/
theorem becomes_self (hrevised : e.revised now act q.bare = q.bare)
    (hanswered : ∀ u, act.answered? v now e = some u → u.ruleId ≠ q.id) : e.Becomes v [(now, act)] q q where
  id := rfl
  tenantId := rfl
  createdAt := rfl
  createdBy := rfl
  definition := hrevised.symm
  statistics := by
    have hnone : (e.answered v [(now, act)]).filter (·.ruleId == q.id) = [] := by
      rw [answered, answered, List.append_nil, List.filter_eq_nil_iff]
      intro u hu
      simpa using hanswered u (Option.mem_toList.mp hu)
    rw [hnone]
    exact .refl _

/-! ### Versions that are written -/

/-- The version that an admitted act makes of a rule that can be read again can be read again. -/
theorem readable_of_revise (hq : q.IsReadable) (hact : act.IsAdmitted) (h : act.revise now q = some r) :
    r.IsReadable := by
  obtain ⟨_, _, ⟨d, rfl, rfl⟩ | ⟨rfl, rfl⟩⟩ := revise_cases h
  · have hd : d.IsReread .json := RuleDefinition.IsAdmitted.reread hact
    exact ⟨{ hd with metadata := RuleMetadata.read_give _ .json fun _ => hq.reread.told }, hq.tenant⟩
  · exact ⟨{ hq.reread with }, hq.tenant⟩

/-- The version that an act makes has metadata with the content of those before only if they are the same. -/
theorem metadata_of_revise (h : act.revise now q = some r)
    (hagrees : r.metadata.toValue.written.agrees q.metadata.toValue.written = true) : q.metadata = r.metadata := by
  have hcategory := RuleMetadata.category_of_agrees hagrees
  have htags := RuleMetadata.tags_of_agrees hagrees
  obtain ⟨_, _, ⟨d, rfl, rfl⟩ | ⟨rfl, rfl⟩⟩ := revise_cases h
  · show q.metadata = { q.metadata with category := d.metadata.category, tags := d.metadata.tags }
    rw [show d.metadata.category = q.metadata.category from hcategory,
      show d.metadata.tags = q.metadata.tags from htags]
  · rfl

/-- A version that is made of a rule is that of the tenant, and as the rule was created. -/
theorem origin_of_revise (h : act.revise now q = some r) :
    r.tenantId = q.tenantId ∧ r.createdAt = q.createdAt ∧ r.metadata.createdBy = q.metadata.createdBy ∧
      q.metadata.Records r.metadata [] := by
  obtain ⟨_, _, ⟨d, rfl, rfl⟩ | ⟨rfl, rfl⟩⟩ := revise_cases h
  · exact ⟨rfl, rfl, rfl, (Int.add_zero _).symm, rfl, fun _ => ⟨rfl, rfl⟩⟩
  · exact ⟨rfl, rfl, rfl, .refl _⟩

/-- What a store gives back of a version is the version, but for its lists and its times, and as the rule was created. -/
theorem origin_of_version (he : e.rules.IsFaithful) (hq : e.rules.get q.id = .ok (some q))
    (hcreated : r.createdAt = q.createdAt) :
    (e.rules.version q r).id = r.id ∧ (e.rules.version q r).tenantId = r.tenantId ∧
      (e.rules.version q r).createdAt = q.createdAt ∧ (e.rules.version q r).metadata = r.metadata := by
  rw [RuleStore.version]
  split
  next hdatabase =>
    have hutc := congrArg Rule.createdAt (he.in_utc hdatabase hq).1
    refine ⟨rfl, rfl, ?_, rfl⟩
    show r.createdAt.inUtc = q.createdAt
    rw [hcreated]
    exact hutc
  next => exact ⟨rfl, rfl, hcreated, rfl⟩

/-- A version of a rule with other statistics only is given back as it is. -/
theorem version_of_recorded (he : e.rules.IsFaithful) (hq : e.rules.get q.id = .ok (some q)) (metadata : RuleMetadata) :
    e.rules.version q { q with metadata } = { q with metadata } := by
  have hsame : ∀ {α : Type} (payload : α → Value) (a : α), Stored.staying payload a a = a := fun payload a => by
    rw [Stored.staying]
    split <;> rfl
  rw [RuleStore.version]
  split
  next hdatabase =>
    have hcreated := congrArg Rule.createdAt (he.in_utc hdatabase hq).1
    have hupdated := congrArg Rule.updatedAt (he.in_utc hdatabase hq).1
    change q.createdAt.inUtc = q.createdAt at hcreated
    change q.updatedAt.inUtc = q.updatedAt at hupdated
    simp only [Rule.writtenOver, hsame, hcreated, hupdated]
  next => rfl

/-- The version of a rule without its statistics is that of a version without them. -/
theorem version_bare (s : RuleStore) (q r : Rule) : s.version q.bare r.bare = (s.version q r).bare := by
  rw [RuleStore.version, RuleStore.version]
  split <;> rfl

/-- A rule that an act does not change stays as far as its definition goes. -/
theorem revised_of_ne (h : ∀ r, act.revise now q = some r → e.rules.takes r = false) :
    e.revised now act q.bare = q.bare := by
  rw [revised, revise_bare]
  cases hr : act.revise now q with
  | none => rfl
  | some r =>
      show (if e.rules.takes r.bare then _ else _) = _
      rw [RuleStore.takes_bare, h r hr]
      rfl

/-- A version that an act makes and the store takes is given back, and nothing else changes. -/
theorem revised_gives {s : RuleStore} (he : e.rules.IsFaithful) (hact : e.rules.isDatabase = true → act.IsAdmitted)
    (hq : e.rules.get q.id = .ok (some q)) (hr : act.revise now q = some r) (h : e.rules.update r = .ok s) :
    e.rules.Gives s q.id (e.rules.version q r) := by
  have hid := (id_of_revise hr).1
  have hkept : ∀ p, e.rules.get r.id = .ok (some p) → p = q := fun p hp => by
    rw [hid, hq] at hp
    exact (Option.some.inj (Except.ok.inj hp)).symm
  have hreadable : e.rules.isDatabase = true → r.IsReadable := fun hdatabase =>
    readable_of_revise (he.in_utc hdatabase hq).2 (hact hdatabase) hr
  obtain ⟨p, hp, hgives⟩ := RuleStore.update_get he hreadable (fun p hp hagrees => by
    obtain rfl := hkept p hp
    exact metadata_of_revise hr hagrees) h
  rw [hkept p hp, hid] at hgives
  exact hgives

/-- A rule with an execution recorded is given back, and nothing else changes. -/
theorem recorded_gives {s : RuleStore} {x : Execution} {metadata : RuleMetadata} (he : e.rules.IsFaithful)
    (htold : e.rules.isDatabase = true → x.triggeredAt.IsTold) (hq : e.rules.get q.id = .ok (some q))
    (hmetadata : q.metadata.recording x = .ok metadata) (h : e.rules.update { q with metadata } = .ok s) :
    e.rules.Gives s q.id { q with metadata } := by
  have hrecords := RuleMetadata.Records.of_recording hmetadata
  have hlast : metadata.lastExecuted = some x.triggeredAt := hrecords.last
  have hcount : metadata.executionCount = q.metadata.executionCount + 1 := hrecords.count
  have hkept : ∀ p, e.rules.get q.id = .ok (some p) → p = q := fun p hp => by
    rw [hq] at hp
    exact (Option.some.inj (Except.ok.inj hp)).symm
  have hreadable : e.rules.isDatabase = true → ({ q with metadata } : Rule).IsReadable := fun hdatabase =>
    (he.in_utc hdatabase hq).2.with_metadata fun t ht => by
      rw [hlast, Option.mem_some_iff] at ht
      exact ht ▸ htold hdatabase
  -- the number of executions differs, so the metadata are written
  obtain ⟨p, hp, hgives⟩ := RuleStore.update_get he hreadable (fun p hp hagrees => by
    have hsame : metadata.executionCount = p.metadata.executionCount := RuleMetadata.count_of_agrees hagrees
    rw [hkept p hp] at hsame
    omega) h
  rw [hkept p hp, version_of_recorded he hq] at hgives
  exact hgives

/-- A rule becomes the version that an act makes of it and the store takes. -/
theorem becomes_version (he : e.rules.IsFaithful) (hq : e.rules.get q.id = .ok (some q))
    (hr : act.revise now q = some r) (htakes : e.rules.takes r = true) :
    e.Becomes v [(now, act)] q (e.rules.version q r) := by
  obtain ⟨htenant, hcreated, hby, hrecords⟩ := origin_of_revise hr
  obtain ⟨hvid, hvtenant, hvcreated, hvmetadata⟩ := origin_of_version he hq hcreated
  exact
    { id := hvid.trans (id_of_revise hr).1
      tenantId := hvtenant.trans htenant
      createdAt := hvcreated
      createdBy := by rw [hvmetadata, hby]
      definition := by
        show _ = e.revised now act q.bare
        rw [revised, revise_bare, hr]
        show _ = if e.rules.takes r.bare then _ else _
        rw [RuleStore.takes_bare, htakes, if_pos rfl, version_bare]
      statistics := by
        rw [answered, answered, answered_of_revise hr, hvmetadata]
        exact hrecords }

/-- A rule becomes what it is with the execution recorded whose call an act answers. -/
theorem becomes_recorded {x : Execution} {metadata : RuleMetadata} (hanswered : act.answered? v now e = some x.trial)
    (hid : x.ruleId = q.id) (hmetadata : q.metadata.recording x = .ok metadata) :
    e.Becomes v [(now, act)] q { q with metadata } := by
  have hrecords := RuleMetadata.Records.of_recording hmetadata
  have hbare : ({ q with metadata } : Rule).bare = q.bare ∧ metadata.createdBy = q.metadata.createdBy := by
    unfold RuleMetadata.recording at hmetadata
    dsimp only at hmetadata
    split at hmetadata
    next =>
      split at hmetadata
      next => cases hmetadata
      next =>
        obtain rfl := Except.ok.inj hmetadata
        exact ⟨rfl, rfl⟩
    next => cases hmetadata
  exact
    { id := rfl
      tenantId := rfl
      createdAt := rfl
      createdBy := hbare.2
      definition := by
        show _ = e.revised now act q.bare
        rw [hbare.1, revised, revise_of_answered hanswered]
      statistics := by
        have hmine : (e.answered v [(now, act)]).filter (·.ruleId == q.id) = [x.trial] := by
          rw [answered, answered, hanswered]
          exact List.filter_cons_of_pos (beq_iff_eq.mpr hid)
        rw [hmine]
        exact hrecords }

/-- When a rule is given back as what it becomes, every rule that is kept is given back as what it becomes, if the act
is about that rule only. -/
theorem becomes_of_gives (hq : e.rules.get q.id = .ok (some q))
    (hgives : e.rules.Gives (act.apply v now e).rules q.id r) (hself : e.Becomes v [(now, act)] q r)
    (hrevise : ∀ p : Rule, p.id ≠ q.id → act.revise now p = none)
    (hanswered : ∀ u, act.answered? v now e = some u → u.ruleId = q.id) {id : String} {p : Rule}
    (hp : e.rules.get id = .ok (some p)) :
    ∃ r, (act.apply v now e).rules.get id = .ok (some r) ∧ e.Becomes v [(now, act)] p r := by
  obtain rfl := (RuleStore.owner_of_get hp).1
  by_cases hpq : p.id = q.id
  · rw [hpq, hq] at hp
    obtain rfl := Option.some.inj (Except.ok.inj hp)
    exact ⟨r, hgives.self, hself⟩
  · refine ⟨p, (hgives.other _ hpq).trans hp, becomes_self (revised_of_ne fun s hs => ?_) fun u hu hid => ?_⟩
    · rw [hrevise p hpq] at hs
      cases hs
    · exact hpq (hid.symm.trans (hanswered u hu))

/-- A rule that is kept becomes what an act makes of it, and the engine stays faithful. -/
theorem act_becomes (he : e.Faithful) (hnow : e.rules.isDatabase = true → now.IsTold)
    (hact : e.rules.isDatabase = true → act.IsAdmitted) (v : Environment σ) :
    ((act.apply v now e).Faithful ∧ (act.apply v now e).rules.isDatabase = e.rules.isDatabase) ∧
      ∀ id q, e.rules.get id = .ok (some q) →
        ∃ r, (act.apply v now e).rules.get id = .ok (some r) ∧ e.Becomes v [(now, act)] q r := by
  have hfaithful : (act.apply v now e).rules.IsFaithful →
      (act.apply v now e).rules.isDatabase = e.rules.isDatabase →
      (act.apply v now e).Faithful ∧ (act.apply v now e).rules.isDatabase = e.rules.isDatabase :=
    fun hrules hdatabase => ⟨⟨hrules, fun h => act_runs (P := fun u => u.triggeredAt.IsTold)
      (he.runs (hdatabase ▸ h)) (fun _ _ _ _ _ _ _ => hnow (hdatabase ▸ h)) v⟩, hdatabase⟩
  cases act_rules v now e act with
  | same hrules hrevised hanswered =>
      refine ⟨hfaithful (hrules ▸ he.rules) (by rw [hrules]), fun id q hq =>
        ⟨q, hrules ▸ hq, becomes_self (revised_of_ne fun r => hrevised id q r hq) fun u hu hid => ?_⟩⟩
      have hnone := hanswered u hu
      rw [hid, (RuleStore.owner_of_get hq).1, hq] at hnone
      cases hnone
  | @created d hcreates hrules =>
      subst hcreates
      have hd : e.rules.isDatabase = true → d.IsAdmitted := hact
      obtain ⟨hnew, hgives⟩ := RuleStore.create_get he.rules
        (fun hdatabase => ⟨(hd hdatabase).reread.1, (hd hdatabase).reread.2⟩) hrules
      refine ⟨hfaithful hgives.faithful hgives.database, fun id q hq => ⟨q, ?_, becomes_self rfl nofun⟩⟩
      rw [hgives.other id]
      · exact hq
      · rintro rfl
        rw [hnew] at hq
        cases hq
  | revised hq hr hrules =>
      have hgives := revised_gives he.rules hact hq hr hrules
      have htakes : e.rules.takes _ = true := congrArg (fun o => Option.isSome (Except.toOption o)) hrules
      refine ⟨hfaithful hgives.faithful hgives.database, fun id p hp => becomes_of_gives hq hgives
        (becomes_version he.rules hq hr htakes) (id_of_revise hr).2 (fun u hu => ?_) hp⟩
      rw [answered_of_revise hr] at hu
      cases hu
  | @recorded x q metadata hanswered hq hmetadata hrules =>
      have hid := (RuleStore.owner_of_get hq).1
      rw [← hid] at hq
      have hgives := recorded_gives he.rules (he.told_of_answered hnow hanswered) hq hmetadata hrules
      refine ⟨hfaithful hgives.faithful hgives.database, fun id p hp => becomes_of_gives hq hgives
        (becomes_recorded hanswered hid.symm hmetadata) (fun p _ => revise_of_answered hanswered p)
        (fun u hu => ?_) hp⟩
      rw [← Option.some.inj (hanswered.symm.trans hu)]
      exact hid.symm

/-- What is answered after a rule was written was answered by an engine that took it. -/
theorem takes_of_save {α : Type} {f : Unit → EngineM σ α} {a : α} (h : (e.perform (saveRule r >>= f)).2 = .ok a) :
    e.rules.takes r = true ∧ ∃ e' : Engine σ, (e'.perform (f ())).2 = .ok a := by
  rw [saveRule, perform_bind, perform_bind, perform_get] at h
  dsimp only at h
  rw [perform_bind, perform_lift] at h
  rw [RuleStore.takes]
  cases hupdate : e.rules.update r with
  | error f =>
      rw [hupdate] at h
      cases h
  | ok t =>
      rw [hupdate] at h
      exact ⟨rfl, _, h⟩

/-- What is answered after a rule was read was answered of a rule that the tenant gets. -/
theorem rule_of_answer {α : Type} {f : Rule → EngineM σ α} {a : α}
    (h : (e.perform (get >>= fun e => lift (e.getRule ruleId tenantId) >>= f)).2 = .ok a) :
    ∃ q, e.getRule ruleId tenantId = .ok q ∧ (e.perform (f q)).2 = .ok a := by
  rw [perform_bind, perform_get] at h
  dsimp only at h
  rw [perform_bind, perform_lift] at h
  cases hq : e.getRule ruleId tenantId with
  | error f =>
      rw [hq] at h
      cases h
  | ok q =>
      rw [hq] at h
      exact ⟨q, rfl, h⟩

/-- A definition that is answered is that of a version that the store took. -/
theorem update_rule_taken {d : RuleDefinition} (h : (e.perform (updateRule v now ruleId d tenantId)).2 = .ok r) :
    ∃ q, e.getRule ruleId tenantId = .ok q ∧ r = redefine q d now ∧ e.rules.takes r = true := by
  obtain ⟨q, hq, hsaved⟩ := rule_of_answer h
  obtain ⟨htakes, e', hrest⟩ := takes_of_save hsaved
  rw [perform_bind] at hrest
  rcases hregistered : e'.perform (register v now (redefine q d now)) with ⟨e'', f | _⟩ <;>
    rw [hregistered] at hrest
  · cases hrest
  · obtain rfl := Except.ok.inj hrest
    exact ⟨q, hq, rfl, htakes⟩

/-- A rule that is answered as taken out of use is a version that the store took. -/
theorem deactivate_rule_taken (h : (e.perform (deactivateRule now ruleId tenantId)).2 = .ok r) :
    ∃ q, e.getRule ruleId tenantId = .ok q ∧ r = { q with isActive := false, updatedAt := now } ∧
      e.rules.takes r = true := by
  obtain ⟨q, hq, hsaved⟩ := rule_of_answer h
  obtain ⟨htakes, e', hrest⟩ := takes_of_save hsaved
  obtain rfl := Except.ok.inj hrest
  exact ⟨q, hq, rfl, htakes⟩

/-- A rule that comes to be kept by an act is the one that the act creates. -/
theorem act_creates {id : String} (he : e.Faithful) (hnow : e.rules.isDatabase = true → now.IsTold)
    (hact : e.rules.isDatabase = true → act.IsAdmitted) (hnone : e.rules.get id = .ok none)
    (h : (act.apply v now e).rules.get id = .ok (some r)) :
    ∃ d, act = .createRule d ∧ r = e.rules.first { d with id, createdAt := now, updatedAt := now } := by
  -- what gives back one rule that was kept gives back no other one
  have hnot : ∀ {q r' : Rule}, e.rules.get q.id = .ok (some q) →
      e.rules.Gives (act.apply v now e).rules q.id r' → False := by
    intro q r' hq hgives
    have hne : id ≠ q.id := by
      rintro rfl
      rw [hq] at hnone
      cases hnone
    rw [hgives.other id hne, hnone] at h
    cases h
  cases act_rules v now e act with
  | same hrules =>
      rw [hrules, hnone] at h
      cases h
  | @created d hcreates hrules =>
      subst hcreates
      have hd : e.rules.isDatabase = true → d.IsAdmitted := hact
      obtain ⟨_, hgives⟩ := RuleStore.create_get he.rules
        (fun hdatabase => ⟨(hd hdatabase).reread.1, (hd hdatabase).reread.2⟩) hrules
      refine ⟨d, rfl, ?_⟩
      by_cases hid : id = identifier "rule" (e.ruleIds + 1)
      · subst hid
        exact (Option.some.inj (Except.ok.inj (hgives.self.symm.trans h))).symm
      · rw [hgives.other id hid, hnone] at h
        cases h
  | revised hq hr hrules => exact (hnot hq (revised_gives he.rules hact hq hr hrules)).elim
  | @recorded x q metadata hanswered hq hmetadata hrules =>
      rw [← (RuleStore.owner_of_get hq).1] at hq
      exact (hnot hq (recorded_gives he.rules (he.told_of_answered hnow hanswered) hq hmetadata hrules)).elim

/-! ### What acts do to rules -/

variable {acts : List (Moment × Act)}

/-- The clock can be told and what is given to an engine was admitted, if rules are kept in a database. -/
def Admits (e : Engine σ) (acts : List (Moment × Act)) : Prop :=
  e.rules.isDatabase = true → ∀ act ∈ acts, act.1.IsTold ∧ act.2.IsAdmitted

namespace Admits

variable {before : List (Moment × Act)} {act : Act} {e' : Engine σ}

/-- The clock can be told and what is given was admitted when the first act is done. -/
theorem head (h : e.Admits ((now, act) :: acts)) :
    (e.rules.isDatabase = true → now.IsTold) ∧ (e.rules.isDatabase = true → act.IsAdmitted) :=
  ⟨fun hdatabase => (h hdatabase _ List.mem_cons_self).1, fun hdatabase => (h hdatabase _ List.mem_cons_self).2⟩

/-- What holds of all acts holds of the first ones. -/
theorem left (h : e.Admits (before ++ acts)) : e.Admits before := fun hdatabase act hact =>
  h hdatabase act (List.mem_append_left _ hact)

/-- What holds of all acts holds of those that are left, for an engine that keeps its rules in the same way. -/
theorem right (h : e.Admits (before ++ acts)) (hsame : e'.rules.isDatabase = e.rules.isDatabase) : e'.Admits acts :=
  fun hdatabase act hact => h (hsame ▸ hdatabase) act (List.mem_append_right _ hact)

/-- After the first act the others are admitted, by an engine that keeps its rules in the same way. -/
theorem tail (h : e.Admits ((now, act) :: acts)) (hsame : e'.rules.isDatabase = e.rules.isDatabase) :
    e'.Admits acts :=
  fun hdatabase act hact => h (hsame ▸ hdatabase) act (List.mem_cons_of_mem _ hact)

end Admits

/-- A new engine whose store of rules is empty is faithful. -/
theorem start_faithful {rules : RuleStore} (hrules : rules.IsEmpty) (p : ExecutionStore) (world : σ) :
    (start rules p world).Faithful where
  rules := hrules.faithful
  runs _ := List.forall_mem_nil _

/-- A rule that is kept becomes what acts make of it, and the engine stays faithful. -/
theorem after_becomes (he : e.Faithful) (hacts : e.Admits acts) (v : Environment σ) :
    ((e.after v acts).Faithful ∧ (e.after v acts).rules.isDatabase = e.rules.isDatabase) ∧
      ∀ id q, e.rules.get id = .ok (some q) →
        ∃ r, (e.after v acts).rules.get id = .ok (some r) ∧ e.Becomes v acts q r := by
  induction acts generalizing e with
  | nil => exact ⟨⟨he, rfl⟩, fun id q hq => ⟨q, hq, rfl, rfl, rfl, rfl, rfl, .refl _⟩⟩
  | cons act acts ih =>
      obtain ⟨now, act⟩ := act
      obtain ⟨⟨hfaithful, hdatabase⟩, hstep⟩ := act_becomes he hacts.head.1 hacts.head.2 v
      obtain ⟨⟨hafter, hsame⟩, hrest⟩ := ih hfaithful (hacts.tail hdatabase)
      refine ⟨⟨hafter, hsame.trans hdatabase⟩, fun id p hp => ?_⟩
      obtain ⟨q, hq, hpq⟩ := hstep id p hp
      obtain ⟨r, hr, hqr⟩ := hrest id q hq
      exact ⟨r, hr, hpq.cons hqr⟩

/-- In memory every change of a rule that is kept is made. -/
theorem redefined_in_memory {id : String} (he : e.Faithful) (hmemory : e.rules.isDatabase = false)
    (hq : e.rules.get id = .ok (some q)) (hid : r.id = id) (v : Environment σ) :
    e.redefined v acts r = acts.foldl (fun r act => (act.2.revise act.1 r).getD r) r := by
  have hno : ∀ {P : Prop} {e : Engine σ}, e.rules.isDatabase = false → e.rules.isDatabase = true → P :=
    fun hmemory hdatabase => by rw [hmemory] at hdatabase; cases hdatabase
  induction acts generalizing e q r with
  | nil => rfl
  | cons act acts ih =>
      obtain ⟨now, act⟩ := act
      obtain ⟨⟨hfaithful, hsame⟩, hstep⟩ := act_becomes he (hno hmemory)
        (hno hmemory : _ → act.IsAdmitted) v
      obtain ⟨q', hq', _⟩ := hstep id q hq
      have hrevised : e.revised now act r = (act.revise now r).getD r := by
        rw [revised]
        cases hs : act.revise now r with
        | none => rfl
        | some s =>
            have htakes : e.rules.takes s = true := by
              have hsid : s.id = id := (id_of_revise hs).1.trans hid
              cases hrules : e.rules with
              | sql t =>
                  rw [hrules] at hmemory
                  cases hmemory
              | memory t =>
                  rw [hrules] at hq
                  have hfound : t.get? s.id = some q := hsid ▸ Except.ok.inj hq
                  rw [RuleStore.takes, RuleStore.update, RuleTable.update, hfound]
                  rfl
            show (if e.rules.takes s then e.rules.version r s else r) = s
            rw [htakes, if_pos rfl, RuleStore.version, hmemory]
            rfl
      have hnext : ((act.revise now r).getD r).id = id := by
        cases hs : act.revise now r with
        | none => exact hid
        | some s => exact (id_of_revise hs).1.trans hid
      show (act.apply v now e).redefined v acts (e.revised now act r) = _
      rw [hrevised]
      exact ih hfaithful (hsame.trans hmemory) hq' hnext

/-- A rule that is kept after acts on an engine without rules was created by one of them. -/
theorem after_creates {id : String} (he : e.Faithful) (hempty : ∀ id, e.rules.get id = .ok none) (hacts : e.Admits acts)
    (h : (e.after v acts).rules.get id = .ok (some r)) :
    ∃ before now d later, acts = before ++ (now, .createRule d) :: later ∧
      (e.after v (before ++ [(now, .createRule d)])).rules.get id =
        .ok (some (e.rules.first { d with id, createdAt := now, updatedAt := now })) := by
  induction acts using List.reverseRecOn generalizing r with
  | nil =>
      rw [after, List.foldl_nil, hempty] at h
      cases h
  | append_singleton acts act ih =>
      have hbefore : e.Admits acts := fun hdatabase a ha => hacts hdatabase a (List.mem_append_left _ ha)
      have hlast : e.rules.isDatabase = true → act.1.IsTold ∧ act.2.IsAdmitted := fun hdatabase =>
        hacts hdatabase act (List.mem_append_right _ (List.mem_singleton_self act))
      obtain ⟨⟨hfaithful, hsame⟩, _⟩ := after_becomes he hbefore v
      obtain ⟨found, hfound⟩ := hfaithful.rules.found id
      cases found with
      | some q =>
          obtain ⟨before, now, d, later, rfl, hcreated⟩ := ih hbefore hfound
          exact ⟨before, now, d, later ++ [act], by simp, hcreated⟩
      | none =>
          obtain ⟨now, act⟩ := act
          have hnow : ((act.apply v now (e.after v acts))).rules.get id = .ok (some r) := by
            rw [after_append] at h
            exact h
          obtain ⟨d, rfl, rfl⟩ := act_creates hfaithful (fun hdatabase => (hlast (hsame ▸ hdatabase)).1)
            (fun hdatabase => (hlast (hsame ▸ hdatabase)).2) hfound hnow
          refine ⟨acts, now, d, [], rfl, ?_⟩
          rw [h, RuleStore.first, RuleStore.first, hsame]

/-- A call that acts answer was made by one of them, or is that of a run that was there. -/
theorem answered_called {P : Trial → Prop} (hruns : ∀ run ∈ e.runs, P run.execution.trial)
    (hcall : ∀ now ruleId data context triggeredBy, (now, Act.execute ruleId data context triggeredBy) ∈ acts →
      ∀ id tenantId, P ⟨id, ruleId, tenantId, now, some now⟩) : ∀ u ∈ e.answered v acts, P u := by
  induction acts generalizing e with
  | nil => exact fun u hu => nomatch hu
  | cons act acts ih =>
      obtain ⟨now, act⟩ := act
      have hbegin : ∀ ruleId data context triggeredBy r, act = .execute ruleId data context triggeredBy →
          e.activeRule ruleId = .ok r → P ⟨e.nextExecution, r.id, r.tenantId, now, some now⟩ := by
        rintro ruleId data context triggeredBy r rfl hr
        rw [(RuleStore.owner_of_get (get_of_active hr)).1]
        exact hcall now ruleId data context triggeredBy List.mem_cons_self _ _
      refine List.forall_mem_append.mpr ⟨fun u hu => ?_, ih (act_runs hruns hbegin v) ?_⟩
      · exact of_answered hruns hbegin (Option.mem_toList.mp hu)
      · exact fun now ruleId data context triggeredBy h =>
          hcall now ruleId data context triggeredBy (List.mem_cons_of_mem _ h)

/-- A definition whose condition compares a flag with a value. -/
def flagged (tags : List String) (value : Value) : RuleDefinition :=
  { name := "Flagged", description := "", priority := 0, isActive := true, triggers := []
    conditions := [⟨"condition", "flag", .equals, value, .and, none⟩], actions := [], settings := .plain
    metadata := { RuleMetadata.plain with tags } }

/-- A rule is created and gets a definition with a truth value instead of a number, then it is executed. -/
def blurring : List (Moment × Act) :=
  [(.utc 0, .createRule { flagged [] (.int 1) with tenantId := "tenant" }),
    (.utc 1000000, .updateRule "rule_0001" (flagged ["strict"] (.bool true)) none),
    (.utc 2000000, .execute "rule_0001" [] .empty none)]

end Engine

end Rulebook
