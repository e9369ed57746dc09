import Rulebook.Proofs.Engine.Answer
import Rulebook.Proofs.Engine.Trial
import Rulebook.Proofs.Store.Rule

/-!
# The rules of the engine

The rules that an engine keeps and its registry are its catalog, and with the number of identifiers that were given
to rules they are its books (`Engine.books`). Executions do nothing to the books but to count themselves in the
metadata of their rule, and they do so exactly when their call is answered with the identifier
(`Engine.execute_counts`, `Engine.ring_counts`). Creating, updating and deactivating a rule write it and register it or
take it away. `Engine.act_catalog` says what each act does to the catalog, except for those that register everything
anew or change the jobs.
-/

namespace Rulebook

/-- An act that registers a rule writes it. -/
inductive Act.Registers {σ : Type} (now : Moment) (e : Engine σ) : Act → Rule → Prop where
  | created (d : RuleDraft) : Registers now e (.createRule d)
      { d with id := identifier "rule" (e.ruleIds + 1), createdAt := now, updatedAt := now }
  | updated {ruleId : String} {tenantId : Option String} {q : Rule} (d : RuleDefinition) :
      e.getRule ruleId tenantId = .ok q →
      Registers now e (.updateRule ruleId d tenantId) (Engine.redefine q d now)

/-- A rule is what becomes of one that is kept when an execution is counted. -/
def Engine.Counts {σ : Type} (e : Engine σ) (q r : Rule) : Prop :=
  ∃ ruleId x metadata, e.rules.get ruleId = .ok (some q) ∧ q.metadata.recording x = .ok metadata ∧
    r = { q with metadata }

/-- An act that leaves the registration of a rule as it is, or takes it away, may write the rule. -/
inductive Act.Rewrites {σ : Type} (now : Moment) (e : Engine σ) : Act → Rule → Prop where
  | deactivated {ruleId : String} {tenantId : Option String} {q : Rule} :
      e.getRule ruleId tenantId = .ok q →
      Rewrites now e (.deactivateRule ruleId tenantId) { q with isActive := false, updatedAt := now }
  | executed {ruleId : String} {data : Fields} {context : ExecutionContext} {triggeredBy : Option String}
      {q r : Rule} : e.Counts q r → Rewrites now e (.execute ruleId data context triggeredBy) r
  | rung {t : Timer} {q r : Rule} : e.Counts q r → Rewrites now e (.ring t) r

/-- Whether an act neither registers everything anew nor changes the jobs. -/
def Act.isRegular : Act → Bool
  | setUp | restart | schedule _ => false
  | _ => true

namespace Engine

variable {σ α β : Type} (v : Environment σ) (now : Moment)

/-- The rules of an engine and its registry. -/
def catalog (e : Engine σ) : RuleStore × Registry := (e.rules, e.registry)

/-- The rules of an engine, its registry, and how many identifiers of rules are taken. -/
def books (e : Engine σ) : RuleStore × Registry × Nat := (e.rules, e.registry, e.ruleIds)

/-- An execution of a trial of which `P` holds was counted in its rule. If no rule is kept under the identifier,
nothing was done to the books. -/
def Counted (P : Trial → Prop) (e e' : Engine σ) : Prop :=
  ∃ x, P x.trial ∧ (e.rules.get x.ruleId = .ok none ∧ e'.books = e.books ∨
    ∃ q metadata, e.rules.get x.ruleId = .ok (some q) ∧ q.metadata.recording x = .ok metadata ∧
      e.rules.update { q with metadata } = .ok e'.rules ∧ e'.registry = e.registry ∧ e'.ruleIds = e.ruleIds)

/-- An execution of a trial of which `P` holds was counted, or nothing was done to the books. -/
def Recounted (P : Trial → Prop) (e e' : Engine σ) : Prop := e'.books = e.books ∨ e.Counted P e'

/-- What an act does to the rules and the registry of an engine. -/
inductive CatalogStep (e : Engine σ) (act : Act) (e' : Engine σ) : Prop where
  /-- Both stay as they are. -/
  | same (h : e'.catalog = e.catalog)
  /-- A rule is written and registered. -/
  | registered {r : Rule} (hr : act.Registers now e r)
      (hwritten : e.rules.create r = .ok e'.rules ∨ e.rules.update r = .ok e'.rules)
      (hregistry : e'.registry = (e.registry.register v.source.isSome now r).1)
  /-- A rule is written that is not in use any more. -/
  | withdrawn {r : Rule} (hr : act.Rewrites now e r) (hactive : r.isActive = false)
      (hwritten : e.rules.update r = .ok e'.rules) (hregistry : e'.registry = e.registry.unregister r.id)
  /-- A rule is written of which an execution is counted. -/
  | counted {q r : Rule} (hr : act.Rewrites now e r) (hcounts : e.Counts q r)
      (hwritten : e.rules.update r = .ok e'.rules) (hregistry : e'.registry = e.registry)

/-- A computation counts an execution of a trial of which `P` holds exactly if its result tells so; else nothing is
done to the books. -/
def CountsExactly (e : Engine σ) (P : Trial → Prop) (tells : α → Prop) (m : EngineM σ α) : Prop :=
  (∃ a, (e.perform m).2 = .ok a ∧ tells a ∧ e.Counted P (e.perform m).1) ∨
    (∀ a, (e.perform m).2 = .ok a → ¬tells a) ∧ (e.perform m).1.books = e.books

/-- Whatever the engine is, a computation counts an execution exactly if its result tells so. -/
def Recounts (P : Trial → Prop) (tells : α → Prop) (m : EngineM σ α) : Prop :=
  ∀ e : Engine σ, e.CountsExactly P tells m

/-- A trial is that of the run of an execution. -/
def RunTrial (e : Engine σ) (id : String) (u : Trial) : Prop :=
  ∃ run, e.run? id = some run ∧ run.execution.trial = u

/-- A trial is that of the execution that a call for a rule begins. -/
def NextTrial (e : Engine σ) (ruleId : String) (u : Trial) : Prop :=
  ∃ r, e.activeRule ruleId = .ok r ∧ u = ⟨e.nextExecution, r.id, r.tenantId, now, some now⟩

/-- A call that is begun ends at once with an identifier. -/
def Ends (l : Launch) : Prop := ∃ id, l = .ended (.ok id)

/-- A run that went on ends its call. -/
def Answers (answer : Option String) : Prop := ∃ id, answer = some id

variable {P : Trial → Prop} {tells : α → Prop} {tells' : β → Prop}

/-! ### Computations that leave the books or count an execution -/

/-- What is counted is counted under a weaker condition. -/
theorem Counted.mono {Q : Trial → Prop} {e e' : Engine σ} (hPQ : ∀ u, P u → Q u) (h : e.Counted P e') :
    e.Counted Q e' := by
  obtain ⟨x, hx, hrest⟩ := h
  exact ⟨x, hPQ _ hx, hrest⟩

/-- What is counted after nothing was done to the books is counted. -/
theorem Counted.after {e e' e'' : Engine σ} (h : e'.books = e.books) (hcounted : e'.Counted P e'') :
    e.Counted P e'' := by
  simp only [books, Prod.mk.injEq] at h
  obtain ⟨hrules, hregistry, hids⟩ := h
  simp only [Counted, books, hrules, hregistry, hids] at hcounted ⊢
  exact hcounted

/-- What is counted before nothing is done to the books is counted. -/
theorem Counted.before {e e' e'' : Engine σ} (h : e''.books = e'.books) (hcounted : e.Counted P e') :
    e.Counted P e'' := by
  simp only [books, Prod.mk.injEq] at h
  obtain ⟨hrules, hregistry, hids⟩ := h
  simp only [Counted, books, hrules, hregistry, hids] at hcounted ⊢
  exact hcounted

/-- A failure tells nothing. -/
theorem not_told {o : Outcome α} {f : Failure} (h : o = .error f) (a : α) (ha : o = .ok a) : ¬tells a :=
  nomatch h.symm.trans ha

/-- A run that goes on does not end its call. -/
theorem not_answers_none : ¬Answers none := nofun

/-- A failure is no identifier. -/
theorem not_ends_error (f : Failure) : ¬Ends (.ended (.error f)) := nofun

/-- What ends no call with an identifier is told as such. -/
theorem not_answered {o : Option (String × Outcome String)} (h : ∀ p ∈ o, p.2.isOk = false) :
    ¬∃ id, o.map (·.2) = some (.ok id) := by
  rintro ⟨id, hid⟩
  obtain ⟨p, hp, hok⟩ := Option.map_eq_some_iff.mp hid
  have hnot := h p hp
  rw [hok] at hnot
  cases hnot

/-- A computation whose result does not tell that it counts leaves the books. -/
theorem recounts_pure {a : α} (h : ¬tells a) : Recounts P tells (pure a : EngineM σ α) := fun _ =>
  .inr ⟨fun _ ha => Except.ok.inj ha ▸ h, rfl⟩

/-- A failure counts nothing. -/
theorem recounts_throw (f : Failure) : Recounts P tells (throw f : EngineM σ α) := fun _ => .inr ⟨not_told rfl, rfl⟩

/-- After a computation that leaves the books an execution may be counted. -/
theorem recounts_after {m : EngineM σ α} {f : α → EngineM σ β} (hm : Leaves books m)
    (hf : ∀ a, Recounts P tells' (f a)) : Recounts P tells' (m >>= f) := by
  intro e
  rw [CountsExactly, perform_bind]
  rcases hperform : e.perform m with ⟨e', g | a⟩ <;>
    have hsame : e'.books = e.books := by rw [← hm e, hperform]
  · exact .inr ⟨not_told rfl, hsame⟩
  · obtain ⟨b, hb, htells, hcounted⟩ | ⟨hnot, hbooks⟩ := hf a e'
    · exact .inl ⟨b, hb, htells, hcounted.after hsame⟩
    · exact .inr ⟨hnot, hbooks.trans hsame⟩

/-- What leaves the books and comes out well may follow when an execution is counted. -/
theorem recounts_before {m : EngineM σ α} {f : α → EngineM σ β} (hm : Recounts P tells m)
    (hf : ∀ a (e : Engine σ), ∃ b, (e.perform (f a)).2 = .ok b ∧ (e.perform (f a)).1.books = e.books ∧
      (tells a ↔ tells' b)) : Recounts P tells' (m >>= f) := by
  intro e
  have hcount := hm e
  rw [CountsExactly] at hcount
  rw [CountsExactly, perform_bind]
  rcases hperform : e.perform m with ⟨e', g | a⟩ <;> rw [hperform] at hcount
  · obtain ⟨_, ha, _⟩ | ⟨_, hbooks⟩ := hcount
    · cases ha
    · exact .inr ⟨not_told rfl, hbooks⟩
  · obtain ⟨b, hb, hsame, htells⟩ := hf a e'
    dsimp only at hb hsame ⊢
    obtain ⟨_, ha, hcounts, hcounted⟩ | ⟨hnot, hbooks⟩ := hcount
    · obtain rfl := Except.ok.inj ha
      exact .inl ⟨b, hb, htells.mp hcounts, hcounted.before hsame⟩
    · refine .inr ⟨fun _ hb' => ?_, hsame.trans hbooks⟩
      obtain rfl := Except.ok.inj (hb.symm.trans hb')
      exact fun h => hnot a rfl (htells.mpr h)

/-- What is made of a result may follow when an execution is counted. -/
theorem recounts_map {m : EngineM σ α} {g : α → β} (hm : Recounts P tells m) (hg : ∀ a, tells a ↔ tells' (g a)) :
    Recounts P tells' (m >>= fun a => pure (g a)) :=
  recounts_before hm fun a _ => ⟨g a, rfl, rfl, hg a⟩

/-- Writing an execution leaves the books. -/
theorem leaves_save_execution (x : Execution) : Leaves books (saveExecution x : EngineM σ Unit) :=
  leaves_bind leaves_get fun _ => leaves_bind (leaves_lift _) fun _ => leaves_modify fun _ => rfl

/-- Notes leave the books. -/
theorem note_leaves_books (notes : List LogEntry) : Leaves books (note notes : EngineM σ Unit) :=
  leaves_modify fun _ => rfl

/-- Writing down in the rule how an execution went counts it. -/
theorem recounts_record_outcome {x : Execution} (hx : P x.trial) :
    Recounts P (fun _ => True) (recordOutcome x : EngineM σ Unit) := by
  intro e
  rw [CountsExactly, recordOutcome, perform_bind, perform_get]
  dsimp only
  rw [perform_bind, perform_lift]
  rcases hget : e.rules.get x.ruleId with f | _ | q
  · exact .inr ⟨not_told rfl, rfl⟩
  · exact .inl ⟨(), rfl, trivial, x, hx, .inl ⟨hget, rfl⟩⟩
  · dsimp only
    rw [perform_bind, perform_lift]
    cases hmetadata : q.metadata.recording x with
    | error f => exact .inr ⟨not_told rfl, rfl⟩
    | ok metadata =>
        dsimp only
        rw [saveRule, perform_bind, perform_get]
        dsimp only
        rw [perform_bind, perform_lift]
        cases hupdate : e.rules.update { q with metadata } with
        | error f => exact .inr ⟨not_told rfl, rfl⟩
        | ok t => exact .inl ⟨(), rfl, trivial, x, hx, .inr ⟨q, metadata, hget, hmetadata, hupdate, rfl, rfl⟩⟩

/-- Closing a record counts the execution. -/
theorem recounts_close_record {x : Execution} (hx : P x.trial) :
    Recounts P (fun _ => True) (closeRecord x : EngineM σ String) :=
  recounts_after (leaves_modify fun _ => rfl) fun _ =>
    recounts_after (leaves_save_execution x) fun _ =>
      recounts_before (recounts_record_outcome hx) fun _ _ => ⟨x.id, rfl, rfl, Iff.rfl⟩

/-- Failing an execution counts nothing. -/
theorem recounts_crash {tells : Launch → Prop} (x : Execution) (f : Failure) :
    Recounts P tells (crash x now f : EngineM σ Launch) :=
  recounts_after (leaves_modify fun _ => rfl) fun _ =>
    recounts_after (leaves_save_execution _) fun _ =>
      recounts_after (note_leaves_books _) fun _ => recounts_throw f

/-- Recording the end of a run that nobody waits for leaves the books. -/
theorem leaves_record_late (x : Execution) : Leaves books (recordLate x : EngineM σ Unit) := by
  refine leaves_bind leaves_get fun e => ?_
  cases e.executions.update x with
  | error f => exact leaves_pure ()
  | ok t => exact leaves_modify fun _ => rfl

/-- Opening a record leaves the books. -/
theorem leaves_open_record (ruleId : String) (data : Fields) (context : ExecutionContext)
    (triggeredBy : Option String) :
    Leaves books (openRecord now ruleId data context triggeredBy : EngineM σ (Rule × Execution)) := by
  refine leaves_bind leaves_get fun _ => leaves_bind (leaves_lift _) fun r => leaves_bind leaves_get fun _ =>
    leaves_bind (leaves_modify fun _ => rfl) fun _ => leaves_bind leaves_get fun _ =>
      leaves_bind (leaves_lift _) fun reason => ?_
  cases reason with
  | none =>
      exact leaves_bind leaves_get fun _ => leaves_bind (leaves_lift _) fun _ =>
        leaves_bind (leaves_modify fun _ => rfl) fun _ => leaves_pure _
  | some reason =>
      exact leaves_bind leaves_get fun _ => leaves_bind (leaves_lift _) fun _ =>
        leaves_bind (leaves_modify fun _ => rfl) fun _ =>
          leaves_bind (note_leaves_books _) fun _ => leaves_throw _

/-- A call whose record is closed ends with the identifier. -/
theorem recounts_ended {m : EngineM σ String} (hm : Recounts P (fun _ => True) m) :
    Recounts P Ends (m >>= fun id => pure (.ended (.ok id))) :=
  recounts_map hm fun id => ⟨fun _ => ⟨id, rfl⟩, fun _ => trivial⟩

/-- A run whose record is closed ends its call with the identifier. -/
theorem recounts_answered {m : EngineM σ String} (hm : Recounts P (fun _ => True) m) :
    Recounts P Answers (m >>= fun id => pure (some id)) :=
  recounts_map hm fun id => ⟨fun _ => ⟨id, rfl⟩, fun _ => trivial⟩

/-- Running the actions of a rule counts the execution exactly if the call ends. -/
theorem recounts_run_phase (r : Rule) {x : Execution} (hx : P x.trial) : Recounts P Ends (runPhase v now r x) := by
  refine recounts_after (leaves_modify fun _ => rfl) fun _ => recounts_after leaves_get fun e => ?_
  have htrial := v.run_actions_trial now r ⟨e.world, x, []⟩
  dsimp only
  rcases hrun : v.runActions now r ⟨e.world, x, []⟩ with ⟨c, _ | p⟩ <;> rw [hrun] at htrial <;>
    refine recounts_after (leaves_modify fun _ => rfl) fun _ =>
      recounts_after (note_leaves_books _) fun _ => ?_
  · refine recounts_ended (recounts_close_record ?_)
    rwa [(c.execution.precedes_close now).trial_eq, htrial]
  · exact recounts_after (leaves_modify fun _ => rfl) fun _ =>
      recounts_after (leaves_modify fun _ => rfl) fun _ => recounts_pure nofun

/-- Carrying out an execution counts it exactly if the call ends. -/
theorem recounts_carry_out (r : Rule) {x : Execution} (hx : P x.trial) : Recounts P Ends (carryOut v now r x) := by
  refine recounts_after (note_leaves_books _) fun _ => ?_
  rcases Condition.allHold r.conditions x.seen with f | _ | _
  · exact recounts_crash now x _
  · have hunmet : (x.unmet now).trial = x.trial := (Execution.precedes_move_to _ now _ rfl).trial_eq
    exact recounts_ended (recounts_close_record (hunmet ▸ hx))
  · exact recounts_run_phase v now r hx

variable {e : Engine σ}

/-- What is counted exactly under a condition is counted exactly under a weaker one. -/
theorem CountsExactly.mono {Q : Trial → Prop} {m : EngineM σ α} (hPQ : ∀ u, P u → Q u)
    (h : e.CountsExactly P tells m) : e.CountsExactly Q tells m := by
  obtain ⟨a, ha, htells, hcounted⟩ | hnot := h
  · exact .inl ⟨a, ha, htells, hcounted.mono hPQ⟩
  · exact .inr hnot

variable (e)

/-- Going on with a run counts its execution exactly if this ends its call. -/
theorem go_on_counts (id : String) (lane : Nat) :
    e.CountsExactly (e.RunTrial id) Answers (goOn v now id lane) := by
  rw [CountsExactly, goOn, perform_bind, perform_get]
  dsimp only
  cases hfind : e.run? id with
  | none => exact recounts_pure not_answers_none e
  | some run =>
      suffices h : Recounts (fun u => run.execution.trial = u) Answers _ from
        (h e).mono fun u hu => ⟨run, hfind, hu⟩
      refine recounts_after leaves_get fun e => ?_
      have htrial := v.resume_actions_trial now run.rule lane run.phase ⟨e.world, run.execution, []⟩
      rcases hresume : v.resumeActions now run.rule lane run.phase ⟨e.world, run.execution, []⟩ with
        ⟨c, _ | p⟩ <;> rw [hresume] at htrial
      · refine recounts_after (leaves_modify fun _ => rfl) fun _ =>
          recounts_after (note_leaves_books _) fun _ => ?_
        rcases run.watch with timed | _ | _
        · refine recounts_after (leaves_modify fun _ => rfl) fun _ => recounts_answered (recounts_close_record ?_)
          rw [(c.execution.precedes_close now).trial_eq, htrial]
        · exact recounts_after (leaves_modify fun _ => rfl) fun _ =>
            recounts_after (leaves_record_late _) fun _ => recounts_pure not_answers_none
        · exact recounts_after (leaves_modify fun _ => rfl) fun _ => recounts_pure not_answers_none
      · refine recounts_after (leaves_modify fun _ => rfl) fun _ =>
          recounts_after (note_leaves_books _) fun _ => ?_
        exact recounts_after (leaves_modify fun _ => rfl) fun _ =>
          recounts_after (leaves_modify fun _ => rfl) fun _ => recounts_pure not_answers_none

/-- Running out of time counts the execution exactly if this ends its call. -/
theorem time_out_counts (id : String) : e.CountsExactly (e.RunTrial id) Answers (timeOut now id) := by
  rw [CountsExactly, timeOut, perform_bind, perform_get]
  dsimp only
  cases hfind : e.run? id with
  | none => exact recounts_pure not_answers_none e
  | some run =>
      suffices h : Recounts (fun u => run.execution.trial = u) Answers _ from
        (h e).mono fun u hu => ⟨run, hfind, hu⟩
      have htrial : (run.execution.expired run.rule now).trial = run.execution.trial :=
        (Execution.precedes_close _ now).trial_eq.trans (Execution.precedes_move_to _ now _ rfl).trial_eq
      dsimp only
      rcases run.watch with (_ | _) | _ | _
      · exact recounts_pure not_answers_none
      · exact recounts_after (leaves_modify fun _ => rfl) fun _ =>
          recounts_answered (recounts_close_record htrial.symm)
      · exact recounts_pure not_answers_none
      · exact recounts_pure not_answers_none

/-- Beginning an execution counts it exactly if the call ends at once. -/
theorem begin_counts (ruleId : String) (data : Fields) (context : ExecutionContext) (triggeredBy : Option String) :
    e.CountsExactly (e.NextTrial now ruleId) Ends (begin v now ruleId data context triggeredBy) := by
  have hopen := leaves_open_record now ruleId data context triggeredBy e
  rw [CountsExactly, begin, perform_bind]
  rcases hopened : e.perform (openRecord now ruleId data context triggeredBy) with ⟨e', f | ⟨r, x⟩⟩ <;>
    rw [hopened] at hopen
  · exact .inr ⟨not_told rfl, hopen⟩
  · have hx : e.NextTrial now ruleId x.trial := by
      rw [open_record_eq] at hopened
      split at hopened
      next => cases hopened
      next q hq =>
        dsimp only at hopened
        split at hopened
        next => cases hopened
        next => split at hopened <;> cases hopened
        next =>
          split at hopened
          next => cases hopened
          next =>
            cases hopened
            exact ⟨_, hq, rfl⟩
    obtain ⟨l, hl, hends, hcounted⟩ | ⟨hnot, hbooks⟩ := recounts_carry_out v now r hx e'
    · exact .inl ⟨l, hl, hends, hcounted.after hopen⟩
    · exact .inr ⟨hnot, hbooks.trans hopen⟩

/-- Executing a rule counts the execution exactly if it is answered at once with the identifier. -/
theorem execute_counts (ruleId : String) (data : Fields) (context : ExecutionContext)
    (triggeredBy : Option String) :
    let p := e.execute v now ruleId data context triggeredBy
    Ends p.2 ∧ e.Counted (e.NextTrial now ruleId) p.1 ∨ ¬Ends p.2 ∧ p.1.books = e.books := by
  dsimp only
  have hcounts := begin_counts v now e ruleId data context triggeredBy
  rw [CountsExactly] at hcounts
  rw [execute]
  rcases hbegin : e.perform (begin v now ruleId data context triggeredBy) with ⟨e', f | l⟩ <;>
    rw [hbegin] at hcounts
  · obtain ⟨_, ha, _⟩ | ⟨_, hbooks⟩ := hcounts
    · cases ha
    · exact .inr ⟨not_ends_error f, hbooks⟩
  · obtain ⟨_, ha, hends, hcounted⟩ | ⟨hnot, hbooks⟩ := hcounts
    · obtain rfl := Except.ok.inj ha
      exact .inl ⟨hends, hcounted⟩
    · exact .inr ⟨hnot l rfl, hbooks⟩

/-- Both alarms tell of their computation in the same way. -/
theorem told_counts (id : String) {m : EngineM σ (Option String)}
    (hcounts : e.CountsExactly (e.RunTrial id) Answers m) :
    let p : Engine σ × Option (String × Outcome String) := match e.perform m with
      | (e, .ok none) => (e, none)
      | (e, .ok (some id')) => (e, some (id, .ok id'))
      | (e, .error f) => (e, some (id, .error f))
    (∃ id', p.2.map (·.2) = some (.ok id')) ∧ e.Counted (e.RunTrial id) p.1 ∨
      (¬∃ id', p.2.map (·.2) = some (.ok id')) ∧ p.1.books = e.books := by
  rw [CountsExactly] at hcounts
  rcases hperform : e.perform m with ⟨e', f | _ | id'⟩ <;> rw [hperform] at hcounts
  · obtain ⟨_, ha, _⟩ | ⟨_, hbooks⟩ := hcounts
    · cases ha
    · exact .inr ⟨not_answered (by rintro _ ⟨⟩; rfl), hbooks⟩
  · obtain ⟨_, ha, ⟨_, rfl⟩, _⟩ | ⟨_, hbooks⟩ := hcounts
    · cases ha
    · exact .inr ⟨not_answered (by rintro _ ⟨⟩), hbooks⟩
  · obtain ⟨_, ha, _, hcounted⟩ | ⟨hnot, _⟩ := hcounts
    · exact .inl ⟨⟨id', rfl⟩, hcounted⟩
    · exact absurd ⟨id', rfl⟩ (hnot _ rfl)

/-- The ring of an alarm counts the execution that it is about exactly if it answers its call with an identifier. -/
theorem ring_counts (t : Timer) :
    let p := e.ring v now t
    (∃ id, p.2.map (·.2) = some (.ok id)) ∧ e.Counted (e.RunTrial t.executionId) p.1 ∨
      (¬∃ id, p.2.map (·.2) = some (.ok id)) ∧ p.1.books = e.books := by
  cases t with
  | wake id lane => exact told_counts e id (go_on_counts v now e id lane)
  | expire id => exact told_counts e id (time_out_counts now e id)

/-- Executing a rule counts one execution at most, the next one. -/
theorem execute_recounted (ruleId : String) (data : Fields) (context : ExecutionContext)
    (triggeredBy : Option String) :
    e.Recounted (e.NextTrial now ruleId) (e.execute v now ruleId data context triggeredBy).1 := by
  obtain ⟨_, hcounted⟩ | ⟨_, hbooks⟩ := execute_counts v now e ruleId data context triggeredBy
  · exact .inr hcounted
  · exact .inl hbooks

/-- The ring of an alarm counts the execution that it is about once at most. -/
theorem ring_recounted (t : Timer) : e.Recounted (e.RunTrial t.executionId) (e.ring v now t).1 := by
  obtain ⟨_, hcounted⟩ | ⟨_, hbooks⟩ := ring_counts v now e t
  · exact .inr hcounted
  · exact .inl hbooks

/-! ### What acts do to the catalog -/

/-- Registering a rule changes the registry as it says, and fails where not all jobs can be armed. -/
theorem register_catalog (r : Rule) :
    (e.perform (register v now r)).1.catalog =
        (e.rules, (e.registry.register v.source.isSome now r).1) ∧
      (e.perform (register v now r)).2 = (e.registry.register v.source.isSome now r).2.outcome := by
  exact ⟨rfl, rfl⟩

/-- Writing a rule and going on does nothing to the books if the rule cannot be written, else what is done
to the engine that keeps the rule. -/
theorem save_rule_books (r : Rule) (f : Unit → EngineM σ α) :
    ((e.perform (saveRule r >>= f)).1.books = e.books ∧ ∀ t, e.rules.update r ≠ .ok t) ∨
      ∃ t, e.rules.update r = .ok t ∧
        (e.perform (saveRule r >>= f)).1.books =
          (({ e with rules := t } : Engine σ).perform (f ())).1.books := by
  rw [saveRule, perform_bind, perform_bind, perform_get]
  dsimp only
  rw [perform_bind, perform_lift]
  cases e.rules.update r with
  | error g => exact .inl ⟨rfl, by rintro _ ⟨⟩⟩
  | ok t => exact .inr ⟨t, rfl, rfl⟩

/-- Creating a rule takes an identifier and registers the rule if it can be added. -/
theorem create_rule_books (d : RuleDraft) :
    (e.perform (createRule v now d)).1.books = (e.rules, e.registry, e.ruleIds + 1) ∨
      ∃ r t, Act.Registers now e (.createRule d) r ∧ e.rules.create r = .ok t ∧
        (e.perform (createRule v now d)).1.books =
          (t, (e.registry.register v.source.isSome now r).1, e.ruleIds + 1) := by
  rw [createRule, perform_bind, perform_get]
  dsimp only
  rw [perform_bind, perform_modify]
  dsimp only
  rw [perform_bind, perform_get]
  dsimp only
  rw [perform_bind, perform_lift]
  cases hcreate : e.rules.create
    { d with id := identifier "rule" (e.ruleIds + 1), createdAt := now, updatedAt := now } with
  | error f => exact .inl rfl
  | ok t =>
      refine .inr ⟨_, t, .created d, hcreate, ?_⟩
      dsimp only
      rw [perform_bind, perform_modify]
      dsimp only
      rw [see_bind fun _ => leaves_bind (note_leaves_books _) fun _ => leaves_pure _]
      rfl

/-- Giving a rule a new definition registers it if it can be written. -/
theorem update_rule_books (ruleId : String) (d : RuleDefinition) (tenantId : Option String) :
    ((e.perform (updateRule v now ruleId d tenantId)).1.books = e.books ∧
        ∀ q t, e.getRule ruleId tenantId = .ok q → e.rules.update (redefine q d now) ≠ .ok t) ∨
      ∃ r t, Act.Registers now e (.updateRule ruleId d tenantId) r ∧ e.rules.update r = .ok t ∧
        (e.perform (updateRule v now ruleId d tenantId)).1.books =
          (t, (e.registry.register v.source.isSome now r).1, e.ruleIds) := by
  rw [updateRule, perform_bind, perform_get]
  dsimp only
  rw [perform_bind, perform_lift]
  cases hq : e.getRule ruleId tenantId with
  | error f => exact .inl ⟨rfl, fun _ _ h => nomatch h⟩
  | ok q =>
      dsimp only
      obtain ⟨h, hnot⟩ | ⟨t, ht, h⟩ := save_rule_books e (redefine q d now) fun _ => do
        register v now (redefine q d now)
        note [ruleNote "rule.updated" (redefine q d now) []]
        return redefine q d now
      · exact .inl ⟨h, fun _ t hq => Except.ok.inj hq ▸ hnot t⟩
      · refine .inr ⟨_, t, .updated d hq, ht, h.trans ?_⟩
        rw [see_bind fun _ => leaves_bind (note_leaves_books _) fun _ => leaves_pure _]
        rfl

/-- Taking a rule out of use takes it away if it can be written. -/
theorem deactivate_rule_books (ruleId : String) (tenantId : Option String) :
    ((e.perform (deactivateRule now ruleId tenantId)).1.books = e.books ∧
        ∀ q t, e.getRule ruleId tenantId = .ok q →
          e.rules.update { q with isActive := false, updatedAt := now } ≠ .ok t) ∨
      ∃ q t, e.getRule ruleId tenantId = .ok q ∧
        e.rules.update { q with isActive := false, updatedAt := now } = .ok t ∧
        (e.perform (deactivateRule now ruleId tenantId)).1.books = (t, e.registry.unregister q.id, e.ruleIds) := by
  rw [deactivateRule, perform_bind, perform_get]
  dsimp only
  rw [perform_bind, perform_lift]
  cases hq : e.getRule ruleId tenantId with
  | error f => exact .inl ⟨rfl, fun _ _ h => nomatch h⟩
  | ok q =>
      dsimp only
      obtain ⟨h, hnot⟩ | ⟨t, ht, h⟩ := save_rule_books e { q with isActive := false, updatedAt := now } fun _ => do
        modify fun e : Engine σ => { e with registry := e.registry.unregister q.id }
        note [ruleNote "rule.deactivated" { q with isActive := false, updatedAt := now } []]
        return ({ q with isActive := false, updatedAt := now } : Rule)
      · exact .inl ⟨h, fun _ t hq => Except.ok.inj hq ▸ hnot t⟩
      · exact .inr ⟨q, t, rfl, ht, h⟩

/-- Cancelling leaves the books. -/
theorem leaves_cancel (id : String) (tenantId : Option String) :
    Leaves books (cancel now id tenantId : EngineM σ Execution) := by
  refine leaves_bind leaves_get fun e => ?_
  dsimp only
  split
  · split
    · split
      · exact leaves_bind (leaves_modify fun _ => rfl) fun _ => leaves_bind (leaves_save_execution _) fun _ =>
          leaves_bind (note_leaves_books _) fun _ => leaves_pure _
      · exact leaves_bind (leaves_modify fun _ => rfl) fun _ => leaves_pure _
    · exact leaves_throw _
  · exact leaves_lift _

/-- Going away leaves the books. -/
theorem abandon_books (id : String) : (e.abandon id).books = e.books := by
  rw [abandon]
  dsimp only
  split <;> rfl

/-- The same books have the same catalog. -/
theorem catalog_of_books {e : Engine σ} {rules : RuleStore} {registry : Registry} {ids : Nat}
    (h : e.books = (rules, registry, ids)) : e.catalog = (rules, registry) :=
  congrArg (fun b => (b.1, b.2.1)) h

/-- What is counted is one execution of a rule that is kept. -/
theorem Recounted.cases {e e' : Engine σ} (h : e.Recounted P e') : e'.catalog = e.catalog ∨
    ∃ q r, e.Counts q r ∧ e.rules.update r = .ok e'.rules ∧ e'.registry = e.registry := by
  obtain h | ⟨x, _, ⟨_, h⟩ | ⟨q, metadata, hq, hmetadata, hupdate, hregistry, _⟩⟩ := h
  · exact .inl (catalog_of_books h)
  · exact .inl (catalog_of_books h)
  · exact .inr ⟨q, _, ⟨x.ruleId, x, metadata, hq, hmetadata, rfl⟩, hupdate, hregistry⟩

/-- A regular act leaves the catalog as it is, or it writes a rule: one that it registers, one that it takes
away because it is not in use any more, or one of which it counts an execution. -/
theorem act_catalog {act : Act} (hact : act.isRegular = true) :
    e.CatalogStep v now act (act.apply v now e) := by
  cases act with
  | createRule d =>
      obtain h | ⟨r, t, hr, ht, h⟩ := create_rule_books v now e d
      · exact .same (catalog_of_books h)
      · obtain ⟨hrules, hregistry⟩ := Prod.mk.inj (catalog_of_books h)
        exact .registered hr (.inl (hrules ▸ ht)) hregistry
  | updateRule ruleId d tenantId =>
      obtain ⟨h, _⟩ | ⟨r, t, hr, ht, h⟩ := update_rule_books v now e ruleId d tenantId
      · exact .same (catalog_of_books h)
      · obtain ⟨hrules, hregistry⟩ := Prod.mk.inj (catalog_of_books h)
        exact .registered hr (.inr (hrules ▸ ht)) hregistry
  | deactivateRule ruleId tenantId =>
      obtain ⟨h, _⟩ | ⟨q, t, hq, ht, h⟩ := deactivate_rule_books now e ruleId tenantId
      · exact .same (catalog_of_books h)
      · obtain ⟨hrules, hregistry⟩ := Prod.mk.inj (catalog_of_books h)
        exact .withdrawn (.deactivated hq) rfl (hrules ▸ ht) hregistry
  | execute ruleId data context triggeredBy =>
      obtain h | ⟨q, r, hcounts, ht, h⟩ := (execute_recounted v now e ruleId data context triggeredBy).cases
      · exact .same h
      · exact .counted (.executed hcounts) hcounts ht h
  | ring t =>
      obtain h | ⟨q, r, hcounts, ht, h⟩ := (ring_recounted v now e t).cases
      · exact .same h
      · exact .counted (.rung hcounts) hcounts ht h
  | cancel id tenantId => exact .same (catalog_of_books (leaves_cancel now id tenantId e))
  | abandon id => exact .same (catalog_of_books (abandon_books e id))
  | note notes => exact .same rfl
  | poll r =>
      refine .same ?_
      rw [Act.apply]
      split
      next reading hreading =>
        obtain ⟨f, _, rfl⟩ := Option.map_eq_some_iff.mp hreading
        rfl
      next => rfl
  | setAlarms => exact .same rfl
  | setUp | restart | schedule s => cases hact

end Engine

end Rulebook
