import Rulebook.Proofs.Engine.Settled
import Rulebook.Proofs.Engine.World
import Rulebook.Proofs.Keys
import Rulebook.Proofs.Store.Recount

/-!
# How executions follow their rules

An execution keeps to the actions of its rule as they were when it was opened, whatever becomes of the
rule (`Standing.Follows`). Its stored record, once it has ended, tells which of the actions were tried,
how often, and why the execution ended as it did (`Engine.actions_followed`).
-/

namespace Rulebook

/-- An act is meant to end an execution from outside. -/
def Act.Stops (id : String) : Act → Prop
  | .cancel executionId _ => executionId = id
  | .ring (.expire executionId) => executionId = id
  | _ => False

namespace Rule

/-- The actions in use come by order. -/
theorem enabled_actions_sorted (r : Rule) : r.enabledActions.Pairwise fun a b => a.order ≤ b.order :=
  sorted_by_key Action.order (r.actions.filter (·.enabled))

/-- Actions in use of equal order come as the rule lists them. -/
theorem enabled_actions_stable (r : Rule) (order : Int) :
    r.enabledActions.filter (·.order = order) =
      (r.actions.filter (·.enabled)).filter (·.order = order) :=
  filter_sorted_by_key Action.order order (r.actions.filter (·.enabled))

end Rule

namespace Execution

variable {x : Execution} {now : Moment}

/-- A version that shows how far the actions of a rule got; before they start it has no steps. -/
def Shows (r : Rule) (x : Execution) : Prop :=
  (x.isTerminal = false ∧ x.steps = []) ∨
    (StepsFollow r.settings.runInParallel r.enabledActions x.steps ∧
      (x.isTerminal = true → x.Concluded r.settings.runInParallel r.enabledActions))

/-- Closing an execution does not stop it, nor does it undo that. -/
theorem close_is_stopped (x : Execution) (now : Moment) : (x.close now).isStopped = x.isStopped := by
  obtain h | ⟨hx, d, _, h⟩ := move_to_cases x now none
    (rfl : ExecutionStatus.isTerminal .completed = true) <;> rw [close, h]
  cases hstopped : x.isStopped with
  | false => rfl
  | true =>
      rw [is_terminal_of_stopped hstopped] at hx
      cases hx

/-- An execution whose actions are done and that is closed shows it. -/
theorem Over.close_shows {r : Rule}
    (h : x.Over now r.settings.runInParallel r.enabledActions) : (x.close now).Shows r :=
  .inr ⟨(close_steps x now).symm ▸ h.steps_follow, h.close_concluded⟩

/-- An execution that is brought to an end from outside while its actions run shows it. -/
theorem shows_of_stopped {r : Rule} {y : Execution}
    (hfollow : StepsFollow r.settings.runInParallel r.enabledActions x.steps) (hx : x.IsUnderway)
    (hsteps : y.steps = x.steps) (hends : y = x ∨ y.isStopped = true) : y.Shows r := by
  refine .inr ⟨hsteps ▸ hfollow, fun hended => .stopped ?_⟩
  obtain rfl | hstopped := hends
  · exact hx.ends_outside hended
  · exact hstopped

/-- What is read of a version shows as much as the version. -/
theorem KeptAs.shows {r : Rule} {y : Execution} (hx : y.KeptAs x) (h : y.Shows r) : x.Shows r := by
  have hends : x.isTerminal = y.isTerminal := congrArg ExecutionStatus.isTerminal hx.status
  obtain ⟨hopen, hsteps⟩ | ⟨hfollow, hconcluded⟩ := h
  · refine .inl ⟨hends.trans hopen, ?_⟩
    have houtlines := hx.outlines
    rw [hsteps] at houtlines
    exact List.map_eq_nil_iff.mp houtlines
  · exact .inr ⟨hfollow.of_outlines hx.outlines, fun hended =>
      hx.concluded (hconcluded (hends.symm.trans hended))⟩

/-- A version that was written when `l` had happened to its tries: it shows how far the actions of a rule
got, and its steps tell of those tries. -/
structure Recorded (P : List TryEvent → Prop) (r : Rule) (l : List TryEvent) (y : Execution) : Prop where
  shows : y.Shows r
  tries : ∀ t ∈ l, t.TriesOf r.enabledActions
  tells : y.Tells r.retries l
  holds : P l

end Execution

namespace Standing

variable {P : List TryEvent → Prop} {U : Rule → Prop} {C : Run → Nat → Execution} {p : ExecutionStore}
  {now : Moment} {id : String} {act : Act} {s s' : Standing} {r : Rule} {halted halted' : Prop} {x y z : Execution}

/-- The execution keeps to the actions of a rule: its record tells the tries, its run has the rule as it
was, it is stopped only from outside, and a version is stored that was written when `P` held of the
tries. -/
structure Keeping (P : List TryEvent → Prop) (p : ExecutionStore) (r : Rule) (halted : Prop)
    (s : Standing) (x : Execution) : Prop where
  entry : s.entry ≠ none
  tries : ∀ t ∈ s.tries, t.TriesOf r.enabledActions
  tells : x.Tells r.retries s.tries
  run : ∀ run, s.run = some run → run.execution = x ∧ run.rule = r
  stopped : x.isStopped = true → halted
  written : s.WrittenFor p fun y => y.Precedes x ∧ ∃ l, y.Recorded P r l

/-- The execution keeps to the actions of a rule. -/
def Follows (P : List TryEvent → Prop) (p : ExecutionStore) (r : Rule) (halted : Prop) (s : Standing) :
    Prop :=
  ∃ x, Keeping P p r halted s x

/-- What is kept to stays so when more is written that shows how far the execution got. -/
theorem Keeping.write {l : List TryEvent} (h : Keeping P p r halted s x) (hlater : x.Precedes z)
    (hshows : z.Shows r) (hP : P s'.tries) (hl : ∀ t ∈ l, t.TriesOf r.enabledActions)
    (htells : z.Tells r.retries (s.tries ++ l)) (hstopped : z.isStopped = true → halted')
    (hentry : s'.entry = (s.save p z).entry) (htries : s'.tries = s.tries ++ l)
    (hrun : ∀ run, s'.run = some run → run.execution = z ∧ run.rule = r) :
    s'.Follows P p r halted' := by
  have hall : ∀ t ∈ s.tries ++ l, t.TriesOf r.enabledActions :=
    List.forall_mem_append.mpr ⟨h.tries, hl⟩
  refine ⟨z, ?_, htries ▸ hall, htries ▸ htells, hrun, hstopped, fun n hn => ?_⟩
  · rw [hentry]
    exact save_entry_eq_none.not.mpr h.entry
  · have hwritten : (s.save p z).WrittenFor p fun y => y.Precedes z ∧ ∃ l, y.Recorded P r l :=
      WrittenFor.save (h.written.mono fun _ hy => ⟨hy.1.trans hlater, hy.2⟩)
        ⟨.refl z, s.tries ++ l, hshows, hall, htells, htries ▸ hP⟩
    exact hwritten n (hentry ▸ hn)

/-- What is kept to stays so when the execution goes on and nothing is written. -/
theorem Keeping.goes_on {l : List TryEvent} (h : Keeping P p r halted s x) (hlater : x.Precedes z)
    (hl : ∀ t ∈ l, t.TriesOf r.enabledActions) (htells : z.Tells r.retries (s.tries ++ l))
    (hstopped : z.isStopped = true → halted') (hentry : s'.entry = s.entry)
    (htries : s'.tries = s.tries ++ l)
    (hrun : ∀ run, s'.run = some run → run.execution = z ∧ run.rule = r) :
    s'.Follows P p r halted' := by
  refine ⟨z, hentry ▸ h.entry, ?_, htries ▸ htells, hrun, hstopped, fun n hn => ?_⟩
  · rw [htries]
    exact List.forall_mem_append.mpr ⟨h.tries, hl⟩
  · exact (h.written.mono fun _ hy => ⟨hy.1.trans hlater, hy.2⟩) n (hentry ▸ hn)

/-- An execution that has been launched keeps to the actions of its rule if its conditions hold. -/
theorem Launched.follows {n : StoreEntry} (h : Launched p now r x n (.ok true) s)
    (hn : p.entryOf x = .ok n) (hrunning : x.status = .running) (hsteps : x.steps = [])
    (hnil : P []) (hP : P s.tries) : s.Follows P p r False := by
  have hopen : x.isTerminal = false := by rw [Execution.isTerminal, hrunning]; rfl
  have hgoing : x.isStopped = false := by rw [Execution.isStopped, hrunning]; rfl
  have htells : x.Tells r.retries [] := .of_nil hsteps (by simp)
  have hkeeping : Keeping P p r False ⟨some n, none, false, []⟩ x :=
    ⟨by simp, by simp, htells, of_no_run, by simp [hgoing],
      fun m hm => ⟨x, Option.some.inj hm ▸ hn, .refl x, [], .inl ⟨hopen, hsteps⟩, by simp, htells, hnil⟩⟩
  cases h with
  | finished hmoves hover =>
      have hclosed := (hmoves.tells htells).of_precedes (Execution.precedes_close _ now)
        (Execution.close_steps _ now)
      refine hkeeping.write (hmoves.precedes.trans (Execution.precedes_close _ now)) hover.close_shows hP
        hmoves.tries_of hclosed ?_ rfl rfl of_no_run
      rw [Execution.close_is_stopped, hmoves.is_stopped_eq, hgoing]
      exact Bool.false_ne_true
  | waits hmoves hfits hy =>
      refine hkeeping.goes_on hmoves.precedes hmoves.tries_of (hmoves.tells htells) ?_ rfl rfl
        (of_one_run ⟨rfl, rfl⟩)
      rw [hmoves.is_stopped_eq, hgoing]
      exact Bool.false_ne_true

/-- A change lets an execution keep to the actions of its rule. -/
theorem Change.follows (h : Change U C p now id act s s') (hs : s.Sound p id)
    (hfollows : s.Follows P p r halted) (hP : P s'.tries) (hhalted : halted ∨ act.Stops id → halted') :
    s'.Follows P p r halted' := by
  obtain ⟨x, hx⟩ := hfollows
  have hstill : x.isStopped = true → halted' := fun h => hhalted (.inl (hx.stopped h))
  -- what is not written is followed without looking at the steps
  have hstay : ∀ t : Standing, t.entry = s.entry → t.tries = s.tries →
      (∀ run, t.run = some run → run.execution = x ∧ run.rule = r) → t.Follows P p r halted' :=
    fun t hentry htries hrun => ⟨x, hentry ▸ hx.entry, htries ▸ hx.tries, htries ▸ hx.tells, hrun, hstill,
      fun n hn => hx.written n (hentry ▸ hn)⟩
  cases h with
  | refused => exact absurd rfl hx.entry
  | launched => exact absurd rfl hx.entry
  | stay => exact hstay _ rfl rfl hx.run
  | released => exact hstay _ rfl rfl hx.run
  | restarted => exact hstay _ rfl rfl hx.run
  | brokenOff => exact hstay _ rfl rfl of_no_run
  | left hrun =>
      have hkept := hx.run _ hrun
      exact hstay _ rfl rfl (of_one_run hkept)
  | waits hrun _ hmoves =>
      obtain ⟨rfl, rfl⟩ := hx.run _ hrun
      refine hx.goes_on hmoves.precedes hmoves.tries_of (hmoves.tells hx.tells) ?_ rfl rfl
        (of_one_run ⟨rfl, rfl⟩)
      rw [hmoves.is_stopped_eq]
      exact hstill
  | finishedUnseen hrun _ _ hmoves =>
      obtain ⟨rfl, rfl⟩ := hx.run _ hrun
      refine hx.goes_on hmoves.precedes hmoves.tries_of (hmoves.tells hx.tells) ?_ rfl rfl of_no_run
      rw [hmoves.is_stopped_eq]
      exact hstill
  | finished hrun _ _ hmoves hover =>
      obtain ⟨rfl, rfl⟩ := hx.run _ hrun
      have hclosed := (hmoves.tells hx.tells).of_precedes (Execution.precedes_close _ now)
        (Execution.close_steps _ now)
      refine hx.write (hmoves.precedes.trans (Execution.precedes_close _ now)) hover.close_shows hP
        hmoves.tries_of hclosed ?_ rfl rfl of_no_run
      rw [Execution.close_is_stopped, hmoves.is_stopped_eq]
      exact hstill
  | finishedLate hrun _ _ hmoves hover =>
      obtain ⟨rfl, rfl⟩ := hx.run _ hrun
      refine hx.write hmoves.precedes (.inr ⟨hover.steps_follow, hover.concluded⟩) hP
        hmoves.tries_of (hmoves.tells hx.tells) ?_ rfl rfl of_no_run
      rw [hmoves.is_stopped_eq]
      exact hstill
  | @expired _ run hrun =>
      obtain ⟨rfl, rfl⟩ := hx.run _ hrun
      have hsound := hs.run _ hrun
      have hsteps := Execution.expired_steps run.execution run.rule now
      have hlater := Execution.precedes_expired run.execution run.rule now
      have hshows := Execution.shows_of_stopped hsound.fits.steps_follow hsound.underway hsteps
        (Execution.expired_cases _ _ _)
      refine hx.write hlater hshows hP (l := []) (by simp) ?_ (fun _ => hhalted (.inr rfl)) rfl
        (List.append_nil _).symm (of_one_run ⟨rfl, rfl⟩)
      rw [List.append_nil]
      exact hx.tells.of_precedes hlater hsteps
  | @cancelled _ run _ z moved hrun _ hmove =>
      obtain ⟨rfl, rfl⟩ := hx.run _ hrun
      have hsound := hs.run _ hrun
      have hmoved := Execution.moves_to hmove rfl
      have hshows := Execution.shows_of_stopped hsound.fits.steps_follow hsound.underway hmoved.steps
        (hmoved.ends.imp_right fun h => by rw [Execution.isStopped, h]; rfl)
      have htells : z.Tells run.rule.retries (s.tries ++ []) := by
        rw [List.append_nil]
        exact hx.tells.of_precedes hmoved.later hmoved.steps
      have hkept : ∀ run', some { run with execution := z } = some run' →
          run'.execution = z ∧ run'.rule = run.rule :=
        of_one_run ⟨rfl, rfl⟩
      cases moved with
      | false =>
          exact hx.goes_on hmoved.later (by simp) htells (fun _ => hhalted (.inr rfl)) rfl
            (List.append_nil _).symm hkept
      | true =>
          exact hx.write hmoved.later hshows hP (by simp) htells (fun _ => hhalted (.inr rfl)) rfl
            (List.append_nil _).symm hkept

/-- What is read of an execution that keeps to the actions of a rule shows how far they got; if it has
ended its steps recount the tries, and it was stopped only from outside. -/
theorem Follows.read {σ : Type} {v : Environment σ} {n : StoreEntry} {l : List TryEvent}
    (h : s.Follows (TryEvent.Refused v) p r halted) (hn : s.entry = some n) (hx : n.read = .ok x)
    (htries : s.tries = TryEvent.of x.id l) :
    x.Shows r ∧ (x.isTerminal = true → (x.isStopped = true → halted) ∧
      ∀ (m : Nat) t, x.steps[m]? = some t → ∃ a, r.enabledActions[m]? = some a ∧
        t.Recounts v r.retries a ⟨x.id, m⟩ l) := by
  obtain ⟨z, hz⟩ := h
  obtain ⟨y, hy, hlater, k, hrecorded⟩ := hz.written n hn
  have hkept := ExecutionStore.kept_as hy hx
  refine ⟨hkept.shows hrecorded.shows, fun hended => ⟨fun hstopped => ?_, fun m t ht => ?_⟩⟩
  · refine hz.stopped (hlater.is_stopped ?_)
    rw [Execution.isStopped, ← hkept.status]
    exact hstopped
  · obtain ⟨a, ha, hrecounts⟩ := hkept.recounts hlater hrecorded.tells hz.tells hrecorded.holds
      hrecorded.tries hz.tries hended ht
    rw [htries] at hrecounts
    exact ⟨a, ha, hrecounts.of_execution⟩

end Standing

namespace Engine

variable {σ : Type} {v : Environment σ} {p : ExecutionStore} {now : Moment} {e : Engine (Traced σ)}
  {r : Rule} {ruleId : String} {data : Fields} {context : ExecutionContext}
  {triggeredBy : Option String} {x : Execution}

/-- Acts let an execution keep to the actions of its rule. -/
theorem after_follows {P : List TryEvent → Prop} {id : String} {halted : Prop} (hk : e.core.Sound p)
    (h : (e.core.standing id).Follows P p r halted) (acts : List (Moment × Act))
    (hP : ∀ before later, acts = before ++ later →
      P (TryEvent.of id (e.after v.traced before).world.tries)) :
    ((e.after v.traced acts).core.standing id).Follows P p r
      (halted ∨ ∃ act ∈ acts, act.2.Stops id) := by
  induction acts using List.reverseRecOn with
  | nil => exact h.imp fun x hx => { hx with stopped := fun hstopped => .inl (hx.stopped hstopped) }
  | append_singleton acts act ih =>
      have hbefore := ih fun before later hacts =>
        hP before (later ++ [act]) (by rw [hacts, List.append_assoc])
      have hsound := after_sound (v := v) hk acts
      have hlast := hP (acts ++ [act]) [] (List.append_nil _).symm
      rw [after_append] at hlast ⊢
      refine (act_change hsound act.2 id).follows (hsound.standing id) hbefore hlast ?_
      rintro ((hhalted | ⟨act', hmem, hstops⟩) | hstops)
      · exact .inl hhalted
      · exact .inr ⟨act', List.mem_append_left _ hmem, hstops⟩
      · exact .inr ⟨act, by simp, hstops⟩

/-- An execution of a rule in use that may run and whose conditions hold takes an identifier and keeps to
the actions of the rule, unless the store cannot keep its record. -/
theorem execute_follows {P : List TryEvent → Prop} (hk : e.core.Sound p) (triggeredBy : Option String)
    (hrule : e.activeRule ruleId = .ok r)
    (hrate : RateLimit.check e.executions r.id r.settings now = .ok none)
    (hholds : Condition.allHold r.conditions (.object (evaluationData data (some context))) = .ok true)
    (hnil : P []) :
    let e' := (e.execute v.traced now ruleId data context triggeredBy).1
    P (TryEvent.of e.nextExecution e'.world.tries) →
      (e'.core.standing e.nextExecution = .blank ∧ e.executionIds + 1 ≤ e'.executionIds) ∨
        (e'.core.standing e.nextExecution).Follows P p r False := by
  intro e' hP
  have hfresh := standing_of_fresh hk
  obtain ⟨⟨f, hf⟩, _⟩ | h | ⟨r', reason, hr, hreason, _⟩ | ⟨r', y, t, hr, _, hy, hcreate, h⟩ :=
    e.execute_core v.traced now ruleId data context triggeredBy
  · rw [hf] at hrule
    cases hrule
  · left
    exact ⟨(congrArg (Core.standing · e.nextExecution) h).trans hfresh,
      (congrArg Core.executionIds h).ge⟩
  · obtain rfl := Except.ok.inj (hr.symm.trans hrule)
    rw [hreason] at hrate
    cases hrate
  · right
    obtain rfl := Except.ok.inj (hr.symm.trans hrule)
    have hid : y.id = e.nextExecution := by rw [hy]; rfl
    have hseen : y.seen = .object (evaluationData data (some context)) := by rw [hy]; rfl
    have hsteps : y.steps = [] := by rw [hy]; rfl
    have hrunning : y.status = .running := by rw [hy]; rfl
    have hblank : e.core.standing y.id = .blank := hid ▸ hfresh
    obtain ⟨n, hn, hlaunched⟩ := Core.opened_launch_self hk.kind hblank hcreate hsteps hrunning
      (by rw [hy]; rfl) (Condition.allHold r'.conditions y.seen)
    rw [hseen, hholds] at hlaunched h
    rw [← hid] at hP ⊢
    have hstanding := congrArg (Core.standing · y.id) h
    rw [hstanding]
    exact hlaunched.follows hn hrunning hsteps hnil (hstanding ▸ hP)

/-- Whatever is done to a new engine before and after, an execution that passes the limits of its rule
and whose conditions hold keeps to the actions in use of the rule as it was then, in their stable order.
If its stored record has ended it was stopped only if something was to stop it, and each of its steps
recounts the tries of its action. When its caller waits no more and did not go away, it has ended. -/
theorem actions_followed (v : Environment σ) (he : e.IsNew) (before later : List (Moment × Act))
    (hrule : (e.after v.traced before).activeRule ruleId = .ok r)
    (hrate : RateLimit.check (e.after v.traced before).executions r.id r.settings now = .ok none)
    (hholds : Condition.allHold r.conditions (.object (evaluationData data (some context))) = .ok true)
    (hx : (e.after v.traced (before ++ (now, .execute ruleId data context triggeredBy) :: later)).executions.get
      (e.after v.traced before).nextExecution = .ok (some x)) :
    let acts := before ++ (now, .execute ruleId data context triggeredBy) :: later
    let tries := (e.after v.traced acts).world.tries
    (r.enabledActions.Pairwise (fun a b => a.order ≤ b.order) ∧ ∀ order,
      r.enabledActions.filter (·.order = order) =
        (r.actions.filter (·.enabled)).filter (·.order = order)) ∧
    x.Shows r ∧
    (x.isTerminal = true → (x.isStopped = true → ∃ act ∈ later, act.2.Stops x.id) ∧
      ∀ (n : Nat) s, x.steps[n]? = some s → ∃ a, r.enabledActions[n]? = some a ∧
        s.Recounts v r.retries a ⟨x.id, n⟩ tries) ∧
    ∀ clock : Clock, (∀ act ∈ acts, clock.Shows act.1) →
      (∀ r, e.ComesToUse v.traced acts r → e.executions.Keeps clock (r.retries + 1)) →
      ¬(e.after v.traced acts).IsCalled x.id (fun _ => True) →
      ¬e.WasLeft v.traced acts x.id (fun y => y.isTerminal = false) → x.isTerminal = true := by
  intro acts tries
  have hk := after_sound (v := v) he.sound before
  have hlast := after_sound (v := v) he.sound acts
  obtain ⟨n, hn, hread⟩ := entry_of_get hx
  have hid : x.id = (e.after v.traced before).nextExecution := by
    obtain ⟨y, hy, hid, _⟩ := (hlast.standing _).written n hn
    exact (ExecutionStore.kept_as hy hread).id.trans hid
  refine ⟨⟨r.enabled_actions_sorted, r.enabled_actions_stable⟩, ?_⟩
  rw [← and_assoc]
  refine ⟨?_, fun clock hclock hstore hanswered hstayed => ?_⟩
  · have hrefused : ∀ acts id, TryEvent.Refused v (TryEvent.of id (e.after v.traced acts).world.tries) :=
      after_refused he.tries
    have hsplit : ∀ acts', e.after v.traced
        (before ++ (now, .execute ruleId data context triggeredBy) :: acts') =
        ((e.after v.traced before).execute v.traced now ruleId data context triggeredBy).1.after v.traced
          acts' := fun acts' => after_append v.traced e before (_ :: acts')
    have hbegun : ((e.after v.traced before).execute v.traced now ruleId data context
        triggeredBy).1.core.Sound e.executions :=
      act_sound hk (.execute ruleId data context triggeredBy)
    have hnil : TryEvent.Refused v [] := fun _ _ _ => Nat.le_refl _
    have hnow := hrefused (before ++ [(now, .execute ruleId data context triggeredBy)])
      (e.after v.traced before).nextExecution
    rw [hsplit] at hnow
    -- if opening the record failed there would be none, as its number is never taken again
    obtain ⟨hblank, hids⟩ | hfollows := execute_follows (v := v) hk triggeredBy hrule hrate hholds hnil
      hnow
    · have hstill := after_of_blank (v := v) hbegun hids hblank later
      rw [hsplit, nextExecution, hstill] at hn
      cases hn
    · have hdone := after_follows (v := v) hbegun hfollows later fun before' _ _ =>
        hsplit before' ▸ hrefused _ _
      rw [← hsplit, ← hid] at hdone
      rw [← hid] at hn
      have hread' := hdone.read (l := tries) hn hread rfl
      refine hread'.imp_right fun hsteps hended => (hsteps hended).imp_left fun hstops hstopped => ?_
      exact (hstops hstopped).resolve_left not_false
  · rw [hid] at hanswered hstayed
    rw [← Bool.not_eq_false, unended_iff_left he acts hclock hstore hx hanswered]
    exact hstayed

/-- An action that fails lets the execution fail, and its step recounts the only try. -/
theorem actions_followed_failing :
    let r := Rule.plain "rule" [.plain "action"]
    let e := start (.memory ⟨[r]⟩) (.memory .empty) ⟨[.over (.error (.action "No answer" none))], []⟩
    let acts := [(.utc 0, .execute "rule" [] .empty none)]
    ∃ x, (e.after Environment.scripted.traced acts).executions.get e.nextExecution = .ok (some x) ∧
      x.isTerminal = true ∧ x.Shows r ∧ ∀ (n : Nat) s, x.steps[n]? = some s →
        ∃ a, r.enabledActions[n]? = some a ∧ s.Recounts .scripted r.retries a ⟨x.id, n⟩
          (e.after Environment.scripted.traced acts).world.tries := by
  intro r e acts
  have hstored : ((e.after Environment.scripted.traced acts).executions.get
      e.nextExecution).toOption.join.map (·.isTerminal) = some true := by decide +kernel
  obtain ⟨x, hx, hended⟩ := Outcome.found_of_map hstored
  have hnew : e.IsNew := start_is_new _ (fun _ => rfl) _
  obtain ⟨_, hshows, hsteps, _⟩ := actions_followed .scripted hnew [] [] (r := r) rfl rfl rfl hx
  exact ⟨x, hx, hended, hshows, (hsteps hended).2⟩

end Engine

end Rulebook
