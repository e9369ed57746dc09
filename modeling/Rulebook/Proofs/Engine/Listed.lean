import Mathlib.Data.List.Flatten
import Rulebook.Proofs.Engine.Mirror
import Rulebook.Proofs.Engine.Share

/-!
# Which executions a dispatch lists

The identifiers of executions come back to a dispatch with the answers to its calls: as an answer, or with the failure
that a rule ran too often. Any other failure carries none, though the call may have left a record. So a dispatch lists
the records that its calls created, in their order, but for those of calls that failed otherwise
(`Engine.dispatch_lists`). What its calls did is told while anything else is done to the engine: a dispatch that waits
for an execution goes on when an act answers its call (`Engine.attend`).
-/

namespace Rulebook

variable {σ : Type}

/-- Items of lists that are parts of others make up as much as these do only if each list does. -/
theorem flat_map_eq_iff {α β : Type} {f g : α → List β} {l : List α} (h : ∀ a ∈ l, (f a).Sublist (g a)) :
    l.flatMap f = l.flatMap g ↔ ∀ a ∈ l, f a = g a := by
  induction l with
  | nil => exact ⟨fun _ => List.forall_mem_nil _, fun _ => rfl⟩
  | cons a l ih =>
      obtain ⟨ha, hl⟩ := List.forall_mem_cons.mp h
      rw [List.forall_mem_cons, ← ih hl, List.flatMap_cons, List.flatMap_cons]
      constructor
      · intro heq
        -- neither part is longer than its counterpart, hence both are as long
        have hlength := congrArg List.length heq
        have hrest := (List.Sublist.flatMap_right l hl).length_le
        rw [List.length_append, List.length_append] at hlength
        exact List.append_inj heq (Nat.le_antisymm ha.length_le (by omega))
      · rintro ⟨ha, hl⟩
        rw [ha, hl]

/-! ### Answers that carry an identifier -/

/-- An answer carries the identifier of an execution: it is one, or tells that the rule ran too often. -/
def Outcome.carries : Outcome String → Bool
  | .ok _ => true
  | .error f => f.isLimit

/-- A call carries the identifier of an execution, by its answer or by what is under way. -/
def Launch.carries : Launch → Bool
  | ended result => result.carries
  | underway _ => true

/-- A dispatch takes from an answer the identifier that it carries. -/
theorem Outcome.Names.tally_eq {id : String} {result : Outcome String} (h : result.Names id) (hid : id ≠ "")
    (ruleId triggeredBy : String) :
    (Host.tally ruleId triggeredBy result).1 = if result.carries then [id] else [] := by
  match result, h with
  | .ok _, rfl => rfl
  | .error f, h =>
      cases f with
      | rateLimited reason named =>
          obtain rfl : named = some id := h
          simp [Host.tally, carries, Failure.isLimit, hid]
      | _ => rfl

/-! ### Records that a call creates -/

namespace Call

variable {v : Environment σ} {c : Call σ}

/-- The records that a call creates: those that are kept after it and were not before. -/
def created (v : Environment σ) (c : Call σ) : List String :=
  ((c.after v).executions.trials.drop c.before.executions.trials.length).map (·.id)

/-- A call adds the records that it creates to those that were kept, and that is the next one at most. -/
theorem after_created (hc : c.before.core.Recorded) :
    (c.after v).core.Recorded ∧
      (c.after v).executions.trials.map (·.id) = c.before.executions.trials.map (·.id) ++ c.created v ∧
      (c.created v = [] ∨ c.created v = [c.before.nextExecution]) := by
  obtain ⟨hrecorded, htrials⟩ := Engine.act_trials hc v c.now
    (.execute c.ruleId c.occasion.data c.occasion.context (some c.occasion.triggeredBy))
  refine ⟨hrecorded, ?_⟩
  obtain htrials | ⟨r, reason, u, htries, htrials⟩ := htrials
  · have hsame : (c.after v).executions.trials = c.before.executions.trials := htrials
    rw [created, hsame, List.drop_length]
    exact ⟨(List.append_nil _).symm, .inl rfl⟩
  · have hadded : (c.after v).executions.trials = c.before.executions.trials ++ [u] := htrials
    have hid : u.id = c.before.nextExecution := (ExecutionStore.told_as htries.told).id
    rw [created, hadded, List.drop_left, List.map_append, ← hid]
    exact ⟨rfl, .inr rfl⟩

/-- A call that carries the identifier of an execution has opened a record. -/
theorem opens_of_carries (hc : c.before.core.Recorded) (h : (c.launch v).carries = true) : ∃ r, c.Opens r := by
  have hother : ∀ {f : Failure}, f.isLimit = false → (Launch.ended (.error f)).carries ≠ true := fun hf hcarries =>
    Bool.false_ne_true (hf.symm.trans hcarries)
  rw [launch, Engine.execute, Engine.begin, Engine.perform_bind, Engine.open_record_eq] at h
  cases hrule : c.before.activeRule c.ruleId with
  | error f =>
      rw [hrule] at h
      exact absurd h (hother (Engine.active_rule_unlimited _ _ f hrule))
  | ok r =>
      rw [hrule] at h
      dsimp only at h
      rcases hcheck : RateLimit.check c.before.executions r.id r.settings c.now with f | _ | reason <;> rw [hcheck] at h
      · exact absurd h (hother (RateLimit.check_unlimited _ _ _ _ f hcheck))
      · dsimp only at h
        cases hcreate : c.before.executions.create (c.begun r none) with
        | error f =>
            rw [begun, Engine.nextExecution] at hcreate
            rw [hcreate] at h
            exact absurd h (hother (ExecutionStore.create_unlimited _ _ f hcreate))
        | ok t => exact ⟨r, hrule, Engine.entry_fresh hc, none, t, hcheck, hcreate⟩
      · dsimp only at h
        cases hcreate : c.before.executions.create (c.begun r (some reason)) with
        | error f =>
            rw [begun, Engine.nextExecution] at hcreate
            rw [hcreate] at h
            exact absurd h (hother (ExecutionStore.create_unlimited _ _ f hcreate))
        | ok t => exact ⟨r, hrule, Engine.entry_fresh hc, some reason, t, hcheck, hcreate⟩

/-- A call names no other execution than the next one. -/
theorem launch_names (v : Environment σ) (c : Call σ) : (c.launch v).Names c.before.nextExecution := by
  obtain ⟨f, _, hf, hlaunch⟩ | ⟨_, hnames⟩ := c.before.execute_names v c.now c.ruleId c.occasion.data
    c.occasion.context (some c.occasion.triggeredBy)
  · rw [launch, hlaunch]
    exact Outcome.names_of_other hf _
  · exact hnames

/-- A call that carries the identifier of an execution has created the next record. -/
theorem created_of_carries (hc : c.before.core.Recorded) (h : (c.launch v).carries = true) :
    c.created v = [c.before.nextExecution] := by
  obtain ⟨r, hopens⟩ := opens_of_carries hc h
  obtain ⟨n, hentry, _⟩ := hopens.entry v
  obtain ⟨u, hu, hid, _⟩ := ExecutionStore.trial_of_entry hentry
  obtain ⟨_, htrials, hnone | hnext⟩ := after_created (v := v) hc
  · -- then the record of the next identifier was kept before the call
    have hbefore : c.before.nextExecution ∈ c.before.executions.trials.map (·.id) := by
      rw [← List.append_nil (List.map _ _), ← hnone, ← htrials, ← hid]
      exact List.mem_map_of_mem hu
    obtain ⟨w, hw, hwid⟩ := List.mem_map.mp hbefore
    exact absurd hwid (hc.next_fresh w hw)
  · exact hnext

end Call

/-- A call that a dispatch made, and the answer to it if there is one by now. -/
structure Served (σ : Type) where
  call : Call σ
  answer : Option (Outcome String)

namespace Served

variable {v : Environment σ} {c : Call σ}

/-- The records of a call that a dispatch lists: those that it created, if the answer carries an identifier. -/
def listed (v : Environment σ) (s : Served σ) : List String :=
  if s.answer.any Outcome.carries then s.call.created v else []

/-- The call with the answer to it, if it had none yet. -/
def answered (result : Outcome String) (s : Served σ) : Served σ := { s with answer := s.answer.or (some result) }

/-- What is listed was created. -/
theorem listed_sublist (v : Environment σ) (s : Served σ) : (s.listed v).Sublist (s.call.created v) := by
  rw [listed]
  split
  · exact List.Sublist.refl _
  · exact List.nil_sublist _

/-- All records are listed that a call created exactly if it created none or was not answered with a failure that
carries no identifier. -/
theorem listed_eq_iff {s : Served σ} (h : s.answer.isSome = true) :
    s.listed v = s.call.created v ↔
      ∀ f, s.answer = some (.error f) → f.isLimit = false → s.call.created v = [] := by
  obtain ⟨result, hresult⟩ := Option.isSome_iff_exists.mp h
  rw [listed, hresult]
  rcases result with f | id
  · cases hf : f.isLimit with
    | true =>
        refine ⟨?_, fun _ => if_pos hf⟩
        rintro _ _ ⟨⟩ hother
        cases hf.symm.trans hother
    | false =>
        have hnone : ¬(some (Except.error f : Outcome String)).any Outcome.carries = true := by
          rw [Option.any_some, Outcome.carries, hf]
          exact Bool.false_ne_true
        rw [if_neg hnone]
        constructor
        · intro heq _ _ _
          exact heq.symm
        · exact fun hcreated => (hcreated f rfl hf).symm
  · refine ⟨?_, fun _ => rfl⟩
    rintro _ _ ⟨⟩

/-- What a dispatch takes from the answer to a call is what it lists of the records. -/
theorem tally_eq_listed {result : Outcome String} {id : String} (hnames : result.Names id) (hid : id ≠ "")
    (hcreated : result.carries = true → c.created v = [id]) (ruleId triggeredBy : String) :
    (Host.tally ruleId triggeredBy result).1 = listed v ⟨c, some result⟩ := by
  rw [hnames.tally_eq hid, listed, Option.any_some]
  split
  next hcarries => exact (hcreated hcarries).symm
  next => rfl

end Served

/-! ### A dispatch that is followed to its end -/

/-- The answer that an act gives to the caller of an execution, if it gives one. -/
def Act.answerTo (v : Environment σ) (now : Moment) (e : Engine σ) (id : String) : Act → Option (Outcome String)
  | ring t => (e.ring v now t).2.bind fun (about, result) => if about = id then some result else none
  | _ => none

namespace Engine

variable {v : Environment σ} {now : Moment} {old : List String} {s : Engine σ × List (Served σ)}
  {ids : List String}

/-- The host of an engine that also writes down the calls and their answers. -/
def serving (v : Environment σ) (now : Moment) : Host (Engine σ × List (Served σ)) :=
  (host v now).observed (fun e ruleId o =>
    let c : Call σ := ⟨e, now, ruleId, o⟩
    [⟨c, (c.launch v).answer?⟩]) fun _ _ => []

/-- How far a dispatch gets while acts are done to the engine; it goes on when one of them answers the call that it
waits for. -/
def attend (v : Environment σ) : List (Moment × Act) → (Engine σ × List (Served σ)) × Progress →
    (Engine σ × List (Served σ)) × Progress
  | (now, act) :: acts, (s, .waits id r errand) =>
    let e := act.apply v now s.1
    match act.answerTo v now s.1 id with
    | some result => attend v acts ((serving v now).resume r result errand (e, s.2.map (·.answered result)))
    | none => attend v acts ((e, s.2), .waits id r errand)
  | _, p => p

/-- The engine, the calls and how far the dispatch of a cause gets while acts are done to the engine. -/
def dispatch (v : Environment σ) (now : Moment) (e : Engine σ) (cause : Cause) (acts : List (Moment × Act)) :
    (Engine σ × List (Served σ)) × Outcome Progress :=
  match cause.dispatch (serving v now) now (e, []) with
  | (s, .ok p) =>
    let (s, p) := attend v acts (s, p)
    (s, .ok p)
  | (s, .error f) => (s, .error f)

/-- Until an act is done, a dispatch gets as far as the host of the engine does. -/
theorem dispatch_nil (v : Environment σ) (now : Moment) (e : Engine σ) (cause : Cause) :
    cause.dispatch (host v now) now e = ((e.dispatch v now cause []).1.1, (e.dispatch v now cause []).2) := by
  have hobserved := cause.dispatch_observed (host v now) (fun e ruleId o =>
    let c : Call σ := ⟨e, now, ruleId, o⟩
    [(⟨c, (c.launch v).answer?⟩ : Served σ)]) (fun _ _ => []) now (e, [])
  rw [hobserved, dispatch, serving]
  rcases cause.dispatch _ now (e, []) with ⟨s, f | _ | _⟩ <;> rfl

/-- Identifiers are those that are listed of the calls so far, whose records were added in their order after those
that there were of old. -/
structure Lists (v : Environment σ) (old : List String) (s : Engine σ × List (Served σ)) (ids : List String) :
    Prop where
  recorded : s.1.core.Recorded
  ids : ids = s.2.flatMap (·.listed v)
  ordered : (old ++ s.2.flatMap (·.call.created v)).Sublist (s.1.executions.trials.map (·.id))

/-- The calls have been answered. -/
def Settled (log : List (Served σ)) : Prop := ∀ c ∈ log, c.answer.isSome = true

/-- A dispatch lists the identifiers that it should by now. If it waits, it waits for the answer to its last call,
which created the record of the execution. -/
def Keeps (v : Environment σ) (old : List String) (s : Engine σ × List (Served σ)) : Progress → Prop
  | .finished ids => Lists v old s ids ∧ Settled s.2
  | .waits id _ errand => Lists v old s errand.ids ∧ id ≠ "" ∧
    ∃ log c, s.2 = log ++ [⟨c, none⟩] ∧ c.created v = [id] ∧ Settled log

/-- Acts leave what is listed. -/
theorem Lists.act (h : Lists v old s ids) (v' : Environment σ) (now : Moment) (act : Act) :
    Lists v old (act.apply v' now s.1, s.2) ids := by
  obtain ⟨hrecorded, hgrown⟩ := after_recorded h.recorded v' [(now, act)]
  exact ⟨hrecorded, h.ids, h.ordered.trans (hgrown.map _).sublist⟩

/-- Notes leave what is listed. -/
theorem Lists.note (h : Lists v old s ids) (now : Moment) (notes : List LogEntry) :
    Lists v old ((serving v now).note s notes) ids :=
  h.act v now (.note notes)

/-- A call adds what is listed of it. -/
theorem Lists.call (h : Lists v old s ids) (now : Moment) (ruleId : String) (o : Occasion)
    (answer : Option (Outcome String)) :
    let c : Call σ := ⟨s.1, now, ruleId, o⟩
    Lists v old (c.after v, s.2 ++ [⟨c, answer⟩]) (ids ++ Served.listed v ⟨c, answer⟩) := by
  intro c
  obtain ⟨hrecorded, htrials, _⟩ := Call.after_created (v := v) (c := c) h.recorded
  refine ⟨hrecorded, ?_, ?_⟩
  · rw [List.flatMap_append, ← h.ids, List.flatMap_singleton]
  · rw [List.flatMap_append, List.flatMap_singleton, ← List.append_assoc]
    rw [show (c.after v, s.2 ++ [⟨c, answer⟩]).1.executions.trials.map (·.id) = _ from htrials]
    exact h.ordered.append (List.Sublist.refl _)

/-- The identifier of the next execution is not empty. -/
theorem next_execution_ne (e : Engine σ) : e.nextExecution ≠ "" := by
  intro h
  have hchars := congrArg String.toList h
  simp [nextExecution, identifier] at hchars

/-- All calls have been answered when the last one is. -/
theorem Settled.append {log : List (Served σ)} (h : Settled log) (c : Call σ) (result : Outcome String) :
    Settled (log ++ [⟨c, some result⟩]) :=
  List.forall_mem_append.mpr ⟨h, List.forall_mem_singleton.mpr rfl⟩

/-- An answer does nothing to calls that have been answered. -/
theorem Settled.map_answered {log : List (Served σ)} (h : Settled log) (result : Outcome String) :
    log.map (·.answered result) = log := by
  refine (List.map_congr_left fun c hc => ?_).trans (List.map_id' log)
  rcases c with ⟨c, _ | answer⟩
  · cases h _ hc
  · rfl

/-- Executing rules without waiting keeps what is listed. -/
theorem serve_keeps (now : Moment) (o : Occasion) (jobs : List Job) (rules : List Rule) (h : Lists v old s ids)
    (hsettled : Settled s.2) :
    Keeps v old ((serving v now).serve o jobs rules s ids).1 ((serving v now).serve o jobs rules s ids).2 := by
  induction rules generalizing s ids with
  | nil => exact ⟨h, hsettled⟩
  | cons r rules ih =>
      rw [Host.serve]
      cases r.isActive with
      | false => exact ih h hsettled
      | true =>
          let c : Call σ := ⟨s.1, now, r.id, o⟩
          have hexecute : (serving v now).execute s r.id o =
              ((c.after v, s.2 ++ [⟨c, (c.launch v).answer?⟩]), c.launch v) := rfl
          have hcall := h.call now r.id o (c.launch v).answer?
          have hcreated := Call.created_of_carries (v := v) (c := c) h.recorded
          have hnames := c.launch_names v
          rw [if_pos rfl, hexecute]
          cases hlaunch : c.launch v with
          | underway id =>
              rw [hlaunch] at hcall hcreated hnames
              obtain rfl : id = c.before.nextExecution := hnames
              refine ⟨?_, next_execution_ne _, s.2, c, rfl, hcreated rfl, hsettled⟩
              rw [← List.append_nil ids]
              exact hcall
          | ended result =>
              rw [hlaunch] at hcall hcreated hnames
              dsimp only
              rw [Served.tally_eq_listed hnames (next_execution_ne _) hcreated]
              exact ih (hcall.note now _) (hsettled.append c result)

/-- Whether a due job has an occasion is told without a call. -/
theorem occasion_acts (v : Environment σ) (now : Moment) (j : Job) (r : Rule) (s : Engine σ × List (Served σ)) :
    ((serving v now).occasion j r s).1 = s ∨
      ((serving v now).occasion j r s).1 = ((Act.poll r).apply v now s.1, s.2) := by
  rw [Host.occasion]
  split
  next =>
    rw [Host.poll]
    cases hp : Host.polling? r j.triggerId with
    | none => exact .inl rfl
    | some p =>
        have hsource : (serving v now).source = (host v now).source.map fun reading s r =>
          (((reading s.1 r).1, s.2 ++ []), (reading s.1 r).2) := rfl
        rw [hsource, Act.apply]
        cases (host v now).source with
        | none => exact .inl rfl
        | some reading =>
            right
            dsimp only [Option.map_some]
            rw [List.append_nil]
            rcases reading s.1 r with ⟨e, f | _ | data⟩ <;> rfl
  next => exact .inl rfl

/-- Firing due jobs without waiting keeps what is listed. -/
theorem fire_keeps (now : Moment) (jobs : List Job) (h : Lists v old s ids) (hsettled : Settled s.2) :
    Keeps v old ((serving v now).fire jobs s ids).1 ((serving v now).fire jobs s ids).2 := by
  induction jobs generalizing s ids with
  | nil => exact ⟨h, hsettled⟩
  | cons j jobs ih =>
      rw [Host.fire]
      cases ((serving v now).registry s).rule? j.ruleId with
      | none => exact ih h hsettled
      | some r =>
          have hoccasion : Lists v old ((serving v now).occasion j r s).1 ids ∧
              Settled ((serving v now).occasion j r s).1.2 := by
            obtain heq | heq := occasion_acts v now j r s <;> rw [heq]
            · exact ⟨h, hsettled⟩
            · exact ⟨h.act v now (.poll r), hsettled⟩
          dsimp only
          generalize (serving v now).occasion j r s = polled at hoccasion ⊢
          obtain ⟨s', o⟩ := polled
          obtain ⟨hlists, hsettled⟩ := hoccasion
          have hnoted := hlists.note now o.notes
          dsimp only
          rcases o.outcome with f | _ | o'
          · exact ih (hnoted.note now _) hsettled
          · exact ih hnoted hsettled
          · have hserve := serve_keeps now o' jobs [r] hnoted hsettled
            dsimp only
            split
            next heq =>
              rw [heq] at hserve
              exact ih hserve.1 hserve.2
            next => exact hserve

/-- A dispatch that goes on with the answer to its last call keeps what is listed. -/
theorem resume_keeps {id : String} {r : Rule} {errand : Errand} (h : Keeps v old s (.waits id r errand))
    {result : Outcome String} (hresult : result.Names id) :
    let p := (serving v now).resume r result errand (s.1, s.2.map (·.answered result))
    Keeps v old p.1 p.2 := by
  obtain ⟨⟨hrecorded, hids, hordered⟩, hid, log, c, hlog, hcreated, hsettled⟩ := h
  -- only the last call had no answer yet
  have hanswered : s.2.map (·.answered result) = log ++ [⟨c, some result⟩] := by
    rw [hlog, List.map_append, hsettled.map_answered]
    rfl
  have hlisted : Lists v old (s.1, log ++ [⟨c, some result⟩])
      (errand.ids ++ (Host.tally r.id errand.occasion.triggeredBy result).1) := by
    rw [hlog, List.flatMap_append] at hids hordered
    refine ⟨hrecorded, ?_, ?_⟩
    · rw [List.flatMap_append, hids, Served.tally_eq_listed hresult hid fun _ => hcreated,
        show [(⟨c, none⟩ : Served σ)].flatMap (·.listed v) = [] from rfl, List.append_nil, List.flatMap_singleton]
    · rw [List.flatMap_append]
      exact hordered
  have hserve := serve_keeps now errand.occasion errand.jobs errand.rules
    (hlisted.note now (Host.tally r.id errand.occasion.triggeredBy result).2) (hsettled.append c result)
  dsimp only
  rw [hanswered, Host.resume]
  dsimp only
  split
  next heq =>
    rw [heq] at hserve
    exact fire_keeps now errand.jobs hserve.1 hserve.2
  next => exact hserve

/-- An act that answers the caller of an execution names no other one. -/
theorem answer_names {act : Act} {e : Engine σ} {id : String} {result : Outcome String}
    (h : act.answerTo v now e id = some result) : result.Names id := by
  cases act with
  | ring t =>
      obtain ⟨⟨about, told⟩, hring, htold⟩ := Option.bind_eq_some_iff.mp h
      obtain ⟨rfl, rfl⟩ : about = id ∧ told = result := by simpa using htold
      exact ring_names v now e t hring
  | _ => cases h

/-- Whatever acts are done, a dispatch keeps what is listed. -/
theorem attend_keeps (acts : List (Moment × Act)) {p : Progress} (h : Keeps v old s p) :
    Keeps v old (attend v acts (s, p)).1 (attend v acts (s, p)).2 := by
  induction acts generalizing s p with
  | nil => cases p <;> exact h
  | cons act acts ih =>
      obtain ⟨now, act⟩ := act
      cases p with
      | finished ids => exact h
      | waits id r errand =>
          obtain ⟨hlists, hrest⟩ := h
          have hacted : Keeps v old (act.apply v now s.1, s.2) (.waits id r errand) := ⟨hlists.act v now act, hrest⟩
          rw [attend]
          split
          next result hresult => exact ih (resume_keeps hacted (answer_names hresult))
          next => exact ih hacted

/-- A dispatch failed before it made a call, or it keeps what is listed. -/
def Commences (v : Environment σ) (e : Engine σ) (s : Engine σ × List (Served σ)) : Outcome Progress → Prop
  | .error _ => s.2 = [] ∧ s.1.executions = e.executions
  | .ok p => Keeps v (e.executions.trials.map (·.id)) s p

/-- A dispatch begins with nothing listed. -/
theorem dispatch_commences {e : Engine σ} (he : e.core.Recorded) (v : Environment σ) (now : Moment) (cause : Cause) :
    Commences v e (cause.dispatch (serving v now) now (e, [])).1 (cause.dispatch (serving v now) now (e, [])).2 := by
  have hstart : Lists v (e.executions.trials.map (·.id)) (e, []) [] :=
    ⟨he, rfl, by rw [List.flatMap_nil, List.append_nil]⟩
  have hsettled : Settled ([] : List (Served σ)) := List.forall_mem_nil _
  cases cause with
  | event eventType data context =>
      rw [Cause.dispatch, Host.event]
      dsimp only
      rcases (((serving v now).registry (e, [])).forEvent eventType data).outcome with f | rules
      · exact ⟨rfl, rfl⟩
      · exact serve_keeps now _ [] _ (hstart.note now _) hsettled
  | webhook webhookId data headers => exact serve_keeps now _ [] _ (hstart.note now _) hsettled
  | tick =>
      rw [Cause.dispatch, Host.tick]
      dsimp only
      rcases (((serving v now).registry (e, [])).scheduler.due now).due with f | jobs
      · exact ⟨rfl, rfl⟩
      · exact fire_keeps now jobs ((hstart.act v now (.schedule _)).note now _) hsettled

/-- Whatever is done to an engine before, and whatever is done to it while a dispatch waits for executions, the
dispatch of an event, of a call of a webhook or of a look at the schedules fails before it has called a rule, or it
lists the records that its calls created and whose identifiers their answers carry, in the order in which the records
were created. When it has ended all its calls have been answered, and it lists the records of them all exactly if no
call that created one was answered with another failure than that the rule ran too often. -/
theorem dispatch_lists (rules : RuleStore) {p : ExecutionStore} (hempty : p.IsEmpty) (world : σ)
    (v : Environment σ) (before : List (Moment × Act)) (now : Moment) (cause : Cause) (acts : List (Moment × Act)) :
    let e := (start rules p world).after v before
    ∃ e' log outcome, e.dispatch v now cause acts = ((e', log), outcome) ∧
      (e'.executions.trials.map (·.id)).Nodup ∧
      (e.executions.trials.map (·.id) ++ log.flatMap (·.call.created v)).Sublist
        (e'.executions.trials.map (·.id)) ∧
      (∀ f, outcome = .error f → log = []) ∧
      (∀ progress, outcome = .ok progress → progress.ids = log.flatMap (·.listed v)) ∧
      ∀ ids, outcome = .ok (.finished ids) → Settled log ∧ ids.Sublist (log.flatMap (·.call.created v)) ∧
        (ids = log.flatMap (·.call.created v) ↔ ∀ c ∈ log, ∀ f, c.answer = some (.error f) → f.isLimit = false →
          c.call.created v = []) := by
  intro e
  have he : e.core.Recorded := (after_recorded (start_recorded rules hempty world) v before).1
  clear_value e
  have hstart := dispatch_commences he v now cause
  rw [dispatch]
  generalize cause.dispatch (serving v now) now (e, []) = begun at hstart ⊢
  obtain ⟨s, f | progress⟩ := begun
  · obtain ⟨hnone, hsame⟩ := hstart
    refine ⟨s.1, s.2, .error f, rfl, ?_, ?_, fun _ _ => hnone, ?_, ?_⟩
    · rw [hsame]
      exact he.ids
    · rw [hnone, hsame, List.flatMap_nil, List.append_nil]
    · rintro _ ⟨⟩
    · rintro _ ⟨⟩
  · have hkeeps := attend_keeps acts hstart
    dsimp only
    generalize attend v acts (s, progress) = attended at hkeeps ⊢
    obtain ⟨⟨e', log⟩, progress⟩ := attended
    have hlists : Lists v (e.executions.trials.map (·.id)) (e', log) progress.ids := by
      cases progress with
      | finished ids => exact hkeeps.1
      | waits id r errand => exact hkeeps.1
    refine ⟨e', log, .ok progress, rfl, hlists.recorded.ids, hlists.ordered, ?_, ?_, ?_⟩
    · rintro _ ⟨⟩
    · rintro _ ⟨⟩
      exact hlists.ids
    · rintro ids ⟨⟩
      obtain ⟨⟨_, hids, _⟩, hsettled⟩ := hkeeps
      refine ⟨hsettled, ?_, ?_⟩
      · rw [hids]
        exact List.Sublist.flatMap_right log fun c _ => c.listed_sublist v
      · rw [hids, flat_map_eq_iff fun c _ => c.listed_sublist v]
        exact forall₂_congr fun c hc => Served.listed_eq_iff (hsettled c hc)

/-- Three rules that are due every five minutes: an execution of the first one cannot be counted, the second one has
an action, and the last one may not be executed at all. -/
def dueRules : List RuleDraft :=
  let d := RuleDraft.scheduled .interval "5m"
  [{ d with metadata := { RuleMetadata.plain with executionCount := -1 } }, { d with actions := [.plain "action"] },
    { d with settings := ⟨0, 0, 0, 0, false⟩ }]

/-- The rules are due: the first execution cannot be counted, the second one waits for a reply, and the third one is
refused. Three records are created, and the first one is not listed, for its call was answered with another failure. -/
theorem dispatch_lists_uncounted :
    let v := Environment.scripted
    let e := (start (.memory .empty) (.memory .empty) [.waits .plain]).after v
      (dueRules.map fun d => (.utc 0, .createRule d))
    let now := Moment.utc (5 * microsPerMinute)
    let reply := (Moment.utc (5 * microsPerMinute + microsPerSecond), Act.ring (.wake "exec_0002" 0))
    ∃ e' log outcome, e.dispatch v now .tick [reply] = ((e', log), outcome) ∧
      log.flatMap (·.call.created v) = ["exec_0001", "exec_0002", "exec_0003"] ∧
      (∃ ids, outcome = .ok (.finished ids) ∧ ids = ["exec_0002", "exec_0003"]) ∧
      ∃ c ∈ log, ∃ f, c.answer = some (.error f) ∧ f.isLimit = false ∧ c.call.created v ≠ [] := by
  intro v e now reply
  obtain ⟨e', log, outcome, hdispatch, _, _, _, _, hends⟩ := dispatch_lists (.memory .empty)
    (show ExecutionStore.IsEmpty (.memory .empty) from fun _ => rfl) [.waits .plain] v
    (dueRules.map fun d => (.utc 0, .createRule d)) now .tick [reply]
  have hcreated : log.flatMap (·.call.created v) = ["exec_0001", "exec_0002", "exec_0003"] := by
    have hlog := congrArg (fun dispatched => dispatched.1.2.flatMap (·.call.created v)) hdispatch
    rw [← hlog]
    decide +kernel
  have hfinished : (outcome.toOption.map fun progress => (progress.needs, progress.ids)) =
      some (0, ["exec_0002", "exec_0003"]) := by
    have houtcome := congrArg (fun dispatched => dispatched.2.toOption.map
      fun progress => (progress.needs, progress.ids)) hdispatch
    rw [← houtcome]
    decide +kernel
  obtain ⟨progress, rfl, heq⟩ := Outcome.ok_of_map hfinished
  obtain ⟨ids, rfl⟩ := Progress.needs_eq_zero_iff.mp (congrArg Prod.fst heq)
  have hids : ids = ["exec_0002", "exec_0003"] := congrArg Prod.snd heq
  refine ⟨e', log, .ok (.finished ids), hdispatch, hcreated, ⟨ids, rfl, hids⟩, ?_⟩
  by_contra hnone
  have hall : ids = log.flatMap (·.call.created v) := (hends ids rfl).2.2.mpr fun c hc f hf hlimit =>
    by_contra fun hleft => hnone ⟨c, hc, f, hf, hlimit, hleft⟩
  rw [hids, hcreated] at hall
  exact absurd hall (by decide)

end Engine

end Rulebook
