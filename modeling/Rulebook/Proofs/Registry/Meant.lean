import Rulebook.Proofs.EventType
import Rulebook.Proofs.Outcome
import Rulebook.Proofs.Registry.History
import Rulebook.Registry.Match

/-!
# Which rules an event means

A rule reacts to an event if one of its event triggers in use is of a matching type and names nothing that
the data differ from (`Rule.Reacts`); whether it does cannot be told if, before that is settled, a filter
cannot be compared (`Rule.Faults`). The event index singles out candidates, but what it leaves out would not
react: the rules that are meant are those that looking at every rule would find
(`Registry.for_event_eq_scan`).
-/

namespace Rulebook

/-! ### Computations that tell something or fail -/

namespace Logged

/-- A computation tells whether something is so, or it has one of some faults. -/
structure Tells (x : Logged Bool) (holds : Prop) (faults : Failure → Prop) : Prop where
  error_iff : ∀ f, x.outcome = .error f ↔ faults f
  ok_iff : ∀ b, x.outcome = .ok b → (b = true ↔ holds)

/-- One of the items has a fault, and those before it have none and let the search pass. -/
def FirstFault {α : Type} (passes : α → Prop) (faults : α → Failure → Prop) (l : List α) (f : Failure) :
    Prop :=
  ∃ before a after, l = before ++ a :: after ∧ (∀ b ∈ before, passes b ∧ ∀ g, ¬faults b g) ∧ faults a f

variable {α β : Type} {x : Logged α} {k : α → Logged β}

/-- After a computation that tells that something is not so, and leaves no notes, comes just the next. -/
theorem bind_pure (a : α) (k : α → Logged β) : (pure a : Logged α).bind k = k a := rfl

/-- A computation before one that only gives its result back is all there is. -/
theorem bind_pure_right (x : Logged α) : x.bind pure = x := by
  obtain ⟨outcome, notes⟩ := x
  cases outcome with
  | error f => rfl
  | ok a => exact congrArg (Logged.mk _) (List.append_nil notes)

variable {passes : α → Prop} {faults : α → Failure → Prop} {a : α} {l : List α} {f : Failure}

/-- No item of no items has a fault. -/
theorem not_first_fault_nil : ¬FirstFault passes faults [] f := by
  rintro ⟨before, _, _, h, _⟩
  cases before <;> cases h

/-- The first fault is that of the first item, or of the others if it has none and lets the search pass. -/
theorem first_fault_cons_iff : FirstFault passes faults (a :: l) f ↔
    faults a f ∨ (∀ g, ¬faults a g) ∧ passes a ∧ FirstFault passes faults l f := by
  constructor
  · rintro ⟨before, b, after, heq, hbefore, hb⟩
    cases before with
    | nil =>
        obtain ⟨rfl, rfl⟩ := List.cons.inj heq
        exact .inl hb
    | cons c before =>
        obtain ⟨rfl, rfl⟩ := List.cons.inj heq
        obtain ⟨⟨hpass, hnone⟩, hrest⟩ := List.forall_mem_cons.mp hbefore
        exact .inr ⟨hnone, hpass, before, b, after, rfl, hrest, hb⟩
  · rintro (ha | ⟨hnone, hpass, before, b, after, rfl, hbefore, hb⟩)
    · exact ⟨[], a, l, rfl, nofun, ha⟩
    · exact ⟨a :: before, b, after, rfl, List.forall_mem_cons.mpr ⟨⟨hpass, hnone⟩, hbefore⟩, hb⟩

/-- A computation has a fault or tells whether something is so. -/
theorem Tells.cases {x : Logged Bool} {holds : Prop} {faults : Failure → Prop} (h : x.Tells holds faults) :
    (∃ f, faults f ∧ x.outcome = .error f) ∨
      (∀ f, ¬faults f) ∧ (holds ∧ x.outcome = .ok true ∨ ¬holds ∧ x.outcome = .ok false) := by
  cases hx : x.outcome with
  | error f => exact .inl ⟨f, (h.error_iff f).mp hx, rfl⟩
  | ok b =>
      refine .inr ⟨fun f hf => ?_, ?_⟩
      · cases hx.symm.trans ((h.error_iff f).mpr hf)
      · have htold := h.ok_iff b hx
        cases b with
        | true => exact .inl ⟨htold.mp rfl, rfl⟩
        | false => exact .inr ⟨fun hholds => absurd (htold.mpr hholds) Bool.false_ne_true, rfl⟩

variable {x y : Logged Bool} {p q : Prop} {first more : Failure → Prop}

/-- The same is told of what is so and fails just when that is so and fails. -/
theorem Tells.congr {p' : Prop} {faults' : Failure → Prop} (h : x.Tells p first) (hp : p' ↔ p)
    (hfaults : ∀ f, faults' f ↔ first f) : x.Tells p' faults' :=
  ⟨fun f => (h.error_iff f).trans (hfaults f).symm, fun b hb => (h.ok_iff b hb).trans hp.symm⟩

/-- To tell whether two things are so, the second one is looked at if the first one is so. -/
theorem Tells.and (hx : x.Tells p first) (hy : y.Tells q more) :
    (x.bind fun b => if b then y else pure false).Tells (p ∧ q)
      fun f => first f ∨ (∀ g, ¬first g) ∧ p ∧ more f := by
  unfold bind
  obtain ⟨e, he, hout⟩ | ⟨hnone, ⟨hp, hout⟩ | ⟨hp, hout⟩⟩ := hx.cases <;> rw [hout]
  · have hsame : ∀ f, first f ↔ e = f := fun f => by rw [← hx.error_iff, hout, Except.error.injEq]
    refine ⟨fun f => ?_, nofun⟩
    simp [hsame]
  · refine ⟨fun f => (hy.error_iff f).trans ?_, fun b hb => (hy.ok_iff b hb).trans (and_iff_right hp).symm⟩
    simp [hnone, hp]
  · refine ⟨fun f => iff_of_false nofun ?_, fun b hb => ?_⟩
    · simp [hnone, hp]
    · obtain rfl := Except.ok.inj hb
      exact iff_of_false Bool.false_ne_true fun h => hp h.1

/-- To tell whether one of two things is so, the second one is looked at if the first one is not so. -/
theorem Tells.or (hx : x.Tells p first) (hy : y.Tells q more) :
    (x.bind fun b => if b then pure true else y).Tells (p ∨ q)
      fun f => first f ∨ (∀ g, ¬first g) ∧ ¬p ∧ more f := by
  unfold bind
  obtain ⟨e, he, hout⟩ | ⟨hnone, ⟨hp, hout⟩ | ⟨hp, hout⟩⟩ := hx.cases <;> rw [hout]
  · have hsame : ∀ f, first f ↔ e = f := fun f => by rw [← hx.error_iff, hout, Except.error.injEq]
    refine ⟨fun f => ?_, nofun⟩
    simp [hsame]
  · refine ⟨fun f => iff_of_false nofun ?_, fun b hb => ?_⟩
    · simp [hnone, hp]
    · obtain rfl := Except.ok.inj hb
      exact iff_of_true rfl (.inl hp)
  · refine ⟨fun f => (hy.error_iff f).trans ?_, fun b hb => (hy.ok_iff b hb).trans (or_iff_right hp).symm⟩
    simp [hnone, hp]

end Logged

/-! ### Filters -/

namespace Condition

/-- What is wrong with the length of the path of a condition. -/
def fieldFlaw? (field : String) : Option Flaw :=
  if 200 < field.length then some (.tooLong 200)
  else if field.length < 1 then some (.tooShort 1)
  else none

/-- A condition on a single field is valid if the length of its path is. -/
theorem read_alone (field : String) (operator : Operator) (expected : Value) :
    Condition.read "" (.object [("field", .text field), ("operator", .text operator.name),
      ("value", expected)]) =
    match fieldFlaw? field with
    | some flaw => .invalid [⟨[.name "field"], flaw⟩]
    | none => .valid ⟨"", field, operator, expected, .and, none⟩ := by
  have hfield : Schema.textOfLength 1 (some 200) (.text field) =
      match fieldFlaw? field with
      | some flaw => .fail flaw
      | none => .valid field := by
    unfold fieldFlaw?
    by_cases hlong : 200 < field.length
    · simp [Schema.textOfLength, Schema.text, Checked.andThen, hlong]
    · by_cases hshort : field.length < 1
      · simp [Schema.textOfLength, Schema.text, Checked.andThen, hlong, hshort]
      · simp [Schema.textOfLength, Schema.text, Checked.andThen, hlong, hshort]
  have hoperator : (Schema.named (.text operator.name) : Checked Operator) = .valid operator := by
    cases operator <;> rfl
  have hread : Condition.read "" (.object [("field", .text field), ("operator", .text operator.name),
      ("value", expected)]) =
      Condition.mk <$> .valid "" <*> (Schema.textOfLength 1 (some 200) (.text field)).within (.name "field")
        <*> (Schema.named (.text operator.name)).within (.name "operator") <*> .valid expected
        <*> .valid .and <*> .valid none := rfl
  rw [hread, hfield, hoperator]
  cases fieldFlaw? field <;> rfl

/-- An equation alone fails where its path is stuck, and holds if its path leads to what it asks for. -/
theorem all_hold_alone (field : String) (expected data : Value) :
    allHold [⟨"", field, .equals, expected, .and, none⟩] data =
      match Path.resolve data field with
      | .error (.index f) => .error f
      | .error (.path _) | .ok none => .ok false
      | .ok (some v) => .ok (v.equals expected) := by
  have hone : ∀ r, holdsIn ⟨"", field, .equals, expected, .and, none⟩ data = r →
      allHold [⟨"", field, .equals, expected, .and, none⟩] data = r := by
    rintro (f | b) hr
    · simp [allHold, hr, Except.map, bind, Except.bind]
    · simp [allHold, hr, Except.map, bind, Except.bind, pure, Except.pure, combine, groupName?,
        Connective.apply]
  refine hone _ ?_
  unfold holdsIn outcome
  rcases Path.resolve data field with (_ | _) | _ | _ <;> rfl

end Condition

/-- Data have what a filter names. -/
def Value.Meets (data : Value) (filter : String × Value) : Prop :=
  ∃ v, Path.resolve data filter.1 = .ok (some v) ∧ v.equals filter.2 = true

/-- A filter cannot be compared with data: the length of its path is not allowed, or the path is stuck. -/
inductive Value.Jams (data : Value) (filter : String × Value) : Failure → Prop where
  | invalid {flaw : Flaw} : Condition.fieldFlaw? filter.1 = some flaw →
      Jams data filter (.invalid [⟨[.name "field"], flaw⟩])
  | stuck {fault : NumberFault} : Condition.fieldFlaw? filter.1 = none →
      Path.resolve data filter.1 = .error (.index fault) → Jams data filter (.number fault)

/-- Comparing a filter tells whether data have what it names. -/
theorem Condition.holds_alone_tells (data : Value) (filter : String × Value) :
    (Condition.holdsAlone filter.1 .equals filter.2 data).Tells (data.Meets filter) (data.Jams filter) := by
  unfold Condition.holdsAlone
  rw [Condition.read_alone]
  cases hflaw : Condition.fieldFlaw? filter.1 with
  | some flaw =>
      refine ⟨fun f => ⟨?_, ?_⟩, nofun⟩
      · rintro ⟨⟩
        exact .invalid hflaw
      · rintro (h | ⟨h, _⟩)
        · obtain rfl := Option.some.inj (hflaw.symm.trans h)
          rfl
        · cases hflaw.symm.trans h
  | none =>
      have hresult : ∀ f, data.Jams filter f ↔
          ∃ fault, Path.resolve data filter.1 = .error (.index fault) ∧ .number fault = f := by
        intro f
        constructor
        · rintro (h | ⟨_, h⟩)
          · cases hflaw.symm.trans h
          · exact ⟨_, h, rfl⟩
        · rintro ⟨fault, h, rfl⟩
          exact .stuck hflaw h
      dsimp only [Checked.toExcept]
      unfold Value.Meets
      rw [Condition.all_hold_alone]
      refine ⟨fun f => Iff.trans ?_ (hresult f).symm, fun b => ?_⟩
      · rcases Path.resolve data filter.1 with (fault | _) | _ | _ <;> simp [Except.mapError]
      · rcases Path.resolve data filter.1 with (_ | _) | _ | v <;> simp +contextual [Except.mapError]

/-! ### Triggers and rules -/

namespace Trigger

/-- A trigger reacts to an event: it is for events of a matching type, and the data have what each of its
filters names. -/
def Accepts (t : Trigger) (eventType : String) (data : Value) : Prop :=
  ∃ pattern, t.source = .event pattern ∧ EventType.isMatch pattern eventType = true ∧
    ∀ filter ∈ t.filters, data.Meets filter

/-- It cannot be told whether a trigger reacts to an event: it is for events of a matching type, and one of
its filters cannot be compared while the data have what those before it name. -/
def Faults (t : Trigger) (eventType : String) (data : Value) (f : Failure) : Prop :=
  ∃ pattern, t.source = .event pattern ∧ EventType.isMatch pattern eventType = true ∧
    Logged.FirstFault data.Meets data.Jams t.filters f

/-- Comparing filters in order tells whether data have what all of them name. -/
theorem filters_hold_tell (data : Value) (filters : Fields) : (filtersHold data filters).Tells
    (∀ filter ∈ filters, data.Meets filter) (Logged.FirstFault data.Meets data.Jams filters) := by
  induction filters with
  | nil =>
      refine ⟨fun f => iff_of_false nofun Logged.not_first_fault_nil, fun b hb => ?_⟩
      cases hb
      simp
  | cons filter filters ih =>
      refine ((Condition.holds_alone_tells data filter).and ih).congr List.forall_mem_cons fun f => ?_
      exact Logged.first_fault_cons_iff

/-- Looking at a trigger tells whether it reacts to an event. -/
theorem accepts_event_tells (t : Trigger) (eventType : String) (data : Value) :
    (t.acceptsEvent (EventType.normalize eventType) data).Tells (t.Accepts eventType data)
      (t.Faults eventType data) := by
  unfold acceptsEvent Accepts Faults
  cases hsource : t.source with
  | event pattern =>
      dsimp only
      rw [EventType.is_match_normal]
      by_cases hmatch : EventType.isMatch pattern eventType = true
      · rw [if_pos hmatch]
        refine (filters_hold_tell data t.filters).congr ?_ fun f => ?_
        · simp [hmatch]
        · simp [hmatch]
      · rw [if_neg hmatch]
        refine ⟨fun f => iff_of_false nofun ?_, fun b hb => ?_⟩
        · simp [hmatch]
        · cases hb
          simp [hmatch]
  | _ =>
      refine ⟨fun f => iff_of_false nofun (by simp), fun b hb => ?_⟩
      cases hb
      simp

end Trigger

namespace Rule

/-- A rule reacts to an event: one of its triggers in use does. -/
def Reacts (r : Rule) (eventType : String) (data : Value) : Prop :=
  ∃ t ∈ r.enabledTriggers, t.Accepts eventType data

/-- It cannot be told whether a rule reacts to an event: it cannot be told of one of its triggers in use,
and those before it do not react. -/
def Faults (r : Rule) (eventType : String) (data : Value) (f : Failure) : Prop :=
  Logged.FirstFault (fun t => ¬t.Accepts eventType data) (fun t => t.Faults eventType data)
    r.enabledTriggers f

/-- Looking at triggers in order tells whether one of them reacts to an event. -/
theorem accepts_event_tells (triggers : List Trigger) (eventType : String) (data : Value) :
    (acceptsEvent (EventType.normalize eventType) data triggers).Tells
      (∃ t ∈ triggers, t.Accepts eventType data)
      (Logged.FirstFault (fun t => ¬t.Accepts eventType data) (fun t => t.Faults eventType data)
        triggers) := by
  induction triggers with
  | nil =>
      refine ⟨fun f => iff_of_false nofun Logged.not_first_fault_nil, fun b hb => ?_⟩
      cases hb
      simp
  | cons t triggers ih =>
      refine ((t.accepts_event_tells eventType data).or ih).congr (List.exists_mem_cons_iff _ _ _) fun f => ?_
      exact Logged.first_fault_cons_iff

/-- It can be told of a rule without filters whether it reacts. -/
theorem not_faults_of_no_filters {r : Rule} {eventType : String} {data : Value} {f : Failure}
    (h : ∀ t ∈ r.enabledTriggers, t.filters = []) : ¬r.Faults eventType data f := by
  rintro ⟨before, t, after, hsplit, _, pattern, _, _, hfault⟩
  rw [h t (hsplit ▸ List.mem_append_right _ List.mem_cons_self)] at hfault
  exact Logged.not_first_fault_nil hfault

/-- Looking at a rule tells whether it reacts to an event. -/
theorem tells (r : Rule) (eventType : String) (data : Value) :
    (acceptsEvent (EventType.normalize eventType) data r.enabledTriggers).Tells (r.Reacts eventType data)
      (r.Faults eventType data) :=
  accepts_event_tells r.enabledTriggers eventType data

/-- Whether looking at the triggers of a rule in use finds one that reacts to an event. -/
def reacts (eventType : String) (data : Value) (r : Rule) : Bool :=
  (acceptsEvent (EventType.normalize eventType) data r.enabledTriggers).outcome.toOption.getD false

/-- A rule of which it can be told is found to react if it does. -/
theorem reacts_iff {r : Rule} {eventType : String} {data : Value} (h : ∀ f, ¬r.Faults eventType data f) :
    r.reacts eventType data = true ↔ r.Reacts eventType data := by
  obtain ⟨f, hf, _⟩ | ⟨_, ⟨hreacts, hout⟩ | ⟨hreacts, hout⟩⟩ := (r.tells eventType data).cases
  · exact absurd hf (h f)
  · rw [reacts, hout]
    exact iff_of_true rfl hreacts
  · rw [reacts, hout]
    exact iff_of_false Bool.false_ne_true hreacts

end Rule

namespace Registry

variable {eventType : String} {data : Value}

/-- What looking at one rule more finds. -/
theorem reacting_cons_ok {r : Rule} {rules : List Rule} {b : Bool}
    (h : (acceptsEvent (EventType.normalize eventType) data r.enabledTriggers).outcome = .ok b) :
    (reactingTo (EventType.normalize eventType) data (r :: rules)).outcome =
      (reactingTo (EventType.normalize eventType) data rules).outcome.map
        fun more => if b then r :: more else more := by
  rw [reactingTo, Logged.bind, h]
  dsimp only [Logged.bind]
  cases (reactingTo (EventType.normalize eventType) data rules).outcome <;> rfl

/-- Where it can be told of all rules whether they react, looking at them finds those that do. -/
theorem reacting_eq_ok_iff {rules meant : List Rule} :
    (reactingTo (EventType.normalize eventType) data rules).outcome = .ok meant ↔
      (∀ r ∈ rules, ∀ f, ¬r.Faults eventType data f) ∧ rules.filter (Rule.reacts eventType data) = meant := by
  induction rules generalizing meant with
  | nil => simp [reactingTo, pure, Logged.ofOutcome]
  | cons r rules ih =>
      have htells := r.tells eventType data
      rw [List.forall_mem_cons]
      cases hout : (acceptsEvent (EventType.normalize eventType) data r.enabledTriggers).outcome with
      | error g =>
          rw [reactingTo, Logged.bind, hout]
          exact iff_of_false nofun fun h => h.1.1 g ((htells.error_iff g).mp hout)
      | ok b =>
          have hnone : ∀ g, ¬r.Faults eventType data g := fun g hg => by
            cases hout.symm.trans ((htells.error_iff g).mpr hg)
          have hb : r.reacts eventType data = b := by rw [Rule.reacts, hout]; rfl
          rw [reacting_cons_ok hout, Outcome.map_eq_ok, List.filter_cons, hb]
          simp [ih, hnone, and_assoc]

/-! ### The index and a look at every rule -/

/-- A rule that hears nothing of a matching type is not found to react. -/
theorem accepts_event_of_unheard {triggers : List Trigger} (h : ∀ t ∈ triggers, ∀ key, t.Hears key →
    EventType.isMatch key (EventType.normalize eventType) = false) :
    acceptsEvent (EventType.normalize eventType) data triggers = pure false := by
  induction triggers with
  | nil => rfl
  | cons t triggers ih =>
      obtain ⟨ht, hrest⟩ := List.forall_mem_cons.mp h
      have hnone : t.acceptsEvent (EventType.normalize eventType) data = pure false := by
        unfold Trigger.acceptsEvent
        cases hsource : t.source with
        | event pattern =>
            have hkey := ht _ ⟨pattern, hsource, rfl⟩
            rw [EventType.is_match_normalize, ← EventType.is_match_normal] at hkey
            dsimp only
            rw [hkey]
            rfl
        | _ => rfl
      rw [acceptsEvent, hnone, Logged.bind_pure, ih hrest]
      rfl

/-- Leaving out rules that are not found to react changes nothing. -/
theorem reacting_filter {rules : List Rule} {p : Rule → Bool} (h : ∀ r ∈ rules, p r = false →
    acceptsEvent (EventType.normalize eventType) data r.enabledTriggers = pure false) :
    reactingTo (EventType.normalize eventType) data (rules.filter p) =
      reactingTo (EventType.normalize eventType) data rules := by
  induction rules with
  | nil => rfl
  | cons r rules ih =>
      obtain ⟨hr, hrest⟩ := List.forall_mem_cons.mp h
      rw [List.filter_cons]
      cases hp : p r with
      | true =>
          rw [if_pos rfl, reactingTo, reactingTo, ih hrest]
      | false =>
          rw [if_neg Bool.false_ne_true, ih hrest, reactingTo, hr hp, Logged.bind_pure]
          exact (Logged.bind_pure_right _).symm

/-- The rules that an event means are those that a look at every rule finds. -/
theorem for_event_eq_scan (acts : List Act) (eventType : String) (data : Fields) :
    (after acts).forEvent eventType data =
      reactingTo (EventType.normalize eventType) (.object data) (after acts).rules := by
  unfold forEvent candidates
  -- a rule outside the candidates hears nothing of a matching type, as the index lists all that it hears
  refine reacting_filter fun r hr hout => accepts_event_of_unheard fun t ht key hears => ?_
  rw [← Bool.not_eq_true]
  intro hmatch
  have hunlisted := mt List.contains_iff_mem.mpr (Bool.not_eq_true _ ▸ hout)
  exact hunlisted (Index.mem_listed_iff.mpr ⟨key, hmatch, listed_of_hears hr ⟨t, ht, hears⟩⟩)

end Registry

end Rulebook
