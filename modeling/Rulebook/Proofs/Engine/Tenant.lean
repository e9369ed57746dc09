import Rulebook.Api.Handler
import Rulebook.Api.Order
import Rulebook.Proofs.Engine.Named
import Rulebook.Proofs.Registry.Dispatch
import Rulebook.Proofs.Registry.Observe

/-!
# Whose rules an event executes

Every record that a call of a rule creates belongs to the rule that is in use under the identifier, and to its
tenant (`Call.creates_iff`). An event that is posted for a tenant calls all rules that it means, whichever tenant
they belong to: the tenant is only written into the circumstances. So what it makes belongs to the tenant exactly if
all rules do for which it opens a record (`Engine.posted_tenants`).
-/

namespace Rulebook

variable {σ : Type}

namespace StoreEntry

/-- The rule whose execution an entry is kept of. -/
def ruleId : StoreEntry → String
  | execution x => x.ruleId
  | row r => r.execution.ruleId

/-- The tenant of the rule whose execution an entry is kept of. -/
def tenantId : StoreEntry → String
  | execution x => x.tenantId
  | row r => r.execution.tenantId

/-- An entry belongs to the rule and the tenant that an execution belongs to. -/
structure Of (n : StoreEntry) (x : Execution) : Prop where
  rule : n.ruleId = x.ruleId
  tenant : n.tenantId = x.tenantId

variable {s : ExecutionStore} {x : Execution} {n : StoreEntry}

/-- An entry that a store makes for an execution belongs where the execution does. -/
theorem of_entry_of (h : s.entryOf x = .ok n) : n.Of x := by
  cases s with
  | memory t =>
      obtain rfl := Except.ok.inj h
      exact ⟨rfl, rfl⟩
  | sql t =>
      obtain ⟨row, hrow, rfl⟩ := Outcome.map_eq_ok.mp h
      obtain ⟨_, _, _, _, _, _, _, _, rfl⟩ := ExecutionRow.of_execution_eq_ok.mp hrow
      exact ⟨rfl, rfl⟩

/-- An entry that a store keeps of an execution that is written belongs where the execution does. -/
theorem of_kept (h : s.kept x = .ok n) : n.Of x := by
  cases s with
  | memory t =>
      obtain rfl := Except.ok.inj h
      exact ⟨rfl, rfl⟩
  | sql t =>
      obtain ⟨row, hrow, rfl⟩ := Outcome.map_eq_ok.mp h
      obtain ⟨new, hnew, hexecution, _⟩ := ExecutionStore.written_row hrow
      have hof : (StoreEntry.row new).Of x :=
        of_entry_of (s := .sql t) (Outcome.map_eq_ok.mpr ⟨new, hnew, rfl⟩)
      exact ⟨(congrArg Execution.ruleId hexecution).trans hof.rule,
        (congrArg Execution.tenantId hexecution).trans hof.tenant⟩

/-- Versions of an execution belong to the same rule and tenant. -/
theorem Of.version {y : Execution} (h : n.Of y) (horigin : y.origin = x.origin) : n.Of x where
  rule := h.rule.trans (congrArg (·.2.1) horigin)
  tenant := h.tenant.trans (congrArg (·.2.2.1) horigin)

end StoreEntry

namespace Core

variable {k : Core σ} {v : Environment σ} {now : Moment} {r : Rule} {x : Execution}
  {conditions : Except NumberFault Bool}

/-- To carry out an execution is at most to replace it by a version of it. -/
theorem launch_executions (k : Core σ) (v : Environment σ) (now : Moment) (r : Rule) (x : Execution)
    (conditions : Except NumberFault Bool) :
    (k.launch v now r x conditions).executions = k.executions ∨
      ∃ y : Execution, y.origin = x.origin ∧
        (k.launch v now r x conditions).executions = k.executions.saved y := by
  rcases conditions with f | _ | _
  · exact .inr ⟨_, (x.precedes_crashed now f).origin, rfl⟩
  · have horigin : (x.unmet now).origin = x.origin := (Execution.precedes_move_to _ now _ rfl).origin
    exact .inr ⟨_, horigin, rfl⟩
  · have horigin := v.run_actions_origin now r ⟨k.world, x, []⟩
    rw [launch]
    rcases hrun : v.runActions now r ⟨k.world, x, []⟩ with ⟨c, _ | p⟩ <;> rw [hrun] at horigin
    · exact .inr ⟨_, (c.execution.precedes_close now).origin.trans horigin, rfl⟩
    · exact .inl rfl

/-- Carrying out an execution leaves the entries of others. -/
theorem launch_entry_of_ne {id : String} (hne : id ≠ x.id) :
    (k.launch v now r x conditions).executions.entryAt id = k.executions.entryAt id := by
  obtain h | ⟨y, horigin, h⟩ := k.launch_executions v now r x conditions <;> rw [h]
  have hid : y.id = x.id := congrArg Prod.fst horigin
  exact ExecutionStore.entry_saved_of_ne (hid ▸ hne)

/-- After an execution was carried out its entry belongs where it does. -/
theorem launch_entry_self {n : StoreEntry} (hn : k.executions.entryAt x.id = some n) (hof : n.Of x) :
    ∃ m, (k.launch v now r x conditions).executions.entryAt x.id = some m ∧ m.Of x := by
  obtain h | ⟨y, horigin, h⟩ := k.launch_executions v now r x conditions <;> rw [h]
  · exact ⟨n, hn, hof⟩
  · have hid : y.id = x.id := congrArg Prod.fst horigin
    have hsaved := k.executions.entry_saved_self y
    rw [hid, hn] at hsaved
    refine ⟨_, hsaved, ?_⟩
    cases hy : k.executions.kept y with
    | error f => exact hof
    | ok m => exact (StoreEntry.of_kept hy).version horigin

end Core

/-! ### Records that calls create -/

/-- A call of a rule, with the engine as it was then. -/
structure Call (σ : Type) where
  before : Engine σ
  now : Moment
  ruleId : String
  occasion : Occasion

namespace Call

variable {v : Environment σ} {c : Call σ} {r : Rule} {id : String} {n : StoreEntry}

/-- The engine after a call. -/
def after (v : Environment σ) (c : Call σ) : Engine σ :=
  (c.before.execute v c.now c.ruleId c.occasion.data c.occasion.context (some c.occasion.triggeredBy)).1

/-- How a call began. -/
def launch (v : Environment σ) (c : Call σ) : Launch :=
  (c.before.execute v c.now c.ruleId c.occasion.data c.occasion.context (some c.occasion.triggeredBy)).2

/-- Which rule a call is of, and on what occasion. -/
def key (c : Call σ) : String × Occasion := (c.ruleId, c.occasion)

/-- The execution that a call begins with for a rule: it is opened, or refused for a reason. -/
def begun (c : Call σ) (r : Rule) : Option RateLimit → Execution
  | none => .opened r c.before.nextExecution c.now c.occasion.data c.occasion.context
    (some c.occasion.triggeredBy)
  | some reason => .refused r c.before.nextExecution c.now c.occasion.data c.occasion.context
    (some c.occasion.triggeredBy) reason

/-- A call opens a record for a rule: the rule is in use, its limits can be checked, and the store adds the execution
under a new identifier, be it refused or not. -/
structure Opens (c : Call σ) (r : Rule) : Prop where
  active : c.before.activeRule c.ruleId = .ok r
  fresh : c.before.executions.entryAt c.before.nextExecution = none
  added : ∃ reason t, RateLimit.check c.before.executions r.id r.settings c.now = .ok reason ∧
    c.before.executions.create (c.begun r reason) = .ok t

/-- A call creates a record: there was no entry of the identifier before, and there is one afterwards. -/
def Creates (v : Environment σ) (c : Call σ) (id : String) (n : StoreEntry) : Prop :=
  c.before.executions.entryAt id = none ∧ (c.after v).executions.entryAt id = some n

/-- The execution that a call begins with is the next one, of the rule and its tenant. -/
theorem begun_spec (c : Call σ) (r : Rule) (reason : Option RateLimit) :
    (c.begun r reason).id = c.before.nextExecution ∧ (c.begun r reason).ruleId = r.id ∧
      (c.begun r reason).tenantId = r.tenantId := by
  cases reason with
  | none => exact ⟨rfl, rfl, rfl⟩
  | some reason =>
      have horigin : (c.begun r (some reason)).origin = _ := (Execution.precedes_move_to _ c.now _ rfl).origin
      exact ⟨congrArg (·.1) horigin, congrArg (·.2.1) horigin, congrArg (·.2.2.1) horigin⟩

/-- A call that opens a record leaves an entry that belongs to the rule and its tenant. -/
theorem Opens.entry (v : Environment σ) (h : c.Opens r) :
    ∃ n, (c.after v).executions.entryAt c.before.nextExecution = some n ∧ n.ruleId = r.id ∧
      n.tenantId = r.tenantId := by
  obtain ⟨reason, t, hcheck, hcreate⟩ := h.added
  obtain ⟨hid, hrule, htenant⟩ := c.begun_spec r reason
  have hfresh : c.before.executions.entryAt (c.begun r reason).id = none := hid ▸ h.fresh
  obtain ⟨n, hn⟩ := ExecutionStore.entry_of_create_eq_ok hcreate
  have hcreated : (c.before.executions.created (c.begun r reason)).entryAt (c.begun r reason).id = some n := by
    rw [ExecutionStore.entry_created_self hfresh, hn]
    rfl
  suffices hentry : ∃ m, (c.after v).executions.entryAt (c.begun r reason).id = some m ∧ m.Of (c.begun r reason) by
    obtain ⟨m, hm, hof⟩ := hentry
    exact ⟨m, hid ▸ hm, hof.rule.trans hrule, hof.tenant.trans htenant⟩
  have hof := StoreEntry.of_entry_of hn
  change ∃ m, (c.after v).core.executions.entryAt _ = some m ∧ _
  cases reason with
  | none =>
      rw [after, c.before.execute_opened_core v c.now _ _ _ _ h.active hcheck hcreate]
      exact Core.launch_entry_self hcreated hof
  | some reason =>
      rw [after, c.before.execute_refused_core v c.now _ _ _ _ h.active hcheck hcreate]
      exact ⟨n, hcreated, hof⟩

/-- A call that creates a record opens the next one. -/
theorem opens_of_creates (h : c.Creates v id n) : id = c.before.nextExecution ∧ ∃ r, c.Opens r := by
  obtain ⟨hfresh, hentry⟩ := h
  change (c.after v).core.executions.entryAt id = some n at hentry
  rw [after] at hentry
  obtain ⟨_, hcore⟩ | hcore | ⟨r, reason, hrule, hcheck, hcore⟩ | ⟨r, x, t, hrule, hcheck, rfl, hcreate, hcore⟩ :=
    c.before.execute_core v c.now c.ruleId c.occasion.data c.occasion.context (some c.occasion.triggeredBy) <;>
    rw [hcore] at hentry
  · cases hfresh.symm.trans hentry
  · cases hfresh.symm.trans hentry
  · obtain ⟨rfl, t, hcreate⟩ := ExecutionStore.added_of_entry (x := c.begun r (some reason)) hfresh hentry
    have hid := (c.begun_spec r (some reason)).1
    exact ⟨hid, r, hrule, hid ▸ hfresh, some reason, t, hcheck, hcreate⟩
  · -- entries under other identifiers than the next one were there before the call
    have hlaunched : id = (c.begun r none).id := by
      by_contra hne
      have hcreated := ExecutionStore.entry_created_of_ne (s := c.before.executions) hne
      cases (hfresh.symm.trans hcreated.symm).trans ((Core.launch_entry_of_ne hne).symm.trans hentry)
    subst hlaunched
    exact ⟨rfl, r, hrule, hfresh, none, t, hcheck, hcreate⟩

/-- A call creates a record exactly if it opens one; this is the next one and belongs to the rule and its tenant. -/
theorem creates_iff (v : Environment σ) (c : Call σ) (id : String) (n : StoreEntry) : c.Creates v id n ↔
    ∃ r, c.Opens r ∧ id = c.before.nextExecution ∧ (c.after v).executions.entryAt id = some n ∧
      n.ruleId = r.id ∧ n.tenantId = r.tenantId := by
  constructor
  · intro h
    obtain ⟨rfl, r, hr⟩ := opens_of_creates h
    obtain ⟨m, hm, hrule, htenant⟩ := hr.entry v
    obtain rfl := Option.some.inj (hm.symm.trans h.2)
    exact ⟨r, hr, rfl, hm, hrule, htenant⟩
  · rintro ⟨r, hr, rfl, hn, _⟩
    exact ⟨hr.fresh, hn⟩

/-- A call takes an execution: its rule is in use, and the execution is the next one. -/
def Takes (c : Call σ) (id : String) : Prop :=
  (∃ r, c.before.activeRule c.ruleId = .ok r) ∧ id = c.before.nextExecution

/-- An execution that is under way after a call is the one that the call takes. -/
theorem takes_of_underway (h : c.launch v = .underway id) : c.Takes id := by
  obtain ⟨f, _, _, hlaunch⟩ | ⟨hrule, hnames⟩ := c.before.execute_names v c.now c.ruleId c.occasion.data
    c.occasion.context (some c.occasion.triggeredBy)
  · cases h.symm.trans hlaunch
  · rw [launch] at h
    rw [h] at hnames
    exact ⟨hrule, hnames⟩

/-- An execution that is told of after a call has ended is the one that the call takes. -/
theorem takes_of_ended {result : Outcome String} (h : c.launch v = .ended result) (ruleId triggeredBy : String) :
    ∀ id ∈ (Host.tally ruleId triggeredBy result).1, c.Takes id := by
  obtain ⟨f, _, hf, hlaunch⟩ | ⟨hrule, hnames⟩ := c.before.execute_names v c.now c.ruleId c.occasion.data
    c.occasion.context (some c.occasion.triggeredBy)
  · cases h.symm.trans hlaunch
    rw [Outcome.tally_of_other hf]
    exact nofun
  · rw [launch] at h
    rw [h] at hnames
    exact fun id hid => ⟨hrule, hnames.tally ruleId triggeredBy id hid⟩

end Call

/-! ### The calls of an event -/

/-- The executions that a dispatch names so far. -/
def Progress.ids : Progress → List String
  | finished ids => ids
  | waits _ _ e => e.ids

/-- An alarm that rings, with the engine as it is by then. -/
structure Rung (σ : Type) where
  engine : Engine σ
  now : Moment
  timer : Timer

namespace Engine

variable {v : Environment σ} {now : Moment}

/-- The host of an engine that also writes down the calls. -/
def calling (v : Environment σ) (now : Moment) : Host (Engine σ × List (Call σ)) :=
  (host v now).observed (fun e ruleId o => [⟨e, now, ruleId, o⟩]) fun _ _ => []

/-- How far a dispatch gets when alarms ring; it goes on when the execution that it waits for ends. -/
def proceed (v : Environment σ) : List (Rung σ) → (Engine σ × List (Call σ)) × Progress →
    (Engine σ × List (Call σ)) × Progress
  | rung :: rest, (s, .waits id r errand) =>
    match rung.engine.ring v rung.now rung.timer with
    | (e, some (about, result)) =>
      if about = id then proceed v rest ((calling v rung.now).resume r result errand (e, s.2))
      else proceed v rest (s, .waits id r errand)
    | (_, none) => proceed v rest (s, .waits id r errand)
  | _, p => p

/-- The calls that an event makes while alarms ring, and how far it gets. -/
def post (v : Environment σ) (now : Moment) (e : Engine σ) (report : EventReport) (rungs : List (Rung σ)) :
    List (Call σ) × Outcome Progress :=
  match (calling v now).event report.eventType report.data report.context (e, []) with
  | (s, .ok p) =>
    let (s, p) := proceed v rungs (s, p)
    (s.2, .ok p)
  | (s, .error f) => (s.2, .error f)

/-- Until an alarm rings, an event gets as far as the order to post it. -/
theorem post_nil (v : Environment σ) (now : Moment) (e : Engine σ) (report : EventReport) :
    (e.perform ((Order.event report).start v now)).2 = (e.post v now report []).2.map .dispatched := by
  have hevent := ((host v now).shows_of_observed (fun e ruleId o => [(⟨e, now, ruleId, o⟩ : Call σ)])
    fun _ _ => []).event report.eventType report.data report.context (e, [])
  rw [Order.start, perform_bind, perform_get, post, calling]
  dsimp only at hevent ⊢
  rw [hevent]
  rcases (((host v now).observed (fun e ruleId o => [(⟨e, now, ruleId, o⟩ : Call σ)]) fun _ _ => []).event
    report.eventType report.data report.context (e, [])) with ⟨s, f | p⟩ <;> rfl

/-- What is kept whenever a dispatch goes on is kept when alarms ring. -/
theorem proceed_keeps {good : List (Call σ) → Progress → Prop}
    (hresume : ∀ log id r errand now' e result, good log (.waits id r errand) → result.Names id →
      good ((calling v now').resume r result errand (e, log)).1.2
        ((calling v now').resume r result errand (e, log)).2)
    (rungs : List (Rung σ)) {s : Engine σ × List (Call σ)} {p : Progress} (h : good s.2 p) :
    good (proceed v rungs (s, p)).1.2 (proceed v rungs (s, p)).2 := by
  induction rungs generalizing s p with
  | nil => exact h
  | cons rung rungs ih =>
      cases p with
      | finished ids => exact h
      | waits id r errand =>
          rw [proceed]
          rcases hring : rung.engine.ring v rung.now rung.timer with ⟨e, _ | ⟨about, result⟩⟩
          · exact ih h
          · dsimp only
            split
            next habout =>
              subst habout
              exact ih (hresume s.2 about r errand rung.now e result h
                (ring_names v rung.now rung.engine rung.timer (congrArg Prod.snd hring)))
            next => exact ih h

/-- The host that writes down the calls does what the host does that writes down what is executed. -/
theorem calling_shows (v : Environment σ) (now : Moment) :
    (calling v now).Shows (fun s => (s.1, s.2.map Call.key)) (host v now).recorded where
  registry _ := rfl
  note _ _ := rfl
  execute s ruleId o := by
    refine Prod.ext (Prod.ext rfl ?_) rfl
    change s.2.map Call.key ++ [_] = (s.2 ++ [_]).map Call.key
    rw [List.map_append]
    rfl

/-- The calls that a dispatch made are the first ones of those that it is to make. -/
theorem calling_serve_leaves (v : Environment σ) (now : Moment) (o : Occasion) (rules : List Rule)
    (s : Engine σ × List (Call σ)) (ids : List String) :
    ((calling v now).serve o [] rules s ids).2.Leaves (((calling v now).serve o [] rules s ids).1.2.map Call.key)
      (s.2.map Call.key ++ Host.callsFor o rules) := by
  have hleaves := ((host v now).serve_leaves o rules (s.1, s.2.map Call.key) ids).1
  rw [(calling_shows v now).serve o [] rules s ids] at hleaves
  exact hleaves

/-- The executions that a dispatch names are those of its calls. -/
structure Named (log : List (Call σ)) (p : Progress) : Prop where
  ids : ∀ id ∈ p.ids, ∃ c ∈ log, c.Takes id
  awaited : ∀ id r e, p = .waits id r e → ∃ c ∈ log, c.Takes id

/-- They are so as far as rules are executed without waiting. -/
theorem calling_serve_named (v : Environment σ) (now : Moment) (o : Occasion) (rules : List Rule)
    (s : Engine σ × List (Call σ)) (ids : List String) (hids : ∀ id ∈ ids, ∃ c ∈ s.2, c.Takes id) :
    Named ((calling v now).serve o [] rules s ids).1.2 ((calling v now).serve o [] rules s ids).2 := by
  induction rules generalizing s ids with
  | nil => exact ⟨hids, fun _ _ _ h => nomatch h⟩
  | cons r rules ih =>
      rw [Host.serve]
      cases r.isActive with
      | false => exact ih s ids hids
      | true =>
          let c : Call σ := ⟨s.1, now, r.id, o⟩
          have hexecute : (calling v now).execute s r.id o = ((c.after v, s.2 ++ [c]), c.launch v) := rfl
          have hlog : ∀ id ∈ ids, ∃ d ∈ s.2 ++ [c], d.Takes id := fun id hid =>
            (hids id hid).imp fun d h => ⟨List.mem_append_left _ h.1, h.2⟩
          have hlast : c ∈ s.2 ++ [c] := List.mem_append_right _ (List.mem_singleton_self c)
          rw [if_pos rfl, hexecute]
          cases hlaunch : c.launch v with
          | underway id =>
              refine ⟨hlog, ?_⟩
              rintro _ _ _ ⟨⟩
              exact ⟨c, hlast, Call.takes_of_underway hlaunch⟩
          | ended result =>
              refine ih _ _ fun id hid => ?_
              obtain hid | hid := List.mem_append.mp hid
              · exact hlog id hid
              · exact ⟨c, hlast, Call.takes_of_ended hlaunch _ _ id hid⟩

/-- What is kept of a dispatch of an event: its calls are the first ones of those that it is to make, and the
executions that it names are those of its calls. -/
def Accounts (all : Calls) (log : List (Call σ)) (p : Progress) : Prop :=
  p.Leaves (log.map Call.key) all ∧ Named log p

/-- It is kept when a dispatch goes on. -/
theorem resume_accounts (v : Environment σ) (now : Moment) {all : Calls} {log : List (Call σ)} {id : String}
    {r : Rule} {errand : Errand} (e : Engine σ) {result : Outcome String}
    (h : Accounts all log (.waits id r errand)) (hresult : result.Names id) :
    Accounts all ((calling v now).resume r result errand (e, log)).1.2
      ((calling v now).resume r result errand (e, log)).2 := by
  obtain ⟨⟨hsplit, hjobless⟩, hnamed⟩ := h
  rw [Host.resume_of_jobless _ _ _ (hjobless id r errand rfl)]
  constructor
  · rw [← hsplit]
    exact calling_serve_leaves v now errand.occasion errand.rules _ _
  · refine calling_serve_named v now errand.occasion errand.rules _ _ fun other hother => ?_
    obtain hother | hother := List.mem_append.mp hother
    · exact hnamed.ids other hother
    · obtain rfl := hresult.tally _ _ other hother
      exact hnamed.awaited other r errand rfl

/-- A posted event cannot be told of the registered rules, or it calls those in use that it means, those of higher
priority first, as far as it gets; the executions that it names are those of its calls. -/
theorem post_cases (v : Environment σ) (now : Moment) (e : Engine σ) (report : EventReport)
    (rungs : List (Rung σ)) :
    (∃ f, (e.registry.forEvent report.eventType report.data).outcome = .error f ∧
        e.post v now report rungs = ([], .error f)) ∨
      ∃ rules calls p, (e.registry.forEvent report.eventType report.data).outcome = .ok rules ∧
        e.post v now report rungs = (calls, .ok p) ∧
        Accounts (Host.callsFor (.ofEvent report.eventType report.data report.context) (Host.byPriority rules))
          calls p := by
  have hregistry : (calling v now).registry (e, []) = e.registry := rfl
  cases hmeant : (e.registry.forEvent report.eventType report.data).outcome with
  | error f =>
      refine .inl ⟨f, rfl, ?_⟩
      rw [post, Host.event, hregistry, hmeant]
      rfl
  | ok rules =>
      have hstart : Accounts (Host.callsFor (.ofEvent report.eventType report.data report.context)
          (Host.byPriority rules)) _ _ :=
        ⟨calling_serve_leaves v now (.ofEvent report.eventType report.data report.context) (Host.byPriority rules)
          ((calling v now).note (e, []) (e.registry.forEvent report.eventType report.data).notes) [],
        calling_serve_named v now _ _ _ [] (List.forall_mem_nil _)⟩
      refine .inr ⟨rules, _, _, rfl, ?_,
        proceed_keeps (fun log id r errand now' e' result h => resume_accounts v now' e' h) rungs hstart⟩
      rw [post, Host.event, hregistry, hmeant]
      rfl

/-- An event that is posted for a tenant calls the rules in use that it means, those of higher priority first, as far
as it gets, whichever tenants they belong to: the tenant of the event is only written into the circumstances. A
record that is created then is one that a call opens, and it belongs to the rule in use under the identifier that is
called, and to its tenant; an execution that is named then is one that a call takes for a rule in use. So all
records that are created belong to the tenant of the event exactly if all rules do for which calls open records. -/
theorem posted_tenants (v : Environment σ) (now : Moment) (e : Engine σ) (tenantId : String) (report : EventReport)
    (rungs : List (Rung σ)) :
    ∃ calls result, e.post v now (ApiRequest.eventOf tenantId report) rungs = (calls, result) ∧
      ((∃ f, (e.registry.forEvent report.eventType report.data).outcome = .error f ∧ calls = [] ∧
          result = .error f) ∨
        ∃ rules p, (e.registry.forEvent report.eventType report.data).outcome = .ok rules ∧ result = .ok p ∧
          calls.map Call.key ++ p.due = Host.callsFor
            (.ofEvent report.eventType report.data (ApiRequest.eventOf tenantId report).context)
            (Host.byPriority rules)) ∧
      (∀ c ∈ calls, ∀ id n, c.Creates v id n →
        ∃ r, c.Opens r ∧ id = c.before.nextExecution ∧ n.ruleId = r.id ∧ n.tenantId = r.tenantId) ∧
      (∀ ids, result = .ok (.finished ids) → ∀ id ∈ ids, ∃ c ∈ calls, c.Takes id) ∧
      ((∀ c ∈ calls, ∀ id n, c.Creates v id n → n.tenantId = tenantId) ↔
        ∀ c ∈ calls, ∀ r, c.Opens r → r.tenantId = tenantId) := by
  have hrecords : ∀ (c : Call σ) id n, c.Creates v id n →
      ∃ r, c.Opens r ∧ id = c.before.nextExecution ∧ n.ruleId = r.id ∧ n.tenantId = r.tenantId := by
    intro c id n hcreates
    obtain ⟨r, hr, hid, _, howner⟩ := (c.creates_iff v id n).mp hcreates
    exact ⟨r, hr, hid, howner⟩
  have htenants : ∀ calls : List (Call σ), (∀ c ∈ calls, ∀ id n, c.Creates v id n → n.tenantId = tenantId) ↔
      ∀ c ∈ calls, ∀ r, c.Opens r → r.tenantId = tenantId := by
    refine fun calls => forall₂_congr fun c _ => ⟨fun h r hr => ?_, fun h id n hcreates => ?_⟩
    · obtain ⟨n, hn, _, htenant⟩ := hr.entry v
      exact htenant.symm.trans (h _ n ⟨hr.fresh, hn⟩)
    · obtain ⟨r, hr, _, _, htenant⟩ := hrecords c id n hcreates
      exact htenant.trans (h r hr)
  obtain ⟨f, hf, hpost⟩ | ⟨rules, calls, p, hrules, hpost, hleaves, hnamed⟩ :=
    e.post_cases v now (ApiRequest.eventOf tenantId report) rungs
  · exact ⟨[], .error f, hpost, .inl ⟨f, hf, rfl, rfl⟩, fun c _ => hrecords c, nofun, htenants []⟩
  · refine ⟨calls, .ok p, hpost, .inr ⟨rules, p, hrules, rfl, hleaves.split⟩, fun c _ => hrecords c, ?_,
      htenants calls⟩
    rintro ids ⟨⟩
    exact hnamed.ids

/-- A rule is executed for an event that another tenant posts. -/
example :
    let d : RuleDraft := { (Rule.plain "" []).toRuleDraft with
      triggers := [⟨"trigger", "", true, [], .event "x"⟩], tenantId := "one" }
    let e := ((start (.memory .empty) (.memory .empty) []).perform (createRule .scripted (.utc 0) d)).1
    let posted := e.post .scripted (.utc 0) (ApiRequest.eventOf "another" ⟨"x", [], .empty⟩) []
    posted.2.toOption.map Progress.ids = some ["exec_0001"] ∧ posted.1.map (fun c =>
      ((c.after .scripted).executions.entryAt "exec_0001").map StoreEntry.tenantId) = [some "one"] := by
  decide +kernel

end Engine

end Rulebook
