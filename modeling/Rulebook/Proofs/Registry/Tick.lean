import Rulebook.Proofs.Engine.Act
import Rulebook.Proofs.Registry.Dispatch
import Rulebook.Proofs.Registry.Observe
import Rulebook.Proofs.Registry.Owner

/-!
# What due jobs start

The jobs that are due are told once; then they take their turns, and between the turns, and while a condition is
polled, anything may be done to the registry. `Host.watchTick` tells what is seen meanwhile. What each turn of a due
job keeps of that is kept by all of them with whatever replies (`Host.fire_keeps`, `Host.proceed_keeps`): so what is
started is justified (`Host.AllJustified`). A job of a schedule is started if, when its turn comes, its rule is
registered and in use (`Host.proceed_serves`); that it has been taken away or replaced since is not noticed.
-/

namespace Rulebook

/-- What is seen of a host at work, with its state at that moment. -/
inductive Seen (σ : Type) where
  /-- The condition of a rule is polled. -/
  | polled (state : σ) (rule : Rule)
  /-- The execution of a rule is started. -/
  | started (state : σ) (ruleId : String) (occasion : Occasion)

namespace Host

variable {σ : Type}

/-- The host that also tells what is seen of it. -/
def watched (h : Host σ) : Host (σ × List (Seen σ)) :=
  h.observed (fun s ruleId o => [.started s ruleId o]) fun s r => [.polled s r]

/-- How far due jobs get with replies. -/
def proceed : List (Reply σ) → (σ × List (Seen σ)) × Progress → (σ × List (Seen σ)) × Progress
  | reply :: rest, (s, .waits _ r errand) =>
    proceed rest (reply.host.watched.resume r reply.result errand (reply.state, s.2))
  | _, p => p

/-- What is seen when the jobs that are due are fired, and how far they get with replies. -/
def watchTick (h : Host σ) (now : Moment) (s : σ) (replies : List (Reply σ)) :
    List (Seen σ) × Outcome Progress :=
  match h.watched.tick now (s, []) with
  | (s, .ok p) =>
    let (s, p) := proceed replies (s, p)
    (s.2, .ok p)
  | (s, .error f) => (s.2, .error f)

/-- A host has its registry in its state, where only what is done to the scheduler changes it. -/
structure Lawful (h : Host σ) (registry : σ → Registry) : Prop where
  shows : ∀ s, h.registry s = registry s
  note : ∀ s notes, registry (h.note s notes) = registry s
  schedule : ∀ s jobs, registry (h.schedule s jobs) = { registry s with scheduler := jobs }

/-- What a host does keeps something. -/
structure Keeps (h : Host σ) (holds : σ → Prop) : Prop where
  note : ∀ s notes, holds s → holds (h.note s notes)
  execute : ∀ s ruleId o, holds s → holds (h.execute s ruleId o).1
  source : ∀ reading ∈ h.source, ∀ s r, holds s → holds (reading s r).1

/-- What can be seen when a due job takes its turn. -/
inductive Turn (registry : σ → Registry) (j : Job) (s : σ) : List (Seen σ) → Prop where
  /-- Its rule is not registered. -/
  | absent : (registry s).rule? j.ruleId = none → Turn registry j s []
  /-- It has a schedule, and its rule is not in use. -/
  | inactive {r : Rule} : j.kind ≠ "condition" → (registry s).rule? j.ruleId = some r → r.isActive = false →
      Turn registry j s []
  /-- It has a schedule. -/
  | scheduled {r : Rule} {x : σ} : j.kind ≠ "condition" → (registry s).rule? j.ruleId = some r →
      r.isActive = true → registry x = registry s →
      Turn registry j s [.started x r.id (.ofJob "schedule" j.triggerId [])]
  /-- It polls, and its rule has no such condition. -/
  | unpolled : j.kind = "condition" → Turn registry j s []
  /-- It polls, and nothing comes of that. -/
  | polled {r : Rule} : j.kind = "condition" → Turn registry j s [.polled s r]
  /-- It polls a condition of its rule, which holds. -/
  | held {r : Rule} {p : Polling} {x : σ} {data : Fields} : j.kind = "condition" →
      (registry s).rule? j.ruleId = some r → polling? r j.triggerId = some p → r.isActive = true →
      Turn registry j s [.polled s r, .started x r.id (.ofJob "condition" j.triggerId data)]

variable {h : Host σ} {registry : σ → Registry} {j : Job} {r : Rule} {o : Occasion} {rest : List Job}
  {s : σ × List (Seen σ)} {ids : List String}

/-- One rule in use is started, upon which the others go on or it has to be waited for. -/
theorem serve_one (h : Host σ) (o : Occasion) (rest : List Job) (s : σ × List (Seen σ)) (ids : List String)
    (hactive : r.isActive = true) :
    ∃ s', s'.2 = s.2 ++ [.started s.1 r.id o] ∧ (∀ holds, h.Keeps holds → holds s.1 → holds s'.1) ∧
      ((∃ ids', h.watched.serve o rest [r] s ids = (s', .finished ids')) ∨
        ∃ id, h.watched.serve o rest [r] s ids = (s', .waits id r ⟨[], o, rest, ids⟩)) := by
  rw [serve, if_pos hactive]
  have hlaunch : h.watched.execute s r.id o =
      (((h.execute s.1 r.id o).1, s.2 ++ [.started s.1 r.id o]), (h.execute s.1 r.id o).2) := rfl
  rw [hlaunch]
  cases (h.execute s.1 r.id o).2 with
  | underway id => exact ⟨_, rfl, fun holds hkeeps hs => hkeeps.execute _ _ _ hs, .inr ⟨id, rfl⟩⟩
  | ended result =>
      exact ⟨_, rfl, fun holds hkeeps hs => hkeeps.note _ _ (hkeeps.execute _ _ _ hs), .inl ⟨_, rfl⟩⟩

/-- One rule that is not in use is passed over. -/
theorem serve_inactive (hactive : r.isActive = false) :
    h.watched.serve o rest [r] s ids = (s, .finished ids) := by
  rw [serve, hactive]
  rfl

/-- The reading that a watched host takes is told. -/
theorem watched_reading {reading : σ → Rule → σ × Outcome (Option Fields)} (h : Host σ)
    (hsource : h.source = some reading) :
    h.watched.source = some fun s r => (((reading s.1 r).1, s.2 ++ [.polled s.1 r]), (reading s.1 r).2) := by
  rw [watched, observed]
  dsimp only
  rw [hsource]
  rfl

/-- Polling is seen only if the rule has the condition, and an occasion comes only of that. -/
theorem occasion_of_condition (h : Host σ) (r : Rule) (s : σ × List (Seen σ)) (hkind : j.kind = "condition") :
    (∃ o, h.watched.occasion j r s = (s, o) ∧ o.outcome = .ok none) ∨
      ∃ x o p, h.watched.occasion j r s = ((x, s.2 ++ [.polled s.1 r]), o) ∧
        polling? r j.triggerId = some p ∧ (∀ holds, h.Keeps holds → holds s.1 → holds x) ∧
        ∀ q, o.outcome = .ok (some q) → ∃ data, q = .ofJob "condition" j.triggerId data := by
  have hoccasion : h.watched.occasion j r s = ((h.watched.poll r j.triggerId s).1,
      (h.watched.poll r j.triggerId s).2.bind fun data =>
        pure (data.map (Occasion.ofJob "condition" j.triggerId))) := by
    rw [occasion, if_pos hkind]
  have hmade : ∀ (x : Logged (Option Fields)) q, (x.bind fun data =>
      (pure (data.map (Occasion.ofJob "condition" j.triggerId)) : Logged (Option Occasion))).outcome =
        .ok (some q) → ∃ data, q = .ofJob "condition" j.triggerId data := by
    rintro ⟨f | _ | data, notes⟩ q hq <;> cases hq
    exact ⟨data, rfl⟩
  rw [hoccasion, poll]
  cases hp : polling? r j.triggerId with
  | none => exact .inl ⟨_, rfl, rfl⟩
  | some p =>
      cases hsource : h.source with
      | none =>
          have hnone : h.watched.source = none := by
            rw [watched, observed]
            dsimp only
            rw [hsource]
            rfl
          rw [hnone]
          exact .inl ⟨_, rfl, rfl⟩
      | some reading =>
          rw [watched_reading h hsource]
          refine .inr ⟨(reading s.1 r).1, _, p, Prod.ext ?_ rfl, rfl,
            fun holds hkeeps hs => hkeeps.source reading hsource _ _ hs, hmade _⟩
          dsimp only
          rcases (reading s.1 r).2 with f | _ | data <;> rfl

/-- A due job takes its turn, upon which the others take theirs or an execution has to be waited for. -/
theorem fire_cons (hlaw : h.Lawful registry) (j : Job) (rest : List Job) (s : σ × List (Seen σ))
    (ids : List String) :
    ∃ more s', s'.2 = s.2 ++ more ∧ Turn registry j s.1 more ∧
      (∀ holds, h.Keeps holds → holds s.1 → holds s'.1) ∧
      ((∃ ids', h.watched.fire (j :: rest) s ids = h.watched.fire rest s' ids') ∨
        ∃ id r o, h.watched.fire (j :: rest) s ids = (s', .waits id r ⟨[], o, rest, ids⟩)) := by
  have hregistry : h.watched.registry s = registry s.1 := hlaw.shows s.1
  rw [fire, hregistry]
  cases hr : (registry s.1).rule? j.ruleId with
  | none => exact ⟨[], s, (List.append_nil _).symm, .absent hr, fun _ _ hs => hs, .inl ⟨ids, rfl⟩⟩
  | some r =>
      dsimp only
      by_cases hkind : j.kind = "condition"
      · obtain ⟨o, hoccasion, hnone⟩ | ⟨x, o, p, hoccasion, hp, hkeeps, hmade⟩ :=
          occasion_of_condition h r s hkind
        · rw [hoccasion]
          dsimp only
          rw [hnone]
          exact ⟨[], h.watched.note s o.notes, (List.append_nil _).symm, .unpolled hkind,
            fun holds hkeeps hs => hkeeps.note _ _ hs, .inl ⟨ids, rfl⟩⟩
        · rw [hoccasion]
          dsimp only
          rcases hout : o.outcome with f | _ | q
          · exact ⟨[.polled s.1 r], h.watched.note (h.watched.note (x, s.2 ++ [.polled s.1 r]) o.notes) _, rfl,
              .polled hkind, fun holds hkeeps' hs => hkeeps'.note _ _ (hkeeps'.note _ _ (hkeeps holds hkeeps' hs)),
              .inl ⟨ids, rfl⟩⟩
          · exact ⟨[.polled s.1 r], h.watched.note (x, s.2 ++ [.polled s.1 r]) o.notes, rfl, .polled hkind,
              fun holds hkeeps' hs => hkeeps'.note _ _ (hkeeps holds hkeeps' hs), .inl ⟨ids, rfl⟩⟩
          · obtain ⟨data, rfl⟩ := hmade q hout
            dsimp only
            cases hactive : r.isActive with
            | false =>
                rw [serve_inactive hactive]
                exact ⟨[.polled s.1 r], h.watched.note (x, s.2 ++ [.polled s.1 r]) o.notes, rfl, .polled hkind,
                  fun holds hkeeps' hs => hkeeps'.note _ _ (hkeeps holds hkeeps' hs), .inl ⟨ids, rfl⟩⟩
            | true =>
                obtain ⟨s', hseen, hkeeps_serve, hserve⟩ := serve_one h (.ofJob "condition" j.triggerId data) rest
                  (h.watched.note (x, s.2 ++ [.polled s.1 r]) o.notes) ids hactive
                refine ⟨_, s', hseen.trans (List.append_assoc ..), .held hkind hr hp hactive,
                  fun holds hkeeps' hs =>
                    hkeeps_serve holds hkeeps' (hkeeps'.note _ _ (hkeeps holds hkeeps' hs)), ?_⟩
                obtain ⟨ids', hserve⟩ | ⟨id, hserve⟩ := hserve <;> rw [hserve]
                · exact .inl ⟨ids', rfl⟩
                · exact .inr ⟨id, r, _, rfl⟩
      · have hoccasion : h.watched.occasion j r s = (s, pure (some (.ofJob "schedule" j.triggerId []))) := by
          rw [occasion, if_neg hkind]
        rw [hoccasion]
        dsimp only [pure, Logged.ofOutcome]
        cases hactive : r.isActive with
        | false =>
            rw [serve_inactive hactive]
            exact ⟨[], h.watched.note s [], (List.append_nil _).symm, .inactive hkind hr hactive,
              fun holds hkeeps hs => hkeeps.note _ _ hs, .inl ⟨ids, rfl⟩⟩
        | true =>
            obtain ⟨s', hseen, hkeeps, hserve⟩ := serve_one h (.ofJob "schedule" j.triggerId []) rest
              (h.watched.note s []) ids hactive
            refine ⟨_, s', hseen, .scheduled hkind hr hactive (hlaw.note _ _),
              fun holds hkeeps' hs => hkeeps holds hkeeps' (hkeeps'.note _ _ hs), ?_⟩
            obtain ⟨ids', hserve⟩ | ⟨id, hserve⟩ := hserve <;> rw [hserve]
            · exact .inl ⟨ids', rfl⟩
            · exact .inr ⟨id, r, _, rfl⟩

/-! ### Turns of all due jobs -/

/-- What remains after a wait are due jobs only. -/
def Owes (due : List Job) (p : Progress) : Prop :=
  ∀ id r e, p = .waits id r e → e.rules = [] ∧ e.jobs ⊆ due

variable {due : List Job}

/-- What is kept by each turn of a due job is kept while the due jobs are fired. -/
theorem fire_keeps {good : List (Seen σ) → Prop} (hlaw : h.Lawful registry)
    (hturn : ∀ j ∈ due, ∀ x log more, Turn registry j x more → good log → good (log ++ more))
    {jobs : List Job} (hjobs : jobs ⊆ due) (s : σ × List (Seen σ)) (ids : List String) (hs : good s.2) :
    good (h.watched.fire jobs s ids).1.2 ∧ Owes due (h.watched.fire jobs s ids).2 := by
  induction jobs generalizing s ids with
  | nil =>
      refine ⟨hs, fun _ _ _ h => ?_⟩
      cases h
  | cons j jobs ih =>
      obtain ⟨hj, hrest⟩ := List.cons_subset.mp hjobs
      obtain ⟨more, s', hseen, htakes, _, ⟨ids', heq⟩ | ⟨id, r, o, heq⟩⟩ := fire_cons hlaw j jobs s ids
      · rw [heq]
        exact ih hrest s' ids' (hseen ▸ hturn j hj _ _ _ htakes hs)
      · rw [heq]
        refine ⟨hseen ▸ hturn j hj _ _ _ htakes hs, ?_⟩
        rintro _ _ e ⟨⟩
        exact ⟨rfl, hrest⟩

/-- An errand that has only jobs left goes on with these. -/
theorem resume_of_ruleless (h : Host σ) (r : Rule) (result : Outcome String) {e : Errand} (hrules : e.rules = [])
    (s : σ) : h.resume r result e s = h.fire e.jobs
      (h.note s (tally r.id e.occasion.triggeredBy result).2)
      (e.ids ++ (tally r.id e.occasion.triggeredBy result).1) := by
  rw [resume, hrules]
  rfl

/-- What is kept by each turn of a due job is kept with replies. -/
theorem proceed_keeps {good : List (Seen σ) → Prop}
    (hturn : ∀ j ∈ due, ∀ x log more, Turn registry j x more → good log → good (log ++ more))
    {replies : List (Reply σ)} (hreplies : ∀ reply ∈ replies, reply.host.Lawful registry)
    {s : σ × List (Seen σ)} {p : Progress} (hs : good s.2) (howes : Owes due p) :
    good (proceed replies (s, p)).1.2 := by
  induction replies generalizing s p with
  | nil => exact hs
  | cons reply replies ih =>
      obtain ⟨hreply, hrest⟩ := List.forall_mem_cons.mp hreplies
      cases p with
      | finished ids => exact hs
      | waits id r e =>
          obtain ⟨hrules, hjobs⟩ := howes id r e rfl
          rw [proceed, resume_of_ruleless _ _ _ hrules]
          obtain ⟨hgood, howes⟩ :=
            fire_keeps hreply hturn hjobs (reply.host.watched.note (reply.state, s.2) _) _ hs
          exact ih hrest hgood howes

/-! ### Jobs whose rules stay in use -/

/-- The rule of an identifier is registered and in use. -/
def InUse (registry : σ → Registry) (ruleId : String) (s : σ) : Prop :=
  ∃ r, (registry s).rule? ruleId = some r ∧ r.isActive = true

/-- A job of a schedule was started, or its turn comes after the wait. -/
def Serves (j : Job) (result : (σ × List (Seen σ)) × Progress) : Prop :=
  (∃ x, .started x j.ruleId (.ofJob "schedule" j.triggerId []) ∈ result.1.2) ∨
    ∃ id r e, result.2 = .waits id r e ∧ j ∈ e.jobs

/-- What was seen remains when more is seen. -/
theorem mem_of_turn {seen : Seen σ} : ∀ j ∈ due, ∀ x log more, Turn registry j x more → seen ∈ log →
    seen ∈ log ++ more :=
  fun _ _ _ _ _ _ hseen => List.mem_append_left _ hseen

/-- A job of a schedule whose rule is registered and in use is started when its turn comes. -/
theorem started_of_turn {more : List (Seen σ)} {x : σ} (htakes : Turn registry j x more)
    (hkind : j.kind ≠ "condition") (hx : InUse registry j.ruleId x) :
    ∃ y, .started y j.ruleId (.ofJob "schedule" j.triggerId []) ∈ more := by
  obtain ⟨q, hq, hactive⟩ := hx
  cases htakes with
  | absent hr => cases hq.symm.trans hr
  | inactive _ hr hinactive =>
      cases hq.symm.trans hr
      cases hactive.symm.trans hinactive
  | @scheduled r y _ hr _ _ =>
      exact ⟨y, Registry.id_of_rule hr ▸ List.mem_singleton_self _⟩
  | unpolled h | polled h | held h => exact absurd h hkind

/-- A due job of a schedule whose rule stays in use is served. -/
theorem fire_serves (hlaw : h.Lawful registry) (hkind : j.kind ≠ "condition")
    (hkeeps : h.Keeps (InUse registry j.ruleId)) {jobs : List Job} (hj : j ∈ jobs) (s : σ × List (Seen σ))
    (ids : List String) (hs : InUse registry j.ruleId s.1) : Serves j (h.watched.fire jobs s ids) := by
  induction jobs generalizing s ids with
  | nil => cases hj
  | cons i jobs ih =>
      obtain ⟨more, s', hseen, htakes, hkept, hon⟩ := fire_cons hlaw i jobs s ids
      obtain rfl | hj := List.mem_cons.mp hj
      · obtain ⟨x, hx⟩ := started_of_turn htakes hkind hs
        have hx : .started x j.ruleId (.ofJob "schedule" j.triggerId []) ∈ s'.2 :=
          hseen ▸ List.mem_append_right _ hx
        refine .inl ⟨x, ?_⟩
        obtain ⟨ids', heq⟩ | ⟨id, r, o, heq⟩ := hon <;> rw [heq]
        · exact (fire_keeps hlaw mem_of_turn (List.Subset.refl jobs) s' ids' hx).1
        · exact hx
      · obtain ⟨ids', heq⟩ | ⟨id, r, o, heq⟩ := hon <;> rw [heq]
        · exact ih hj s' ids' (hkept _ hkeeps hs)
        · exact .inr ⟨id, r, _, rfl, hj⟩

/-- A due job of a schedule whose rule stays in use is served with replies. -/
theorem proceed_serves (hkind : j.kind ≠ "condition") {replies : List (Reply σ)}
    (hreplies : ∀ reply ∈ replies, reply.host.Lawful registry)
    (hstays : ∀ reply ∈ replies, reply.host.Keeps (InUse registry j.ruleId) ∧ InUse registry j.ruleId reply.state)
    {s : σ × List (Seen σ)} {p : Progress} (hserves : Serves j (s, p)) (howes : Owes due p) :
    Serves j (proceed replies (s, p)) := by
  induction replies generalizing s p with
  | nil => exact hserves
  | cons reply replies ih =>
      obtain ⟨hreply, hrest⟩ := List.forall_mem_cons.mp hreplies
      obtain ⟨⟨hkeeps, hstate⟩, hstays_rest⟩ := List.forall_mem_cons.mp hstays
      obtain ⟨x, hx⟩ | ⟨id, r, e, rfl, hj⟩ := hserves
      · exact .inl ⟨x, proceed_keeps mem_of_turn hreplies hx howes⟩
      · obtain ⟨hrules, hjobs⟩ := howes id r e rfl
        rw [proceed, resume_of_ruleless _ _ _ hrules]
        exact ih hrest hstays_rest
          (fire_serves hreply hkind hkeeps hj (reply.host.watched.note (reply.state, s.2) _) _
            (hkeeps.note _ _ hstate))
          (fire_keeps hreply (fun _ _ _ _ _ _ (_ : True) => trivial) hjobs
            (reply.host.watched.note (reply.state, s.2) _) _ trivial).2

/-! ### What a tick starts -/

/-- Why the execution of a rule is started, after what was seen before it, for a due job of a rule with a trigger
that the registry had at the start. -/
inductive Justified (registry : σ → Registry) (start : Registry) (due : List Job) (before : List (Seen σ)) (x : σ)
    (o : Occasion) : String → Prop where
  /-- The job has a schedule, and its rule is registered by now and in use; if it is the registration of the start
  still, then it has the trigger in use. -/
  | scheduled {j : Job} {r : Rule} : j ∈ due → j.kind ≠ "condition" → o = .ofJob "schedule" j.triggerId [] →
      (registry x).rule? j.ruleId = some r → r.isActive = true →
      (start.rule? j.ruleId = some r → ∃ t ∈ r.enabledTriggers, t.id = j.triggerId ∧ ∃ s, t.source = .schedule s) →
      Justified registry start due before x o j.ruleId
  /-- The job polls, and its rule was polled just before: it was registered and in use then and had the trigger in
  use. -/
  | held {j : Job} {r : Rule} {earlier : List (Seen σ)} {y : σ} {data : Fields} : j ∈ due → j.kind = "condition" →
      o = .ofJob "condition" j.triggerId data → before = earlier ++ [.polled y r] →
      (registry y).rule? j.ruleId = some r → r.isActive = true →
      (∃ t ∈ r.enabledTriggers, t.id = j.triggerId ∧ ∃ p, t.source = .condition p) →
      Justified registry start due before x o j.ruleId

/-- All executions that are started are justified. -/
def AllJustified (registry : σ → Registry) (start : Registry) (due : List Job) (log : List (Seen σ)) : Prop :=
  ∀ before x ruleId o later, log = before ++ .started x ruleId o :: later →
    Justified registry start due before x o ruleId

variable {start : Registry} {log : List (Seen σ)} {seen : Seen σ}

/-- One more start must be justified by what was seen before. -/
theorem AllJustified.concat (hlog : AllJustified registry start due log)
    (hseen : ∀ x ruleId o, seen = .started x ruleId o → Justified registry start due log x o ruleId) :
    AllJustified registry start due (log ++ [seen]) := by
  intro before x ruleId o later heq
  -- it is the last one itself, or one before it
  obtain rfl | ⟨later, last, rfl⟩ := List.eq_nil_or_concat later
  · obtain ⟨rfl, hlast⟩ := List.append_inj' heq rfl
    exact hseen x ruleId o (List.singleton_inj.mp hlast)
  · rw [List.concat_eq_append, ← List.cons_append, ← List.append_assoc] at heq
    exact hlog before x ruleId o later (List.append_inj' heq rfl).1

/-- The polled condition of a rule is that of a trigger in use. -/
theorem trigger_of_polling {triggerId : String} {p : Polling} (hp : polling? r triggerId = some p) :
    ∃ t ∈ r.enabledTriggers, t.id = triggerId ∧ ∃ p, t.source = .condition p := by
  obtain ⟨t, ht, hpolls⟩ := List.exists_of_findSome?_eq_some hp
  split at hpolls
  next q hq =>
    split at hpolls
    next hid => exact ⟨t, ht, eq_of_beq hid, q, hq⟩
    next => cases hpolls
  next => cases hpolls

/-- A turn of a due job only starts what is justified. -/
theorem AllJustified.turn (howned : ∀ j ∈ due, start.Owns j) (hj : j ∈ due) {x : σ} {more : List (Seen σ)}
    (htakes : Turn registry j x more) (hlog : AllJustified registry start due log) :
    AllJustified registry start due (log ++ more) := by
  cases htakes with
  | absent | inactive | unpolled => rwa [List.append_nil]
  | polled => exact hlog.concat fun _ _ _ h => nomatch h
  | @scheduled r y hkind hr hactive hsame =>
      refine hlog.concat ?_
      rintro _ _ _ ⟨⟩
      rw [Registry.id_of_rule hr]
      refine .scheduled hj hkind rfl (hsame ▸ hr) hactive fun hstart => ?_
      obtain ⟨q, hq, t, ht, htrigger, hsource⟩ := howned j hj
      obtain rfl := Option.some.inj (hq.symm.trans hstart)
      rw [if_neg hkind] at hsource
      exact ⟨t, ht, htrigger, hsource⟩
  | @held r p y data hkind hr hp hactive =>
      rw [List.append_cons]
      have hpolled : AllJustified registry start due (log ++ [.polled x r]) :=
        hlog.concat fun _ _ _ h => nomatch h
      refine hpolled.concat ?_
      rintro _ _ _ ⟨⟩
      rw [Registry.id_of_rule hr]
      exact .held hj hkind rfl rfl hr hactive (trigger_of_polling hp)

/-- What is seen when due jobs are fired. -/
theorem watch_tick_eq (hlaw : h.Lawful registry) {s : σ} {now : Moment}
    (hdue : ((registry s).scheduler.due now).due = .ok due) (replies : List (Reply σ)) :
    ∃ x, registry x = { registry s with scheduler := ⟨((registry s).scheduler.due now).jobs⟩ } ∧
      h.watchTick now s replies = ((proceed replies (h.watched.fire due (x, []) [])).1.2,
        .ok (proceed replies (h.watched.fire due (x, []) [])).2) := by
  have hregistry : h.watched.registry (s, []) = registry s := hlaw.shows s
  refine ⟨h.note (h.schedule s ⟨((registry s).scheduler.due now).jobs⟩) ((registry s).scheduler.due now).notes,
    (hlaw.note _ _).trans (hlaw.schedule _ _), ?_⟩
  rw [watchTick, tick, hregistry, hdue]
  rfl

end Host

end Rulebook
