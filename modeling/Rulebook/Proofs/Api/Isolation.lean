import Rulebook.Proofs.Api.Answer

/-!
# Requests of one tenant

A request for a tenant confines itself to what is the tenant's (`Engine.Confines`): neither its arrival nor what
follows of it changes the rules, the executions, or the jobs of others. What it is responded with does not tell
anything of others, apart from how many identifiers were given before (`ApiRequest.isolated`).
-/

namespace Rulebook

variable {σ : Type} {v : Environment σ} {s : Services σ} {site : Site} {now : Moment} {e e' : Engine σ} {u : String}
  {r : ApiRequest}

namespace ApiRequest

/-- What the arrival of a request does to an engine, and what is begun then if the request is an order. -/
def arrive (v : Environment σ) (site : Site) (now : Moment) (r : ApiRequest) (e : Engine σ) :
    Engine σ × Option (Outcome OrderState) :=
  match r.decide site with
  | .order o => let (e, state) := e.perform (o.start v now); (e, some state)
  | _ => (e, none)

/-- The response to a request for which orders are answered in some way, if its order is. -/
def respond (site : Site) (r : ApiRequest) (fulfil : Order → Option (Outcome Value)) : Option ApiResponse :=
  let answer : Option (Except Refusal ApiResponse) := match r.decide site with
    | .answer a => some (.ok a)
    | .refuse x => some (.error x)
    | .order o => (fulfil o).map fun result => (result.mapError .failed).map o.response
  answer.map fun answer => (r.conclude (r.identifier site.requestId) answer).1

/-- The response to a request by the time that alarms have rung, if it is answered by then. -/
def answer (v : Environment σ) (site : Site) (now : Moment) (r : ApiRequest) (e : Engine σ) (rungs : List (Rung σ)) :
    Option ApiResponse :=
  r.respond site fun o => o.answer v now e rungs

end ApiRequest

namespace Engine

/-- A request of a tenant spares all others when it arrives, and whatever was done since then, all that follows of it
spares them: an alarm of the execution that it called rings, or its caller goes away. -/
structure Confines (v : Environment σ) (u : String) (e : Engine σ) (p : Engine σ × Option (Outcome OrderState)) :
    Prop where
  arrival : e.Spares u p.1
  alarm : ∀ tenantId id, p.2 = some (.ok (.called tenantId (.underway id))) → ∀ acts now t, t.executionId = id →
    (p.1.after v acts).Spares u ((p.1.after v acts).ring v now t).1
  departure : ∀ tenantId id, p.2 = some (.ok (.called tenantId (.underway id))) → ∀ acts,
    (p.1.after v acts).Spares u ((p.1.after v acts).abandon id)

/-- Rules and executions that are kept under an identifier in both engines are those of the same tenants. -/
structure SameTenants (e e' : Engine σ) : Prop where
  rules : ∀ id q q', e.rules.get id = .ok (some q) → e'.rules.get id = .ok (some q') → q'.tenantId = q.tenantId
  executions : ∀ id x x', e.executions.get id = .ok (some x) → e'.executions.get id = .ok (some x') →
    x'.tenantId = x.tenantId

/-- Whatever acts follow, rules and executions stay those of their tenants. -/
theorem Owned.same_tenants (he : e.Owned) (v : Environment σ) (acts : List (Moment × Act)) :
    e.SameTenants (e.after v acts) := by
  obtain ⟨hafter, howners, htrials⟩ := after_owned he v acts
  refine ⟨fun id q q' hq hq' => ?_, fun id x x' hx hx' => ?_⟩
  · obtain ⟨_, howner⟩ := RuleStore.owner_of_get hq
    obtain ⟨_, howner'⟩ := RuleStore.owner_of_get hq'
    exact hafter.owner_unique (howners.subset howner) _ howner' rfl
  · have htrial := htrials.subset (ExecutionStore.trial_mem_of_get hx)
    have hid : x'.id = x.id := (ExecutionStore.id_of_get hx').trans (ExecutionStore.id_of_get hx).symm
    have hsame := hafter.recorded.eq_of_id (ExecutionStore.trial_mem_of_get hx') htrial hid
    exact congrArg Trial.tenantId hsame

/-- Whatever was done since a trial of a tenant was recorded, the runs of its identifier are the tenant's. -/
theorem Owned.tenant_of_runs (he : e.Owned) {t : Trial} (ht : t ∈ e.executions.trials) (v : Environment σ)
    (acts : List (Moment × Act)) :
    ∀ run ∈ (e.after v acts).runs, run.execution.id = t.id → run.execution.tenantId = t.tenantId := by
  obtain ⟨hafter, _, htrials⟩ := after_owned he v acts
  exact fun run hrun hid => hafter.recorded.tenant_of_run (htrials.subset ht) hrun hid

end Engine

namespace Order

/-- An execution that goes on after an order of a tenant was begun is the tenant's. -/
theorem trial_of_called {o : Order} (he : e.Orderly) (ho : o.tenant? = some u) (s : Services σ) (now : Moment)
    {tenantId id : String} (h : (e.perform (o.start s.environment now)).2 = .ok (.called tenantId (.underway id))) :
    ∃ t ∈ (e.perform (o.start s.environment now)).1.executions.trials, t.id = id ∧ t.tenantId = u := by
  have hstarts := start_alike ⟨he, he, rfl, rfl⟩ ho s now
  cases hstarts with
  | replied reply hreply _ =>
      rw [h] at hreply
      cases houtcome : reply.outcome e <;> rw [houtcome] at hreply <;> cases hreply
  | called hbegins hcalled _ =>
      obtain ⟨_, rfl⟩ := OrderState.called.inj (Except.ok.inj (h.symm.trans hcalled))
      cases hbegins with
      | underway htwins =>
          obtain ⟨n, hentry, htenant⟩ := htwins.entry
          obtain ⟨t, ht, hid, hsame⟩ := ExecutionStore.trial_of_entry hentry
          exact ⟨t, ht, hid, hsame.trans htenant⟩

end Order

namespace ApiRequest

/-- A request for a tenant confines itself to what is the tenant's. -/
theorem IsFor.confines (hr : r.IsFor u) (he : e.Orderly) (s : Services σ) (site : Site) (now : Moment) :
    Engine.Confines s.environment u e (r.arrive s.environment site now e) := by
  rw [arrive]
  split
  next o hdecide =>
    have ho := hr.order hdecide
    obtain ⟨hspares, howned⟩ := Order.start_spares he.owned ho s.environment now
    have hruns : ∀ tenantId id, some (e.perform (o.start s.environment now)).2 =
        some (.ok (.called tenantId (.underway id))) → ∀ acts,
        ∀ run ∈ ((e.perform (o.start s.environment now)).1.after s.environment acts).runs,
          run.execution.id = id → run.execution.tenantId = u := by
      intro tenantId id hcalled acts
      obtain ⟨t, ht, rfl, rfl⟩ := Order.trial_of_called he ho s now (Option.some.inj hcalled)
      exact howned.tenant_of_runs ht s.environment acts
    refine ⟨hspares, fun tenantId id hcalled acts now t ht => ?_, fun tenantId id hcalled acts => ?_⟩
    · exact Engine.act_spares (Engine.after_owned howned s.environment acts).1
        (.rung t (ht ▸ hruns tenantId id hcalled acts)) s.environment now
    · exact Engine.act_spares (Engine.after_owned howned s.environment acts).1
        (.left id (hruns tenantId id hcalled acts)) s.environment now
  next => exact ⟨⟨fun _ _ => rfl, fun _ _ => rfl⟩, (fun _ _ h => by cases h), (fun _ _ h => by cases h)⟩

/-- In engines that are alike to a tenant a request for the tenant is responded to with the same reply. -/
theorem IsFor.answer_alike (hr : r.IsFor u) (h : Engine.Alike u e e') (s : Services σ) (site : Site) (now : Moment)
    {rungs rungs' : List (Rung σ)}
    (hgoes : Engine.Goes s.environment u e.nextExecution e'.nextExecution (r.arrive s.environment site now e).1
      (r.arrive s.environment site now e').1 rungs rungs') :
    ∃ reply : Option Order.Reply,
      r.answer s.environment site now e rungs = r.respond site (fun _ => reply.map (·.outcome e)) ∧
        r.answer s.environment site now e' rungs' = r.respond site (fun _ => reply.map (·.outcome e')) := by
  rw [arrive, arrive] at hgoes
  rw [answer, answer]
  cases hdecide : r.decide site with
  | answer a => exact ⟨none, by simp only [respond, hdecide], by simp only [respond, hdecide]⟩
  | refuse x => exact ⟨none, by simp only [respond, hdecide], by simp only [respond, hdecide]⟩
  | order o =>
      rw [hdecide] at hgoes
      obtain ⟨reply, hreply, hreply'⟩ := Order.answer_alike h (hr.order hdecide) hgoes
      refine ⟨reply, ?_, ?_⟩
      · simp only [respond, hdecide, hreply]
      · simp only [respond, hdecide, hreply']

/-- A request for a tenant in an engine that was reached confines itself to what is the tenant's. In any other such
engine that holds the same of the tenant it is responded to with the same reply, but for new identifiers, whatever
others do meanwhile. And rules and executions stay those of their tenants forever. -/
theorem isolated (s : Services σ) (he : e.IsReached s.environment) (hr : r.IsFor u) (site : Site) (now : Moment) :
    Engine.Confines s.environment u e (r.arrive s.environment site now e) ∧
      (∀ e' : Engine σ, e'.IsReached s.environment → e'.share (· == u) = e.share (· == u) → e'.world = e.world →
        ∀ rungs rungs', Engine.Goes s.environment u e.nextExecution e'.nextExecution
            (r.arrive s.environment site now e).1 (r.arrive s.environment site now e').1 rungs rungs' →
          ∃ reply : Option Order.Reply,
            r.answer s.environment site now e rungs = r.respond site (fun _ => reply.map (·.outcome e)) ∧
              r.answer s.environment site now e' rungs' = r.respond site (fun _ => reply.map (·.outcome e'))) ∧
      ∀ acts, e.SameTenants (e.after s.environment acts) :=
  ⟨hr.confines he.orderly s site now,
    fun _ he' hshare hworld _ _ hgoes => hr.answer_alike ⟨he.orderly, he'.orderly, hshare, hworld⟩ s site now hgoes,
    fun acts => he.orderly.owned.same_tenants s.environment acts⟩

/-- In memory a request for a tenant leads on from an engine that was reached. -/
theorem IsFor.arrive_in_memory (hr : r.IsFor u) (h : e.IsReached v) (hmemory : e.rules.isDatabase = false) (site : Site)
    (now : Moment) : (r.arrive v site now e).1.IsReached v := by
  rw [arrive]
  split
  next o hdecide =>
    show (e.perform (o.start v now)).1.IsReached v
    obtain hsame | ⟨act, _, hact⟩ := Order.start_act e (hr.order hdecide) v now
    · rw [hsame]
      exact h
    · rw [hact]
      exact h.act fun hdatabase => by cases hmemory.symm.trans hdatabase
  next => exact h

end ApiRequest

namespace Isolation

/-- Services that answer every call with nothing, a second later. -/
def slow : Services Unit where
  offers _ := true
  handles _ := true
  opensWeb := false
  webTimeout := .null
  serve world _ := (world, .later microsPerSecond (.ok (.value .null)))
  source := none

/-- A rule of a tenant with one action. -/
def ruleOf (tenantId : String) : RuleDraft := { (Rule.plain "" [.plain "action"]).toRuleDraft with tenantId }

/-- An engine with a rule of one tenant. -/
def quiet : Engine Unit :=
  (Engine.start (.memory .empty) (.memory .empty) ()).after slow.environment [(.utc 0, .createRule (ruleOf "one"))]

/-- The engine when another tenant has created a rule, too. -/
def shared : Engine Unit := (Act.createRule (ruleOf "two")).apply slow.environment (.utc 0) quiet

/-- The engine when the other tenant has called its rule. -/
def busy : Engine Unit := (Act.execute "rule_0002" [] .empty none).apply slow.environment (.utc 0) shared

/-- What a request meets. -/
def place : Site := ⟨"", true, true, .utc 0, ⟨0⟩, ""⟩

/-- The first tenant calls its rule. -/
def manual : ApiRequest :=
  ⟨"POST", "/automations/rules/rule_0001/execute", "",
    [("x-tenant-id", "one"), ("content-type", "application/json")], "\x7b\x7d"⟩

/-- The engine when the first tenant has called its rule. -/
def called (e : Engine Unit) : Engine Unit := (manual.arrive slow.environment place (.utc 0) e).1

/-- The alarm of an execution a second after its rule was called. -/
def alarms (e : Engine Unit) (id : String) : List (Rung Unit) := [⟨called e, .utc microsPerSecond, .wake id 0⟩]

/-- The first tenant is answered alike whether another tenant is there or not. -/
theorem isolated_of_busy :
    Engine.Confines slow.environment "one" quiet (manual.arrive slow.environment place (.utc 0) quiet) ∧
      (∃ reply : Option Order.Reply,
        manual.answer slow.environment place (.utc 0) quiet (alarms quiet "exec_0001") =
            manual.respond place (fun _ => reply.map (·.outcome quiet)) ∧
          manual.answer slow.environment place (.utc 0) busy (alarms busy "exec_0002") =
            manual.respond place (fun _ => reply.map (·.outcome busy))) ∧
      (manual.answer slow.environment place (.utc 0) quiet (alarms quiet "exec_0001")).map (·.status) = some 200 ∧
      quiet.nextExecution = "exec_0001" ∧ busy.nextExecution = "exec_0002" ∧
      ∀ acts, quiet.SameTenants (quiet.after slow.environment acts) := by
  have hfor : manual.IsFor "one" := by
    refine ⟨rfl, fun e he => ?_⟩
    have hroute : Route.find manual.method manual.path = .found (.executeRule "rule_0001") := rfl
    obtain rfl := Routing.found.inj (hroute.symm.trans he)
    exact ⟨by decide, fun _ h => by cases h⟩
  have hquiet : quiet.IsReached slow.environment :=
    ⟨.memory .empty, .memory .empty, (), _, rfl, fun _ => rfl, (fun h => by cases h), rfl⟩
  have hmemory : quiet.rules.isDatabase = false := by decide +kernel
  have hmemory' : shared.rules.isDatabase = false := by decide +kernel
  have hmemory'' : busy.rules.isDatabase = false := by decide +kernel
  have hshared : shared.IsReached slow.environment := hquiet.act fun h => by cases hmemory.symm.trans h
  have hbusy : busy.IsReached slow.environment := hshared.act fun h => by cases hmemory'.symm.trans h
  have hshare : busy.share (· == "one") = quiet.share (· == "one") := by
    have hcreated := Engine.act_spares hquiet.orderly.owned (.created (ruleOf "two") rfl) slow.environment (.utc 0)
    have hrule : (shared.getRule "rule_0002" (some "two")).toOption.isSome := by decide +kernel
    cases hq : shared.getRule "rule_0002" (some "two") with
    | error f =>
        rw [hq] at hrule
        cases hrule
    | ok q =>
        have hcalled := Engine.act_spares hshared.orderly.owned (.executed [] .empty none hq) slow.environment (.utc 0)
        exact (hcalled.share (· == "one") rfl).trans (hcreated.share (· == "one") rfl)
  have hgoes : Engine.Goes slow.environment "one" "exec_0001" "exec_0002" (called quiet) (called busy)
      (alarms quiet "exec_0001") (alarms busy "exec_0002") :=
    .cons (hfor.arrive_in_memory hquiet hmemory place (.utc 0)) (hfor.arrive_in_memory hbusy hmemory'' place (.utc 0))
      rfl rfl rfl rfl .nil
  have hnext : quiet.nextExecution = "exec_0001" := by decide +kernel
  have hnext' : busy.nextExecution = "exec_0002" := by decide +kernel
  obtain ⟨hconfines, halike, htenants⟩ := ApiRequest.isolated slow hquiet hfor place (.utc 0)
  have hreply := halike busy hbusy hshare rfl (alarms quiet "exec_0001") (alarms busy "exec_0002")
  rw [hnext, hnext'] at hreply
  exact ⟨hconfines, hreply hgoes, by decide +kernel, hnext, hnext', htenants⟩

end Isolation

end Rulebook
