import Rulebook.Proofs.Api.Isolation
import Rulebook.Rehearsal.Office

/-!
# Answers on a timeline

On a timeline bells are rung until the execution that a request calls has ended. If it ends, the response to the
request is the answer to it when alarms have rung (`Timeline.receive_answer`).
-/

namespace Rulebook

namespace Timeline

variable {c : Cast} {t t' : Timeline} {id : String} {result : Outcome String} {limit : Nat}

/-- Setting bells leaves the engine. -/
theorem engine_of_set_bells (alarms : List Alarm) (t : Timeline) :
    (alarms.foldl (fun t a => t.setBell a.delay (.engine a.timer)) t).engine = t.engine := by
  induction alarms generalizing t with
  | nil => rfl
  | cons a alarms ih => exact ih _

/-- What an engine does on a timeline is what it does, and then its alarms are set. -/
theorem engine_of_work {α : Type} (t : Timeline) (f : Engine Scene → Engine Scene × α) :
    (t.work f).1.engine = { (f t.engine).1 with alarms := [] } :=
  engine_of_set_bells _ _

/-- How the call of an execution ends when bells ring, if it ends before some number of them have rung. -/
def ending? (c : Cast) (id : String) : Nat → Timeline → Option (Timeline × Outcome String)
  | 0, _ => none
  | limit + 1, t =>
    match t.ring c with
    | none => none
    | some (t, .ended about result) => if about = id then some (t, result) else ending? c id limit t
    | some (t, _) => ending? c id limit t

/-- Bells are rung until the call ends. -/
theorem until_ended_of_ending {p : Timeline × Outcome String} (h : ending? c id limit t = some p) :
    t.untilEnded c id limit = p := by
  induction limit generalizing t with
  | zero => cases h
  | succ limit ih =>
      rw [ending?] at h
      split at h
      next => cases h
      next t' about result hring =>
        rw [untilEnded, hring]
        dsimp only
        split at h
        next hid =>
          rw [if_pos hid]
          exact Option.some.inj h
        next hid =>
          rw [if_neg hid]
          exact ih h
      next t' r hr hring =>
        rw [untilEnded, hring]
        cases r with
        | ended about result => exact absurd rfl (hr about result)
        | nothing => exact ih h
        | pause n => exact ih h

/-- What the patrol does not wait for is answered as it ended, and the engine stays as it is. -/
theorem ended_of_settle {about : String} {ended : Outcome String}
    (h : t.settle c about ended = (t', .ended id result)) : t' = t ∧ about = id ∧ ended = result := by
  rw [settle] at h
  split at h
  next =>
    split at h
    next => cases h
    next => cases h; exact ⟨rfl, rfl, rfl⟩
  next => cases h; exact ⟨rfl, rfl, rfl⟩

/-- A bell that ends a call is an alarm of the engine that ends it. -/
theorem ring_of_ended (h : t.ring c = some (t', .ended id result)) :
    ∃ (rung : Rung Scene) (e : Engine Scene),
      rung.engine.ring c.services.environment rung.now rung.timer = (e, some (id, result)) ∧
        t'.engine = { e with alarms := [] } := by
  rw [ring] at h
  dsimp only at h
  split at h
  next => cases h
  next b _ =>
    split at h
    next n _ =>
      split at h
      next => split at h <;> cases h
      next => cases h
    next x _ =>
      generalize hs : ({ t.silence t.bells.heap.size with
        bells := (t.silence t.bells.heap.size).bells.pop,
        elapsed := max (t.silence t.bells.heap.size).elapsed b.at_ } : Timeline) = s at h
      have hengine := engine_of_work s fun e => e.ring c.services.environment s.now x
      have hended : (s.work fun e => e.ring c.services.environment s.now x).2 =
          (s.engine.ring c.services.environment s.now x).2 := rfl
      split at h
      next => cases h
      next s' about ended hwork =>
        obtain ⟨rfl, rfl, rfl⟩ := ended_of_settle (Option.some.inj h)
        exact ⟨⟨s.engine, s.now, x⟩, _, Prod.ext rfl (hended.symm.trans hwork), hengine⟩

/-- The last bell of a call that ends is an alarm of the engine that ends it. -/
theorem rung_of_ending (h : ending? c id limit t = some (t', result)) :
    ∃ (rung : Rung Scene) (e : Engine Scene),
      rung.engine.ring c.services.environment rung.now rung.timer = (e, some (id, result)) ∧
        t'.engine = { e with alarms := [] } := by
  induction limit generalizing t with
  | zero => cases h
  | succ limit ih =>
      rw [ending?] at h
      split at h
      next => cases h
      next t'' about ended hring =>
        split at h
        next hid =>
          cases h
          exact ring_of_ended (hid ▸ hring)
        next => exact ih h
      next => exact ih h

/-- A call that was begun ends on a timeline as it does when alarms ring, if it ends. -/
theorem await_of_ending {e : Engine Scene} (hengine : t.engine = { e with alarms := [] }) {l : Launch}
    (hends : ∀ id, l = .underway id → (ending? c id patience t).isSome) :
    ∃ rungs d, e.await c.services.environment l rungs = some (d, (t.await c l).2) ∧
      (t.await c l).1.engine = { d with alarms := [] } := by
  cases l with
  | ended result => exact ⟨[], e, rfl, hengine⟩
  | underway id =>
      obtain ⟨⟨t', result⟩, hending⟩ := Option.isSome_iff_exists.mp (hends id rfl)
      obtain ⟨rung, d, hring, hd⟩ := rung_of_ending hending
      refine ⟨[rung], d, ?_, ?_⟩
      · rw [Engine.await, Engine.ended?, hring, await, until_ended_of_ending hending]
        exact if_pos rfl
      · rw [await, until_ended_of_ending hending]
        exact hd

/-- An order of a tenant is answered on a timeline as it is when alarms ring, if the execution that it calls ends. -/
theorem fulfil_answer {o : Order} {u : String} (he : t.engine.Orderly) (ho : o.tenant? = some u) (c : Cast)
    (hends : ∀ tenantId id,
      (t.work fun e => e.perform (o.start c.services.environment t.now)).2 = .ok (.called tenantId (.underway id)) →
        (ending? c id patience (t.work fun e => e.perform (o.start c.services.environment t.now)).1).isSome) :
    ∃ rungs, o.answer c.services.environment t.now t.engine rungs = some (t.fulfil c o).2 := by
  have hengine := engine_of_work t fun e => e.perform (o.start c.services.environment t.now)
  have hstate : (t.work fun e => e.perform (o.start c.services.environment t.now)).2 =
      (t.engine.perform (o.start c.services.environment t.now)).2 := rfl
  have hstarts := Order.start_alike ⟨he, he, rfl, rfl⟩ ho c.services t.now
  rw [fulfil]
  simp only [Order.answer]
  rcases hw : t.work fun e => e.perform (o.start c.services.environment t.now) with ⟨t', state⟩
  rcases hp : t.engine.perform (o.start c.services.environment t.now) with ⟨e, state'⟩
  rw [hw] at hengine hstate hends
  rw [hp] at hengine hstate hstarts
  obtain rfl : state = state' := hstate
  cases hstarts with
  | replied reply hreply _ =>
      obtain rfl : state = _ := hreply
      refine ⟨[], (Order.settle_done _ _ _ _).trans (congrArg some ?_)⟩
      cases reply.outcome t.engine <;> rfl
  | @called l _ _ hcalled _ =>
      obtain rfl : state = _ := hcalled
      obtain ⟨rungs, d, hawait, hd⟩ := await_of_ending hengine fun id hl =>
        hends u id (congrArg (fun l => Except.ok (OrderState.called u l)) hl)
      refine ⟨rungs, ?_⟩
      have hget : ∀ id, (t'.await c l).1.engine.getExecution id (some u) = d.getExecution id (some u) := fun id => by
        rw [show (t'.await c l).1.engine = _ from hd]
        rfl
      rw [Order.settle, hawait]
      dsimp only [complete, Option.map_some]
      simp only [hget]

/-- The timeline on which nothing was written down yet. -/
def unwritten (t : Timeline) : Timeline := { t with engine := { t.engine with log := [] } }

/-- A request for a tenant is responded to on a timeline as it is when alarms ring, if the execution that it calls
ends. -/
theorem receive_answer {r : ApiRequest} {u : String} (hr : r.IsFor u) (he : t.engine.Orderly) (c : Cast) (site : Site)
    (hends : ∀ o tenantId id, r.decide site = .order o →
      (t.unwritten.work fun e => e.perform (o.start c.services.environment t.now)).2 =
          .ok (.called tenantId (.underway id)) →
        (ending? c id patience
          (t.unwritten.work fun e => e.perform (o.start c.services.environment t.now)).1).isSome) :
    ∃ rungs, r.answer c.services.environment site t.now t.unwritten.engine rungs = some (t.receive c site r).2 := by
  have horderly : t.unwritten.engine.Orderly :=
    ⟨⟨he.owned.recorded, he.owned.distinct, he.owned.numbered, he.owned.tried⟩, he.rules, he.executions⟩
  simp only [ApiRequest.answer, ApiRequest.respond, receive]
  cases hdecide : r.decide site with
  | answer a => exact ⟨[], rfl⟩
  | refuse x => exact ⟨[], rfl⟩
  | order o =>
      obtain ⟨rungs, h⟩ := fulfil_answer horderly (hr.order hdecide) c fun tenantId id => hends o tenantId id hdecide
      refine ⟨rungs, ?_⟩
      dsimp only
      rw [show t.now = t.unwritten.now from rfl, h]
      rfl

end Timeline

end Rulebook
