import Rulebook.Proofs.Keys
import Rulebook.Proofs.Registry.History
import Rulebook.Registry.Dispatch

/-!
# Which calls a dispatch makes

A dispatch executes the rules that are meant one after another, whatever comes of their executions
(`Host.hear_eq_ok`): as far as it got, it has called the first ones of them, and with enough replies it
has called all.
-/

namespace Rulebook

/-- The calls of rules that were made, in order. -/
abbrev Calls := List (String × Occasion)

namespace Host

variable {σ : Type}

/-! ### The order of calls -/

section Order

variable {rules : List Rule}

/-- Rules of higher priority come first. -/
theorem by_priority_sorted (rules : List Rule) :
    (byPriority rules).Pairwise fun a b => b.priority ≤ a.priority :=
  sorted_by_key (fun r : Rule => OrderDual.toDual r.priority) rules

/-- Rules of equal priority stay as they are. -/
theorem by_priority_stable (rules : List Rule) (priority : Int) :
    (byPriority rules).filter (·.priority = priority) = rules.filter (·.priority = priority) :=
  filter_sorted_by_key (fun r : Rule => OrderDual.toDual r.priority) (OrderDual.toDual priority) rules

/-- Rules come by priority, and those of equal priority in the order that they had. -/
theorem by_priority_pairwise {before : Rule → Rule → Prop} (h : rules.Pairwise before) :
    (byPriority rules).Pairwise fun a b =>
      b.priority < a.priority ∨ a.priority = b.priority ∧ before a b := by
  rw [List.pairwise_iff_forall_sublist]
  intro a b hab
  have hle := List.pairwise_iff_forall_sublist.mp (by_priority_sorted rules) hab
  obtain heq | hlt := Int.le_iff_eq_or_lt.mp hle
  · have hkept := hab.filter (·.priority = a.priority)
    rw [by_priority_stable, List.filter_cons_of_pos (by simp), List.filter_cons_of_pos (by simp [heq])] at hkept
    exact .inr ⟨heq.symm, List.pairwise_iff_forall_sublist.mp h (hkept.trans List.filter_sublist)⟩
  · exact .inl hlt

/-- Rules are told by those of each priority. -/
theorem mem_iff_of_filter_eq {rules others : List Rule} {r : Rule}
    (h : ∀ priority, rules.filter (·.priority = priority) = others.filter (·.priority = priority)) :
    r ∈ rules ↔ r ∈ others := by
  have hsame : r ∈ rules.filter (·.priority = r.priority) ↔ r ∈ others.filter (·.priority = r.priority) := by
    rw [h]
  simpa using hsame

/-- Rules that come by priority are told in their order by those of each priority. -/
theorem eq_of_sorted {rules others : List Rule} (hsorted : rules.Pairwise fun a b => b.priority ≤ a.priority)
    (hothers : others.Pairwise fun a b => b.priority ≤ a.priority)
    (h : ∀ priority, rules.filter (·.priority = priority) = others.filter (·.priority = priority)) :
    rules = others := by
  induction rules generalizing others with
  | nil => exact (List.eq_nil_iff_forall_not_mem.mpr fun r hr =>
      absurd ((mem_iff_of_filter_eq h).mpr hr) List.not_mem_nil).symm
  | cons a rules ih =>
      cases others with
      | nil => cases (mem_iff_of_filter_eq h).mp (List.mem_cons_self (a := a))
      | cons b others =>
          obtain ⟨ha, hrules⟩ := List.pairwise_cons.mp hsorted
          obtain ⟨hb, hrest⟩ := List.pairwise_cons.mp hothers
          -- each of the first rules is among the rules of the other list, hence they have one priority
          have hpriority : b.priority = a.priority := by
            refine Int.le_antisymm ?_ ?_
            · obtain rfl | hmem := List.mem_cons.mp ((mem_iff_of_filter_eq h).mpr (List.mem_cons_self (a := b)))
              · exact Int.le_refl _
              · exact ha b hmem
            · obtain rfl | hmem := List.mem_cons.mp ((mem_iff_of_filter_eq h).mp (List.mem_cons_self (a := a)))
              · exact Int.le_refl _
              · exact hb a hmem
          have hfirst := h a.priority
          rw [List.filter_cons_of_pos (by simp), List.filter_cons_of_pos (by simp [hpriority])] at hfirst
          obtain ⟨rfl, -⟩ := List.cons.inj hfirst
          refine congrArg (a :: ·) (ih hrules hrest fun priority => ?_)
          have hall := h priority
          by_cases hp : a.priority = priority
          · rw [List.filter_cons_of_pos (by simp [hp]), List.filter_cons_of_pos (by simp [hp])] at hall
            exact (List.cons.inj hall).2
          · rwa [List.filter_cons_of_neg (by simp [hp]), List.filter_cons_of_neg (by simp [hp])] at hall

/-- Rules that are left out change nothing in the order of the others. -/
theorem by_priority_filter (rules : List Rule) (p : Rule → Bool) :
    byPriority (rules.filter p) = (byPriority rules).filter p := by
  refine eq_of_sorted (by_priority_sorted _) ((by_priority_sorted rules).filter p) fun priority => ?_
  rw [by_priority_stable, List.filter_comm, ← by_priority_stable, List.filter_comm]

end Order

/-! ### The calls that are made -/

/-- The host that also writes down what it is asked to execute. -/
def recorded (h : Host σ) : Host (σ × Calls) where
  registry s := h.registry s.1
  schedule s jobs := (h.schedule s.1 jobs, s.2)
  note s notes := (h.note s.1 notes, s.2)
  execute s ruleId o :=
    let (state, launch) := h.execute s.1 ruleId o
    ((state, s.2 ++ [(ruleId, o)]), launch)
  source := h.source.map fun reading s r =>
    let (state, x) := reading s.1 r
    ((state, s.2), x)

/-- The end of an execution that was waited for, and the host and its state by then. -/
structure Reply (σ : Type) where
  host : Host σ
  state : σ
  result : Outcome String

/-- How far a dispatch gets with replies. -/
def goOn : List (Reply σ) → (σ × Calls) × Progress → (σ × Calls) × Progress
  | reply :: rest, (s, .waits _ r errand) =>
    goOn rest (reply.host.recorded.resume r reply.result errand (reply.state, s.2))
  | _, p => p

/-- How far an event gets with replies, and what it makes the host execute. -/
def hear (h : Host σ) (eventType : String) (data : Fields) (context : ExecutionContext) (s : σ)
    (replies : List (Reply σ)) : Calls × Outcome Progress :=
  match h.recorded.event eventType data context (s, []) with
  | (s, .ok p) =>
    let (s, p) := goOn replies (s, p)
    (s.2, .ok p)
  | (s, .error f) => (s.2, .error f)

/-- The calls that execute rules on an occasion. -/
def callsFor (o : Occasion) (rules : List Rule) : Calls :=
  (rules.filter (·.isActive)).map fun r => (r.id, o)

end Host

namespace Progress

/-- The calls that are still to be made. -/
def due : Progress → Calls
  | .finished _ => []
  | .waits _ _ e => Host.callsFor e.occasion e.rules

/-- How many replies finish a dispatch at the latest. -/
def needs : Progress → Nat
  | .finished _ => 0
  | .waits _ _ e => (Host.callsFor e.occasion e.rules).length + 1

/-- A dispatch that needs no more replies is finished. -/
theorem needs_eq_zero_iff {p : Progress} : p.needs = 0 ↔ ∃ ids, p = .finished ids := by
  cases p <;> simp [needs]

/-- The dispatch of an event got somewhere: no jobs are to be fired after it, some calls were made and the
others are due. -/
structure Leaves (calls : Calls) (p : Progress) (all : Calls) : Prop where
  split : calls ++ p.due = all
  jobless : ∀ id r e, p = .waits id r e → e.jobs = []

end Progress

namespace Host

variable {σ : Type} {o : Occasion}

/-- Rules are executed one after another, as far as none has to be waited for. -/
theorem serve_leaves (h : Host σ) (o : Occasion) (rules : List Rule) (s : σ × Calls) (ids : List String) :
    (h.recorded.serve o [] rules s ids).2.Leaves (h.recorded.serve o [] rules s ids).1.2
        (s.2 ++ callsFor o rules) ∧
      (h.recorded.serve o [] rules s ids).2.needs ≤ (callsFor o rules).length := by
  induction rules generalizing s ids with
  | nil => exact ⟨⟨rfl, fun _ _ _ h => nomatch h⟩, Nat.le_refl 0⟩
  | cons r rules ih =>
      rw [serve]
      cases hactive : r.isActive with
      | false =>
          have hcalls : callsFor o (r :: rules) = callsFor o rules := by simp [callsFor, hactive]
          rw [if_neg Bool.false_ne_true, hcalls]
          exact ih s ids
      | true =>
          have hcalls : callsFor o (r :: rules) = (r.id, o) :: callsFor o rules := by
            simp [callsFor, hactive]
          rw [if_pos rfl, hcalls]
          have hcall : (h.recorded.execute s r.id o).1.2 = s.2 ++ [(r.id, o)] := rfl
          -- an execution that is under way stops the dispatch until its reply; one that has ended does not
          match hlaunch : h.recorded.execute s r.id o with
          | (s', .underway id) =>
            rw [hlaunch] at hcall
            dsimp only at hcall ⊢
            refine ⟨⟨?_, ?_⟩, ?_⟩
            · rw [hcall, List.append_assoc]
              rfl
            · rintro _ _ e heq
              cases heq
              rfl
            · exact Nat.le_of_eq rfl
          | (s', .ended result) =>
            rw [hlaunch] at hcall
            dsimp only at hcall ⊢
            obtain ⟨hleaves, hneeds⟩ :=
              ih (h.recorded.note s' (tally r.id o.triggeredBy result).2)
                (ids ++ (tally r.id o.triggeredBy result).1)
            have hnote : (h.recorded.note s' (tally r.id o.triggeredBy result).2).2 = s.2 ++ [(r.id, o)] :=
              hcall
            rw [hnote, List.append_assoc] at hleaves
            exact ⟨hleaves, Nat.le_succ_of_le hneeds⟩

/-- An errand without jobs goes on with its rules. -/
theorem resume_of_jobless (h : Host σ) (r : Rule) (result : Outcome String) {e : Errand}
    (hjobs : e.jobs = []) (s : σ) : h.resume r result e s =
      h.serve e.occasion [] e.rules (h.note s (tally r.id e.occasion.triggeredBy result).2)
        (e.ids ++ (tally r.id e.occasion.triggeredBy result).1) := by
  unfold resume
  rw [hjobs]
  dsimp only
  split
  next heq => rw [heq, fire]
  next => rfl

/-- With replies a dispatch goes on making its calls, and it is finished if there are enough of them. -/
theorem go_on_leaves (replies : List (Reply σ)) {s : σ × Calls} {p : Progress} {all : Calls}
    (h : p.Leaves s.2 all) :
    (goOn replies (s, p)).2.Leaves (goOn replies (s, p)).1.2 all ∧
      (p.needs ≤ replies.length → (goOn replies (s, p)).2.needs = 0) := by
  induction replies generalizing s p with
  | nil => exact ⟨h, Nat.le_zero.mp⟩
  | cons reply replies ih =>
      cases p with
      | finished ids => exact ⟨h, fun _ => rfl⟩
      | waits id r e =>
          have hserve := reply.host.serve_leaves e.occasion e.rules
            (reply.host.recorded.note (reply.state, s.2) (tally r.id e.occasion.triggeredBy reply.result).2)
            (e.ids ++ (tally r.id e.occasion.triggeredBy reply.result).1)
          have hall : s.2 ++ callsFor e.occasion e.rules = all := h.split
          have hresume := reply.host.recorded.resume_of_jobless r reply.result (h.jobless id r e rfl)
            (reply.state, s.2)
          rw [← hresume] at hserve
          obtain ⟨hleaves, hneeds⟩ := hserve
          rw [goOn]
          obtain ⟨hon, hdone⟩ := ih (hall ▸ hleaves)
          exact ⟨hon, fun hlength => hdone (Nat.le_trans hneeds (Nat.le_of_succ_le_succ hlength))⟩

/-- What an event makes a host execute: nothing if it cannot be told which rules are meant; else, as far as
it got, the first ones of these, those of higher priority before the others. -/
theorem hear_cases (h : Host σ) (eventType : String) (data : Fields) (context : ExecutionContext) (s : σ)
    (replies : List (Reply σ)) :
    (∃ f, ((h.registry s).forEvent eventType data).outcome = .error f ∧
        h.hear eventType data context s replies = ([], .error f)) ∨
      ∃ rules calls p, ((h.registry s).forEvent eventType data).outcome = .ok rules ∧
        h.hear eventType data context s replies = (calls, .ok p) ∧
        calls ++ p.due = callsFor (.ofEvent eventType data context) (byPriority rules) ∧
        ((callsFor (.ofEvent eventType data context) (byPriority rules)).length ≤ replies.length →
          p.needs = 0) := by
  have hregistry : h.recorded.registry (s, []) = h.registry s := rfl
  cases hmeant : ((h.registry s).forEvent eventType data).outcome with
  | error f =>
      refine .inl ⟨f, rfl, ?_⟩
      unfold hear event
      dsimp only
      rw [hregistry, hmeant]
      rfl
  | ok rules =>
      have hserve := h.serve_leaves (.ofEvent eventType data context) (byPriority rules)
        (h.recorded.note (s, []) ((h.registry s).forEvent eventType data).notes) []
      obtain ⟨hleaves, hdone⟩ := go_on_leaves replies hserve.1
      refine .inr ⟨rules, _, _, rfl, ?_, hleaves.split, fun hlength => hdone (Nat.le_trans hserve.2 hlength)⟩
      unfold hear event
      dsimp only
      rw [hregistry, hmeant]
      rfl

end Host

namespace Registry

/-- The registered rules in use that are looked for come up once each, those of higher priority first and those of
equal priority in the order of their last registration. -/
theorem in_turn (acts : List Act) (wanted : Rule → Bool) :
    let found := (Host.byPriority ((after acts).rules.filter wanted)).filter (·.isActive)
    (∀ r, r ∈ found ↔ Registered acts r ∧ r.isActive = true ∧ wanted r = true) ∧
      (found.map (·.id)).Nodup ∧
      found.Pairwise fun a b => b.priority < a.priority ∨ a.priority = b.priority ∧ RegisteredBefore acts a b := by
  intro found
  have hperm := List.mergeSort_perm ((after acts).rules.filter wanted) fun a b => b.priority ≤ a.priority
  refine ⟨fun r => ?_, ?_, (Host.by_priority_pairwise ((rules_in_order acts).filter _)).filter _⟩
  · rw [List.mem_filter, Host.byPriority, hperm.mem_iff, List.mem_filter, mem_rules_iff, and_assoc, and_comm (b := _ = true)]
  · have hids := (hperm.map (·.id)).nodup_iff.mpr ((ids_nodup acts).sublist (List.filter_sublist.map _))
    exact hids.sublist (List.filter_sublist.map _)

end Registry

end Rulebook
