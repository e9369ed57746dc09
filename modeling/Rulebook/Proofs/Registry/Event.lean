import Rulebook.Proofs.Engine.Act
import Rulebook.Proofs.Registry.Dispatch
import Rulebook.Proofs.Registry.Meant
import Rulebook.Rehearsal.Registry

/-!
# What an event makes a host execute

An event is heard on a host whose registry has come to be as it is by registering, amending and taking away
rules. If it can be told of every registered rule whether it reacts, those that are in use and react are
executed, each once, by priority and then by the time of registration (`Registry.reacting_executed`). If it
cannot be told of one of them, none is executed, not even those that have nothing to do with it; a rule of
which it can be told leaves the others alone (`Registry.siblings_executed_iff`).
-/

namespace Rulebook.Registry

variable {σ τ : Type} {acts : List Act} {h : Host σ} {s : σ} {eventType : String} {data : Fields}
  {context : ExecutionContext} {r : Rule}

/-- It can be told of every registered rule whether it reacts to an event. -/
def CanTell (acts : List Act) (eventType : String) (data : Fields) : Prop :=
  ∀ r, Registered acts r → ∀ f, ¬r.Faults eventType (.object data) f

/-- The rules that an event means are found exactly if it can be told of all rules. -/
theorem for_event_eq_ok_iff {rules : List Rule} :
    ((after acts).forEvent eventType data).outcome = .ok rules ↔ CanTell acts eventType data ∧
      (after acts).rules.filter (Rule.reacts eventType (.object data)) = rules := by
  rw [for_event_eq_scan, reacting_eq_ok_iff]
  simp only [mem_rules_iff, CanTell]

/-- If it can be told of all rules, the event is heard, and calls are made in order as far as it got. -/
theorem hear_of_can_tell (hs : h.registry s = after acts) (htell : CanTell acts eventType data)
    (context : ExecutionContext) (replies : List (Host.Reply σ)) :
    ∃ calls p, h.hear eventType data context s replies = (calls, .ok p) ∧
      calls ++ p.due = Host.callsFor (.ofEvent eventType data context)
        (Host.byPriority ((after acts).rules.filter (Rule.reacts eventType (.object data)))) ∧
      ((Host.callsFor (.ofEvent eventType data context)
        (Host.byPriority ((after acts).rules.filter (Rule.reacts eventType (.object data))))).length ≤
          replies.length → ∃ ids, p = .finished ids) := by
  have hmeant := for_event_eq_ok_iff.mpr ⟨htell, rfl⟩
  obtain ⟨f, hf, _⟩ | ⟨rules, calls, p, hrules, hhear, hsplit, hdone⟩ :=
    h.hear_cases eventType data context s replies
  · rw [hs, hmeant] at hf
    cases hf
  · rw [hs, hmeant] at hrules
    obtain rfl := Except.ok.inj hrules
    exact ⟨calls, p, hhear, hsplit, fun hlength => Progress.needs_eq_zero_iff.mp (hdone hlength)⟩

/-- If it cannot be told of one rule, the event is not heard, and no calls are made. -/
theorem hear_of_not_can_tell (hs : h.registry s = after acts) (htell : ¬CanTell acts eventType data)
    (context : ExecutionContext) (replies : List (Host.Reply σ)) :
    ∃ f, h.hear eventType data context s replies = ([], .error f) := by
  obtain ⟨f, _, hhear⟩ | ⟨rules, _, _, hrules, _⟩ := h.hear_cases eventType data context s replies
  · exact ⟨f, hhear⟩
  · exact absurd (for_event_eq_ok_iff.mp (hs ▸ hrules)).1 htell

/-- The rules that an event means are those that a look at every registered rule and its triggers finds.
If it can be told of every registered rule whether it reacts, then those that are in use and react are
executed, each once, those of higher priority first and those of equal priority in the order of their last
registration: as far as the dispatch got, the first of them have been, and with a reply for each of them all
have been. -/
theorem reacting_executed (acts : List Act) (h : Host σ) (s : σ) (hs : h.registry s = after acts)
    (eventType : String) (data : Fields) (context : ExecutionContext) (replies : List (Host.Reply σ)) :
    (after acts).forEvent eventType data =
        reactingTo (EventType.normalize eventType) (.object data) (after acts).rules ∧
      (CanTell acts eventType data → ∃ executed : List Rule,
        (∀ r, r ∈ executed ↔
          Registered acts r ∧ r.isActive = true ∧ r.Reacts eventType (.object data)) ∧
        (executed.map (·.id)).Nodup ∧
        executed.Pairwise (fun a b => b.priority < a.priority ∨
          a.priority = b.priority ∧ RegisteredBefore acts a b) ∧
        ∃ calls p, h.hear eventType data context s replies = (calls, .ok p) ∧
          calls <+: executed.map (fun r => (r.id, .ofEvent eventType data context)) ∧
          ((∃ ids, p = .finished ids) →
            calls = executed.map fun r => (r.id, .ofEvent eventType data context)) ∧
          (executed.length ≤ replies.length → ∃ ids, p = .finished ids)) := by
  refine ⟨for_event_eq_scan acts eventType data, fun htell => ?_⟩
  obtain ⟨calls, p, hhear, hsplit, hdone⟩ := hear_of_can_tell hs htell context replies
  have hperm := List.mergeSort_perm ((after acts).rules.filter (Rule.reacts eventType (.object data)))
    fun a b => b.priority ≤ a.priority
  refine ⟨(Host.byPriority ((after acts).rules.filter (Rule.reacts eventType (.object data)))).filter
    (·.isActive), fun r => ?_, ?_, ?_, calls, p, hhear, ⟨p.due, hsplit⟩, ?_, fun hlength => hdone ?_⟩
  · rw [List.mem_filter, Host.byPriority, hperm.mem_iff, List.mem_filter, mem_rules_iff]
    constructor
    · rintro ⟨⟨hr, hreacts⟩, hactive⟩
      exact ⟨hr, hactive, (Rule.reacts_iff (htell r hr)).mp hreacts⟩
    · rintro ⟨hr, hactive, hreacts⟩
      exact ⟨⟨hr, (Rule.reacts_iff (htell r hr)).mpr hreacts⟩, hactive⟩
  · have hids := (hperm.map (·.id)).nodup_iff.mpr ((ids_nodup acts).sublist (List.filter_sublist.map _))
    exact hids.sublist (List.filter_sublist.map _)
  · exact (Host.by_priority_pairwise ((rules_in_order acts).filter _)).filter _
  · rintro ⟨ids, rfl⟩
    exact (List.append_nil calls).symm.trans hsplit
  · rwa [Host.callsFor, List.length_map]

/-- A rule that listens to events with a wildcard is executed when such an event is heard. -/
theorem reacting_executed_wildcard :
    let r := { Rule.plain "rule" [] with triggers := [⟨"trigger", "", true, [], .event "File.*"⟩] }
    let acts := [Act.register false (.utc 0) r]
    let s : RegistryRehearsal := ⟨after acts, .utc 0, [], [], none, []⟩
    ∃ (executed : List Rule) (calls : Calls) (p : Progress), r ∈ executed ∧
      (RegistryRehearsal.host false).hear "file.created " [] .empty s [] = (calls, .ok p) ∧
      calls <+: executed.map fun q => (q.id, .ofEvent "file.created " [] .empty) := by
  intro r acts s
  have htell : CanTell acts "file.created " [] := by
    intro q hq
    have hmem : q ∈ [r] := mem_rules_iff.mpr hq
    rw [List.mem_singleton.mp hmem]
    exact fun f => Rule.not_faults_of_no_filters fun t ht => by rw [List.mem_singleton.mp ht]
  obtain ⟨executed, hexecuted, _, _, calls, p, hhear, hcalls, _⟩ :=
    (reacting_executed acts (RegistryRehearsal.host false) s rfl "file.created " [] .empty []).2 htell
  refine ⟨executed, calls, p, (hexecuted r).mpr ⟨mem_rules_iff.mp (List.mem_singleton_self r), rfl, ?_⟩, hhear,
    hcalls⟩
  exact ⟨_, List.mem_singleton_self _, "File.*", rfl, by decide +kernel, nofun⟩

/-- A rule that was taken away is not registered, and the others are. -/
theorem registered_without_iff {ruleId : String} :
    Registered (acts ++ [.unregister ruleId]) r ↔ Registered acts r ∧ r.id ≠ ruleId := by
  rw [← mem_rules_iff, ← mem_rules_iff, after_concat]
  unfold Act.apply unregister
  simp

/-- Only one rule is registered under an identifier. -/
theorem eq_of_registered {q : Rule} (hq : Registered acts q) (hr : Registered acts r) (hid : q.id = r.id) :
    q = r :=
  List.inj_on_of_nodup_map (ids_nodup acts) (mem_rules_iff.mpr hq) (mem_rules_iff.mpr hr) hid

/-- If it can be told of a rule, then it can be told of all rules if it can be told of the others. -/
theorem can_tell_without_iff (hr : Registered acts r) (h : ∀ f, ¬r.Faults eventType (.object data) f) :
    CanTell (acts ++ [.unregister r.id]) eventType data ↔ CanTell acts eventType data := by
  unfold CanTell
  simp only [registered_without_iff]
  constructor
  · intro hothers q hq
    by_cases hid : q.id = r.id
    · exact eq_of_registered hq hr hid ▸ h
    · exact hothers q ⟨hq, hid⟩
  · exact fun hall q hq => hall q hq.1

/-- An event is heard exactly if it can be told of all rules. -/
theorem hear_eq_ok_iff (hs : h.registry s = after acts) {replies : List (Host.Reply σ)} :
    (∃ calls p, h.hear eventType data context s replies = (calls, .ok p)) ↔ CanTell acts eventType data := by
  constructor
  · rintro ⟨calls, p, hhear⟩
    by_contra htell
    obtain ⟨f, hf⟩ := hear_of_not_can_tell hs htell context replies
    cases hhear.symm.trans hf
  · intro htell
    obtain ⟨calls, p, hhear, _⟩ := hear_of_can_tell hs htell context replies
    exact ⟨calls, p, hhear⟩

/-- A dispatch that is finished has made all calls. -/
theorem calls_of_finished (hs : h.registry s = after acts) {replies : List (Host.Reply σ)} {calls : Calls}
    {ids : List String} (hhear : h.hear eventType data context s replies = (calls, .ok (.finished ids))) :
    calls = Host.callsFor (.ofEvent eventType data context)
      (Host.byPriority ((after acts).rules.filter (Rule.reacts eventType (.object data)))) := by
  obtain ⟨calls', p, hcalls, hsplit, _⟩ :=
    hear_of_can_tell hs ((hear_eq_ok_iff hs).mp ⟨calls, _, hhear⟩) context replies
  cases hhear.symm.trans hcalls
  exact (List.append_nil calls).symm.trans hsplit

/-- Calls without those of a rule are the calls of the others. -/
theorem calls_filter (o : Occasion) (rules : List Rule) (ruleId : String) :
    (Host.callsFor o (Host.byPriority rules)).filter (·.1 != ruleId) =
      Host.callsFor o (Host.byPriority (rules.filter (·.id != ruleId))) := by
  unfold Host.callsFor
  rw [Host.by_priority_filter, List.filter_map, List.filter_comm]
  rfl

/-- An event is heard exactly if it can be told of every registered rule whether it reacts, else no calls
are made. So a rule of which that cannot be told keeps all others from being executed. A rule of which it
can be told does not: the event is heard with the rule exactly if it is without it, and then, when both
dispatches have all the replies that they wait for, the same calls of the other rules are made in the same
order. -/
theorem siblings_executed_iff (acts : List Act) (r : Rule) (hr : Registered acts r) (h : Host σ) (s : σ)
    (hs : h.registry s = after acts) (h' : Host τ) (s' : τ)
    (hs' : h'.registry s' = (after acts).unregister r.id) (eventType : String) (data : Fields)
    (context : ExecutionContext) (replies : List (Host.Reply σ)) (replies' : List (Host.Reply τ)) :
    ((∃ calls p, h.hear eventType data context s replies = (calls, .ok p)) ↔ CanTell acts eventType data) ∧
      (¬CanTell acts eventType data → ∃ f, h.hear eventType data context s replies = ([], .error f)) ∧
      ((∀ f, ¬r.Faults eventType (.object data) f) →
        ((∃ calls p, h.hear eventType data context s replies = (calls, .ok p)) ↔
          ∃ calls p, h'.hear eventType data context s' replies' = (calls, .ok p)) ∧
        ∀ calls calls' ids ids', h.hear eventType data context s replies = (calls, .ok (.finished ids)) →
          h'.hear eventType data context s' replies' = (calls', .ok (.finished ids')) →
          calls.filter (·.1 != r.id) = calls') := by
  have hwithout : h'.registry s' = after (acts ++ [.unregister r.id]) := by
    rw [after_concat]
    exact hs'
  refine ⟨hear_eq_ok_iff hs, fun htell => hear_of_not_can_tell hs htell context replies, fun hnone => ⟨?_, ?_⟩⟩
  · rw [hear_eq_ok_iff hs, hear_eq_ok_iff hwithout, can_tell_without_iff hr hnone]
  · intro calls calls' ids ids' hhear hhear'
    have hrules : (after (acts ++ [.unregister r.id])).rules = (after acts).rules.filter (·.id != r.id) := by
      rw [after_concat]
      rfl
    rw [calls_of_finished hs hhear, calls_of_finished hwithout hhear', calls_filter, hrules, List.filter_comm]

/-- A rule with a filter that has no path keeps another one from being executed. -/
theorem siblings_executed_iff_pathless :
    let r := { Rule.plain "one" [] with triggers := [⟨"trigger", "", true, [("", .int 1)], .event "x"⟩] }
    let other := { Rule.plain "other" [] with triggers := [⟨"trigger", "", true, [], .event "x"⟩] }
    let acts := [Act.register false (.utc 0) r, .register false (.utc 0) other]
    let s : RegistryRehearsal := ⟨after acts, .utc 0, [], [], none, []⟩
    let s' : RegistryRehearsal := ⟨(after acts).unregister "one", .utc 0, [], [], none, []⟩
    other.Reacts "x" (.object []) ∧
      (∃ f, (RegistryRehearsal.host false).hear "x" [] .empty s [] = ([], .error f)) ∧
      ∃ calls p, (RegistryRehearsal.host false).hear "x" [] .empty s' [] = (calls, .ok p) := by
  intro r other acts s s'
  have hr : Registered acts r := mem_rules_iff.mp List.mem_cons_self
  have hfault : r.Faults "x" (.object []) (.invalid [⟨[.name "field"], .tooShort 1⟩]) :=
    ⟨[], _, [], rfl, nofun, "x", rfl, by decide +kernel, [], _, [], rfl, nofun, .invalid rfl⟩
  have htell : CanTell (acts ++ [.unregister "one"]) "x" [] := by
    intro q hq
    have hmem : q ∈ [other] := mem_rules_iff.mpr hq
    rw [List.mem_singleton.mp hmem]
    exact fun f => Rule.not_faults_of_no_filters fun t ht => by rw [List.mem_singleton.mp ht]
  refine ⟨⟨_, List.mem_singleton_self _, "x", rfl, by decide +kernel, nofun⟩, ?_, ?_⟩
  · exact (siblings_executed_iff acts r hr (RegistryRehearsal.host false) s rfl (RegistryRehearsal.host false)
      s' rfl "x" [] .empty [] []).2.1 fun hall => hall r hr _ hfault
  · exact (hear_eq_ok_iff rfl).mpr htell

end Rulebook.Registry
