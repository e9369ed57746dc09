import Rulebook.Proofs.Store.Table

/-!
# What stores in memory and in a database answer

A run of calls on empty stores is answered alike by stores in memory and by a database, with times in UTC
(`Stores.database_answers`), if rules are created one after the other, executions are triggered at different
instants, and payloads are values of JSON. A database differs in two ways, which are told as what the stores in
memory would do (`Stores.mimic`): a call with a time that is not representable in UTC fails, and a payload is not
replaced by one with the same content. A step of a run is `Tables.step`.
-/

namespace Rulebook

/-- A call of the stores of rules and executions. -/
inductive StoreCall where
  /-- Adds a rule. -/
  | createRule (r : Rule)
  /-- Replaces the rule of the same identifier. -/
  | updateRule (r : Rule)
  /-- Asks for a rule. -/
  | getRule (id : String)
  /-- Asks for the rules of a tenant, or all. -/
  | listRules (tenantId : Option String)
  /-- Adds an execution. -/
  | create (x : Execution)
  /-- Replaces the execution of the same identifier. -/
  | update (x : Execution)
  /-- Asks for an execution. -/
  | get (id : String)
  /-- Asks for the executions that are wanted. -/
  | list (q : ExecutionQuery)
  /-- Asks how many executions of a rule were triggered on a day. -/
  | count (ruleId : String) (day : Date)
  /-- Asks when the last execution of a rule started. -/
  | lastStarted (ruleId : String)

/-- The answer to a call. -/
inductive StoreReply where
  /-- The record was written. -/
  | written
  /-- The rule, if there is one. -/
  | rule (r : Option Rule)
  /-- The rules in order. -/
  | rules (l : List Rule)
  /-- The execution, if there is one. -/
  | execution (x : Option Execution)
  /-- The executions in order. -/
  | executions (l : List Execution)
  /-- The number of executions. -/
  | number (n : Nat)
  /-- The time, if there is one. -/
  | time (m : Option Moment)

/-- The answer with its times in UTC. -/
def StoreReply.inUtc : StoreReply → StoreReply
  | written => written
  | rule r => rule (r.map Rule.inUtc)
  | rules l => rules (l.map Rule.inUtc)
  | execution x => execution (x.map Execution.inUtc)
  | executions l => executions (l.map Execution.inUtc)
  | number n => number n
  | time m => time (m.map Moment.inUtc)

namespace StoreCall

/-- The times of what is written or asked for have known offsets, payloads are values of JSON, and integers fit in
64 bits. -/
def IsProper : StoreCall → Prop
  | createRule r | updateRule r => r.IsDated ∧ r.toRuleDraft.IsAdmitted
  | create x | update x => x.IsDated ∧ x.IsReadable
  | list q => ∀ p ∈ q.period, p.IsAware
  | count _ day => day.isValid = true
  | getRule _ | listRules _ | get _ | lastStarted _ => True

/-- What a later call may do after an earlier one: rules are created one after the other and keep the time of their
creation, identifiers are created once, and different executions are triggered at different instants. -/
def Follows : StoreCall → StoreCall → Prop
  | createRule q, createRule r => q.id ≠ r.id ∧ q.createdAt.instant < r.createdAt.instant
  | createRule q, updateRule r => q.id = r.id → r.createdAt.instant = q.createdAt.instant
  | create y, create x => y.id ≠ x.id ∧ y.triggeredAt.instant ≠ x.triggeredAt.instant
  | create y, update x | update y, create x | update y, update x =>
    y.id ≠ x.id → y.triggeredAt.instant ≠ x.triggeredAt.instant
  | _, _ => True

/-- Whether a time of the call is not representable in UTC. -/
def overruns : StoreCall → Bool
  | createRule r | updateRule r => r.overruns
  | create x | update x => x.overruns
  | list q => q.overruns
  | count _ day => ExecutionTable.isLastDay day
  | getRule _ | listRules _ | get _ | lastStarted _ => false

end StoreCall

/-- The stores of rules and executions. -/
structure Stores where
  /-- The rules. -/
  rules : RuleStore
  /-- The executions. -/
  executions : ExecutionStore

namespace Stores

/-- Stores in memory that hold nothing. -/
def memory : Stores := ⟨.memory .empty, .memory .empty⟩

/-- Stores in a database that hold nothing. -/
def database : Stores := ⟨.sql .empty, .sql .empty⟩

/-- What stores answer to a call, and the stores after it. -/
def answer (s : Stores) : StoreCall → Outcome (StoreReply × Stores)
  | .createRule r => (s.rules.create r).map fun rules => (.written, { s with rules })
  | .updateRule r => (s.rules.update r).map fun rules => (.written, { s with rules })
  | .getRule id => (s.rules.get id).map fun r => (.rule r, s)
  | .listRules tenantId => (s.rules.list tenantId).map fun l => (.rules l, s)
  | .create x => (s.executions.create x).map fun executions => (.written, { s with executions })
  | .update x => (s.executions.update x).map fun executions => (.written, { s with executions })
  | .get id => (s.executions.get id).map fun x => (.execution x, s)
  | .list q => (s.executions.list q).map fun l => (.executions l, s)
  | .count ruleId day => (s.executions.count ruleId day).map fun n => (.number n, s)
  | .lastStarted ruleId => (s.executions.lastStarted ruleId).map fun m => (.time m, s)

/-- The call in which the payloads that have the same content as those that are held are these. -/
def staying (s : Stores) : StoreCall → StoreCall
  | .updateRule r => .updateRule (((s.rules.get r.id).toOption.join).elim r (·.keptOver r))
  | .update x => .update (((s.executions.get x.id).toOption.join).elim x (·.keptOver x))
  | c => c

/-- What stores in memory answer to a call if they do as a database: payloads with the same content stay, and a call
with a time that is not representable in UTC fails. -/
def mimic (s : Stores) (c : StoreCall) : Outcome (StoreReply × Stores) :=
  s.answer (s.staying c) >>= Outcome.barring Stored.overrun c.overruns

/-- The answers to a run of calls. A call that fails leaves the stores. -/
def run (reply : Stores → StoreCall → Outcome (StoreReply × Stores)) : Stores → List StoreCall →
    List (Outcome StoreReply)
  | _, [] => []
  | s, c :: calls =>
    match reply s c with
    | .ok (r, t) => .ok r :: run reply t calls
    | .error f => .error f :: run reply s calls

/-- In a run of calls all times are representable in UTC, and no payload is written over another one with the same
content. -/
def Steady : Stores → List StoreCall → Prop
  | _, [] => True
  | s, c :: calls => c.overruns = false ∧ s.staying c = c ∧
    match s.answer c with
    | .ok (_, t) => t.Steady calls
    | .error _ => s.Steady calls

/-- In a steady run nothing is done as a database does it. -/
theorem run_of_steady {s : Stores} {calls : List StoreCall} (h : s.Steady calls) :
    run mimic s calls = run answer s calls := by
  induction calls generalizing s with
  | nil => rfl
  | cons c calls ih =>
      obtain ⟨hrange, hsame, hrest⟩ := h
      have hmimic : s.mimic c = s.answer c := by
        rw [mimic, hsame, hrange]
        cases s.answer c <;> rfl
      rw [run, run, hmimic]
      split at hrest
      next hanswer => exact congrArg _ (ih hrest)
      next hanswer => exact congrArg _ (ih hrest)

end Stores

/-- Tables of rules and executions. -/
structure Tables where
  /-- The rules. -/
  rules : RuleTable
  /-- The executions. -/
  executions : ExecutionTable

namespace Tables

/-- The tables in memory. -/
def memory (t : Tables) : Stores := ⟨.memory t.rules, .memory t.executions⟩

/-- The rows of the tables in a database. -/
def database (t : Tables) : Stores := ⟨.sql t.rules.asRows, .sql t.executions.asRows⟩

/-- The records can be kept in a database and were written one after another. -/
structure IsOrderly (t : Tables) : Prop where
  rules : ∀ r ∈ t.rules.rules, r.IsReadable
  executions : ∀ x ∈ t.executions.executions, x.IsReadable ∧ x.IsDated ∧ x.overruns = false
  created : t.rules.rules.Pairwise fun q r => (StoreCall.createRule q).Follows (.createRule r)
  triggered : t.executions.executions.Pairwise fun y x => (StoreCall.create y).Follows (.create x)

/-- The call may come after all records were created. -/
def Precede (t : Tables) (c : StoreCall) : Prop :=
  (∀ q ∈ t.rules.rules, (StoreCall.createRule q).Follows c) ∧
    ∀ y ∈ t.executions.executions, (StoreCall.create y).Follows c

/-- A call is answered alike, and what may come after it may come after the records that are there then. -/
def Agree (t : Tables) (c : StoreCall) : Prop :=
  (∃ f, t.memory.mimic c = .error f ∧ t.database.answer c = .error f) ∨
    ∃ (reply : StoreReply) (u : Tables), t.memory.mimic c = .ok (reply, u.memory) ∧
      t.database.answer c = .ok (reply.inUtc, u.database) ∧ u.IsOrderly ∧ ∀ d, c.Follows d → t.Precede d → u.Precede d

variable {t : Tables} {c d : StoreCall} {q r : Rule} {x y : Execution}

/-- A question is answered alike if the answer is that of the tables, unless a time is not representable in UTC. -/
theorem agree_of_question (ht : t.IsOrderly) (reply : StoreReply)
    (hmemory : t.memory.mimic c = Outcome.barring Stored.overrun c.overruns (reply, t.memory))
    (hrows : t.database.answer c = Outcome.barring Stored.overrun c.overruns (reply.inUtc, t.database)) :
    t.Agree c := by
  rw [Agree, hmemory, hrows]
  cases c.overruns
  · exact .inr ⟨reply, t, rfl, rfl, ht, fun _ _ hd => hd⟩
  · exact .inl ⟨_, rfl, rfl⟩

/-- What may come after a rule may come after any version with the time of its creation. -/
theorem follows_of_same_rule (hid : r.id = q.id) (hcreated : r.createdAt.instant = q.createdAt.instant)
    (h : (StoreCall.createRule q).Follows d) : (StoreCall.createRule r).Follows d := by
  cases d <;> simp_all [StoreCall.Follows]

/-- What may come after an execution and after a later version may come after that as if it were created. -/
theorem follows_of_version (hid : x.id = y.id) (h : (StoreCall.create y).Follows d)
    (hx : (StoreCall.update x).Follows d) : (StoreCall.create x).Follows d := by
  cases d with
  | create z => exact ⟨hid ▸ h.1, hx (hid ▸ h.1)⟩
  | update z => exact hx
  | _ => trivial

/-- A rule that is created is answered alike. -/
theorem agree_of_create_rule (ht : t.IsOrderly) (hr : r.IsDated) (hadmitted : r.toRuleDraft.IsAdmitted)
    (hprecede : t.Precede (.createRule r)) : t.Agree (.createRule r) := by
  have hrows : t.database.answer (.createRule r) = (RuleRows.create t.rules.asRows r).map fun rows =>
      (.written, ⟨.sql rows, .sql t.executions.asRows⟩) := by
    show ((RuleRows.create t.rules.asRows r).map RuleStore.sql).map _ = _
    cases RuleRows.create t.rules.asRows r <;> rfl
  have hmemory : t.memory.mimic (.createRule r) = (t.rules.create r >>= fun u =>
      Outcome.barring Stored.overrun r.overruns u).map fun u => (.written, (Tables.mk u t.executions).memory) := by
    show (((t.rules.create r).map RuleStore.memory).map _ >>= Outcome.barring Stored.overrun r.overruns) = _
    cases t.rules.create r with
    | error f => rfl
    | ok u => cases r.overruns <;> rfl
  rw [RuleTable.create_as_rows hr] at hrows
  rw [Agree, hmemory, hrows]
  have hnew : ∀ q ∈ t.rules.rules, q.id ≠ r.id := fun q hq => (hprecede.1 q hq).1
  have hcreate : t.rules.create r = .ok ⟨t.rules.rules ++ [r]⟩ := by
    have hnone : t.rules.get? r.id = none := List.find?_eq_none.mpr fun q hq => by simpa using hnew q hq
    rw [RuleTable.create, hnone]
    rfl
  rw [hcreate]
  cases r.overruns
  · refine .inr ⟨.written, ⟨⟨t.rules.rules ++ [r]⟩, t.executions⟩, rfl, rfl, ⟨?_, ht.executions, ?_, ht.triggered⟩, ?_⟩
    · exact List.forall_mem_append.mpr ⟨ht.rules, List.forall_mem_singleton.mpr (Rule.readable_of_admitted hadmitted)⟩
    · exact List.pairwise_append.mpr ⟨ht.created, List.pairwise_singleton _ _, fun q hq p hp =>
        List.mem_singleton.mp hp ▸ hprecede.1 q hq⟩
    · exact fun d hd hbefore => ⟨List.forall_mem_append.mpr ⟨hbefore.1, List.forall_mem_singleton.mpr hd⟩, hbefore.2⟩
  · exact .inl ⟨_, rfl, rfl⟩

/-- A rule that is replaced is answered alike. -/
theorem agree_of_update_rule (ht : t.IsOrderly) (hr : r.IsDated) (hadmitted : r.toRuleDraft.IsAdmitted)
    (hprecede : t.Precede (.updateRule r)) : t.Agree (.updateRule r) := by
  have hrows : t.database.answer (.updateRule r) = (RuleRows.update t.rules.asRows r).map fun rows =>
      (.written, ⟨.sql rows, .sql t.executions.asRows⟩) := by
    show ((RuleRows.update t.rules.asRows r).map RuleStore.sql).map _ = _
    cases RuleRows.update t.rules.asRows r <;> rfl
  have hmemory : t.memory.mimic (.updateRule r) = (t.rules.update (t.rules.staying r) >>= fun u =>
      Outcome.barring Stored.overrun r.overruns u).map fun u => (.written, (Tables.mk u t.executions).memory) := by
    show (((t.rules.update (t.rules.staying r)).map RuleStore.memory).map _ >>=
      Outcome.barring Stored.overrun r.overruns) = _
    cases t.rules.update (t.rules.staying r) with
    | error f => rfl
    | ok u => cases r.overruns <;> rfl
  rw [RuleTable.update_as_rows hr] at hrows
  rw [Agree, hmemory, hrows]
  cases hupdate : t.rules.update (t.rules.staying r) with
  | error f => exact .inl ⟨f, rfl, rfl⟩
  | ok u =>
      cases r.overruns
      · unfold RuleTable.update at hupdate
        split at hupdate
        next =>
          obtain rfl := Except.ok.inj hupdate
          -- the version that is kept has the identifier and the time of creation of the one before
          have hsame : ∀ q ∈ t.rules.rules, ∀ p, p = (if q.id == (t.rules.staying r).id then t.rules.staying r else q) →
              p.id = q.id ∧ p.createdAt.instant = q.createdAt.instant := by
            rintro q hq p rfl
            split
            next heq =>
              have hid : r.id = q.id := (RuleTable.staying_id _ _).symm.trans (beq_iff_eq.mp heq).symm
              have hcreated : (t.rules.staying r).createdAt = r.createdAt := by
                rw [RuleTable.staying]
                cases t.rules.get? r.id <;> rfl
              exact ⟨(RuleTable.staying_id _ _).trans hid, hcreated ▸ hprecede.1 q hq hid.symm⟩
            next => exact ⟨rfl, rfl⟩
          have hreadable : (t.rules.staying r).IsReadable := by
            rw [RuleTable.staying]
            cases hold : t.rules.get? r.id with
            | none => exact Rule.readable_of_admitted hadmitted
            | some old =>
                exact (ht.rules old (RuleTable.mem_of_get hold).1).kept_over (Rule.readable_of_admitted hadmitted)
          refine .inr ⟨.written, ⟨⟨t.rules.rules.map _⟩, t.executions⟩, rfl, rfl,
            ⟨?_, ht.executions, ?_, ht.triggered⟩, ?_⟩
          · refine List.forall_mem_map.mpr fun q hq => ?_
            split
            · exact hreadable
            · exact ht.rules q hq
          · refine List.pairwise_map.mpr (ht.created.imp_of_mem fun {p q} hp hq h => ?_)
            obtain ⟨hid, hcreated⟩ := hsame p hp _ rfl
            obtain ⟨hid', hcreated'⟩ := hsame q hq _ rfl
            exact ⟨by rw [hid, hid']; exact h.1, by rw [hcreated, hcreated']; exact h.2⟩
          · refine fun d hd hbefore => ⟨List.forall_mem_map.mpr fun q hq => ?_, hbefore.2⟩
            obtain ⟨hid, hcreated⟩ := hsame q hq _ rfl
            exact follows_of_same_rule hid hcreated (hbefore.1 q hq)
        next => cases hupdate
      · exact .inl ⟨_, rfl, rfl⟩

/-- An execution that is created is answered alike. -/
theorem agree_of_create (ht : t.IsOrderly) (hx : x.IsDated) (hreadable : x.IsReadable)
    (hprecede : t.Precede (.create x)) : t.Agree (.create x) := by
  have hnone : t.executions.get? x.id = none :=
    List.find?_eq_none.mpr fun y hy => by simpa using (hprecede.2 y hy).1
  have hrows : t.database.answer (.create x) = (ExecutionRows.create t.executions.asRows x).map fun rows =>
      (.written, ⟨.sql t.rules.asRows, .sql rows⟩) := by
    show ((ExecutionRows.create t.executions.asRows x).map ExecutionStore.sql).map _ = _
    cases ExecutionRows.create t.executions.asRows x <;> rfl
  have hmemory : t.memory.mimic (.create x) = Outcome.barring Stored.overrun x.overruns
      (.written, (Tables.mk t.rules ⟨t.executions.executions ++ [x]⟩).memory) := by
    show (Except.ok (StoreReply.written, Stores.mk (.memory t.rules) (.memory (t.executions.create x))) >>=
      Outcome.barring Stored.overrun x.overruns) = _
    rw [ExecutionTable.create, hnone]
    rfl
  rw [ExecutionTable.create_as_rows hx hnone, ExecutionTable.create, hnone] at hrows
  rw [Agree, hmemory, hrows]
  cases hrange : x.overruns
  · refine .inr ⟨.written, ⟨t.rules, ⟨t.executions.executions ++ [x]⟩⟩, rfl, rfl,
      ⟨ht.rules, ?_, ht.created, ?_⟩, ?_⟩
    · exact List.forall_mem_append.mpr ⟨ht.executions, List.forall_mem_singleton.mpr ⟨hreadable, hx, hrange⟩⟩
    · exact List.pairwise_append.mpr ⟨ht.triggered, List.pairwise_singleton _ _, fun y hy z hz =>
        List.mem_singleton.mp hz ▸ hprecede.2 y hy⟩
    · exact fun d hd hbefore => ⟨hbefore.1, List.forall_mem_append.mpr ⟨hbefore.2, List.forall_mem_singleton.mpr hd⟩⟩
  · exact .inl ⟨_, rfl, rfl⟩

/-- An execution that is replaced is answered alike. -/
theorem agree_of_update (ht : t.IsOrderly) (hx : x.IsDated) (hreadable : x.IsReadable)
    (hprecede : t.Precede (.update x)) : t.Agree (.update x) := by
  have hrows : t.database.answer (.update x) = (ExecutionRows.update t.executions.asRows x).map fun rows =>
      (.written, ⟨.sql t.rules.asRows, .sql rows⟩) := by
    show ((ExecutionRows.update t.executions.asRows x).map ExecutionStore.sql).map _ = _
    cases ExecutionRows.update t.executions.asRows x <;> rfl
  have hmemory : t.memory.mimic (.update x) = (t.executions.update (t.executions.staying x) >>= fun u =>
      Outcome.barring Stored.overrun x.overruns u).map fun u => (.written, (Tables.mk t.rules u).memory) := by
    show (((t.executions.update (t.executions.staying x)).map ExecutionStore.memory).map _ >>=
      Outcome.barring Stored.overrun x.overruns) = _
    cases t.executions.update (t.executions.staying x) with
    | error f => rfl
    | ok u => cases x.overruns <;> rfl
  rw [ExecutionTable.update_as_rows hx] at hrows
  rw [Agree, hmemory, hrows]
  cases hupdate : t.executions.update (t.executions.staying x) with
  | error f => exact .inl ⟨f, rfl, rfl⟩
  | ok u =>
      cases hrange : x.overruns
      · unfold ExecutionTable.update at hupdate
        split at hupdate
        next =>
          obtain rfl := Except.ok.inj hupdate
          obtain ⟨hid, htimes, hsteps⟩ := ExecutionTable.staying_dated t.executions x
          have hkept : (t.executions.staying x).IsReadable ∧ (t.executions.staying x).IsDated ∧
              (t.executions.staying x).overruns = false := by
            refine ⟨?_, ⟨htimes ▸ hx.times, hsteps ▸ hx.attempts⟩, ?_⟩
            · rw [ExecutionTable.staying]
              cases hold : t.executions.get? x.id with
              | none => exact hreadable
              | some old => exact (ht.executions old (ExecutionTable.mem_of_get hold).1).1.kept_over hreadable
            · rwa [Execution.overruns, htimes]
          have htriggered : (t.executions.staying x).triggeredAt = x.triggeredAt := (List.cons.inj htimes).1
          -- either the version that is kept, or another execution, which was triggered at another instant
          have hcases : ∀ y ∈ t.executions.executions, ∀ z,
              z = (if y.id == (t.executions.staying x).id then t.executions.staying x else y) →
              z = t.executions.staying x ∧ y.id = x.id ∨
                z = y ∧ y.id ≠ x.id ∧ y.triggeredAt.instant ≠ x.triggeredAt.instant := by
            rintro y hy z rfl
            rw [hid]
            split
            next heq => exact .inl ⟨rfl, beq_iff_eq.mp heq⟩
            next hne =>
              have hother : y.id ≠ x.id := by simpa using hne
              exact .inr ⟨rfl, hother, hprecede.2 y hy hother⟩
          refine .inr ⟨.written, ⟨t.rules, ⟨t.executions.executions.map _⟩⟩, rfl, rfl,
            ⟨ht.rules, ?_, ht.created, ?_⟩, ?_⟩
          · refine List.forall_mem_map.mpr fun y hy => ?_
            obtain ⟨heq, _⟩ | ⟨heq, _⟩ := hcases y hy _ rfl
            · rw [heq]
              exact hkept
            · rw [heq]
              exact ht.executions y hy
          · refine List.pairwise_map.mpr (ht.triggered.imp_of_mem fun {y z} hy hz h => ?_)
            obtain ⟨heq, hy'⟩ | ⟨heq, hy', hyx⟩ := hcases y hy _ rfl <;>
              obtain ⟨heq', hz'⟩ | ⟨heq', hz', hzx⟩ := hcases z hz _ rfl <;> rw [heq, heq']
            · exact absurd (hy'.trans hz'.symm) h.1
            · exact ⟨hid.trans_ne hz'.symm, by rw [htriggered]; exact hzx.symm⟩
            · exact ⟨hid ▸ hy', by rw [htriggered]; exact hyx⟩
            · exact h
          · refine fun d hd hbefore => ⟨hbefore.1, List.forall_mem_map.mpr fun y hy => ?_⟩
            obtain ⟨heq, hy'⟩ | ⟨heq, _⟩ := hcases y hy _ rfl
            · rw [heq]
              refine follows_of_version (hid.trans hy'.symm) (hbefore.2 y hy) ?_
              cases d with
              | create z => exact fun hne => htriggered ▸ hd (hid ▸ hne)
              | update z => exact fun hne => htriggered ▸ hd (hid ▸ hne)
              | _ => trivial
            · rw [heq]
              exact hbefore.2 y hy
        next => cases hupdate
      · exact .inl ⟨_, rfl, rfl⟩

/-- Every call is answered alike. -/
theorem step (ht : t.IsOrderly) (hc : c.IsProper) (hprecede : t.Precede c) : t.Agree c := by
  cases c with
  | createRule r => exact agree_of_create_rule ht hc.1 hc.2 hprecede
  | updateRule r => exact agree_of_update_rule ht hc.1 hc.2 hprecede
  | create x => exact agree_of_create ht hc.1 hc.2 hprecede
  | update x => exact agree_of_update ht hc.1 hc.2 hprecede
  | getRule id =>
      refine agree_of_question ht (.rule (t.rules.get? id)) rfl ?_
      show (RuleRows.get t.rules.asRows id).map _ = _
      rw [RuleTable.get_as_rows ht.rules]
      rfl
  | listRules tenantId =>
      refine agree_of_question ht (.rules (t.rules.list tenantId)) rfl ?_
      show (RuleRows.list t.rules.asRows tenantId).map _ = _
      rw [RuleTable.list_as_rows ht.rules (ht.created.imp fun h => h.2)]
      rfl
  | get id =>
      refine agree_of_question ht (.execution (t.executions.get? id)) rfl ?_
      show (ExecutionRows.get t.executions.asRows id).map _ = _
      rw [ExecutionTable.get_as_rows fun x hx => (ht.executions x hx).1]
      rfl
  | list q =>
      have hlist := ExecutionTable.list_eq (t := t.executions) (q := q)
        (fun x hx => (ht.executions x hx).2.1.times _ List.mem_cons_self) hc
      refine agree_of_question ht (.executions (t.executions.wanted q)) ?_ ?_
      · show (((t.executions.list q).mapError Failure.time).map _ >>= _) = _
        rw [hlist]
        rfl
      · show (ExecutionRows.list t.executions.asRows q).map _ = _
        rw [ExecutionTable.list_as_rows (fun x hx => (ht.executions x hx).1) (ht.triggered.imp fun h => h.2) hc]
        show _ = Outcome.barring Stored.overrun q.overruns _
        cases q.overruns <;> rfl
  | count ruleId day =>
      obtain ⟨n, hn, hrows⟩ := ExecutionTable.count_as_rows (t := t.executions) ruleId hc fun x hx => by
        obtain ⟨_, hdated, hrange⟩ := ht.executions x hx
        exact ⟨hdated.times _ List.mem_cons_self, (Bool.or_eq_false_iff.mp hrange).1⟩
      refine agree_of_question ht (.number n) ?_ ?_
      · show (((t.executions.count ruleId day).mapError Failure.time).map _ >>= _) = _
        rw [hn]
        rfl
      · show (ExecutionRows.count t.executions.asRows ruleId day).map _ = _
        rw [hrows]
        show _ = Outcome.barring Stored.overrun (ExecutionTable.isLastDay day) _
        cases ExecutionTable.isLastDay day <;> rfl
  | lastStarted ruleId =>
      obtain ⟨last, hlast, hrows⟩ := ExecutionTable.last_started_as_rows (t := t.executions) ruleId fun x hx m hm =>
        (ht.executions x hx).2.1.times m (by
          simp only [Execution.times, List.mem_cons, List.mem_append, Option.mem_toList]
          exact .inr (.inl (.inl hm)))
      refine agree_of_question ht (.time last) ?_ ?_
      · show (((t.executions.lastStarted ruleId).mapError Failure.time).map _ >>= _) = _
        rw [hlast]
        rfl
      · show Except.ok (StoreReply.time (t.executions.asRows.lastStarted ruleId), t.database) = _
        rw [hrows]
        rfl

/-- A run of calls is answered alike. -/
theorem run_agrees {calls : List StoreCall} (ht : t.IsOrderly) (hproper : ∀ c ∈ calls, c.IsProper)
    (hfollow : calls.Pairwise StoreCall.Follows) (hprecede : ∀ c ∈ calls, t.Precede c) :
    Stores.run Stores.answer t.database calls =
      (Stores.run Stores.mimic t.memory calls).map (Except.map StoreReply.inUtc) := by
  induction calls generalizing t with
  | nil => rfl
  | cons c calls ih =>
      obtain ⟨hc, hproper⟩ := List.forall_mem_cons.mp hproper
      obtain ⟨hafter, hfollow⟩ := List.pairwise_cons.mp hfollow
      obtain ⟨hbefore, hprecede⟩ := List.forall_mem_cons.mp hprecede
      rw [Stores.run, Stores.run]
      obtain ⟨f, hmemory, hrows⟩ | ⟨reply, u, hmemory, hrows, hu, hrest⟩ := step ht hc hbefore
      · rw [hmemory, hrows]
        exact congrArg _ (ih ht hproper hfollow hprecede)
      · rw [hmemory, hrows]
        exact congrArg _ (ih hu hproper hfollow fun d hd => hrest d (hafter d hd) (hprecede d hd))

end Tables

namespace Stores

/-- A rule that does nothing. -/
def idle : Rule where
  name := "Idle"
  description := ""
  priority := 0
  isActive := true
  triggers := []
  conditions := []
  actions := []
  settings := .plain
  metadata := .plain
  tenantId := "acme"
  id := "rule_1"
  createdAt := ⟨3600000000, some 3600⟩
  updatedAt := ⟨3600000000, some 3600⟩

/-- An execution that was triggered with some data. -/
def triggeredWith (triggerData : Fields) : Execution where
  id := "exec_1"
  ruleId := "rule_1"
  tenantId := "acme"
  triggeredBy := "manual"
  triggeredAt := ⟨3600000000, some 3600⟩
  status := .pending
  startedAt := none
  completedAt := none
  duration := none
  triggerData := triggerData
  context := .empty
  steps := []
  error := none
  result := none

/-- A number is replaced by the truth value with the same content. -/
def blurring : List StoreCall :=
  [.createRule idle, .create (triggeredWith [("a", .int 1)]), .update (triggeredWith [("a", .bool true)]),
    .get "exec_1"]

end Stores

end Rulebook
