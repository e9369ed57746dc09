import Rulebook.Proofs.Outcome
import Rulebook.Proofs.Store.Keyed

/-!
# Rules in a store

A store keeps one entry for each rule, of which the rule is read again. While it gives back every rule that
is written (`RuleStore.Returns`), a created or updated rule is held beside the others
(`RuleStore.create_holds`, `RuleStore.update_holds`), and the list of all rules are those that are held
(`RuleStore.list_holds`).
-/

namespace Rulebook

/-- Two versions of a rule are registered alike: only the rest of the definition and the metadata may
differ. -/
structure Rule.SameUse (q r : Rule) : Prop where
  id : q.id = r.id
  priority : q.priority = r.priority
  isActive : q.isActive = r.isActive
  triggers : q.triggers = r.triggers
  changed : q.updatedAt.instant = r.updatedAt.instant

namespace Rule.SameUse

variable {p q r : Rule}

/-- A rule is registered like itself. -/
theorem refl (r : Rule) : r.SameUse r := ⟨rfl, rfl, rfl, rfl, rfl⟩

/-- To be registered alike goes both ways. -/
theorem symm (h : q.SameUse r) : r.SameUse q :=
  ⟨h.id.symm, h.priority.symm, h.isActive.symm, h.triggers.symm, h.changed.symm⟩

/-- What is registered like a version that is registered like another one is registered like that. -/
theorem trans (h : p.SameUse q) (h' : q.SameUse r) : p.SameUse r :=
  ⟨h.id.trans h'.id, h.priority.trans h'.priority, h.isActive.trans h'.isActive,
    h.triggers.trans h'.triggers, h.changed.trans h'.changed⟩

/-- Versions that are registered alike have the same triggers in use. -/
theorem enabled_triggers (h : q.SameUse r) : q.enabledTriggers = r.enabledTriggers := by
  unfold enabledTriggers
  rw [h.triggers]

end Rule.SameUse

namespace RuleStore

/-- What a store keeps, by identifier: what is read of each rule. -/
def entries : RuleStore → List (String × Outcome Rule)
  | memory t => t.rules.map fun r => (r.id, .ok r)
  | sql t => t.rows.map fun row => (row.id, row.toRule)

/-- A store holds a rule: the rule is what is read of one of the entries. -/
def Holds (s : RuleStore) (r : Rule) : Prop := (r.id, .ok r) ∈ s.entries

/-- A store gives back a rule that is written, in a version that is registered alike. In memory the rule
itself is kept, in a database the row of it that is written over the old one. -/
def Returns : RuleStore → Rule → Prop
  | memory _, _ => True
  | sql t, r => ∀ row, t.written r = .ok row → ∃ q, row.toRule = .ok q ∧ q.SameUse r

/-- Each identifier has one entry, and the rule of it can be read. -/
structure IsSound (s : RuleStore) : Prop where
  nodup : (s.entries.map (·.1)).Nodup
  read : ∀ e ∈ s.entries, ∃ r, e.2 = .ok r ∧ r.id = e.1

/-- A store holds nothing. -/
def IsEmpty (s : RuleStore) : Prop := s.entries = []

/-- One store holds a version of a rule instead of what another holds under its identifier. -/
def Replaces (s s' : RuleStore) (r : Rule) : Prop :=
  ∃ q, q.SameUse r ∧ ∀ p, s'.Holds p ↔ s.Holds p ∧ p.id ≠ r.id ∨ p = q

variable {s s' : RuleStore} {q r : Rule} {id : String} {f : Failure}

/-- What is read of an entry that is made for a rule is a version that is registered alike. -/
def Entered (s : RuleStore) (r : Rule) (e : String × Outcome Rule) : Prop :=
  e.1 = r.id ∧ (s.Returns r → ∃ q, e.2 = .ok q ∧ q.SameUse r)

/-- The row of a rule has its identifier and its tenant. -/
theorem row_of_rule_owner {row : RuleRow} (h : RuleRow.ofRule r = .ok row) :
    row.id = r.id ∧ row.tenantId = r.tenantId := by
  unfold RuleRow.ofRule at h
  obtain ⟨_, _, h⟩ := Outcome.bind_eq_ok.mp h
  obtain ⟨_, _, h⟩ := Outcome.bind_eq_ok.mp h
  obtain ⟨_, _, h⟩ := Outcome.bind_eq_ok.mp h
  cases h
  exact ⟨rfl, rfl⟩

/-- The row that is kept of a rule has its identifier and its tenant. -/
theorem written_rule_owner {t : RuleRows} {row : RuleRow} (h : t.written r = .ok row) :
    row.id = r.id ∧ row.tenantId = r.tenantId := by
  obtain ⟨new, hnew, rfl⟩ := Outcome.map_eq_ok.mp h
  have howner := row_of_rule_owner hnew
  cases t.row? r.id <;> exact howner

/-- Nothing is found where no entry has the identifier. -/
theorem forall_ne_of_find {α : Type} {l : List α} {key : α → String}
    (h : ¬(l.find? (key · == id)).isSome = true) : ∀ a ∈ l, key a ≠ id := by
  rw [Option.not_isSome_iff_eq_none, List.find?_eq_none] at h
  exact fun a ha => by simpa using h a ha

/-- A rule is created under an identifier that has no entry yet. -/
theorem create_entries (h : s.create r = .ok s') :
    (∀ e ∈ s.entries, e.1 ≠ r.id) ∧ ∃ e, s.Entered r e ∧ s'.entries = s.entries ++ [e] := by
  cases s with
  | memory t =>
      obtain ⟨t', ht, rfl⟩ := Outcome.map_eq_ok.mp h
      unfold RuleTable.create at ht
      split at ht
      next => cases ht
      next hnone =>
        cases ht
        refine ⟨?_, (r.id, .ok r), ⟨rfl, fun _ => ⟨r, rfl, .refl r⟩⟩, ?_⟩
        · intro e he
          obtain ⟨q, hq, rfl⟩ := List.mem_map.mp he
          exact forall_ne_of_find hnone q hq
        · exact List.map_append
  | sql t =>
      obtain ⟨t', ht, rfl⟩ := Outcome.map_eq_ok.mp h
      unfold RuleRows.create at ht
      split at ht
      next => cases ht
      next hnone =>
        obtain ⟨row, hrow, rfl⟩ := Outcome.map_eq_ok.mp ht
        have hkept : t.written r = .ok row := by
          rw [RuleRows.written, hrow, Option.not_isSome_iff_eq_none.mp hnone]
          rfl
        refine ⟨?_, (row.id, row.toRule), ⟨(written_rule_owner hkept).1, fun hreturns => hreturns row hkept⟩, ?_⟩
        · intro e he
          obtain ⟨q, hq, rfl⟩ := List.mem_map.mp he
          exact forall_ne_of_find hnone q hq
        · exact List.map_append

/-- A rule is updated under an identifier that has an entry. -/
theorem update_entries (h : s.update r = .ok s') :
    (∃ e ∈ s.entries, e.1 = r.id) ∧ ∃ e, s.Entered r e ∧
      s'.entries = s.entries.map fun old => if old.1 == r.id then e else old := by
  cases s with
  | memory t =>
      obtain ⟨t', ht, rfl⟩ := Outcome.map_eq_ok.mp h
      unfold RuleTable.update at ht
      split at ht
      next hsome =>
        cases ht
        obtain ⟨q, hq⟩ := Option.isSome_iff_exists.mp hsome
        obtain ⟨hmem, hid⟩ := Keyed.mem_of_find hq
        refine ⟨⟨(q.id, .ok q), List.mem_map.mpr ⟨q, hmem, rfl⟩, hid⟩,
          (r.id, .ok r), ⟨rfl, fun _ => ⟨r, rfl, .refl r⟩⟩, ?_⟩
        simp only [entries, List.map_map]
        refine List.map_congr_left fun p _ => ?_
        dsimp only [Function.comp]
        split <;> rfl
      next => cases ht
  | sql t =>
      obtain ⟨t', ht, rfl⟩ := Outcome.map_eq_ok.mp h
      unfold RuleRows.update at ht
      split at ht
      next hsome =>
        obtain ⟨row, hrow, rfl⟩ := Outcome.map_eq_ok.mp ht
        obtain ⟨old, hold⟩ := Option.isSome_iff_exists.mp hsome
        obtain ⟨hmem, hid⟩ := Keyed.mem_of_find hold
        refine ⟨⟨(old.id, old.toRule), List.mem_map.mpr ⟨old, hmem, rfl⟩, hid⟩,
          (row.id, row.toRule), ⟨(written_rule_owner hrow).1, fun hreturns => hreturns row hrow⟩, ?_⟩
        simp only [entries, List.map_map]
        refine List.map_congr_left fun p _ => ?_
        dsimp only [Function.comp]
        split <;> rfl
      next => cases ht

/-- A rule that is got under an identifier is held and has that identifier. -/
theorem holds_of_get (hs : s.IsSound) (h : s.get id = .ok (some r)) : s.Holds r ∧ r.id = id := by
  cases s with
  | memory t =>
      obtain ⟨hmem, hid⟩ := Keyed.mem_of_find (Except.ok.inj h)
      exact ⟨List.mem_map.mpr ⟨r, hmem, rfl⟩, hid⟩
  | sql t =>
      obtain ⟨row, hrow, hr⟩ := Outcome.made_eq_ok_iff.mp h
      obtain ⟨hmem, hid⟩ := Keyed.mem_of_find hrow
      have hentry : (row.id, row.toRule) ∈ (sql t).entries := List.mem_map.mpr ⟨row, hmem, rfl⟩
      obtain ⟨q, hread, hqid⟩ := hs.read _ hentry
      cases hr.symm.trans hread
      refine ⟨?_, hqid.trans hid⟩
      unfold Holds
      rwa [hqid, ← hr]

/-- Rules that are held under one identifier are one rule. -/
theorem eq_of_holds {p : Rule} (hs : s.IsSound) (hp : s.Holds p) (hq : s.Holds q) (hid : p.id = q.id) :
    p = q := by
  have heq := List.inj_on_of_nodup_map hs.nodup hp hq hid
  rw [Prod.mk.injEq, Except.ok.injEq] at heq
  exact heq.2

/-- The entries of a store are those of another one, but for the entry of a rule. -/
theorem replaces_of_entries {e : String × Outcome Rule} (hs : s.IsSound) (he : s.Entered r e)
    (hr : s.Returns r) (h : ∀ d, d ∈ s'.entries ↔ d ∈ s.entries ∧ d.1 ≠ r.id ∨ d = e) :
    s.Replaces s' r ∧ ∀ d ∈ s'.entries, ∃ q, d.2 = .ok q ∧ q.id = d.1 := by
  obtain ⟨hid, hread⟩ := he
  obtain ⟨q, hq, hsame⟩ := hread hr
  obtain ⟨k, out⟩ := e
  dsimp only at hid hq
  subst hid hq
  refine ⟨⟨q, hsame, fun p => (h _).trans (or_congr_right ?_)⟩, fun d hd => ?_⟩
  · rw [Prod.mk.injEq, Except.ok.injEq]
    exact ⟨fun heq => heq.2, fun heq => ⟨heq ▸ hsame.id, heq⟩⟩
  · obtain ⟨hold, _⟩ | rfl := (h d).mp hd
    · exact hs.read d hold
    · exact ⟨q, rfl, hsame.id⟩

/-- A created rule is held beside the others. -/
theorem create_holds (hs : s.IsSound) (h : s.create r = .ok s') (hr : s.Returns r) :
    s'.IsSound ∧ s.Replaces s' r := by
  obtain ⟨hnew, e, he, heq⟩ := create_entries h
  have hentries : ∀ d, d ∈ s'.entries ↔ d ∈ s.entries ∧ d.1 ≠ r.id ∨ d = e := fun d => by
    rw [heq, List.mem_append, List.mem_singleton]
    exact or_congr_left (and_iff_left_of_imp fun hd => hnew d hd).symm
  obtain ⟨hreplaces, hread⟩ := replaces_of_entries hs he hr hentries
  refine ⟨⟨?_, hread⟩, hreplaces⟩
  rw [heq]
  exact Keyed.nodup_add hs.nodup fun d hd => he.1 ▸ hnew d hd

/-- An updated rule is held instead of its former version. -/
theorem update_holds (hs : s.IsSound) (h : s.update r = .ok s') (hr : s.Returns r) :
    s'.IsSound ∧ s.Replaces s' r := by
  obtain ⟨⟨old, hold, hid⟩, e, he, heq⟩ := update_entries h
  have hkeys : (s.entries.map fun d => if d.1 == r.id then e else d).map (·.1) = s.entries.map (·.1) := by
    rw [List.map_map]
    refine List.map_congr_left fun d _ => ?_
    dsimp only [Function.comp]
    split
    next hd => exact he.1.trans (beq_iff_eq.mp hd).symm
    next => rfl
  have hentries : ∀ d, d ∈ s'.entries ↔ d ∈ s.entries ∧ d.1 ≠ r.id ∨ d = e := fun d => by
    rw [heq, List.mem_map]
    constructor
    · rintro ⟨c, hc, rfl⟩
      split
      next => exact .inr rfl
      next hne => exact .inl ⟨hc, by simpa using hne⟩
    · rintro (⟨hd, hne⟩ | rfl)
      · exact ⟨d, hd, if_neg (by simpa using hne)⟩
      · exact ⟨old, hold, if_pos (by simpa using hid)⟩
  obtain ⟨hreplaces, hread⟩ := replaces_of_entries hs he hr hentries
  exact ⟨⟨by rw [heq, hkeys]; exact hs.nodup, hread⟩, hreplaces⟩

/-- The rules that are read of rows are those that can be read of one of them. -/
theorem mem_read_iff {rows : List RuleRow} {l : List Rule}
    (h : List.Forall₂ (fun row q => row.toRule = .ok q) rows l) :
    r ∈ l ↔ ∃ row ∈ rows, row.toRule = .ok r := by
  induction h with
  | nil => simp
  | @cons row q rows l hrow _ ih =>
      rw [List.mem_cons, ih, List.exists_mem_cons_iff, hrow, Except.ok.injEq, eq_comm]

/-- The rules that are read of rows have the identifiers of the rows. -/
theorem ids_of_read {rows : List RuleRow} {l : List Rule}
    (h : List.Forall₂ (fun row q => row.toRule = .ok q) rows l)
    (hread : ∀ row ∈ rows, ∀ q, row.toRule = .ok q → q.id = row.id) :
    l.map (·.id) = rows.map (·.id) := by
  induction h with
  | nil => rfl
  | cons hrow _ ih =>
      obtain ⟨hid, hrest⟩ := List.forall_mem_cons.mp hread
      rw [List.map_cons, List.map_cons, hid _ hrow, ih hrest]

/-- The list of all rules are those that the store holds, each once. -/
theorem list_holds (hs : s.IsSound) :
    ∃ l, s.list none = .ok l ∧ (∀ r, r ∈ l ↔ s.Holds r) ∧ (l.map (·.id)).Nodup := by
  cases s with
  | memory t =>
      refine ⟨t.rules, rfl, fun r => ?_, ?_⟩
      · unfold Holds entries
        simp
      · have hnodup := hs.nodup
        unfold entries at hnodup
        rwa [List.map_map] at hnodup
  | sql t =>
      have hread : ∀ row ∈ t.rows, ∃ r, row.toRule = .ok r ∧ r.id = row.id := fun row hrow =>
        hs.read (row.id, row.toRule) (List.mem_map.mpr ⟨row, hrow, rfl⟩)
      have hid : ∀ row ∈ t.rows, ∀ q, row.toRule = .ok q → q.id = row.id := by
        intro row hrow q hq
        obtain ⟨r, hr, hid⟩ := hread row hrow
        cases hq.symm.trans hr
        exact hid
      have hnodup := hs.nodup
      unfold entries at hnodup
      rw [List.map_map] at hnodup
      have hperm := List.mergeSort_perm t.rows fun a b =>
        isEarlier (a.createdAt.instant, a.id) (b.createdAt.instant, b.id)
      obtain ⟨l, hl⟩ := Outcome.map_eq_ok_of_forall (f := RuleRow.toRule) fun row hrow =>
        (hread row (hperm.mem_iff.mp hrow)).imp fun _ h => h.1
      have hall : t.rows.filter (fun row => ((none : Option String).map (· == row.tenantId)).getD true) =
          t.rows := List.filter_true _
      have heach := Outcome.forall_of_map_eq_ok hl
      refine ⟨l, ?_, fun r => ?_, ?_⟩
      · unfold list RuleRows.list
        dsimp only
        rw [hall]
        exact hl
      · rw [mem_read_iff heach]
        unfold Holds entries
        simp only [List.mem_map, hperm.mem_iff, Prod.mk.injEq]
        exact ⟨fun ⟨row, hrow, hr⟩ => ⟨row, hrow, (hid row hrow r hr).symm, hr⟩,
          fun ⟨row, hrow, _, hr⟩ => ⟨row, hrow, hr⟩⟩
      · rw [ids_of_read heach fun row hrow => hid row (hperm.mem_iff.mp hrow)]
        exact (hperm.map _).nodup_iff.mpr hnodup

/-- A store that holds nothing is sound. -/
theorem IsEmpty.sound (h : s.IsEmpty) : s.IsSound := by
  rw [IsEmpty] at h
  exact ⟨by simp [h], by simp [h]⟩

/-- A store that is empty holds no rule. -/
theorem IsEmpty.not_holds (h : s.IsEmpty) (r : Rule) : ¬s.Holds r := by
  rw [IsEmpty] at h
  rw [Holds, h]
  exact List.not_mem_nil

end RuleStore

end Rulebook
