import Mathlib.Data.Nat.Digits.Defs
import Rulebook.Path

/-!
# Where paths lead

`Path.Leads u parts v` says that segments lead from a value to another, in an object by the name of a
field and in a list by the numeral of a position. Following segments finds the value they lead to
(`Path.follow_eq_some_iff`). It fails exactly where segments are stuck, that is if they lead to a list and
the next one looks like a numeral but is none that can be read (`Path.follow_eq_error_iff`); everywhere
else where a segment names nothing there is no value (`Path.follow_eq_none_iff`). What splitting a text at a
character makes of it, and that it undoes joining, comes first (`Path.split_at_intercalate`).
-/

namespace Rulebook

namespace Text

/-- A number in base ten, read from the most significant digit on. -/
theorem of_digits_cons_reverse (d : Nat) (ds : List Nat) (m : Nat) :
    10 ^ (d :: ds).length * m + Nat.ofDigits 10 (d :: ds).reverse =
      10 ^ ds.length * (10 * m + d) + Nat.ofDigits 10 ds.reverse := by
  rw [List.reverse_cons, Nat.ofDigits_append, List.length_reverse, Nat.ofDigits_singleton,
    List.length_cons, Nat.pow_succ]
  ring

/-- Characters stand for a number in base ten if all of them have decimal values. -/
theorem numeral_eq_some_iff {cs : List Char} {n : Nat} :
    numeral? cs = some n ↔
      ∃ ds : List Nat, cs.map decimalValue? = ds.map some ∧ Nat.ofDigits 10 ds.reverse = n := by
  -- the digits that are read already make up `m`
  have hfrom : ∀ (cs : List Char) (m : Nat),
      cs.foldlM (fun n c => (decimalValue? c).map (10 * n + ·)) m = some n ↔
        ∃ ds : List Nat, cs.map decimalValue? = ds.map some ∧
          10 ^ ds.length * m + Nat.ofDigits 10 ds.reverse = n := by
    intro cs
    induction cs with
    | nil =>
        intro m
        constructor
        · intro h
          exact ⟨[], rfl, by simpa using h⟩
        · rintro ⟨ds, hds, h⟩
          obtain rfl := List.map_eq_nil_iff.mp hds.symm
          simpa using h
    | cons c cs ih =>
        intro m
        rw [List.foldlM_cons]
        cases hc : decimalValue? c with
        | none =>
            refine iff_of_false nofun ?_
            rintro ⟨ds, hds, _⟩
            rw [List.map_cons, hc] at hds
            cases ds <;> cases hds
        | some d =>
            refine (ih (10 * m + d)).trans ⟨?_, ?_⟩
            · rintro ⟨ds, hds, h⟩
              refine ⟨d :: ds, by rw [List.map_cons, hc, hds, List.map_cons], ?_⟩
              rw [of_digits_cons_reverse, h]
            · rintro ⟨ds, hds, h⟩
              rw [List.map_cons, hc] at hds
              cases ds with
              | nil => cases hds
              | cons d' ds =>
                  obtain ⟨hd, hrest⟩ := List.cons.inj hds
                  obtain rfl := Option.some.inj hd
                  exact ⟨ds, hrest, of_digits_cons_reverse d ds m ▸ h⟩
  rw [numeral?, hfrom]
  simp

/-- Characters stand for no number exactly if one of them has no decimal value. -/
theorem numeral_eq_none_iff {cs : List Char} :
    numeral? cs = none ↔ ∃ c ∈ cs, decimalValue? c = none := by
  have hfrom : ∀ (cs : List Char) (m : Nat),
      cs.foldlM (fun n c => (decimalValue? c).map (10 * n + ·)) m = none ↔
        ∃ c ∈ cs, decimalValue? c = none := by
    intro cs
    induction cs with
    | nil => intro m; simp
    | cons c cs ih =>
        intro m
        rw [List.foldlM_cons]
        cases hc : decimalValue? c with
        | none => simp [hc]
        | some d => simpa [hc] using ih (10 * m + d)
  exact hfrom cs 0

end Text

namespace Path

/-! ### Texts split at a character -/

/-- A part between the separators has none, and its characters are those of the text. -/
theorem mem_split_at {separator : Char} {cs s : List Char} (h : s ∈ splitAt separator cs) :
    separator ∉ s ∧ ∀ c ∈ s, c ∈ cs := by
  induction cs generalizing s with
  | nil =>
      rw [splitAt, List.mem_singleton] at h
      rw [h]
      exact ⟨nofun, nofun⟩
  | cons c cs ih =>
      have hlater : ∀ {s}, s ∈ splitAt separator cs → separator ∉ s ∧ ∀ d ∈ s, d ∈ c :: cs :=
        fun hs => ⟨(ih hs).1, fun d hd => List.mem_cons_of_mem c ((ih hs).2 d hd)⟩
      rw [splitAt] at h
      split at h
      · obtain rfl | hs := List.mem_cons.mp h
        · exact ⟨nofun, nofun⟩
        · exact hlater hs
      next hc =>
        split at h
        · next first rest heq =>
            obtain rfl | hs := List.mem_cons.mp h
            · have hfirst := hlater (heq ▸ List.mem_cons_self : first ∈ splitAt separator cs)
              refine ⟨fun hmem => (List.mem_cons.mp hmem).elim (fun h => hc h.symm) hfirst.1, fun d hd => ?_⟩
              obtain rfl | hd := List.mem_cons.mp hd
              · exact List.mem_cons_self
              · exact hfirst.2 d hd
            · exact hlater (heq ▸ List.mem_cons_of_mem first hs)
        · obtain rfl := List.mem_singleton.mp h
          refine ⟨fun hmem => hc (List.mem_singleton.mp hmem).symm, fun d hd => ?_⟩
          exact List.mem_singleton.mp hd ▸ List.mem_cons_self

/-- A text without separators before another lengthens its first part. -/
theorem split_at_append {separator : Char} {s : List Char} (hs : separator ∉ s) {r first : List Char}
    {rest : List (List Char)} (hr : splitAt separator r = first :: rest) :
    splitAt separator (s ++ r) = (s ++ first) :: rest := by
  induction s with
  | nil => exact hr
  | cons c s ih =>
      have hc : c ≠ separator := fun heq => hs (heq ▸ List.mem_cons_self)
      rw [List.cons_append, splitAt, if_neg hc, ih fun hmem => hs (List.mem_cons_of_mem c hmem)]
      rfl

/-- Texts without separators are the parts of the text in which they are joined. -/
theorem split_at_intercalate {separator : Char} {l : List (List Char)} (hl : l ≠ [])
    (h : ∀ s ∈ l, separator ∉ s) : splitAt separator ([separator].intercalate l) = l := by
  induction l with
  | nil => exact absurd rfl hl
  | cons s l ih =>
      obtain ⟨hs, hrest⟩ := List.forall_mem_cons.mp h
      cases l with
      | nil =>
          rw [List.intercalate_singleton, ← List.append_nil s]
          rw [split_at_append hs rfl]
      | cons s' l =>
          have htail : splitAt separator (separator :: [separator].intercalate (s' :: l)) = [] :: s' :: l := by
            rw [splitAt, if_pos rfl, ih (List.cons_ne_nil _ _) hrest]
          rw [List.intercalate_cons_cons, List.append_assoc, List.singleton_append, split_at_append hs htail,
            List.append_nil]

/-- The characters of joined texts are theirs and the separator. -/
theorem mem_intercalate {separator c : Char} {l : List (List Char)} (h : c ∈ [separator].intercalate l) :
    c = separator ∨ ∃ s ∈ l, c ∈ s := by
  induction l with
  | nil => cases h
  | cons s l ih =>
      cases l with
      | nil =>
          rw [List.intercalate_singleton] at h
          exact .inr ⟨s, List.mem_singleton_self s, h⟩
      | cons s' l =>
          rw [List.intercalate_cons_cons, List.append_assoc, List.singleton_append] at h
          obtain hs | h := List.mem_append.mp h
          · exact .inr ⟨s, List.mem_cons_self, hs⟩
          obtain hc | h := List.mem_cons.mp h
          · exact .inl hc
          · exact (ih h).imp_right fun ⟨r, hr, hc⟩ => ⟨r, List.mem_cons_of_mem s hr, hc⟩

/-- Texts are those that their characters make. -/
theorem map_of_list (l : List String) : (l.map String.toList).map String.ofList = l := by
  rw [List.map_map, show String.ofList ∘ String.toList = id from funext fun _ => String.ofList_toList, List.map_id]

/-! ### Segments and what they name -/

/-- A segment looks like a numeral: it consists of digits, with a decimal value or without. -/
def LooksNumeral (s : String) : Prop :=
  s.toList ≠ [] ∧ ∀ c ∈ s.toList, Text.isDigitSign c = true

/-- A segment is the numeral of a position: it consists of decimal digits, not too many of them, and these
stand for the position. -/
def IsNumeral (s : String) (n : Nat) : Prop :=
  s.toList ≠ [] ∧ s.toList.length ≤ maxDigits ∧
    ∃ ds : List Nat, s.toList.map Text.decimalValue? = ds.map some ∧ Nat.ofDigits 10 ds.reverse = n

/-- A segment that looks like a numeral is none that can be read: one of its digits has no decimal value,
or it has too many digits. -/
inductive Misread (s : String) : NumberFault → Prop where
  | noDecimalValue : LooksNumeral s → (∃ c ∈ s.toList, Text.decimalValue? c = none) →
      Misread s (.noDecimalValue s)
  | tooManyDigits : LooksNumeral s → (∀ c ∈ s.toList, Text.decimalValue? c ≠ none) →
      maxDigits < s.toList.length → Misread s (.tooManyDigits s.toList.length)

/-- What a segment names in a value. -/
inductive Names : Value → String → Value → Prop where
  | field {fs : Fields} {s : String} {v : Value} : Fields.get? fs s = some v → Names (.object fs) s v
  | item {items : List Value} {s : String} {n : Nat} {v : Value} :
      IsNumeral s n → items[n]? = some v → Names (.list items) s v

/-- Segments lead from a value to another. -/
inductive Leads : Value → List String → Value → Prop where
  | here (v : Value) : Leads v [] v
  | step {u v w : Value} {s : String} {rest : List String} :
      Names u s v → Leads v rest w → Leads u (s :: rest) w

/-- Segments lead to a list, and the next one looks like a numeral but is none that can be read. -/
def Stuck (u : Value) (parts : List String) (f : NumberFault) : Prop :=
  ∃ before s after items, parts = before ++ s :: after ∧ Leads u before (.list items) ∧ Misread s f

/-- Segments lead to a value in which the next one names nothing, and that one is not misread. -/
def Lost (u : Value) (parts : List String) : Prop :=
  ∃ before s after v, parts = before ++ s :: after ∧ Leads u before v ∧ (∀ w, ¬Names v s w) ∧
    ∀ items, v = .list items → ∀ f, ¬Misread s f

/-- The numeral of a position looks like one. -/
theorem IsNumeral.looks {s : String} {n : Nat} (h : IsNumeral s n) : LooksNumeral s := by
  obtain ⟨hne, _, ds, hds, _⟩ := h
  refine ⟨hne, fun c hc => ?_⟩
  have hvalue : Text.decimalValue? c ∈ ds.map some := hds ▸ List.mem_map_of_mem hc
  obtain ⟨d, _, hd⟩ := List.mem_map.mp hvalue
  rw [Text.isDigitSign, Text.isDecimal, ← hd]
  rfl

/-- A segment that does not look like a numeral has no position. -/
theorem index_of_not_looks {s : String} (h : ¬LooksNumeral s) : index? s = .ok none := by
  have hnot : (s.toList.isEmpty || !s.toList.all Text.isDigitSign) = true := by
    by_contra hfalse
    refine h ?_
    simpa [LooksNumeral] using hfalse
  rw [index?, if_pos hnot]

/-- The position of a segment that looks like a numeral. -/
theorem index_of_looks {s : String} (h : LooksNumeral s) :
    index? s = match Text.numeral? s.toList with
      | none => .error (.noDecimalValue s)
      | some n => if maxDigits < s.toList.length then .error (.tooManyDigits s.toList.length)
        else .ok (some n) := by
  have hnot : ¬(s.toList.isEmpty || !s.toList.all Text.isDigitSign) = true := by
    simpa [LooksNumeral] using h
  unfold index?
  exact if_neg hnot

/-- A segment has a position exactly if it is the numeral of it. -/
theorem index_eq_some_iff {s : String} {n : Nat} : index? s = .ok (some n) ↔ IsNumeral s n := by
  by_cases hlooks : LooksNumeral s
  · rw [index_of_looks hlooks, IsNumeral, ← Text.numeral_eq_some_iff]
    cases hnumeral : Text.numeral? s.toList with
    | none => simp
    | some m =>
        dsimp only
        split <;> simp [hlooks.1] <;> omega
  · rw [index_of_not_looks hlooks]
    exact iff_of_false nofun fun h => hlooks h.looks

/-- The position of a segment cannot be told exactly if the segment is misread. -/
theorem index_eq_error_iff {s : String} {f : NumberFault} : index? s = .error f ↔ Misread s f := by
  by_cases hlooks : LooksNumeral s
  · rw [index_of_looks hlooks]
    cases hnumeral : Text.numeral? s.toList with
    | none =>
        have hvalue := Text.numeral_eq_none_iff.mp hnumeral
        constructor
        · intro h
          rw [← Except.error.inj h]
          exact .noDecimalValue hlooks hvalue
        · rintro (_ | ⟨_, hall⟩)
          · rfl
          · obtain ⟨c, hc, hnone⟩ := hvalue
            exact absurd hnone (hall c hc)
    | some n =>
        have hall : ∀ c ∈ s.toList, Text.decimalValue? c ≠ none := by
          intro c hc hnone
          cases hnumeral.symm.trans (Text.numeral_eq_none_iff.mpr ⟨c, hc, hnone⟩)
        dsimp only
        split
        next hlong =>
          constructor
          · intro h
            rw [← Except.error.inj h]
            exact .tooManyDigits hlooks hall hlong
          · rintro (⟨_, c, hc, hnone⟩ | _)
            · exact absurd hnone (hall c hc)
            · rfl
        next hshort =>
          refine iff_of_false nofun ?_
          rintro (⟨_, c, hc, hnone⟩ | ⟨_, _, hlong⟩)
          · exact hall c hc hnone
          · exact hshort hlong
  · rw [index_of_not_looks hlooks]
    refine iff_of_false nofun ?_
    rintro (⟨hl, _⟩ | ⟨hl, _⟩) <;> exact hlooks hl

/-- Following segments goes on from the value that the first ones lead to. -/
theorem follow_append {u v : Value} {before : List String} (h : Leads u before v)
    (after : List String) : follow (before ++ after) u = follow after v := by
  induction h with
  | here v => rfl
  | step hnames _ ih =>
      rw [← ih]
      cases hnames with
      | field hv => rw [List.cons_append, follow, hv]
      | item hn hv =>
          rw [List.cons_append, follow, index_eq_some_iff.mpr hn]
          dsimp only [bind, Except.bind]
          rw [hv]

/-- Segments lead to a value, or they lead to one in which the next segment names nothing. -/
theorem leads_or_breaks (parts : List String) (u : Value) :
    (∃ v, Leads u parts v) ∨
      ∃ before s after v, parts = before ++ s :: after ∧ Leads u before v ∧ ∀ w, ¬Names v s w := by
  induction parts generalizing u with
  | nil => exact .inl ⟨u, .here u⟩
  | cons s rest ih =>
      by_cases hnames : ∃ v, Names u s v
      · obtain ⟨v, hv⟩ := hnames
        obtain ⟨w, hw⟩ | ⟨before, t, after, w, rfl, hw, hnone⟩ := ih v
        · exact .inl ⟨w, .step hv hw⟩
        · exact .inr ⟨s :: before, t, after, w, rfl, .step hv hw, hnone⟩
      · exact .inr ⟨[], s, rest, u, rfl, .here u, not_exists.mp hnames⟩

/-- Following a segment that is misread for a list fails. -/
theorem follow_of_misread {s : String} {f : NumberFault} (h : Misread s f) (items : List Value)
    (after : List String) : follow (s :: after) (.list items) = .error f := by
  rw [follow, index_eq_error_iff.mpr h]
  rfl

/-- Following a segment that names nothing and is not misread finds nothing. -/
theorem follow_of_nameless {s : String} {v : Value} (hnone : ∀ w, ¬Names v s w)
    (hread : ∀ items, v = .list items → ∀ f, ¬Misread s f) (after : List String) :
    follow (s :: after) v = .ok none := by
  cases v with
  | object fs =>
      cases hfield : Fields.get? fs s with
      | none => rw [follow, hfield]
      | some w => exact absurd (.field hfield) (hnone w)
  | list items =>
      cases hindex : index? s with
      | error f => exact absurd (index_eq_error_iff.mp hindex) (hread items rfl f)
      | ok n? =>
          rw [follow, hindex]
          cases n? with
          | none => rfl
          | some n =>
              cases hitem : items[n]? with
              | none =>
                  dsimp only [bind, Except.bind]
                  rw [hitem]
              | some w => exact absurd (.item (index_eq_some_iff.mp hindex) hitem) (hnone w)
  | _ => rfl

/-- Segments lead to a value, are stuck or are lost, and following them tells which. -/
theorem follow_cases (parts : List String) (u : Value) :
    (∃ v, Leads u parts v ∧ follow parts u = .ok (some v)) ∨
      (∃ f, Stuck u parts f ∧ follow parts u = .error f) ∨ Lost u parts ∧ follow parts u = .ok none := by
  obtain ⟨v, hv⟩ | ⟨before, s, after, v, rfl, hv, hnone⟩ := leads_or_breaks parts u
  · have hfollow := follow_append hv []
    rw [List.append_nil] at hfollow
    exact .inl ⟨v, hv, hfollow⟩
  · by_cases hread : ∀ items, v = .list items → ∀ f, ¬Misread s f
    · exact .inr (.inr ⟨⟨before, s, after, v, rfl, hv, hnone, hread⟩,
        (follow_append hv _).trans (follow_of_nameless hnone hread after)⟩)
    · push Not at hread
      obtain ⟨items, rfl, f, hf⟩ := hread
      exact .inr (.inl ⟨f, ⟨before, s, after, items, rfl, hv, hf⟩,
        (follow_append hv _).trans (follow_of_misread hf items after)⟩)

variable {u : Value} {parts : List String}

/-- Following segments finds the value that they lead to. -/
theorem follow_eq_some_iff {v : Value} : follow parts u = .ok (some v) ↔ Leads u parts v := by
  constructor
  · intro h
    obtain ⟨w, hw, hfollow⟩ | ⟨f, _, hfollow⟩ | ⟨_, hfollow⟩ := follow_cases parts u
    · rw [h] at hfollow
      obtain rfl := Option.some.inj (Except.ok.inj hfollow)
      exact hw
    · cases h.symm.trans hfollow
    · cases h.symm.trans hfollow
  · intro h
    have hfollow := follow_append h []
    rwa [List.append_nil] at hfollow

/-- Following segments fails exactly if they are stuck. -/
theorem follow_eq_error_iff {f : NumberFault} : follow parts u = .error f ↔ Stuck u parts f := by
  constructor
  · intro h
    obtain ⟨_, _, hfollow⟩ | ⟨g, hg, hfollow⟩ | ⟨_, hfollow⟩ := follow_cases parts u
    · cases h.symm.trans hfollow
    · rw [h] at hfollow
      rwa [Except.error.inj hfollow]
    · cases h.symm.trans hfollow
  · rintro ⟨before, s, after, items, rfl, hlead, hmisread⟩
    exact (follow_append hlead _).trans (follow_of_misread hmisread items after)

/-- Following segments finds nothing exactly if they are lost. -/
theorem follow_eq_none_iff : follow parts u = .ok none ↔ Lost u parts := by
  constructor
  · intro h
    obtain ⟨_, _, hfollow⟩ | ⟨_, _, hfollow⟩ | ⟨hlost, _⟩ := follow_cases parts u
    · cases h.symm.trans hfollow
    · cases h.symm.trans hfollow
    · exact hlost
  · rintro ⟨before, s, after, v, rfl, hlead, hnone, hread⟩
    exact (follow_append hlead _).trans (follow_of_nameless hnone hread after)

variable {data : Value} {path : String}

/-- There is a value at a path if its segments lead to it. -/
theorem resolve_eq_some_iff {v : Value} :
    resolve data path = .ok (some v) ↔ ∃ parts, segments path = .ok parts ∧ Leads data parts v := by
  simp only [← follow_eq_some_iff]
  rw [resolve]
  cases segments path with
  | error g => simp
  | ok parts => cases hfollow : follow parts data <;> simp [Except.mapError, hfollow]

/-- There is nothing at a path if its segments are lost. -/
theorem resolve_eq_none_iff :
    resolve data path = .ok none ↔ ∃ parts, segments path = .ok parts ∧ Lost data parts := by
  simp only [← follow_eq_none_iff]
  rw [resolve]
  cases segments path with
  | error g => simp
  | ok parts => cases hfollow : follow parts data <;> simp [Except.mapError, hfollow]

/-- A path is malformed if it has no segments. -/
theorem resolve_eq_path_error_iff {e : PathError} :
    resolve data path = .error (.path e) ↔ segments path = .error e := by
  rw [resolve]
  cases segments path with
  | error g => simp
  | ok parts => cases hfollow : follow parts data <;> simp [Except.mapError, hfollow]

/-- A path cannot be followed if its segments are stuck. -/
theorem resolve_eq_index_error_iff {f : NumberFault} :
    resolve data path = .error (.index f) ↔ ∃ parts, segments path = .ok parts ∧ Stuck data parts f := by
  simp only [← follow_eq_error_iff]
  rw [resolve]
  cases segments path with
  | error g => simp
  | ok parts => cases hfollow : follow parts data <;> simp [Except.mapError, hfollow]

end Path

end Rulebook
