import Rulebook.Proofs.EventType

/-!
# Names with stars

A trigger's name becomes a pattern: all its characters are escaped, and each escaped star is then made
into a run of characters of one line. `Pattern.Glob` says which texts a name with stars stands for, without
patterns; `Pattern.accepts_pattern_iff` is the agreement of the two, and `EventType.is_match_iff` says which
events a trigger reacts to.
-/

namespace Rulebook

namespace Pattern

/-- `Glob name text` says that a name with stars stands for a text: each star in it for a run of characters
of one line, possibly an empty one, and any other character for itself. -/
inductive Glob : List Char → List Char → Prop where
  | done : Glob [] []
  | star {name run text} (hline : '\n' ∉ run) (hrest : Glob name text) :
      Glob ('*' :: name) (run ++ text)
  | char {c name text} (hc : c ≠ '*') (hrest : Glob name text) : Glob (c :: name) (c :: text)

/-- What a name stands for that begins with a star. -/
theorem glob_star_iff {name text : List Char} :
    Glob ('*' :: name) text ↔ ∃ run rest, text = run ++ rest ∧ '\n' ∉ run ∧ Glob name rest := by
  constructor
  · intro h
    cases h with
    | star hline hrest => exact ⟨_, _, rfl, hline, hrest⟩
    | char hc => exact absurd rfl hc
  · rintro ⟨run, rest, rfl, hline, hrest⟩
    exact .star hline hrest

/-- What a name stands for that begins with another character. -/
theorem glob_cons_iff {c : Char} {name text : List Char} (hc : c ≠ '*') :
    Glob (c :: name) text ↔ ∃ rest, text = c :: rest ∧ Glob name rest := by
  constructor
  · intro h
    cases h with
    | star => exact absurd rfl hc
    | char _ hrest => exact ⟨_, rfl, hrest⟩
  · rintro ⟨rest, rfl, hrest⟩
    exact .char hc hrest

/-- A name without stars stands for itself alone. -/
theorem glob_iff_eq {name text : List Char} (h : '*' ∉ name) : Glob name text ↔ name = text := by
  induction name generalizing text with
  | nil => exact ⟨fun hglob => by cases hglob; rfl, fun heq => heq ▸ .done⟩
  | cons c name ih =>
      have hc : c ≠ '*' := fun heq => h (heq ▸ List.mem_cons_self)
      have hname : '*' ∉ name := fun hmem => h (List.mem_cons_of_mem c hmem)
      rw [glob_cons_iff hc]
      constructor
      · rintro ⟨rest, rfl, hrest⟩
        rw [(ih hname).mp hrest]
      · rintro rfl
        exact ⟨name, rfl, (ih hname).mpr rfl⟩

/-! ### The pattern of a name -/

/-- What stands for a character of a name in its pattern. -/
def opened (c : Char) : List Char :=
  if c = '*' then ['.', '*'] else if special.contains c then ['\\', c] else [c]

/-- An escaped text does not begin with a star. -/
theorem escape_head_ne (text : List Char) : (escape text).head? ≠ some '*' := by
  cases text with
  | nil => simp [escape]
  | cons c text =>
      rw [escape]
      split
      · simp
      · next h =>
          intro hstar
          obtain rfl := Option.some.inj hstar
          exact h (by decide)

/-- A character that is no backslash before a star stays where stars are opened. -/
theorem open_stars_cons {c : Char} {r : List Char} (h : c = '\\' → r.head? ≠ some '*') :
    openStars (c :: r) = c :: openStars r := by
  rw [openStars.eq_def]
  split
  · next heq =>
      obtain ⟨rfl, rfl⟩ := List.cons.inj heq
      exact absurd rfl (h rfl)
  · next heq =>
      obtain ⟨rfl, rfl⟩ := List.cons.inj heq
      rfl
  · next heq => cases heq

/-- Stars are opened character by character: the backslash of an escaped backslash is not taken for that of
a star behind it. -/
theorem open_stars_escape (text : List Char) : openStars (escape text) = text.flatMap opened := by
  induction text with
  | nil => rfl
  | cons c text ih =>
      rw [escape, List.flatMap_cons, opened]
      by_cases hstar : c = '*'
      · rw [if_pos hstar, if_pos (by rw [hstar]; decide), hstar, openStars, ih]
        rfl
      rw [if_neg hstar]
      split
      · have hhead : (c :: escape text).head? ≠ some '*' := fun heq => hstar (Option.some.inj heq)
        rw [open_stars_cons fun _ => hhead, open_stars_cons fun _ => escape_head_ne text, ih]
        rfl
      · rw [open_stars_cons fun _ => escape_head_ne text, ih]
        rfl

/-- The signs that stand for a character of a name. -/
def signsOf (c : Char) : List Sign := if c = '*' then [.any, .star] else [.itself c]

/-- A character without another meaning stands for itself. -/
theorem signs_cons_of_plain {c : Char} (h : special.contains c = false) (r : List Char) :
    signs (c :: r) = .itself c :: signs r := by
  have hne : ∀ d : Char, special.contains d = true → c ≠ d := by
    rintro d hd rfl
    rw [h] at hd
    cases hd
  have hsign : Sign.ofChar c = .itself c := by
    rw [Sign.ofChar, if_neg (hne _ (by decide)), if_neg (hne _ (by decide)), h]
    rfl
  rw [signs, hsign]
  rintro d s heq _
  exact hne '\\' (by decide) heq

/-- The signs of a name's pattern are those of its characters. -/
theorem signs_opened (text : List Char) : signs (text.flatMap opened) = text.flatMap signsOf := by
  induction text with
  | nil => rfl
  | cons c text ih =>
      rw [List.flatMap_cons, List.flatMap_cons, ← ih, opened, signsOf]
      by_cases hstar : c = '*'
      · rw [if_pos hstar, if_pos hstar]
        rfl
      rw [if_neg hstar, if_neg hstar]
      cases hspecial : special.contains c with
      | true => rfl
      | false => exact signs_cons_of_plain hspecial _

/-- The part of a pattern that a character of a name is. -/
def partOf (c : Char) : Part := if c = '*' then ⟨none, true⟩ else ⟨some c, false⟩

/-- The parts of a name's pattern are those of its characters. -/
theorem parts_signs (text : List Char) : parts (text.flatMap signsOf) = some (text.map partOf) := by
  induction text with
  | nil => rfl
  | cons c text ih =>
      rw [List.flatMap_cons, List.map_cons, signsOf, partOf]
      by_cases hstar : c = '*'
      · rw [if_pos hstar, if_pos hstar, List.cons_append, List.cons_append, List.nil_append, parts, ih]
        rfl
      · rw [if_neg hstar, if_neg hstar, List.cons_append, List.nil_append, parts, ih]
        · rfl
        · -- The signs of what follows do not begin with a star.
          intro r hr
          cases text with
          | nil => cases hr
          | cons d text =>
              rw [List.flatMap_cons, signsOf] at hr
              split at hr <;> cases hr

/-! ### What fits it -/

/-- What is left behind a run of characters that a part stands for. -/
theorem mem_rests_iff {p : Part} {rest text : List Char} :
    rest ∈ p.rests text ↔ ∃ run, text = run ++ rest ∧ ∀ c ∈ run, p.takes c = true := by
  induction text with
  | nil =>
      rw [Part.rests, List.mem_singleton]
      constructor
      · rintro rfl
        exact ⟨[], rfl, nofun⟩
      · rintro ⟨run, heq, _⟩
        exact (List.append_eq_nil_iff.mp heq.symm).2
  | cons c text ih =>
      rw [Part.rests, List.mem_cons]
      constructor
      · rintro (rfl | hrest)
        · exact ⟨[], rfl, nofun⟩
        · split at hrest
          · next hc =>
              obtain ⟨run, rfl, hrun⟩ := ih.mp hrest
              exact ⟨c :: run, rfl, List.forall_mem_cons.mpr ⟨hc, hrun⟩⟩
          · cases hrest
      · rintro ⟨run, heq, hrun⟩
        cases run with
        | nil => exact .inl heq.symm
        | cons d run =>
            obtain ⟨rfl, rfl⟩ := List.cons.inj heq
            obtain ⟨hd, hrun⟩ := List.forall_mem_cons.mp hrun
            rw [if_pos hd]
            exact .inr (ih.mpr ⟨run, rfl, hrun⟩)

/-- The part of a star stands for the characters of one line. -/
theorem takes_star_iff {run : List Char} :
    (∀ c ∈ run, (partOf '*').takes c = true) ↔ '\n' ∉ run := by
  have htakes : ∀ c, (partOf '*').takes c = true ↔ c ≠ '\n' := fun c => by simp [partOf, Part.takes]
  simp only [htakes]
  exact ⟨fun h hmem => h _ hmem rfl, fun h c hc heq => h (heq ▸ hc)⟩

/-- What fits a part that may be repeated and others behind it. -/
theorem fits_repeated {p : Part} (h : p.repeated = true) (more : List Part) (text : List Char) :
    fits (p :: more) text = (p.rests text).any (fits more) := by
  rw [fits.eq_def]
  exact if_pos h

/-- What fits a part that stands for one character and others behind it. -/
theorem fits_single {p : Part} (h : p.repeated = false) (more : List Part) (text : List Char) :
    fits (p :: more) text = true ↔ ∃ c rest, text = c :: rest ∧ p.takes c = true ∧ fits more rest = true := by
  rw [fits.eq_def]
  dsimp only
  rw [if_neg (by rw [h]; exact Bool.false_ne_true)]
  cases text with
  | nil => exact ⟨nofun, nofun⟩
  | cons c rest =>
      rw [Bool.and_eq_true]
      exact ⟨fun hc => ⟨c, rest, rfl, hc⟩, fun ⟨_, _, heq, hc⟩ => by cases heq; exact hc⟩

/-- A text whose last character is no line feed fits the parts of a name if the name stands for it. With a
line feed there it might end before it. -/
theorem fits_iff {name text : List Char} (h : text.getLast? ≠ some '\n') :
    fits (name.map partOf) text = true ↔ Glob name text := by
  induction name generalizing text with
  | nil =>
      rw [List.map_nil, fits, Bool.or_eq_true, List.isEmpty_iff, beq_iff_eq]
      constructor
      · rintro (rfl | rfl)
        · exact .done
        · exact absurd rfl h
      · intro hglob
        cases hglob
        exact .inl rfl
  | cons c name ih =>
      rw [List.map_cons]
      -- What is left of the text ends as the text does.
      have hlast : ∀ run rest, text = run ++ rest → rest.getLast? ≠ some '\n' := by
        rintro run rest rfl hrest
        exact h (by rw [List.getLast?_append, hrest]; rfl)
      by_cases hstar : c = '*'
      · subst hstar
        rw [fits_repeated rfl, List.any_eq_true, glob_star_iff]
        constructor
        · rintro ⟨rest, hrest, hfits⟩
          obtain ⟨run, heq, hrun⟩ := mem_rests_iff.mp hrest
          exact ⟨run, rest, heq, takes_star_iff.mp hrun, (ih (hlast run rest heq)).mp hfits⟩
        · rintro ⟨run, rest, heq, hline, hglob⟩
          exact ⟨rest, mem_rests_iff.mpr ⟨run, heq, takes_star_iff.mpr hline⟩,
            (ih (hlast run rest heq)).mpr hglob⟩
      · have hpart : partOf c = ⟨some c, false⟩ := if_neg hstar
        rw [hpart, fits_single rfl, glob_cons_iff hstar]
        constructor
        · rintro ⟨d, rest, heq, htakes, hfits⟩
          obtain rfl : d = c := beq_iff_eq.mp htakes
          exact ⟨rest, heq, (ih (hlast [d] rest heq)).mp hfits⟩
        · rintro ⟨rest, heq, hglob⟩
          exact ⟨c, rest, heq, beq_self_eq_true c, (ih (hlast [c] rest heq)).mpr hglob⟩

/-- What fits the pattern of a name is what the name stands for. -/
theorem accepts_pattern_iff {name : String} {text : List Char} (h : text.getLast? ≠ some '\n') :
    accepts (EventType.pattern name) text = true ↔ Glob name.toList text := by
  rw [accepts, EventType.pattern, open_stars_escape, signs_opened, parts_signs]
  exact fits_iff h

end Pattern

namespace EventType

/-- A normal form is empty only if the type is blank. -/
theorem normalize_eq_empty_iff (t : String) : normalize t = "" ↔ Text.trim t = "" := by
  rw [← String.toList_eq_nil_iff, ← String.toList_eq_nil_iff, to_list_normalize, Text.trim, String.toList_ofList]
  constructor
  · intro h
    cases htrim : Text.trimBy Text.isBlank t.toList with
    | nil => rfl
    | cons c r =>
        obtain ⟨here, heq, hne, _⟩ := Text.lower_chars_cons [] c r
        rw [htrim, heq] at h
        exact absurd (List.append_eq_nil_iff.mp h).1 hne
  · intro h
    rw [h]
    rfl

/-- A normal form does not end with a line feed. -/
theorem last_of_normalize (t : String) : (normalize t).toList.getLast? ≠ some '\n' := by
  intro h
  rw [to_list_normalize] at h
  have hblank := (Text.trimmed_trim t.toList).lower.2 '\n' h
  exact absurd hblank (by decide)

/-- A trigger reacts to an event if neither of their types is blank and, in normal form, the trigger's is a
star, is the event's or stands for it as a name with stars. -/
theorem is_match_iff (trigger event : String) :
    isMatch trigger event = true ↔
      Text.trim trigger ≠ "" ∧ Text.trim event ≠ "" ∧
        (normalize trigger = "*" ∨ normalize trigger = normalize event ∨
          Pattern.Glob (normalize trigger).toList (normalize event).toList) := by
  have hempty : ∀ t, (!(normalize t).isEmpty) = true ↔ Text.trim t ≠ "" := by
    intro t
    rw [Bool.not_eq_true', ← Bool.not_eq_true, String.isEmpty_iff, normalize_eq_empty_iff]
  -- A name without stars is asked for its pattern in vain, as it stands for itself alone.
  have hglob : (normalize trigger = normalize event ∨
      ((normalize trigger).toList.contains '*' = true ∧
        Pattern.accepts (pattern (normalize trigger)) (normalize event).toList = true)) ↔
      normalize trigger = normalize event ∨
        Pattern.Glob (normalize trigger).toList (normalize event).toList := by
    rw [Pattern.accepts_pattern_iff (last_of_normalize event)]
    refine ⟨Or.imp_right And.right, fun h => h.elim .inl fun hglob => ?_⟩
    by_cases hstar : '*' ∈ (normalize trigger).toList
    · exact .inr ⟨List.contains_iff_mem.mpr hstar, hglob⟩
    · exact .inl (String.toList_inj.mp ((Pattern.glob_iff_eq hstar).mp hglob))
  rw [isMatch]
  simp only [Bool.and_eq_true, Bool.or_eq_true, beq_iff_eq, hempty, and_assoc, or_assoc, hglob]

end EventType

end Rulebook
