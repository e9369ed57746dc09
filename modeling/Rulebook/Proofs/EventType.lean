import Mathlib.Data.Nat.Bitwise
import Rulebook.Rule.EventType

/-!
# Normal forms of event types

To normalize an event type is to drop the blanks at its ends and to write it in lower case. What is in
lower case stays as it is and has no blanks at its ends if it had none before, so a normal form is its own
(`EventType.normalize_normalize`), and normal forms match as the types themselves do
(`EventType.is_match_normalize`).
-/

namespace Rulebook

namespace Text

/-! ### The table of capitals -/

/-- A number whose binary digits tell which numbers a list has. -/
def maskOf (l : List Nat) : Nat := l.foldr (fun n mask => 2 ^ n ||| mask) 0

/-- A digit of the mask tells whether the list has the number. -/
theorem test_bit_mask {l : List Nat} {n : Nat} : (maskOf l).testBit n = true ↔ n ∈ l := by
  induction l with
  | nil => simp [maskOf]
  | cons m l ih =>
      rw [maskOf, List.foldr_cons, ← maskOf, Nat.testBit_or, Nat.testBit_two_pow, Bool.or_eq_true, ih,
        List.mem_cons, decide_eq_true_iff, eq_comm]

/-- Lists whose masks have no digit in common have no number in common. -/
theorem not_mem_of_masks {l k : List Nat} (h : maskOf l &&& maskOf k = 0) {n : Nat} (hn : n ∈ l) :
    n ∉ k := by
  intro hk
  have hbit : (maskOf l &&& maskOf k).testBit n = true := by
    rw [Nat.testBit_and, test_bit_mask.mpr hn, test_bit_mask.mpr hk]
    rfl
  rw [h, Nat.zero_testBit] at hbit
  cases hbit

/-- The code points of the capitals of a run. -/
def codesOf (run : Nat × Nat × Nat × Int) : List Nat :=
  (List.range ((run.2.1 - run.1) / run.2.2.1 + 1)).map fun k => run.1 + k * run.2.2.1

/-- The letter at a distance from a code point. -/
def letterAt (code : Nat) (distance : Int) : Char := Char.ofNat ((code : Int) + distance).toNat

/-- The code points of blanks. -/
def blankCodes : List Nat :=
  blanks.flatMap fun run => (List.range (run.2 - run.1 + 1)).map (run.1 + ·)

/-- The code points of characters that lower case changes, and those of blanks. -/
def otherCodes : List Nat :=
  'İ'.toNat :: capitalSigma.toNat :: capitals.flatMap codesOf ++ blankCodes

/-- No lower-case letter of a capital in the table is a capital or blank. The code points are compared as
masks because the table has too many pairs to go through. -/
theorem letters_apart : maskOf (capitals.flatMap fun run =>
    (codesOf run).map fun code => (letterAt code run.2.2.2).toNat) &&& maskOf otherCodes = 0 := by
  decide +kernel

/-- A code point belongs to a run if it is one of its capitals. -/
theorem mem_codes_of {run : Nat × Nat × Nat × Int} {n : Nat}
    (h : (run.1 ≤ n && n ≤ run.2.1 && (n - run.1) % run.2.2.1 == 0) = true) : n ∈ codesOf run := by
  obtain ⟨first, last, step, distance⟩ := run
  simp only [Bool.and_eq_true, decide_eq_true_eq, beq_iff_eq] at h
  obtain ⟨⟨hfirst, hlast⟩, hstep⟩ := h
  refine List.mem_map.mpr ⟨(n - first) / step, List.mem_range.mpr ?_, ?_⟩
  · exact Nat.lt_succ_of_le (Nat.div_le_div_right (Nat.sub_le_sub_right hlast first))
  · rw [Nat.div_mul_cancel (Nat.dvd_of_mod_eq_zero hstep)]
    exact Nat.add_sub_cancel' hfirst

/-- A character whose code point is none of blanks is not blank. -/
theorem not_blank_of {c : Char} (h : c.toNat ∉ blankCodes) : isBlank c = false := by
  refine Bool.eq_false_iff.mpr fun hblank => h ?_
  obtain ⟨⟨first, last⟩, hrun, hin⟩ := List.any_eq_true.mp hblank
  simp only [Bool.and_eq_true, decide_eq_true_eq] at hin
  refine List.mem_flatMap.mpr ⟨_, hrun, List.mem_map.mpr ⟨c.toNat - first, List.mem_range.mpr ?_, ?_⟩⟩
  · exact Nat.lt_succ_of_le (Nat.sub_le_sub_right hin.2 first)
  · exact Nat.add_sub_cancel' hin.1

/-! ### Lower case -/

/-- A character that lower case leaves as it is, wherever it stands. -/
def IsSettled (c : Char) : Prop := c ≠ 'İ' ∧ c ≠ capitalSigma ∧ lowerChar c = c

/-- Lower case changes no ASCII characters but the capitals, and blanks do not come of it. -/
theorem ascii_lower : ∀ n < 128, ((Char.ofNat n).toLower = Char.ofNat n ∨ 0x41 ≤ n ∧ n ≤ 0x5a) ∧
    (Char.ofNat n).toLower.toNat < 128 ∧ (Char.ofNat n).toLower.toLower = (Char.ofNat n).toLower ∧
    (isBlank (Char.ofNat n) = false → isBlank (Char.ofNat n).toLower = false) := by
  decide +kernel

/-- A character whose code point is none of those that lower case changes is settled. -/
theorem settled_of {c : Char} (h : c.toNat ∉ otherCodes) : IsSettled c := by
  have hne : ∀ d : Char, d.toNat ∈ otherCodes → c ≠ d := fun d hd hcd => h (hcd ▸ hd)
  refine ⟨hne _ (by simp [otherCodes]), hne _ (by simp [otherCodes]), ?_⟩
  have hnone : ∀ run ∈ capitals, ¬(run.1 ≤ c.toNat && c.toNat ≤ run.2.1 &&
      (c.toNat - run.1) % run.2.2.1 == 0) = true := by
    intro run hrun hin
    refine h (List.mem_append_left _ (List.mem_cons_of_mem _ (List.mem_cons_of_mem _ ?_)))
    exact List.mem_flatMap.mpr ⟨run, hrun, mem_codes_of hin⟩
  rw [lowerChar]
  split
  next hascii =>
    obtain ⟨hsame | ⟨hfirst, hlast⟩, _⟩ := ascii_lower c.toNat hascii
    · rwa [Char.ofNat_toNat] at hsame
    · have hlatin : (0x41, 0x5a, 1, 32) ∈ capitals := by
        rw [capitals]
        exact List.mem_cons_self
      refine absurd ?_ (hnone _ hlatin)
      simp only [Bool.and_eq_true, decide_eq_true_eq, beq_iff_eq]
      exact ⟨⟨hfirst, hlast⟩, Nat.mod_one _⟩
  next =>
    dsimp only
    rw [List.find?_eq_none.mpr hnone]

/-- The lower-case letter of a character is settled, and not blank if the character is not. -/
theorem lower_char_settled {c : Char} (hdotted : c ≠ 'İ') (hsigma : c ≠ capitalSigma) :
    IsSettled (lowerChar c) ∧ (isBlank c = false → isBlank (lowerChar c) = false) := by
  by_cases hascii : c.toNat < 0x80
  · obtain ⟨_, hlt, hsame, hblank⟩ := ascii_lower c.toNat hascii
    rw [Char.ofNat_toNat] at hlt hsame hblank
    have hlower : lowerChar c = c.toLower := by rw [lowerChar, if_pos hascii]
    have hne : ∀ d : Char, 128 ≤ d.toNat → c.toLower ≠ d := fun d hd hcd => by
      rw [hcd] at hlt
      omega
    rw [hlower]
    refine ⟨⟨hne _ (by decide), hne _ (by decide), ?_⟩, hblank⟩
    rw [lowerChar, if_pos hlt, hsame]
  · cases hfind : capitals.find? fun run =>
        run.1 ≤ c.toNat && c.toNat ≤ run.2.1 && (c.toNat - run.1) % run.2.2.1 == 0 with
    | none =>
        have hlower : lowerChar c = c := by
          rw [lowerChar, if_neg hascii]
          dsimp only
          rw [hfind]
        exact ⟨⟨hlower.symm ▸ hdotted, hlower.symm ▸ hsigma, by rw [hlower, hlower]⟩, fun h => by rwa [hlower]⟩
    | some run =>
        have hlower : lowerChar c = letterAt c.toNat run.2.2.2 := by
          rw [lowerChar, if_neg hascii]
          dsimp only
          rw [hfind]
          rfl
        have hletter : (lowerChar c).toNat ∈ capitals.flatMap fun run =>
            (codesOf run).map fun code => (letterAt code run.2.2.2).toNat :=
          List.mem_flatMap.mpr ⟨run, List.mem_of_find?_eq_some hfind,
            List.mem_map.mpr ⟨c.toNat, mem_codes_of (List.find?_eq_some_iff_append.mp hfind).1, by rw [hlower]⟩⟩
        have hother := not_mem_of_masks letters_apart hletter
        exact ⟨settled_of hother, fun _ => not_blank_of fun h => hother (List.mem_append_right _ h)⟩

/-- The letters that are not taken from the table are no capitals and not blank. -/
theorem special_letters_apart :
    ∀ c ∈ ['i', Char.ofNat 0x307, 'ς', 'σ'], c.toNat ∉ otherCodes := by
  have hmasks : maskOf (['i', Char.ofNat 0x307, 'ς', 'σ'].map Char.toNat) &&& maskOf otherCodes = 0 := by
    decide +kernel
  exact fun c hc => not_mem_of_masks hmasks (List.mem_map_of_mem hc)

/-- What stands for a character in lower case is settled, and not blank if the character is not. -/
theorem lower_chars_cons (before : List Char) (c : Char) (r : List Char) :
    ∃ here, lowerChars before (c :: r) = here ++ lowerChars (c :: before) r ∧ here ≠ [] ∧
      (∀ d ∈ here, IsSettled d) ∧ (isBlank c = false → ∀ d ∈ here, isBlank d = false) := by
  have hspecial : ∀ here : List Char, lowerChars before (c :: r) = here ++ lowerChars (c :: before) r →
      here ≠ [] → here ⊆ ['i', Char.ofNat 0x307, 'ς', 'σ'] →
      ∃ here, lowerChars before (c :: r) = here ++ lowerChars (c :: before) r ∧ here ≠ [] ∧
        (∀ d ∈ here, IsSettled d) ∧ (isBlank c = false → ∀ d ∈ here, isBlank d = false) := by
    intro here heq hne hsub
    refine ⟨here, heq, hne, fun d hd => settled_of (special_letters_apart d (hsub hd)), fun _ d hd => ?_⟩
    exact not_blank_of fun h => special_letters_apart d (hsub hd) (List.mem_append_right _ h)
  by_cases hdotted : c = 'İ'
  · exact hspecial ['i', Char.ofNat 0x307] (by rw [lowerChars, if_pos hdotted]) (by simp) (by simp)
  by_cases hsigma : c = capitalSigma
  · cases hfinal : nextIsCased before && !nextIsCased r with
    | true =>
        refine hspecial ['ς'] ?_ (by simp) (by simp)
        rw [lowerChars, if_neg hdotted, if_pos hsigma, hfinal]
        rfl
    | false =>
        refine hspecial ['σ'] ?_ (by simp) (by simp)
        rw [lowerChars, if_neg hdotted, if_pos hsigma, hfinal]
        rfl
  · obtain ⟨hsettled, hblank⟩ := lower_char_settled hdotted hsigma
    refine ⟨[lowerChar c], by rw [lowerChars, if_neg hdotted, if_neg hsigma], by simp, ?_, ?_⟩
    · intro d hd
      rwa [List.mem_singleton.mp hd]
    · intro hc d hd
      rw [List.mem_singleton.mp hd]
      exact hblank hc

/-- A text in lower case is settled. -/
theorem lower_chars_settled (before cs : List Char) : ∀ d ∈ lowerChars before cs, IsSettled d := by
  induction cs generalizing before with
  | nil => nofun
  | cons c r ih =>
      obtain ⟨here, heq, _, hhere, _⟩ := lower_chars_cons before c r
      rw [heq]
      intro d hd
      exact (List.mem_append.mp hd).elim (hhere d) (ih (c :: before) d)

/-- Lower case leaves a settled text as it is. -/
theorem lower_chars_of_settled {cs : List Char} (h : ∀ c ∈ cs, IsSettled c) (before : List Char) :
    lowerChars before cs = cs := by
  induction cs generalizing before with
  | nil => rfl
  | cons c r ih =>
      obtain ⟨hc, hr⟩ := List.forall_mem_cons.mp h
      rw [lowerChars, if_neg hc.1, if_neg hc.2.1, hc.2.2, ih hr]
      rfl

/-! ### Blanks at the ends -/

/-- A text has no blanks at its ends. -/
def IsTrimmed (cs : List Char) : Prop :=
  (∀ c, cs.head? = some c → isBlank c = false) ∧ ∀ c, cs.getLast? = some c → isBlank c = false

/-- Dropping members of a class from the start leaves none there. -/
theorem head_drop_while {p : Char → Bool} {cs : List Char} {c : Char}
    (h : (cs.dropWhile p).head? = some c) : p c = false := by
  have := List.head?_dropWhile_not p cs
  rw [h] at this
  simpa using this

/-- A text that begins and ends with no member of a class is left as it is when these are dropped. -/
theorem trim_of_ends {p : Char → Bool} {cs : List Char} (hfirst : ∀ c, cs.head? = some c → p c = false)
    (hlast : ∀ c, cs.getLast? = some c → p c = false) : trimBy p cs = cs := by
  have hdrop : ∀ l : List Char, (∀ c, l.head? = some c → p c = false) → l.dropWhile p = l := by
    intro l hl
    cases l with
    | nil => rfl
    | cons c r => rw [List.dropWhile_cons, hl c rfl]; rfl
  rw [trimBy, trimEnd, hdrop cs hfirst, hdrop cs.reverse, List.reverse_reverse]
  intro c hc
  exact hlast c (List.head?_reverse ▸ hc)

/-- A text without blanks at its ends is left as it is when these are dropped. -/
theorem trim_of_trimmed {cs : List Char} (h : IsTrimmed cs) : trimBy isBlank cs = cs :=
  trim_of_ends h.1 h.2

/-- A text from whose ends blanks are dropped has none there. -/
theorem trimmed_trim (cs : List Char) : IsTrimmed (trimBy isBlank cs) := by
  rw [trimBy, trimEnd]
  constructor
  · intro c hc
    have hprefix : ((cs.dropWhile isBlank).reverse.dropWhile isBlank).reverse <+: cs.dropWhile isBlank := by
      rw [← List.reverse_suffix, List.reverse_reverse]
      exact List.dropWhile_suffix _
    obtain ⟨rest, hrest⟩ := hprefix
    have hhead : (cs.dropWhile isBlank).head? = some c := by
      rw [← hrest, List.head?_append, hc]
      rfl
    exact head_drop_while hhead
  · intro c hc
    rw [List.getLast?_reverse] at hc
    exact head_drop_while hc

/-- What stands for the last character of a text in lower case comes last. -/
theorem lower_chars_concat (before cs : List Char) (c : Char) :
    ∃ front before', lowerChars before (cs ++ [c]) = front ++ lowerChars before' [c] := by
  induction cs generalizing before with
  | nil => exact ⟨[], before, rfl⟩
  | cons d cs ih =>
      obtain ⟨here, heq, _⟩ := lower_chars_cons before d (cs ++ [c])
      obtain ⟨front, before', hrest⟩ := ih (d :: before)
      exact ⟨here ++ front, before', by rw [List.cons_append, heq, hrest, List.append_assoc]⟩

/-- A text in lower case has no blanks at its ends if the text had none. -/
theorem IsTrimmed.lower {cs : List Char} (h : IsTrimmed cs) : IsTrimmed (lowerChars [] cs) := by
  constructor
  · intro d hd
    cases cs with
    | nil => cases hd
    | cons c r =>
        obtain ⟨here, heq, hne, _, hblank⟩ := lower_chars_cons [] c r
        obtain ⟨e, here, rfl⟩ := List.exists_cons_of_ne_nil hne
        rw [heq] at hd
        obtain rfl := Option.some.inj hd
        exact hblank (h.1 c rfl) e List.mem_cons_self
  · intro d hd
    obtain rfl | ⟨cs, c, rfl⟩ := List.eq_nil_or_concat cs
    · cases hd
    · rw [List.concat_eq_append] at h hd
      obtain ⟨front, before', hfront⟩ := lower_chars_concat [] cs c
      obtain ⟨here, heq, hne, _, hblank⟩ := lower_chars_cons before' c []
      obtain ⟨here, e, rfl⟩ := (List.eq_nil_or_concat here).resolve_left hne
      rw [hfront, heq, lowerChars, List.append_nil, List.concat_eq_append, ← List.append_assoc,
        List.getLast?_concat] at hd
      obtain rfl := Option.some.inj hd
      exact hblank (h.2 c List.getLast?_concat) e (by simp)

end Text

namespace EventType

/-- The characters of a normal form. -/
theorem to_list_normalize (t : String) :
    (normalize t).toList = Text.lowerChars [] (Text.trimBy Text.isBlank t.toList) := by
  rw [normalize, Text.lower, Text.trim, String.toList_ofList, String.toList_ofList]

/-- A normal form is its own normal form. -/
theorem normalize_normalize (t : String) : normalize (normalize t) = normalize t := by
  have hform := to_list_normalize t
  have htrim : Text.trimBy Text.isBlank (normalize t).toList = (normalize t).toList :=
    hform ▸ Text.trim_of_trimmed (Text.trimmed_trim t.toList).lower
  have hlower : Text.lowerChars [] (normalize t).toList = (normalize t).toList :=
    Text.lower_chars_of_settled (hform ▸ Text.lower_chars_settled _ _) []
  rw [normalize, Text.lower, Text.trim, String.toList_ofList, htrim, hlower, String.ofList_toList]

/-- The normal form of an event's type is matched as the type itself is. -/
theorem is_match_normal (trigger event : String) :
    isMatch trigger (normalize event) = isMatch trigger event := by
  unfold isMatch
  rw [normalize_normalize]

/-- Normal forms match as the types themselves do. -/
theorem is_match_normalize (trigger event : String) :
    isMatch (normalize trigger) (normalize event) = isMatch trigger event := by
  unfold isMatch
  rw [normalize_normalize, normalize_normalize]

end EventType

end Rulebook
