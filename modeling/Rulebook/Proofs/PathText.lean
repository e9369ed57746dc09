import Mathlib.Data.List.TakeWhile
import Rulebook.Proofs.EventType
import Rulebook.Proofs.Path

/-!
# Paths as they are written

A path is written as its segments with points between them. Blanks around a segment mean nothing, and neither
does a `$.` in front (`Path.segments_of_pieces`, `Path.pieces_of_written`). What is at the path is what its
segments select one after the other, the field of an object or the item of a list each time
(`Path.resolve_written`).
-/

namespace Rulebook

namespace Text

variable {p : Char → Bool} {before after : List Char}

/-! ### Blanks around a text -/

/-- Members of a class at the end are dropped from there. -/
theorem trim_end_append (h : ∀ c ∈ after, p c = true) (cs : List Char) :
    trimEnd p (cs ++ after) = trimEnd p cs := by
  rw [trimEnd, trimEnd, List.reverse_append,
    List.dropWhile_append_of_pos fun c hc => h c (List.mem_reverse.mp hc)]

/-- A text before which members of a class stand is the same without them. -/
theorem trim_append_left (h : ∀ c ∈ before, p c = true) (cs : List Char) :
    trimBy p (before ++ cs) = trimBy p cs := by
  rw [trimBy, trimBy, List.dropWhile_append_of_pos h]

/-- A text after which members of a class stand is the same without them. -/
theorem trim_append_right (h : ∀ c ∈ after, p c = true) (cs : List Char) :
    trimBy p (cs ++ after) = trimBy p cs := by
  rw [trimBy, trimBy, List.dropWhile_append]
  split
  next hnone => rw [List.dropWhile_eq_nil_iff.mpr h, List.isEmpty_iff.mp hnone]
  next => exact trim_end_append h _

/-- What is dropped from the end of a text are members of the class. -/
theorem eq_trim_end_append (p : Char → Bool) (cs : List Char) :
    ∃ after, (∀ c ∈ after, p c = true) ∧ cs = trimEnd p cs ++ after := by
  refine ⟨(cs.reverse.takeWhile p).reverse, fun c hc => List.mem_takeWhile_imp (List.mem_reverse.mp hc), ?_⟩
  rw [trimEnd, ← List.reverse_append, List.takeWhile_append_dropWhile, List.reverse_reverse]

/-- What is dropped from the ends of a text are members of the class. -/
theorem eq_append_trim_append (p : Char → Bool) (cs : List Char) :
    ∃ before after, (∀ c ∈ before, p c = true) ∧ (∀ c ∈ after, p c = true) ∧
      cs = before ++ (trimBy p cs ++ after) := by
  obtain ⟨after, hafter, heq⟩ := eq_trim_end_append p (cs.dropWhile p)
  refine ⟨cs.takeWhile p, after, fun c hc => List.mem_takeWhile_imp hc, hafter, ?_⟩
  rw [trimBy, ← heq, List.takeWhile_append_dropWhile]

/-- A character at the start that is not in the class stays there. -/
theorem trim_end_cons {c : Char} (hc : p c = false) (cs : List Char) :
    trimEnd p (c :: cs) = c :: trimEnd p cs := by
  rw [trimEnd, trimEnd, List.reverse_cons, List.dropWhile_append]
  split
  next hnone =>
    rw [List.isEmpty_iff.mp hnone, List.dropWhile_cons, hc]
    rfl
  next => rw [List.reverse_append]; rfl

/-! ### Digits -/

/-- The value of an ASCII digit as a decimal digit of any script. -/
theorem decimal_value_of_digit {c : Char} {d : Nat} (h : Decimal.digit? c = some d) :
    decimalValue? c = some d := by
  rw [Decimal.digit?] at h
  split at h
  next hc =>
    have hbounds : 48 ≤ c.toNat ∧ c.toNat < 48 + 10 := ⟨hc.1, Nat.lt_succ_of_le hc.2⟩
    rw [decimalValue?, digitZeros, List.findSome?_cons, if_pos hbounds]
    exact h
  next => cases h

/-- The number that ASCII digits stand for. -/
theorem numeral_of_digits {cs : List Char} (h : ∀ c ∈ cs, Decimal.isDigit c = true) :
    numeral? cs = some (Decimal.ofDigits cs) := by
  -- the digits that are read already make up `m`
  have hfrom : ∀ m : Nat, cs.foldlM (fun n c => (decimalValue? c).map (10 * n + ·)) m =
      some (cs.foldl (fun n c => 10 * n + (Decimal.digit? c).getD 0) m) := by
    induction cs with
    | nil => exact fun m => rfl
    | cons c cs ih =>
        obtain ⟨hc, hcs⟩ := List.forall_mem_cons.mp h
        obtain ⟨d, hd⟩ := Option.isSome_iff_exists.mp hc
        intro m
        rw [List.foldlM_cons, decimal_value_of_digit hd, List.foldl_cons, hd]
        exact ih hcs _
  exact hfrom 0

end Text

namespace Path

/-! ### Pieces of a text -/

/-- A text without separators after another lengthens its last part. -/
theorem split_at_append_right {separator : Char} {s : List Char} (hs : separator ∉ s) (cs : List Char) :
    ∃ front last, splitAt separator cs = front ++ [last] ∧
      splitAt separator (cs ++ s) = front ++ [last ++ s] := by
  induction cs with
  | nil =>
      have hone := split_at_append hs (r := []) rfl
      rw [List.append_nil] at hone
      exact ⟨[], [], rfl, hone⟩
  | cons c cs ih =>
      obtain ⟨front, last, hcs, hlonger⟩ := ih
      by_cases hc : c = separator
      · refine ⟨[] :: front, last, ?_, ?_⟩
        · rw [splitAt, if_pos hc, hcs, List.cons_append]
        · rw [List.cons_append, splitAt, if_pos hc, hlonger, List.cons_append]
      · cases front with
        | nil =>
            refine ⟨[], c :: last, ?_, ?_⟩
            · rw [splitAt, if_neg hc, hcs]; rfl
            · rw [List.cons_append, splitAt, if_neg hc, hlonger]; rfl
        | cons first front =>
            refine ⟨(c :: first) :: front, last, ?_, ?_⟩
            · rw [splitAt, if_neg hc, hcs]; rfl
            · rw [List.cons_append, splitAt, if_neg hc, hlonger]; rfl

/-- A text has a first part. -/
theorem split_at_ne_nil (separator : Char) (cs : List Char) : splitAt separator cs ≠ [] := by
  obtain ⟨front, last, hcs, _⟩ := split_at_append_right (List.not_mem_nil : separator ∉ []) cs
  rw [hcs]
  exact List.concat_ne_nil last front

/-- What stands between the points of a text, without the blanks around it. -/
def pieces (cs : List Char) : List (List Char) := (splitAt '.' cs).map (Text.trimBy Text.isBlank)

variable {cs before after : List Char}

/-- There is no point in blanks. -/
theorem no_point_in_blanks (h : ∀ c ∈ cs, Text.isBlank c = true) : '.' ∉ cs := fun hmem =>
  absurd (h '.' hmem) (by decide)

/-- Blanks in front of a text leave its pieces as they are. -/
theorem pieces_append_left (h : ∀ c ∈ before, Text.isBlank c = true) (cs : List Char) :
    pieces (before ++ cs) = pieces cs := by
  obtain ⟨first, rest, hsplit⟩ := List.exists_cons_of_ne_nil (split_at_ne_nil '.' cs)
  rw [pieces, pieces, split_at_append (no_point_in_blanks h) hsplit, hsplit, List.map_cons, List.map_cons,
    Text.trim_append_left h]

/-- Blanks at the end of a text leave its pieces as they are. -/
theorem pieces_append_right (h : ∀ c ∈ after, Text.isBlank c = true) (cs : List Char) :
    pieces (cs ++ after) = pieces cs := by
  obtain ⟨front, last, hsplit, hlonger⟩ := split_at_append_right (no_point_in_blanks h) cs
  rw [pieces, pieces, hsplit, hlonger, List.map_append, List.map_append, List.map_singleton,
    List.map_singleton, Text.trim_append_right h]

/-- A text has the same pieces without the blanks at its end. -/
theorem pieces_trim_end (cs : List Char) : pieces (Text.trimEnd Text.isBlank cs) = pieces cs := by
  obtain ⟨after, hafter, heq⟩ := Text.eq_trim_end_append Text.isBlank cs
  conv => rhs; rw [heq]
  exact (pieces_append_right hafter _).symm

/-- A text has the same pieces without the blanks at its ends. -/
theorem pieces_trim (cs : List Char) : pieces (Text.trimBy Text.isBlank cs) = pieces cs := by
  obtain ⟨before, after, hbefore, hafter, heq⟩ := Text.eq_append_trim_append Text.isBlank cs
  conv => rhs; rw [heq]
  rw [pieces_append_left hbefore, pieces_append_right hafter]

/-- The pieces of a text that begins with `$.` are a `$` and those of the rest. -/
theorem pieces_of_prefix (cs : List Char) : pieces ('$' :: '.' :: cs) = ['$'] :: pieces cs := by
  have hpoint : splitAt '.' ('.' :: cs) = [] :: splitAt '.' cs := by rw [splitAt, if_pos rfl]
  have hsplit : splitAt '.' (['$'] ++ '.' :: cs) = _ := split_at_append (by decide) hpoint
  exact congrArg (List.map (Text.trimBy Text.isBlank)) hsplit

/-- The segments of a path are its pieces, if all of these are left with some characters. -/
theorem segments_of_pieces {path : String} {l : List (List Char)}
    (h : pieces (normalize path.toList) = l) (hsome : [] ∉ l) : segments path = .ok (l.map String.ofList) := by
  have hany : ((splitAt '.' (normalize path.toList)).any (·.all Text.isBlank)) = false := by
    rw [List.any_eq_false]
    intro s hs hblank
    refine hsome (h ▸ List.mem_map.mpr ⟨s, hs, ?_⟩)
    rw [← List.append_nil s, Text.trim_append_left (List.all_eq_true.mp hblank)]
    rfl
  rw [segments]
  split
  next hnone =>
    rw [hnone] at h
    exact absurd (h ▸ List.mem_singleton_self []) hsome
  next =>
    dsimp only
    rw [hany, if_neg Bool.false_ne_true, ← h, pieces, List.map_map]
    rfl

/-! ### Written segments -/

/-- A text can stand for a segment in a path, and names at most one position of a list. -/
structure IsSegment (s : String) : Prop where
  /-- It is not empty. -/
  nonempty : s.toList ≠ []
  /-- It has no blanks at its ends. -/
  trimmed : Text.IsTrimmed s.toList
  /-- It has no points. -/
  whole : '.' ∉ s.toList
  /-- Its digits are those of ASCII. -/
  ascii : ∀ c ∈ s.toList, Text.isDigitSign c = true → Decimal.isDigit c = true
  /-- If it consists of digits, then these are not too many to be read. -/
  few : (∀ c ∈ s.toList, Decimal.isDigit c = true) → s.toList.length ≤ maxDigits

-- the checks run over the characters of the text, as one over all characters there are would not end
instance (cs : List Char) : Decidable (Text.IsTrimmed cs) :=
  decidable_of_iff (cs.head?.all (!Text.isBlank ·) = true ∧ cs.getLast?.all (!Text.isBlank ·) = true) (by
    simp only [Text.IsTrimmed, Option.all_eq_true, Bool.not_eq_true'])

instance (s : String) : Decidable (IsSegment s) :=
  decidable_of_iff
    (s.toList ≠ [] ∧ Text.IsTrimmed s.toList ∧ '.' ∉ s.toList ∧
      (s.toList.filter Text.isDigitSign).all Decimal.isDigit = true ∧
      (s.toList.all Decimal.isDigit = true → s.toList.length ≤ maxDigits)) (by
    simp only [List.all_eq_true, List.mem_filter, and_imp]
    exact ⟨fun ⟨hnonempty, htrimmed, hwhole, hascii, hfew⟩ => ⟨hnonempty, htrimmed, hwhole, hascii, hfew⟩,
      fun h => ⟨h.nonempty, h.trimmed, h.whole, h.ascii, h.few⟩⟩)

/-- A text is another one with blanks around it. -/
def Pads (s t : String) : Prop :=
  ∃ before after, (∀ c ∈ before, Text.isBlank c = true) ∧ (∀ c ∈ after, Text.isBlank c = true) ∧
    t.toList = before ++ (s.toList ++ after)

/-- What a segment selects in a value: in an object the field of that name, in a list the item at the
position that its digits write, and nothing in any other value. -/
def select : Value → String → Option Value
  | .object fs, s => Fields.get? fs s
  | .list items, s =>
    if s.toList ≠ [] ∧ s.toList.all Decimal.isDigit then items[Decimal.ofDigits s.toList]? else none
  | _, _ => none

variable {s t : String} {parts written : List String}

/-- A segment is what is left of it with blanks around it. -/
theorem Pads.trim (hpads : Pads s t) (h : IsSegment s) : Text.trimBy Text.isBlank t.toList = s.toList := by
  obtain ⟨before, after, hbefore, hafter, heq⟩ := hpads
  rw [heq, Text.trim_append_left hbefore, Text.trim_append_right hafter, Text.trim_of_trimmed h.trimmed]

/-- There are no points in a segment with blanks around it. -/
theorem Pads.whole (hpads : Pads s t) (h : IsSegment s) : '.' ∉ t.toList := by
  obtain ⟨before, after, hbefore, hafter, heq⟩ := hpads
  rw [heq, List.mem_append, List.mem_append]
  rintro (hmem | hmem | hmem)
  · exact no_point_in_blanks hbefore hmem
  · exact h.whole hmem
  · exact no_point_in_blanks hafter hmem

/-- Segments with blanks around them are the pieces of the text in which they are joined. -/
theorem pieces_of_written (hparts : parts ≠ []) (hall : ∀ s ∈ parts, IsSegment s)
    (hpads : List.Forall₂ Pads parts written) :
    pieces (".".intercalate written).toList = parts.map String.toList := by
  have hboth : written.map (Text.trimBy Text.isBlank ∘ String.toList) = parts.map String.toList ∧
      ∀ cs ∈ written.map String.toList, '.' ∉ cs := by
    clear hparts
    induction hpads with
    | nil => exact ⟨rfl, fun cs h => by cases h⟩
    | cons hpad _ ih =>
        obtain ⟨hs, hrest⟩ := List.forall_mem_cons.mp hall
        obtain ⟨htrim, hwhole⟩ := ih hrest
        refine ⟨?_, List.forall_mem_cons.mpr ⟨hpad.whole hs, hwhole⟩⟩
        rw [List.map_cons, List.map_cons, htrim, Function.comp_apply, hpad.trim hs]
  have hwritten : written.map String.toList ≠ [] := by
    rw [ne_eq, List.map_eq_nil_iff]
    rintro rfl
    cases hpads
    exact hparts rfl
  have hsplit : splitAt '.' (".".toList.intercalate (written.map String.toList)) = _ :=
    split_at_intercalate hwritten hboth.2
  rw [pieces, String.toList_intercalate, hsplit, List.map_map, hboth.1]

/-- The texts of segments are not empty. -/
theorem segments_some (hall : ∀ s ∈ parts, IsSegment s) : [] ∉ parts.map String.toList := by
  intro hmem
  obtain ⟨s, hs, heq⟩ := List.mem_map.mp hmem
  exact (hall s hs).nonempty heq

/-- The segments of a path with `$.` in front are those that are written after it. -/
theorem segments_of_prefixed (hparts : parts ≠ []) (hall : ∀ s ∈ parts, IsSegment s)
    (hpads : List.Forall₂ Pads parts written) : segments ("$." ++ ".".intercalate written) = .ok parts := by
  have htrim : Text.trimBy Text.isBlank ("$." ++ ".".intercalate written).toList =
      '$' :: '.' :: Text.trimEnd Text.isBlank (".".intercalate written).toList := by
    rw [String.toList_append]
    exact (Text.trim_end_cons (by decide) _).trans (congrArg _ (Text.trim_end_cons (by decide) _))
  have hpieces : pieces (normalize ("$." ++ ".".intercalate written).toList) = parts.map String.toList := by
    unfold normalize
    rw [htrim]
    exact (pieces_trim_end _).trans (pieces_of_written hparts hall hpads)
  rw [segments_of_pieces hpieces (segments_some hall), map_of_list]

/-- The segments of a path without `$.` in front are those that are written, if it does not begin with one
that stands for this prefix. -/
theorem segments_of_bare (hparts : parts ≠ []) (hall : ∀ s ∈ parts, IsSegment s)
    (hpads : List.Forall₂ Pads parts written) (hfirst : ∀ rest, parts = "$" :: rest → rest = []) :
    segments (".".intercalate written) = .ok parts := by
  have hpieces := (pieces_trim _).trans (pieces_of_written hparts hall hpads)
  have hnormal : normalize (".".intercalate written).toList =
      Text.trimBy Text.isBlank (".".intercalate written).toList := by
    rw [normalize]
    split
    next r heq =>
      -- then the first segment is `$`, and there are others
      obtain ⟨s, rest, rfl⟩ := List.exists_cons_of_ne_nil hparts
      rw [heq, pieces_of_prefix, List.map_cons] at hpieces
      obtain ⟨hs, hrest⟩ := List.cons.inj hpieces
      obtain rfl : s = "$" := String.toList_inj.mp hs.symm
      rw [hfirst rest rfl] at hrest
      exact absurd (List.map_eq_nil_iff.mp hrest) (split_at_ne_nil '.' r)
    next => rfl
  rw [segments_of_pieces (hnormal ▸ hpieces) (segments_some hall), map_of_list]

/-! ### What is at a path -/

/-- A segment has the position that its digits write, and none if it does not consist of digits. -/
theorem IsSegment.index (h : IsSegment s) :
    index? s = .ok (if s.toList ≠ [] ∧ s.toList.all Decimal.isDigit then some (Decimal.ofDigits s.toList)
      else none) := by
  split
  next hdigits =>
    have hall := List.all_eq_true.mp hdigits.2
    have hlooks : LooksNumeral s := by
      refine ⟨h.nonempty, fun c hc => ?_⟩
      obtain ⟨d, hd⟩ := Option.isSome_iff_exists.mp (hall c hc)
      rw [Text.isDigitSign, Text.isDecimal, Text.decimal_value_of_digit hd]
      rfl
    rw [index_of_looks hlooks, Text.numeral_of_digits hall]
    exact if_neg (Nat.not_lt.mpr (h.few hall))
  next hdigits =>
    refine index_of_not_looks fun hlooks => hdigits ⟨hlooks.1, List.all_eq_true.mpr fun c hc => ?_⟩
    exact h.ascii c hc (hlooks.2 c hc)

/-- Following segments finds what they select one after the other. -/
theorem follow_eq_select (hall : ∀ s ∈ parts, IsSegment s) (data : Value) :
    follow parts data = .ok (parts.foldlM select data) := by
  induction parts generalizing data with
  | nil => rfl
  | cons s rest ih =>
      obtain ⟨hs, hrest⟩ := List.forall_mem_cons.mp hall
      rw [List.foldlM_cons]
      cases data with
      | object fs =>
          rw [follow, select]
          cases Fields.get? fs s with
          | none => rfl
          | some v => exact ih hrest v
      | list items =>
          rw [follow, hs.index, select]
          by_cases hdigits : s.toList ≠ [] ∧ s.toList.all Decimal.isDigit = true
          · rw [if_pos hdigits, if_pos hdigits]
            dsimp only [bind, Except.bind, Option.bind]
            cases items[Decimal.ofDigits s.toList]? with
            | none => rfl
            | some v => exact ih hrest v
          · rw [if_neg hdigits, if_neg hdigits]
            rfl
      | _ => rfl

/-- There is at a path what its segments select one after the other, and nothing if one of them selects
nothing. Blanks around the segments mean nothing, and neither does `$.` in front, unless the first of several
segments is itself `$`: that one is then taken for the prefix. -/
theorem resolve_written (data : Value) (hparts : parts ≠ []) (hall : ∀ s ∈ parts, IsSegment s)
    (hpads : List.Forall₂ Pads parts written) :
    resolve data ("$." ++ ".".intercalate written) = .ok (parts.foldlM select data) ∧
      ((∀ rest, parts = "$" :: rest → rest = []) →
        resolve data (".".intercalate written) = .ok (parts.foldlM select data)) ∧
      resolve data (".".intercalate ("$" :: written)) = .ok (parts.foldlM select data) := by
  have hprefixed : resolve data ("$." ++ ".".intercalate written) = .ok (parts.foldlM select data) := by
    rw [resolve, segments_of_prefixed hparts hall hpads]
    dsimp only
    rw [follow_eq_select hall]
    rfl
  refine ⟨hprefixed, fun hfirst => ?_, ?_⟩
  · rw [resolve, segments_of_bare hparts hall hpads hfirst]
    dsimp only
    rw [follow_eq_select hall]
    rfl
  · cases hpads with
    | nil => exact absurd rfl hparts
    | cons =>
        rw [String.intercalate_cons_cons]
        exact hprefixed

/-- A null in an object in a list is found where it is, and that is not nothing. -/
theorem resolve_written_null :
    let data : Value := .object [("items", .list [.text "first", .object [("owner", .null)]])]
    let written := ["items ", " 01", "owner"]
    resolve data ("$." ++ ".".intercalate written) = .ok (some .null) ∧
      resolve data (".".intercalate written) = .ok (some .null) := by
  intro data written
  have hall : ∀ s ∈ ["items", "01", "owner"], IsSegment s := by decide +kernel
  have hblank : ∀ c ∈ [' '], Text.isBlank c = true := List.all_eq_true.mp (by decide)
  have hpads : List.Forall₂ Pads ["items", "01", "owner"] written :=
    .cons ⟨[], [' '], List.forall_mem_nil _, hblank, by decide⟩ <|
      .cons ⟨[' '], [], hblank, List.forall_mem_nil _, by decide⟩ <|
        .cons ⟨[], [], List.forall_mem_nil _, List.forall_mem_nil _, by decide⟩ .nil
  have hthere : ["items", "01", "owner"].foldlM select data = some .null := by rfl
  obtain ⟨hprefixed, hbare, _⟩ := resolve_written data (by decide) hall hpads
  have hfirst : ∀ rest, ["items", "01", "owner"] = "$" :: rest → rest = [] := fun _ h =>
    absurd (List.cons.inj h).1 (by decide)
  exact ⟨hprefixed.trans (congrArg _ hthere), (hbare hfirst).trans (congrArg _ hthere)⟩

end Path

end Rulebook
