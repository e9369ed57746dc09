import Rulebook.Template

/-!
# Tokens of a template

A token is a body between double braces; a body is not empty and has no braces itself. `Template.Divides` tells how
a template consists of tokens and of characters outside them: read from the left, a token stands wherever one can
start. There is just one such division, and it is the one that is found (`Template.divides_iff`).
-/

namespace Rulebook.Template

/-- A text can be the body of a token: it is not empty and has no braces. -/
def IsBody (body : List Char) : Prop := body ≠ [] ∧ ∀ c ∈ body, c ≠ '\x7b' ∧ c ≠ '\x7d'

/-- A template consists of pieces: their texts make it up, tokens have bodies, and no token starts at a character
outside tokens. -/
structure Divides (template : List Char) (ps : List Piece) : Prop where
  source : ps.flatMap Piece.source = template
  bodies : ∀ body, .token body ∈ ps → IsBody body
  leftmost : ∀ before c after, ps = before ++ .plain c :: after →
    ∀ body, IsBody body → ¬(Piece.token body).source <+: c :: after.flatMap Piece.source

variable {template cs body : List Char} {ps : List Piece} {p : Piece}

/-! ### Where tokens start -/

/-- A text has no braces exactly if none of its characters is one. -/
theorem no_braces_iff : (∀ c ∈ body, c ≠ '\x7b' ∧ c ≠ '\x7d') ↔ ∀ c ∈ body, (!isBrace c) = true := by
  simp [isBrace]

/-- Up to the end of a token there is its body. -/
theorem body_of_token (h : IsBody body) (rest : List Char) :
    (body ++ '\x7d' :: rest).takeWhile (fun c => !isBrace c) = body ∧
      (body ++ '\x7d' :: rest).dropWhile (fun c => !isBrace c) = '\x7d' :: rest := by
  have hbody := no_braces_iff.mp h.2
  have hstop : (!isBrace '\x7d') = false := rfl
  constructor
  · rw [List.takeWhile_append_of_pos hbody, List.takeWhile_cons, hstop]
    exact List.append_nil body
  · rw [List.dropWhile_append_of_pos hbody, List.dropWhile_cons, hstop]
    rfl

/-- A token is found exactly where a text starts with it. -/
theorem token_body_eq_some_iff :
    tokenBody? cs = some body ↔ IsBody body ∧ (Piece.token body).source <+: cs := by
  constructor
  · intro h
    unfold tokenBody? at h
    split at h
    next r =>
      dsimp only at h
      split at h
      next c b s htake hdrop =>
        obtain rfl := Option.some.inj h
        refine ⟨⟨by rw [htake]; exact List.cons_ne_nil c b, no_braces_iff.mpr (List.all_eq_true.mp List.all_takeWhile)⟩,
          s, ?_⟩
        have hsplit := List.takeWhile_append_dropWhile (p := fun c => !isBrace c) (l := r)
        rw [hdrop] at hsplit
        simpa [Piece.source] using hsplit
      next => cases h
    next => cases h
  · rintro ⟨hbody, rest, rfl⟩
    obtain ⟨htake, hdrop⟩ := body_of_token hbody ('\x7d' :: rest)
    have hcs : (Piece.token body).source ++ rest = '\x7b' :: '\x7b' :: (body ++ '\x7d' :: '\x7d' :: rest) := by
      simp [Piece.source]
    obtain ⟨c, b, rfl⟩ := List.exists_cons_of_ne_nil hbody.1
    rw [hcs, tokenBody?, htake, hdrop]
    rfl

/-- No token is found exactly where a text starts with none. -/
theorem token_body_eq_none_iff :
    tokenBody? cs = none ↔ ∀ body, IsBody body → ¬(Piece.token body).source <+: cs := by
  simp only [Option.eq_none_iff_forall_ne_some, ne_eq, token_body_eq_some_iff, not_and]

/-! ### The division of a template -/

/-- A token that a template starts with is its first piece. -/
theorem pieces_of_token (h : IsBody body) (rest : List Char) :
    pieces ((Piece.token body).source ++ rest) = .token body :: pieces rest := by
  have hfound : tokenBody? ((Piece.token body).source ++ rest) = some body :=
    token_body_eq_some_iff.mpr ⟨h, List.prefix_append _ _⟩
  have hrest : ('\x7b' :: body ++ ['\x7d', '\x7d'] ++ rest).drop (body.length + 3) = rest :=
    List.drop_left' (by simp)
  rw [Piece.source, List.cons_append, List.cons_append] at hfound ⊢
  rw [pieces, hfound]
  dsimp only
  rw [hrest]

/-- A character at which no token starts is a piece. -/
theorem pieces_of_plain {c : Char} (h : ∀ body, IsBody body → ¬(Piece.token body).source <+: c :: cs) :
    pieces (c :: cs) = .plain c :: pieces cs := by
  rw [pieces, token_body_eq_none_iff.mpr h]

/-- What follows the first piece of a division is divided too. -/
theorem Divides.tail (h : Divides template (p :: ps)) : Divides (ps.flatMap Piece.source) ps where
  source := rfl
  bodies body hbody := h.bodies body (List.mem_cons_of_mem p hbody)
  leftmost before c after hps := h.leftmost (p :: before) c after (by rw [hps, List.cons_append])

/-- A division is one with a token in front if that has a body. -/
theorem Divides.cons_token (h : Divides cs ps) (hbody : IsBody body) :
    Divides ((Piece.token body).source ++ cs) (.token body :: ps) where
  source := by rw [List.flatMap_cons, h.source]
  bodies b hb := by
    obtain heq | hb := List.mem_cons.mp hb
    · exact Piece.token.inj heq ▸ hbody
    · exact h.bodies b hb
  leftmost before c after hps := by
    cases before with
    | nil => cases hps
    | cons q before => exact h.leftmost before c after (List.cons.inj hps).2

/-- A division is one with a character in front if no token starts there. -/
theorem Divides.cons_plain {c : Char} (h : Divides cs ps)
    (hnone : ∀ body, IsBody body → ¬(Piece.token body).source <+: c :: cs) :
    Divides (c :: cs) (.plain c :: ps) where
  source := by rw [List.flatMap_cons, h.source]; rfl
  bodies b hb := h.bodies b ((List.mem_cons.mp hb).resolve_left nofun)
  leftmost before d after hps := by
    cases before with
    | nil =>
        obtain ⟨hd, rfl⟩ := List.cons.inj hps
        rw [← Piece.plain.inj hd, h.source]
        exact hnone
    | cons q before => exact h.leftmost before d after (List.cons.inj hps).2

/-- The pieces that are found divide a template. -/
theorem divides_pieces (template : List Char) : Divides template (pieces template) := by
  induction template using pieces.induct with
  | case1 =>
      rw [pieces]
      exact ⟨rfl, fun _ h => absurd h List.not_mem_nil, fun before _ _ h => by cases before <;> cases h⟩
  | case2 c cs body hfound ih =>
      obtain ⟨hbody, rest, hrest⟩ := token_body_eq_some_iff.mp hfound
      have hdrop : cs.drop (body.length + 3) = rest := by
        obtain ⟨_, rfl⟩ := List.cons.inj hrest
        exact List.drop_left' (by simp)
      rw [hdrop] at ih
      rw [← hrest, pieces_of_token hbody]
      exact ih.cons_token hbody
  | case3 c cs hfound ih =>
      have hnone := token_body_eq_none_iff.mp hfound
      rw [pieces_of_plain hnone]
      exact ih.cons_plain hnone

/-- A template has just one division, and it is the one that is found. -/
theorem divides_iff : Divides template ps ↔ ps = pieces template := by
  refine ⟨fun h => ?_, fun h => h ▸ divides_pieces template⟩
  induction ps generalizing template with
  | nil =>
      obtain rfl := h.source
      rw [List.flatMap_nil, pieces]
  | cons p ps ih =>
      have hrest := ih h.tail
      obtain rfl := h.source
      rw [List.flatMap_cons]
      cases p with
      | plain c =>
          exact (congrArg _ hrest).trans (pieces_of_plain (h.leftmost [] c ps rfl)).symm
      | token body =>
          exact (congrArg _ hrest).trans (pieces_of_token (h.bodies body List.mem_cons_self) _).symm

end Rulebook.Template
