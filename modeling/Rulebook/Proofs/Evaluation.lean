import Rulebook.Proofs.Fault
import Rulebook.Proofs.Path
import Rulebook.Template

/-!
# When data can be evaluated

Paths, templates and conditions are evaluated on any data. They fail only where a path is stuck, that is
where a segment for a list looks like a numeral and is none, and where a comparison meets an integer that
is too large for a binary64 number (`evaluation_faults_iff`). Else a malformed path makes its condition
false and leaves its token as it is.
-/

namespace Rulebook

namespace Template

variable {data : Value} {f : NumberFault}

/-- The first token of a template whose path is stuck is stuck with `f`. -/
def FirstFault (template : String) (data : Value) (f : NumberFault) : Prop :=
  ∃ before body after, pieces template.toList = before ++ .token body :: after ∧
    (∀ b, .token b ∈ before → ∀ g, Path.resolve data (String.ofList b) ≠ .error (.index g)) ∧
    Path.resolve data (String.ofList body) = .error (.index f)

/-- A piece cannot be filled in exactly if it is a token whose path is stuck. -/
theorem piece_eq_error_iff {p : Piece} : p.render data = .error f ↔
    ∃ body, p = .token body ∧ Path.resolve data (String.ofList body) = .error (.index f) := by
  cases p with
  | plain c => exact iff_of_false nofun fun ⟨_, h, _⟩ => nomatch h
  | token body =>
      rw [Piece.render]
      simp only [Piece.token.injEq, exists_eq_left']
      rcases Path.resolve data (String.ofList body) with (e | g) | _ | v
      · simp
      · simp
      · simp
      · cases v <;> simp

/-- A piece can be filled in exactly if it is no token whose path is stuck. -/
theorem piece_eq_ok_iff {p : Piece} : (∃ cs, p.render data = .ok cs) ↔
    ∀ body, p = .token body → ∀ g, Path.resolve data (String.ofList body) ≠ .error (.index g) := by
  cases hp : p.render data with
  | error g =>
      obtain ⟨body, hbody, hstuck⟩ := piece_eq_error_iff.mp hp
      exact iff_of_false nofun fun h => h body hbody g hstuck
  | ok cs =>
      refine iff_of_true ⟨cs, rfl⟩ fun body hbody g hstuck => ?_
      cases hp.symm.trans (piece_eq_error_iff.mpr ⟨body, hbody, hstuck⟩)

/-- Filling in a template fails with the first token whose path is stuck. -/
theorem render_eq_error_iff {template : String} :
    render template data = .error f ↔ FirstFault template data f := by
  have hpieces : render template data = .error f ↔
      (pieces template.toList).mapM (Piece.render data) = .error f := by
    rw [render]
    cases (pieces template.toList).mapM (Piece.render data) <;> simp [bind, Except.bind]
  rw [hpieces, Outcome.map_eq_error_iff]
  constructor
  · rintro ⟨before, p, after, hsplit, hbefore, hp⟩
    obtain ⟨body, rfl, hstuck⟩ := piece_eq_error_iff.mp hp
    exact ⟨before, body, after, hsplit, fun b hb => piece_eq_ok_iff.mp (hbefore _ hb) b rfl, hstuck⟩
  · rintro ⟨before, body, after, hsplit, hbefore, hstuck⟩
    refine ⟨before, .token body, after, hsplit, fun p hp => ?_, piece_eq_error_iff.mpr ⟨body, rfl, hstuck⟩⟩
    refine piece_eq_ok_iff.mpr fun b hb => ?_
    subst hb
    exact hbefore b hp

end Template

namespace Condition

/-- A condition whose path is malformed does not hold. -/
theorem holds_in_of_malformed {c : Condition} {data : Value} {e : PathError}
    (h : Path.segments c.field = .error e) : c.holdsIn data = .ok false := by
  rw [holdsIn, outcome, Path.resolve_eq_path_error_iff.mpr h]
  rfl

/-- Conditions without a fault are joined as each of them holds or not. -/
theorem all_hold_eq_combine {conditions : List Condition} {data : Value}
    (h : ∀ f, ¬FirstFault conditions data f) :
    ∃ holds : Condition → Bool, (∀ c ∈ conditions, c.holdsIn data = .ok (holds c)) ∧
      allHold conditions data = .ok (combine (conditions.map fun c => (c, holds c))) := by
  obtain ⟨b, hb⟩ := all_hold_eq_ok_iff.mpr h
  obtain ⟨results, hresults, hcombine⟩ := Outcome.bind_eq_ok.mp hb
  refine ⟨fun c => (c.holdsIn data).toOption.getD false, ?_⟩
  have heach := Outcome.forall_of_map_eq_ok hresults
  suffices hsame : results = conditions.map (fun c => (c, (c.holdsIn data).toOption.getD false)) ∧
      ∀ c ∈ conditions, c.holdsIn data = .ok ((c.holdsIn data).toOption.getD false) from
    ⟨hsame.2, hsame.1 ▸ hb.trans hcombine.symm⟩
  clear hb hresults hcombine h
  induction heach with
  | nil => exact ⟨rfl, by simp⟩
  | @cons c r conditions results hr _ ih =>
      obtain ⟨b, hholds, hpair⟩ := Outcome.map_eq_ok.mp hr
      rw [List.map_cons, List.forall_mem_cons, hholds, ← hpair, ← ih.1]
      exact ⟨rfl, rfl, ih.2⟩

end Condition

example : Path.resolve (.object [("items", .list [.int 1])]) "items.²" =
    .error (.index (.noDecimalValue "²")) := by
  rfl

end Rulebook
