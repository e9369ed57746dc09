import Rulebook.Proofs.EventType
import Rulebook.Proofs.Outcome
import Rulebook.Proofs.Template.Token
import Rulebook.Proofs.Value.Content

/-!
# How templates are filled in

`Template.Fills` tells what a piece of a template becomes: a character outside tokens stays, a token becomes the text
of the value at its path, and it stays if there is none. A template becomes what its pieces become, one after another
(`Template.Renders`), so inserted text is never searched for tokens. In a value each text is a template, and all else
stays (`Template.RendersValue`). Filling in does just that unless a path cannot be followed
(`Template.render_eq_ok_iff`, `Template.render_value_eq_ok_iff`).
-/

namespace Rulebook

namespace Path

/-- A path without blanks at its ends has the same segments. -/
theorem segments_trim (path : String) :
    segments (Text.trim path) = segments path ∨
      ∃ e e', segments (Text.trim path) = .error e ∧ segments path = .error e' := by
  have hnormal : normalize (Text.trim path).toList = normalize path.toList := by
    rw [Text.trim, String.toList_ofList, normalize, Text.trim_of_trimmed (Text.trimmed_trim _), normalize]
  unfold segments
  rw [hnormal]
  split
  · exact .inl rfl
  · dsimp only
    split
    · exact .inr ⟨_, _, rfl, rfl⟩
    · exact .inl rfl

/-- Blanks at the ends of a path do not matter to where it leads. -/
theorem resolve_trim (data : Value) (path : String) :
    resolve data (Text.trim path) = resolve data path ∨
      ∃ e e', resolve data (Text.trim path) = .error (.path e) ∧ resolve data path = .error (.path e') := by
  unfold resolve
  obtain h | ⟨e, e', he, he'⟩ := segments_trim path
  · exact .inl (by rw [h])
  · exact .inr ⟨e, e', by rw [he], by rw [he']⟩

end Path

namespace Template

/-- What a piece of a template becomes. -/
inductive Fills (data : Value) : Piece → List Char → Prop where
  /-- A character outside tokens stays. -/
  | plain (c : Char) : Fills data (.plain c) [c]
  /-- A list is written in JSON. -/
  | list {body : List Char} {l : List Value} :
      Path.resolve data (Text.trim (String.ofList body)) = .ok (some (.list l)) →
      Fills data (.token body) (Json.print (.list l)).toList
  /-- An object is written in JSON. -/
  | object {body : List Char} {fs : Fields} :
      Path.resolve data (Text.trim (String.ofList body)) = .ok (some (.object fs)) →
      Fills data (.token body) (Json.print (.object fs)).toList
  /-- Any other value that is not null has a text of its own. -/
  | flat {body : List Char} {v : Value} :
      Path.resolve data (Text.trim (String.ofList body)) = .ok (some v) → v ≠ .null →
      (∀ l, v ≠ .list l) → (∀ fs, v ≠ .object fs) → Fills data (.token body) v.plain.toList
  /-- A token stays if its path leads to null. -/
  | null {body : List Char} :
      Path.resolve data (Text.trim (String.ofList body)) = .ok (some .null) →
      Fills data (.token body) (Piece.token body).source
  /-- A token stays if its path leads nowhere. -/
  | nowhere {body : List Char} :
      Path.resolve data (Text.trim (String.ofList body)) = .ok none →
      Fills data (.token body) (Piece.token body).source
  /-- A token stays if its path is malformed. -/
  | malformed {body : List Char} {e : PathError} :
      Path.resolve data (Text.trim (String.ofList body)) = .error (.path e) →
      Fills data (.token body) (Piece.token body).source

/-- A template becomes a text: what its pieces become makes it up. -/
def Renders (data : Value) (template t : String) : Prop :=
  ∃ ps parts, Divides template.toList ps ∧ List.Forall₂ (Fills data) ps parts ∧ t.toList = parts.flatten

/-- A value becomes another one: its texts are filled in, and names, lengths and all else stay. -/
inductive RendersValue (data : Value) : Value → Value → Prop where
  /-- A text is a template. -/
  | text {s t : String} : Renders data s t → RendersValue data (.text s) (.text t)
  /-- The items of a list stay in their places. -/
  | list {l k : List Value} : List.Forall₂ (RendersValue data) l k → RendersValue data (.list l) (.list k)
  /-- The fields of an object keep their names and places. -/
  | object {fs gs : Fields} : fs.map (·.1) = gs.map (·.1) →
      List.Forall₂ (RendersValue data) (fs.map (·.2)) (gs.map (·.2)) →
      RendersValue data (.object fs) (.object gs)
  /-- Anything else stays. -/
  | leaf {v : Value} : (∀ s, v ≠ .text s) → (∀ l, v ≠ .list l) → (∀ fs, v ≠ .object fs) → RendersValue data v v

/-- A text stands somewhere in a value. -/
inductive HasText : Value → String → Prop where
  /-- It is the value. -/
  | here (s : String) : HasText (.text s) s
  /-- It stands in an item. -/
  | item {l : List Value} {v : Value} {s : String} : v ∈ l → HasText v s → HasText (.list l) s
  /-- It stands in a field. -/
  | field {fs : Fields} {k : String} {v : Value} {s : String} :
      (k, v) ∈ fs → HasText v s → HasText (.object fs) s

/-- No path of a token in a template looks like a number for a list and is none. -/
def IsFollowed (data : Value) (template : String) : Prop :=
  ∀ ps body, Divides template.toList ps → .token body ∈ ps →
    ∀ f, Path.resolve data (Text.trim (String.ofList body)) ≠ .error (.index f)

variable {data v w : Value} {template t : String} {p : Piece} {part : List Char}

/-! ### Templates -/

/-- A piece becomes what it is filled in with. -/
theorem piece_render_eq_ok_iff : p.render data = .ok part ↔ Fills data p part := by
  cases p with
  | plain c =>
      constructor
      · rintro ⟨⟩
        exact .plain c
      · rintro ⟨⟩
        rfl
  | token body =>
      rw [Piece.render]
      obtain hpath | ⟨e, e', htrim, hpath⟩ := Path.resolve_trim data (String.ofList body)
      · rw [← hpath]
        constructor
        · intro h
          split at h
          next => cases h
          next hresolve => exact Except.ok.inj h ▸ .malformed hresolve
          next hresolve => exact Except.ok.inj h ▸ .nowhere hresolve
          next hresolve => exact Except.ok.inj h ▸ .null hresolve
          next v hnull hresolve =>
            obtain rfl := Except.ok.inj h
            cases v with
            | list l => exact .list hresolve
            | object fs => exact .object hresolve
            | _ => exact .flat hresolve hnull nofun nofun
        · intro h
          cases h with
          | list h | object h => rw [h]; rfl
          | null h | nowhere h | malformed h => rw [h]
          | @flat _ v h hnull hlist hobject =>
              rw [h]
              cases v with
              | null => exact absurd rfl hnull
              | list l => exact absurd rfl (hlist l)
              | object fs => exact absurd rfl (hobject fs)
              | _ => rfl
      · rw [hpath]
        constructor
        · rintro ⟨⟩
          exact .malformed htrim
        · intro h
          cases h with
          | malformed => rfl
          | list h | object h | flat h | null h | nowhere h => cases htrim.symm.trans h

/-- A token is not filled in exactly if its path cannot be followed. -/
theorem token_render_eq_error_iff {body : List Char} {f : NumberFault} : (Piece.token body).render data = .error f ↔
    Path.resolve data (Text.trim (String.ofList body)) = .error (.index f) := by
  rw [Piece.render]
  obtain hpath | ⟨e, e', htrim, hpath⟩ := Path.resolve_trim data (String.ofList body)
  · rw [← hpath]
    constructor
    · intro h
      split at h <;> cases h
      assumption
    · intro h
      rw [h]
  · rw [hpath, htrim]
    exact iff_of_false nofun nofun

/-- A template is filled in exactly if it becomes what its pieces become. -/
theorem render_eq_ok_iff : render template data = .ok t ↔ Renders data template t := by
  unfold render Renders
  rw [Outcome.bind_eq_ok]
  simp only [Outcome.map_eq_ok_iff, piece_render_eq_ok_iff, divides_iff, Except.ok.injEq]
  constructor
  · rintro ⟨parts, hparts, rfl⟩
    exact ⟨_, parts, rfl, hparts, String.toList_ofList⟩
  · rintro ⟨_, parts, rfl, hparts, ht⟩
    exact ⟨parts, hparts, by rw [← ht, String.ofList_toList]⟩

/-- A template is filled in if the paths of its tokens can be followed. -/
theorem render_of_followed (h : IsFollowed data template) : ∃ t, render template data = .ok t := by
  have hpieces : ∀ p ∈ pieces template.toList, ∃ part, p.render data = .ok part := by
    intro p hp
    cases hrender : p.render data with
    | ok part => exact ⟨part, rfl⟩
    | error f =>
        cases p with
        | plain c => cases hrender
        | token body => exact absurd (token_render_eq_error_iff.mp hrender) (h _ body (divides_pieces _) hp f)
  obtain ⟨parts, hparts⟩ := Outcome.map_eq_ok_of_forall hpieces
  exact ⟨String.ofList parts.flatten, by rw [render, hparts]; rfl⟩

/-! ### Values -/

/-- The items of a list are filled in one by one. -/
theorem render_items_eq (data : Value) (l : List Value) : renderItems data l = l.mapM (renderValue data) := by
  induction l with
  | nil => rfl
  | cons v l ih => rw [renderItems, ih, List.mapM_cons]; rfl

/-- The values of fields are filled in one by one, under the same names. -/
theorem render_fields_eq_ok_iff {fs gs : Fields} : renderFields data fs = .ok gs ↔
    fs.map (·.1) = gs.map (·.1) ∧ (fs.map (·.2)).mapM (renderValue data) = .ok (gs.map (·.2)) := by
  induction fs generalizing gs with
  | nil =>
      rw [renderFields]
      constructor
      · rintro ⟨⟩
        exact ⟨rfl, rfl⟩
      · rintro ⟨hnames, _⟩
        rw [List.map_eq_nil_iff.mp hnames.symm]
  | cons field fs ih =>
      obtain ⟨k, v⟩ := field
      rw [renderFields, Outcome.bind_eq_ok, List.map_cons, List.map_cons, List.mapM_cons, Outcome.bind_eq_ok]
      constructor
      · rintro ⟨w, hw, hrest⟩
        obtain ⟨gs, hgs, hrest⟩ := Outcome.bind_eq_ok.mp hrest
        obtain rfl := Except.ok.inj hrest
        obtain ⟨hnames, hvalues⟩ := ih.mp hgs
        exact ⟨congrArg (k :: ·) hnames, w, hw, by rw [hvalues]; rfl⟩
      · rintro ⟨hnames, w, hw, hrest⟩
        obtain ⟨ws, hws, hvalues⟩ := Outcome.bind_eq_ok.mp hrest
        cases gs with
        | nil => cases hnames
        | cons g gs =>
            obtain ⟨hname, hnames⟩ := List.cons.inj hnames
            obtain ⟨hvalue, hvalues⟩ := List.cons.inj (Except.ok.inj hvalues)
            have hg : (k, w) = g := Prod.ext hname hvalue
            have hgs : renderFields data fs = .ok gs := ih.mpr ⟨hnames, hvalues ▸ hws⟩
            exact ⟨w, hw, by rw [hgs, ← hg]; rfl⟩

/-- Values become others one by one exactly if they are filled in so. -/
theorem renders_values_iff {l k : List Value} (h : ∀ v ∈ l, ∀ w, renderValue data v = .ok w ↔ RendersValue data v w) :
    l.mapM (renderValue data) = .ok k ↔ List.Forall₂ (RendersValue data) l k := by
  rw [Outcome.map_eq_ok_iff]
  induction l generalizing k with
  | nil => exact ⟨fun h => by cases h; exact .nil, fun h => by cases h; exact .nil⟩
  | cons v l ih =>
      obtain ⟨hv, hl⟩ := List.forall_mem_cons.mp h
      cases k with
      | nil => exact ⟨nofun, nofun⟩
      | cons w k => rw [List.forall₂_cons, List.forall₂_cons, hv, ih hl]

/-- What is neither text, list nor object stays, as it should. -/
theorem render_leaf_eq_ok_iff (htext : ∀ s, v ≠ .text s) (hlist : ∀ l, v ≠ .list l)
    (hobject : ∀ fs, v ≠ .object fs) : renderValue data v = .ok w ↔ RendersValue data v w := by
  have hstays : renderValue data v = .ok v := by
    cases v with
    | text s => exact absurd rfl (htext s)
    | list l => exact absurd rfl (hlist l)
    | object fs => exact absurd rfl (hobject fs)
    | _ => rw [renderValue] <;> nofun
  rw [hstays]
  constructor
  · rintro ⟨⟩
    exact .leaf htext hlist hobject
  · intro h
    cases h with
    | text => exact absurd rfl (htext _)
    | list => exact absurd rfl (hlist _)
    | object => exact absurd rfl (hobject _)
    | leaf => rfl

/-- A value is filled in exactly if its texts are. -/
theorem render_value_eq_ok_iff : renderValue data v = .ok w ↔ RendersValue data v w := by
  induction v using Value.by_parts generalizing w with
  | text s =>
      rw [renderValue, Outcome.map_eq_ok]
      constructor
      · rintro ⟨t, ht, rfl⟩
        exact .text (render_eq_ok_iff.mp ht)
      · intro h
        cases h with
        | text ht => exact ⟨_, render_eq_ok_iff.mpr ht, rfl⟩
        | leaf htext => exact absurd rfl (htext s)
  | list l ih =>
      rw [renderValue, Outcome.map_eq_ok]
      simp only [render_items_eq, renders_values_iff fun v hv w => ih v hv]
      constructor
      · rintro ⟨k, hk, rfl⟩
        exact .list hk
      · intro h
        cases h with
        | list hk => exact ⟨_, hk, rfl⟩
        | leaf _ hlist => exact absurd rfl (hlist l)
  | object fs ih =>
      rw [renderValue, Outcome.map_eq_ok]
      have hvalues : ∀ v ∈ fs.map (·.2), ∀ w, renderValue data v = .ok w ↔ RendersValue data v w := by
        rintro v hv w
        obtain ⟨⟨k, _⟩, hmem, rfl⟩ := List.mem_map.mp hv
        exact ih k _ hmem
      simp only [render_fields_eq_ok_iff, renders_values_iff hvalues]
      constructor
      · rintro ⟨gs, ⟨hnames, hgs⟩, rfl⟩
        exact .object hnames hgs
      · intro h
        cases h with
        | object hnames hgs => exact ⟨_, ⟨hnames, hgs⟩, rfl⟩
        | leaf _ _ hobject => exact absurd rfl (hobject fs)
  | null | bool | int | float | moment => exact render_leaf_eq_ok_iff nofun nofun nofun

/-- A value is filled in if the paths of the tokens in its texts can be followed. -/
theorem render_value_of_followed (h : ∀ s, HasText v s → IsFollowed data s) : ∃ w, renderValue data v = .ok w := by
  induction v using Value.by_parts with
  | text s =>
      obtain ⟨t, ht⟩ := render_of_followed (h s (.here s))
      exact ⟨.text t, by rw [renderValue, ht]; rfl⟩
  | list l ih =>
      obtain ⟨k, hk⟩ := Outcome.map_eq_ok_of_forall fun v hv => ih v hv fun s hs => h s (.item hv hs)
      exact ⟨.list k, by rw [renderValue, render_items_eq, hk]; rfl⟩
  | object fs ih =>
      have hvalues : ∀ v ∈ fs.map (·.2), ∃ w, renderValue data v = .ok w := by
        intro v hv
        obtain ⟨⟨k, _⟩, hmem, rfl⟩ := List.mem_map.mp hv
        exact ih k _ hmem fun s hs => h s (.field hmem hs)
      obtain ⟨ws, hws⟩ := Outcome.map_eq_ok_of_forall hvalues
      have hlength : (fs.map (·.1)).length = ws.length := by
        rw [List.length_map, ← (Outcome.forall_of_map_eq_ok hws).length_eq, List.length_map]
      have hfields : renderFields data fs = .ok ((fs.map (·.1)).zip ws) := by
        refine render_fields_eq_ok_iff.mpr ⟨?_, ?_⟩
        · exact (List.map_fst_zip (Nat.le_of_eq hlength)).symm
        · rw [hws, List.map_snd_zip (Nat.le_of_eq hlength.symm)]
      exact ⟨_, by rw [renderValue, hfields]; rfl⟩
  | null | bool | int | float | moment =>
      exact ⟨_, render_value_eq_ok_iff.mpr (.leaf nofun nofun nofun)⟩

end Template

end Rulebook
