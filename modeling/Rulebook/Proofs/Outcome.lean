import Mathlib.Data.List.Forall2
import Rulebook.Failure

/-!
# Computations that may fail

A computation made of others comes out well only if they do.
-/

namespace Rulebook.Outcome

variable {ε α β : Type} {x : Except ε α} {b : β}

/-- One computation after another comes out well only if both do. -/
theorem bind_eq_ok {f : α → Except ε β} : (x >>= f) = .ok b ↔ ∃ a, x = .ok a ∧ f a = .ok b := by
  cases x with
  | error e => exact ⟨nofun, fun ⟨_, h, _⟩ => nomatch h⟩
  | ok a =>
      refine ⟨fun h => ⟨a, rfl, h⟩, ?_⟩
      rintro ⟨c, hc, h⟩
      obtain rfl := Except.ok.inj hc
      exact h

/-- One computation after another fails if the first one does, or the next one after it came out well. -/
theorem bind_eq_error {f : α → Except ε β} {e : ε} :
    (x >>= f) = .error e ↔ x = .error e ∨ ∃ a, x = .ok a ∧ f a = .error e := by
  cases x with
  | error d =>
      refine ⟨fun h => .inl (by cases h; rfl), ?_⟩
      rintro (h | ⟨_, h, _⟩) <;> cases h
      rfl
  | ok a =>
      refine ⟨fun h => .inr ⟨a, rfl, h⟩, ?_⟩
      rintro (h | ⟨c, hc, h⟩)
      · cases h
      · cases hc
        exact h

/-- A computation whose result is transformed comes out well only if it does. -/
theorem map_eq_ok {f : α → β} : x.map f = .ok b ↔ ∃ a, x = .ok a ∧ f a = b := by
  cases x with
  | error e => exact ⟨nofun, fun ⟨_, h, _⟩ => nomatch h⟩
  | ok a => simp [Except.map]

/-- A computation whose result is transformed fails if it does. -/
theorem map_eq_error {f : α → β} {e : ε} : x.map f = .error e ↔ x = .error e := by
  cases x <;> simp [Except.map]

/-- A computation comes out well whatever its failure is turned into. -/
theorem map_error_eq_ok {δ : Type} {f : ε → δ} {a : α} : x.mapError f = .ok a ↔ x = .ok a := by
  cases x <;> simp [Except.mapError]

/-- A computation fails whatever its failure is turned into. -/
theorem map_error_eq_error {δ : Type} {f : ε → δ} {d : δ} :
    x.mapError f = .error d ↔ ∃ e, x = .error e ∧ f e = d := by
  cases x <;> simp [Except.mapError]

/-- Something is made of what may be missing if it is there and something comes of it. -/
theorem made_eq_ok_iff {o : Option α} {f : α → Except ε β} :
    o.mapM f = .ok (some b) ↔ ∃ a, o = some a ∧ f a = .ok b := by
  cases o with
  | none => exact iff_of_false nofun nofun
  | some a =>
      show (f a).map some = .ok (some b) ↔ _
      rw [map_eq_ok]
      constructor
      · rintro ⟨c, hc, heq⟩
        obtain rfl := Option.some.inj heq
        exact ⟨a, rfl, hc⟩
      · rintro ⟨c, hc, hb⟩
        obtain rfl := Option.some.inj hc
        exact ⟨b, hb, rfl⟩

/-- What comes out and looks a certain way came out well. -/
theorem ok_of_map {γ : Type} {x : Except ε α} {f : α → γ} {c : γ} (h : x.toOption.map f = some c) :
    ∃ a, x = .ok a ∧ f a = c := by
  obtain ⟨a, ha, hc⟩ := Option.map_eq_some_iff.mp h
  match x, ha with
  | .ok _, ha => exact ⟨a, congrArg _ (Option.some.inj ha), hc⟩

/-- What is found and looks a certain way was found. -/
theorem found_of_map {γ : Type} {x : Except ε (Option α)} {f : α → γ} {c : γ}
    (h : x.toOption.join.map f = some c) : ∃ a, x = .ok (some a) ∧ f a = c := by
  obtain ⟨a, ha, hc⟩ := Option.map_eq_some_iff.mp h
  match x, ha with
  | .ok (some _), ha => exact ⟨a, congrArg _ ha, hc⟩

/-- To make items of those of a list fails with the first failure. -/
theorem map_eq_error_iff {f : α → Except ε β} {l : List α} {e : ε} :
    l.mapM f = .error e ↔ ∃ before a after, l = before ++ a :: after ∧
      (∀ b ∈ before, ∃ r, f b = .ok r) ∧ f a = .error e := by
  induction l with
  | nil =>
      refine iff_of_false nofun ?_
      rintro ⟨before, a, after, h, _⟩
      cases before <;> cases h
  | cons a l ih =>
      rw [List.mapM_cons]
      cases ha : f a with
      | error g =>
          constructor
          · intro h
            cases h
            exact ⟨[], a, l, rfl, by simp, ha⟩
          · rintro ⟨before, b, after, h, hbefore, hb⟩
            cases before with
            | nil =>
                obtain ⟨rfl, rfl⟩ := List.cons.inj h
                cases ha.symm.trans hb
                rfl
            | cons c before =>
                obtain ⟨rfl, rfl⟩ := List.cons.inj h
                obtain ⟨r, hr⟩ := hbefore a List.mem_cons_self
                cases ha.symm.trans hr
      | ok r =>
          have hrest : (∃ before b after, a :: l = before ++ b :: after ∧
              (∀ c ∈ before, ∃ r, f c = .ok r) ∧ f b = .error e) ↔ l.mapM f = .error e := by
            rw [ih]
            constructor
            · rintro ⟨before, b, after, h, hbefore, hb⟩
              cases before with
              | nil =>
                  obtain ⟨rfl, rfl⟩ := List.cons.inj h
                  cases ha.symm.trans hb
              | cons c before =>
                  obtain ⟨rfl, rfl⟩ := List.cons.inj h
                  exact ⟨before, b, after, rfl, fun c hc => hbefore c (List.mem_cons_of_mem a hc), hb⟩
            · rintro ⟨before, b, after, rfl, hbefore, hb⟩
              exact ⟨a :: before, b, after, rfl, List.forall_mem_cons.mpr ⟨⟨r, ha⟩, hbefore⟩, hb⟩
          rw [hrest]
          cases l.mapM f <;> simp [bind, Except.bind, pure, Except.pure]

/-- Items come of a list if one comes of each of its items. -/
theorem map_eq_ok_of_forall {f : α → Except ε β} {l : List α} (h : ∀ a ∈ l, ∃ b, f a = .ok b) :
    ∃ k, l.mapM f = .ok k := by
  induction l with
  | nil => exact ⟨[], rfl⟩
  | cons a l ih =>
      obtain ⟨b, hb⟩ := h a List.mem_cons_self
      obtain ⟨k, hk⟩ := ih fun c hc => h c (List.mem_cons_of_mem a hc)
      exact ⟨b :: k, by rw [List.mapM_cons, hb, hk]; rfl⟩

/-- If making items always comes out well, then it does for a list. -/
theorem map_eq_ok_of_eq {f : α → Except ε β} {g : α → β} {l : List α} (h : ∀ a ∈ l, f a = .ok (g a)) :
    l.mapM f = .ok (l.map g) := by
  induction l with
  | nil => rfl
  | cons a l ih =>
      obtain ⟨ha, hrest⟩ := List.forall_mem_cons.mp h
      rw [List.mapM_cons, ha, ih hrest]
      rfl

/-- The items that come of a list are made of its items one by one. -/
theorem forall_of_map_eq_ok {f : α → Except ε β} {l : List α} {k : List β} (h : l.mapM f = .ok k) :
    List.Forall₂ (fun a b => f a = .ok b) l k := by
  induction l generalizing k with
  | nil =>
      obtain rfl := Except.ok.inj h
      exact .nil
  | cons a l ih =>
      rw [List.mapM_cons] at h
      obtain ⟨b, hb, h⟩ := bind_eq_ok.mp h
      obtain ⟨k', hk, h⟩ := bind_eq_ok.mp h
      obtain rfl := Except.ok.inj h
      exact .cons hb (ih hk)

/-- Items come of a list exactly if they come of its items one by one. -/
theorem map_eq_ok_iff {f : α → Except ε β} {l : List α} {k : List β} :
    l.mapM f = .ok k ↔ List.Forall₂ (fun a b => f a = .ok b) l k := by
  refine ⟨forall_of_map_eq_ok, fun h => ?_⟩
  induction h with
  | nil => rfl
  | cons hab _ ih =>
      rw [List.mapM_cons, hab, ih]
      rfl

/-- If items come of a list, then one comes of each of its items. -/
theorem ok_of_mem {f : α → Except ε β} {l : List α} {k : List β} {a : α} (h : l.mapM f = .ok k) (ha : a ∈ l) :
    ∃ b ∈ k, f a = .ok b := by
  obtain ⟨n, hn, rfl⟩ := List.getElem_of_mem ha
  have hall := forall_of_map_eq_ok h
  exact ⟨_, List.getElem_mem _, hall.get hn (hall.length_eq ▸ hn)⟩

/-- A test that comes out well keeps what meets it. -/
theorem filter_eq_ok {f : α → Except ε Bool} {p : α → Bool} {l : List α} (h : ∀ a ∈ l, f a = .ok (p a)) :
    l.filterM f = .ok (l.filter p) := by
  -- what was kept so far is in reverse
  have hacc : ∀ kept, l.filterAuxM f kept = .ok ((l.filter p).reverse ++ kept) := by
    induction l with
    | nil => exact fun _ => rfl
    | cons a l ih =>
        obtain ⟨ha, hrest⟩ := List.forall_mem_cons.mp h
        intro kept
        rw [List.filterAuxM, ha]
        show l.filterAuxM f (cond (p a) (a :: kept) kept) = _
        rw [ih hrest]
        cases hp : p a <;> simp [hp]
  rw [List.filterM, hacc]
  exact congrArg Except.ok (by simp)

end Rulebook.Outcome
