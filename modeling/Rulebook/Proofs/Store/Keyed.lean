import Mathlib.Data.List.Nodup
import Rulebook.Store.Basic

/-!
# Lists with keys

Tables, rows, runs and jobs are lists that are searched by a key. A change of the entries under a key shows
under that key only, and so does taking them out. Keys stay distinct when an entry is added under a new one
(`Keyed.nodup_add`) or in the place of another entry (`Keyed.nodup_replace`), and while they are distinct, each entry
is what is found under its key (`Keyed.find_eq_some_iff`).
-/

namespace Rulebook.Keyed

variable {α : Type} (key : α → String) {id other : String} {change : α → α}

/-- What is found under a key whose entries are changed is the changed entry. -/
theorem find_change_self (hkey : ∀ a, key a = id → key (change a) = id) (l : List α) :
    (l.map fun a => if key a == id then change a else a).find? (fun a => key a == id) =
      (l.find? fun a => key a == id).map change := by
  induction l with
  | nil => rfl
  | cons a l ih =>
      rw [List.map_cons, List.find?_cons, List.find?_cons]
      by_cases ha : key a = id
      · simp [ha, hkey a ha]
      · have hne : (key a == id) = false := beq_false_of_ne ha
        rw [if_neg (by simp [ha]), hne]
        exact ih

/-- What is found under another key stays. -/
theorem find_change_of_ne (hkey : ∀ a, key a = id → key (change a) = id) (hne : other ≠ id)
    (l : List α) :
    (l.map fun a => if key a == id then change a else a).find? (fun a => key a == other) =
      l.find? fun a => key a == other := by
  induction l with
  | nil => rfl
  | cons a l ih =>
      rw [List.map_cons, List.find?_cons, List.find?_cons, ih]
      by_cases ha : key a = id
      · have hskip : (id == other) = false := beq_false_of_ne hne.symm
        simp [ha, hkey a ha, hskip]
      · simp [ha]

/-- Nothing is found under a key whose entries are taken out. -/
theorem find_drop_self (l : List α) :
    (l.filter fun a => key a != id).find? (fun a => key a == id) = none := by
  rw [List.find?_eq_none]
  intro a ha
  simpa using (List.mem_filter.mp ha).2

/-- What is found under another key stays when the entries under a key are taken out. -/
theorem find_drop_of_ne (hne : other ≠ id) (l : List α) :
    (l.filter fun a => key a != id).find? (fun a => key a == other) =
      l.find? fun a => key a == other := by
  induction l with
  | nil => rfl
  | cons a l ih =>
      by_cases ha : key a = id
      · simp [ha, ih, hne.symm]
      · rw [List.filter_cons, if_pos (by simpa using ha), List.find?_cons, List.find?_cons, ih]

/-- An entry that is added is found under its key if nothing is there yet. -/
theorem find_add_self {a : α} {l : List α} (hkey : key a = id)
    (hnew : (l.find? fun a => key a == id) = none) :
    (l ++ [a]).find? (fun a => key a == id) = some a := by
  rw [List.find?_append, hnew, Option.none_or, List.find?_singleton, if_pos (by simpa using hkey)]

/-- An entry that is added is not found under another key. -/
theorem find_add_of_ne {a : α} {l : List α} (hkey : key a = id) (hne : other ≠ id) :
    (l ++ [a]).find? (fun a => key a == other) = l.find? fun a => key a == other := by
  rw [List.find?_append, List.find?_singleton, if_neg (by simpa [hkey] using hne.symm), Option.or_none]

/-- What is found under a key is one of the entries and has the key. -/
theorem mem_of_find {κ : Type} [BEq κ] [LawfulBEq κ] {name : α → κ} {id : κ} {l : List α} {a : α}
    (h : l.find? (name · == id) = some a) : a ∈ l ∧ name a = id :=
  ⟨List.mem_of_find?_eq_some h, by simpa using List.find?_some h⟩

/-! ### Distinct keys -/

section Distinct

variable {κ : Type} {name : α → κ} {l : List α} {a : α}

/-- Keys stay distinct when an entry is added under a key that is not there. -/
theorem nodup_add (h : (l.map name).Nodup) (hnew : ∀ b ∈ l, name b ≠ name a) :
    ((l ++ [a]).map name).Nodup := by
  rw [List.map_append, List.map_singleton, ← List.concat_eq_append]
  refine h.concat fun hmem => ?_
  obtain ⟨b, hb, heq⟩ := List.mem_map.mp hmem
  exact hnew b hb heq

/-- Keys stay distinct when the entries under a key give way to another one. -/
theorem nodup_replace [BEq κ] [LawfulBEq κ] (h : (l.map name).Nodup) (a : α) :
    ((l.filter (name · != name a) ++ [a]).map name).Nodup := by
  refine nodup_add (h.sublist (List.filter_sublist.map _)) fun b hb => ?_
  simpa using (List.mem_filter.mp hb).2

/-- If keys are distinct, the entry that has a key is found under it. -/
theorem find_eq_some_iff [BEq κ] [LawfulBEq κ] (h : (l.map name).Nodup) {id : κ} :
    l.find? (name · == id) = some a ↔ a ∈ l ∧ name a = id := by
  refine ⟨mem_of_find, ?_⟩
  rintro ⟨ha, rfl⟩
  cases hfind : l.find? (name · == name a) with
  | none => exact absurd (beq_self_eq_true (name a)) (List.find?_eq_none.mp hfind a ha)
  | some b =>
      obtain ⟨hb, heq⟩ := mem_of_find hfind
      rw [List.inj_on_of_nodup_map h hb ha heq]

end Distinct

end Rulebook.Keyed
