import Mathlib.Data.List.Induction
import Rulebook.File.Basic
import Rulebook.Proofs.Keys

/-!
# Lookup in file trees

What is at each place after a tree is changed. A tree is plain if it has no links, each entry stands in a
folder and each name can be named by a path (`FileTree.IsPlain`); changes made where nothing or a file is
keep it plain. `FileTree.AgreeOutside` says that two trees differ below a place only.
-/

namespace Rulebook

namespace FileTree

variable {t : FileTree}

/-! ### Lookup -/

/-- At a place below the top is what the list of entries has there. -/
theorem get_of_ne {p : Place} (hp : p ≠ []) : t.get? p = t.entries.lookup p := by
  cases p with
  | nil => exact absurd rfl hp
  | cons => rfl

/-- An entry that is put somewhere is there, and nothing else changes. -/
theorem get_put {p : Place} (hp : p ≠ []) (e : FileEntry) (q : Place) :
    (t.put p e).get? q = if q = p then some e else t.get? q := by
  by_cases hq : q = []
  · subst hq
    rw [if_neg (Ne.symm hp)]
    rfl
  have hput : (t.put p e).entries = if t.entries.any (·.1 == p) then
      t.entries.map fun x => if x.1 == p then (p, e) else x else t.entries ++ [(p, e)] := by
    rw [put]
    split <;> rfl
  rw [get_of_ne hq, get_of_ne hq, hput, lookup_set]
  simp only [beq_iff_eq]

/-- Nothing is left at a place whose entries are removed and below it. -/
theorem get_remove (p : Place) {q : Place} (hq : q ≠ []) :
    (t.remove p).get? q = if p <+: q then none else t.get? q := by
  rw [get_of_ne hq, get_of_ne hq, remove, lookup_filter t.entries (fun x => !p.isPrefixOf x) q]
  by_cases hpq : p <+: q
  · rw [if_pos hpq, List.isPrefixOf_iff_prefix.mpr hpq]
    rfl
  · rw [if_neg hpq, Bool.eq_false_iff.mpr fun h => hpq (List.isPrefixOf_iff_prefix.mp h)]
    rfl

/-- The entries below a place are looked up as those of the place. -/
theorem lookup_below (p rest : Place) : (t.below p).lookup rest = t.entries.lookup (p ++ rest) := by
  rw [below]
  induction t.entries with
  | nil => rfl
  | cons x l ih =>
      rw [List.filterMap_cons, List.lookup_cons]
      by_cases hp : p <+: x.1
      · obtain ⟨way, hway⟩ := hp
        rw [← hway, if_pos (List.isPrefixOf_iff_prefix.mpr (List.prefix_append p way)), List.drop_left]
        dsimp only
        rw [List.lookup_cons, ih]
        by_cases heq : rest = way
        · rw [heq, beq_self_eq_true, beq_self_eq_true]
        · rw [beq_false_of_ne heq, beq_false_of_ne fun h => heq (List.append_cancel_left h)]
      · rw [if_neg fun h => hp (List.isPrefixOf_iff_prefix.mp h)]
        dsimp only
        have hne : p ++ rest ≠ x.1 := fun h => hp ⟨rest, h⟩
        rw [ih, beq_false_of_ne hne]

/-- Looking up entries that all are moved below a place. -/
theorem lookup_moved (l : List (Place × FileEntry)) (p q : Place) :
    (l.map fun x => (p ++ x.1, x.2)).lookup q = if p <+: q then l.lookup (q.drop p.length) else none := by
  induction l with
  | nil => simp
  | cons x l ih =>
      rw [List.map_cons, List.lookup_cons, List.lookup_cons, ih]
      by_cases hpq : p <+: q
      · obtain ⟨rest, rfl⟩ := hpq
        rw [List.drop_left]
        by_cases hx : rest = x.1
        · have hp : p <+: p ++ x.1 := List.prefix_append p x.1
          rw [hx, beq_self_eq_true, beq_self_eq_true, if_pos hp, if_pos hp]
        · rw [beq_false_of_ne hx, beq_false_of_ne fun h => hx (List.append_cancel_left h)]
      · have hne : q ≠ p ++ x.1 := fun h => hpq ⟨x.1, h.symm⟩
        rw [beq_false_of_ne hne, if_neg hpq, if_neg hpq]

/-- What is moved is at its new place, and nothing is left at the old one. -/
theorem get_relocate {source : Place} (hsource : source ≠ []) (destination : Place) {q : Place} (hq : q ≠ []) :
    (t.relocate source destination).get? q =
      if destination <+: q then t.get? (source ++ q.drop destination.length)
      else if source <+: q then none else t.get? q := by
  rw [get_of_ne hq, get_of_ne (t := t) hq, relocate, List.lookup_append, ← get_of_ne hq,
    lookup_moved, lookup_below, get_remove _ hq, get_remove _ hq,
    get_of_ne (t := t) (List.append_ne_nil_of_left_ne_nil hsource _), get_of_ne hq]
  split
  · exact Option.none_or
  · exact Option.or_none

/-! ### Plain trees -/

/-- A name that a path can name: no point, no two points and without slashes. -/
def IsName (n : String) : Prop := n ≠ "" ∧ n ≠ "." ∧ n ≠ ".." ∧ '/' ∉ n.toList

instance (n : String) : Decidable (IsName n) := inferInstanceAs (Decidable (_ ∧ _))

/-- A tree without links in which each entry stands in a folder and has a name that a path can name. -/
structure IsPlain (t : FileTree) : Prop where
  /-- An entry stands in a folder. -/
  stands : ∀ {p : Place} {n : String}, (t.get? (p ++ [n])).isSome → t.get? p = some .folder
  /-- All names on the way to an entry can be named. -/
  named : ∀ {p : Place} {n : String}, (t.get? p).isSome → n ∈ p → IsName n
  /-- There is no link. -/
  linkless : ∀ (p : Place) (target : String), t.get? p ≠ some (.link target)

/-- Whether an entry is a link. -/
def isLink : FileEntry → Bool
  | .link _ => true
  | _ => false

/-- A tree is plain if its list of entries says so of each entry. -/
theorem plain_of_entries (h : ∀ x ∈ t.entries, t.get? x.1.dropLast = some .folder ∧
    (∀ n ∈ x.1, IsName n) ∧ isLink x.2 = false) : t.IsPlain := by
  have hlisted : ∀ {p : Place} {e : FileEntry}, p ≠ [] → t.get? p = some e → (p, e) ∈ t.entries := by
    intro p e hp he
    obtain ⟨before, after, heq, -⟩ := List.lookup_eq_some_iff.mp (get_of_ne hp ▸ he)
    rw [heq]
    exact List.mem_append_right _ List.mem_cons_self
  constructor
  · intro p n hsome
    obtain ⟨e, he⟩ := Option.isSome_iff_exists.mp hsome
    have := (h _ (hlisted (List.concat_ne_nil n _) he)).1
    rwa [List.dropLast_concat] at this
  · intro p n hsome hn
    obtain ⟨e, he⟩ := Option.isSome_iff_exists.mp hsome
    exact (h _ (hlisted (List.ne_nil_of_mem hn) he)).2.1 n hn
  · intro p target he
    have hp : p ≠ [] := by
      rintro rfl
      cases he
    cases (h _ (hlisted hp he)).2.2

namespace IsPlain

/-- A tree that has the same everywhere is plain as well. -/
theorem congr {t' : FileTree} (h : t.IsPlain) (heq : t'.get? = t.get?) : t'.IsPlain := by
  constructor
  · rw [heq]
    exact h.stands
  · rw [heq]
    exact h.named
  · rw [heq]
    exact h.linkless

/-- All that an entry stands below is a folder. -/
theorem folder_above (h : t.IsPlain) {p q : Place} (hq : (t.get? q).isSome) (hpq : p <+: q) (hne : p ≠ q) :
    t.get? p = some .folder := by
  obtain ⟨rest, rfl⟩ := hpq
  induction rest using List.reverseRecOn with
  | nil => exact absurd (List.append_nil p).symm hne
  | append_singleton rest n ih =>
      rw [← List.append_assoc] at hq
      have hfolder := h.stands hq
      by_cases hrest : rest = []
      · rwa [hrest, List.append_nil] at hfolder
      · exact ih (by rw [hfolder]; rfl) fun heq => hrest (List.self_eq_append_right.mp heq)

/-- A tree stays plain where an entry is put into a folder in place of nothing or of a file. -/
theorem put (h : t.IsPlain) {p : Place} {e : FileEntry} (hp : p ≠ []) (hname : ∀ n ∈ p, IsName n)
    (hin : t.get? p.dropLast = some .folder) (hfree : t.get? p ≠ some .folder)
    (he : ∀ target, e ≠ .link target) : (t.put p e).IsPlain := by
  constructor
  · intro q n hsome
    rw [get_put hp] at hsome
    have hfolder : t.get? q = some .folder := by
      split at hsome
      · next heq => rwa [← heq, List.dropLast_concat] at hin
      · exact h.stands hsome
    have hqp : q ≠ p := by
      rintro rfl
      exact hfree hfolder
    rw [get_put hp, if_neg hqp, hfolder]
  · intro q n hsome hn
    rw [get_put hp] at hsome
    split at hsome
    · next heq => exact hname n (heq ▸ hn)
    · exact h.named hsome hn
  · intro q target hlink
    rw [get_put hp] at hlink
    split at hlink
    · exact he target (Option.some.inj hlink)
    · exact h.linkless q target hlink

/-- A tree stays plain where an entry and what is below it is removed. -/
theorem remove (h : t.IsPlain) (p : Place) : (t.remove p).IsPlain := by
  have hleft : ∀ {q : Place} {e : FileEntry}, (t.remove p).get? q = some e → t.get? q = some e := by
    intro q e he
    by_cases hq : q = []
    · rwa [hq] at he ⊢
    rw [get_remove p hq] at he
    split at he
    · cases he
    · exact he
  constructor
  · intro q n hsome
    have hne : q ++ [n] ≠ [] := List.concat_ne_nil n _
    by_cases hq : q = []
    · rw [hq]
      rfl
    rw [get_remove p hne] at hsome
    rw [get_remove p hq]
    split at hsome
    · cases hsome
    · next hout =>
        rw [if_neg fun hpq => hout (hpq.trans (List.prefix_append q [n]))]
        exact h.stands hsome
  · intro q n hsome
    obtain ⟨e, he⟩ := Option.isSome_iff_exists.mp hsome
    exact h.named (by rw [hleft he]; rfl)
  · intro q target hlink
    exact h.linkless q target (hleft hlink)

/-- A tree stays plain where an entry is moved, with what is below it, into a folder that is not below it,
in place of nothing or of a file. -/
theorem relocate (h : t.IsPlain) {source destination : Place} (hsource : source ≠ [])
    (hname : ∀ n ∈ destination, IsName n) (hin : t.get? destination.dropLast = some .folder)
    (hout : ¬source <+: destination) : (t.relocate source destination).IsPlain := by
  have hget := fun (q : Place) (hq : q ≠ []) => get_relocate (t := t) hsource destination hq
  constructor
  · intro q n hsome
    have hne : q ++ [n] ≠ [] := List.concat_ne_nil n _
    by_cases hq : q = []
    · rw [hq]
      rfl
    rw [hget _ hne] at hsome
    rw [hget q hq]
    by_cases hdq : destination <+: q
    · -- Both the entry and its folder were moved.
      obtain ⟨rest, rfl⟩ := hdq
      rw [if_pos (List.append_assoc destination rest [n] ▸ List.prefix_append _ _), List.append_assoc,
        List.drop_left, ← List.append_assoc] at hsome
      rw [if_pos (List.prefix_append _ _), List.drop_left]
      exact h.stands hsome
    rw [if_neg hdq]
    split at hsome
    · -- The entry is the one that was moved.
      next hd =>
        obtain heq | hlt := List.prefix_concat_iff.mp hd
        · rw [heq, List.dropLast_concat] at hin
          rw [if_neg fun hsq => hout (heq ▸ hsq.trans (List.prefix_append q [n])), hin]
        · exact absurd hlt hdq
    · split at hsome
      · cases hsome
      · next hs =>
          rw [if_neg fun hsq => hs (hsq.trans (List.prefix_append q [n]))]
          exact h.stands hsome
  · intro q n hsome hn
    rw [hget q (List.ne_nil_of_mem hn)] at hsome
    split at hsome
    · next hd =>
        obtain ⟨rest, rfl⟩ := hd
        rw [List.drop_left] at hsome
        refine (List.mem_append.mp hn).elim (hname n) fun hrest => ?_
        exact h.named hsome (List.mem_append_right source hrest)
    · split at hsome
      · cases hsome
      · exact h.named hsome hn
  · intro q target hlink
    by_cases hq : q = []
    · rw [hq] at hlink
      cases hlink
    rw [hget q hq] at hlink
    split at hlink
    · exact h.linkless _ target hlink
    · split at hlink
      · cases hlink
      · exact h.linkless q target hlink

end IsPlain

/-! ### Where entries land -/

/-- An entry lands at a place or below it. -/
theorem below_landing {t : FileTree} {root target : Place} (origin : Place) (h : root <+: target) :
    root <+: t.landing origin target := by
  rw [landing]
  split
  · exact h.trans (List.prefix_append _ _)
  · exact h

/-- In a folder an entry lands under its own name. -/
theorem landing_of_folder {origin target : Place} (hne : origin ≠ []) (h : t.get? target = some .folder) :
    t.landing origin target = target ++ [origin.getLast hne] := by
  rw [landing, if_pos h, List.getLast?_eq_some_getLast hne]
  rfl

/-! ### Changes below a place -/

/-- Two trees have the same entries but for those at a place and below it. -/
def AgreeOutside (p : Place) (t t' : FileTree) : Prop := ∀ q, ¬p <+: q → t'.get? q = t.get? q

namespace AgreeOutside

variable {t' t'' : FileTree} {p q : Place}

/-- A tree agrees with itself. -/
theorem refl (p : Place) (t : FileTree) : AgreeOutside p t t := fun _ _ => rfl

/-- Changes below a place come one after the other. -/
theorem trans (h : AgreeOutside p t t') (h' : AgreeOutside p t' t'') : AgreeOutside p t t'' :=
  fun q hq => (h' q hq).trans (h q hq)

/-- What differs below a place only differs only below what the place is below. -/
theorem mono (h : AgreeOutside q t t') (hpq : p <+: q) : AgreeOutside p t t' :=
  fun r hr => h r fun hqr => hr (hpq.trans hqr)

/-- Putting an entry somewhere changes nothing else. -/
theorem put (t : FileTree) {p : Place} (hp : p ≠ []) (e : FileEntry) : AgreeOutside p t (t.put p e) := by
  intro q hq
  rw [get_put hp, if_neg]
  rintro rfl
  exact hq (List.prefix_refl q)

/-- Removing an entry changes nothing but it and what is below it. -/
theorem remove (t : FileTree) {p : Place} : AgreeOutside p t (t.remove p) := by
  intro q hq
  by_cases hne : q = []
  · rw [hne]
    rfl
  · rw [get_remove p hne, if_neg hq]

/-- Moving an entry changes nothing but what is below its two places. -/
theorem relocate (t : FileTree) {source destination : Place} (hsource : source ≠ []) (hs : p <+: source)
    (hd : p <+: destination) : AgreeOutside p t (t.relocate source destination) := by
  intro q hq
  by_cases hne : q = []
  · rw [hne]
    rfl
  · rw [get_relocate hsource _ hne, if_neg fun h => hq (hd.trans h), if_neg fun h => hq (hs.trans h)]

end AgreeOutside

/-! ### Copies of folders -/

end FileTree

namespace Copying

/-- A property of trees holds of a copy with an entry more if it does for a folder and for a file. -/
theorem add_keeps {P : FileTree → Prop} {folder : FileTree → Place → Place → Copying} {c : Copying}
    {source destination : Place} {e : FileEntry} (h : P c.tree)
    (hfolder : c.tree.get? destination = none → P (folder c.tree source destination).tree)
    (hfile : ∀ content, c.tree.get? destination = none → P (c.tree.put destination (.file content))) :
    P (c.add folder source e destination).tree := by
  unfold add
  split
  · exact h
  split
  · exact h
  next hfree =>
    have hnone := Option.not_isSome_iff_eq_none.mp hfree
    cases e with
    | folder => exact hfolder hnone
    | file content => exact hfile content hnone
    | link => exact h

end Copying

namespace FileTree

/-- What is among the entries of a folder is in the tree. -/
theorem get_child {t : FileTree} {p : Place} {n : String} (h : n ∈ (t.children p).map Prod.fst) :
    (t.get? (p ++ [n])).isSome := by
  have hsome : ∃ e, (([n] : Place), e) ∈ t.below p := by
    obtain ⟨⟨n, e⟩, hx, rfl⟩ := List.mem_map.mp h
    obtain ⟨⟨way, e'⟩, hway, heq⟩ := List.mem_filterMap.mp hx
    split at heq
    · next hn =>
        obtain ⟨rfl, rfl⟩ := Prod.mk.inj (Option.some.inj heq)
        obtain rfl : way = [_] := hn
        exact ⟨_, hway⟩
    · cases heq
  obtain ⟨e, he⟩ := hsome
  rw [get_of_ne (List.concat_ne_nil n _), ← lookup_below,
    List.lookup_isSome_iff]
  exact ⟨_, he, beq_self_eq_true _⟩

/-- What holds of the tree with the new folder, and stays true with each entry of the old one that is added,
holds of the tree with the copy. -/
theorem copy_folder_of {P : FileTree → Prop} {t : FileTree} {depth links : Nat} {source destination : Place}
    (hstart : P (t.put destination .folder))
    (hadd : ∀ (c : Copying) (links : Nat) (q : Place) (e : FileEntry),
      ∀ n ∈ (t.children source).map Prod.fst, P c.tree →
        P (c.add (copyFolder depth links) q e (destination ++ [n])).tree) :
    P (t.copyFolder (depth + 1) links source destination).tree := by
  rw [copyFolder]
  refine List.foldlRecOn (motive := fun c : Copying => P c.tree) _ _ hstart fun c hc x hx => ?_
  obtain ⟨n, e⟩ := x
  have hn : n ∈ (t.children source).map Prod.fst := List.mem_map_of_mem hx
  dsimp only
  split
  · split
    · exact hadd c _ _ _ n hn hc
    · exact hadd c _ _ _ n hn hc
  · exact hadd c _ _ _ n hn hc

/-- A place is not below the places right below it. -/
theorem not_below_child (p : Place) (n : String) : ¬p ++ [n] <+: p := by
  intro h
  have := h.length_le
  rw [List.length_append] at this
  exact absurd this (Nat.not_succ_le_self _)

/-- Copying a folder changes nothing but what is below the new place. -/
theorem copy_folder_outside {t : FileTree} {depth links : Nat} {source destination : Place}
    (hd : destination ≠ []) :
    AgreeOutside destination t (t.copyFolder depth links source destination).tree := by
  induction depth generalizing t links source destination with
  | zero => exact .refl destination t
  | succ depth ih =>
      refine copy_folder_of (.put t hd _) fun c links q e n _ hc => ?_
      have hne : destination ++ [n] ≠ [] := List.append_ne_nil_of_left_ne_nil hd _
      have hbelow : destination <+: destination ++ [n] := List.prefix_append _ _
      refine Copying.add_keeps (P := AgreeOutside destination t) hc (fun _ => ?_) fun content _ => ?_
      · exact hc.trans ((ih hne).mono hbelow)
      · exact hc.trans ((AgreeOutside.put c.tree hne _).mono hbelow)

/-- A tree stays plain where a folder is copied to a place in a folder where there is nothing. -/
theorem IsPlain.copy_folder {t : FileTree} (h : t.IsPlain) {depth links : Nat} {source destination : Place}
    (hd : destination ≠ []) (hname : ∀ n ∈ destination, IsName n)
    (hin : t.get? destination.dropLast = some .folder) (hfree : t.get? destination = none) :
    (t.copyFolder depth links source destination).tree.IsPlain := by
  induction depth generalizing t links source destination with
  | zero => exact h
  | succ depth ih =>
      -- Entries are added to the new folder, which stays one.
      refine And.left (copy_folder_of
        (P := fun u => u.IsPlain ∧ u.get? destination = some .folder) ⟨?_, ?_⟩ ?_)
      · exact h.put hd hname hin (by rw [hfree]; nofun) nofun
      · rw [get_put hd, if_pos rfl]
      rintro c links q e n hn ⟨hc, hfolder⟩
      have hne : destination ++ [n] ≠ [] := List.append_ne_nil_of_left_ne_nil hd _
      have hnames : ∀ m ∈ destination ++ [n], IsName m := by
        intro m hm
        refine (List.mem_append.mp hm).elim (hname m) fun hmn => ?_
        rw [List.mem_singleton.mp hmn]
        exact h.named (get_child hn) (List.mem_append_right source (List.mem_singleton_self n))
      have hparent : c.tree.get? (destination ++ [n]).dropLast = some .folder := by
        rwa [List.dropLast_concat]
      refine Copying.add_keeps (P := fun u => u.IsPlain ∧ u.get? destination = some .folder) ⟨hc, hfolder⟩
        (fun hnone => ⟨?_, ?_⟩) fun content hnone => ⟨?_, ?_⟩
      · exact ih hc hne hnames hparent hnone
      · rw [copy_folder_outside hne destination (not_below_child destination n), hfolder]
      · exact hc.put hne hnames hparent (by rw [hnone]; nofun) nofun
      · rw [AgreeOutside.put c.tree hne _ destination (not_below_child destination n), hfolder]

end FileTree

end Rulebook
