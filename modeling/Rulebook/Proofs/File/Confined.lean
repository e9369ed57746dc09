import Rulebook.Proofs.File.Call

/-!
# Calls stay in the store

In a plain tree a call changes nothing outside the folder of the store and leaves the tree plain
(`FileStore.Acts.confined`). So it is after any calls, and each path that one answers leads to a place in the
store (`FileStore.calls_confined`).
-/

namespace Rulebook

namespace FileTree

variable {t t' : FileTree} {origin target : Place} {e : FileEntry}

/-- In a plain tree an entry lands under a proper name. -/
theorem IsPlain.landing_named (h : t.IsPlain) (hsome : (t.get? origin).isSome) (hne : origin ≠ [])
    (hname : ∀ n ∈ target, IsName n) : ∀ n ∈ t.landing origin target, IsName n := by
  by_cases hfolder : t.get? target = some .folder
  · rw [landing_of_folder hne hfolder]
    refine fun n hn => (List.mem_append.mp hn).elim (hname n) fun hn => ?_
    rw [List.mem_singleton.mp hn]
    exact h.named hsome (List.getLast_mem hne)
  · rwa [landing, if_neg hfolder]

/-- An entry lands in a folder if the place that it is given is in one. -/
theorem landing_in (hne : origin ≠ []) (hin : t.get? target.dropLast = some .folder) :
    t.get? (t.landing origin target).dropLast = some .folder := by
  by_cases hfolder : t.get? target = some .folder
  · rwa [landing_of_folder hne hfolder, List.dropLast_concat]
  · rwa [landing, if_neg hfolder]

/-- In a plain tree only what is below a folder is below a place. -/
theorem IsPlain.not_below (h : t.IsPlain) {p : Place} (hne : origin ≠ p)
    (hin : t.get? p.dropLast = some .folder) (hout : t.get? origin = some .folder → ¬origin <+: p) :
    ¬origin <+: p := by
  intro hbelow
  refine hout ?_ hbelow
  obtain ⟨way, rfl⟩ := hbelow
  have hway : way ≠ [] := by
    rintro rfl
    exact hne (List.append_nil origin).symm
  rw [List.dropLast_append_of_ne_nil hway] at hin
  obtain heq | hlt := eq_or_ne way.dropLast []
  · rwa [heq, List.append_nil] at hin
  · exact h.folder_above (by rw [hin]; rfl) (List.prefix_append origin way.dropLast) fun heq =>
      hlt (List.self_eq_append_right.mp heq)

/-- In a plain tree a place in the tree is followed to itself. -/
theorem IsPlain.follow_self (h : t.IsPlain) {p : Place} (hname : ∀ n ∈ p, IsName n) : t.follow [] p = .ok p := by
  rw [follow_eq h.linkless, lead_eq_append fun n hn => (hname n hn).2.2.1]
  rfl

/-- Moving and copying keeps a tree plain and changes nothing but what is below a place that the old and the
new place are below. -/
theorem Gives.confined {root : Place} (h : t.Gives origin target t') (hplain : t.IsPlain) (hne : root ≠ [])
    (horigin : root <+: origin) (htarget : root <+: target) (hentry : t.get? origin = some e)
    (hname : ∀ n ∈ target, IsName n) (hin : t.get? target.dropLast = some .folder) :
    t'.IsPlain ∧ AgreeOutside root t t' := by
  have horigin_ne := horigin.ne_nil hne
  have hbelow := below_landing (t := t) origin htarget
  have hbelow_ne := hbelow.ne_nil hne
  have hlanding := hplain.landing_named (by rw [hentry]; rfl) horigin_ne hname
  have hland := landing_in horigin_ne hin
  cases h with
  | same => exact ⟨hplain, .refl root t⟩
  | moved hmove hout hfree =>
      have hout := hplain.not_below hmove hland hout
      exact ⟨hplain.relocate horigin_ne hlanding hland hout, .relocate t horigin_ne horigin hbelow⟩
  | @file p content hfound hfile hp hfree hin =>
      rw [hplain.follow_self hlanding] at hp
      cases hp
      have hlink : ∀ target, content ≠ .link target := by
        rintro target rfl
        exact hplain.linkless _ target hfound
      exact ⟨hplain.put hbelow_ne hlanding hin hfree hlink, (AgreeOutside.put t hbelow_ne _).mono hbelow⟩
  | folder hfree =>
      have htarget_ne := htarget.ne_nil hne
      exact ⟨hplain.copy_folder htarget_ne hname hin hfree, (copy_folder_outside htarget_ne).mono htarget⟩

end FileTree

namespace FileStore

open FileTree

variable {s : FileStore}

/-- In a plain tree that has an entry in the store, a path leads to a place with proper names only. -/
theorem names_of_resolve (hs : s.tree.IsPlain) {origin target : Place} {e : FileEntry} (horigin : s.root <+: origin)
    (hentry : s.tree.get? origin = some e) {path : String} (h : s.resolve path = .ok target) :
    ∀ n ∈ target, IsName n := by
  obtain ⟨-, hlead, way, rfl⟩ := (resolve_eq_ok_iff hs.linkless).mp h
  intro n hn
  obtain hroot | hway := List.mem_append.mp hn
  · exact hs.named (by rw [hentry]; rfl) (horigin.subset hroot)
  · obtain ⟨hnames, hup⟩ := way_of_lead hlead n hway
    obtain ⟨⟨hempty, hpoint, hslash⟩, -⟩ := mem_names hnames
    exact ⟨hempty, hpoint, hup, hslash⟩

/-- Folders made on the way to a place in the store are made in the store, if anything is there. -/
theorem paved_outside (hs : s.tree.IsPlain) {origin target : Place} {e : FileEntry} (horigin : s.root <+: origin)
    (hentry : s.tree.get? origin = some e) (htarget : s.root <+: target) {t : FileTree}
    (h : Paved target.dropLast s.tree t) : AgreeOutside s.root s.tree t := by
  intro q hq
  obtain heq | ⟨hnone, -, hway⟩ := h q
  · exact heq
  -- A place on the way that is not in the store is above its folder, and so above the entry.
  have hq_target := hway.trans (List.dropLast_prefix target)
  have habove : q <+: origin :=
    ((List.prefix_or_prefix_of_prefix hq_target htarget).resolve_right hq).trans horigin
  have hsome : (s.tree.get? origin).isSome := by rw [hentry]; rfl
  by_cases heq : q = origin
  · rw [heq, hentry] at hnone
    cases hnone
  · rw [hs.folder_above hsome habove heq] at hnone
    cases hnone

/-- In a plain tree a call changes nothing outside the folder of the store and leaves the tree plain. -/
theorem Acts.confined {c : FileCall} {t : FileTree} (h : s.Acts c t) (hs : s.tree.IsPlain) :
    t.IsPlain ∧ AgreeOutside s.root s.tree t := by
  cases h with
  | idle => exact ⟨hs, .refl _ _⟩
  | deleted hp => exact ⟨hs.remove _, (AgreeOutside.remove s.tree).mono (root_of_resolve hp)⟩
  | @placed _ _ _ origin target e _ _ hsource hentry hdestination hgives hdone =>
      have horigin := root_of_resolve hsource
      have htarget := root_of_resolve hdestination
      have hname := names_of_resolve hs horigin hentry hdestination
      obtain ⟨u, hu, hpaved⟩ := s.make_folders_paved [] target.dropLast
      have hplain : (s.makeFolders [] target.dropLast).1.tree.IsPlain :=
        make_folders_plain [] hs rfl fun n hn => hname n (List.dropLast_subset target hn)
      rw [hu] at hgives hplain hdone
      have hpave := paved_outside hs horigin hentry htarget hpaved
      obtain hdone | rfl := hdone
      · have hin := make_folders_ok (s := s) [] rfl hdone
        rw [hu] at hin
        have hfound := hpaved.get_of_some hentry
        obtain ⟨ht, hagree⟩ := hgives.confined hplain s.is_below horigin htarget hfound hname hin
        exact ⟨ht, hpave.trans hagree⟩
      · exact ⟨hplain, hpave⟩

/-- A path that a call answers is that of a place to which some path leads. -/
theorem resolve_of_answer {c : FileCall} {path : String} (h : (s.call c).2 = .ok (.at path)) :
    ∃ destination p, s.resolve destination = .ok p ∧ path = s.pathOf p := by
  have hmove : ∀ {source destination : String}, (s.move source destination).2 = .ok (.at path) →
      ∃ destination p, s.resolve destination = .ok p ∧ path = s.pathOf p := by
    intro source destination hanswer
    obtain ⟨-, -, p, -, -, -, hp, -, -, hpath, -⟩ := of_move hanswer
    cases hpath
    exact ⟨destination, p, hp, rfl⟩
  cases c with
  | move => exact hmove h
  | copy source destination =>
      obtain ⟨p, hp, hpath⟩ := of_copy h
      cases hpath
      exact ⟨destination, p, hp, rfl⟩
  | delete path =>
      rw [call, delete] at h
      split at h
      · cases h
      · cases h
  | rename source name =>
      rw [call, rename] at h
      split at h
      · cases h
      split at h
      · cases h
      split at h
      · cases h
      · exact hmove h

/-- In a plain tree calls leave the tree plain and change nothing outside the folder of the store. -/
theorem after_confined (hs : s.tree.IsPlain) (calls : List FileCall) :
    (s.after calls).tree.IsPlain ∧ AgreeOutside s.root s.tree (s.after calls).tree := by
  induction calls generalizing s with
  | nil => exact ⟨hs, .refl _ _⟩
  | cons c calls ih =>
      obtain ⟨t, ht, hacts⟩ := s.call_acts c
      obtain ⟨hplain, hagree⟩ := hacts.confined hs
      obtain ⟨hlater, hlater_agree⟩ := @ih { s with tree := t } hplain
      rw [after_cons, ht]
      exact ⟨hlater, hagree.trans hlater_agree⟩

end FileStore

end Rulebook
