import Rulebook.Proofs.File.Confined

/-!
# Renaming

In a plain tree an entry that is renamed lands where `FileStore.renamed` says: beside its old place under the new
name, in the folder of that name if there is one, or in the folder above if the name is two points. So it keeps
its folder and has the new name exactly where the name is not two points and no other folder has it
(`FileStore.rename_keeps_iff`).
-/

namespace Rulebook

namespace FileTree

variable {t t' : FileTree}

/-- `Carried p q t t'` says that what was at one place and below it is at another, and no longer at the first. -/
def Carried (p q : Place) (t t' : FileTree) : Prop :=
  (∀ way, t'.get? (q ++ way) = t.get? (p ++ way)) ∧ (q ≠ p → t'.get? p = none)

/-- The entries of a tree lie only so deep. -/
theorem exists_bound (t : FileTree) : ∃ bound, ∀ p : Place, (t.get? p).isSome → p.length ≤ bound := by
  have hlist : ∀ l : List (Place × FileEntry), ∃ bound, ∀ x ∈ l, x.1.length ≤ bound := by
    intro l
    induction l with
    | nil => exact ⟨0, nofun⟩
    | cons x l ih =>
        obtain ⟨bound, hbound⟩ := ih
        refine ⟨max x.1.length bound, List.forall_mem_cons.mpr ⟨Nat.le_max_left _ _, fun y hy => ?_⟩⟩
        exact Nat.le_trans (hbound y hy) (Nat.le_max_right _ _)
  obtain ⟨bound, hbound⟩ := hlist t.entries
  refine ⟨bound, fun p hp => ?_⟩
  by_cases hne : p = []
  · rw [hne]
    exact Nat.zero_le bound
  rw [get_of_ne hne, List.lookup_isSome_iff] at hp
  obtain ⟨x, hx, heq⟩ := hp
  rw [eq_of_beq heq]
  exact hbound x hx

/-- Nothing is at a place whose entry would have all that is there once more below it. -/
theorem get_eq_none_of_endless {p way : Place} (hway : way ≠ [])
    (h : ∀ rest, t.get? (p ++ (way ++ rest)) = t.get? (p ++ rest)) : t.get? p = none := by
  have hdeep : ∀ k, ∃ rest : Place, k ≤ rest.length ∧ t.get? (p ++ rest) = t.get? p := by
    intro k
    induction k with
    | zero => exact ⟨[], Nat.le_refl 0, by rw [List.append_nil]⟩
    | succ k ih =>
        obtain ⟨rest, hlength, heq⟩ := ih
        refine ⟨way ++ rest, ?_, (h rest).trans heq⟩
        rw [List.length_append]
        exact Nat.add_comm 1 k ▸ Nat.add_le_add (List.length_pos_iff.mpr hway) hlength
  obtain ⟨bound, hbound⟩ := t.exists_bound
  obtain ⟨rest, hlength, heq⟩ := hdeep (bound + 1)
  rw [← heq, ← Option.not_isSome_iff_eq_none]
  intro hsome
  have hle := hbound _ hsome
  rw [List.length_append] at hle
  omega

/-- An entry is not carried to a place and to another below it. -/
theorem Carried.not_below {p q way : Place} (hsome : (t.get? p).isSome) (h : Carried p (q ++ way) t t')
    (hway : way ≠ []) : ¬Carried p q t t' := by
  intro habove
  have hendless : t.get? p = none := by
    refine get_eq_none_of_endless hway fun rest => ?_
    rw [← habove.1, ← List.append_assoc, h.1]
  rw [hendless] at hsome
  cases hsome

/-- An entry that is moved to where no folder is is carried there. -/
theorem IsPlain.carried (h : t.IsPlain) {p q : Place} (hp : p ≠ []) (hq : q ≠ []) (hsome : (t.get? p).isSome)
    (hfree : t.get? q ≠ some .folder) (hne : p ≠ q) : Carried p q t (t.relocate p q) := by
  constructor
  · intro way
    rw [get_relocate hp _ (List.append_ne_nil_of_left_ne_nil hq way), if_pos (List.prefix_append q way),
      List.drop_left]
  · intro _
    have hout : ¬q <+: p := fun hbelow => hfree (h.folder_above hsome hbelow hne.symm)
    rw [get_relocate hp _ hp, if_neg hout, if_pos (List.prefix_refl p)]

end FileTree

namespace FileStore

open FileTree

variable {s s' : FileStore}

/-- The place that a new name stands for beside another: two points for the folder above. -/
def newPlace (p : Place) (name : String) : Place :=
  if name = ".." then p.dropLast.dropLast else p.dropLast ++ [name]

/-- Where an entry is after it was renamed. -/
def renamed (s : FileStore) (p : Place) (name : String) : Place :=
  if newPlace p name = p then p else s.tree.landing p (newPlace p name)

/-- A rename is a move to the path of the place beside the old one. -/
theorem of_rename {source name : String} {a : FileAnswer} (h : (s.rename source name).2 = .ok a) :
    ∃ p d, s.resolve source = .ok p ∧ '/' ∉ (bareName name).toList ∧ s.sibling p (bareName name) = .ok d ∧
      s.rename source name = s.move source d := by
  rw [rename] at h ⊢
  split at h
  · cases h
  next p hp =>
    split at h
    · cases h
    next hslash =>
      split at h
      · cases h
      next d hd =>
        exact ⟨p, d, hp, fun hmem => hslash (List.contains_iff_mem.mpr hmem), hd, by rw [if_neg hslash]⟩

/-- The path of a place beside another leads where the name leads from the folder. -/
theorem lead_of_sibling (hs : s.tree.IsPlain) {p target : Place} {n d : String} (hroot : s.root <+: p)
    (hsome : (s.tree.get? p).isSome) (hd : s.sibling p n = .ok d) (htarget : s.resolve d = .ok target) :
    lead p.dropLast (names n) = some target := by
  rw [sibling] at hd
  split at hd
  swap
  · cases hd
  next hin =>
    cases hd
    obtain ⟨rest, hrest⟩ := List.isPrefixOf_iff_prefix.mp hin
    rw [← hrest] at htarget
    have hproper : ∀ m ∈ p, IsName m := fun m hm => hs.named hsome hm
    have hnames : names (s.pathOf (s.root ++ rest)) = rest := by
      refine names_path_of fun m hm => ?_
      have hmem : m ∈ p.dropLast ++ names n := hrest ▸ List.mem_append_right s.root hm
      obtain hfolder | hname := List.mem_append.mp hmem
      · obtain ⟨hempty, hpoint, -, hslash⟩ := hproper m (List.dropLast_subset p hfolder)
        exact ⟨hempty, hpoint, hslash⟩
      · exact (mem_names hname).1
    obtain ⟨-, hlead, -⟩ := (resolve_eq_ok_iff hs.linkless).mp htarget
    -- From the top, the names of the store's folder lead to it and those of the entry's folder to that.
    have hself : ∀ q : Place, (∀ m ∈ q, m ∈ p) → lead [] q = some q := fun q hq =>
      lead_eq_append fun m hm => (hproper m (hq m hm)).2.2.1
    have htop : lead [] (s.root ++ rest) = some target := by
      rw [lead_append, hself s.root fun m hm => hroot.subset hm, Option.bind_some, ← hlead, hnames]
    rwa [hrest, lead_append, hself p.dropLast fun m hm => List.dropLast_subset p hm, Option.bind_some] at htop

/-- A bare name leads from a folder to the folder itself if it is empty or a point, and to the place beside
otherwise. -/
theorem eq_of_lead {p target : Place} {n : String} (hslash : '/' ∉ n.toList)
    (h : lead p.dropLast (names n) = some target) : target = p.dropLast ∨ target = newPlace p n := by
  by_cases hempty : n = ""
  · rw [hempty] at h
    exact .inl (Option.some.inj h).symm
  by_cases hpoint : n = "."
  · rw [hpoint] at h
    exact .inl (Option.some.inj h).symm
  rw [names_of_bare hslash hempty hpoint, lead, lead] at h
  rw [newPlace]
  split at h
  · next hup =>
      rw [if_pos hup]
      split at h
      · cases h
      · exact .inr (Option.some.inj h).symm
  · next hup =>
      rw [if_neg hup]
      exact .inr (Option.some.inj h).symm

/-- The folder of either of these places is one that the entry is below. -/
theorem dropLast_above {p target : Place} {n : String} (h : target = p.dropLast ∨ target = newPlace p n) :
    target.dropLast <+: p := by
  have hfolder := List.dropLast_prefix p
  obtain rfl | rfl := h
  · exact (List.dropLast_prefix _).trans hfolder
  · rw [newPlace]
    split
    · exact (List.dropLast_prefix _).trans ((List.dropLast_prefix _).trans hfolder)
    · rwa [List.dropLast_concat]

/-- No folder has to be made on the way to a place above an entry. -/
theorem get_of_paved_above {t u : FileTree} (ht : t.IsPlain) {p q : Place} (hsome : (t.get? p).isSome)
    (hq : q <+: p) (h : Paved q t u) : u.get? = t.get? := by
  funext r
  obtain heq | ⟨hnone, -, hr⟩ := h r
  · exact heq
  by_cases hrp : r = p
  · rw [← hrp, hnone] at hsome
    cases hsome
  · rw [ht.folder_above hsome (hr.trans hq) hrp] at hnone
    cases hnone

/-- An entry that is moved to its own place stays. -/
theorem moved_self (s : FileStore) (p : Place) : s.moved p p = .ok s.tree := by
  rw [moved]
  split
  · exact if_pos rfl
  · exact if_pos rfl

/-- An entry that is moved to another place is carried to where it lands, which is not its own place. -/
theorem carried_of_moved (hs : s.tree.IsPlain) {p target : Place} {t : FileTree} (hne : p ≠ [])
    (hsome : (s.tree.get? p).isSome) (hname : ∀ n ∈ target, IsName n) (hother : target ≠ p)
    (h : s.moved p target = .ok t) :
    p ≠ s.tree.landing p target ∧ Carried p (s.tree.landing p target) s.tree t := by
  obtain ⟨heq, -⟩ | ⟨hfree, hend⟩ := of_moved h
  · exact absurd heq.symm hother
  -- Where the entry lands in a folder there is nothing of its name.
  have hnone : s.tree.get? target = some .folder → s.tree.get? (s.tree.landing p target) = none := by
    intro hfolder
    have hreach := hfree hfolder
    rw [reach?, hs.follow_self (hs.landing_named hsome hne hname)] at hreach
    exact Option.map_eq_none_iff.mp hreach
  have hno : s.tree.get? (s.tree.landing p target) ≠ some .folder := by
    by_cases hfolder : s.tree.get? target = some .folder
    · rw [hnone hfolder]
      exact (Option.some_ne_none _).symm
    · rwa [landing, if_neg hfolder]
  have hmove : p ≠ s.tree.landing p target := by
    intro hp
    by_cases hfolder : s.tree.get? target = some .folder
    · rw [hp, hnone hfolder] at hsome
      cases hsome
    · rw [landing, if_neg hfolder] at hp
      exact hother hp.symm
  have hlanding : s.tree.landing p target ≠ [] := fun hnil => hno (hnil ▸ rfl)
  obtain ⟨hp, -⟩ | ⟨-, -, rfl⟩ := hend
  · exact absurd hp hmove
  · exact ⟨hmove, hs.carried hne hlanding hsome hno hmove⟩

/-- An entry that is renamed is carried to where its new name says. -/
theorem carried_of_rename (hs : s.tree.IsPlain) {source name : String} {a : FileAnswer}
    (h : (s.rename source name).2 = .ok a) :
    ∃ p t, s.resolve source = .ok p ∧ (s.tree.get? p).isSome ∧ (s.rename source name).1 = { s with tree := t } ∧
      Carried p (s.renamed p (bareName name)) s.tree t := by
  obtain ⟨p, d, hp, hslash, hd, heq⟩ := of_rename h
  rw [heq] at h ⊢
  obtain ⟨p', e, target, u, t, hfound, htarget, hmade, hmoved, -, hend⟩ := of_move h
  obtain ⟨hp', hentry⟩ := of_existing hfound
  obtain rfl : p = p' := Except.ok.inj (hp.symm.trans hp')
  have hsome : (s.tree.get? p).isSome := by rw [hentry]; rfl
  have hroot := root_of_resolve hp
  have hne := hroot.ne_nil s.is_below
  have hname := names_of_resolve hs hroot hentry htarget
  have hway := eq_of_lead hslash (lead_of_sibling hs hroot hsome hd htarget)
  -- Whatever the name, the folders on the way to the new place are there already.
  obtain ⟨u', hu, hpaved⟩ := s.make_folders_paved [] target.dropLast
  rw [hmade] at hu
  obtain rfl : u = u' := congrArg FileStore.tree hu
  have hget : u.get? = s.tree.get? := get_of_paved_above hs hsome (dropLast_above hway) hpaved
  refine ⟨p, t, hp, hsome, hend, ?_⟩
  have hsplit := List.dropLast_concat_getLast hne
  by_cases hself : target = p
  · have hfolder : target ≠ p.dropLast := fun heq =>
      List.cons_ne_nil (p.getLast hne) [] (List.append_right_eq_self.mp (hsplit.trans (hself.symm.trans heq)))
    rw [hself, moved_self] at hmoved
    cases hmoved
    rw [renamed, ← hway.resolve_left hfolder, if_pos hself, Carried, hget]
    exact ⟨fun _ => rfl, fun hpp => absurd rfl hpp⟩
  · obtain ⟨hmove, hcarried⟩ := carried_of_moved (s := { s with tree := u }) (hs.congr hget) hne
      (by dsimp only; rw [hget]; exact hsome) hname hself hmoved
    unfold Carried landing at hcarried
    unfold landing at hmove
    rw [hget] at hcarried hmove
    -- In its own folder an entry would land where it is.
    have hfolder : target ≠ p.dropLast := by
      rintro rfl
      have habove : s.tree.get? p.dropLast = some .folder := hs.stands (hsplit ▸ hsome)
      exact hmove (hsplit.symm.trans (landing_of_folder hne habove).symm)
    rw [renamed, ← hway.resolve_left hfolder, if_neg hself]
    exact hcarried

end FileStore

end Rulebook
