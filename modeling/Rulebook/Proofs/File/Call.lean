import Rulebook.Proofs.File.Walk

/-!
# What calls of a file store do

`FileStore.Acts` says how the tree may look after a call: as before, without an entry, or with folders made on
the way to a place and an entry moved or copied there (`FileTree.Gives`). `FileStore.call_acts` is the one place
where the operations are opened; what calls keep follows from it case by case.
-/

namespace Rulebook

/-- A call of a file store. -/
inductive FileCall where
  /-- Moves an entry. -/
  | move (source destination : String)
  /-- Copies an entry. -/
  | copy (source destination : String)
  /-- Deletes an entry. -/
  | delete (path : String)
  /-- Gives an entry another name. -/
  | rename (source name : String)

namespace FileTree

/-- `Paved p t t'` says that folders were made where nothing was on the way to a place. -/
def Paved (p : Place) (t t' : FileTree) : Prop :=
  ∀ q, t'.get? q = t.get? q ∨ t.get? q = none ∧ t'.get? q = some .folder ∧ q <+: p

/-- What is somewhere stays there while folders are made. -/
theorem Paved.get_of_some {p q : Place} {t t' : FileTree} (h : Paved p t t') {e : FileEntry}
    (he : t.get? q = some e) : t'.get? q = some e := by
  obtain heq | ⟨hnone, -⟩ := h q
  · rw [heq, he]
  · rw [hnone] at he
    cases he

/-- `Gives t origin target t'` says what moving or copying the entry at `origin` to `target` may make of a tree. -/
inductive Gives (t : FileTree) (origin target : Place) : FileTree → Prop where
  /-- Nothing changes. -/
  | same : Gives t origin target t
  /-- The entry is moved, but not a folder into itself. -/
  | moved (hne : origin ≠ t.landing origin target)
      (hout : t.get? origin = some .folder → ¬origin <+: t.landing origin target)
      (hfree : t.get? target = some .folder → t.reach? (t.landing origin target) = none) :
      Gives t origin target (t.relocate origin (t.landing origin target))
  /-- A file is copied into a folder. -/
  | file {p : Place} {e : FileEntry} (hentry : t.get? origin = some e) (hfile : e ≠ .folder)
      (hp : t.follow [] (t.landing origin target) = .ok p) (hfree : t.get? p ≠ some .folder)
      (hin : t.get? p.dropLast = some .folder) : Gives t origin target (t.put p e)
  /-- A folder is copied to where nothing is. -/
  | folder {depth links : Nat} (hfree : t.get? target = none) :
      Gives t origin target (t.copyFolder depth links origin target).tree

end FileTree

namespace FileStore

variable {s s' : FileStore}

/-- What a call answers. -/
def call (s : FileStore) : FileCall → FileStore × Except FileFault FileAnswer
  | .move source destination => s.move source destination
  | .copy source destination => s.copy source destination
  | .delete path => s.delete path
  | .rename source name => s.rename source name

/-- The store after calls. -/
def after (s : FileStore) (calls : List FileCall) : FileStore := calls.foldl (fun s c => (s.call c).1) s

/-- Calls are answered one after the other. -/
theorem after_cons (s : FileStore) (c : FileCall) (calls : List FileCall) :
    s.after (c :: calls) = (s.call c).1.after calls := rfl

/-- A store with a folder that has one file, and a file beside it. -/
def sample : FileStore :=
  ⟨"files", ["store"], nofun, 490,
    ⟨[(["store"], .folder), (["store", "docs"], .folder), (["store", "docs", "a.txt"], .file "text"),
      (["other.txt"], .file "other")]⟩⟩

/-! ### The parts of operations -/

/-- An entry is found where its path leads. -/
theorem of_existing {path : String} {p : Place} {e : FileEntry} (h : s.existing path = .ok (p, e)) :
    s.resolve path = .ok p ∧ s.tree.get? p = some e := by
  rw [existing] at h
  cases hp : s.resolve path with
  | error f => rw [hp] at h; cases h
  | ok q =>
      rw [hp] at h
      dsimp only [bind, Except.bind] at h
      split at h
      · next he => cases h; exact ⟨rfl, he⟩
      · cases h

/-- Making folders leaves the store but for its tree, where folders are made. -/
theorem make_folders_paved (s : FileStore) (start : Place) (l : List String) :
    ∃ t, (s.makeFolders start l).1 = { s with tree := t } ∧ FileTree.Paved (start ++ l) s.tree t := by
  induction l generalizing s start with
  | nil => exact ⟨s.tree, rfl, fun _ => .inl rfl⟩
  | cons n l ih =>
      have hway : start ++ n :: l = start ++ [n] ++ l := by rw [List.append_assoc]; rfl
      rw [makeFolders, hway]
      split
      · exact ih s _
      · next hnone =>
          split
          · obtain ⟨t, heq, hpaved⟩ := ih { s with tree := s.tree.put (start ++ [n]) .folder } (start ++ [n])
            refine ⟨t, heq, fun q => ?_⟩
            have hne : start ++ [n] ≠ [] := List.concat_ne_nil n _
            by_cases hq : q = start ++ [n]
            · refine .inr ⟨hq ▸ hnone, hpaved.get_of_some ?_, hq ▸ List.prefix_append _ _⟩
              rw [FileTree.get_put hne, if_pos hq]
            · have := hpaved q
              rwa [FileTree.get_put hne, if_neg hq] at this
          · exact ⟨s.tree, rfl, fun _ => .inl rfl⟩
      · exact ⟨s.tree, rfl, fun _ => .inl rfl⟩

/-- Where all folders on the way to a place could be made, it is a folder. -/
theorem make_folders_ok (start : Place) {l : List String} (hstart : s.tree.get? start = some .folder)
    (h : (s.makeFolders start l).2 = .ok ()) :
    (s.makeFolders start l).1.tree.get? (start ++ l) = some .folder := by
  induction l generalizing s start with
  | nil => rwa [List.append_nil]
  | cons n l ih =>
      have hway : start ++ n :: l = start ++ [n] ++ l := by rw [List.append_assoc]; rfl
      rw [makeFolders] at h ⊢
      rw [hway]
      split at h
      · next hfolder => exact ih _ hfolder h
      · split at h
        · next hlength =>
            rw [if_pos hlength]
            refine ih _ ?_ h
            rw [FileTree.get_put (List.concat_ne_nil n _), if_pos rfl]
        · cases h
      · cases h

/-- Making folders with proper names in a folder keeps a tree plain. -/
theorem make_folders_plain (start : Place) {l : List String} (h : s.tree.IsPlain)
    (hstart : s.tree.get? start = some .folder) (hname : ∀ n ∈ start ++ l, FileTree.IsName n) :
    (s.makeFolders start l).1.tree.IsPlain := by
  induction l generalizing s start with
  | nil => exact h
  | cons n l ih =>
      have hway : start ++ n :: l = start ++ [n] ++ l := by rw [List.append_assoc]; rfl
      rw [hway] at hname
      rw [makeFolders]
      split
      · next hfolder => exact ih _ h hfolder hname
      · next hnone =>
          split
          · have hne : start ++ [n] ≠ [] := List.concat_ne_nil n _
            refine ih _ ?_ ?_ hname
            · refine h.put hne (fun m hm => hname m (List.mem_append_left _ hm)) ?_ ?_ nofun
              · rwa [List.dropLast_concat]
              · rw [hnone]
                nofun
            · rw [FileTree.get_put hne, if_pos rfl]
          · exact h
      · exact h

/-- Before an entry is moved or copied, folders are made on the way to its new place; then it may fail. -/
theorem between_cases (s : FileStore) (source destination : String) :
    ((s.between source destination).1 = s ∧ ∃ f, (s.between source destination).2 = .error f) ∨
      ∃ origin e target, s.existing source = .ok (origin, e) ∧ s.resolve destination = .ok target ∧
        (s.between source destination).1 = (s.makeFolders [] target.dropLast).1 ∧
        ((∃ f, (s.between source destination).2 = .error f) ∨
          (s.makeFolders [] target.dropLast).2 = .ok () ∧
            (s.between source destination).2 = .ok (origin, e, target)) := by
  rw [between]
  cases hsource : s.existing source with
  | error f => exact .inl ⟨rfl, f, rfl⟩
  | ok found =>
      obtain ⟨origin, e⟩ := found
      cases htarget : s.resolve destination with
      | error f => exact .inl ⟨rfl, f, rfl⟩
      | ok target =>
          refine .inr ⟨origin, e, target, rfl, rfl, rfl, ?_⟩
          dsimp only
          cases hmade : (s.makeFolders [] target.dropLast).2 with
          | error f => exact .inl ⟨f, rfl⟩
          | ok u => exact .inr ⟨rfl, rfl⟩

/-- An entry is displaced to where it is, or moved to another place that is not below it. -/
theorem of_displace {source destination asked : Place} {t : FileTree}
    (h : s.displace source destination asked = .ok t) :
    source = destination ∧ t = s.tree ∨
      source ≠ destination ∧ (s.tree.get? source = some .folder → ¬source <+: destination) ∧
        t = s.tree.relocate source destination := by
  rw [displace] at h
  split at h
  · next heq => cases h; exact .inl ⟨heq, rfl⟩
  next hne =>
    split at h
    · cases h
    next hout =>
      split at h
      · cases h
      split at h
      · cases h
      cases h
      refine .inr ⟨hne, fun hfolder hbelow => hout ?_, rfl⟩
      rw [hfolder, Bool.and_eq_true]
      exact ⟨beq_self_eq_true _, List.isPrefixOf_iff_prefix.mpr hbelow⟩

/-- An entry that is moved to its own place stays, and any other goes where it lands: in a folder there is
nothing of its name. -/
theorem of_moved {source target : Place} {t : FileTree} (h : s.moved source target = .ok t) :
    source = target ∧ t = s.tree ∨
      (s.tree.get? target = some .folder → s.tree.reach? (s.tree.landing source target) = none) ∧
        (source = s.tree.landing source target ∧ t = s.tree ∨
          source ≠ s.tree.landing source target ∧
            (s.tree.get? source = some .folder → ¬source <+: s.tree.landing source target) ∧
            t = s.tree.relocate source (s.tree.landing source target)) := by
  rw [moved] at h
  split at h
  · next hfolder =>
      split at h
      · next heq => cases h; exact .inl ⟨heq, rfl⟩
      dsimp only at h
      split at h
      · cases h
      next hfree =>
        exact .inr ⟨fun _ => Option.not_isSome_iff_eq_none.mp hfree, of_displace h⟩
  · next hno =>
      rw [FileTree.landing, if_neg hno]
      exact .inr ⟨fun hfolder => absurd hfolder hno, of_displace h⟩

/-- A file is copied to where it lands, if that is in a folder and no folder itself. -/
theorem of_copied_file {source target : Place} {e : FileEntry} {t : FileTree}
    (h : s.copiedFile source e target = .ok t) :
    ∃ p, s.tree.follow [] (s.tree.landing source target) = .ok p ∧ s.tree.get? p ≠ some .folder ∧
      s.tree.get? p.dropLast = some .folder ∧ t = s.tree.put p e := by
  rw [copiedFile] at h
  split at h
  · cases h
  next p hp =>
    split at h
    · cases h
    split at h
    · cases h
    split at h
    · cases h
    · next hin hno => cases h; exact ⟨p, hp, hno, hin, rfl⟩
    · cases h

/-! ### What calls do -/

/-- `Acts s c t` says how the tree may look after a call. -/
inductive Acts (s : FileStore) : FileCall → FileTree → Prop where
  /-- Nothing changes. -/
  | idle {c : FileCall} : Acts s c s.tree
  /-- An entry is removed with what is below it. -/
  | deleted {path : String} {p : Place} {e : FileEntry} (hp : s.resolve path = .ok p)
      (hentry : s.tree.get? p = some e) : Acts s (.delete path) (s.tree.remove p)
  /-- Folders are made on the way to a place, and an entry is moved or copied there. -/
  | placed {c : FileCall} {source destination : String} {origin target : Place} {e : FileEntry} {t : FileTree}
      (hc : ∀ path, c ≠ .delete path) (horigin : s.resolve source = .ok origin)
      (hentry : s.tree.get? origin = some e) (htarget : s.resolve destination = .ok target)
      (hgives : (s.makeFolders [] target.dropLast).1.tree.Gives origin target t)
      (hdone : (s.makeFolders [] target.dropLast).2 = .ok () ∨ t = (s.makeFolders [] target.dropLast).1.tree) :
      Acts s c t

/-- After an attempt to change the tree, it is as it was or as it should be. -/
theorem afterwards_eq (s : FileStore) (target : Place) (r : Except FileFault FileTree) :
    ∃ t, (s.afterwards target r).1 = { s with tree := t } ∧ (t = s.tree ∨ r = .ok t) := by
  cases r with
  | error f => exact ⟨s.tree, rfl, .inl rfl⟩
  | ok t => exact ⟨t, rfl, .inr rfl⟩

/-- What is made of an entry that was found, after folders were made on the way to its new place. -/
theorem placed_of_between {c : FileCall} (hc : ∀ path, c ≠ .delete path) (source destination : String)
    {r : FileStore × Except FileFault FileAnswer}
    (hfail : ∀ f, (s.between source destination).2 = .error f → r.1 = (s.between source destination).1)
    (hplace : ∀ origin e target, (s.between source destination).2 = .ok (origin, e, target) →
      (s.between source destination).1.tree.get? origin = some e →
      ∃ t, r.1 = { (s.between source destination).1 with tree := t } ∧
        (s.between source destination).1.tree.Gives origin target t) :
    ∃ t, r.1 = { s with tree := t } ∧ s.Acts c t := by
  obtain ⟨hsame, f, hf⟩ | ⟨origin, e, target, hsource, htarget, hmade, hend⟩ := s.between_cases source destination
  · exact ⟨s.tree, (hfail f hf).trans hsame, .idle⟩
  obtain ⟨horigin, hentry⟩ := of_existing hsource
  obtain ⟨u, hu, hpaved⟩ := s.make_folders_paved [] target.dropLast
  have hplaced := fun t hgives hdone => Acts.placed (t := t) hc horigin hentry htarget hgives hdone
  rw [hmade] at hfail hplace
  obtain ⟨f, hf⟩ | ⟨hdone, hok⟩ := hend
  · exact ⟨u, (hfail f hf).trans hu, hplaced u (by rw [hu]; exact .same) (.inr (by rw [hu]))⟩
  · rw [hu] at hplace
    obtain ⟨t, ht, hgives⟩ := hplace origin e target hok (hpaved.get_of_some hentry)
    exact ⟨t, ht, hplaced t (by rw [hu]; exact hgives) (.inl hdone)⟩

/-- Moving an entry places it. -/
theorem move_acts (s : FileStore) {c : FileCall} (hc : ∀ path, c ≠ .delete path) (source destination : String) :
    ∃ t, (s.move source destination).1 = { s with tree := t } ∧ s.Acts c t := by
  rw [move]
  refine placed_of_between hc source destination ?_ ?_
  · intro f hf
    rw [hf]
  · intro origin e target hok _
    rw [hok]
    obtain ⟨t, ht, hsame | hmoved⟩ := (s.between source destination).1.afterwards_eq target
      ((s.between source destination).1.moved origin target)
    · exact ⟨t, ht, hsame ▸ .same⟩
    · obtain ⟨-, rfl⟩ | ⟨hfree, ⟨-, rfl⟩ | ⟨hne, hout, rfl⟩⟩ := of_moved hmoved
      · exact ⟨_, ht, .same⟩
      · exact ⟨_, ht, .same⟩
      · exact ⟨_, ht, .moved hne hout hfree⟩

/-- Copying an entry places its copy. -/
theorem copy_acts (s : FileStore) (source destination : String) :
    ∃ t, (s.copy source destination).1 = { s with tree := t } ∧ s.Acts (.copy source destination) t := by
  rw [copy]
  refine placed_of_between (by rintro _ ⟨⟩) source destination ?_ ?_
  · intro f hf
    rw [hf]
  · intro origin e target hok hentry
    rw [hok]
    dsimp only
    split
    · next heq => cases heq
    · rw [copyFolder]
      split
      · exact ⟨_, rfl, .same⟩
      next hfree =>
        split
        · exact ⟨_, rfl, .same⟩
        · next heq _ =>
            cases heq
            exact ⟨_, rfl, .folder (Option.not_isSome_iff_eq_none.mp hfree)⟩
    · next hfile heq =>
        cases heq
        obtain ⟨t, ht, hsame | hcopied⟩ := (s.between source destination).1.afterwards_eq target
          ((s.between source destination).1.copiedFile origin e target)
        · exact ⟨t, ht, hsame ▸ .same⟩
        · obtain ⟨p, hp, hno, hin, rfl⟩ := of_copied_file hcopied
          exact ⟨_, ht, .file hentry (fun hfolder => hfile hfolder) hp hno hin⟩

/-- An entry was moved if folders could be made on the way to its new place and it could be moved there. -/
theorem of_move {source destination : String} {a : FileAnswer} (h : (s.move source destination).2 = .ok a) :
    ∃ origin e target u t, s.existing source = .ok (origin, e) ∧ s.resolve destination = .ok target ∧
      s.makeFolders [] target.dropLast = ({ s with tree := u }, .ok ()) ∧
      moved { s with tree := u } origin target = .ok t ∧ a = .at (s.pathOf target) ∧
      (s.move source destination).1 = { s with tree := t } := by
  rw [move] at h ⊢
  obtain ⟨-, f, hf⟩ | ⟨origin, e, target, hsource, htarget, hmade, ⟨f, hf⟩ | ⟨hdone, hok⟩⟩ :=
    s.between_cases source destination
  · rw [hf] at h
    cases h
  · rw [hf] at h
    cases h
  obtain ⟨u, hu, -⟩ := s.make_folders_paved [] target.dropLast
  rw [hok, hmade, hu] at h
  rw [hok, hmade, hu]
  dsimp only at h ⊢
  cases hmoved : moved { s with tree := u } origin target with
  | error f =>
      rw [hmoved] at h
      cases h
  | ok t =>
      rw [hmoved] at h
      cases h
      exact ⟨origin, e, target, u, t, hsource, htarget, Prod.ext hu hdone, hmoved, rfl, rfl⟩

/-- What a copy answers is the path of the place that it was given. -/
theorem of_copy {source destination : String} {a : FileAnswer} (h : (s.copy source destination).2 = .ok a) :
    ∃ target, s.resolve destination = .ok target ∧ a = .at (s.pathOf target) := by
  rw [copy] at h
  obtain ⟨-, f, hf⟩ | ⟨origin, e, target, -, htarget, hmade, ⟨f, hf⟩ | ⟨-, hok⟩⟩ :=
    s.between_cases source destination
  · rw [hf] at h
    cases h
  · rw [hf] at h
    cases h
  refine ⟨target, htarget, ?_⟩
  obtain ⟨u, hu, -⟩ := s.make_folders_paved [] target.dropLast
  rw [hok, hmade, hu] at h
  dsimp only at h
  split at h
  · next heq => cases heq
  · next heq =>
      cases heq
      cases hcopy : (copyFolder { s with tree := u } origin target).2 with
      | error f =>
          rw [hcopy] at h
          cases h
      | ok =>
          rw [hcopy] at h
          cases h
          rfl
  · next heq =>
      cases heq
      cases hcopy : copiedFile { s with tree := u } origin e target with
      | error f =>
          rw [hcopy] at h
          cases h
      | ok t =>
          rw [hcopy] at h
          cases h
          rfl

/-- A call changes no more of the store than its tree, and that as it may. -/
theorem call_acts (s : FileStore) (c : FileCall) : ∃ t, (s.call c).1 = { s with tree := t } ∧ s.Acts c t := by
  cases c with
  | move source destination => exact s.move_acts (by rintro _ ⟨⟩) source destination
  | copy source destination => exact s.copy_acts source destination
  | delete path =>
      rw [call, delete]
      split
      · exact ⟨_, rfl, .idle⟩
      · next hfound =>
          obtain ⟨hp, hentry⟩ := of_existing hfound
          exact ⟨_, rfl, .deleted hp hentry⟩
  | rename source name =>
      rw [call, rename]
      split
      · exact ⟨_, rfl, .idle⟩
      split
      · exact ⟨_, rfl, .idle⟩
      split
      · exact ⟨_, rfl, .idle⟩
      · exact s.move_acts (by rintro _ ⟨⟩) source _

/-- Calls change no more of the store than its tree. -/
theorem after_eq (s : FileStore) (calls : List FileCall) : ∃ t, s.after calls = { s with tree := t } := by
  rw [after]
  induction calls generalizing s with
  | nil => exact ⟨s.tree, rfl⟩
  | cons c calls ih =>
      obtain ⟨t, ht, -⟩ := s.call_acts c
      rw [List.foldl_cons, ht]
      exact ih { s with tree := t }

end FileStore

end Rulebook
