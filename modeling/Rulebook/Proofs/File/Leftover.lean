import Rulebook.Proofs.File.Rename

/-!
# What calls leave that fail

In a plain tree a call that fails takes nothing away. It leaves the store as it was unless it has begun to make
something for the place that an entry should go to (`FileStore.Begins`): folders on the way there, or a copy of a
folder. Nothing but these is new then (`FileStore.failed_leaves`).
-/

namespace Rulebook

namespace FileTree

variable {t : FileTree} {origin target : Place} {depth links : Nat}

/-- A copy of a folder that was begun has its new folder, even if it was given up. -/
theorem get_copy_folder (h : target ≠ []) :
    (t.copyFolder (depth + 1) links origin target).tree.get? target = some .folder := by
  refine copy_folder_of (P := fun u => u.get? target = some .folder) ?_ fun c links q e n _ hc => ?_
  · rw [get_put h, if_pos rfl]
  have hne : target ++ [n] ≠ [] := List.concat_ne_nil n target
  refine Copying.add_keeps (P := fun u => u.get? target = some .folder) hc (fun _ => ?_) fun content _ => ?_
  · rw [copy_folder_outside hne target (not_below_child target n), hc]
  · rw [AgreeOutside.put c.tree hne _ target (not_below_child target n), hc]

/-- A copy of a folder takes nothing away in a plain tree, where nothing is below a place that has nothing. -/
theorem IsPlain.copy_folder_keeps (h : t.IsPlain) (htarget : target ≠ []) (hfree : t.get? target = none) {p : Place}
    {e : FileEntry} (he : t.get? p = some e) : (t.copyFolder depth links origin target).tree.get? p = some e := by
  have hout : ¬target <+: p := by
    intro hbelow
    by_cases heq : target = p
    · rw [← heq, hfree] at he
      cases he
    · rw [h.folder_above (by rw [he]; rfl) hbelow heq] at hfree
      cases hfree
  rw [copy_folder_outside htarget p hout, he]

end FileTree

namespace FileStore

open FileTree

variable {s s' : FileStore} {source destination : String} {f : FileFault}

/-! ### Folders on the way -/

/-- `Opens target` says that the first folder that is missing on the way to a place can be made. -/
def Opens (s : FileStore) (target : Place) : Prop :=
  ∃ p n, p ++ [n] <+: target.dropLast ∧ s.tree.get? p = some .folder ∧ s.tree.get? (p ++ [n]) = none ∧
    n.utf8ByteSize ≤ maxNameBytes

/-- The next place on a way is the first one or further on. -/
theorem next_cases {start p : Place} {n m : String} {l : List String} (hp : start <+: p)
    (h : p ++ [m] <+: start ++ n :: l) : p = start ∧ m = n ∨ start ++ [n] <+: p := by
  obtain ⟨way, rfl⟩ := hp
  rw [List.append_assoc, List.prefix_append_right_inj] at h
  cases way with
  | nil => exact .inl ⟨List.append_nil start, (List.cons_prefix_cons.mp h).1⟩
  | cons k way =>
      obtain ⟨rfl, -⟩ := List.cons_prefix_cons.mp h
      exact .inr ((List.prefix_append_right_inj start).mpr (List.cons_prefix_cons.mpr ⟨rfl, List.nil_prefix⟩))

/-- In a plain tree making folders changes nothing if and only if the first one that is missing has too long a
name. -/
theorem make_folders_eq_self_iff (hs : s.tree.IsPlain) {start : Place} (l : List String)
    (hstart : s.tree.get? start = some .folder) :
    (s.makeFolders start l).1 = s ↔
      ∀ p n, start <+: p → p ++ [n] <+: start ++ l → s.tree.get? p = some .folder →
        s.tree.get? (p ++ [n]) = none → maxNameBytes < n.utf8ByteSize := by
  induction l generalizing start with
  | nil =>
      refine iff_of_true rfl fun p n hp hnext => ?_
      rw [List.append_nil] at hnext
      exact absurd (hnext.trans hp) (not_below_child p n)
  | cons n l ih =>
      have hway : start ++ n :: l = start ++ [n] ++ l := by rw [List.append_assoc]; rfl
      have hdeep : start <+: start ++ [n] := List.prefix_append start [n]
      rw [makeFolders]
      split
      · next hfolder =>
          rw [ih hfolder, ← hway]
          refine ⟨fun hall p m hp hnext hin hnone => ?_, fun hall p m hp => hall p m (hdeep.trans hp)⟩
          obtain ⟨rfl, rfl⟩ | hp := next_cases hp hnext
          · rw [hfolder] at hnone
            cases hnone
          · exact hall p m hp hnext hin hnone
      · next hnone =>
          -- Below a place that has nothing there is no folder.
          have hempty : ∀ p, start ++ [n] <+: p → s.tree.get? p ≠ some .folder := by
            intro p hp hin
            by_cases heq : start ++ [n] = p
            · rw [← heq, hnone] at hin
              cases hin
            · rw [hs.folder_above (by rw [hin]; rfl) hp heq] at hnone
              cases hnone
          split
          · next hfits =>
              refine iff_of_false (fun heq => ?_) fun hall => ?_
              · obtain ⟨t, ht, hpaved⟩ :=
                  make_folders_paved { s with tree := s.tree.put (start ++ [n]) .folder } (start ++ [n]) l
                rw [ht] at heq
                have hput : t.get? (start ++ [n]) = some .folder :=
                  hpaved.get_of_some (by rw [get_put (List.concat_ne_nil n start), if_pos rfl])
                rw [show t = s.tree from congrArg FileStore.tree heq, hnone] at hput
                cases hput
              · have hnext : start ++ [n] <+: start ++ n :: l := hway ▸ List.prefix_append _ l
                exact absurd (hall start n (List.prefix_refl start) hnext hstart hnone) (Nat.not_lt.mpr hfits)
          · next hlong =>
              refine iff_of_true rfl fun p m hp hnext hin _ => ?_
              obtain ⟨rfl, rfl⟩ | hp := next_cases hp hnext
              · exact Nat.lt_of_not_le hlong
              · exact absurd hin (hempty p hp)
      · next e hfile hentry =>
          refine iff_of_true rfl fun p m hp hnext hin hnone => ?_
          obtain ⟨rfl, rfl⟩ | hp := next_cases hp hnext
          · rw [hentry] at hnone
            cases hnone
          · -- Below what is no folder there is none.
            have hfolder : s.tree.get? (start ++ [n]) = some .folder := by
              by_cases heq : start ++ [n] = p
              · rw [heq, hin]
              · exact hs.folder_above (by rw [hin]; rfl) hp heq
            exact absurd (Option.some.inj (hentry.symm.trans hfolder)) hfile

/-- In a plain tree folders are made on the way to a place if and only if the first one that is missing can be. -/
theorem opens_iff (hs : s.tree.IsPlain) (target : Place) :
    s.Opens target ↔ (s.makeFolders [] target.dropLast).1 ≠ s := by
  rw [Ne, make_folders_eq_self_iff hs target.dropLast rfl]
  constructor
  · rintro ⟨p, n, hnext, hin, hnone, hfits⟩ hall
    exact absurd (hall p n List.nil_prefix hnext hin hnone) (Nat.not_lt.mpr hfits)
  · intro hsome
    by_contra hno
    refine hsome fun p n _ hnext hin hnone => ?_
    exact Nat.lt_of_not_le fun hfits => hno ⟨p, n, hnext, hin, hnone, hfits⟩

/-- No folder is made on the way to a place if something is there or further on. -/
theorem not_opens (hs : s.tree.IsPlain) {p target : Place} (hsome : (s.tree.get? p).isSome)
    (hway : target.dropLast <+: p) : ¬s.Opens target := by
  rintro ⟨q, n, hnext, -, hnone, -⟩
  by_cases heq : q ++ [n] = p
  · rw [← heq, hnone] at hsome
    cases hsome
  · rw [hs.folder_above hsome (hnext.trans hway) heq] at hnone
    cases hnone

/-- In a plain tree nothing has to be made on the way to a folder. -/
theorem make_folders_of_folder (hs : s.tree.IsPlain) (start : Place) {l : List String}
    (h : s.tree.get? (start ++ l) = some .folder) : s.makeFolders start l = (s, .ok ()) := by
  induction l generalizing start with
  | nil => rfl
  | cons n l ih =>
      have hway : start ++ n :: l = start ++ [n] ++ l := by rw [List.append_assoc]; rfl
      rw [hway] at h
      have hfolder : s.tree.get? (start ++ [n]) = some .folder := by
        by_cases heq : start ++ [n] = start ++ [n] ++ l
        · rw [heq, h]
        · exact hs.folder_above (by rw [h]; rfl) (List.prefix_append _ l) heq
      rw [makeFolders, hfolder]
      exact ih _ h

/-! ### Parts of calls that fail -/

/-- Before an entry is moved or copied, nothing is done but to make folders on the way to its new place. -/
theorem between_eq (s : FileStore) (source destination : String) :
    (s.between source destination).1 = s ∧ (∀ origin e target, s.existing source = .ok (origin, e) →
      s.resolve destination ≠ .ok target) ∨
    ∃ origin e target, s.existing source = .ok (origin, e) ∧ s.resolve destination = .ok target ∧
      (s.between source destination).1 = (s.makeFolders [] target.dropLast).1 := by
  rw [between]
  cases hsource : s.existing source with
  | error f => exact .inl ⟨rfl, fun _ _ _ h => by cases h⟩
  | ok found =>
      obtain ⟨origin, e⟩ := found
      cases htarget : s.resolve destination with
      | error f => exact .inl ⟨rfl, fun _ _ _ _ h => by cases h⟩
      | ok target => exact .inr ⟨origin, e, target, rfl, rfl, rfl⟩

/-- A move that fails leaves what was made before. -/
theorem of_failed_move (h : (s.move source destination).2 = .error f) :
    (s.move source destination).1 = (s.between source destination).1 := by
  rw [move] at h ⊢
  cases hfound : (s.between source destination).2 with
  | error f => rfl
  | ok found =>
      obtain ⟨origin, e, target⟩ := found
      rw [hfound] at h
      dsimp only at h ⊢
      cases hmoved : (s.between source destination).1.moved origin target with
      | error f => rfl
      | ok t =>
          rw [hmoved] at h
          cases h

/-- A copy that fails leaves what was made before, and what there is of the copy of a folder. -/
theorem of_failed_copy (h : (s.copy source destination).2 = .error f) :
    (s.copy source destination).1 = (s.between source destination).1 ∨
      ∃ origin target, (s.between source destination).2 = .ok (origin, .folder, target) ∧
        (s.between source destination).1.tree.get? target = none ∧
        (target.getLast?.getD "").utf8ByteSize ≤ maxNameBytes ∧
        (s.copy source destination).1 = { (s.between source destination).1 with
          tree := ((s.between source destination).1.tree.copyFolder s.depth maxLinks origin target).tree } := by
  have hdepth : (s.between source destination).1.depth = s.depth := by
    obtain ⟨hsame, -⟩ | ⟨-, -, target, -, -, hmade⟩ := s.between_eq source destination
    · rw [hsame]
    · obtain ⟨t, ht, -⟩ := s.make_folders_paved [] target.dropLast
      rw [hmade, ht]
  rw [copy] at h ⊢
  cases hfound : (s.between source destination).2 with
  | error f => exact .inl rfl
  | ok found =>
      obtain ⟨origin, e, target⟩ := found
      rw [hfound] at h
      cases e with
      | folder =>
          dsimp only at h ⊢
          rw [copyFolder, hdepth] at h ⊢
          split
          · exact .inl rfl
          next hfree =>
            split
            · exact .inl rfl
            · next hfits =>
                exact .inr ⟨origin, target, rfl, Option.not_isSome_iff_eq_none.mp hfree, Nat.le_of_not_lt hfits, rfl⟩
      | file | link =>
          dsimp only at h ⊢
          cases hcopied : (s.between source destination).1.copiedFile origin _ target with
          | error f => exact .inl rfl
          | ok t =>
              rw [hcopied] at h
              cases h

/-! ### What is left -/

/-- An entry is found that is to go to a place, and folders are made on the way there. -/
def Paves (s : FileStore) (source destination : String) (target : Place) : Prop :=
  (∃ origin e, s.existing source = .ok (origin, e)) ∧ s.resolve destination = .ok target ∧ s.Opens target

/-- A folder is found that is to be copied to a place in a folder where nothing is, and the copy is begun. -/
def Unfolds (s : FileStore) (source destination : String) (target : Place) : Prop :=
  (∃ origin, s.existing source = .ok (origin, .folder)) ∧ s.resolve destination = .ok target ∧
    s.tree.get? target.dropLast = some .folder ∧ s.tree.get? target = none ∧
    (target.getLast?.getD "").utf8ByteSize ≤ maxNameBytes ∧ 0 < s.depth

/-- `Begins s c target` says that a call makes something for a place before it can fail. -/
inductive Begins (s : FileStore) : FileCall → Place → Prop where
  /-- A move makes folders. -/
  | move {source destination : String} {target : Place} (h : s.Paves source destination target) :
      Begins s (.move source destination) target
  /-- A copy makes folders. -/
  | copy {source destination : String} {target : Place} (h : s.Paves source destination target) :
      Begins s (.copy source destination) target
  /-- A folder is copied. -/
  | unfold {source destination : String} {target : Place} (h : s.Unfolds source destination target) :
      Begins s (.copy source destination) target

/-- `Leaves s c s'` says in which store a call may leave another when it fails. -/
structure Leaves (s : FileStore) (c : FileCall) (s' : FileStore) : Prop where
  /-- What was there is still there. -/
  kept : ∀ p e, s.tree.get? p = some e → s'.tree.get? p = some e
  /-- All is as before if and only if nothing was begun. -/
  same_iff : s' = s ↔ ∀ target, ¬s.Begins c target
  /-- What is new is a folder on the way to the place for which something was begun, or of the copy of a folder
  there. -/
  made : ∀ p e, s'.tree.get? p = some e → s.tree.get? p = none → ∃ target, s.Begins c target ∧
    (e = .folder ∧ p <+: target.dropLast ∨
      (∃ source destination origin, c = .copy source destination ∧ s.existing source = .ok (origin, .folder)) ∧
        target <+: p)

/-- A call that begins nothing leaves all as before. -/
theorem leaves_self {c : FileCall} (h : ∀ target, ¬s.Begins c target) : s.Leaves c s where
  kept _ _ he := he
  same_iff := iff_of_true rfl h
  made p e he hnone := by
    rw [hnone] at he
    cases he

/-- Something is made before an entry is moved or copied if and only if folders are. -/
theorem between_ne_iff (hs : s.tree.IsPlain) (source destination : String) :
    (s.between source destination).1 ≠ s ↔ ∃ target, s.Paves source destination target := by
  obtain ⟨hsame, hno⟩ | ⟨origin, e, target, hsource, htarget, hmade⟩ := s.between_eq source destination
  · refine iff_of_false (fun hne => hne hsame) ?_
    rintro ⟨target, ⟨origin, e, hsource⟩, htarget, -⟩
    exact hno origin e target hsource htarget
  · rw [hmade, ← opens_iff hs target]
    constructor
    · exact fun hopens => ⟨target, ⟨origin, e, hsource⟩, htarget, hopens⟩
    · rintro ⟨target', -, htarget', hopens⟩
      rwa [Except.ok.inj (htarget.symm.trans htarget')]

/-- Before an entry is moved or copied, nothing is taken away, and what is made are folders on the way to its new
place. -/
theorem made_between (hs : s.tree.IsPlain) (source destination : String) (p : Place) :
    (s.between source destination).1.tree.get? p = s.tree.get? p ∨
      s.tree.get? p = none ∧ (s.between source destination).1.tree.get? p = some .folder ∧
        ∃ target, s.Paves source destination target ∧ p <+: target.dropLast := by
  obtain ⟨hsame, -⟩ | ⟨origin, e, target, hsource, htarget, hmade⟩ := s.between_eq source destination
  · exact .inl (by rw [hsame])
  obtain ⟨t, ht, hpaved⟩ := s.make_folders_paved [] target.dropLast
  rw [hmade, ht]
  obtain heq | ⟨hnone, hnew, hway⟩ := hpaved p
  · exact .inl heq
  · refine .inr ⟨hnone, hnew, target, ⟨⟨origin, e, hsource⟩, htarget, (opens_iff hs target).mpr fun heq => ?_⟩, hway⟩
    rw [show t = s.tree from congrArg FileStore.tree (ht.symm.trans heq), hnone] at hnew
    cases hnew

/-- What is somewhere stays there before an entry is moved or copied. -/
theorem kept_between (hs : s.tree.IsPlain) (source destination : String) {p : Place} {e : FileEntry}
    (he : s.tree.get? p = some e) : (s.between source destination).1.tree.get? p = some e := by
  obtain heq | ⟨hnone, -⟩ := made_between hs source destination p
  · rw [heq, he]
  · rw [hnone] at he
    cases he

/-- What is left of a call that fails after no more than folders were made. -/
theorem leaves_between (hs : s.tree.IsPlain) {c : FileCall}
    (hpaves : ∀ target, s.Paves source destination target → s.Begins c target)
    (hbegins : ∀ target, s.Begins c target → (s.between source destination).1 ≠ s) :
    s.Leaves c (s.between source destination).1 := by
  constructor
  · exact fun p e he => kept_between hs source destination he
  · rw [← not_iff_not, ← Ne, not_forall_not]
    refine ⟨fun hne => ?_, fun ⟨target, htarget⟩ => hbegins target htarget⟩
    obtain ⟨target, htarget⟩ := (between_ne_iff hs source destination).mp hne
    exact ⟨target, hpaves target htarget⟩
  · intro p e he hnone
    obtain heq | ⟨-, hnew, target, htarget, hway⟩ := made_between hs source destination p
    · rw [heq, hnone] at he
      cases he
    · exact ⟨target, hpaves target htarget, .inl ⟨Option.some.inj (he.symm.trans hnew), hway⟩⟩

/-! ### Calls that fail -/

/-- A move that fails leaves folders on the way at most. -/
theorem failed_move_leaves (hs : s.tree.IsPlain) (h : (s.move source destination).2 = .error f) :
    s.Leaves (.move source destination) (s.move source destination).1 := by
  rw [of_failed_move h]
  refine leaves_between hs (fun _ => .move) fun target hbegins => ?_
  cases hbegins with
  | move hpaves => exact (between_ne_iff hs source destination).mpr ⟨target, hpaves⟩

/-- A copy of a folder that is begun changes the store. -/
theorem Unfolds.changes (hs : s.tree.IsPlain) {target : Place} (h : s.Unfolds source destination target) :
    (s.copy source destination).1 ≠ s := by
  obtain ⟨⟨origin, hsource⟩, htarget, hin, hfree, hfits, hdepth⟩ := h
  obtain ⟨depth, hdepth⟩ := Nat.exists_eq_add_of_lt hdepth
  have hbetween : s.between source destination = (s, .ok (origin, .folder, target)) := by
    rw [between, hsource, htarget]
    dsimp only
    rw [make_folders_of_folder hs [] hin]
    rfl
  rw [copy, hbetween]
  dsimp only
  rw [copyFolder, hfree, if_neg (show ¬Option.isSome (none : Option FileEntry) = true from Bool.false_ne_true), if_neg (Nat.not_lt.mpr hfits), hdepth, Nat.zero_add]
  intro hsame
  have hnew : (s.tree.copyFolder (depth + 1) maxLinks origin target).tree.get? target = some .folder :=
    get_copy_folder ((root_of_resolve htarget).ne_nil s.is_below)
  rw [show (s.tree.copyFolder (depth + 1) maxLinks origin target).tree = s.tree from congrArg FileStore.tree hsame,
    hfree] at hnew
  cases hnew

/-- Where a folder can be copied, folders were made on the way to its copy. -/
theorem copied_of_between (hs : s.tree.IsPlain) {origin target : Place}
    (hfound : (s.between source destination).2 = .ok (origin, .folder, target)) :
    s.existing source = .ok (origin, .folder) ∧ s.resolve destination = .ok target ∧
      (s.between source destination).1.tree.IsPlain ∧
      (s.between source destination).1.tree.get? target.dropLast = some .folder := by
  obtain ⟨-, f, hf⟩ | ⟨p, e, q, hsource, htarget, hmade, ⟨f, hf⟩ | ⟨hdone, hok⟩⟩ := s.between_cases source destination
  · cases hf.symm.trans hfound
  · cases hf.symm.trans hfound
  · cases hok.symm.trans hfound
    obtain ⟨hp, hentry⟩ := of_existing hsource
    have hname := names_of_resolve hs (root_of_resolve hp) hentry htarget
    rw [hmade]
    exact ⟨hsource, htarget, make_folders_plain [] hs rfl fun n hn => hname n (List.dropLast_subset target hn),
      make_folders_ok [] rfl hdone⟩

/-- What is left of the copy of a folder. -/
theorem leaves_copied (hs : s.tree.IsPlain) {origin target : Place}
    (hfound : (s.between source destination).2 = .ok (origin, .folder, target))
    (hfree : (s.between source destination).1.tree.get? target = none)
    (hfits : (target.getLast?.getD "").utf8ByteSize ≤ maxNameBytes)
    (heq : (s.copy source destination).1 = { (s.between source destination).1 with
      tree := ((s.between source destination).1.tree.copyFolder s.depth maxLinks origin target).tree }) :
    s.Leaves (.copy source destination) (s.copy source destination).1 := by
  obtain ⟨hsource, htarget, hplain, hin⟩ := copied_of_between hs hfound
  have hne := (root_of_resolve htarget).ne_nil s.is_below
  have hkept : ∀ p e, (s.between source destination).1.tree.get? p = some e →
      (s.copy source destination).1.tree.get? p = some e := by
    intro p e he
    rw [heq]
    exact hplain.copy_folder_keeps hne hfree he
  -- If anything has changed, folders were made or the copy was begun.
  have hbegins : (s.copy source destination).1 ≠ s → s.Begins (.copy source destination) target := by
    intro hchanged
    by_cases hsame : (s.between source destination).1 = s
    · rw [hsame] at hfree hin heq
      refine .unfold ⟨⟨origin, hsource⟩, htarget, hin, hfree, hfits, Nat.pos_of_ne_zero fun hdepth => hchanged ?_⟩
      rw [heq, hdepth]
      rfl
    · obtain ⟨target', hpaves⟩ := (between_ne_iff hs source destination).mp hsame
      obtain rfl : target = target' := Except.ok.inj (htarget.symm.trans hpaves.2.1)
      exact .copy hpaves
  constructor
  · exact fun p e he => hkept p e (kept_between hs source destination he)
  · rw [← not_iff_not, ← Ne, not_forall_not]
    refine ⟨fun hchanged => ⟨target, hbegins hchanged⟩, ?_⟩
    rintro ⟨target', _ | hpaves | hunfolds⟩ hsame
    · -- Had nothing changed, the folders on the way would have been there before.
      obtain rfl : target = target' := Except.ok.inj (htarget.symm.trans hpaves.2.1)
      have hfolder := hkept _ _ hin
      rw [hsame] at hfolder
      exact not_opens hs (by rw [hfolder]; rfl) (List.prefix_refl _) hpaves.2.2
    · exact hunfolds.changes hs hsame
  · intro p e he hnone
    have hchanged : (s.copy source destination).1 ≠ s := by
      intro hsame
      rw [hsame, hnone] at he
      cases he
    refine ⟨target, hbegins hchanged, ?_⟩
    by_cases hbelow : target <+: p
    · exact .inr ⟨⟨source, destination, origin, rfl, hsource⟩, hbelow⟩
    · rw [heq] at he
      dsimp only at he
      rw [copy_folder_outside hne p hbelow] at he
      obtain hsame | ⟨-, hnew, target', hpaves, hway⟩ := made_between hs source destination p
      · rw [hsame, hnone] at he
        cases he
      · obtain rfl : target = target' := Except.ok.inj (htarget.symm.trans hpaves.2.1)
        exact .inl ⟨Option.some.inj (he.symm.trans hnew), hway⟩

/-- A copy that fails leaves folders on the way at most, and what there is of the copy of a folder. -/
theorem failed_copy_leaves (hs : s.tree.IsPlain) (h : (s.copy source destination).2 = .error f) :
    s.Leaves (.copy source destination) (s.copy source destination).1 := by
  obtain heq | ⟨origin, target, hfound, hfree, hfits, heq⟩ := of_failed_copy h
  · rw [heq]
    refine leaves_between hs (fun _ => .copy) fun target hbegins => ?_
    cases hbegins with
    | copy hpaves => exact (between_ne_iff hs source destination).mpr ⟨target, hpaves⟩
    | unfold hunfolds => exact heq ▸ hunfolds.changes hs
  · exact leaves_copied hs hfound hfree hfits heq

/-- A rename that fails leaves all as before: all folders on the way to the new name are there. -/
theorem failed_rename_eq (hs : s.tree.IsPlain) {source name : String} (h : (s.rename source name).2 = .error f) :
    (s.rename source name).1 = s := by
  rw [rename] at h ⊢
  split
  · rfl
  next p hp =>
    rw [hp] at h
    dsimp only at h
    split
    · rfl
    next hslash =>
      rw [if_neg hslash] at h
      split
      · rfl
      next d hd =>
        rw [hd] at h
        dsimp only at h
        rw [of_failed_move h]
        by_contra hne
        obtain ⟨target, ⟨origin, e, hsource⟩, htarget, hopens⟩ := (between_ne_iff hs source d).mp hne
        obtain ⟨hp', hentry⟩ := of_existing hsource
        obtain rfl : p = origin := Except.ok.inj (hp.symm.trans hp')
        have hsome : (s.tree.get? p).isSome := by rw [hentry]; rfl
        have hway := eq_of_lead (fun hmem => hslash (List.contains_iff_mem.mpr hmem))
          (lead_of_sibling hs (root_of_resolve hp) hsome hd htarget)
        exact not_opens hs hsome (dropLast_above hway) hopens

end FileStore

end Rulebook
