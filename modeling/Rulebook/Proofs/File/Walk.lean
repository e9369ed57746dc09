import Rulebook.File.Store
import Rulebook.Proofs.File.Tree
import Rulebook.Proofs.Path

/-!
# Where paths lead

Where there are no links, a path leads where its names do, whatever else is in the tree
(`FileTree.follow_eq`). `FileStore.resolve_eq_ok_iff` says to which place a path of a store leads, and
`FileStore.resolve_path_of` that the path of a place leads to it.
-/

namespace Rulebook

namespace FileTree

/-! ### Names of a path -/

/-- A name of a path is no point, has no slashes, and its characters are those of the path. -/
theorem mem_names {path n : String} (h : n ∈ names path) :
    (n ≠ "" ∧ n ≠ "." ∧ '/' ∉ n.toList) ∧ ∀ c ∈ n.toList, c ∈ path.toList := by
  obtain ⟨hpart, hkeep⟩ := List.mem_filter.mp h
  obtain ⟨s, hs, rfl⟩ := List.mem_map.mp hpart
  obtain ⟨hslash, hsub⟩ := Path.mem_split_at hs
  rw [Bool.and_eq_true, bne_iff_ne, bne_iff_ne] at hkeep
  rw [String.toList_ofList]
  exact ⟨⟨hkeep.1, hkeep.2, hslash⟩, hsub⟩

/-- Names that are no points and have no slashes are those of the path that they make. -/
theorem names_intercalate {l : List String} (h : ∀ n ∈ l, n ≠ "" ∧ n ≠ "." ∧ '/' ∉ n.toList) :
    names ("/".intercalate l) = l := by
  cases l with
  | nil => rfl
  | cons n l =>
      have hslash : ∀ s ∈ (n :: l).map String.toList, '/' ∉ s := by
        intro s hs
        obtain ⟨m, hm, rfl⟩ := List.mem_map.mp hs
        exact (h m hm).2.2
      rw [names, String.toList_intercalate]
      have hsplit : Path.splitAt '/' ("/".toList.intercalate ((n :: l).map String.toList)) = _ :=
        Path.split_at_intercalate (List.cons_ne_nil _ _) hslash
      rw [hsplit, Path.map_of_list, List.filter_eq_self]
      intro m hm
      rw [Bool.and_eq_true, bne_iff_ne, bne_iff_ne]
      exact ⟨(h m hm).1, (h m hm).2.1⟩

/-- A path without slashes has itself for its name, if it is no point. -/
theorem names_of_bare {n : String} (h : '/' ∉ n.toList) (hne : n ≠ "") (hpoint : n ≠ ".") : names n = [n] := by
  have := names_intercalate (l := [n]) fun m hm => by
    rw [List.mem_singleton.mp hm]
    exact ⟨hne, hpoint, h⟩
  rwa [String.intercalate_singleton] at this

/-! ### Places that names lead to -/

/-- The place that names lead to from another, two points to the folder above; none if they lead out of the
tree. -/
def lead : Place → List String → Option Place
  | p, [] => some p
  | p, n :: rest =>
    if n = ".." then if p = [] then none else lead p.dropLast rest
    else lead (p ++ [n]) rest

/-- Where there are no links, a walk follows the names. -/
theorem follow_eq {t : FileTree} (h : ∀ p target, t.get? p ≠ some (.link target)) (start : Place)
    (path : List String) :
    t.follow start path =
      match lead start path with
      | some p => .ok p
      | none => .error .outside := by
  rw [follow, walk]
  induction path generalizing start with
  | nil => rfl
  | cons n rest ih =>
      rw [List.foldlM_cons, lead]
      split
      · cases start with
        | nil => rfl
        | cons m p => exact ih _
      · split
        · next target hlink => exact absurd hlink (h _ target)
        · exact ih _

/-- Names without two points lead further on. -/
theorem lead_eq_append {p : Place} {l : List String} (h : ∀ n ∈ l, n ≠ "..") : lead p l = some (p ++ l) := by
  induction l generalizing p with
  | nil => rw [lead, List.append_nil]
  | cons n l ih =>
      obtain ⟨hn, hl⟩ := List.forall_mem_cons.mp h
      rw [lead, if_neg hn, ih hl, List.append_assoc]
      rfl

/-- Names lead on from where the names before them lead. -/
theorem lead_append (p : Place) (l k : List String) : lead p (l ++ k) = (lead p l).bind fun q => lead q k := by
  induction l generalizing p with
  | nil => rfl
  | cons n l ih =>
      rw [List.cons_append, lead, lead]
      split
      · split
        · rfl
        · exact ih _
      · exact ih _

/-- From a place on the way from `start`, names lead to one on such a way: what comes behind a part of
`start` is as it was before or among the names. -/
theorem lead_way {start : Place} {C : String → Prop} {l : List String} (hl : ∀ n ∈ l, n ≠ ".." → C n)
    {p q : Place} (h : lead p l = some q) (k : Nat) (way : Place) (hp : p = start.take k ++ way)
    (hway : ∀ n ∈ way, C n) : ∃ k way, q = start.take k ++ way ∧ ∀ n ∈ way, C n := by
  induction l generalizing p k way with
  | nil =>
      obtain rfl : p = q := Option.some.inj h
      exact ⟨k, way, hp, hway⟩
  | cons n l ih =>
      obtain ⟨hn, hrest⟩ := List.forall_mem_cons.mp hl
      rw [lead] at h
      split at h
      · split at h
        · cases h
        obtain rfl | hne := eq_or_ne way []
        · -- The folder above is on the way to `start`.
          refine ih hrest h (min (k - 1) (start.length - 1)) [] ?_ hway
          rw [hp, List.append_nil, List.append_nil, List.dropLast_eq_take, List.take_take, List.length_take]
          congr 1
          omega
        · refine ih hrest h k way.dropLast ?_ fun m hm => hway m (way.dropLast_subset hm)
          rw [hp, List.dropLast_append_of_ne_nil hne]
      · next hne =>
          refine ih hrest h k (way ++ [n]) (by rw [hp, List.append_assoc]) fun m hm => ?_
          refine (List.mem_append.mp hm).elim (hway m) fun hmn => ?_
          rw [List.mem_singleton.mp hmn]
          exact hn hne

/-- Where names lead to a place below the one they start from, the way there is among them. -/
theorem way_of_lead {start rest : Place} {l : List String} (h : lead start l = some (start ++ rest)) :
    ∀ n ∈ rest, n ∈ l ∧ n ≠ ".." := by
  obtain ⟨k, way, heq, hway⟩ := lead_way (C := fun n => n ∈ l ∧ n ≠ "..") (fun n hn hne => ⟨hn, hne⟩) h
    start.length [] (by rw [List.take_length, List.append_nil]) nofun
  have hrest : rest = way.drop (start.length - (start.take k).length) := by
    have hdrop := congrArg (List.drop start.length) heq
    rwa [List.drop_left, List.drop_append, List.drop_eq_nil_of_le (List.length_take_le' k start),
      List.nil_append] at hdrop
  rw [hrest]
  exact fun n hn => hway n (List.mem_of_mem_drop hn)

end FileTree

namespace FileStore

open FileTree

variable {s : FileStore}

/-- Where there are no links, a path leads to a place in the store if its names do and it has no character
that no name has. -/
theorem resolve_eq_ok_iff (h : ∀ p target, s.tree.get? p ≠ some (.link target)) {path : String} {p : Place} :
    s.resolve path = .ok p ↔ '\x00' ∉ path.toList ∧ lead s.root (names path) = some p ∧ s.root <+: p := by
  rw [resolve]
  split
  · next hnull => exact ⟨nofun, fun hp => absurd (List.contains_iff_mem.mp hnull) hp.1⟩
  next hnull =>
    have hnull : '\x00' ∉ path.toList := fun hmem => hnull (List.contains_iff_mem.mpr hmem)
    rw [follow_eq h]
    cases lead s.root (names path) with
    | none => exact ⟨nofun, nofun⟩
    | some q =>
        dsimp only
        split
        · next hroot =>
            have hroot := List.isPrefixOf_iff_prefix.mp hroot
            exact ⟨fun heq => by cases heq; exact ⟨hnull, rfl, hroot⟩, fun ⟨_, heq, _⟩ => by cases heq; rfl⟩
        · next hroot =>
            refine ⟨nofun, fun ⟨_, heq, hp⟩ => ?_⟩
            cases heq
            exact absurd (List.isPrefixOf_iff_prefix.mpr hp) hroot

/-- A path leads to a place in the store. -/
theorem root_of_resolve {path : String} {p : Place} (h : s.resolve path = .ok p) : s.root <+: p := by
  rw [resolve] at h
  split at h
  · cases h
  split at h
  · split at h
    · next hroot =>
        cases h
        exact List.isPrefixOf_iff_prefix.mp hroot
    · cases h
  · cases h
  · cases h

/-- The path of a place below the folder of the store. -/
theorem path_of_append (rest : Place) :
    s.pathOf (s.root ++ rest) = if rest = [] then "." else "/".intercalate rest := by
  rw [pathOf, List.drop_left]
  cases rest with
  | nil => rfl
  | cons => rfl

/-- The names of the path of a place below the folder of the store are those of the way to it. -/
theorem names_path_of {rest : Place} (h : ∀ n ∈ rest, n ≠ "" ∧ n ≠ "." ∧ '/' ∉ n.toList) :
    names (s.pathOf (s.root ++ rest)) = rest := by
  rw [path_of_append]
  split
  · next hrest => rw [hrest]; decide
  · exact names_intercalate h

/-- The path of a place that a path leads to leads to that place, in any store over the same folder without
links. -/
theorem resolve_path_of {path : String} {p : Place} {s' : FileStore} (hs : s.tree.IsPlain) (hs' : s'.tree.IsPlain)
    (hroot : s'.root = s.root) (h : s.resolve path = .ok p) : s'.resolve (s.pathOf p) = .ok p := by
  obtain ⟨hnull, hlead, rest, rfl⟩ := (resolve_eq_ok_iff hs.linkless).mp h
  have hway := way_of_lead hlead
  have hnames : names (s.pathOf (s.root ++ rest)) = rest := names_path_of fun n hn => (mem_names (hway n hn).1).1
  refine (resolve_eq_ok_iff hs'.linkless).mpr ⟨?_, ?_, ?_⟩
  · rw [path_of_append]
    split
    · decide
    · intro hmem
      rw [String.toList_intercalate] at hmem
      obtain hslash | ⟨cs, hcs, hc⟩ := Path.mem_intercalate hmem
      · revert hslash
        decide
      · obtain ⟨n, hn, rfl⟩ := List.mem_map.mp hcs
        exact hnull ((mem_names (hway n hn).1).2 _ hc)
  · rw [hnames, hroot]
    exact lead_eq_append fun n hn => (hway n hn).2
  · rw [hroot]
    exact List.prefix_append _ _

end FileStore

end Rulebook
