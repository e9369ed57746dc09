import Rulebook.File.Store
/-!
# Listings of files

A listing names paths with what is there: a text for a file, null for a folder, and an object with
the target for a link.
-/

namespace Rulebook

/-- The entry that a value in a listing stands for. -/
def FileEntry.ofValue : Value → FileEntry
  | .text s => .file s
  | .object fs => .link (Fields.text fs "link")
  | _ => .folder

/-- The value that stands for an entry in a listing. -/
def FileEntry.toValue : FileEntry → Value
  | .folder => .null
  | .file content => .text content
  | .link target => .object [("link", .text target)]

namespace FileTree

/-- The tree with an entry at the end of a path from a place, and folders on the way to it. -/
def plant (t : FileTree) : Place → List String → FileEntry → FileTree
  | p, [], e => t.put p e
  | p, n :: rest, e =>
    let t := if (t.get? p).isSome then t else t.put p .folder
    t.plant (p ++ [n]) rest e

/-- The tree with the entries of a listing below a place. -/
def plantAll (t : FileTree) (p : Place) (listing : Fields) : FileTree :=
  listing.foldl (fun t (path, v) => t.plant p (names path) (.ofValue v)) t

end FileTree

namespace FileStore

/-- The name of the folder of a store that is made from a listing. -/
def folderName : String := "root"

/-- How many folders in one another a copy of such a store goes through. -/
def usualDepth : Nat := 490

/-- A store with the files of one listing, and beside it those of another. -/
def ofListing (address : String) (files beside : Fields) : FileStore :=
  let t := (FileTree.empty.put [folderName] .folder).plantAll [] beside
  ⟨address, [folderName], by simp, usualDepth, t.plantAll [folderName] files⟩

/-- The listing of the store. -/
def listing (s : FileStore) : Fields :=
  s.tree.entries.filterMap fun (p, e) =>
    if s.root.isPrefixOf p && p != s.root then some (s.pathOf p, e.toValue) else none

/-- The paths beside the store, in order. -/
def beside (s : FileStore) : List String :=
  (s.tree.entries.filterMap fun (p, _) =>
    if s.root.isPrefixOf p then none else some ("/".intercalate p)).mergeSort (· ≤ ·)

end FileStore

end Rulebook
