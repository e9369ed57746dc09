import Rulebook.File.Basic
/-!
# File stores

A file store works on the files below one folder of a tree. Paths are taken from that folder, and one
that leads out of it is refused. An operation that fails may have made the folders on the way to its
destination.
-/

namespace Rulebook

/-- A file store. -/
structure FileStore where
  /-- How its folder is called in messages. -/
  address : String
  /-- The place of its folder. -/
  root : Place
  /-- The folder lies below the top of the tree. -/
  is_below : root ≠ []
  /-- How many folders in one another a copy goes through before it is given up. -/
  depth : Nat
  /-- The tree. -/
  tree : FileTree

/-- What a file operation answers. -/
inductive FileAnswer where
  /-- The entry is now at the path. -/
  | at (path : String)
  /-- The entry is gone. -/
  | deleted

/-- The result of a file operation: an object. -/
def FileAnswer.toFields : FileAnswer → Fields
  | .at path => [("path", .text path)]
  | .deleted => [("deleted", .bool true)]

namespace FileStore

/-- The path of a place from the folder of the store. -/
def pathOf (s : FileStore) (p : Place) : String :=
  match p.drop s.root.length with
  | [] => "."
  | rest => "/".intercalate rest

/-- How a place is called in messages. -/
def addressOf (s : FileStore) (p : Place) : String :=
  if s.root.isPrefixOf p then "/".intercalate (s.address :: p.drop s.root.length)
  else "/".intercalate ("" :: p)

/-- The place that a path leads to. -/
def resolve (s : FileStore) (path : String) : Except FileFault Place :=
  if path.toList.contains '\x00' then .error .unusableName
  else
    match s.tree.follow s.root (FileTree.names path) with
    | .ok p => if s.root.isPrefixOf p then .ok p else .error (.escapes path)
    | .error .outside => .error (.escapes path)
    | .error .circle => .error (.endlessLink (s.address ++ "/" ++ path))

/-- The place that a path leads to, where there has to be something. -/
def existing (s : FileStore) (path : String) : Except FileFault (Place × FileEntry) := do
  let p ← s.resolve path
  match s.tree.get? p with
  | some e => .ok (p, e)
  | none => .error (if s.tree.isTooLong p then .nameTooLong (s.addressOf p) else .missing path)

/-- Makes all folders on the way from one place along names. Those made before one that cannot be made
are left. -/
def makeFolders (s : FileStore) : Place → List String → FileStore × Except FileFault Unit
  | _, [] => (s, .ok ())
  | start, n :: rest =>
    let p := start ++ [n]
    match s.tree.get? p with
    | some .folder => s.makeFolders p rest
    | none =>
      if n.utf8ByteSize ≤ FileTree.maxNameBytes then
        makeFolders { s with tree := s.tree.put p .folder } p rest
      else (s, .error (.nameTooLong (s.addressOf p)))
    | some _ =>
      (s, .error (if rest.isEmpty then .exists (s.addressOf p) else .notFolder (s.addressOf (p ++ rest))))

/-- The tree with the entry at a place given another place where nothing stands in its way but a
file, which is lost. -/
def displace (s : FileStore) (source destination asked : Place) : Except FileFault FileTree :=
  let isFolder := s.tree.get? source == some .folder
  if source = destination then .ok s.tree
  else if isFolder && source.isPrefixOf destination then
    .error (.intoItself (s.addressOf source) (s.addressOf asked))
  else if FileTree.maxNameBytes < (destination.getLast?.getD "").utf8ByteSize then
    .error (.nameTooLong (s.addressOf destination))
  else if isFolder && (s.tree.get? destination).isSome then .error (.exists (s.addressOf destination))
  else .ok (s.tree.relocate source destination)

/-- The tree with the entry at a place moved to another, or into the folder there. -/
def moved (s : FileStore) (source destination : Place) : Except FileFault FileTree :=
  match s.tree.get? destination with
  | some .folder =>
    if source = destination then .ok s.tree
    else
      let inside := s.tree.landing source destination
      if (s.tree.reach? inside).isSome then .error (.taken (s.addressOf inside))
      else s.displace source inside destination
  | _ => s.displace source destination destination

/-- Copies the folder at a place to another, where there must be nothing. -/
def copyFolder (s : FileStore) (source destination : Place) : FileStore × Except FileFault Unit :=
  if (s.tree.get? destination).isSome then (s, .error (.exists (s.addressOf destination)))
  else if FileTree.maxNameBytes < (destination.getLast?.getD "").utf8ByteSize then
    (s, .error (.nameTooLong (s.addressOf destination)))
  else
    let c := s.tree.copyFolder s.depth FileTree.maxLinks source destination
    ({ s with tree := c.tree },
      if c.abandoned then .error .endlessCopy else if c.broken then .error .brokenLinks else .ok ())

/-- The tree with a copy of a file at a place or in the folder there. -/
def copiedFile (s : FileStore) (source : Place) (content : FileEntry) (destination : Place) :
    Except FileFault FileTree :=
  let asked := s.tree.landing source destination
  match s.tree.follow [] asked with
  | .error _ => .error (.endlessLink (s.addressOf asked))
  | .ok p =>
    if p = source then .error (.sameFile (s.addressOf source) (s.addressOf asked))
    else if FileTree.maxNameBytes < (p.getLast?.getD "").utf8ByteSize then
      .error (.nameTooLong (s.addressOf p))
    else
      match s.tree.get? p, s.tree.get? p.dropLast with
      | some .folder, _ => .error (.isFolder (s.addressOf asked))
      | _, some .folder => .ok (s.tree.put p content)
      | _, _ => .error (.missing (s.addressOf asked))

/-- The store after an attempt to change the tree. -/
def afterwards (s : FileStore) (destination : Place) (r : Except FileFault FileTree) :
    FileStore × Except FileFault FileAnswer :=
  match r with
  | .ok t => ({ s with tree := t }, .ok (.at (s.pathOf destination)))
  | .error e => (s, .error e)

/-- Finds the entry at one path and makes the folders on the way to another. -/
def between (s : FileStore) (source destination : String) :
    FileStore × Except FileFault (Place × FileEntry × Place) :=
  match s.existing source, s.resolve destination with
  | .error e, _ => (s, .error e)
  | _, .error e => (s, .error e)
  | .ok (origin, entry), .ok target =>
    let r := s.makeFolders [] target.dropLast
    (r.1, r.2.map fun _ => (origin, entry, target))

/-- Moves the entry at a path to another path, or into the folder there. -/
def move (s : FileStore) (source destination : String) :
    FileStore × Except FileFault FileAnswer :=
  let r := s.between source destination
  match r.2 with
  | .error e => (r.1, .error e)
  | .ok (origin, _, target) => r.1.afterwards target (r.1.moved origin target)

/-- Copies the entry at a path to another path. -/
def copy (s : FileStore) (source destination : String) :
    FileStore × Except FileFault FileAnswer :=
  let r := s.between source destination
  match r.2 with
  | .error e => (r.1, .error e)
  | .ok (origin, .folder, target) =>
    let c := r.1.copyFolder origin target
    (c.1, c.2.map fun _ => .at (s.pathOf target))
  | .ok (origin, content, target) => r.1.afterwards target (r.1.copiedFile origin content target)

/-- Deletes the entry at a path and what is below it. -/
def delete (s : FileStore) (path : String) : FileStore × Except FileFault FileAnswer :=
  match s.existing path with
  | .error e => (s, .error e)
  | .ok (p, _) => ({ s with tree := s.tree.remove p }, .ok .deleted)

/-- A text without slashes at its ends. -/
def bareName (name : String) : String := String.ofList (Text.trimBy (· == '/') name.toList)

/-- The path of the entry that would have another name beside a place. -/
def sibling (s : FileStore) (origin : Place) (name : String) : Except FileFault String :=
  let folder := origin.dropLast ++ FileTree.names name
  if s.root.isPrefixOf folder then .ok (s.pathOf folder)
  else .error (.outsideStore (s.addressOf folder) s.address)

/-- Gives the entry at a path another name. -/
def rename (s : FileStore) (source name : String) : FileStore × Except FileFault FileAnswer :=
  match s.resolve source with
  | .error e => (s, .error e)
  | .ok origin =>
    if (bareName name).toList.contains '/' then (s, .error .notBareName)
    else
      match s.sibling origin (bareName name) with
      | .error e => (s, .error e)
      | .ok destination => s.move source destination

end FileStore

end Rulebook
