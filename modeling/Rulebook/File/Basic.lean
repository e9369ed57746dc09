import Rulebook.Path
/-!
# File trees

A file tree says which entry is at which place. A place is the list of names on the way from the
top, which is always a folder. Walking a path of names follows links, so that the place it ends at
has no link on the way; a walk may end at a place where there is nothing.
-/

namespace Rulebook

/-- A place in a file tree: the names on the way to it. -/
abbrev Place := List String

/-- What may be at a place. -/
inductive FileEntry where
  /-- A folder. -/
  | folder
  /-- A file with its content. -/
  | file (content : String)
  /-- A link to another path. -/
  | link (target : String)
deriving DecidableEq, Repr

/-- Why a file operation fails. -/
inductive FileFault where
  /-- There is nothing at the path. -/
  | missing (path : String)
  /-- The path leads out of the store. -/
  | escapes (path : String)
  /-- The new name of a file names a folder too. -/
  | notBareName
  /-- The path has a character that no name has. -/
  | unusableName
  /-- The name has too many bytes. -/
  | nameTooLong (address : String)
  /-- The store itself cannot be renamed. -/
  | outsideStore (address store : String)
  /-- Links lead in a circle. -/
  | endlessLink (address : String)
  /-- Something is there already. -/
  | exists (address : String)
  /-- What should be a folder is none. -/
  | notFolder (address : String)
  /-- What should be a file is a folder. -/
  | isFolder (address : String)
  /-- The folder that should take the entry has one of that name. -/
  | taken (address : String)
  /-- A folder cannot be moved into itself. -/
  | intoItself (source destination : String)
  /-- A file cannot be copied onto itself. -/
  | sameFile (source destination : String)
  /-- A link inside a copied folder leads nowhere. -/
  | brokenLinks
  /-- A folder cannot be copied into one of its own folders. -/
  | endlessCopy
deriving Repr

/-- The wording of a file fault. -/
def FileFault.message : FileFault → String
  | .missing path => "File '" ++ path ++ "' does not exist"
  | .escapes path => "Path '" ++ path ++ "' escapes the file store root"
  | .notBareName => "Rename destination must be a bare file name"
  | .unusableName => "embedded null byte"
  | .nameTooLong address => "[Errno 36] File name too long: " ++ Text.quoted address
  | .outsideStore address store =>
    Text.quoted address ++ " is not in the subpath of " ++ Text.quoted store
  | .endlessLink address => "Symlink loop from " ++ Text.quoted address
  | .exists address => "[Errno 17] File exists: " ++ Text.quoted address
  | .notFolder address => "[Errno 20] Not a directory: " ++ Text.quoted address
  | .isFolder address => "[Errno 21] Is a directory: " ++ Text.quoted address
  | .taken address => "Destination path '" ++ address ++ "' already exists"
  | .intoItself source destination =>
    "Cannot move a directory '" ++ source ++ "' into itself '" ++ destination ++ "'."
  | .sameFile source destination =>
    Text.quoted source ++ " and " ++ Text.quoted destination ++ " are the same file"
  | .brokenLinks => "Links lead nowhere"
  | .endlessCopy => "maximum recursion depth exceeded"

/-- A file tree: the entry at each place. -/
structure FileTree where
  /-- The entries, no two at one place. -/
  entries : List (Place × FileEntry)

namespace FileTree

/-- A tree without entries. -/
def empty : FileTree := ⟨[]⟩

/-- The entry at a place. -/
def get? (t : FileTree) : Place → Option FileEntry
  | [] => some .folder
  | p => t.entries.lookup p

/-- The tree with an entry at a place. -/
def put (t : FileTree) (p : Place) (e : FileEntry) : FileTree :=
  if t.entries.any (·.1 == p) then ⟨t.entries.map fun x => if x.1 == p then (p, e) else x⟩
  else ⟨t.entries ++ [(p, e)]⟩

/-- The tree without the entries at a place and below it. -/
def remove (t : FileTree) (p : Place) : FileTree := ⟨t.entries.filter fun x => !p.isPrefixOf x.1⟩

/-- The entries at a place and below it, each with the way to it. -/
def below (t : FileTree) (p : Place) : List (Place × FileEntry) :=
  t.entries.filterMap fun x => if p.isPrefixOf x.1 then some (x.1.drop p.length, x.2) else none

/-- The tree with what is at and below one place moved to another, whose entry gives way. -/
def relocate (t : FileTree) (source destination : Place) : FileTree :=
  ⟨((t.remove source).remove destination).entries ++
    (t.below source).map fun (rest, e) => (destination ++ rest, e)⟩

/-- The names of a path; a name that is empty or a point names nothing. -/
def names (path : String) : List String :=
  ((Path.splitAt '/' path.toList).map String.ofList).filter fun n => n != "" && n != "."

/-- How a walk can go astray. -/
inductive Astray where
  /-- It leaves the tree. -/
  | outside
  /-- Links lead in a circle. -/
  | circle

/-- Walks from a place along names, links followed: two points lead to the folder above. -/
def walk (t : FileTree) : Nat → Place → List String → Except Astray Place
  | 0, _, _ => .error .circle
  | depth + 1, start, path =>
    path.foldlM (fun p n =>
      if n = ".." then
        match p with
        | [] => .error .outside
        | p => .ok p.dropLast
      else
        match t.get? (p ++ [n]) with
        | some (.link target) =>
          if target.startsWith "/" then .error .outside else t.walk depth p (names target)
        | _ => .ok (p ++ [n])) start

/-- Walks as deep into links as the tree has entries. -/
def follow (t : FileTree) (start : Place) (path : List String) : Except Astray Place :=
  t.walk (t.entries.length + 1) start path

/-- The entry at a place, links followed. -/
def reach? (t : FileTree) (p : Place) : Option (Place × FileEntry) :=
  match t.follow [] p with
  | .ok q => (t.get? q).map fun e => (q, e)
  | .error _ => none

/-- Where an entry goes that is moved or copied to a place: into the folder there, if there is one. -/
def landing (t : FileTree) (source destination : Place) : Place :=
  if t.get? destination = some .folder then destination ++ source.getLast?.toList else destination

/-- The most bytes of a name. -/
def maxNameBytes : Nat := 255

/-- Whether a name is too long for a folder on the way to a place. -/
def isTooLong (t : FileTree) (p : Place) : Bool :=
  (List.range p.length).any fun n =>
    t.get? (p.take n) == some .folder && maxNameBytes < (p[n]?.getD "").utf8ByteSize

/-- The entries of a folder, each with its name. -/
def children (t : FileTree) (p : Place) : List (String × FileEntry) :=
  (t.below p).filterMap fun x =>
    match x.1 with
    | [n] => some (n, x.2)
    | _ => none

end FileTree

/-- How far a copy has come. -/
structure Copying where
  /-- The tree with what is copied so far. -/
  tree : FileTree
  /-- Whether something could not be copied. -/
  broken : Bool
  /-- Whether the copy was given up because folders lay too deep in one another. -/
  abandoned : Bool

namespace Copying

/-- The copy with an entry more; `folder` copies the entries of a folder. What is there already stays. -/
def add (folder : FileTree → Place → Place → Copying) (c : Copying) (source : Place) (e : FileEntry)
    (destination : Place) : Copying :=
  if c.abandoned then c
  else if (c.tree.get? destination).isSome then { c with broken := true }
  else
    match e with
    | .folder =>
      let r := folder c.tree source destination
      { r with broken := c.broken || r.broken }
    | .file content => { c with tree := c.tree.put destination (.file content) }
    | .link _ => { c with broken := true }

end Copying

namespace FileTree

/-- The most links that a copy follows on the way to an entry. -/
def maxLinks : Nat := 40

/-- Copies a folder to a place where there is nothing: what a link leads to takes its place. Folders
lie at most as deep in one another as the first number says, with as many links on the way as the
second. What the folder has is looked up before its copy is made, so a copy inside a folder below it
is copied too. -/
def copyFolder : Nat → Nat → FileTree → Place → Place → Copying
  | 0, _, t, _, _ => ⟨t, false, true⟩
  | depth + 1, links, t, source, destination =>
    (t.children source).foldl (fun c (n, e) =>
      match e, links with
      | .link _, links + 1 =>
        match c.tree.reach? (source ++ [n]) with
        | some (q, e) => c.add (copyFolder depth links) q e (destination ++ [n])
        | none => c.add (copyFolder depth links) source e (destination ++ [n])
      | e, links => c.add (copyFolder depth links) (source ++ [n]) e (destination ++ [n]))
      ⟨t.put destination .folder, false, false⟩

end FileTree

end Rulebook
