import TypedSexp.Files

/-!
# File trees

The files and directories of a machine as a value, each under the names that lead to
it from the root, and the directory that a program works in. A path with a root
starts at the root and any other in the working directory; two points lead one
directory up, and at the root they lead nowhere else.

There are no links, no devices and no access rights in a tree. A directory is there
if it is listed, if something is listed below it, and on the way to the working
directory.
-/

namespace TypedSexp

/-- What is listed under names. -/
inductive FileEntry where
  | file (bytes : ByteArray)
  | directory

/-- Whether an entry is a directory. -/
def FileEntry.isDirectory : FileEntry → Bool
  | .file _ => false
  | .directory => true

/-- Files and directories, and the working directory. -/
structure FileTree where
  entries : List (List String × FileEntry)
  here : List String

/-- What a path leads to. -/
inductive Place where
  | file (parts : List String) (bytes : ByteArray)
  | directory (parts : List String)
  /-- Nothing, where the directory for it is there. -/
  | vacant (parts : List String)
  | missing
  | notDirectory
  /-- The path is longer than a path can be, or a part than a name can be. -/
  | tooLong

/-- How many bytes the name of a file can have. -/
def maxNameSize : Nat := 255

/-- How many bytes a path can have. -/
def maxPathSize : Nat := 4095

namespace FileTree

/-- What is listed under names. -/
def listed? (tree : FileTree) (parts : List String) : Option FileEntry :=
  (tree.entries.find? (·.1 == parts)).map (·.2)

/-- The bytes of a file. -/
def file? (tree : FileTree) (parts : List String) : Option ByteArray :=
  match tree.listed? parts with
  | some (.file bytes) => some bytes
  | _ => none

/-- Whether names lead to a directory. -/
def isDirectory (tree : FileTree) (parts : List String) : Bool :=
  parts.isPrefixOf tree.here ||
    tree.entries.any fun e => parts.isPrefixOf e.1 && (parts != e.1 || e.2.isDirectory)

/-- Where parts lead to from a directory. -/
def walk (tree : FileTree) : List String → List String → Place
  | base, [] => .directory base
  | base, part :: parts =>
    if part = ".." then walk tree base.dropLast parts
    else
      let there := base ++ [part]
      if maxNameSize < part.utf8ByteSize then .tooLong
      else
        match tree.file? there with
        | some bytes => if parts.isEmpty then .file there bytes else .notDirectory
        | none =>
          if tree.isDirectory there then walk tree there parts
          else if parts.isEmpty then .vacant there
          else .missing

/-- The directory in which a path starts. -/
def start (tree : FileTree) (p : Path) : List String := if p.root = "" then tree.here else []

/-- What a path leads to. -/
def look (tree : FileTree) (p : Path) : Place :=
  if maxPathSize < p.text.utf8ByteSize then .tooLong else tree.walk (tree.start p) p.parts

/-- The file that a path leads to. -/
def find? (tree : FileTree) (p : Path) : Option (List String) :=
  match tree.look p with
  | .file parts _ => some parts
  | _ => none

/-- The bytes of a file. -/
def read (tree : FileTree) (p : Path) : Except FileFault ByteArray :=
  if p.hasNull then .error .null
  else
    match tree.look p with
    | .file _ bytes => .ok bytes
    | .directory _ => .error (.directory p)
    | .notDirectory => .error (.notDirectory p)
    | .tooLong => .error (.tooLong p)
    | .vacant _ | .missing => .error (.missing p)

/-- Puts bytes into a file, which is made if it is not there. -/
def put (tree : FileTree) (parts : List String) (bytes : ByteArray) : FileTree :=
  if tree.entries.any (·.1 == parts) then
    { tree with
      entries := tree.entries.map fun e => if e.1 == parts then (e.1, .file bytes) else e }
  else { tree with entries := tree.entries ++ [(parts, .file bytes)] }

/-- Writes bytes to a file. What cannot be written leaves the tree as it is. -/
def write (tree : FileTree) (p : Path) (bytes : ByteArray) : Except FileFault Unit × FileTree :=
  if p.hasNull then (.error .null, tree)
  else
    match tree.look p with
    | .file parts _ | .vacant parts => (.ok (), tree.put parts bytes)
    | .directory _ => (.error (.directory p), tree)
    | .notDirectory => (.error (.notDirectory p), tree)
    | .tooLong => (.error (.tooLong p), tree)
    | .missing => (.error (.missing p), tree)

/-- The files that are new or different in a later tree, with their bytes. -/
def changes (before after : FileTree) : List (List String × ByteArray) :=
  after.entries.filterMap fun e =>
    match e.2 with
    | .file bytes => if (before.file? e.1).any (· == bytes) then none else some (e.1, bytes)
    | .directory => none

/-- The names of the files and directories right below a directory. -/
def names (tree : FileTree) (parts : List String) : List String :=
  (tree.entries.filterMap fun e =>
    if parts.isPrefixOf e.1 then (e.1.drop parts.length).head? else none).eraseDups

end FileTree

end TypedSexp
