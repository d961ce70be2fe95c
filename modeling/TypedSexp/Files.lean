import TypedSexp.Path
import TypedSexp.Text.Newline
import TypedSexp.Text.Quoted
import TypedSexp.Text.Utf8

/-!
# Files

What can be seen of files: which paths lead to something, and what their bytes
are. Texts are read as strict UTF-8, with every line end as one line feed.

A file system is what a program has before it when it reads and writes: any states,
any files, and any reasons to refuse. Only what a write leaves behind is fixed. So
links, access rights and full disks are all allowed for; a device that forgets what
is written to it is no file.
-/

namespace TypedSexp

/-- Why a file cannot be read or written. -/
inductive FileFault where
  | missing (path : Path)
  | directory (path : Path)
  | notDirectory (path : Path)
  | tooLong (path : Path)
  /-- Any other reason, with the number and the words that the system has for it. -/
  | refused (code : Nat) (reason : String) (path : Path)
  /-- The path has a null character. -/
  | null
  deriving DecidableEq, Repr

/-- The wording of a fault. -/
def FileFault.message : FileFault → String
  | .missing p => s!"[Errno 2] No such file or directory: {Text.quoted p.text}"
  | .directory p => s!"[Errno 21] Is a directory: {Text.quoted p.text}"
  | .notDirectory p => s!"[Errno 20] Not a directory: {Text.quoted p.text}"
  | .tooLong p => s!"[Errno 36] File name too long: {Text.quoted p.text}"
  | .refused code reason p => s!"[Errno {code}] {reason}: {Text.quoted p.text}"
  | .null => "embedded null byte"

/-- The numbers of the other reasons for which nothing counts as being there: a bad
descriptor, and links that lead in a circle. -/
def absenceCodes : List Nat := [9, 40]

/-- Whether a fault means that nothing is there. -/
def FileFault.isAbsence : FileFault → Bool
  | .missing _ | .notDirectory _ | .null => true
  | .directory _ | .tooLong _ => false
  | .refused code _ _ => absenceCodes.contains code

/-- Why a text cannot be read. -/
inductive TextFault where
  | file (f : FileFault)
  | encoding (f : Text.Utf8.Fault)

/-- The wording of a fault. -/
def TextFault.message : TextFault → String
  | .file f => f.message
  | .encoding f => f.message

/-- The files that can be seen: the bytes under a path, or why there are none. -/
structure Files where
  read : Path → Except FileFault ByteArray

namespace Files

/-- Whether nothing is under a path. -/
def lacks (files : Files) (p : Path) : Bool :=
  match files.read p with
  | .ok _ => false
  | .error f => f.isAbsence

/-- The text of bytes. -/
def textOf (bytes : ByteArray) : Except TextFault String :=
  match Text.Utf8.decode bytes with
  | .ok s => .ok (String.ofList (Text.unifyNewlines s.toList))
  | .error f => .error (.encoding f)

/-- The text of a file. -/
def readText (files : Files) (p : Path) : Except TextFault String :=
  match files.read p with
  | .ok bytes => textOf bytes
  | .error f => .error (.file f)

end Files

/-- A file system. Files are told apart by more than the paths that lead to them, so
two paths may lead to one file. -/
structure FileSystem where
  State : Type
  File : Type
  /-- The bytes of a file, if it is there. -/
  bytes? : State → File → Option ByteArray
  /-- The file that a path leads to. -/
  find? : State → Path → Option File
  /-- The bytes under a path, or why they cannot be read. -/
  read : State → Path → Except FileFault ByteArray
  /-- Writes bytes to a file, which is made if it is not there. -/
  write : State → Path → ByteArray → Except FileFault Unit × State
  /-- What is read under a path are the bytes of the file that it leads to. -/
  of_read {s : State} {p : Path} {b : ByteArray} (h : read s p = .ok b) :
    ∃ f, find? s p = some f ∧ bytes? s f = some b
  /-- What is written under a path are the bytes of the file that it leads to then,
  and no other file is made, changed or taken away. -/
  of_write {s s' : State} {p : Path} {b : ByteArray} (h : write s p b = (.ok (), s')) :
    ∃ f, find? s' p = some f ∧ bytes? s' f = some b ∧ ∀ g, g ≠ f → bytes? s' g = bytes? s g

/-- What can be seen of the files in a state. -/
def FileSystem.files (system : FileSystem) (s : system.State) : Files := ⟨system.read s⟩

end TypedSexp
