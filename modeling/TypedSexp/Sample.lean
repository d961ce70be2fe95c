import TypedSexp.FileTree.Basic
import TypedSexp.Form.Reader

/-!
# Sample programs

The sample programs of a directory: every file whose name ends in `.sexp`, in the
order of the names, read as forms. A directory that is not there has none. Five
samples come with the library.
-/

namespace TypedSexp

/-- A program with the name of its file. -/
structure Sample where
  name : String
  source : String
  forms : List (Form Note)

/-- Why a sample cannot be loaded. -/
inductive SampleFault where
  | text (f : TextFault)
  | parse (f : ParseFault)

namespace Sample

/-- The end of the names of sample files. -/
def suffix : List Char := ".sexp".toList

/-- The name of a sample: that of its file up to the last point, or all of it if
the only point is its first character. -/
def stem (name : String) : String :=
  let cs := name.toList
  let kept := (cs.reverse.dropWhile (· != '.')).drop 1
  if kept.isEmpty then name else String.ofList kept.reverse

/-- A sample with a given source. -/
def ofSource (name source : String) : Except SampleFault Sample :=
  match Form.parse source with
  | .ok forms => .ok ⟨name, source, forms⟩
  | .error f => .error (.parse f)

/-- Loads samples one after another, up to the first that cannot be loaded. -/
def loadAll (load : α → Except SampleFault Sample) : List α → List Sample × Option SampleFault
  | [] => ([], none)
  | x :: xs =>
    match load x with
    | .error f => ([], some f)
    | .ok s =>
      let (samples, fault) := loadAll load xs
      (s :: samples, fault)

/-- The names of the sample files in a directory, in order. -/
def fileNames (tree : FileTree) (root : Path) : List String :=
  match tree.look root with
  | .directory parts =>
    ((tree.names parts).filter fun n => suffix.isSuffixOf n.toList).mergeSort fun a b => a ≤ b
  | _ => []

/-- The samples in a directory, up to the first that cannot be loaded. -/
def ofTree (tree : FileTree) (root : Path) : List Sample × Option SampleFault :=
  loadAll
    (fun name =>
      match (Files.mk tree.read).readText (root.child name) with
      | .error f => .error (.text f)
      | .ok source => ofSource (stem name) source)
    (fileNames tree root)

/-- The names and sources of the samples that come with the library. -/
def bundledSources : List (String × String) :=
  [("apply_twice", "((fn [f x] (f (f x))) (fn [n] (+ n 1)) 40)\n"),
   ("concat_arrays", "(fn [xs ys] (.concat xs ys))\n[[\"a\" \"b\"] [\"c\"]]\n"),
   ("increment", "(fn [x] (+ x 1))\n"),
   ("join_strings", "; render numbers and join them\n(.join (map str [1 2.5]) \", \")\n"),
   ("map_increment", "; increment every element\n(map (fn [x] (+ x 1)) [1 2 3])\n")]

/-- The samples that come with the library. -/
def bundled : List Sample × Option SampleFault :=
  loadAll (fun (name, source) => ofSource name source) bundledSources

end Sample

end TypedSexp
