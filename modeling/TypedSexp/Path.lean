import TypedSexp.Text.Split

/-!
# Paths

A path is a root, which is empty for a path from the working directory, and
parts. Parts that are empty or a single point do not count; a part of two points
does.
-/

namespace TypedSexp

/-- A path. -/
structure Path where
  root : String
  parts : List String
  deriving DecidableEq, Repr

namespace Path

/-- The root that the slashes at the front of a path make: exactly two slashes
stay two, any other number of them is one. -/
def rootOf (cs : List Char) : String :=
  match (cs.takeWhile (· == '/')).length with
  | 0 => ""
  | 2 => "//"
  | _ => "/"

/-- The path that a text names. -/
def ofText (s : String) : Path :=
  ⟨rootOf s.toList, ((Text.words '/' s.toList).map String.ofList).filter (· != ".")⟩

/-- The text of a path; the path without parts is a single point. -/
def text (p : Path) : String :=
  if p.root = "" ∧ p.parts = [] then "."
  else p.root ++ String.intercalate "/" p.parts

/-- Whether no file can have this path, because it has a null character. -/
def hasNull (p : Path) : Bool := p.text.toList.contains '\x00'

/-- A path with one more part. -/
def child (p : Path) (name : String) : Path := { p with parts := p.parts ++ [name] }

end Path

end TypedSexp
