import TypedSexp.Span
import TypedSexp.Ty.Basic

/-!
# Diagnostics

What a failed compilation reports: the stage that failed, the kind of failure in
a few fixed words, a detail, the place in the source if there is one, and for
type errors the types that do not fit.
-/

namespace TypedSexp

/-- The stages of a compilation. -/
inductive Stage where
  | lex
  | parse
  | type
  | compile
  deriving DecidableEq, Repr

/-- The word for a stage. -/
def Stage.name : Stage → String
  | .lex => "lex"
  | .parse => "parse"
  | .type => "type"
  | .compile => "compile"

/-- One reported failure. -/
structure Diagnostic where
  stage : Stage
  kind : String
  detail : String
  span : Option Span
  terms : List Ty := []

namespace Diagnostic

/-- The kind and, where there is one, the detail. -/
def message (d : Diagnostic) : String :=
  if d.detail = "" then d.kind else d.kind ++ ": " ++ d.detail

/-- The place of the failure in a source. -/
def location? (d : Diagnostic) (source : String) : Option Location :=
  d.span.map (·.location source.toList)

/-- The message after the file's name and, where it is known, the place. -/
def describe (d : Diagnostic) (source filename : String) : String :=
  match d.location? source with
  | none => s!"{filename}: {d.message}"
  | some p => s!"{filename}:{p.line}:{p.column}: {d.message}"

end Diagnostic

end TypedSexp
