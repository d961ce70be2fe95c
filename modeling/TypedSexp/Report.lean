import TypedSexp.Compile
import TypedSexp.Form.Printer
import TypedSexp.Form.Record

/-!
# Reports written

A report as JSON, with a record of every form, or as text with a line for every
form.
-/

namespace TypedSexp

namespace FormReport

/-- A substitution with variables and types as they are named. -/
def pairTexts (s : Substitution) : List (String × String) :=
  s.map fun (x, t) => (x.rawName, t.raw)

/-- The report of a form as JSON. -/
def toJson (r : FormReport) : Json :=
  let base := [("index", Json.int r.index), ("source", .string r.form.print),
    ("tree", Record.ofForm (r.form.map Note.label))]
  let typing := match r.typing with
    | none => []
    | some (t, s) =>
      [("type", Json.string t.pretty),
       ("substitution", .array ((pairTexts s).map fun (x, t) => .array [.string x, .string t]))]
  let script := match r.script with
    | none => []
    | some text => [("javascript", Json.string text)]
  .object (base ++ typing ++ script)

/-- The line with a form: with the types of all its parts, or with its own type
after it. -/
def line (o : Options) (r : FormReport) : String :=
  if o.showsTypes then r.form.printTyped
  else
    match r.typeText? with
    | none => r.form.print
    | some t => r.form.print ++ " : " ++ t

/-- The lines with the solution of a form. -/
def substitutionLines (o : Options) (r : FormReport) : List String :=
  match r.typing with
  | some (_, s) =>
    if o.showsSubstitution then (pairTexts s).map fun (x, t) => s!"  {x} -> {t}" else []
  | none => []

/-- The line with the script of a form. -/
def scriptLines (r : FormReport) : List String :=
  match r.script with
  | some text => ["  // " ++ text]
  | none => []

/-- All lines of a form. -/
def lines (o : Options) (r : FormReport) : List String :=
  r.line o :: r.substitutionLines o ++ r.scriptLines

end FormReport

namespace Report

/-- The report as JSON. -/
def toJson (r : Report) : Json :=
  .object [("filename", .string r.filename), ("forms", .array (r.forms.map FormReport.toJson))]

/-- The report as a JSON text. -/
def jsonText (r : Report) : String := r.toJson.indented true 0 ++ "\n"

/-- The report as text. -/
def text (o : Options) (r : Report) : String :=
  String.join ((r.forms.flatMap fun f => f.lines o).map (· ++ "\n"))

/-- The report in the format that the options ask for. -/
def write (o : Options) (r : Report) : String :=
  match o.format with
  | .json => r.jsonText
  | .text => r.text o

end Report

end TypedSexp
