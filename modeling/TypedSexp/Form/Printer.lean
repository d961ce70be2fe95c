import TypedSexp.Form.Basic

/-!
# Printed forms

A form is printed in the syntax it is read from, with one space between the
elements of a list or vector. A suffix computed from its note may follow each
form; the typed print puts a colon and the raw type there.

A bare form has no syntax. The prints leave it out, so that they are there for every
form; what is asked of a form from outside is refused if there is a bare form in it
(`Form.supported`).
-/

namespace TypedSexp

/-- Why a form is not printed or kept: a form of a kind without syntax is in it. -/
structure UnsupportedForm where
  kind : String
  deriving DecidableEq, Repr

/-- The wording of a fault. -/
def UnsupportedForm.message (f : UnsupportedForm) : String := s!"Unsupported node {f.kind}"

namespace Form

variable {α β : Type}

/-- What is made of a form, if no bare form is in it. -/
def supported (make : Form α → β) (e : Form α) : Except UnsupportedForm β :=
  if e.isComplete then .ok (make e) else .error ⟨kindName (.bare ())⟩

mutual

/-- A form with a suffix after it and after every form inside it. -/
def printWith (suffix : α → String) : Form α → String
  | .symbol n s => s ++ suffix n
  | .string n s => "\"" ++ s ++ "\"" ++ suffix n
  | .number n x => x.plainText ++ suffix n
  | .list n es => "(" ++ String.intercalate " " (printEach suffix es) ++ ")" ++ suffix n
  | .vector n es => "[" ++ String.intercalate " " (printEach suffix es) ++ "]" ++ suffix n
  | .bare n => suffix n

/-- Several forms with suffixes. -/
def printEach (suffix : α → String) : List (Form α) → List String
  | [] => []
  | e :: es => printWith suffix e :: printEach suffix es

end

/-- A form as it stands in a program. -/
def print : Form α → String := printWith fun _ => ""

/-- The type that a note adds to a print. -/
def typeSuffix (n : Note) : String :=
  match n.type with
  | none => ""
  | some t => ":" ++ t.raw

/-- A form with the type after every form that has one. -/
def printTyped : Form Note → String := printWith typeSuffix

/-- A form in its syntax, with types or without. -/
def toSource (typed : Bool) : Form Note → Except UnsupportedForm String :=
  supported (if typed then printTyped else print)

/-- A program with each of its forms on a line. -/
def printProgram (es : List (Form α)) : String := String.intercalate "\n" (es.map print)

@[simp] theorem printEach_eq_map (suffix : α → String) (es : List (Form α)) :
    printEach suffix es = es.map (printWith suffix) := by
  induction es with
  | nil => rfl
  | cons e es ih => rw [printEach, ih, List.map_cons]

end Form

end TypedSexp
