import TypedSexp.Form.Reader
import TypedSexp.Inference
import TypedSexp.Script
import TypedSexp.Setting.Options

/-!
# Compilation

A source is read as forms, and each form, in order, is typed and emitted as the
options ask. Every form is typed on its own, so no two forms share a variable.
The first failure ends the compilation.
-/

namespace TypedSexp

/-- What became of one form. -/
structure FormReport where
  /-- The place of the form among the forms of the source. -/
  index : Nat
  /-- The form, with its types if it was typed. -/
  form : Form Note
  /-- The type of the form and the solution, if it was typed. -/
  typing : Option (Ty × Substitution) := none
  /-- The script of the form, if it was emitted. -/
  script : Option String := none

/-- What became of a source. -/
structure Report where
  filename : String
  forms : List FormReport := []

namespace FormReport

/-- The type of the form as it is shown. -/
def typeText? (r : FormReport) : Option String := r.typing.map (·.1.pretty)

end FormReport

/-- The script of all forms that were emitted, a statement a line. -/
def Report.script (r : Report) : String :=
  String.join ((r.forms.filterMap (·.script)).map Script.statementLine)

namespace Compile

/-- The failure to emit a form. -/
def emitDiagnostic (form : Form Note) (f : EmitFault) : Diagnostic :=
  { stage := .compile, kind := "emit failure", detail := f.message, span := form.note.span }

/-- Types a form, if it is to be typed. -/
def typeForm (o : Options) (index : Nat) (form : Form Note) : Except Diagnostic FormReport :=
  if o.infers then
    match form.infer with
    | .error f => .error f.diagnostic
    | .ok r => .ok { index, form := r.form, typing := some (r.type, r.substitution) }
  else .ok { index, form }

/-- Emits a form, if it is to be emitted. -/
def emitForm (o : Options) (r : FormReport) : Except Diagnostic FormReport :=
  if o.emits then
    match Script.emit r.form with
    | .error f => .error (emitDiagnostic r.form f)
    | .ok text => .ok { r with script := some text }
  else .ok r

/-- Compiles one form. -/
def form (o : Options) (index : Nat) (e : Form Note) : Except Diagnostic FormReport :=
  (typeForm o index e).bind (emitForm o)

/-- Compiles forms in order, the first of which has the given index. -/
def forms (o : Options) : Nat → List (Form Note) → Except Diagnostic (List FormReport)
  | _, [] => .ok []
  | index, e :: es => do
    let r ← form o index e
    let rs ← forms o (index + 1) es
    return r :: rs

/-- Compiling more forms goes on after the first ones. -/
theorem forms_append (o : Options) (index : Nat) (es fs : List (Form Note)) :
    forms o index (es ++ fs) =
      (forms o index es).bind fun rs =>
        (forms o (index + es.length) fs).map fun ss => rs ++ ss := by
  induction es generalizing index with
  | nil =>
    rw [List.nil_append, forms]
    cases forms o (index + ([] : List (Form Note)).length) fs <;> rfl
  | cons e es ih =>
    rw [List.cons_append, forms, forms, ih]
    cases form o index e with
    | error d => rfl
    | ok r =>
      cases forms o (index + 1) es with
      | error d => rfl
      | ok rs =>
        have hi : index + 1 + es.length = index + (e :: es).length := by
          rw [List.length_cons]
          omega
        rw [hi]
        cases forms o (index + (e :: es).length) fs <;> rfl

/-- Every form has its report. -/
theorem length_forms {o : Options} {index : Nat} {es : List (Form Note)} {rs : List FormReport}
    (h : forms o index es = .ok rs) : rs.length = es.length := by
  induction es generalizing index rs with
  | nil => cases h; rfl
  | cons e es ih =>
    rw [forms] at h
    cases hr : form o index e with
    | error d => rw [hr] at h; cases h
    | ok r =>
      rw [hr] at h
      cases hs : forms o (index + 1) es with
      | error d => rw [hs] at h; cases h
      | ok ss =>
        rw [hs] at h
        cases h
        rw [List.length_cons, List.length_cons, ih hs]

end Compile

/-- Compiles a source. -/
def compile (o : Options) (filename source : String) : Except Diagnostic Report :=
  match Form.parse source with
  | .error f => .error f.diagnostic
  | .ok es => (Compile.forms o 0 es).map fun forms => { filename, forms }

end TypedSexp
