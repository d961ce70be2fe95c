import TypedSexp.Constraint.Solve
import TypedSexp.Form.Call
import TypedSexp.Scope

/-!
# Type inference

Inference goes over a form once, gives every form in it a type made of fresh
variables, and records which types have to be equal. The constraints are then
solved, and the solution is applied to the types given.

There is no generalisation: a variable of the scope stands for one type wherever
it is used. The head and the parameter vector of a function definition get no
type; its parameters do.

A form that cannot be typed still shows how far its types were given, and the
variables it took are not handed out again. So the pass returns the form with the
types given so far, the state of the supply, and only then the type or the fault.
-/

namespace TypedSexp

/-- Why a form has no type. -/
inductive TypeFault.Cause where
  /-- A bare form. -/
  | unsupported (kind : String)
  /-- A symbol that no frame binds. -/
  | unbound (name : String)
  /-- A function definition without a vector of parameters. -/
  | noParameters
  /-- A parameter that is no symbol. -/
  | badParameter (kind : String)
  /-- A function definition without a body. -/
  | noBody
  /-- An empty list. -/
  | noCallee
  /-- A list that is no application. -/
  | badCall (fault : CallFault)
  /-- Two types that cannot be made equal. -/
  | mismatch (m : Mismatch)
  deriving DecidableEq

/-- Why a form has no type, and the place of the fault. -/
structure TypeFault where
  cause : TypeFault.Cause
  span : Option Span
  deriving DecidableEq

namespace TypeFault

/-- The kind of the failure in a few words. -/
def Cause.kind : Cause → String
  | .unsupported _ | .noBody | .noCallee => "no type computed"
  | .unbound _ => "unbound symbol"
  | .noParameters | .badParameter _ | .badCall _ => "malformed form"
  | .mismatch m => m.kind

/-- The detail of the failure. -/
def Cause.detail : Cause → String
  | .unsupported kind => s!"unsupported node {kind}"
  | .noBody => "function body is empty"
  | .noCallee => "empty application"
  | .unbound name => Text.quoted name
  | .noParameters => s!"{Text.quoted Form.fnName} requires a parameter vector"
  | .badParameter kind => s!"parameter must be a symbol, found {kind}"
  | .badCall f => f.message
  | .mismatch m => m.detail

/-- The types at fault. -/
def Cause.terms : Cause → List Ty
  | .mismatch m => [m.sides.1, m.sides.2]
  | _ => []

/-- The fault as it is reported. -/
def diagnostic (f : TypeFault) : Diagnostic :=
  { stage := .type
    kind := f.cause.kind
    detail := f.cause.detail
    span := f.span
    terms := f.cause.terms }

end TypeFault

namespace Inference

/-- The next variable of the supply and the constraints recorded so far, the
latest first. -/
structure State where
  next : Nat
  constraints : List Constraint := []

namespace State

/-- The next variable of the supply. -/
def fresh (st : State) : TyVar := { id := st.next }

/-- The state after the next variable was handed out. -/
def advance (st : State) : State := { st with next := st.next + 1 }

/-- The state with one more constraint. -/
def record (st : State) (c : Constraint) : State := { st with constraints := c :: st.constraints }

end State

/-- What a pass over forms leaves: the forms with the types given so far, the
state, and the result or the fault. -/
structure Pass (φ ρ : Type) where
  forms : φ
  state : State
  result : Except TypeFault ρ

/-- Gives each parameter of a function a fresh variable and binds it in the
function's own frame, where a later parameter of the same name wins. -/
def bindParams (frame : List (String × Ty)) :
    List (Form Note) → State → Pass (List (Form Note)) (List (String × Ty) × List Ty)
  | [], st => ⟨[], st, .ok (frame, [])⟩
  | .symbol n s :: ps, st =>
    let t : Ty := .var st.fresh
    let rest := bindParams (Entries.put s t frame) ps st.advance
    ⟨.symbol (n.withType t) s :: rest.forms, rest.state,
      rest.result.map fun (frame, ts) => (frame, t :: ts)⟩
  | p :: ps, st => ⟨p :: ps, st, .error ⟨.badParameter p.kindName, p.note.span⟩⟩

mutual

/-- Gives a form and all forms inside it a type in a scope. -/
def infer (scope : Scope) : Form Note → State → Pass (Form Note) Ty
  | .symbol n s, st =>
    match scope.lookup? s with
    | some t => ⟨.symbol (n.withType t) s, st, .ok t⟩
    | none => ⟨.symbol n s, st, .error ⟨.unbound s, n.span⟩⟩
  | .string n v, st => ⟨.string (n.withType .string) v, st, .ok .string⟩
  | .number n v, st => ⟨.number (n.withType .number) v, st, .ok .number⟩
  | .vector n es, st =>
    let element : Ty := .var st.fresh
    let pass := inferElements scope element es st.advance
    match pass.result with
    | .ok () =>
      ⟨.vector (n.withType (.array element)) pass.forms, pass.state, .ok (.array element)⟩
    | .error e => ⟨.vector n pass.forms, pass.state, .error e⟩
  | .list n [], st => ⟨.list n [], st, .error ⟨.noCallee, n.span⟩⟩
  | .list n (head :: rest), st =>
    if head.isSymbol Form.fnName then
      match rest with
      | .vector m ps :: body =>
        let params := bindParams [] ps st
        match params.result with
        | .error e => ⟨.list n (head :: .vector m params.forms :: body), params.state, .error e⟩
        | .ok (frame, ts) =>
          if body.isEmpty then
            ⟨.list n (head :: .vector m params.forms :: body), params.state,
              .error ⟨.noBody, n.span⟩⟩
          else
            let pass := inferAll ({ bindings := frame } :: scope) body params.state
            let elements := head :: .vector m params.forms :: pass.forms
            match pass.result with
            | .error e => ⟨.list n elements, pass.state, .error e⟩
            | .ok results =>
              let t : Ty := .fn ts (results.getLastD .number)
              ⟨.list (n.withType t) elements, pass.state, .ok t⟩
      | rest => ⟨.list n (head :: rest), st, .error ⟨.noParameters, n.span⟩⟩
    else
      match Call.ofElements (head :: rest) with
      | .error e => ⟨.list n (head :: rest), st, .error ⟨.badCall e, n.span⟩⟩
      | .ok _ =>
        let callee := infer scope head st
        match callee.result with
        | .error e => ⟨.list n (callee.forms :: rest), callee.state, .error e⟩
        | .ok t =>
          let operands := inferAll scope rest callee.state
          let elements := callee.forms :: operands.forms
          match operands.result with
          | .error e => ⟨.list n elements, operands.state, .error e⟩
          | .ok ts =>
            let result : Ty := .var operands.state.fresh
            let state := operands.state.advance.record ⟨t, .fn ts result, n.span⟩
            ⟨.list (n.withType result) elements, state, .ok result⟩
  | .bare n, st => ⟨.bare n, st, .error ⟨.unsupported (Form.bare n).kindName, n.span⟩⟩

/-- Gives several forms types, one after the other, up to the first fault. -/
def inferAll (scope : Scope) : List (Form Note) → State → Pass (List (Form Note)) (List Ty)
  | [], st => ⟨[], st, .ok []⟩
  | e :: es, st =>
    let first := infer scope e st
    match first.result with
    | .error f => ⟨first.forms :: es, first.state, .error f⟩
    | .ok t =>
      let more := inferAll scope es first.state
      ⟨first.forms :: more.forms, more.state, more.result.map (t :: ·)⟩

/-- Gives the elements of a vector types, each of which has to be the element
type of the vector. -/
def inferElements (scope : Scope) (element : Ty) :
    List (Form Note) → State → Pass (List (Form Note)) Unit
  | [], st => ⟨[], st, .ok ()⟩
  | e :: es, st =>
    let first := infer scope e st
    match first.result with
    | .error f => ⟨first.forms :: es, first.state, .error f⟩
    | .ok t =>
      let more := inferElements scope element es (first.state.record ⟨element, t, e.note.span⟩)
      ⟨first.forms :: more.forms, more.state, more.result⟩

end

end Inference

/-! ## Applying the solution -/

/-- The note with a substitution applied to its type. -/
def Note.apply (s : Substitution) (n : Note) : Note := { n with type := n.type.map s.apply }

namespace Form

mutual

/-- The form with a substitution applied to the types in it. The head and the
parameter vector of a function definition are passed over, its parameters are
not. -/
def applySubstitution (s : Substitution) : Form Note → Form Note
  | .symbol n name => .symbol (n.apply s) name
  | .string n v => .string (n.apply s) v
  | .number n v => .number (n.apply s) v
  | .vector n es => .vector (n.apply s) (applyAll s es)
  | .list n [] => .list (n.apply s) []
  | .list n (head :: rest) =>
    if head.isSymbol fnName then
      match rest with
      | [] => .list (n.apply s) [head]
      | .vector m ps :: body =>
        .list (n.apply s) (head :: .vector m (applyAll s ps) :: applyAll s body)
      | other :: body => .list (n.apply s) (head :: other :: applyAll s body)
    else .list (n.apply s) (applySubstitution s head :: applyAll s rest)
  | .bare n => .bare (n.apply s)

/-- Several forms with a substitution applied to the types in them. -/
def applyAll (s : Substitution) : List (Form Note) → List (Form Note)
  | [] => []
  | e :: es => applySubstitution s e :: applyAll s es

end

@[simp] theorem applyAll_eq_map (s : Substitution) (es : List (Form Note)) :
    applyAll s es = es.map (applySubstitution s) := by
  induction es with
  | nil => rfl
  | cons e es ih => rw [applyAll, ih, List.map_cons]

end Form

/-! ## Whole runs -/

/-- A typed form: the form with all its types, the type of the whole, the
solution, and the number of constraints solved. -/
structure Inferred where
  form : Form Note
  type : Ty
  substitution : Substitution
  constraintCount : Nat

namespace Inference

/-- Types a form in a scope with the variables of a supply from `next` on. The
supply moves on whether or not the form has a type. -/
def run (scope : Scope) (form : Form Note) (next : Nat) : Except TypeFault Inferred × Nat :=
  let pass := infer scope form { next }
  let outcome := match pass.result with
    | .error e => .error e
    | .ok t =>
      match Solver.run { pending := pass.state.constraints } with
      | .error f => .error ⟨.mismatch f.mismatch, f.span⟩
      | .ok s =>
        .ok
          { form := pass.forms.applySubstitution s
            type := s.apply t
            substitution := s
            constraintCount := pass.state.constraints.length }
  (outcome, pass.state.next)

end Inference

/-- Types a form in the standard scope, with a supply of its own. -/
def Form.infer (form : Form Note) : Except TypeFault Inferred :=
  (Inference.run [Frame.standard 0] form Frame.standardVars).1

end TypedSexp
