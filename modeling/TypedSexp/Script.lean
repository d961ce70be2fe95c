import TypedSexp.Form.Call

/-!
# JavaScript

A form is written as one JavaScript expression. Function definitions become
function expressions whose last body form is returned, the four arithmetic heads
become infix operators, a method head becomes a method call on its receiver, and
every other list a call. Only the shape of a form counts; types play no part.
-/

namespace TypedSexp

/-- Why a form is no expression. -/
inductive EmitFault where
  | emptyForm
  | noParameters
  | badParameter
  | call (fault : CallFault)
  | unsupported (kind : String)
  deriving DecidableEq, Repr

/-- The wording of a fault. -/
def EmitFault.message : EmitFault → String
  | .emptyForm => "cannot emit an empty form"
  | .noParameters => s!"{Text.quoted Form.fnName} requires a parameter vector"
  | .badParameter => "function parameters must be symbols"
  | .call f => f.message
  | .unsupported kind => s!"Unsupported node {kind}"

namespace Script

variable {α : Type}

/-- The operators that stand between their operands. -/
def infixOperators : List String := ["+", "-", "*", "/"]

/-- The infix operator that a head names. -/
def operator? : Form α → Option String
  | .symbol _ s => if infixOperators.contains s then some s else none
  | _ => none

/-- The method that a head names. -/
def method? : Form α → Option String
  | .symbol _ s => if isMethodName s then some s else none
  | _ => none

/-- The names of parameters. -/
def paramNames : List (Form α) → Except EmitFault (List String)
  | [] => .ok []
  | .symbol _ s :: ps => (paramNames ps).map (s :: ·)
  | _ :: _ => .error .badParameter

/-- Expressions with commas between them. -/
def commas (es : List String) : String := String.intercalate ", " es

/-- The statements of a function's body: the last expression is returned. -/
def statements : List String → String
  | [] => ""
  | [e] => "return " ++ e ++ "; "
  | e :: es => e ++ "; " ++ statements es

/-- A function expression. -/
def functionText (params body : List String) : String :=
  "function(" ++ commas params ++ ") \x7b " ++ statements body ++ "\x7d"

/-- An expression in the place of a callee, where a function needs parentheses. -/
def calleeText (form : Form α) (text : String) : String :=
  if form.isFunction then "(" ++ text ++ ")" else text

/-- An expression in the place of a receiver, where a number needs parentheses
too. -/
def receiverText (form : Form α) (text : String) : String :=
  match form with
  | .number .. => "(" ++ text ++ ")"
  | _ => calleeText form text

mutual

/-- The expression of a form. -/
def emit : Form α → Except EmitFault String
  | .symbol _ s => .ok s
  | .string _ s => .ok ("\"" ++ s ++ "\"")
  | .number _ x => .ok x.plainText
  | .vector _ es => do
    let items ← emitAll es
    return "[" ++ commas items ++ "]"
  | .list _ [] => .error .emptyForm
  | .list _ (head :: rest) =>
    if head.isSymbol Form.fnName then
      match rest with
      | .vector _ ps :: body => do
        let params ← paramNames ps
        let lines ← emitAll body
        return functionText params lines
      | _ => .error .noParameters
    else
      match operator? head with
      | some op => do
        let operands ← emitAll rest
        return "(" ++ String.intercalate (" " ++ op ++ " ") operands ++ ")"
      | none =>
        match method? head with
        | some m =>
          match rest with
          | [] => .error (.call (.noTarget m))
          | receiver :: arguments => do
            let r ← emit receiver
            let args ← emitAll arguments
            return receiverText receiver r ++ m ++ "(" ++ commas args ++ ")"
        | none => do
          let c ← emit head
          let args ← emitAll rest
          return calleeText head c ++ "(" ++ commas args ++ ")"
  | .bare n => .error (.unsupported (Form.bare n).kindName)

/-- The expressions of several forms. -/
def emitAll : List (Form α) → Except EmitFault (List String)
  | [] => .ok []
  | e :: es => do
    let first ← emit e
    let more ← emitAll es
    return first :: more

end

/-- One expression as a statement on a line of its own. -/
def statementLine (e : String) : String := e ++ ";\n"

/-- The statements of a program. -/
def emitProgram (es : List (Form α)) : Except EmitFault String :=
  (emitAll es).map fun texts => String.join (texts.map statementLine)

end Script

end TypedSexp
