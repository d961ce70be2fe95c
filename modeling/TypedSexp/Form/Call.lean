import TypedSexp.Form.Basic
import TypedSexp.Text.Quoted

/-!
# Calls

A list that defines no function applies its first form. A head such as `.join`
names a method: the form after it is the receiver, and the rest are arguments.
-/

namespace TypedSexp

/-- Whether a name is that of a method. -/
def isMethodName (name : String) : Bool :=
  match name.toList with
  | '.' :: _ :: _ => true
  | _ => false

/-- An application taken apart. -/
structure Call (α : Type) where
  callee : Form α
  receiver : Option (Form α)
  arguments : List (Form α)

/-- Why a list applies nothing. -/
inductive CallFault where
  | noCallee
  | noTarget (method : String)
  deriving DecidableEq, Repr

/-- The wording of a fault. -/
def CallFault.message : CallFault → String
  | .noCallee => "empty form has no callee"
  | .noTarget m => s!"method call {Text.quoted m} requires a target"

namespace Call

variable {α : Type}

/-- The receiver, if there is one, and the arguments. -/
def operands (c : Call α) : List (Form α) :=
  match c.receiver with
  | none => c.arguments
  | some r => r :: c.arguments

/-- The application that the elements of a list make. -/
def ofElements : List (Form α) → Except CallFault (Call α)
  | [] => .error .noCallee
  | .symbol n s :: rest =>
    if isMethodName s then
      match rest with
      | [] => .error (.noTarget s)
      | receiver :: arguments => .ok ⟨.symbol n s, some receiver, arguments⟩
    else .ok ⟨.symbol n s, none, rest⟩
  | callee :: rest => .ok ⟨callee, none, rest⟩

end Call

end TypedSexp
