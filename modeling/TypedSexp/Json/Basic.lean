import TypedSexp.Entries
import TypedSexp.Number.Basic

/-!
# JSON values

A JSON value with its fields in order and with integers told apart from floats.
-/

namespace TypedSexp

/-- A JSON value. -/
inductive Json where
  | null
  | bool (b : Bool)
  | number (n : Number)
  | string (s : String)
  | array (items : List Json)
  | object (fields : List (String × Json))
  deriving Inhabited

namespace Json

/-- The value of a field. -/
def field? (j : Json) (name : String) : Option Json :=
  match j with
  | .object fields => Entries.get? name fields
  | _ => none

/-- A number that is an integer. -/
def int (n : Int) : Json := .number (.int n)

end Json

end TypedSexp
