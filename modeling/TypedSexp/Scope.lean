import TypedSexp.Entries
import TypedSexp.Text.Quoted
import TypedSexp.Ty.Basic

/-!
# Scopes

A frame binds names to types; a scope is a chain of frames, the innermost first.
A name has the type of the innermost frame that binds it. A sealed frame takes no
new bindings; the standard one is sealed.
-/

namespace TypedSexp

/-- Names bound together. -/
structure Frame where
  bindings : List (String × Ty) := []
  isSealed : Bool := false

/-- A chain of frames, the innermost first. -/
abbrev Scope := List Frame

/-- A name was to be bound in a sealed frame. -/
structure SealedFault where
  name : String
  deriving DecidableEq, Repr

/-- The wording of the fault. -/
def SealedFault.message (f : SealedFault) : String :=
  s!"cannot bind {Text.quoted f.name} in a sealed environment"

/-- The frame with a name bound. Binding a name again replaces its type. -/
def Frame.define (f : Frame) (name : String) (t : Ty) : Except SealedFault Frame :=
  if f.isSealed then .error ⟨name⟩
  else .ok { f with bindings := Entries.put name t f.bindings }

namespace Scope

/-- The type of a name. -/
def lookup? (s : Scope) (name : String) : Option Ty :=
  s.findSome? fun f => Entries.get? name f.bindings

/-- Whether a name is bound. -/
def contains (s : Scope) (name : String) : Bool := (s.lookup? name).isSome

end Scope

/-- The frame of the standard names. Its three variables are the first that a
supply hands out from `next` on. A method takes its receiver as first parameter. -/
def Frame.standard (next : Nat) : Frame :=
  let a : Ty := .var { id := next }
  let b : Ty := .var { id := next + 1 }
  let c : Ty := .var { id := next + 2 }
  { bindings :=
      [("+", .fn [.number, .number] .number),
       ("map", .fn [.fn [a] b, .array a] (.array b)),
       ("str", .fn [.number] .string),
       (".concat", .fn [.array c, .array c] (.array c)),
       (".join", .fn [.array .string, .string] .string)]
    isSealed := true }

/-- The number of variables that the standard frame takes. -/
def Frame.standardVars : Nat := 3

end TypedSexp
