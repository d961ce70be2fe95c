import TypedSexp.Ty.Basic

/-!
# Rendered types

Types are shown in two ways. The raw form names a variable by its number in the
supply. The pretty form names the variables of a whole list of types by letters
in the order of their first places, so it does not depend on the supply.
-/

namespace TypedSexp

/-- The name of a variable in the supply. -/
def TyVar.rawName (x : TyVar) : String := s!"t{x.id}"

namespace Ty

mutual

/-- A type in which a function names the variables. -/
def render (name : TyVar → String) : Ty → String
  | .base a => a.name
  | .var x => name x
  | .fn ps r => "(" ++ String.intercalate ", " (renderAll name ps) ++ ") -> " ++ render name r
  | .app c a => render name c ++ "<" ++ render name a ++ ">"

/-- Several types in which a function names the variables. -/
def renderAll (name : TyVar → String) : List Ty → List String
  | [] => []
  | t :: ts => render name t :: renderAll name ts

end

/-- The raw form of a type. -/
def raw (t : Ty) : String := render TyVar.rawName t

/-- The letters that name the first variables. -/
def letters : List Char := "abcdefghijklmnopqrstuvwxyz".toList

/-- The pretty name of the variable with an index: a letter while they last, then
the index itself. -/
def prettyName (index : Nat) : String :=
  match letters[index]? with
  | some c => String.ofList ['\'', c]
  | none => s!"'t{index}"

/-- The variables of several types, each once, in the order of their first
places. -/
def sharedVars (ts : List Ty) : List TyVar := (ts.flatMap vars).eraseDups

/-- The pretty forms of several types, with one naming for all of them. -/
def prettyAll (ts : List Ty) : List String :=
  let xs := sharedVars ts
  ts.map (render fun x => prettyName (xs.idxOf x))

/-- The pretty form of one type. -/
def pretty (t : Ty) : String :=
  render (fun x => prettyName ((sharedVars [t]).idxOf x)) t

@[simp] theorem renderAll_eq_map (name : TyVar → String) (ts : List Ty) :
    renderAll name ts = ts.map (render name) := by
  induction ts with
  | nil => rfl
  | cons t ts ih => rw [renderAll, ih, List.map_cons]

/-- One type is shown as it is in a list of its own. -/
theorem prettyAll_singleton (t : Ty) : prettyAll [t] = [pretty t] := rfl

end Ty

end TypedSexp
