import TypedSexp.Number.Basic
import TypedSexp.Span
import TypedSexp.Ty.Render

/-!
# Forms

A program is a sequence of forms: symbols, strings, numbers, parenthesised lists
and bracketed vectors. Every form carries a note of some type; in a program the
note holds the place in the source and, once known, the type. A bare form has a
note and nothing else. No source contains one, and no stage accepts one.
-/

namespace TypedSexp

/-- What a program knows about a form. -/
structure Note where
  span : Option Span := none
  type : Option Ty := none
  deriving DecidableEq, Inhabited

/-- The note with a type. -/
def Note.withType (n : Note) (t : Ty) : Note := { n with type := some t }

/-- A form whose notes are of type `α`. -/
inductive Form (α : Type) where
  | symbol (note : α) (name : String)
  | string (note : α) (value : String)
  | number (note : α) (value : Number)
  | list (note : α) (elements : List (Form α))
  | vector (note : α) (elements : List (Form α))
  | bare (note : α)
  deriving Inhabited

namespace Form

variable {α β : Type}

/-- The note of a form. -/
def note : Form α → α
  | .symbol n _ | .string n _ | .number n _ | .list n _ | .vector n _ | .bare n => n

/-- The word for a kind of form. -/
def kindName : Form α → String
  | .symbol .. => "Symbol"
  | .string .. => "StringLiteral"
  | .number .. => "NumberLiteral"
  | .list .. => "List"
  | .vector .. => "Vector"
  | .bare _ => "Node"

/-- The forms directly inside a form. -/
def children : Form α → List (Form α)
  | .list _ es | .vector _ es => es
  | _ => []

mutual

/-- The form with every note changed. -/
def map (f : α → β) : Form α → Form β
  | .symbol n s => .symbol (f n) s
  | .string n s => .string (f n) s
  | .number n x => .number (f n) x
  | .list n es => .list (f n) (mapAll f es)
  | .vector n es => .vector (f n) (mapAll f es)
  | .bare n => .bare (f n)

/-- Several forms with every note changed. -/
def mapAll (f : α → β) : List (Form α) → List (Form β)
  | [] => []
  | e :: es => map f e :: mapAll f es

end

mutual

/-- A form and all forms inside it, each before its own parts. -/
def walk : Form α → List (Form α)
  | .list n es => .list n es :: walkAll es
  | .vector n es => .vector n es :: walkAll es
  | e => [e]

/-- The walks of several forms, one after the other. -/
def walkAll : List (Form α) → List (Form α)
  | [] => []
  | e :: es => walk e ++ walkAll es

end

mutual

/-- Whether no bare form stands anywhere in a form. -/
def isComplete : Form α → Bool
  | .list _ es | .vector _ es => areComplete es
  | .bare _ => false
  | _ => true

/-- Whether no bare form stands anywhere in several forms. -/
def areComplete : List (Form α) → Bool
  | [] => true
  | e :: es => isComplete e && areComplete es

end

/-- Whether a form is the symbol with a name. -/
def isSymbol (name : String) : Form α → Bool
  | .symbol _ s => s == name
  | _ => false

/-- The name of the symbol at the head of a list. -/
def headName? : Form α → Option String
  | .list _ (.symbol _ s :: _) => some s
  | _ => none

/-- The head of function definitions. -/
def fnName : String := "fn"

/-- Whether a form defines a function. -/
def isFunction : Form α → Bool
  | .list _ (head :: _) => head.isSymbol fnName
  | _ => false

mutual

/-- Whether two forms are alike up to their notes, with numbers compared by
value. Two bare forms cannot be compared. -/
def alike : Form α → Form β → Option Bool
  | .symbol _ s, .symbol _ t => some (s == t)
  | .string _ s, .string _ t => some (s == t)
  | .number _ x, .number _ y => some (x.sameValue y)
  | .list _ es, .list _ fs => if es.length = fs.length then alikeAll es fs else some false
  | .vector _ es, .vector _ fs => if es.length = fs.length then alikeAll es fs else some false
  | .bare _, .bare _ => none
  | _, _ => some false

/-- Whether the forms of two lists are alike pair by pair, up to the first pair
that is not. -/
def alikeAll : List (Form α) → List (Form β) → Option Bool
  | e :: es, f :: fs =>
    match alike e f with
    | some true => alikeAll es fs
    | answer => answer
  | _, _ => some true

end

@[simp] theorem mapAll_eq_map (f : α → β) (es : List (Form α)) : mapAll f es = es.map (map f) := by
  induction es with
  | nil => rfl
  | cons e es ih => rw [mapAll, ih, List.map_cons]

@[simp] theorem walkAll_eq_flatMap (es : List (Form α)) : walkAll es = es.flatMap walk := by
  induction es with
  | nil => rfl
  | cons e es ih => rw [walkAll, ih, List.flatMap_cons]

@[simp] theorem areComplete_eq_all (es : List (Form α)) : areComplete es = es.all isComplete := by
  induction es with
  | nil => rfl
  | cons e es ih => rw [areComplete, ih, List.all_cons]

end Form

end TypedSexp
