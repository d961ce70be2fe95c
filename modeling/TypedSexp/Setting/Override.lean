import TypedSexp.Setting.Literal.Reader
import TypedSexp.Text.Blank
import TypedSexp.Text.Split

/-!
# Overrides

A single setting given as `KEY=VALUE`, where the parts of the key lead through
sections. Several of them make one mapping: a later one for the same key
replaces the value, and none may lead through a value that is no section.
-/

namespace TypedSexp

/-- A setting for one key. -/
structure Override where
  /-- The key as given. -/
  key : String
  /-- The sections that the key leads through, the outermost first. -/
  sections : List String
  /-- The name in the innermost section. -/
  name : String
  /-- The value as given. -/
  text : String
  deriving DecidableEq, Repr

/-- Why overrides are refused. -/
inductive OverrideFault where
  /-- There is no equals sign. -/
  | noEquals (item : String)
  /-- The key has no parts. -/
  | noKey
  /-- The key leads through a value that is no section. -/
  | conflict (key : String)
  /-- A list, a set or a mapping stands as a key in the value. -/
  | badKey
  /-- An integer that is added to an imaginary number is too large. -/
  | tooLarge
  deriving DecidableEq, Repr

/-- The wording of a fault. -/
def OverrideFault.message : OverrideFault → String
  | .noEquals item => s!"override '{item}' is missing '='"
  | .noKey => "override key must not be empty"
  | .conflict key => s!"override '{key}' conflicts with an existing value"
  | .badKey => "a list, a set or a mapping cannot be a key"
  | .tooLarge => "an integer is too large for a complex number"

namespace Override

/-- An override as it is given: the key up to the first equals sign, the value
after it. Empty parts of the key do not count. -/
def parse (item : String) : Except OverrideFault Override :=
  let cs := item.toList
  match cs.dropWhile (· != '=') with
  | [] => .error (.noEquals item)
  | _ :: value =>
    let key := cs.takeWhile (· != '=')
    let parts := (Text.words '.' key).map String.ofList
    match parts.getLast? with
    | none => .error .noKey
    | some name => .ok ⟨String.ofList key, parts.dropLast, name, String.ofList value⟩

/-- The value that a text stands for: a truth value in any case, the value of a
literal, or else the text itself. -/
def valueOf (text : String) : Except OverrideFault Value :=
  let word := String.ofList (Text.asciiLower (Text.trimBlanks text.toList))
  if word = "true" then .ok (.bool true)
  else if word = "false" then .ok (.bool false)
  else
    match Literal.parse? text.toList with
    | none => .ok (.text text)
    | some e =>
      match e.value with
      | .ok v => .ok v
      | .error .noLiteral => .ok (.text text)
      | .error .badKey => .error .badKey
      | .error .tooLarge => .error .tooLarge

/-- Puts a value under a name inside sections, which are made where there are
none. -/
def put (conflict : OverrideFault) (value : Except OverrideFault Value) (name : String) :
    List String → List (Value × Value) → Except OverrideFault (List (Value × Value))
  | [], es => value.map fun v => Value.putField name v es
  | part :: parts, es =>
    match Value.field? part es with
    | none => (put conflict value name parts []).map fun inner => Value.putField part (.map inner) es
    | some (.map inner) =>
      (put conflict value name parts inner).map fun inner => Value.putField part (.map inner) es
    | some _ => .error conflict

/-- Adds an override to the settings before it. -/
def add (o : Override) (es : List (Value × Value)) : Except OverrideFault (List (Value × Value)) :=
  put (.conflict o.key) (valueOf o.text) o.name o.sections es

/-- Adds an override as it is given. -/
def addItem (es : List (Value × Value)) (item : String) :
    Except OverrideFault (List (Value × Value)) :=
  (parse item).bind fun o => o.add es

/-- The settings that overrides make, in the order in which they are given. -/
def collect (items : List String) : Except OverrideFault (List (Value × Value)) :=
  items.foldlM addItem []

end Override

end TypedSexp
