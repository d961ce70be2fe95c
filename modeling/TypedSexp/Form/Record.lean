import TypedSexp.Digest
import TypedSexp.Form.Printer
import TypedSexp.Form.Reader
import TypedSexp.Json.Reader
import TypedSexp.Json.Writer
import TypedSexp.Setting.Value

/-!
# Form records

A form is kept as a JSON object: its kind, its place, its content, its type as a
text, and last an id. The id is the first sixteen digits of the digest of the
canonical text of the object, from which the ids at all depths are left out. So
the same content has the same id, and restoring a form checks every id against
the content it stands in.

Places are kept as any two JSON values, and types are texts, so the notes of
restored forms are labels of their own. Restored forms have no types.
-/

namespace TypedSexp

/-- What a record says about a form besides its content. -/
structure Label where
  span : Option (Json × Json) := none
  type : Option String := none

/-- The label of a note. -/
def Note.label (n : Note) : Label :=
  { span := n.span.map fun s => (Json.int s.start, Json.int s.stop)
    type := n.type.map Ty.raw }

namespace Record

/-- The canonical text of a record: compact, in the order of names, without
ids. -/
def canonicalText (j : Json) : String := (j.without "id").sorted.compact

/-- The id of a record's content. -/
def contentId (j : Json) : String :=
  String.ofList ((Digest.sha256 (canonicalText j).toUTF8.toList).take 16)

/-- The record with the fields of its content and its label. -/
def ofFields (kind : String) (label : Label) (content : List (String × Json)) : Json :=
  let span := match label.span with
    | some (a, b) => [("span", .array [a, b])]
    | none => []
  let type := match label.type with
    | some t => [("type", .string t)]
    | none => []
  let fields := ("node", Json.string kind) :: (span ++ content ++ type)
  .object (fields ++ [("id", .string (contentId (.object fields)))])

mutual

/-- The record of a form. -/
def ofForm : Form Label → Json
  | .symbol l s => ofFields "Symbol" l [("name", .string s)]
  | .string l s => ofFields "StringLiteral" l [("value", .string s)]
  | .number l x => ofFields "NumberLiteral" l [("value", .number x)]
  | .list l es => ofFields "List" l [("elements", .array (ofForms es))]
  | .vector l es => ofFields "Vector" l [("elements", .array (ofForms es))]
  | .bare l => ofFields "Node" l []

/-- The records of several forms. -/
def ofForms : List (Form Label) → List Json
  | [] => []
  | e :: es => ofForm e :: ofForms es

end

/-- Why a JSON value is no record of a form. -/
inductive Fault where
  /-- The text is no JSON. -/
  | notJson
  /-- A record is no object. -/
  | notObject
  | missingId
  /-- An id that is not that of its content. -/
  | integrity
  /-- The kind is an array or an object. -/
  | kindNotScalar
  | unknownKind (shown : String)
  /-- The place is not two values. -/
  | badSpan
  | missingField (name : String)
  | notNumeric
  /-- The elements are a value without items. -/
  | noItems

/-- The wording of a fault, where it has one of its own. -/
def Fault.message : Fault → String
  | .missingId => "Serialized node is missing 'id'"
  | .integrity => "Serialized node failed integrity check"
  | .unknownKind shown => s!"Unknown node type '{shown}'"
  | .missingField name => Text.quoted name
  | .notNumeric => "NumberLiteral value must be numeric"
  | .notJson => "malformed JSON"
  | .notObject => "a record must be an object"
  | .kindNotScalar => "the kind of a node must be a scalar"
  | .badSpan => "a span must hold two values"
  | .noItems => "elements must hold items"

/-- Whether the id of a record is that of its content. -/
def checkId (fields : List (String × Json)) : Except Fault Unit :=
  match Entries.get? "id" fields with
  | none | some .null => .error .missingId
  | some (.string s) =>
    if s = contentId (.object fields) then .ok () else .error .integrity
  | some _ => .error .integrity

/-- The kinds of forms that have records. -/
inductive Kind where
  | symbol
  | string
  | number
  | list
  | vector

/-- The kind that a record names. -/
def kindOf (fields : List (String × Json)) : Except Fault Kind :=
  match (Entries.get? "node" fields).getD .null with
  | .string "Symbol" => .ok .symbol
  | .string "StringLiteral" => .ok .string
  | .string "NumberLiteral" => .ok .number
  | .string "List" => .ok .list
  | .string "Vector" => .ok .vector
  | .array _ | .object _ => .error .kindNotScalar
  | j => .error (.unknownKind (Value.ofJson j).shown)

/-- The items that a value gives one by one: those of an array, the characters of
a text, the names of an object. -/
def itemsOf? : Json → Option (List Json)
  | .array items => some items
  | .string s => some (s.toList.map fun c => .string (String.singleton c))
  | .object fields => some (fields.map fun f => .string f.1)
  | _ => none

/-- The place that a record names: any two values. -/
def labelOf (fields : List (String × Json)) : Except Fault Label :=
  match (Entries.get? "span" fields).getD .null with
  | .null => .ok {}
  | j =>
    match itemsOf? j with
    | some [a, b] => .ok { span := some (a, b) }
    | _ => .error .badSpan

/-- The value of a field that has to be there. -/
def required (name : String) (fields : List (String × Json)) : Except Fault Json :=
  match Entries.get? name fields with
  | some j => .ok j
  | none => .error (.missingField name)

/-- The text of a field that has to be there. -/
def requiredText (name : String) (fields : List (String × Json)) : Except Fault String :=
  (required name fields).map fun j => (Value.ofJson j).shown

mutual

/-- The form that a record keeps. -/
def restore : Json → Except Fault (Form Label)
  | .object fields => do
    checkId fields
    let kind ← kindOf fields
    let label ← labelOf fields
    match kind with
    | .symbol => return .symbol label (← requiredText "name" fields)
    | .string => return .string label (← requiredText "value" fields)
    | .number =>
      match ← required "value" fields with
      | .number x => return .number label x
      | _ => .error .notNumeric
    | .list => return .list label (← restoreElements fields)
    | .vector => return .vector label (← restoreElements fields)
  | _ => .error .notObject

/-- The forms of the elements among fields. -/
def restoreElements : List (String × Json) → Except Fault (List (Form Label))
  | [] => .ok []
  | (name, j) :: fields => if name = "elements" then restoreItems j else restoreElements fields

/-- The forms of the items of a value. Only an array holds records; a text or an
object that is not empty holds items that are none. -/
def restoreItems : Json → Except Fault (List (Form Label))
  | .array items => restoreAll items
  | .string s => if s = "" then .ok [] else .error .notObject
  | .object fields => if fields.isEmpty then .ok [] else .error .notObject
  | _ => .error .noItems

/-- The forms of several records. -/
def restoreAll : List Json → Except Fault (List (Form Label))
  | [] => .ok []
  | j :: js => do
    let first ← restore j
    let more ← restoreAll js
    return first :: more

end

/-- The JSON text of a form's record. -/
def write (asciiOnly : Bool) (form : Form Note) : String :=
  (ofForm (form.map Note.label)).indented asciiOnly 0

/-- The record of a form, if no bare form is in it. -/
def serialize : Form Note → Except UnsupportedForm Json :=
  Form.supported fun e => ofForm (e.map Note.label)

/-- The JSON text of a form's record, if no bare form is in it. -/
def toText (asciiOnly : Bool) : Form Note → Except UnsupportedForm String :=
  Form.supported (write asciiOnly)

/-- The form that a JSON text keeps. -/
def read (text : String) : Except Fault (Form Label) :=
  match Json.parse? text with
  | none => .error .notJson
  | some j => restore j

end Record

end TypedSexp
