import TypedSexp.Json.Basic
import TypedSexp.Text.Hex

/-!
# Written JSON

A JSON value is written in one of two layouts. The indented one puts every item
on a line of its own, two spaces deeper than the value it belongs to. The compact
one has no blanks, and is used in its canonical form: fields in the order of
their names, by code point, so that the order in which they were given does not
count. Strings keep the characters beyond ASCII or escape them.

Integers are written with all their digits, without a limit (see `Number`).
-/

namespace TypedSexp.Json

/-- The escape for one 16-bit unit. -/
def unitEscape (n : Nat) : List Char := '\\' :: 'u' :: Text.hex 4 n

/-- The escape of a character by its code point, as two units beyond the first
plane. -/
def codeEscape (c : Char) : List Char :=
  if c.toNat < 0x10000 then unitEscape c.toNat
  else
    let n := c.toNat - 0x10000
    unitEscape (0xd800 + n / 0x400) ++ unitEscape (0xdc00 + n % 0x400)

/-- One character of a string. -/
def escapeChar (asciiOnly : Bool) (c : Char) : List Char :=
  match c with
  | '"' => ['\\', '"']
  | '\\' => ['\\', '\\']
  | '\n' => ['\\', 'n']
  | '\r' => ['\\', 'r']
  | '\t' => ['\\', 't']
  | '\x0c' => ['\\', 'f']
  | '\x08' => ['\\', 'b']
  | c =>
    if c.toNat < 0x20 then codeEscape c
    else if asciiOnly && 0x7e < c.toNat then codeEscape c
    else [c]

/-- A string in double quotes. -/
def quoted (asciiOnly : Bool) (s : String) : String :=
  String.ofList ('"' :: (s.toList.flatMap (escapeChar asciiOnly) ++ ['"']))

/-- A value without parts. -/
def scalarText (asciiOnly : Bool) : Json → String
  | .null => "null"
  | .bool true => "true"
  | .bool false => "false"
  | .number n => n.jsonText
  | .string s => quoted asciiOnly s
  | .array _ => "[]"
  | .object _ => "\x7b\x7d"

mutual

/-- A value without blanks. -/
def compact : Json → String
  | .array items => "[" ++ String.intercalate "," (compactAll items) ++ "]"
  | .object fields => "\x7b" ++ String.intercalate "," (compactFields fields) ++ "\x7d"
  | j => scalarText false j

/-- Items without blanks. -/
def compactAll : List Json → List String
  | [] => []
  | j :: js => compact j :: compactAll js

/-- Fields without blanks. -/
def compactFields : List (String × Json) → List String
  | [] => []
  | (k, v) :: fs => (quoted false k ++ ":" ++ compact v) :: compactFields fs

end

/-- A line break and the blanks before an item at some depth. -/
def lineStart (depth : Nat) : String := "\n" ++ String.ofList (List.replicate (2 * depth) ' ')

/-- Items, each on a line of its own, between two delimiters. -/
def block (opening closing : String) (depth : Nat) (items : List String) : String :=
  opening ++ lineStart (depth + 1) ++ String.intercalate ("," ++ lineStart (depth + 1)) items ++
    lineStart depth ++ closing

mutual

/-- A value with its items on lines of their own. -/
def indented (asciiOnly : Bool) (depth : Nat) : Json → String
  | .array (j :: js) => block "[" "]" depth (indentedAll asciiOnly (depth + 1) (j :: js))
  | .object (f :: fs) => block "\x7b" "\x7d" depth (indentedFields asciiOnly (depth + 1) (f :: fs))
  | j => scalarText asciiOnly j

/-- Items at some depth. -/
def indentedAll (asciiOnly : Bool) (depth : Nat) : List Json → List String
  | [] => []
  | j :: js => indented asciiOnly depth j :: indentedAll asciiOnly depth js

/-- Fields at some depth. -/
def indentedFields (asciiOnly : Bool) (depth : Nat) : List (String × Json) → List String
  | [] => []
  | (k, v) :: fs =>
    (quoted asciiOnly k ++ ": " ++ indented asciiOnly depth v) ::
      indentedFields asciiOnly depth fs

end

/-! ## The canonical text -/

mutual

/-- The value without the fields of one name, at every depth. -/
def without (name : String) : Json → Json
  | .array items => .array (withoutAll name items)
  | .object fields => .object (withoutFields name fields)
  | j => j

/-- Items without the fields of one name. -/
def withoutAll (name : String) : List Json → List Json
  | [] => []
  | j :: js => without name j :: withoutAll name js

/-- Fields without those of one name. -/
def withoutFields (name : String) : List (String × Json) → List (String × Json)
  | [] => []
  | (k, v) :: fs =>
    if k = name then withoutFields name fs else (k, without name v) :: withoutFields name fs

end

/-- Puts a field in its place among fields in the order of their names. -/
def insertField (f : String × Json) : List (String × Json) → List (String × Json)
  | [] => [f]
  | g :: gs => if g.1 < f.1 then g :: insertField f gs else f :: g :: gs

mutual

/-- The value with all fields in the order of their names. -/
def sorted : Json → Json
  | .array items => .array (sortedAll items)
  | .object fields => .object (sortedFields fields)
  | j => j

/-- Items with all fields in the order of their names. -/
def sortedAll : List Json → List Json
  | [] => []
  | j :: js => sorted j :: sortedAll js

/-- Fields in the order of their names. -/
def sortedFields : List (String × Json) → List (String × Json)
  | [] => []
  | (k, v) :: fs => insertField (k, sorted v) (sortedFields fs)

end

end TypedSexp.Json
