import TypedSexp.Json.Basic
import TypedSexp.Number.Complex
import TypedSexp.Setting.Moment
import TypedSexp.Text.Quoted

/-!
# Values

The values of settings, of configuration documents and of tokens that come with
data: nothing, truth values, numbers, texts, lists, tuples, and mappings whose
keys may be any values; in settings also complex numbers, bytes, sets, dates and the
ellipsis. Each has a written form, which is also how a value is shown that is neither
a text nor a date.
-/

namespace TypedSexp

/-- A value. -/
inductive Value where
  | null
  | bool (b : Bool)
  | number (n : Number)
  | text (s : String)
  | list (items : List Value)
  | tuple (items : List Value)
  | map (entries : List (Value × Value))
  | complex (z : Complex)
  | bytes (bs : List UInt8)
  | set (items : List Value)
  | moment (m : Moment)
  | ellipsis
  deriving Inhabited

namespace Value

/-- The number of a value that is an integer. -/
def int? : Value → Option Int
  | .number (.int n) => some n
  | _ => none

/-- The items of a set in the order in which they are written, each with its written
form: natural numbers ascend, and others stay in the order in which they were put
in. -/
def setOrder (items : List (Value × String)) : List (Value × String) :=
  if items.all fun i => (int? i.1).any (0 ≤ ·) then
    items.mergeSort fun i j => (int? i.1).getD 0 ≤ (int? j.1).getD 0
  else items

mutual

/-- The written form of a value. -/
def literal : Value → String
  | .null => "None"
  | .bool true => "True"
  | .bool false => "False"
  | .number n => n.text
  | .text s => Text.quoted s
  | .list items => "[" ++ String.intercalate ", " (literalAll items) ++ "]"
  | .tuple items =>
    match literalAll items with
    | [item] => "(" ++ item ++ ",)"
    | texts => "(" ++ String.intercalate ", " texts ++ ")"
  | .map entries => "\x7b" ++ String.intercalate ", " (literalEntries entries) ++ "\x7d"
  | .complex z => z.text
  | .bytes bs => Text.quotedBytes bs
  | .set [] => "set()"
  | .set items =>
    let texts := (setOrder (items.zip (literalAll items))).map (·.2)
    "\x7b" ++ String.intercalate ", " texts ++ "\x7d"
  | .moment m => m.literal
  | .ellipsis => "Ellipsis"

/-- The written forms of several values. -/
def literalAll : List Value → List String
  | [] => []
  | v :: vs => literal v :: literalAll vs

/-- The written forms of the entries of a mapping. -/
def literalEntries : List (Value × Value) → List String
  | [] => []
  | (k, v) :: es => (literal k ++ ": " ++ literal v) :: literalEntries es

end

/-- A value as it is shown: a text is shown as it is, and a date as a calendar
has it. -/
def shown : Value → String
  | .text s => s
  | .moment m => m.shown
  | v => v.literal

/-- Whether a value counts as true: everything does but nothing, false, zero and
what is empty. -/
def isTrue : Value → Bool
  | .null => false
  | .bool b => b
  | .number n => !n.isZero
  | .text s => s != ""
  | .list items => !items.isEmpty
  | .tuple items => !items.isEmpty
  | .map entries => !entries.isEmpty
  | .complex z => !z.isZero
  | .bytes bs => !bs.isEmpty
  | .set items => !items.isEmpty
  | .moment _ => true
  | .ellipsis => true

/-- Whether a value is a mapping. -/
def isMap : Value → Bool
  | .map _ => true
  | _ => false

/-- The number that a key is compared by; truth values count as one and zero, and a
complex number by its real part if it has no other. -/
def keyNumber? : Value → Option Number
  | .bool b => some (.int (if b then 1 else 0))
  | .number n => some n
  | .complex z => if (Number.float z.im).isZero then some (.float z.re) else none
  | _ => none

mutual

/-- Whether two keys are the same key. Numbers are compared by value, and what is no
number is one key. -/
def sameKey : Value → Value → Bool
  | .null, .null => true
  | .text s, .text t => s == t
  | .tuple ks, .tuple ls => sameKeys ks ls
  | .complex z, .complex w => z.sameValue w
  | .bytes bs, .bytes cs => bs == cs
  | .moment m, .moment n => m == n
  | .ellipsis, .ellipsis => true
  | k, l =>
    match keyNumber? k, keyNumber? l with
    | some x, some y => x.sameValue y || (x == .float .nan && y == .float .nan)
    | _, _ => false

/-- Whether the keys of two lists are the same, one by one. -/
def sameKeys : List Value → List Value → Bool
  | [], [] => true
  | k :: ks, l :: ls => sameKey k l && sameKeys ks ls
  | _, _ => false

end

mutual

/-- Whether a value can be the key of a mapping: no list, no mapping and no set is in
it. -/
def isKey : Value → Bool
  | .list _ => false
  | .map _ => false
  | .set _ => false
  | .tuple items => areKeys items
  | _ => true

/-- Whether several values can all be keys. -/
def areKeys : List Value → Bool
  | [] => true
  | v :: vs => isKey v && areKeys vs

end

/-- The value under a key. -/
def lookup? (k : Value) (es : List (Value × Value)) : Option Value := Entries.find? (sameKey k) es

/-- The value under a key that is a text. -/
def field? (name : String) (es : List (Value × Value)) : Option Value := lookup? (.text name) es

/-- Puts a value under a key. -/
def putEntry (k v : Value) (es : List (Value × Value)) : List (Value × Value) :=
  Entries.putBy (sameKey k) k v es

/-- Puts a value under a key that is a text. -/
def putField (name : String) (v : Value) (es : List (Value × Value)) : List (Value × Value) :=
  putEntry (.text name) v es

/-- Puts an item into a set, unless it is in it. -/
def putItem (v : Value) (items : List Value) : List Value :=
  if items.any (sameKey v) then items else items ++ [v]

mutual

/-- A JSON value as a value. -/
def ofJson : Json → Value
  | .null => .null
  | .bool b => .bool b
  | .number n => .number n
  | .string s => .text s
  | .array items => .list (ofJsonAll items)
  | .object fields => .map (ofJsonFields fields)

/-- JSON items as values. -/
def ofJsonAll : List Json → List Value
  | [] => []
  | j :: js => ofJson j :: ofJsonAll js

/-- JSON fields as entries. -/
def ofJsonFields : List (String × Json) → List (Value × Value)
  | [] => []
  | (k, v) :: fs => (.text k, ofJson v) :: ofJsonFields fs

end

end Value

end TypedSexp
