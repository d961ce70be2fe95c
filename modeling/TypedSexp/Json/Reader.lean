import TypedSexp.Json.Basic
import TypedSexp.Text.Hex

/-!
# JSON read

A JSON text is first cut into tokens and then read with a stack of open arrays
and objects. Of a name that comes twice in an object the last value counts. The
words `NaN`, `Infinity` and `-Infinity` stand for the numbers that no digits
write.

Integers are read with as many digits as they have; the limit that a machine may set
on them is left out (see `Number`).
-/

namespace TypedSexp.Json

/-- A piece of a JSON text. -/
inductive Piece where
  | openArray
  | closeArray
  | openObject
  | closeObject
  | comma
  | colon
  | value (j : Json)

/-! ## Cutting a text into pieces -/

/-- Whether a number is the first of two units for one character. -/
def isHighUnit (n : Nat) : Bool := 0xd800 ≤ n && n < 0xdc00

/-- Whether a number is the second of two units for one character. -/
def isLowUnit (n : Nat) : Bool := 0xdc00 ≤ n && n < 0xe000

/-- The character of a one-letter escape. -/
def shortEscape? : Char → Option Char
  | '"' => some '"'
  | '\\' => some '\\'
  | '/' => some '/'
  | 'b' => some '\x08'
  | 'f' => some '\x0c'
  | 'n' => some '\n'
  | 'r' => some '\r'
  | 't' => some '\t'
  | _ => none

/-- The code units of a string and what follows its closing quote. A character
that stands for itself is one unit. -/
def readUnits : List Char → Option (List Nat × List Char)
  | [] => none
  | '"' :: rest => some ([], rest)
  | '\\' :: 'u' :: a :: b :: c :: d :: rest =>
    match Text.hexValue? [a, b, c, d] with
    | some n => (readUnits rest).map fun (s, r) => (n :: s, r)
    | none => none
  | '\\' :: c :: rest =>
    match shortEscape? c with
    | some e => (readUnits rest).map fun (s, r) => (e.toNat :: s, r)
    | none => none
  | c :: rest =>
    if c.toNat < 0x20 ∨ c = '\\' then none
    else (readUnits rest).map fun (s, r) => (c.toNat :: s, r)

/-- The characters of code units, where two units may make one character. -/
def joinUnits : List Nat → List Char
  | high :: low :: rest =>
    if isHighUnit high && isLowUnit low then
      Char.ofNat (0x10000 + (high - 0xd800) * 0x400 + (low - 0xdc00)) :: joinUnits rest
    else Char.ofNat high :: joinUnits (low :: rest)
  | [unit] => [Char.ofNat unit]
  | [] => []

/-- A string and what follows its closing quote. -/
def readString (cs : List Char) : Option (String × List Char) :=
  (readUnits cs).map fun (units, rest) => (String.ofList (joinUnits units), rest)

/-- Digits as JSON integers have them: no zero before others. -/
def readDigits (cs : List Char) : Option (List Char × List Char) :=
  match cs with
  | '0' :: rest => some (['0'], rest)
  | cs =>
    let ds := cs.takeWhile Decimal.isDigit
    if ds.isEmpty then none else some (ds, cs.dropWhile Decimal.isDigit)

/-- The fraction after digits, empty if there is none. -/
def readFraction (cs : List Char) : List Char × List Char :=
  match cs with
  | '.' :: rest =>
    let ds := rest.takeWhile Decimal.isDigit
    if ds.isEmpty then ([], cs) else (ds, rest.dropWhile Decimal.isDigit)
  | cs => ([], cs)

/-- The exponent after digits, if there is one. -/
def readPower (cs : List Char) : Option Int × List Char :=
  match cs with
  | c :: rest =>
    if c = 'e' ∨ c = 'E' then
      let (negative, body) := match rest with
        | '-' :: r => (true, r)
        | '+' :: r => (false, r)
        | r => (false, r)
      let ds := body.takeWhile Decimal.isDigit
      if ds.isEmpty then (none, cs)
      else
        let n : Int := Decimal.digitsValue ds
        (some (if negative then -n else n), body.dropWhile Decimal.isDigit)
    else (none, cs)
  | [] => (none, [])

/-- A number with a sign, and what follows it. A fraction or an exponent makes it
a float. -/
def readNumber (negative : Bool) (cs : List Char) : Option (Number × List Char) :=
  (readDigits cs).map fun (whole, rest) =>
    let (fraction, rest) := readFraction rest
    let (power, rest) := readPower rest
    if fraction.isEmpty && power.isNone then
      let n : Int := Decimal.digitsValue whole
      (.int (if negative then -n else n), rest)
    else
      let d := Decimal.ofDigits whole fraction
      (.float (Decimal.toBinary64 negative ⟨d.coefficient, d.exponent + power.getD 0⟩), rest)

/-- What follows a word at the front of a text. -/
def afterWord? (word cs : List Char) : Option (List Char) :=
  if word.isPrefixOf cs then some (cs.drop word.length) else none

/-- The words that are values. -/
def words : List (String × Json) :=
  [("null", .null), ("true", .bool true), ("false", .bool false), ("NaN", .number (.float .nan)),
   ("Infinity", .number (.float (.infinite false))),
   ("-Infinity", .number (.float (.infinite true)))]

/-- The word at the front of a text and what follows it. -/
def readWord (cs : List Char) : Option (Json × List Char) :=
  words.findSome? fun (w, j) => (afterWord? w.toList cs).map fun rest => (j, rest)

/-- The piece at the front of a text that starts with no blank, and what follows
it. -/
def readPiece : List Char → Option (Piece × List Char)
  | [] => none
  | '[' :: rest => some (.openArray, rest)
  | ']' :: rest => some (.closeArray, rest)
  | '\x7b' :: rest => some (.openObject, rest)
  | '\x7d' :: rest => some (.closeObject, rest)
  | ',' :: rest => some (.comma, rest)
  | ':' :: rest => some (.colon, rest)
  | '"' :: rest => (readString rest).map fun (s, r) => (.value (.string s), r)
  | c :: rest =>
    match readWord (c :: rest) with
    | some (j, r) => some (.value j, r)
    | none =>
      if c = '-' then (readNumber true rest).map fun (n, r) => (.value (.number n), r)
      else (readNumber false (c :: rest)).map fun (n, r) => (.value (.number n), r)

/-- A blank of JSON. -/
def isSpace (c : Char) : Bool := c == ' ' || c == '\t' || c == '\n' || c == '\r'

/-- The pieces of a text. The bound is never reached by a text of that length, as
every piece takes a character. -/
def pieces : Nat → List Char → Option (List Piece)
  | 0, _ => none
  | bound + 1, cs =>
    match cs.dropWhile isSpace with
    | [] => some []
    | cs =>
      match readPiece cs with
      | none => none
      | some (p, rest) => (pieces bound rest).map (p :: ·)

/-! ## Reading the pieces -/

mutual

/-- The value at the front of pieces and what follows it. Every call takes a
piece, so the bound is never reached by that many pieces. -/
def readValue : Nat → List Piece → Option (Json × List Piece)
  | 0, _ => none
  | _ + 1, .value j :: rest => some (j, rest)
  | _ + 1, .openArray :: .closeArray :: rest => some (.array [], rest)
  | bound + 1, .openArray :: rest =>
    (readItems bound rest).map fun (items, r) => (.array items, r)
  | _ + 1, .openObject :: .closeObject :: rest => some (.object [], rest)
  | bound + 1, .openObject :: rest =>
    (readFields bound rest).map fun (fields, r) => (.object (Entries.ofPairs fields), r)
  | _ + 1, _ => none

/-- The items of an array up to its end. -/
def readItems : Nat → List Piece → Option (List Json × List Piece)
  | 0, _ => none
  | bound + 1, ps =>
    match readValue bound ps with
    | some (j, .comma :: rest) => (readItems bound rest).map fun (js, r) => (j :: js, r)
    | some (j, .closeArray :: rest) => some ([j], rest)
    | _ => none

/-- The fields of an object up to its end. -/
def readFields : Nat → List Piece → Option (List (String × Json) × List Piece)
  | bound + 1, .value (.string k) :: .colon :: ps =>
    match readValue bound ps with
    | some (v, .comma :: rest) => (readFields bound rest).map fun (fs, r) => ((k, v) :: fs, r)
    | some (v, .closeObject :: rest) => some ([(k, v)], rest)
    | _ => none
  | _, _ => none

end

/-- The value that a text holds, if it is JSON. -/
def parse? (text : String) : Option Json :=
  let cs := text.toList
  match pieces (cs.length + 1) cs with
  | none => none
  | some ps =>
    match readValue (ps.length + 1) ps with
    | some (j, []) => some j
    | _ => none

end TypedSexp.Json
