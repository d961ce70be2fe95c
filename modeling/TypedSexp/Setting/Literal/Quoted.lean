import TypedSexp.Setting.Literal.Number

/-!
# Quoted texts in literals

A text stands between single or double quotes, or between three of them if it runs
over several lines. A backslash starts an escape. Letters before the quotes make the
text raw, so that a backslash is a character like the others, or make bytes or a
formatted text of it.
-/

namespace TypedSexp.Literal

/-- What stands before a closing mark, and what follows the mark. A backslash
takes the next character with it. -/
def readBody (closing : List Char) (manyLines : Bool) : List Char → Option (List Char × List Char)
  | [] => none
  | '\\' :: c :: rest =>
    (readBody closing manyLines rest).map fun (body, r) => ('\\' :: c :: body, r)
  | c :: rest =>
    if closing.isPrefixOf (c :: rest) then some ([], (c :: rest).drop closing.length)
    else if c = '\n' ∧ !manyLines then none
    else (readBody closing manyLines rest).map fun (body, r) => (c :: body, r)

/-- The character of a code point, if it has one. -/
def charOf? (n : Nat) : Option Char := if n.isValidChar then some (Char.ofNat n) else none

/-- The character that a backslash and a letter stand for. -/
def shortEscape? : Char → Option Char
  | '\\' => some '\\'
  | '\x27' => some '\x27'
  | '"' => some '"'
  | 'a' => some '\x07'
  | 'b' => some '\x08'
  | 'f' => some '\x0c'
  | 'n' => some '\n'
  | 'r' => some '\r'
  | 't' => some '\t'
  | 'v' => some '\x0b'
  | _ => none

/-- How many hexadecimal digits follow the letter of an escape. -/
def hexWidth? : Char → Option Nat
  | 'x' => some 2
  | 'u' => some 4
  | 'U' => some 8
  | _ => none

/-- The octal digits at the front of a text, three at most. -/
def octalDigits (cs : List Char) : List Char :=
  (cs.take 3).takeWhile fun c => '0' ≤ c && c ≤ '7'

/-- A text with its escapes replaced. A backslash before a character that needs
none stays. -/
def unescape (cs : List Char) : Option (List Char) :=
  match cs with
  | [] => some []
  | '\\' :: '\n' :: rest => unescape rest
  | '\\' :: c :: rest =>
    match shortEscape? c, hexWidth? c with
    | some e, _ => (unescape rest).map (e :: ·)
    | none, some width =>
      if rest.length < width then none
      else
        match (Text.hexValue? (rest.take width)).bind charOf? with
        | some e => (unescape (rest.drop width)).map (e :: ·)
        | none => none
    | none, none =>
      match octalDigits (c :: rest) with
      | [] => if c = 'N' then none else (unescape rest).map fun r => '\\' :: c :: r
      | d :: ds =>
        (unescape (rest.drop ds.length)).map fun r => Char.ofNat (baseValue 8 (d :: ds)) :: r
  | c :: rest => (unescape rest).map (c :: ·)
termination_by cs.length
decreasing_by all_goals simp only [List.length_cons, List.length_drop]; omega

/-- What is written between quotes, from the opening ones on, and what follows. -/
def readQuotes : List Char → Option (List Char × List Char)
  | a :: b :: c :: rest =>
    if a = b ∧ b = c then readBody [a, a, a] true rest else readBody [a] false (b :: c :: rest)
  | a :: rest => readBody [a] false rest
  | [] => none

/-- What quotes make of what is written between them. -/
inductive QuoteKind where
  | text
  | bytes
  | formatted
  deriving DecidableEq, Repr

/-- What letters before quotes make of what is between them, and whether it is raw. -/
def quoteKind? (letters : List Char) : Option (QuoteKind × Bool) :=
  match letters.map Char.toLower with
  | [] | ['u'] => some (.text, false)
  | ['r'] => some (.text, true)
  | ['b'] => some (.bytes, false)
  | ['b', 'r'] | ['r', 'b'] => some (.bytes, true)
  | ['f'] => some (.formatted, false)
  | ['f', 'r'] | ['r', 'f'] => some (.formatted, true)
  | _ => none

/-- The bytes of ASCII text with its escapes replaced. A code beyond the bytes counts
without its highest digit. -/
def unescapeBytes (cs : List Char) : Option (List UInt8) :=
  match cs with
  | [] => some []
  | '\\' :: '\n' :: rest => unescapeBytes rest
  | '\\' :: 'x' :: rest =>
    if rest.length < 2 then none
    else
      match Text.hexValue? (rest.take 2) with
      | some n => (unescapeBytes (rest.drop 2)).map (UInt8.ofNat n :: ·)
      | none => none
  | '\\' :: c :: rest =>
    match shortEscape? c, octalDigits (c :: rest) with
    | some e, _ => (unescapeBytes rest).map (UInt8.ofNat e.toNat :: ·)
    | none, [] => (unescapeBytes rest).map fun r => UInt8.ofNat '\\'.toNat :: UInt8.ofNat c.toNat :: r
    | none, d :: ds =>
      (unescapeBytes (rest.drop ds.length)).map (UInt8.ofNat (baseValue 8 (d :: ds)) :: ·)
  | c :: rest => (unescapeBytes rest).map (UInt8.ofNat c.toNat :: ·)
termination_by cs.length
decreasing_by all_goals simp only [List.length_cons, List.length_drop]; omega

/-- The bytes that are written between quotes, which must be ASCII. -/
def bytesOf (raw : Bool) (cs : List Char) : Option (List UInt8) :=
  if !cs.all (·.toNat < 0x80) then none
  else if raw then some (cs.map fun c => UInt8.ofNat c.toNat)
  else unescapeBytes cs

end TypedSexp.Literal
