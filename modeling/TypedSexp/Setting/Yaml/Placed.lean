import TypedSexp.Text.Newline

/-!
# Characters with their places

The layout of a YAML document is part of what it says, so its characters carry
their places: offset, line and column, each counted from zero.
-/

namespace TypedSexp.Yaml

/-- A character and its place in the document. -/
structure Placed where
  char : Char
  offset : Nat
  line : Nat
  column : Nat

/-- A character that ends a line, where line feed, carriage return and next line
have become one. -/
def isBreak (c : Char) : Bool := c == '\n' || c == '\u2028' || c == '\u2029'

/-- A space or a tab. -/
def isSpace (c : Char) : Bool := c == ' ' || c == '\t'

/-- A character that no word goes on with. -/
def isGap (c : Char) : Bool := isSpace c || isBreak c

/-- A character that a document may hold. -/
def isAllowed (c : Char) : Bool :=
  c == '\t' || c == '\n' || c == '\r' || c == '\u0085' || (' ' ≤ c && c ≤ '~') ||
    (0xa0 ≤ c.toNat && c.toNat ≤ 0xfffd) || 0x10000 ≤ c.toNat

/-- The characters of a text with their places, from a given place on. A byte order
mark takes no column. -/
def placeFrom (offset line column : Nat) : List Char → List Placed
  | [] => []
  | c :: rest =>
    ⟨c, offset, line, column⟩ ::
      if isBreak c then placeFrom (offset + 1) (line + 1) 0 rest
      else placeFrom (offset + 1) line (if c = '\ufeff' then column else column + 1) rest

/-- The placed characters of a document, without a byte order mark at its front.
A document with a character that none may hold has no placed characters. -/
def place? (text : List Char) : Option (List Placed) :=
  if text.all isAllowed then
    let cs := (Text.unifyNewlines text).map fun c => if c = '\u0085' then '\n' else c
    match cs with
    | '\ufeff' :: rest => some (placeFrom 0 0 0 rest)
    | cs => some (placeFrom 0 0 0 cs)
  else none

/-- Whether no word goes on here. -/
def endsWord : List Placed → Bool
  | [] => true
  | c :: _ => isGap c.char

/-- Whether three marks stand here with no word after them. -/
def isTriple (mark : Char) : List Placed → Bool
  | a :: b :: c :: rest => a.char == mark && b.char == mark && c.char == mark && endsWord rest
  | _ => false

/-- Whether these characters, at the start of a line, start or end a document. -/
def isDocumentMark (cs : List Placed) : Bool := isTriple '-' cs || isTriple '.' cs

end TypedSexp.Yaml
