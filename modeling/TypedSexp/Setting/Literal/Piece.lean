import TypedSexp.Setting.Literal.Formatted
import TypedSexp.Text.Name

/-!
# The pieces of an expression

The marks, numbers, texts and words of the one line that an expression stands on.
Blanks, comments and line ends after a backslash or inside brackets do not count,
nor do empty lines before and after that line. No line may be indented.
-/

namespace TypedSexp.Literal

/-- A piece of an expression. -/
inductive Piece where
  /-- A bracket, a separator or an operator. -/
  | mark (text : String)
  | number (n : Numeral)
  | text (s : List Char)
  | bytes (bs : List UInt8)
  /-- A formatted text, with the expressions of its fields. -/
  | formatted (fields : List (List Char))
  | word (text : String)
  deriving DecidableEq, Repr

/-! ## Lines -/

/-- A blank between pieces. -/
def isSpace (c : Char) : Bool := c == ' ' || c == '\t' || c == '\x0c'

/-- What follows blanks, joined lines and a comment. A line can only be joined to
another. -/
def skipSpace : List Char → Option (List Char)
  | [] => some []
  | '\\' :: '\n' :: rest => if rest.isEmpty then none else skipSpace rest
  | c :: rest =>
    if c = '\\' then none
    else if c = '#' then some (rest.dropWhile (· != '\n'))
    else if isSpace c then skipSpace rest
    else some (c :: rest)

/-- Whether a line is indented, and what follows its indentation. A form feed starts
the line anew; what a line is joined to decides for it if that was indented. -/
def lineStart (indented joined : Bool) : List Char → Option (Bool × List Char)
  | ' ' :: rest => lineStart true joined rest
  | '\t' :: rest => lineStart true joined rest
  | '\x0c' :: rest => lineStart false joined rest
  | '\\' :: '\n' :: rest =>
    if rest.isEmpty then none else lineStart indented (joined || indented) rest
  | '\\' :: _ => none
  | rest => some (indented || joined, rest)

/-- A text from its first line that is neither empty nor a comment. The bound is
never reached by a text of that length. -/
def skipLines : Nat → List Char → Option (List Char)
  | 0, _ => none
  | bound + 1, cs =>
    match lineStart false false cs with
    | none => none
    | some (indented, cs) =>
      match cs with
      | '\n' :: rest => skipLines bound rest
      | '#' :: rest => skipLines bound ((rest.dropWhile (· != '\n')).drop 1)
      | cs => if indented then none else some cs

/-! ## Pieces -/

/-- The marks, each before those that it starts with. -/
def marks : List String :=
  ["...", "**", "//", "<<", ">>", "<=", ">=", "==", "!=", ":=", "(", ")", "[", "]", "\x7b", "\x7d",
   ",", ":", ".", "@", "=", "+", "-", "*", "/", "|", "&", "<", ">", "%", "~", "^"]

/-- A character that opens a text. -/
def isQuote (c : Char) : Bool := c == '"' || c == '\x27'

/-- A text with letters before it, and what follows it. -/
def readText (letters cs : List Char) : Option (Piece × List Char) :=
  match quoteKind? letters, readQuotes cs with
  | some (.text, raw), some (s, rest) =>
    if raw then some (.text s, rest) else (unescape s).map fun s => (.text s, rest)
  | some (.bytes, raw), some (s, rest) => (bytesOf raw s).map fun bs => (.bytes bs, rest)
  | some (.formatted, raw), some (s, rest) => (fieldsOf raw s).map fun es => (.formatted es, rest)
  | _, _ => none

/-- A word, or the text that it is part of, and what follows. A word is a name. -/
def readWord (cs : List Char) : Option (Piece × List Char) :=
  let name := cs.takeWhile isWordChar
  let rest := cs.dropWhile isWordChar
  if rest.head?.any isQuote && (quoteKind? name).isSome then readText name rest
  else if Text.isName name then some (.word (String.ofList name), rest)
  else none

/-- A mark and what follows it. -/
def readMark (cs : List Char) : Option (Piece × List Char) :=
  (marks.find? fun m => m.toList.isPrefixOf cs).map fun m => (.mark m, cs.drop m.length)

/-- The piece at the front of a text that starts with no blank, and what follows
it. -/
def readPiece (cs : List Char) : Option (Piece × List Char) :=
  let startsNumber := match cs with
    | '.' :: c :: _ => Decimal.isDigit c
    | c :: _ => Decimal.isDigit c
    | [] => false
  if cs.head?.any isQuote then readText [] cs
  else if startsNumber then
    (readNumber cs).map fun (n, rest) => (.number n, rest)
  else if cs.head?.any isWordChar then readWord cs
  else readMark cs

/-- The number of brackets that may be open. -/
def maxDepth : Nat := 200

/-- How many brackets are open after a piece, if it can stand there. -/
def depthAfter (depth : Nat) : Piece → Option Nat
  | .mark m =>
    if ["(", "[", "\x7b"].contains m then if depth < maxDepth then some (depth + 1) else none
    else if [")", "]", "\x7d"].contains m then if depth = 0 then none else some (depth - 1)
    else some depth
  | _ => some depth

/-- The pieces of a line, by the number of brackets that are open. Nothing may follow
the line. The bound is never reached by a text of that length, as every piece takes a
character. -/
def pieces : Nat → Nat → List Char → Option (List Piece)
  | 0, _, _ => none
  | bound + 1, depth, cs =>
    match skipSpace cs with
    | none => none
    | some [] => some []
    | some ('\n' :: rest) =>
      if depth = 0 then
        match skipLines (rest.length + 1) rest with
        | some [] => some []
        | _ => none
      else pieces bound depth rest
    | some cs =>
      match readPiece cs with
      | none => none
      | some (p, rest) =>
        match depthAfter depth p with
        | none => none
        | some depth => (pieces bound depth rest).map (p :: ·)

end TypedSexp.Literal
