import TypedSexp.Number.Basic
import TypedSexp.Span
import TypedSexp.Text.Quoted

/-!
# Tokens

A token is a lexeme with its place: an opening or closing delimiter, a string, a
number or an identifier. Streams that were not lexed from a source may hold
tokens of no known kind, which only keep the form in which they are shown.
-/

namespace TypedSexp

/-- The two pairs of delimiters. -/
inductive Delimiter where
  | paren
  | bracket
  deriving DecidableEq, Repr

namespace Delimiter

/-- The opening character. -/
def opening : Delimiter → Char
  | .paren => '('
  | .bracket => '['

/-- The closing character. -/
def closing : Delimiter → Char
  | .paren => ')'
  | .bracket => ']'

end Delimiter

/-- What a token says. -/
inductive Lexeme where
  | opener (d : Delimiter)
  | closer (d : Delimiter)
  | string (value : String)
  | number (value : Number)
  | ident (name : String)
  | other (shown : String)
  deriving DecidableEq, Repr

/-- A lexeme and its place. -/
structure Token where
  lexeme : Lexeme
  span : Span
  deriving DecidableEq, Repr

namespace Lexeme

/-- The word for a kind of lexeme. -/
def kind : Lexeme → String
  | .opener .paren => "LPAREN"
  | .closer .paren => "RPAREN"
  | .opener .bracket => "LBRACKET"
  | .closer .bracket => "RBRACKET"
  | .string _ => "STRING"
  | .number _ => "NUMBER"
  | .ident _ => "IDENT"
  | .other shown => shown

/-- The form in which a lexeme is shown: its kind and, in parentheses, its
value. -/
def shown : Lexeme → String
  | .string s => s!"STRING({Text.quoted s})"
  | .number n => s!"NUMBER({n.text})"
  | .ident s => s!"IDENT({Text.quoted s})"
  | l => l.kind

end Lexeme

end TypedSexp
