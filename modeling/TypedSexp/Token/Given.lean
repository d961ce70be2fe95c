import TypedSexp.Setting.Value
import TypedSexp.Token.Basic

/-!
# Tokens given by kind and value

A stream of tokens may be given as data instead of being lexed. A token is then
the word for its kind and any value: identifiers and strings take the value as it
is shown, numbers have to hold a number, and delimiters ignore it.
-/

namespace TypedSexp.Lexeme

/-- A lexeme of no known kind, shown by its kind and its value. -/
def unknown (kind : String) (value : Value) : Lexeme :=
  match value with
  | .null => .other kind
  | v => .other s!"{kind}({v.literal})"

/-- The lexeme of a kind with a value. -/
def ofParts (kind : String) (value : Value) : Lexeme :=
  match kind with
  | "LPAREN" => .opener .paren
  | "RPAREN" => .closer .paren
  | "LBRACKET" => .opener .bracket
  | "RBRACKET" => .closer .bracket
  | "IDENT" => .ident value.shown
  | "STRING" => .string value.shown
  | "NUMBER" =>
    match value with
    | .number n => .number n
    | v => unknown kind v
  | _ => unknown kind value

end TypedSexp.Lexeme
