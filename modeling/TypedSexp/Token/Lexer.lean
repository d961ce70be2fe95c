import TypedSexp.Diagnostic
import TypedSexp.Text.Blank
import TypedSexp.Token.Basic

/-!
# The lexer

A source is a sequence of lexemes with gaps of blanks and comments between them.
Lexing goes from left to right and stops at the first character that starts no
lexeme, so a result is the tokens before that place and, if there is one, the
fault. A word runs as far as its characters do; one that starts with a digit has
to be a number.

A number is as long as its digits are. No limit is set on how many digits an integer
may have, although a machine that converts it may set one (see `Number`).
-/

namespace TypedSexp

/-- Why a source cannot be lexed further. -/
inductive LexFault where
  /-- No lexeme starts with the character at this offset. -/
  | unrecognized (c : Char) (offset : Nat)
  /-- A word starts with a digit and is no number. -/
  | malformedNumber (word : String) (span : Span)
  deriving DecidableEq, Repr

namespace LexFault

/-- The place of the fault. -/
def span : LexFault → Span
  | .unrecognized _ offset => ⟨offset, offset + 1⟩
  | .malformedNumber _ s => s

/-- The fault as it is reported. -/
def diagnostic : LexFault → Diagnostic
  | .unrecognized c offset =>
    { stage := .lex
      kind := "unrecognized input"
      detail := s!"unexpected {Text.quoted (String.singleton c)} at offset {offset}"
      span := some ⟨offset, offset + 1⟩ }
  | .malformedNumber word s =>
    { stage := .lex, kind := "malformed number", detail := Text.quoted word, span := some s }

end LexFault

/-- The tokens up to the end of a source or up to the first fault. -/
structure Lexed where
  tokens : List Token
  fault : Option LexFault := none
  deriving DecidableEq, Repr

namespace Lexer

/-- A character of identifiers and numbers. -/
def isWordChar (c : Char) : Bool :=
  ('a' ≤ c && c ≤ 'z') || ('A' ≤ c && c ≤ 'Z') || Decimal.isDigit c ||
    c == '.' || c == '*' || c == '/' || c == '+' || c == '-'

/-- The delimiter lexeme that a character is. -/
def delimiter? : Char → Option Lexeme
  | '(' => some (.opener .paren)
  | ')' => some (.closer .paren)
  | '[' => some (.opener .bracket)
  | ']' => some (.closer .bracket)
  | _ => none

/-- Digits with an optional fraction. -/
def number? (word : List Char) : Option Number :=
  let whole := word.takeWhile Decimal.isDigit
  match word.dropWhile Decimal.isDigit with
  | [] => if whole.isEmpty then none else some (.int (Decimal.digitsValue whole))
  | c :: fraction =>
    if c = '.' ∧ whole ≠ [] ∧ fraction ≠ [] ∧ fraction.all Decimal.isDigit then
      some (.float ((Decimal.ofDigits whole fraction).toBinary64 false))
    else none

/-- The lexeme of a word, which is an identifier unless it starts with a digit. -/
def word? (word : List Char) : Option Lexeme :=
  match word with
  | [] => none
  | c :: _ =>
    if Decimal.isDigit c then (number? word).map .number else some (.ident (String.ofList word))

/-- The tokens of a source text that starts at offset `pos`. -/
def scan (pos : Nat) : List Char → Lexed
  | [] => { tokens := [] }
  | c :: rest =>
    match delimiter? c with
    | some l => emit l 1 (scan (pos + 1) rest)
    | none =>
      if Text.isBlank c then scan (pos + 1) rest
      else if c = ';' then
        scan (pos + 1 + (rest.takeWhile (· ≠ '\n')).length) (rest.dropWhile (· ≠ '\n'))
      else if c = '"' then
        let body := rest.takeWhile (· ≠ '"')
        match h : rest.dropWhile (· ≠ '"') with
        | [] => { tokens := [], fault := some (.unrecognized c pos) }
        | _ :: after =>
          emit (.string (String.ofList body)) (body.length + 2)
            (scan (pos + (body.length + 2)) after)
      else if isWordChar c then
        let word := c :: rest.takeWhile isWordChar
        match word? word with
        | some l => emit l word.length (scan (pos + word.length) (rest.dropWhile isWordChar))
        | none =>
          { tokens := []
            fault := some (.malformedNumber (String.ofList word) ⟨pos, pos + word.length⟩) }
      else { tokens := [], fault := some (.unrecognized c pos) }
termination_by cs => cs.length
decreasing_by
  · simp
  · simp
  · have := (List.dropWhile_suffix (l := rest) (· ≠ '\n')).length_le
    simp only [List.length_cons]
    omega
  · have := (List.dropWhile_suffix (l := rest) (· ≠ '"')).length_le
    rw [h] at this
    simp only [List.length_cons] at this ⊢
    omega
  · have := (List.dropWhile_suffix (l := rest) isWordChar).length_le
    simp only [List.length_cons]
    omega
where
  /-- A lexeme of a given length before what follows it. -/
  emit (l : Lexeme) (length : Nat) (more : Lexed) : Lexed :=
    { more with tokens := ⟨l, ⟨pos, pos + length⟩⟩ :: more.tokens }

end Lexer

/-- The tokens of a source. -/
def Lexed.ofSource (source : String) : Lexed := Lexer.scan 0 source.toList

end TypedSexp
