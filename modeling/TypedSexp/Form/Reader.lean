import TypedSexp.Form.Basic
import TypedSexp.Token.Lexer

/-!
# The reader

Reading builds forms from tokens with a stack of open delimiters. Each frame of
the stack holds the delimiter that opened it and the forms that stood before it
at the same level. A closing delimiter has to match the innermost open one.

Tokens are read as they are lexed, so a delimiter that does not match is reported
even if the source cannot be lexed any further after it.
-/

namespace TypedSexp

/-- Why tokens do not make forms. -/
inductive ReadFault where
  /-- A closing delimiter where nothing is open. -/
  | unopened (closer : Delimiter) (span : Span)
  /-- A closing delimiter of the other kind than the innermost open one. -/
  | crossed (opener closer : Delimiter) (span : Span)
  /-- A token of no known kind. -/
  | unexpected (shown : String) (span : Span)
  /-- The innermost delimiter that the end leaves open. -/
  | unclosed (opener : Delimiter) (span : Span)
  deriving DecidableEq, Repr

namespace ReadFault

/-- A delimiter's character as messages quote it. -/
def quoteChar (c : Char) : String := Text.quoted (String.singleton c)

/-- The fault as it is reported. -/
def diagnostic : ReadFault → Diagnostic
  | .unopened c s =>
    { stage := .parse
      kind := "mismatched delimiter"
      detail := s!"{quoteChar c.closing} has no matching opener"
      span := some s }
  | .crossed o c s =>
    { stage := .parse
      kind := "mismatched delimiter"
      detail := s!"{quoteChar o.opening} closed by {quoteChar c.closing}"
      span := some s }
  | .unexpected shown s =>
    { stage := .parse, kind := "unexpected token", detail := shown, span := some s }
  | .unclosed o s =>
    { stage := .parse
      kind := "unclosed delimiter"
      detail := s!"{quoteChar o.opening} is never closed"
      span := some s }

end ReadFault

/-- Why a source holds no forms. -/
inductive ParseFault where
  | lex (fault : LexFault)
  | read (fault : ReadFault)
  deriving DecidableEq, Repr

/-- The fault as it is reported. -/
def ParseFault.diagnostic : ParseFault → Diagnostic
  | .lex f => f.diagnostic
  | .read f => f.diagnostic

namespace Reader

/-- An open delimiter, its place, and the forms before it, the latest first. -/
structure Frame where
  opener : Delimiter
  span : Span
  before : List (Form Note)

/-- The open frames, the innermost first, and the forms read inside the innermost
one, the latest first. -/
structure State where
  stack : List Frame := []
  done : List (Form Note) := []

/-- The note of a form just read. -/
def noteAt (s : Span) : Note := { span := some s }

/-- The compound form that a delimiter makes of forms. -/
def compound (d : Delimiter) (n : Note) (es : List (Form Note)) : Form Note :=
  match d with
  | .paren => .list n es
  | .bracket => .vector n es

/-- The state with one more form. -/
def State.push (st : State) (e : Form Note) : State := { st with done := e :: st.done }

/-- Reads one token. -/
def step (st : State) (t : Token) : Except ReadFault State :=
  match t.lexeme with
  | .opener d => .ok { stack := ⟨d, t.span, st.done⟩ :: st.stack, done := [] }
  | .closer d =>
    match st.stack with
    | [] => .error (.unopened d t.span)
    | f :: stack =>
      if f.opener = d then
        let e := compound d (noteAt (f.span.cover t.span)) st.done.reverse
        .ok { stack, done := e :: f.before }
      else .error (.crossed f.opener d t.span)
  | .ident s => .ok (st.push (.symbol (noteAt t.span) s))
  | .string s => .ok (st.push (.string (noteAt t.span) s))
  | .number x => .ok (st.push (.number (noteAt t.span) x))
  | .other shown => .error (.unexpected shown t.span)

/-- Reads tokens one after the other. -/
def run (st : State) : List Token → Except ReadFault State
  | [] => .ok st
  | t :: ts =>
    match step st t with
    | .ok st' => run st' ts
    | .error e => .error e

/-- The forms read when the tokens end. -/
def finish (st : State) : Except ReadFault (List (Form Note)) :=
  match st.stack with
  | [] => .ok st.done.reverse
  | f :: _ => .error (.unclosed f.opener f.span)

end Reader

namespace Form

/-- The forms that tokens make. -/
def ofTokens (ts : List Token) : Except ReadFault (List (Form Note)) :=
  match Reader.run {} ts with
  | .ok st => Reader.finish st
  | .error e => .error e

/-- The forms of a source that was lexed. A fault of the lexer is met after its
tokens and before the end. -/
def ofLexed (l : Lexed) : Except ParseFault (List (Form Note)) :=
  match Reader.run {} l.tokens with
  | .error e => .error (.read e)
  | .ok st =>
    match l.fault with
    | some e => .error (.lex e)
    | none => (Reader.finish st).mapError .read

/-- The forms of a source. -/
def parse (source : String) : Except ParseFault (List (Form Note)) :=
  ofLexed (Lexed.ofSource source)

/-- Why a source is not a single form. -/
inductive SingleFault where
  | parse (fault : ParseFault)
  | count (found : Nat)

/-- The message for a source with another number of forms than one. -/
def countMessage (found : Nat) : String := s!"expected exactly one form, found {found}"

/-- The one form of a source. -/
def parseOne (source : String) : Except SingleFault (Form Note) :=
  match parse source with
  | .error e => .error (.parse e)
  | .ok [e] => .ok e
  | .ok es => .error (.count es.length)

end Form

end TypedSexp
