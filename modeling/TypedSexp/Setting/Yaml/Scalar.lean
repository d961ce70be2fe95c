import TypedSexp.Setting.Yaml.Placed
import TypedSexp.Text.Hex

/-!
# The texts of scalars

A scalar stands in double quotes, in single quotes, or plain. Each may run over
several lines; the line ends inside it are then folded: one becomes a space, and
of several the first is dropped.
-/

namespace TypedSexp.Yaml

/-- What a line end and those right after it become inside a scalar. -/
def foldBreaks (first : Char) (more : List Char) : List Char :=
  (if first ≠ '\n' then [first] else if more.isEmpty then [' '] else []) ++ more

/-- The line ends after a first one and what follows them, the blanks at the
starts of lines left out. If a line starts or ends the document, there are no
such line ends and that line follows. -/
def readBreaks (isBlank : Char → Bool) : Bool → List Placed → Option (List Char) × List Placed
  | _, [] => (some [], [])
  | atStart, c :: rest =>
    if atStart && isDocumentMark (c :: rest) then (none, c :: rest)
    else if isBlank c.char then readBreaks isBlank false rest
    else if isBreak c.char then
      let (more, after) := readBreaks isBlank true rest
      (more.map (c.char :: ·), after)
    else (some [], c :: rest)

/-! ## Quoted scalars -/

/-- The character that a backslash and a character stand for. -/
def shortEscape? : Char → Option Char
  | '0' => some '\x00'
  | 'a' => some '\x07'
  | 'b' => some '\x08'
  | 't' => some '\t'
  | '\t' => some '\t'
  | 'n' => some '\n'
  | 'v' => some '\x0b'
  | 'f' => some '\x0c'
  | 'r' => some '\r'
  | 'e' => some '\x1b'
  | ' ' => some ' '
  | '"' => some '"'
  | '\\' => some '\\'
  | '/' => some '/'
  | 'N' => some '\u0085'
  | '_' => some '\u00a0'
  | 'L' => some '\u2028'
  | 'P' => some '\u2029'
  | _ => none

/-- How many hexadecimal digits follow the letter of an escape. -/
def hexWidth? : Char → Option Nat
  | 'x' => some 2
  | 'u' => some 4
  | 'U' => some 8
  | _ => none

/-- The characters of an escape in double quotes, from after its backslash, and
what follows it. An escaped line end leaves no space. -/
def readEscape : List Placed → Option (List Char × List Placed)
  | [] => none
  | c :: rest =>
    match shortEscape? c.char, hexWidth? c.char with
    | some e, _ => some ([e], rest)
    | none, some width =>
      if rest.length < width then none
      else
        match Text.hexValue? ((rest.take width).map (·.char)) with
        | some n => if n.isValidChar then some ([Char.ofNat n], rest.drop width) else none
        | none => none
    | none, none =>
      if isBreak c.char then
        match readBreaks isSpace true rest with
        | (some breaks, after) => some (breaks, after)
        | (none, _) => none
      else none

/-- The characters of a gap in a quoted scalar and what follows it: blanks stay
unless a line ends there. -/
def readGap (cs : List Placed) : Option (List Char × List Placed) :=
  let blanks := cs.takeWhile fun c => isSpace c.char
  match cs.dropWhile fun c => isSpace c.char with
  | [] => none
  | c :: rest =>
    if isBreak c.char then
      match readBreaks isSpace true rest with
      | (some more, after) => some (foldBreaks c.char more, after)
      | (none, _) => none
    else some (blanks.map (·.char), c :: rest)

/-- The text of a quoted scalar, from after its opening quote, and what follows
its closing quote. A single quote in single quotes is written twice. The bound is
never reached by that many characters. -/
def readQuoted (double : Bool) : Nat → List Placed → Option (List Char × List Placed)
  | 0, _ => none
  | _, [] => none
  | bound + 1, c :: rest =>
    let after (part : List Char × List Placed) : Option (List Char × List Placed) :=
      (readQuoted double bound part.2).map fun (s, r) => (part.1 ++ s, r)
    if double then
      if c.char = '"' then some ([], rest)
      else if c.char = '\\' then (readEscape rest).bind after
      else if isGap c.char then (readGap (c :: rest)).bind after
      else after ([c.char], rest)
    else if c.char = '\x27' then
      match rest with
      | d :: rest' => if d.char = '\x27' then after (['\x27'], rest') else some ([], rest)
      | [] => some ([], [])
    else if isGap c.char then (readGap (c :: rest)).bind after
    else after ([c.char], rest)

/-! ## Plain scalars -/

/-- A mark of a collection in brackets or braces. -/
def isFlowMark (c : Char) : Bool :=
  c == ',' || c == '[' || c == ']' || c == '\x7b' || c == '\x7d'

/-- Whether a word of a plain scalar stops here: at a gap, at a colon that makes
a key, and inside brackets at their marks. -/
def stopsWord (inFlow : Bool) : List Placed → Bool
  | [] => true
  | c :: rest =>
    isGap c.char ||
      (c.char == ':' && (endsWord rest || (inFlow && rest.head?.any fun d => isFlowMark d.char))) ||
      (inFlow && (isFlowMark c.char || c.char == '?'))

/-- A word of a plain scalar and what follows it. -/
def readWord (inFlow : Bool) : List Placed → List Char × List Placed
  | [] => ([], [])
  | c :: rest =>
    if stopsWord inFlow (c :: rest) then ([], c :: rest)
    else
      let (word, after) := readWord inFlow rest
      (c.char :: word, after)

/-- A plain scalar as it was read: its text, whether a line ended right after
it, and what follows. -/
structure PlainRead where
  text : List Char
  endsLine : Bool
  rest : List Placed

/-- The gap after a word of a plain scalar: what it becomes if the scalar goes
on, empty if it cannot. -/
def readPlainGap (cs : List Placed) : PlainRead :=
  let spaces := cs.takeWhile (·.char == ' ')
  match cs.dropWhile (·.char == ' ') with
  | [] => ⟨spaces.map (·.char), false, []⟩
  | c :: rest =>
    if isBreak c.char then
      match readBreaks (· == ' ') true rest with
      | (some more, after) => ⟨foldBreaks c.char more, true, after⟩
      | (none, after) => ⟨[], true, after⟩
    else ⟨spaces.map (·.char), false, c :: rest⟩

/-- Whether a plain scalar cannot go on here: at a comment, and outside brackets
where a line starts no further in than the collection that holds the scalar. -/
def endsPlain (inFlow : Bool) (indent : Option Nat) : List Placed → Bool
  | [] => false
  | c :: _ => c.char == '#' || (!inFlow && indent.any (c.column ≤ ·))

/-- A plain scalar: its words and the gaps between them. The bound is never
reached by that many characters. -/
def readPlain (inFlow : Bool) (indent : Option Nat) : Nat → List Placed → PlainRead
  | 0, cs => ⟨[], false, cs⟩
  | bound + 1, cs =>
    let (word, after) := readWord inFlow cs
    if word.isEmpty then ⟨[], false, cs⟩
    else
      let gap := readPlainGap after
      if gap.text.isEmpty || endsPlain inFlow indent gap.rest then ⟨word, gap.endsLine, gap.rest⟩
      else
        let more := readPlain inFlow indent bound gap.rest
        if more.text.isEmpty then ⟨word, gap.endsLine, gap.rest⟩
        else ⟨word ++ gap.text ++ more.text, more.endsLine, more.rest⟩

/-- Whether a plain scalar may start here. -/
def startsPlain (inFlow : Bool) : List Placed → Bool
  | [] => false
  | c :: rest =>
    let special := "-?:,[]\x7b\x7d#&*!|>'\"%@\x60".toList
    (!isGap c.char && !special.contains c.char) ||
      (!endsWord rest && (c.char == '-' || (!inFlow && (c.char == '?' || c.char == ':'))))

end TypedSexp.Yaml
