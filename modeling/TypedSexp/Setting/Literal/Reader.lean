import TypedSexp.Setting.Literal.Expression
import TypedSexp.Setting.Literal.Piece
import TypedSexp.Text.Newline

/-!
# Reading expressions

A text is cut into pieces, and the pieces are read as one expression. Operators bind
by their levels, from `or` at the lowest to the signs at the highest. What is no
literal is read as well, so that a text that is no expression at all can be told from
one.
-/

namespace TypedSexp.Literal

/-- The words that are no names. -/
def keywords : List String :=
  ["False", "None", "True", "and", "as", "assert", "async", "await", "break", "class", "continue",
   "def", "del", "elif", "else", "except", "finally", "for", "from", "global", "if", "import", "in",
   "is", "lambda", "nonlocal", "not", "or", "pass", "raise", "return", "try", "while", "with",
   "yield"]

/-- Whether a word is a name. -/
def isName (s : String) : Bool := !keywords.contains s

/-- An expression of two that is no literal. -/
def joined (_ _ : Expression) : Expression := .other

/-- The level of an operator with two operands at the front of pieces, what it makes of
them, and what follows it. -/
def operator? : List Piece → Option (Nat × (Expression → Expression → Expression) × List Piece)
  | .word "or" :: rest => some (1, joined, rest)
  | .word "and" :: rest => some (2, joined, rest)
  | .word "in" :: rest => some (4, joined, rest)
  | .word "not" :: .word "in" :: rest => some (4, joined, rest)
  | .word "is" :: .word "not" :: rest => some (4, joined, rest)
  | .word "is" :: rest => some (4, joined, rest)
  | .mark m :: rest =>
    if ["<", ">", "<=", ">=", "==", "!="].contains m then some (4, joined, rest)
    else if m = "|" then some (5, joined, rest)
    else if m = "^" then some (6, joined, rest)
    else if m = "&" then some (7, joined, rest)
    else if m = "<<" ∨ m = ">>" then some (8, joined, rest)
    else if m = "+" then some (9, .sum false, rest)
    else if m = "-" then some (9, .sum true, rest)
    else if ["*", "/", "//", "%", "@"].contains m then some (10, joined, rest)
    else none
  | _ => none

/-- The level of what stands before and after `not`. -/
def notLevel : Nat := 3

/-- The level of what stands between comparisons. -/
def operandLevel : Nat := 5

/-- The level of what a sign stands before. -/
def signLevel : Nat := 11

/-- Whether a piece is a text of any kind. -/
def Piece.isText : Piece → Bool
  | .text _ => true
  | .bytes _ => true
  | .formatted _ => true
  | _ => false

/-- The characters of a text. -/
def Piece.chars? : Piece → Option (List Char)
  | .text s => some s
  | _ => none

/-- The bytes of a piece that is bytes. -/
def Piece.bytes? : Piece → Option (List UInt8)
  | .bytes bs => some bs
  | _ => none

/-- The expressions in the fields of a formatted text. -/
def Piece.fields : Piece → List (List Char)
  | .formatted es => es
  | _ => []

/-- The one constant that texts side by side make. Bytes stand with bytes only. -/
def joinTexts (ps : List Piece) : Option Expression :=
  match ps.mapM Piece.chars?, ps.mapM Piece.bytes? with
  | some texts, _ => some (.constant (.text (String.ofList texts.flatten)))
  | none, some parts => some (.constant (.bytes parts.flatten))
  | none, none => if ps.any fun p => p.bytes?.isSome then none else some .other

/-- How an item of a collection is written. -/
inductive ItemKind where
  | plain
  /-- It gives a name to its value. -/
  | assigned
  /-- It stands for several items. -/
  | starred
  deriving DecidableEq, Repr

/-- Whether a loop over items starts here. -/
def startsLoop : List Piece → Bool
  | .word "for" :: _ => true
  | .word "async" :: .word "for" :: _ => true
  | _ => false

/-- Whether a bound of a slice is left out here. -/
def endsBound : List Piece → Bool
  | .mark m :: _ => m == ":" || m == "," || m == "]"
  | _ => false

/-- What follows a mark. -/
def afterMark (mark : String) : List Piece → Option (List Piece)
  | .mark m :: rest => if m = mark then some rest else none
  | _ => none

/-- Which arguments of a call may still follow: all, none without a name, or none with
a star either. -/
inductive ArgumentStage where
  | any
  | named
  | spread
  deriving DecidableEq, Repr

/-- What parameters before a place in the list of them say about those after it. -/
structure ParameterStage where
  /-- There is a parameter. -/
  any : Bool := false
  /-- A parameter has a value of its own, so those after it need one up to a star. -/
  valued : Bool := false
  /-- A slash has come, of which there is one at most. -/
  slashed : Bool := false
  /-- A star has come, of which there is one at most and after any slash. -/
  starred : Bool := false
  /-- The star has no name, so that a parameter must follow. -/
  needsMore : Bool := false
  /-- Two stars have come, after which there is no parameter. -/
  closed : Bool := false
  deriving DecidableEq, Repr

mutual

/-- The expression at the front of pieces and what follows it. Every call takes a
piece or a level, and the fields of a formatted text are shorter than it, so the bound
is never reached by twenty times the length of the text; the same holds for the other
readers. -/
def readExpression : Nat → List Piece → Option (Expression × List Piece)
  | 0, _ => none
  | bound + 1, .word "lambda" :: rest =>
    match readParameters bound {} rest with
    | some rest => (readExpression bound rest).map fun (_, r) => (.other, r)
    | none => none
  | bound + 1, ps =>
    match readLevel bound 1 ps with
    | some (_, .word "if" :: rest) =>
      match readLevel bound 1 rest with
      | some (_, .word "else" :: rest) => (readExpression bound rest).map fun (_, r) => (.other, r)
      | _ => none
    | read => read

/-- An expression whose operators all have a level or a higher one. -/
def readLevel : Nat → Nat → List Piece → Option (Expression × List Piece)
  | 0, _, _ => none
  | bound + 1, level, ps =>
    match ps with
    | .word "not" :: rest =>
      if level ≤ notLevel then
        match readLevel bound notLevel rest with
        | some (_, rest) => readOperators bound level .other rest
        | none => none
      else none
    | .mark "+" :: rest => readSigned bound level (.signed false) rest
    | .mark "-" :: rest => readSigned bound level (.signed true) rest
    | .mark "~" :: rest => readSigned bound level (fun _ => .other) rest
    | ps =>
      match readRaised bound ps with
      | some (e, rest) => readOperators bound level e rest
      | none => none

/-- An expression with a sign in front, from after the sign. -/
def readSigned : Nat → Nat → (Expression → Expression) → List Piece →
    Option (Expression × List Piece)
  | 0, _, _, _ => none
  | bound + 1, level, sign, ps =>
    match readLevel bound signLevel ps with
    | some (e, rest) => readOperators bound level (sign e) rest
    | none => none

/-- What operators of a level or a higher one make of an expression before them. -/
def readOperators : Nat → Nat → Expression → List Piece → Option (Expression × List Piece)
  | 0, _, _, _ => none
  | bound + 1, level, left, ps =>
    match operator? ps with
    | some (own, make, rest) =>
      if own < level then some (left, ps)
      else
        match readLevel bound (own + 1) rest with
        | some (right, rest) => readOperators bound level (make left right) rest
        | none => none
    | none => some (left, ps)

/-- An expression with or without an exponent. -/
def readRaised : Nat → List Piece → Option (Expression × List Piece)
  | 0, _ => none
  | bound + 1, ps =>
    let base : Option (Expression × List Piece) := match ps with
      | .word "await" :: rest => (readPrimary bound rest).map fun (_, r) => (.other, r)
      | ps => readPrimary bound ps
    match base with
    | some (_, .mark "**" :: rest) =>
      (readLevel bound signLevel rest).map fun (_, r) => (.other, r)
    | read => read

/-- An expression without operators. -/
def readPrimary : Nat → List Piece → Option (Expression × List Piece)
  | 0, _ => none
  | bound + 1, ps =>
    match readAtom bound ps with
    | some (e, rest) => readTrailers bound e rest
    | none => none

/-- What parts, calls and places after an expression make of it. A call of `set`
without arguments is the empty set. -/
def readTrailers : Nat → Expression → List Piece → Option (Expression × List Piece)
  | 0, _, _ => none
  | bound + 1, e, ps =>
    match ps with
    | .mark "." :: .word s :: rest => if isName s then readTrailers bound .place rest else none
    | .mark "." :: _ => none
    | .mark "(" :: .mark ")" :: rest =>
      let made := match e with
        | .name "set" => .set []
        | _ => .other
      readTrailers bound made rest
    | .mark "(" :: rest =>
      match readArguments bound .any true rest with
      | some rest => readTrailers bound .other rest
      | none => none
    | .mark "[" :: rest =>
      match readSlices bound rest with
      | some rest => readTrailers bound .place rest
      | none => none
    | ps => some (e, ps)

/-- A constant, a name or a collection. -/
def readAtom : Nat → List Piece → Option (Expression × List Piece)
  | 0, _ => none
  | bound + 1, ps =>
    match ps with
    | .word "None" :: rest => some (.constant .null, rest)
    | .word "True" :: rest => some (.constant (.bool true), rest)
    | .word "False" :: rest => some (.constant (.bool false), rest)
    | .word s :: rest => if isName s then some (.name s, rest) else none
    | .number (.real n) :: rest => some (.number n, rest)
    | .number (.imaginary x) :: rest => some (.imaginary x, rest)
    | .mark "..." :: rest => some (.constant .ellipsis, rest)
    | .mark "(" :: rest => readGroup bound rest
    | .mark "[" :: rest => readList bound rest
    | .mark "\x7b" :: rest => readBraces bound rest
    | .mark _ :: _ => none
    | ps =>
      let texts := ps.takeWhile Piece.isText
      if texts.isEmpty || !areExpressions bound (texts.flatMap Piece.fields) then none
      else (joinTexts texts).map fun e => (e, ps.dropWhile Piece.isText)

/-- Whether texts are expressions, each of which may be a tuple without its
parentheses. -/
def areExpressions : Nat → List (List Char) → Bool
  | _, [] => true
  | 0, _ => false
  | bound + 1, cs :: rest =>
    let inside := '(' :: cs ++ [')']
    match pieces (inside.length + 1) 0 inside with
    | some ps =>
      match readExpression bound ps with
      | some (_, []) => areExpressions bound rest
      | _ => false
    | none => false

/-- An expression or a tuple in parentheses, from after the opening one. -/
def readGroup : Nat → List Piece → Option (Expression × List Piece)
  | 0, _ => none
  | bound + 1, ps =>
    match ps with
    | .mark ")" :: rest => some (.tuple [], rest)
    | .word "yield" :: .mark ")" :: rest => some (.other, rest)
    | .word "yield" :: .word "from" :: rest =>
      match readExpression bound rest with
      | some (_, .mark ")" :: rest) => some (.other, rest)
      | _ => none
    | .word "yield" :: rest => (readYielded bound rest).map fun r => (.other, r)
    | ps =>
      match readItem bound ps with
      | none => none
      | some (e, _, .mark "," :: rest) =>
        (readItems bound ")" rest).map fun (es, r) => (.tuple (e :: es), r)
      | some (e, kind, .mark ")" :: rest) => if kind = .starred then none else some (e, rest)
      | some (_, kind, rest) => if kind = .starred then none else readLoops bound ")" rest

/-- What a generator gives out, up to the closing parenthesis; what follows it is
left. -/
def readYielded : Nat → List Piece → Option (List Piece)
  | 0, _ => none
  | bound + 1, ps =>
    match readItem bound ps with
    | some (_, .assigned, _) => none
    | some (_, _, .mark ")" :: rest) => some rest
    | some (_, _, .mark "," :: .mark ")" :: rest) => some rest
    | some (_, _, .mark "," :: rest) => readYielded bound rest
    | _ => none

/-- A list, from after its opening bracket. -/
def readList : Nat → List Piece → Option (Expression × List Piece)
  | 0, _ => none
  | bound + 1, ps =>
    match ps with
    | .mark "]" :: rest => some (.list [], rest)
    | ps =>
      match readItem bound ps with
      | none => none
      | some (e, _, .mark "," :: rest) =>
        (readItems bound "]" rest).map fun (es, r) => (.list (e :: es), r)
      | some (e, _, .mark "]" :: rest) => some (.list [e], rest)
      | some (_, kind, rest) => if kind = .starred then none else readLoops bound "]" rest

/-- A mapping or a set, from after its opening brace. -/
def readBraces : Nat → List Piece → Option (Expression × List Piece)
  | 0, _ => none
  | bound + 1, ps =>
    match ps with
    | .mark "\x7d" :: rest => some (.map [], rest)
    | .mark "**" :: _ => (readPairs bound ps).map fun (pairs, r) => (.map pairs, r)
    | ps =>
      match readItem bound ps with
      | none => none
      | some (k, .plain, .mark ":" :: rest) =>
        match readExpression bound rest with
        | none => none
        | some (v, .mark "," :: rest) =>
          (readPairs bound rest).map fun (pairs, r) => (.map ((k, v) :: pairs), r)
        | some (v, .mark "\x7d" :: rest) => some (.map [(k, v)], rest)
        | some (_, rest) => readLoops bound "\x7d" rest
      | some (e, _, .mark "," :: rest) =>
        (readItems bound "\x7d" rest).map fun (es, r) => (.set (e :: es), r)
      | some (e, _, .mark "\x7d" :: rest) => some (.set [e], rest)
      | some (_, kind, rest) => if kind = .starred then none else readLoops bound "\x7d" rest

/-- An item of a collection, how it is written, and what follows it. -/
def readItem : Nat → List Piece → Option (Expression × ItemKind × List Piece)
  | 0, _ => none
  | bound + 1, ps =>
    match ps with
    | .mark "*" :: rest =>
      (readLevel bound operandLevel rest).map fun (e, r) => (.starred e, .starred, r)
    | .word s :: .mark ":=" :: rest =>
      if isName s then (readExpression bound rest).map fun (_, r) => (.other, .assigned, r)
      else none
    | ps => (readExpression bound ps).map fun (e, r) => (e, .plain, r)

/-- Items with commas between them up to a closing mark, which a comma may stand
before, and what follows the mark. -/
def readItems : Nat → String → List Piece → Option (List Expression × List Piece)
  | 0, _, _ => none
  | bound + 1, closing, ps =>
    match afterMark closing ps with
    | some rest => some ([], rest)
    | none =>
      match readItem bound ps with
      | none => none
      | some (e, _, .mark "," :: rest) =>
        (readItems bound closing rest).map fun (es, r) => (e :: es, r)
      | some (e, _, rest) => (afterMark closing rest).map fun r => ([e], r)

/-- Pairs with commas between them up to the closing brace, and what follows it. Two
stars bring the pairs of another mapping, which is no literal. -/
def readPairs : Nat → List Piece → Option (List (Expression × Expression) × List Piece)
  | 0, _ => none
  | bound + 1, ps =>
    match ps with
    | .mark "\x7d" :: rest => some ([], rest)
    | ps =>
      let pair : Option ((Expression × Expression) × List Piece) := match ps with
        | .mark "**" :: rest =>
          (readLevel bound operandLevel rest).map fun (e, r) => ((.other, e), r)
        | ps =>
          match readExpression bound ps with
          | some (k, .mark ":" :: rest) => (readExpression bound rest).map fun (v, r) => ((k, v), r)
          | _ => none
      match pair with
      | none => none
      | some (p, .mark "," :: rest) => (readPairs bound rest).map fun (pairs, r) => (p :: pairs, r)
      | some (p, rest) => (afterMark "\x7d" rest).map fun r => ([p], r)

/-- The loops that a collection is made by, up to its closing mark. -/
def readLoops : Nat → String → List Piece → Option (Expression × List Piece)
  | 0, _, _ => none
  | bound + 1, closing, ps =>
    if startsLoop ps then
      match readTargets bound (ps.dropWhile (· == .word "async")).tail with
      | some (.word "in" :: rest) =>
        match readLevel bound 1 rest with
        | some (_, rest) => readConditions bound closing rest
        | none => none
      | _ => none
    else none

/-- The conditions of a loop, and the loops after it. -/
def readConditions : Nat → String → List Piece → Option (Expression × List Piece)
  | 0, _, _ => none
  | bound + 1, closing, ps =>
    match ps with
    | .word "if" :: rest =>
      match readLevel bound 1 rest with
      | some (_, rest) => readConditions bound closing rest
      | none => none
    | ps =>
      match afterMark closing ps with
      | some rest => some (.other, rest)
      | none => readLoops bound closing ps

/-- What a loop gives values to; what follows it is left. -/
def readTargets : Nat → List Piece → Option (List Piece)
  | 0, _ => none
  | bound + 1, ps =>
    let ps := match ps with
      | .mark "*" :: rest => rest
      | ps => ps
    match readLevel bound operandLevel ps with
    | some (e, .mark "," :: rest) =>
      if e.isTarget then
        match rest with
        | .word "in" :: _ => some rest
        | rest => readTargets bound rest
      else none
    | some (e, rest) => if e.isTarget then some rest else none
    | none => none

/-- The arguments of a call up to its closing parenthesis; what follows it is left. A
loop makes the only argument. -/
def readArguments : Nat → ArgumentStage → Bool → List Piece → Option (List Piece)
  | 0, _, _, _ => none
  | bound + 1, stage, first, ps =>
    let plain : ArgumentStage × Bool := (.any, first)
    let argument : Option ((ArgumentStage × Bool) × List Piece) := match ps with
      | .mark "*" :: rest =>
        if stage = .spread then none
        else (readExpression bound rest).map fun (_, r) => ((stage, false), r)
      | .mark "**" :: rest => (readExpression bound rest).map fun (_, r) => ((.spread, false), r)
      | .word s :: .mark "=" :: rest =>
        if isName s then
          (readExpression bound rest).map fun (_, r) =>
            ((if stage = .any then .named else stage, false), r)
        else none
      | ps => if stage = .any then (readItem bound ps).map fun (_, _, r) => (plain, r) else none
    match argument with
    | none => none
    | some (_, .mark ")" :: rest) => some rest
    | some (_, .mark "," :: .mark ")" :: rest) => some rest
    | some ((stage, _), .mark "," :: rest) => readArguments bound stage false rest
    | some ((_, mayLoop), rest) => if mayLoop then (readLoops bound ")" rest).map (·.2) else none

/-- Places in brackets after an expression, up to the closing one; what follows it is
left. -/
def readSlices : Nat → List Piece → Option (List Piece)
  | 0, _ => none
  | bound + 1, ps =>
    let place : Option (List Piece) := match ps with
      | .mark "*" :: rest => (readExpression bound rest).map (·.2)
      | ps =>
        if endsBound ps then readBounds bound 2 ps
        else
          match readItem bound ps with
          | some (_, .plain, rest) => readBounds bound 2 rest
          | some (_, _, rest) => some rest
          | none => none
    match place with
    | none => none
    | some rest =>
      if rest == ps then none
      else
        match rest with
        | .mark "]" :: rest => some rest
        | .mark "," :: .mark "]" :: rest => some rest
        | .mark "," :: rest => readSlices bound rest
        | _ => none

/-- The bounds of a slice after the first, as many as are left. -/
def readBounds : Nat → Nat → List Piece → Option (List Piece)
  | 0, _, _ => none
  | bound + 1, left, ps =>
    match left, ps with
    | left + 1, .mark ":" :: rest =>
      if endsBound rest then readBounds bound left rest
      else
        match readExpression bound rest with
        | some (_, rest) => readBounds bound left rest
        | none => none
    | _, ps => some ps

/-- The parameters of a function up to its colon; what follows it is left. -/
def readParameters : Nat → ParameterStage → List Piece → Option (List Piece)
  | 0, _, _ => none
  | bound + 1, stage, ps =>
    match ps with
    | .mark ":" :: rest => if stage.needsMore then none else some rest
    | ps =>
      match readParameter bound stage ps with
      | some (stage, .mark ":" :: rest) => if stage.needsMore then none else some rest
      | some (stage, .mark "," :: rest) => readParameters bound stage rest
      | _ => none

/-- A parameter of a function, a slash or a star, what it says about the parameters
after it, and what follows it. -/
def readParameter : Nat → ParameterStage → List Piece → Option (ParameterStage × List Piece)
  | 0, _, _ => none
  | bound + 1, stage, ps =>
    if stage.closed then none
    else
      match ps with
      | .mark "/" :: rest =>
        if !stage.any || stage.slashed || stage.starred then none
        else some ({ stage with slashed := true }, rest)
      | .mark "*" :: .word s :: rest =>
        if stage.starred || !isName s then none else some ({ stage with starred := true }, rest)
      | .mark "*" :: rest =>
        if stage.starred then none
        else some ({ stage with starred := true, needsMore := true }, rest)
      | .mark "**" :: .word s :: rest =>
        if stage.needsMore || !isName s then none else some ({ stage with closed := true }, rest)
      | .word s :: .mark "=" :: rest =>
        if isName s then
          (readExpression bound rest).map fun (_, r) =>
            ({ stage with any := true, valued := true, needsMore := false }, r)
        else none
      | .word s :: rest =>
        if !isName s || (stage.valued && !stage.starred) then none
        else some ({ stage with any := true, needsMore := false }, rest)
      | _ => none

end

/-- Expressions with commas between them up to the end, which a comma may stand
before. -/
def readRest : Nat → Nat → List Piece → Option (List Expression)
  | _, _, [] => some []
  | 0, _, _ => none
  | count + 1, bound, ps =>
    match readExpression bound ps with
    | some (e, []) => some [e]
    | some (e, .mark "," :: rest) => (readRest count bound rest).map (e :: ·)
    | _ => none

/-- The expression that a text holds. Blanks before it do not count. Expressions with
commas between them are a tuple. -/
def parse? (text : List Char) : Option Expression :=
  let cs := (Text.unifyNewlines text).dropWhile fun c => c == ' ' || c == '\t'
  if cs.contains '\x00' then none
  else
    match (skipLines (cs.length + 1) cs).bind fun cs => pieces (cs.length + 1) 0 cs with
    | none => none
    | some ps =>
      let bound := 20 * (cs.length + 2)
      match readExpression bound ps with
      | some (e, []) => some e
      | some (e, .mark "," :: rest) =>
        (readRest (rest.length + 1) bound rest).map fun es => .tuple (e :: es)
      | _ => none

end TypedSexp.Literal
