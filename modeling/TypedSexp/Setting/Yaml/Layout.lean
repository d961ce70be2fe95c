import TypedSexp.Setting.Yaml.Scalar

/-!
# Tokens with their layout

The tokens of a YAML document. Collections that are written by indentation get a
token where they start and one where they end, so that what follows needs no
columns. Whether a scalar is a key is known only at the colon after it; the token
that says so is put in front of it then.
-/

namespace TypedSexp.Yaml

/-- A token of a document. -/
inductive Token where
  | documentStart
  | documentEnd
  /-- A list or a mapping by indentation starts or ends. -/
  | listStart
  | mapStart
  | blockEnd
  /-- The dash before an item. -/
  | item
  /-- A key follows. -/
  | key
  /-- The colon before a value. -/
  | value
  | openBracket
  | closeBracket
  | openBrace
  | closeBrace
  | comma
  | plain (text : List Char)
  | quoted (text : List Char)

/-- A scalar or collection that may turn out to be a key: the number of tokens
before it and its place. It must be a key if it stands where the keys of the
mapping around it stand. -/
structure KeyStart where
  before : Nat
  required : Bool
  place : Placed

/-- How far a document has been cut into tokens. -/
structure Layout where
  /-- The tokens so far, the last first. -/
  tokens : List Token
  /-- What is left. -/
  rest : List Placed
  /-- The columns of the collections by indentation that are open, the innermost
  first. -/
  indents : List Nat
  /-- What may be a key, for every level of brackets, the innermost first; the
  last is outside all of them. -/
  keys : List (Option KeyStart)
  /-- Whether a key may start here. -/
  keyAllowed : Bool

namespace Layout

/-- The start of a document. -/
def start (cs : List Placed) : Layout := ⟨[], cs, [], [none], true⟩

/-- Whether brackets are open. -/
def inFlow (l : Layout) : Bool := 1 < l.keys.length

/-- Adds a token. -/
def push (l : Layout) (t : Token) : Layout := { l with tokens := t :: l.tokens }

/-- Gives up what may be a key on the innermost level. It cannot be given up if
it must be a key. -/
def dropKey (l : Layout) : Option Layout :=
  match l.keys with
  | some k :: keys => if k.required then none else some { l with keys := none :: keys }
  | _ => some l

/-- A key ends on the line that it starts on and within 1024 characters. -/
def KeyStart.isStale (here : Placed) (k : KeyStart) : Bool :=
  k.place.line != here.line || 1024 < here.offset - k.place.offset

/-- Gives up on every level what can no longer be a key. -/
def dropStaleKeys (here : Placed) (l : Layout) : Option Layout :=
  if l.keys.any (·.any fun k => KeyStart.isStale here k && k.required) then none
  else some { l with keys := l.keys.map fun k => k.filter fun k => !KeyStart.isStale here k }

/-- Remembers that a key may start here. -/
def saveKey (here : Placed) (l : Layout) : Option Layout :=
  if l.keyAllowed then
    l.dropKey.map fun l =>
      let required := !l.inFlow && l.indents.head? == some here.column
      { l with keys := some ⟨l.tokens.length, required, here⟩ :: l.keys.tail }
  else some l

/-- Ends the collections by indentation that stand further in than a column, or
all of them. -/
def unwind (column : Option Nat) (l : Layout) : Layout :=
  let ended := l.indents.takeWhile fun i => column.all (· < i)
  { l with
    tokens := ended.map (fun _ => Token.blockEnd) ++ l.tokens
    indents := l.indents.drop ended.length }

/-- Whether a collection by indentation starts at a column. -/
def startsBlock (column : Nat) (l : Layout) : Bool := l.indents.head?.all (· < column)

/-- Starts a collection by indentation at a column, if one starts there. -/
def openBlock (t : Token) (column : Nat) (l : Layout) : Layout :=
  if l.startsBlock column then { l.push t with indents := column :: l.indents } else l

/-- Goes on after blanks, comments and line ends. Outside brackets, a key may
start on a new line. -/
def skipBlanks (newLine inComment : Bool) : List Placed → Bool × List Placed
  | [] => (newLine, [])
  | c :: rest =>
    if isBreak c.char then skipBlanks true false rest
    else if inComment || c.char == '#' then skipBlanks newLine true rest
    else if c.char == ' ' then skipBlanks newLine false rest
    else (newLine, c :: rest)

/-- A document starts or ends. -/
def documentMark (t : Token) (l : Layout) : Option Layout :=
  (l.unwind none).dropKey.map fun l =>
    { l.push t with rest := l.rest.drop 3, keyAllowed := false }

/-- A bracket opens. -/
def openFlow (t : Token) (here : Placed) (l : Layout) : Option Layout :=
  (l.saveKey here).map fun l =>
    { l.push t with rest := l.rest.tail, keys := none :: l.keys, keyAllowed := true }

/-- A bracket closes. -/
def closeFlow (t : Token) (l : Layout) : Option Layout :=
  if l.inFlow then
    l.dropKey.map fun l =>
      { l.push t with rest := l.rest.tail, keys := l.keys.tail, keyAllowed := false }
  else none

/-- A comma. -/
def comma (l : Layout) : Option Layout :=
  l.dropKey.map fun l => { l.push .comma with rest := l.rest.tail, keyAllowed := true }

/-- The dash before an item. -/
def dash (here : Placed) (l : Layout) : Option Layout :=
  if l.inFlow || !l.keyAllowed then none
  else
    (l.openBlock .listStart here.column).dropKey.map fun l =>
      { l.push .item with rest := l.rest.tail, keyAllowed := true }

/-- A colon after a key. The key, and the mapping if this is its first, are put
in front of what has turned out to be the key. -/
def colonAfter (k : KeyStart) (l : Layout) : Layout :=
  let count := l.tokens.length - k.before
  let starts := !l.inFlow && l.startsBlock k.place.column
  let marks := if starts then [Token.key, Token.mapStart] else [Token.key]
  { l with
    tokens := .value :: l.tokens.take count ++ marks ++ l.tokens.drop count
    rest := l.rest.tail
    indents := if starts then k.place.column :: l.indents else l.indents
    keys := none :: l.keys.tail
    keyAllowed := false }

/-- A colon before a value. -/
def colon (here : Placed) (l : Layout) : Option Layout :=
  match l.keys with
  | some k :: _ => some (l.colonAfter k)
  | _ =>
    if l.inFlow then some { l.push .value with rest := l.rest.tail, keyAllowed := false }
    else if l.keyAllowed then
      some { (l.openBlock .mapStart here.column).push .value with rest := l.rest.tail }
    else none

/-- A quoted scalar. -/
def quotedScalar (double : Bool) (here : Placed) (l : Layout) : Option Layout :=
  (l.saveKey here).bind fun l =>
    (readQuoted double (l.rest.length + 1) l.rest.tail).map fun (s, after) =>
      { l.push (.quoted s) with rest := after, keyAllowed := false }

/-- A plain scalar. -/
def plainScalar (here : Placed) (l : Layout) : Option Layout :=
  (l.saveKey here).map fun l =>
    let read := readPlain l.inFlow l.indents.head? (l.rest.length + 1) l.rest
    { l.push (.plain read.text) with rest := read.rest, keyAllowed := read.endsLine }

/-- The token at the front of what is left, where no blank stands. Of what YAML
has, this reads no tags, anchors, directives, question-mark keys and block
scalars. -/
def next (here : Placed) (l : Layout) : Option Layout :=
  let wordEnds := endsWord l.rest.tail
  if here.column = 0 && isTriple '-' l.rest then l.documentMark .documentStart
  else if here.column = 0 && isTriple '.' l.rest then l.documentMark .documentEnd
  else
    match here.char with
    | '[' => l.openFlow .openBracket here
    | '\x7b' => l.openFlow .openBrace here
    | ']' => l.closeFlow .closeBracket
    | '\x7d' => l.closeFlow .closeBrace
    | ',' => l.comma
    | '"' => l.quotedScalar true here
    | '\x27' => l.quotedScalar false here
    | c =>
      if c = '-' && wordEnds then l.dash here
      else if c = ':' && (l.inFlow || wordEnds) then l.colon here
      else if startsPlain l.inFlow l.rest then l.plainScalar here
      else none

/-- Cuts what is left into tokens. Every token takes a character, so the bound is
never reached by that many characters. -/
def run : Nat → Layout → Option (List Token)
  | 0, _ => none
  | bound + 1, l =>
    let (newLine, rest) := skipBlanks false false l.rest
    let l := { l with rest, keyAllowed := l.keyAllowed || (newLine && !l.inFlow) }
    match rest with
    | [] => (l.unwind none).dropKey.map (·.tokens.reverse)
    | here :: _ =>
      match l.dropStaleKeys here with
      | none => none
      | some l =>
        let l := if l.inFlow then l else l.unwind (some here.column)
        (l.next here).bind (run bound)

end Layout

/-- The tokens of a document. -/
def tokens? (text : List Char) : Option (List Token) :=
  (place? text).bind fun cs => Layout.run (cs.length + 1) (.start cs)

end TypedSexp.Yaml
