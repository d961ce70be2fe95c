import TypedSexp.Setting.Literal.Quoted

/-!
# Formatted texts

A formatted text has fields in braces. A field is an expression, which an equals
sign, a conversion and a format may follow; a format may have fields of its own,
whose formats have none. A brace that is no field is doubled, but not in a format.
Inside a field there is neither a backslash nor a comment.
-/

namespace TypedSexp.Literal

/-- The text up to the next field or the end of the format that it is in, and what
follows it. -/
def readPlain (raw inFormat : Bool) : List Char → Option (List Char × List Char)
  | [] => some ([], [])
  | '\\' :: c :: rest =>
    if raw || c == '\x7b' || c == '\x7d' then
      (readPlain raw inFormat (c :: rest)).map fun (s, r) => ('\\' :: s, r)
    else (readPlain raw inFormat rest).map fun (s, r) => ('\\' :: c :: s, r)
  | '\x7b' :: '\x7b' :: rest =>
    if inFormat then some ([], '\x7b' :: '\x7b' :: rest)
    else (readPlain raw inFormat rest).map fun (s, r) => ('\x7b' :: s, r)
  | '\x7d' :: '\x7d' :: rest =>
    if inFormat then some ([], '\x7d' :: '\x7d' :: rest)
    else (readPlain raw inFormat rest).map fun (s, r) => ('\x7d' :: s, r)
  | '\x7b' :: rest => some ([], '\x7b' :: rest)
  | '\x7d' :: rest => if inFormat then some ([], '\x7d' :: rest) else none
  | c :: rest => (readPlain raw inFormat rest).map fun (s, r) => (c :: s, r)

/-- The bracket that closes an open one. -/
def closing? : Char → Option Char
  | '(' => some ')'
  | '[' => some ']'
  | '\x7b' => some '\x7d'
  | _ => none

/-- The expression of a field up to what ends it, and what follows: the brackets that
are to be closed, and the quotes of a text that is open, are given. -/
def readField (closers quotes cs : List Char) : Option (List Char × List Char) :=
  match cs with
  | [] => none
  | c :: rest =>
    let also (taken : List Char) (read : Option (List Char × List Char)) :=
      read.map fun (s, r) => (taken ++ s, r)
    if c = '\\' then none
    else if !quotes.isEmpty then
      if quotes.isPrefixOf (c :: rest) then
        also quotes (readField closers [] (rest.drop (quotes.length - 1)))
      else also [c] (readField closers quotes rest)
    else if c = '\x27' ∨ c = '"' then
      if [c, c].isPrefixOf rest then also [c, c, c] (readField closers [c, c, c] (rest.drop 2))
      else also [c] (readField closers [c] rest)
    else if c = '#' then none
    else
      match closing? c with
      | some closer => also [c] (readField (closer :: closers) [] rest)
      | none =>
        match closers with
        | [] =>
          if ['!', '=', '<', '>'].contains c && rest.head? == some '=' then
            also [c, '='] (readField [] [] (rest.drop 1))
          else if ['!', ':', '\x7d', '='].contains c then some ([], c :: rest)
          else if c = ')' ∨ c = ']' then none
          else also [c] (readField [] [] rest)
        | closer :: closers =>
          if c = closer then also [c] (readField closers [] rest)
          else if [')', ']', '\x7d'].contains c then none
          else also [c] (readField (closer :: closers) [] rest)
termination_by cs.length
decreasing_by all_goals simp only [List.length_cons, List.length_drop]; omega

/-- A blank after the equals sign of a field. -/
def isFieldBlank (c : Char) : Bool :=
  c == ' ' || c == '\t' || c == '\n' || c == '\r' || c == '\x0b' || c == '\x0c'

/-- What follows the equals sign of a field, if it has one. -/
def afterEquals : List Char → List Char
  | '=' :: rest => rest.dropWhile isFieldBlank
  | cs => cs

/-- What follows the conversion of a field, if it has one. -/
def afterConversion : List Char → Option (List Char)
  | '!' :: c :: rest => if c = 's' ∨ c = 'r' ∨ c = 'a' then some rest else none
  | ['!'] => none
  | cs => some cs

/-- The deepest format that may have fields. -/
def maxFormatDepth : Nat := 1

/-- The expressions of the fields of a formatted text, or of a format at a depth, and
what follows it. Every step takes a field or enters a format, so the bound is never
reached by a text of half that length. -/
def readFields (raw : Bool) : Nat → Nat → List Char → Option (List (List Char) × List Char)
  | 0, _, _ => none
  | bound + 1, depth, cs =>
    match readPlain raw (depth != 0) cs with
    | none => none
    | some (s, rest) =>
      if !raw && (unescape s).isNone then none
      else
        match rest with
        | '\x7b' :: rest =>
          if maxFormatDepth < depth then none
          else
            match readField [] [] rest with
            | none => none
            | some (e, rest) =>
              if e.all isFieldBlank then none
              else
                let ended : Option (List (List Char) × List Char) :=
                  match afterConversion (afterEquals rest) with
                  | some (':' :: rest) => readFields raw bound (depth + 1) rest
                  | some rest => some ([], rest)
                  | none => none
                match ended with
                | some (inner, '\x7d' :: rest) =>
                  (readFields raw bound depth rest).map fun (es, r) => (e :: inner ++ es, r)
                | _ => none
        | rest => some ([], rest)

/-- The expressions of the fields of a formatted text. -/
def fieldsOf (raw : Bool) (cs : List Char) : Option (List (List Char)) :=
  match readFields raw (2 * cs.length + 1) 0 cs with
  | some (es, []) => some es
  | _ => none

end TypedSexp.Literal
