import TypedSexp.Setting.Document
import TypedSexp.Setting.Yaml.Layout
import TypedSexp.Setting.Yaml.Node

/-!
# YAML documents

A YAML document as a node, and as the value of that node. A text that is no
document, or more than one, has no value; a text without any document has the value
nothing.

This is a reader for the part of YAML in which configurations are mostly written:
collections by indentation and in brackets, plain and quoted scalars, comments, and
marks of documents. Anchors and aliases, tags, scalars in blocks, directives and keys
after a question mark are not read, and a text with one of them is refused. What is
done with a configuration does not depend on this reader; it is the one that the
program is run with.
-/

namespace TypedSexp.Yaml

/-- Whether no node can start here: where a collection by indentation goes on or
ends. -/
def endsNode : List Token → Bool
  | .item :: _ => true
  | .key :: _ => true
  | .value :: _ => true
  | .blockEnd :: _ => true
  | _ => false

/-- Whether, inside brackets, the value of a pair is left out here. -/
def endsFlowValue : List Token → Bool
  | .value :: _ => true
  | .comma :: _ => true
  | .closeBracket :: _ => true
  | .closeBrace :: _ => true
  | _ => false

/-- Whether an item starts here. -/
def startsItem : List Token → Bool
  | .item :: _ => true
  | _ => false

mutual

/-- The node at the front of tokens and what follows it. Collections by
indentation stand only outside brackets. The bound is never reached by that many
tokens. -/
def readNode (block : Bool) : Nat → List Token → Option (Node × List Token)
  | 0, _ => none
  | _ + 1, .plain s :: rest => some (.plain s, rest)
  | _ + 1, .quoted s :: rest => some (.quoted s, rest)
  | bound + 1, .openBracket :: rest =>
    (readFlowItems bound true rest).map fun (items, r) => (.list items, r)
  | bound + 1, .openBrace :: rest =>
    (readFlowPairs bound true rest).map fun (pairs, r) => (.ofPairs pairs, r)
  | bound + 1, .listStart :: rest =>
    if block then
      match readItems bound rest with
      | some (items, .blockEnd :: rest) => some (.list items, rest)
      | _ => none
    else none
  | bound + 1, .mapStart :: rest =>
    if block then (readPairs bound rest).map fun (pairs, r) => (.ofPairs pairs, r) else none
  | _ + 1, _ => none

/-- The items of a list by indentation. -/
def readItems : Nat → List Token → Option (List Node × List Token)
  | 0, _ => none
  | bound + 1, .item :: rest =>
    let read := if endsNode rest then some (Node.empty, rest) else readNode true bound rest
    match read with
    | some (v, rest) => (readItems bound rest).map fun (vs, r) => (v :: vs, r)
    | none => none
  | _ + 1, rest => some ([], rest)

/-- A key or a value of a mapping by indentation. The items of a list may stand
as far out as the keys. -/
def readPart : Nat → List Token → Option (Node × List Token)
  | 0, _ => none
  | bound + 1, tokens =>
    if startsItem tokens then (readItems bound tokens).map fun (items, r) => (.list items, r)
    else if endsNode tokens then some (Node.empty, tokens)
    else readNode true bound tokens

/-- The pairs of a mapping by indentation, up to its end. -/
def readPairs : Nat → List Token → Option (List (Node × Node) × List Token)
  | bound + 1, .key :: rest =>
    match readPart bound rest with
    | none => none
    | some (k, rest) =>
      let read := match rest with
        | .value :: rest => readPart bound rest
        | rest => some (Node.empty, rest)
      match read with
      | some (v, rest) => (readPairs bound rest).map fun (es, r) => ((k, v) :: es, r)
      | none => none
  | _ + 1, .blockEnd :: rest => some ([], rest)
  | _, _ => none

/-- A key and its value inside brackets. Either may be left out. -/
def readFlowPair : Nat → List Token → Option ((Node × Node) × List Token)
  | 0, _ => none
  | bound + 1, tokens =>
    let key := if endsFlowValue tokens then some (Node.empty, tokens) else readNode false bound tokens
    match key with
    | none => none
    | some (k, .value :: rest) =>
      if endsFlowValue rest then some ((k, Node.empty), rest)
      else (readNode false bound rest).map fun (v, r) => ((k, v), r)
    | some (k, rest) => some ((k, Node.empty), rest)

/-- The items of a list in brackets, up to its end. A pair is an item of its own. -/
def readFlowItems : Nat → Bool → List Token → Option (List Node × List Token)
  | bound + 1, first, tokens =>
    match first, tokens with
    | _, .closeBracket :: rest => some ([], rest)
    | false, .comma :: .closeBracket :: rest => some ([], rest)
    | first, tokens =>
      let read := match first, tokens with
        | false, .comma :: .key :: rest => (readFlowPair bound rest).map fun (p, r) => (.ofPairs [p], r)
        | false, .comma :: rest => readNode false bound rest
        | false, _ => none
        | true, .key :: rest => (readFlowPair bound rest).map fun (p, r) => (.ofPairs [p], r)
        | true, rest => readNode false bound rest
      match read with
      | some (v, rest) => (readFlowItems bound false rest).map fun (vs, r) => (v :: vs, r)
      | none => none
  | 0, _, _ => none

/-- The pairs of a mapping in braces, up to its end. An item without a colon is a
key. -/
def readFlowPairs : Nat → Bool → List Token → Option (List (Node × Node) × List Token)
  | bound + 1, first, tokens =>
    match first, tokens with
    | _, .closeBrace :: rest => some ([], rest)
    | false, .comma :: .closeBrace :: rest => some ([], rest)
    | first, tokens =>
      let read := match first, tokens with
        | false, .comma :: .key :: rest => readFlowPair bound rest
        | false, .comma :: rest => (readNode false bound rest).map fun (k, r) => ((k, Node.empty), r)
        | false, _ => none
        | true, .key :: rest => readFlowPair bound rest
        | true, rest => (readNode false bound rest).map fun (k, r) => ((k, Node.empty), r)
      match read with
      | some (p, rest) => (readFlowPairs bound false rest).map fun (ps, r) => (p :: ps, r)
      | none => none
  | 0, _, _ => none

end

/-- Whether a token marks the end of a document. -/
def Token.isDocumentEnd : Token → Bool
  | .documentEnd => true
  | _ => false

/-- Whether a document that was started is empty. -/
def isEmptyDocument : List Token → Bool
  | [] => true
  | .documentStart :: _ => true
  | .documentEnd :: _ => true
  | _ => false

/-- The node of the one document that tokens hold. -/
def ofTokens? (tokens : List Token) : Option Node :=
  let read : Option (Node × List Token) := match tokens with
    | [] => some (Node.empty, [])
    | .documentStart :: rest =>
      if isEmptyDocument rest then some (Node.empty, rest) else readNode true (2 * rest.length + 2) rest
    | tokens => readNode true (2 * tokens.length + 2) tokens
  read.bind fun (n, rest) => if rest.all Token.isDocumentEnd then some n else none

/-- The value of the document in a text. -/
def parse (text : String) : Except Fault Value :=
  match (tokens? text.toList).bind ofTokens? with
  | none => .error .malformed
  | some n => n.toValue

/-- What a fault is to those who ask for a document. -/
def Fault.refusal : Fault → DocumentFault
  | .malformed => .malformed Fault.malformed.message
  | f => .badValue f.message

/-- The reader of these documents. -/
def reader : DocumentReader := ⟨fun text => (parse text).mapError Fault.refusal⟩

end TypedSexp.Yaml
