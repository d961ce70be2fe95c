import TypedSexp.Setting.Yaml.Plain

/-!
# Nodes

The parts of a YAML document: scalars, lists and mappings. A merge key brings the
pairs of another mapping, or of several, in front of a mapping's own; of a key that
comes twice the last value counts. Lists and mappings are no keys.

A document with several faults is refused for the outermost of them, and of those
at one depth for the first.
-/

namespace TypedSexp.Yaml

/-- A part of a document. -/
inductive Node where
  | plain (text : List Char)
  | quoted (text : List Char)
  | list (items : List Node)
  | map (pairs : List (Node × Node))
  /-- A mapping with a merge key whose value brings no pairs. -/
  | unmerged

namespace Node

/-- What is left out counts as an empty scalar. -/
def empty : Node := .plain []

/-! ## Merge keys -/

/-- Whether a node is a merge key. -/
def isMerge : Node → Bool
  | .plain s => s == mergeWord
  | _ => false

/-- The pairs of a mapping. -/
def pairs? : Node → Option (List (Node × Node))
  | .map ps => some ps
  | _ => none

/-- The pairs that the value of a merge key brings: those of a mapping, or of the
mappings in a list, the last of them first. -/
def brought? : Node → Option (List (Node × Node))
  | .list items => (items.mapM pairs?).map fun groups => groups.reverse.flatten
  | n => n.pairs?

/-- The mapping that pairs make. -/
def ofPairs (ps : List (Node × Node)) : Node :=
  match (ps.filter fun p => p.1.isMerge).mapM fun p => p.2.brought? with
  | some groups => .map (groups.flatten ++ ps.filter fun p => !p.1.isMerge)
  | none => .unmerged

/-! ## Faults -/

/-- What is wrong with a scalar. -/
def fault? : Node → Option Fault
  | .plain s => plainFault? s
  | _ => none

/-- What is wrong with a key. -/
def keyFault? : Node → Option Fault
  | .plain s => if s = wholeWord then none else plainFault? s
  | .quoted _ => none
  | _ => some .malformed

/-- What is wrong at each depth, or at that depth of another part after it. -/
def besides : List (List Fault) → List (List Fault) → List (List Fault)
  | [], gs => gs
  | fs, [] => fs
  | f :: fs, g :: gs => (f ++ g) :: besides fs gs

mutual

/-- What is wrong inside a node, by depth. -/
def faults : Node → List (List Fault)
  | .list items => items.filterMap fault? :: faultsAll items
  | .map ps =>
    (ps.flatMap fun p => (keyFault? p.1).toList ++ (fault? p.2).toList) :: faultsPairs ps
  | .unmerged => [[.malformed]]
  | _ => []

/-- What is wrong inside several nodes, by depth. -/
def faultsAll : List Node → List (List Fault)
  | [] => []
  | n :: ns => besides (faults n) (faultsAll ns)

/-- What is wrong inside the values of pairs, by depth. -/
def faultsPairs : List (Node × Node) → List (List Fault)
  | [] => []
  | (_, v) :: ps => besides (faults v) (faultsPairs ps)

end

/-- The fault that a document is refused for. -/
def firstFault? (n : Node) : Option Fault := n.fault? <|> n.faults.flatten.head?

/-! ## Values -/

/-- The value of a key with which nothing is wrong. -/
def keyValue : Node → Value
  | .plain s => if s = wholeWord then .text (String.ofList s) else plainValue s
  | .quoted s => .text (String.ofList s)
  | _ => .null

mutual

/-- The value of a node with which nothing is wrong. -/
def value : Node → Value
  | .plain s => plainValue s
  | .quoted s => .text (String.ofList s)
  | .list items => .list (valueAll items)
  | .map ps => .map (entriesFrom [] ps)
  | .unmerged => .null

/-- The values of several nodes. -/
def valueAll : List Node → List Value
  | [] => []
  | n :: ns => value n :: valueAll ns

/-- The entries that pairs make of those before them. -/
def entriesFrom (es : List (Value × Value)) : List (Node × Node) → List (Value × Value)
  | [] => es
  | (k, v) :: ps => entriesFrom (Value.putEntry (keyValue k) (value v) es) ps

end

/-- The value of a node. -/
def toValue (n : Node) : Except Fault Value :=
  match n.firstFault? with
  | some f => .error f
  | none => .ok n.value

end Node

end TypedSexp.Yaml
