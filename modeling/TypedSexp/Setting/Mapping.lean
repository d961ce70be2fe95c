import TypedSexp.Setting.Value

/-!
# Values taken as mappings

Where a mapping is asked for, other values may stand for one: what counts as false
is an empty mapping, and a list of pairs gives the entries.
-/

namespace TypedSexp

/-- Why a value is no mapping. -/
inductive MapFault where
  /-- It has no items, or one of its items has none, or a key is a list or a
  mapping. -/
  | kind
  /-- An item is no pair. -/
  | length (index found : Nat)
  deriving DecidableEq, Repr

/-- The wording of a fault. -/
def MapFault.message : MapFault → String
  | .kind => "not a mapping"
  | .length index found =>
    s!"dictionary update sequence element #{index} has length {found}; 2 is required"

namespace Value

/-- The items of a value: characters of a text, keys of a mapping, numbers of bytes. -/
def itemsOf? : Value → Option (List Value)
  | .text s => some (s.toList.map fun c => .text (String.singleton c))
  | .list items | .tuple items => some items
  | .map entries => some (entries.map (·.1))
  | .set items => some items
  | .bytes bs => some (bs.map fun b => .number (.int b.toNat))
  | _ => none

/-- The entries that pairs give, the first of which has the given index. -/
def entriesOf (acc : List (Value × Value)) :
    Nat → List Value → Except MapFault (List (Value × Value))
  | _, [] => .ok acc
  | index, item :: items =>
    match itemsOf? item with
    | none => .error .kind
    | some [k, v] =>
      if k.isKey then entriesOf (putEntry k v acc) (index + 1) items else .error .kind
    | some parts => .error (.length index parts.length)

/-- A value taken as a mapping. -/
def mapping : Option Value → Except MapFault (List (Value × Value))
  | none => .ok []
  | some (.map es) => .ok es
  | some v =>
    if v.isTrue then
      match itemsOf? v with
      | none => .error .kind
      | some items => entriesOf [] 0 items
    else .ok []

end Value

end TypedSexp
