import TypedSexp.Setting.Value

/-!
# Expressions

What a value may be written as. The literals among the expressions have values: the
words for nothing and the truth values, numbers with or without a sign, complex numbers
as sums, texts, bytes, the ellipsis, and lists, tuples, sets and mappings of these. An
expression is evaluated from left to right, and refused for the first of its parts that
is no literal, that is a key and cannot be one, or that is too large.
-/

namespace TypedSexp.Literal

/-- An expression, as far as literals can be told apart from others. -/
inductive Expression where
  /-- A constant that is no number. -/
  | constant (v : Value)
  | number (n : Number)
  | imaginary (x : Binary64)
  | name (s : String)
  | list (items : List Expression)
  | tuple (items : List Expression)
  | set (items : List Expression)
  | map (pairs : List (Expression × Expression))
  | signed (negative : Bool) (e : Expression)
  /-- A sum or a difference. -/
  | sum (negative : Bool) (left right : Expression)
  /-- A part of something, or a place in it. -/
  | place
  /-- What stands for several items. -/
  | starred (e : Expression)
  /-- Anything else. -/
  | other

namespace Expression

/-- Why an expression has no value. -/
inductive Fault where
  /-- It is no literal. -/
  | noLiteral
  /-- A list, a set or a mapping stands as a key or in a set. -/
  | badKey
  /-- An integer in a sum is beyond the binary numbers. -/
  | tooLarge
  deriving DecidableEq, Repr

/-- A number with a sign. -/
def withSign (negative : Bool) : Number → Number
  | .int n => .int (if negative then -n else n)
  | .float x => .float (if negative then x.neg else x)

/-- The binary number nearest to a number, if there is one. -/
def binary? : Number → Option Binary64
  | .float x => some x
  | .int n =>
    match Binary64.ofRatio (n < 0) n.natAbs 1 with
    | .finite negative code => some (.finite negative code)
    | _ => none

/-- The sum of a number and an imaginary one, or their difference. -/
def complexSum (negative : Bool) (n : Number) (x : Binary64) : Except Fault Value :=
  let z : Complex := ⟨.zero false, x⟩
  match binary? n with
  | some re => .ok (.complex ((if negative then z.neg else z).addReal re))
  | none => .error .tooLarge

mutual

/-- The value of a literal, or why it has none. Only an imaginary number can be added
to a number, and that only to one that is not imaginary. -/
def value : Expression → Except Fault Value
  | .constant v => .ok v
  | .number n => .ok (.number n)
  | .imaginary x => .ok (.complex ⟨.zero false, x⟩)
  | .list items => (valuesOf items).map .list
  | .tuple items => (valuesOf items).map .tuple
  | .set items => (itemsFrom [] items).map .set
  | .map pairs => (entriesFrom [] pairs).map .map
  | .signed negative (.number n) => .ok (.number (withSign negative n))
  | .signed negative (.imaginary x) =>
    .ok (.complex (if negative then Complex.neg ⟨.zero false, x⟩ else ⟨.zero false, x⟩))
  | .sum negative (.number n) (.imaginary x) => complexSum negative n x
  | .sum negative (.signed minus (.number n)) (.imaginary x) =>
    complexSum negative (withSign minus n) x
  | _ => .error .noLiteral

/-- The values of several literals. -/
def valuesOf : List Expression → Except Fault (List Value)
  | [] => .ok []
  | e :: es => do
    let v ← value e
    let vs ← valuesOf es
    return v :: vs

/-- The items that literals make of those before them. -/
def itemsFrom (items : List Value) : List Expression → Except Fault (List Value)
  | [] => .ok items
  | e :: es => do
    let v ← value e
    if v.isKey then itemsFrom (Value.putItem v items) es else .error .badKey

/-- The entries that pairs make of those before them. Whether a key can be one is seen
after its value. -/
def entriesFrom (entries : List (Value × Value)) :
    List (Expression × Expression) → Except Fault (List (Value × Value))
  | [] => .ok entries
  | (k, v) :: ps => do
    let k ← value k
    let v ← value v
    if k.isKey then entriesFrom (Value.putEntry k v entries) ps else .error .badKey

end

mutual

/-- Whether a loop can give values to an expression: to a name, a place, or several of
them. -/
def isTarget : Expression → Bool
  | .name _ => true
  | .place => true
  | .list items => areTargets items
  | .tuple items => areTargets items
  | _ => false

/-- Whether a loop can give values to several expressions. -/
def areTargets : List Expression → Bool
  | [] => true
  | .starred e :: es => isTarget e && areTargets es
  | e :: es => isTarget e && areTargets es

end

end Expression

end TypedSexp.Literal
