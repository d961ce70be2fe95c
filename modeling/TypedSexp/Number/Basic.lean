import TypedSexp.Number.Decimal

/-!
# Numbers

An integer of any size or a binary64 number. The two are told apart wherever
they are kept or written, and compared by value where the program compares.

Integers are written and read with as many digits as they have. A machine that
refuses to convert an integer of very many digits, commonly more than 4300, sets a
limit of its own, which is not part of what numbers are here.
-/

namespace TypedSexp

/-- A number of a program or of a setting. -/
inductive Number where
  | int (value : Int)
  | float (value : Binary64)
  deriving DecidableEq, Repr

/-- The words for the numbers that no digits can write. -/
structure Binary64.Words where
  nan : String
  infinity : String

namespace Binary64

/-- A number written by a decimal layout, or in words. -/
def render (words : Words) (layout : Decimal → List Char) : Binary64 → String
  | .finite negative code =>
    let cs := layout (Decimal.shortest code)
    String.ofList (if negative then '-' :: cs else cs)
  | .infinite negative => if negative then "-" ++ words.infinity else words.infinity
  | .nan => words.nan

/-- The number as values are shown: the fewest digits that read back. -/
def text : Binary64 → String := render ⟨"nan", "inf"⟩ Decimal.text

/-- The number as JSON documents hold it. -/
def jsonText : Binary64 → String := render ⟨"NaN", "Infinity"⟩ Decimal.text

/-- The number as programs hold it: all places, never an exponent. -/
def plainText : Binary64 → String := render ⟨"NaN.0", "Infinity.0"⟩ Decimal.plain

/-- A number from its digits, or from the words that `text` uses. -/
def read? (cs : List Char) : Option Binary64 :=
  let (negative, body) := match cs with
    | '-' :: rest => (true, rest)
    | '+' :: rest => (false, rest)
    | _ => (false, cs)
  if body = "inf".toList then some (.infinite negative)
  else if body = "nan".toList then some .nan
  else (Decimal.read? body).map (·.toBinary64 negative)

end Binary64

namespace Number

/-- The number as values are shown. -/
def text : Number → String
  | .int n => toString n
  | .float x => x.text

/-- The number as JSON documents hold it. -/
def jsonText : Number → String
  | .int n => toString n
  | .float x => x.jsonText

/-- The number as programs hold it. A float keeps a fraction, so that it reads
back as a float. -/
def plainText : Number → String
  | .int n => toString n
  | .float x => x.plainText

/-- The exact value as numerator and positive denominator, if it is finite. -/
def ratio? : Number → Option (Int × Nat)
  | .int n => some (n, 1)
  | .float x => x.ratio?

/-- Whether two numbers have the same value. Integers and floats compare exactly,
and a not-a-number differs from every number. -/
def sameValue (x y : Number) : Bool :=
  match x.ratio?, y.ratio? with
  | some (a, b), some (c, d) => a * d == c * b
  | none, none => x == y && x != .float .nan
  | _, _ => false

/-- Whether a number has the value zero. -/
def isZero (x : Number) : Bool := x.sameValue (.int 0)

end Number

end TypedSexp
