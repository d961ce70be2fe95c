import TypedSexp.Number.Basic

/-!
# Complex numbers

A number with a real and an imaginary part, both of them binary64 numbers. It is
written with the fewest digits for each part, and without the real part if that is
zero and has no sign.
-/

namespace TypedSexp

/-- A complex number. -/
structure Complex where
  re : Binary64
  im : Binary64
  deriving DecidableEq, Repr

namespace Complex

/-- The sum with a real number. -/
def addReal (z : Complex) (x : Binary64) : Complex := ⟨x.add z.re, (Binary64.zero false).add z.im⟩

/-- The number with the other signs. -/
def neg (z : Complex) : Complex := ⟨z.re.neg, z.im.neg⟩

/-- Whether a number is zero. -/
def isZero (z : Complex) : Bool := (Number.float z.re).isZero && (Number.float z.im).isZero

/-- Whether two numbers have the same parts by value. -/
def sameValue (z w : Complex) : Bool :=
  (Number.float z.re).sameValue (.float w.re) && (Number.float z.im).sameValue (.float w.im)

/-- A part as it is written: a fraction that is zero is left out. -/
def part (x : Binary64) : List Char :=
  let cs := x.text.toList
  if ['.', '0'].isSuffixOf cs then cs.take (cs.length - 2) else cs

/-- A part that another one stands before. -/
def laterPart (x : Binary64) : List Char :=
  let cs := part x
  if cs.head? = some '-' then cs else '+' :: cs

/-- The number as values are shown. -/
def text (z : Complex) : String :=
  String.ofList <|
    if z.re = Binary64.zero false then part z.im ++ ['j']
    else '(' :: part z.re ++ laterPart z.im ++ ['j', ')']

end Complex

end TypedSexp
