import TypedSexp.Number.Binary64

/-!
# Decimal numbers

A decimal is a coefficient and a power of ten. It is read from digits with an
optional fraction and exponent, rounded to the nearest binary64 number, found as
the decimal with the fewest digits that rounds to a given number, and written
out either with all its places or, at the extremes, with an exponent.
-/

namespace TypedSexp

/-- The number `coefficient · 10 ^ exponent`. -/
structure Decimal where
  coefficient : Nat
  exponent : Int
  deriving DecidableEq, Repr

namespace Decimal

/-- A digit of the decimal alphabet. -/
def isDigit (c : Char) : Bool := '0' ≤ c && c ≤ '9'

/-- The value of a run of digits. -/
def digitsValue (cs : List Char) : Nat :=
  cs.foldl (fun n c => 10 * n + (c.toNat - '0'.toNat)) 0

/-- The digits of a number. -/
def digits (n : Nat) : List Char := Nat.toDigits 10 n

/-- The decimal that digits before and after the point make. -/
def ofDigits (whole fraction : List Char) : Decimal :=
  ⟨digitsValue (whole ++ fraction), -(fraction.length : Int)⟩

/-! ## Reading -/

/-- An integer with an optional sign. -/
def readInt? : List Char → Option Int
  | '-' :: cs => if !cs.isEmpty && cs.all isDigit then some (-(digitsValue cs : Int)) else none
  | '+' :: cs => if !cs.isEmpty && cs.all isDigit then some (digitsValue cs) else none
  | cs => if !cs.isEmpty && cs.all isDigit then some (digitsValue cs) else none

/-- What may follow the digits of a decimal: nothing, or an exponent. -/
def readExponent? : List Char → Option Int
  | [] => some 0
  | c :: cs => if c = 'e' ∨ c = 'E' then readInt? cs else none

/-- Digits, a fraction and an exponent, each of them optional as long as there is
a digit. -/
def read? (cs : List Char) : Option Decimal :=
  let whole := cs.takeWhile isDigit
  match cs.dropWhile isDigit with
  | '.' :: rest =>
    let fraction := rest.takeWhile isDigit
    if whole.isEmpty && fraction.isEmpty then none
    else (readExponent? (rest.dropWhile isDigit)).map fun e =>
      let d := ofDigits whole fraction
      ⟨d.coefficient, d.exponent + e⟩
  | rest =>
    if whole.isEmpty then none
    else (readExponent? rest).map fun e => ⟨digitsValue whole, e⟩

/-! ## Rounding to binary64 -/

/-- The power of ten that the coefficient's first digit stands for, plus one. -/
def magnitude (d : Decimal) : Int := (digits d.coefficient).length + d.exponent

/-- The value as numerator and denominator. -/
def ratio (d : Decimal) : Nat × Nat :=
  if d.exponent < 0 then (d.coefficient, Nat.pow 10 d.exponent.natAbs)
  else (d.coefficient * Nat.pow 10 d.exponent.natAbs, 1)

/-- The nearest binary64 number. A value of 10³⁰⁹ or more rounds to infinity and
one below 10⁻³²⁴ to zero, whatever its digits, so neither is expanded. -/
def toBinary64 (negative : Bool) (d : Decimal) : Binary64 :=
  if d.coefficient = 0 ∨ d.magnitude ≤ -324 then .zero negative
  else if 309 < d.magnitude then .infinite negative
  else .ofRatio negative d.ratio.1 d.ratio.2

/-! ## The fewest digits -/

/-- The same value without zeros at the coefficient's end. -/
def trim (d : Decimal) : Decimal :=
  if h : d.coefficient ≠ 0 ∧ d.coefficient % 10 = 0 then
    trim ⟨d.coefficient / 10, d.exponent + 1⟩
  else d
termination_by d.coefficient
decreasing_by omega

/-- The magnitude of a positive code: 10 to the power one below it is the largest
power of ten not above the value. -/
def codeMagnitude (code : Nat) : Int :=
  let scaled := Binary64.units code * Nat.pow 10 324 / Binary64.unitsPerOne
  (digits scaled).length - 324

/-- The value of a code in steps of a power of ten, as numerator and denominator. -/
def steps (code : Nat) (power : Int) : Nat × Nat :=
  if power < 0 then (Binary64.units code * Nat.pow 10 power.natAbs, Binary64.unitsPerOne)
  else (Binary64.units code, Binary64.unitsPerOne * Nat.pow 10 power.natAbs)

/-- Of the two decimals of a power of ten next to `a / b` steps, one that passes a test.
If both do, the nearer one is taken, and of two equally near ones the even one. -/
def choose? (hits : Decimal → Bool) (power : Int) (a b : Nat) : Option Decimal :=
  let below : Decimal := ⟨a / b, power⟩
  let above : Decimal := ⟨a / b + 1, power⟩
  if hits below && hits above then
    some (if Binary64.roundDiv a b = a / b then below else above)
  else if hits below then some below
  else if hits above then some above
  else none

/-- The decimal of `places` digits that rounds to a positive code. Only the two
neighbours of the value among those decimals can. -/
def neighbour? (code : Fin Binary64.codes) (places : Nat) : Option Decimal :=
  let power := codeMagnitude code - places
  let value := steps code power
  choose? (fun d => d.toBinary64 false == .finite false code) power value.1 value.2

/-- The exact value of a code. -/
def ofCode (code : Nat) : Decimal := ⟨Binary64.units code * Nat.pow 5 1074, -1074⟩

/-- The decimal with the fewest digits that rounds to a code, and among those the
nearest to it. Seventeen digits are always enough, so the exact value at the end
is never reached. -/
def shortest (code : Fin Binary64.codes) : Decimal :=
  if code.val = 0 then ⟨0, 0⟩
  else
    (((List.range 17).findSome? fun n => neighbour? code (n + 1)).getD (ofCode code)).trim

/-! ## Writing -/

/-- Digits with zeros before them up to a width. -/
def padded (width n : Nat) : List Char :=
  List.replicate (width - (digits n).length) '0' ++ digits n

/-- All places, with at least one after the point. -/
def plain (d : Decimal) : List Char :=
  if 0 ≤ d.exponent then
    digits (d.coefficient * Nat.pow 10 d.exponent.natAbs) ++ ['.', '0']
  else
    let places := d.exponent.natAbs
    let unit := Nat.pow 10 places
    digits (d.coefficient / unit) ++ '.' :: padded places (d.coefficient % unit)

/-- One digit before the point and an exponent of at least two digits with its
sign. -/
def scientific (d : Decimal) : List Char :=
  let e := d.magnitude - 1
  let sign := if e < 0 then '-' else '+'
  let power := 'e' :: sign :: padded 2 e.natAbs
  match digits d.coefficient with
  | [] => power
  | [c] => c :: power
  | c :: more => c :: '.' :: (more ++ power)

/-- The exponents of the first digit for which a number is written with all its
places. -/
def plainRange : Int × Int := (-4, 15)

/-- All places where they are few, an exponent otherwise. -/
def text (d : Decimal) : List Char :=
  let e := d.magnitude - 1
  if d.coefficient = 0 ∨ (plainRange.1 ≤ e ∧ e ≤ plainRange.2) then d.plain
  else d.scientific

end Decimal

end TypedSexp
