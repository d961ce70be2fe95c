/-!
# Binary64 numbers

A finite number is its sign and the *code* of its magnitude. Magnitudes in
ascending order have the codes 0, 1, 2, …, so a code is the rank of its
magnitude, neighbours have neighbouring codes, and two numbers are equal exactly
if their codes and signs are. All arithmetic here is exact: a magnitude counts
units of 2⁻¹⁰⁷⁴, the least positive one.
-/

namespace TypedSexp

/-- The number of finite magnitudes. -/
abbrev Binary64.codes : Nat := 2047 * Nat.pow 2 52

/-- A number of the binary64 format. -/
inductive Binary64 where
  | finite (negative : Bool) (code : Fin Binary64.codes)
  | infinite (negative : Bool)
  | nan
  deriving DecidableEq, Repr

namespace Binary64

/-- Zero with a sign. -/
def zero (negative : Bool) : Binary64 := .finite negative ⟨0, by decide⟩

/-- The number with the other sign. -/
def neg : Binary64 → Binary64
  | .finite n c => .finite (!n) c
  | .infinite n => .infinite (!n)
  | .nan => .nan

/-- How many units of 2⁻¹⁰⁷⁴ make one. -/
def unitsPerOne : Nat := Nat.pow 2 1074

/-- The magnitude of a code in units. The first 2⁵³ codes count single units;
from there on every 2⁵² codes the step doubles. -/
def units (code : Nat) : Nat :=
  let band := Nat.pow 2 52
  if code < band then code
  else (band + code % band) * Nat.pow 2 (code / band - 1)

/-- A quotient rounded to the nearest integer, a half to the even one. -/
def roundDiv (a b : Nat) : Nat :=
  let q := a / b
  let r := a % b
  if 2 * r < b then q else if b < 2 * r then q + 1 else q + q % 2

/-- The code nearest to the ratio `num / den`, a tie going to the even code. It
is beyond the finite codes for a ratio that rounds to infinity. -/
def nearestCode (num den : Nat) : Nat :=
  let scaled := num * unitsPerOne
  let step := (scaled / den).log2 - 52
  step * Nat.pow 2 52 + roundDiv scaled (den * Nat.pow 2 step)

/-- The number nearest to a ratio. -/
def ofRatio (negative : Bool) (num den : Nat) : Binary64 :=
  let c := nearestCode num den
  if h : c < codes then .finite negative ⟨c, h⟩ else .infinite negative

/-- The exact value of a finite number in units. -/
def signedUnits (negative : Bool) (code : Nat) : Int :=
  if negative then -(units code : Int) else units code

/-- The sum. A sum that is zero is negative only if both numbers are. -/
def add : Binary64 → Binary64 → Binary64
  | .finite m c, .finite n d =>
    let sum := signedUnits m c + signedUnits n d
    if sum = 0 then zero (m && n) else ofRatio (sum < 0) sum.natAbs unitsPerOne
  | .infinite m, .infinite n => if m = n then .infinite m else .nan
  | .infinite m, .finite _ _ => .infinite m
  | .finite _ _, .infinite n => .infinite n
  | .nan, _ => .nan
  | _, .nan => .nan

/-- The product. -/
def mul : Binary64 → Binary64 → Binary64
  | .finite m c, .finite n d => ofRatio (m != n) (units c * units d) (unitsPerOne * unitsPerOne)
  | .infinite m, .infinite n => .infinite (m != n)
  | .infinite m, .finite n d => if d.val = 0 then .nan else .infinite (m != n)
  | .finite m c, .infinite n => if c.val = 0 then .nan else .infinite (m != n)
  | .nan, _ => .nan
  | _, .nan => .nan

/-- The number nearest to a natural number. -/
def ofNat (n : Nat) : Binary64 := ofRatio false n 1

/-- The exact value as numerator and positive denominator, for a finite number. -/
def ratio? : Binary64 → Option (Int × Nat)
  | .finite negative c =>
    some (signedUnits negative c, unitsPerOne)
  | _ => none

end Binary64

end TypedSexp
