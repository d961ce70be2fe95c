import TypedSexp.Number.Basic
import TypedSexp.Text.Hex

/-!
# Numbers in literals

Integers in base ten, sixteen, eight or two, and decimals with a point or an
exponent. Single underscores may stand between digits. A letter after a decimal makes
it imaginary.
-/

namespace TypedSexp.Literal

/-- A number as it is written. -/
inductive Numeral where
  | real (n : Number)
  | imaginary (x : Binary64)
  deriving DecidableEq, Repr

/-- A run of digits, each of which may have one underscore before it, and what
follows it. -/
def digitRun (isDigit : Char → Bool) : List Char → List Char × List Char
  | '_' :: c :: rest =>
    if isDigit c then
      let (ds, r) := digitRun isDigit rest
      (c :: ds, r)
    else ([], '_' :: c :: rest)
  | c :: rest =>
    if isDigit c then
      let (ds, r) := digitRun isDigit rest
      (c :: ds, r)
    else ([], c :: rest)
  | [] => ([], [])

/-- A run of decimal digits that starts with a digit. -/
def decimalRun (cs : List Char) : List Char × List Char :=
  match cs with
  | '_' :: _ => ([], cs)
  | cs => digitRun Decimal.isDigit cs

/-- The base that the letter after a zero stands for. -/
def base? : Char → Option Nat
  | 'x' | 'X' => some 16
  | 'o' | 'O' => some 8
  | 'b' | 'B' => some 2
  | _ => none

/-- The value of digits in a base. -/
def baseValue (base : Nat) (ds : List Char) : Nat :=
  ds.foldl (fun n c => base * n + (Text.hexDigit? c).getD 0) 0

/-- An integer in another base than ten, from after its first two characters. -/
def readBase (base : Nat) (cs : List Char) : Option (Numeral × List Char) :=
  let (ds, rest) := digitRun (fun c => (Text.hexDigit? c).any (· < base)) cs
  if ds.isEmpty then none else some (.real (.int (baseValue base ds)), rest)

/-- An exponent, if one stands here. -/
def readPower (cs : List Char) : Option Int × List Char :=
  match cs with
  | c :: rest =>
    if c = 'e' ∨ c = 'E' then
      let (negative, body) := match rest with
        | '-' :: r => (true, r)
        | '+' :: r => (false, r)
        | r => (false, r)
      let (ds, after) := decimalRun body
      if ds.isEmpty then (none, cs)
      else
        let n : Int := Decimal.digitsValue ds
        (some (if negative then -n else n), after)
    else (none, cs)
  | [] => (none, [])

/-- The binary number nearest to digits with a fraction and an exponent. -/
def floatOf (whole fraction : List Char) (power : Int) : Binary64 :=
  let d := Decimal.ofDigits whole fraction
  Decimal.toBinary64 false ⟨d.coefficient, d.exponent + power⟩

/-- Whether digits start with a zero and are not zero. -/
def hasLeadingZero (ds : List Char) : Bool := ds.head? == some '0' && !ds.all (· == '0')

/-- The number that digits, a fraction after a point and an exponent make, before what
follows. Digits alone are an integer. If they start with a zero without being zero,
they can only stand before a word that starts like an exponent, and make a binary
number. -/
def decimalNumber (whole : List Char) (fraction : Option (List Char)) (power : Option Int)
    (rest : List Char) : Option Number :=
  if fraction.isNone && power.isNone && !hasLeadingZero whole then
    some (.int (Decimal.digitsValue whole))
  else if fraction.isSome || power.isSome || "else".toList.isPrefixOf rest then
    some (.float (floatOf whole (fraction.getD []) (power.getD 0)))
  else none

/-- A decimal number and what follows it. -/
def readDecimal (cs : List Char) : Option (Numeral × List Char) :=
  let (whole, rest) := decimalRun cs
  let (fraction, rest) : Option (List Char) × List Char := match rest with
    | '.' :: r =>
      let (ds, r) := decimalRun r
      (some ds, r)
    | r => (none, r)
  if whole.isEmpty && (fraction.getD []).isEmpty then none
  else
    let (power, rest) := readPower rest
    let imaginary := Numeral.imaginary (floatOf whole (fraction.getD []) (power.getD 0))
    match rest with
    | 'j' :: rest => some (imaginary, rest)
    | 'J' :: rest => some (imaginary, rest)
    | rest => (decimalNumber whole fraction power rest).map fun n => (.real n, rest)

/-- A character that a word may hold. -/
def isWordChar (c : Char) : Bool := c.isAlphanum || c == '_' || 0x80 ≤ c.toNat

/-- The words that may follow a number without a blank. -/
def wordsAfterNumber : List String := ["and", "else", "for", "if", "in", "is", "not", "or"]

/-- Whether a number may end here: where no word goes on, or a word starts that may
follow it. -/
def endsNumber (cs : List Char) : Bool :=
  !cs.head?.any isWordChar || wordsAfterNumber.any fun w => w.toList.isPrefixOf cs

/-- A number and what follows it. -/
def readNumber (cs : List Char) : Option (Numeral × List Char) :=
  let read := match cs with
    | '0' :: c :: rest =>
      match base? c with
      | some base => readBase base rest
      | none => readDecimal cs
    | cs => readDecimal cs
  read.bind fun (n, rest) => if endsNumber rest then some (n, rest) else none

end TypedSexp.Literal
