import TypedSexp.Setting.Value
import TypedSexp.Text.Hex
import TypedSexp.Text.Split

/-!
# Values of plain scalars

A plain scalar that looks like nothing, a truth value, a number or a date is one; every
other is a text. Integers may be decimal, octal after a zero, hexadecimal,
binary, or in parts of sixty, which the last part of a number with a point may be
as well; underscores between their digits do not count.
-/

namespace TypedSexp.Yaml

/-- Why a text has no value as a document. -/
inductive Fault where
  /-- It is not one document, or a part of it has no value of its kind. -/
  | malformed
  /-- A number in a base has underscores for digits. -/
  | noDigits (base : Nat)
  /-- A date is not one of the calendar. -/
  | moment (f : MomentFault)
  deriving DecidableEq, Repr

/-- The wording of a fault. -/
def Fault.message : Fault → String
  | .malformed => "malformed document"
  | .noDigits base => s!"invalid literal for int() with base {base}: ''"
  | .moment f => f.message

/-- The words for nothing. -/
def nullWords : List String := ["", "~", "null", "Null", "NULL"]

/-- The words for the truth value true. -/
def trueWords : List String :=
  ["yes", "Yes", "YES", "true", "True", "TRUE", "on", "On", "ON"]

/-- The words for the truth value false. -/
def falseWords : List String :=
  ["no", "No", "NO", "false", "False", "FALSE", "off", "Off", "OFF"]

/-- A text without underscores. -/
def withoutUnderscores (cs : List Char) : List Char := cs.filter (· != '_')

/-- A sign, true for minus, and what follows it. -/
def readSign : List Char → Bool × List Char
  | '-' :: rest => (true, rest)
  | '+' :: rest => (false, rest)
  | cs => (false, cs)

/-- The value of digits in a base, underscores left out. -/
def digitsIn (base : Nat) (cs : List Char) : Nat :=
  (withoutUnderscores cs).foldl (fun n c => base * n + (Text.hexDigit? c).getD 0) 0

/-- Whether a text is one or more digits of a base and underscores. -/
def areDigits (base : Nat) (cs : List Char) : Bool :=
  !cs.isEmpty && cs.all fun c => c == '_' || (Text.hexDigit? c).any (· < base)

/-- Whether a text is a number below sixty in one or two digits. -/
def isSixtieth : List Char → Bool
  | [a] => Decimal.isDigit a
  | [a, b] => Decimal.isDigit a && a ≤ '5' && Decimal.isDigit b
  | _ => false

/-- Whether a text is decimal digits and underscores that start with no zero. -/
def isDecimalRun : List Char → Bool
  | c :: rest => Decimal.isDigit c && c != '0' && areDigits 10 (c :: rest)
  | [] => false

/-- A number without a sign that has no point. Parts with colons between them
count sixty each of the next. -/
def readNatural (cs : List Char) : Option Nat :=
  match cs with
  | '0' :: 'b' :: ds => if areDigits 2 ds then some (digitsIn 2 ds) else none
  | '0' :: 'x' :: ds => if areDigits 16 ds then some (digitsIn 16 ds) else none
  | ['0'] => some 0
  | '0' :: ds => if areDigits 8 ds then some (digitsIn 8 ds) else none
  | cs =>
    match Text.splitAt ':' cs with
    | first :: more =>
      if isDecimalRun first && more.all isSixtieth then
        some (more.foldl (fun n part => 60 * n + digitsIn 10 part) (digitsIn 10 first))
      else none
    | [] => none

/-- An integer. -/
def readInt (cs : List Char) : Option Int :=
  let (negative, body) := readSign cs
  (readNatural body).map fun n => if negative then -(n : Int) else n

/-- Whether a text is empty or an exponent with a sign. -/
def isPower : List Char → Bool
  | [] => true
  | e :: s :: ds =>
    (e == 'e' || e == 'E') && (s == '+' || s == '-') && !ds.isEmpty && ds.all Decimal.isDigit
  | _ => false

/-- A number with a point. Before the point stand digits, or nothing if there is
no sign and a digit after it. -/
def readDecimal (cs : List Char) : Option Binary64 :=
  let (negative, body) := readSign cs
  let isPart (c : Char) : Bool := Decimal.isDigit c || c == '_'
  let whole := body.takeWhile isPart
  match body.dropWhile isPart with
  | '.' :: rest =>
    let starts := match whole with
      | c :: _ => Decimal.isDigit c
      | [] => cs.head? == some '.' && rest.head?.any Decimal.isDigit
    if starts && isPower (rest.dropWhile isPart) then
      (Decimal.read? (withoutUnderscores body)).map (·.toBinary64 negative)
    else none
  | _ => none

/-- Whether a text is decimal digits and underscores that start with a digit. -/
def isDigitRun : List Char → Bool
  | c :: rest => Decimal.isDigit c && areDigits 10 (c :: rest)
  | [] => false

/-- A sum with parts of sixty, the last part first, added to it; the first of these
counts a base each. -/
def addSixtieths : Nat → Binary64 → List (List Char) → Option Binary64
  | _, sum, [] => some sum
  | base, sum, part :: parts =>
    (Decimal.read? (withoutUnderscores part)).bind fun d =>
      addSixtieths (60 * base) (sum.add ((d.toBinary64 false).mul (.ofNat base))) parts

/-- A number in parts of sixty whose last part has a point. -/
def readSixtieths (cs : List Char) : Option Binary64 :=
  let (negative, body) := readSign cs
  let whole := body.takeWhile (· != '.')
  match body.dropWhile (· != '.'), Text.splitAt ':' whole with
  | _ :: fraction, first :: more =>
    if isDigitRun first && !more.isEmpty && more.all isSixtieth &&
        fraction.all fun c => Decimal.isDigit c || c == '_' then
      (addSixtieths 1 (.zero false) (Text.splitAt ':' body).reverse).map fun x =>
        if negative then x.neg else x
    else none
  | _, _ => none

/-- The base of a number that has only underscores for digits. -/
def emptyBase? (cs : List Char) : Option Nat :=
  match (readSign cs).2 with
  | '0' :: 'b' :: ds => if !ds.isEmpty && ds.all (· == '_') then some 2 else none
  | '0' :: 'x' :: ds => if !ds.isEmpty && ds.all (· == '_') then some 16 else none
  | _ => none

/-- A number in words. -/
def readNumberWord (cs : List Char) : Option Binary64 :=
  let (negative, body) := readSign cs
  if [".inf", ".Inf", ".INF"].contains (String.ofList body) then some (.infinite negative)
  else if [".nan", ".NaN", ".NAN"].contains (String.ofList cs) then some .nan
  else none

/-- The key whose value brings further entries into a mapping. -/
def mergeWord : List Char := ['<', '<']

/-- The key that stands for the value of a mapping as a whole. -/
def wholeWord : List Char := ['=']

/-- What is wrong with a plain scalar. The words for keys of their own are no values. -/
def plainFault? (cs : List Char) : Option Fault :=
  if cs = mergeWord ∨ cs = wholeWord then some .malformed
  else
    match emptyBase? cs with
    | some base => some (.noDigits base)
    | none => ((Moment.read? cs).bind Moment.fault?).map .moment

/-- The value of a plain scalar with which nothing is wrong. -/
def plainValue (cs : List Char) : Value :=
  let s := String.ofList cs
  if nullWords.contains s then .null
  else if trueWords.contains s then .bool true
  else if falseWords.contains s then .bool false
  else
    match (readNumberWord cs <|> readDecimal cs <|> readSixtieths cs), readInt cs with
    | some x, _ => .number (.float x)
    | none, some n => .number (.int n)
    | none, none => ((Moment.read? cs).map .moment).getD (.text s)

end TypedSexp.Yaml
