import Mathlib.Tactic.FieldSimp
import Mathlib.Tactic.Positivity
import TypedSexp.Proofs.Form.Printed

/-!
# Rendered numbers

A number is rendered with all its places, whatever its size, so that it can be lexed again. This
is exact: what is rendered for a decimal text is digits, a point and digits, and denotes the same
rational number (`Number.plainText_exact`).

The texts are all of those that decimal notation knows, `Decimal.Written`: digits, with or without
a fraction and an exponent. What such a text denotes is said by its digits alone
(`Decimal.Written.value`). On the way from one text to the other the value is a decimal, and is
kept at each step: by reading (`Decimal.Written.value_decimal`), by moving the point where the
exponent says (`Decimal.value_pointed`), and by writing the places out
(`Decimal.exists_plain_value`).

The text of every float without a sign is of that kind, and what is rendered for the float is what
is rendered for its text (`Decimal.exists_written_text`).

Left out are numbers with a sign, which no numeral has, and infinite ones and those that are no
numbers, which have no digits. No limit is set on the digits of an integer, though a machine that
converts it may set one, commonly 4300 digits.
-/

namespace TypedSexp

open Lexer (IsDigits Spells isWordChar scan)

/-- A word that stands alone is lexed as one token over its whole length. -/
theorem Lexer.Spells.ofSource_eq {l : Lexeme} {text : List Char} (h : Spells l text) :
    Lexed.ofSource (String.ofList text) = { tokens := [⟨l, ⟨0, text.length⟩⟩] } := by
  have hstop : l.isWord = true → ∀ c ∈ ([] : List Char).head?, isWordChar c = false := by simp
  have hscan := h.scan_eq hstop 0
  rw [List.append_nil] at hscan
  rw [Lexed.ofSource, String.toList_ofList, hscan, scan]
  simp [scan.emit]

namespace Decimal

/-! ## Values -/

/-- The rational number that a decimal is. -/
def value (d : Decimal) : ℚ := d.coefficient * 10 ^ d.exponent

/-- The rational number that digits before and after a point denote. -/
def pointValue (whole fraction : List Char) : ℚ :=
  Nat.ofDigitChars 10 whole 0 + Nat.ofDigitChars 10 fraction 0 / 10 ^ fraction.length

/-- The decimal that is made of digits before and after a point denotes the same number as they
do. -/
theorem value_ofDigits (whole fraction : List Char) :
    (ofDigits whole fraction).value = pointValue whole fraction := by
  have hpos : (10 : ℚ) ^ fraction.length ≠ 0 := by positivity
  rw [value, ofDigits, pointValue, digitsValue_append, digitsValue_eq, digitsValue_eq]
  push_cast
  rw [zpow_neg, zpow_natCast]
  field_simp

/-- How a decimal is split into a coefficient and a power of ten does not change its value. -/
theorem value_scale (c k : Nat) (e : Int) : value ⟨c * 10 ^ k, e - k⟩ = value ⟨c, e⟩ := by
  have hpos : (10 : ℚ) ^ k ≠ 0 := by positivity
  simp only [value]
  push_cast
  rw [zpow_sub₀ (by norm_num), zpow_natCast]
  field_simp

/-- A place added after the point does not change the value. -/
theorem value_pointed (d : Decimal) : d.pointed.value = d.value := by
  obtain ⟨k, hpointed⟩ := d.exists_pointed_scale
  rw [hpointed, value_scale]

/-- The place that was added is a zero, which is written anyway. -/
theorem plain_pointed (d : Decimal) : d.pointed.plain = d.plain := by
  obtain ⟨c, e⟩ := d
  by_cases he : 0 ≤ e
  · obtain ⟨n, rfl⟩ := Int.eq_ofNat_of_zero_le he
    have hten : c * 10 ^ (n + 1) = c * 10 ^ n * 10 := by ring
    have hneg : ¬ (0 : Int) ≤ -1 := by decide
    rw [pointed, if_pos he, plain, plain, if_neg hneg, if_pos he]
    show digits (c * 10 ^ (n + 1) / 10) ++ '.' :: padded 1 (c * 10 ^ (n + 1) % 10) =
      digits (c * 10 ^ n) ++ ['.', '0']
    rw [hten, Nat.mul_div_cancel _ (by decide), Nat.mul_mod_left]
    rfl
  · rw [pointed, if_neg he]

/-! ## Decimal notation -/

/-- The sign of an exponent, which may be missing. -/
inductive Sign where
  | none
  | plus
  | minus

namespace Sign

/-- How the sign is written. -/
def chars : Sign → List Char
  | .none => []
  | .plus => ['+']
  | .minus => ['-']

/-- The number with the sign. -/
def apply : Sign → Nat → Int
  | .minus, n => -n
  | _, n => n

end Sign

/-- An exponent as it is written. -/
structure Power where
  sign : Sign
  digits : List Char
  isDigits : IsDigits digits

/-- A decimal as it is written: digits, with or without a fraction and an exponent. -/
structure Written where
  whole : List Char
  fraction : Option (List Char)
  power : Option Power
  isDigits : IsDigits whole
  places : ∀ ds ∈ fraction, IsDigits ds

namespace Power

/-- How the exponent is written, with its mark. -/
def chars (p : Power) : List Char := 'e' :: (p.sign.chars ++ p.digits)

def exponent (p : Power) : Int := p.sign.apply (Nat.ofDigitChars 10 p.digits 0)

theorem readExponent?_chars (p : Power) : readExponent? p.chars = some p.exponent := by
  have hall : p.digits.all isDigit = true := List.all_eq_true.mpr p.isDigits.digits
  have hne : p.digits.isEmpty = false := by simpa using p.isDigits.ne_nil
  rw [chars, readExponent?, if_pos (.inl rfl), exponent, ← digitsValue_eq]
  cases p.sign with
  | plus => simp [Sign.chars, Sign.apply, readInt?, hall, hne]
  | minus => simp [Sign.chars, Sign.apply, readInt?, hall, hne]
  | none =>
    obtain ⟨c, cs, hcs, hc⟩ := p.isDigits.exists_cons
    rw [Sign.chars, List.nil_append, Sign.apply, hcs, readInt?]
    · rw [← hcs, hall, hne]
      rfl
    · rintro _ ⟨⟩
      cases hc
    · rintro _ ⟨⟩
      cases hc
    · intro hsign
      cases hsign

/-- The exponent with its sign and two digits at least. -/
def ofInt (e : Int) : Power where
  sign := if e < 0 then .minus else .plus
  digits := padded 2 e.natAbs
  isDigits := by
    refine ⟨?_, fun _ => isDigit_of_mem_padded⟩
    simp [padded, digits_ne_nil]

/-- The exponent that a notation has is written with its sign and at least two digits. -/
theorem chars_ofInt (e : Int) :
    (ofInt e).chars = 'e' :: (if e < 0 then '-' else '+') :: padded 2 e.natAbs := by
  unfold ofInt chars
  by_cases he : e < 0
  · simp [he, Sign.chars]
  · simp [he, Sign.chars]

theorem exponent_ofInt (e : Int) : (ofInt e).exponent = e := by
  unfold ofInt exponent
  dsimp only
  rw [← digitsValue_eq, digitsValue_padded]
  by_cases he : e < 0
  · rw [if_pos he, Sign.apply]
    omega
  · rw [if_neg he, Sign.apply]
    · omega
    · intro hsign
      cases hsign

end Power

/-- Digits, a fraction and what follows it are read as the decimal of the digits with the exponent
added. What follows is an exponent or nothing. -/
theorem read?_point {whole fraction tail : List Char} {e : Int} (hwhole : IsDigits whole)
    (hfraction : IsDigits fraction) (stop : ∀ c ∈ tail.head?, isDigit c = false)
    (hexponent : readExponent? tail = some e) :
    read? (whole ++ '.' :: (fraction ++ tail)) =
      some ⟨(ofDigits whole fraction).coefficient, (ofDigits whole fraction).exponent + e⟩ := by
  have htake : (fraction ++ tail).takeWhile isDigit = fraction :=
    takeWhile_run hfraction.digits stop
  have hdrop : (fraction ++ tail).dropWhile isDigit = tail := dropWhile_run hfraction.digits stop
  simp [read?, hwhole.takeWhile_fraction, hwhole.dropWhile_fraction, htake, hdrop, hexponent,
    hwhole.ne_nil]

/-- Digits without a fraction read as their value with the exponent that follows them, if what
follows is an exponent or nothing. -/
theorem read?_whole {whole tail : List Char} {e : Int} (hwhole : IsDigits whole)
    (stop : ∀ c ∈ tail.head?, isDigit c = false ∧ c ≠ '.')
    (hexponent : readExponent? tail = some e) :
    read? (whole ++ tail) = some ⟨digitsValue whole, e⟩ := by
  have hstop : ∀ c ∈ tail.head?, isDigit c = false := fun c hc => (stop c hc).1
  have htake : (whole ++ tail).takeWhile isDigit = whole := takeWhile_run hwhole.digits hstop
  have hdrop : (whole ++ tail).dropWhile isDigit = tail := dropWhile_run hwhole.digits hstop
  simp only [read?, htake, hdrop]
  split
  next rest => exact absurd rfl (stop '.' rfl).2
  next => simp [hexponent, hwhole.ne_nil]

namespace Written

variable (w : Written)

/-- What follows the digits and the fraction. -/
def tail : List Char := (w.power.map Power.chars).getD []

def exponent : Int := (w.power.map Power.exponent).getD 0

/-- The text. -/
def chars : List Char :=
  w.whole ++ ((w.fraction.map ('.' :: ·)).getD [] ++ w.tail)

/-- The rational number that the text denotes. -/
def value : ℚ := pointValue w.whole (w.fraction.getD []) * 10 ^ w.exponent

/-- What follows the digits of a decimal text goes on with neither a digit nor a point. -/
theorem head_tail : ∀ c ∈ w.tail.head?, isDigit c = false ∧ c ≠ '.' := by
  unfold tail
  cases w.power with
  | none => simp
  | some p =>
    rintro c ⟨⟩
    decide

/-- What follows the digits is read as the exponent, which is zero if there is none. -/
theorem readExponent?_tail : readExponent? w.tail = some w.exponent := by
  unfold tail exponent
  cases w.power with
  | none => rfl
  | some p => exact p.readExponent?_chars

/-- The decimal that a text is read as. -/
def decimal : Decimal :=
  ⟨(ofDigits w.whole (w.fraction.getD [])).coefficient,
    (ofDigits w.whole (w.fraction.getD [])).exponent + w.exponent⟩

/-- A decimal text is read as its decimal. Signs and words are not decimal texts here. -/
theorem read?_chars : read? w.chars = some w.decimal := by
  unfold chars decimal
  cases hfraction : w.fraction with
  | some ds =>
    exact read?_point w.isDigits (w.places ds hfraction) (fun c hc => (w.head_tail c hc).1)
      w.readExponent?_tail
  | none =>
    have hdecimal : ofDigits w.whole [] = ⟨digitsValue w.whole, 0⟩ := by simp [ofDigits]
    show read? (w.whole ++ w.tail) = some ⟨(ofDigits w.whole []).coefficient,
      (ofDigits w.whole []).exponent + w.exponent⟩
    rw [read?_whole w.isDigits w.head_tail w.readExponent?_tail, hdecimal, Int.zero_add]

/-- Reading a text keeps the value: the rational number that the text denotes is that of the
decimal, without any rounding. -/
theorem value_decimal : w.decimal.value = w.value := by
  have hpoint := value_ofDigits w.whole (w.fraction.getD [])
  rw [Decimal.value] at hpoint
  rw [Decimal.value, value, decimal, ← hpoint, zpow_add₀ (by norm_num), mul_assoc]

/-- A text starts with a digit, so it is no sign and no word that decides which float it is. -/
theorem read?_binary64 : Binary64.read? w.chars = some (w.decimal.toBinary64 false) := by
  have hread := w.read?_chars
  obtain ⟨c, rest, hwhole, hc⟩ := w.isDigits.exists_cons
  rw [chars, hwhole, List.cons_append] at hread ⊢
  rw [Lexer.read?_of_isDigit hc, hread, Option.map_some]

/-- What is rendered for the text. -/
def rendered : Option (List Char) := (read? w.chars).map plain

end Written

/-! ## Rendered texts -/

/-- A decimal is rendered as digits, a point and digits that denote its value, and reading them as a
float rounds this value once. -/
theorem exists_plain_value (d : Decimal) : ∃ whole fraction,
    d.plain = whole ++ '.' :: fraction ∧ IsDigits whole ∧ IsDigits fraction ∧
      pointValue whole fraction = d.value ∧
      Binary64.read? (whole ++ '.' :: fraction) = some (d.toBinary64 false) := by
  obtain ⟨whole, fraction, hplain, hne, hdigits, hpointed⟩ := exists_plain_pointed d
  have hwhole := Lexer.isDigits_digits whole
  have hfraction : IsDigits fraction := ⟨hne, hdigits⟩
  refine ⟨digits whole, fraction, hplain, hwhole, hfraction, ?_, ?_⟩
  · rw [← value_ofDigits, hpointed, value_pointed]
  · rw [Lexer.read?_fraction hwhole hfraction, hpointed, toBinary64_pointed]

/-- All places written out are decimal notation without an exponent. They make the decimal with one
place after the point where it had none. -/
theorem exists_written_plain (d : Decimal) :
    ∃ w : Written, d.plain = w.chars ∧ w.decimal = d.pointed := by
  obtain ⟨whole, fraction, hplain, hne, hdigits, hpointed⟩ := exists_plain_pointed d
  have hplaces : ∀ ds ∈ some fraction, IsDigits ds := by
    rintro ds ⟨⟩
    exact ⟨hne, hdigits⟩
  refine ⟨⟨digits whole, some fraction, none, Lexer.isDigits_digits whole, hplaces⟩, ?_, ?_⟩
  · rw [hplain]
    simp [Written.chars, Written.tail]
  · rw [← hpointed]
    simp [Written.decimal, Written.exponent]

/-- The text of a decimal with one digit before the point and an exponent is decimal notation, and
it reads as the very same decimal. -/
theorem exists_written_scientific (d : Decimal) :
    ∃ w : Written, d.scientific = w.chars ∧ w.decimal = d := by
  obtain ⟨c, more, hmore⟩ := List.exists_cons_of_ne_nil (digits_ne_nil d.coefficient)
  have hdigits := Lexer.isDigits_digits d.coefficient
  rw [hmore] at hdigits
  obtain ⟨hdigit, inside⟩ := List.forall_mem_cons.mp hdigits.digits
  have hwhole : IsDigits [c] := ⟨by simp, List.forall_mem_singleton.mpr hdigit⟩
  have hvalue : digitsValue (c :: more) = d.coefficient := by rw [← hmore, digitsValue_digits]
  have hplaces : ∀ ds ∈ (if more = [] then none else some more), IsDigits ds := by
    intro ds hds
    split at hds
    next => cases hds
    next hne =>
      cases hds
      exact ⟨hne, inside⟩
  have hgetD : (if more = [] then none else some more).getD [] = more := by
    split
    next hnil => exact hnil.symm
    next => rfl
  refine ⟨⟨[c], _, some (.ofInt (d.magnitude - 1)), hwhole, hplaces⟩, ?_, ?_⟩
  · rw [scientific_eq hmore, ← Power.chars_ofInt]
    cases more <;> simp [Written.chars, Written.tail]
  · simp only [Written.decimal, Written.exponent, hgetD, ofDigits]
    rw [List.singleton_append, hvalue]
    show Decimal.mk _ (_ + (Power.ofInt (d.magnitude - 1)).exponent) = d
    rw [Power.exponent_ofInt, exponent_scientific hmore]

/-- The text of a decimal is decimal notation, in whichever of the two notations it is written, and
rendering it is rendering the decimal. -/
theorem exists_written_text (d : Decimal) :
    ∃ w : Written, d.text = w.chars ∧ w.rendered = some d.plain := by
  simp only [text]
  split
  · obtain ⟨w, hchars, hdecimal⟩ := exists_written_plain d
    refine ⟨w, hchars, ?_⟩
    rw [Written.rendered, w.read?_chars, hdecimal, Option.map_some, plain_pointed]
  · obtain ⟨w, hchars, hdecimal⟩ := exists_written_scientific d
    refine ⟨w, hchars, ?_⟩
    rw [Written.rendered, w.read?_chars, hdecimal, Option.map_some]

end Decimal

namespace Number

open Decimal (Written pointValue)

/-- **Numbers are rendered exactly, and as one token.** What is rendered for a decimal text is
digits, a point and digits. They denote the rational number that the text denotes, and they are
lexed as one token over their whole length, which is the float that the text reads as. The text of
every float that is finite and has no sign is such a text, and the float is rendered as it is. And
what is rendered for a natural number is lexed as one token, which is that integer. -/
theorem plainText_exact :
    (∀ w : Written, ∃ whole fraction x, w.rendered = some (whole ++ '.' :: fraction) ∧
      IsDigits whole ∧ IsDigits fraction ∧ pointValue whole fraction = w.value ∧
      Binary64.read? w.chars = some x ∧
      Lexed.ofSource (String.ofList (whole ++ '.' :: fraction)) =
        { tokens := [⟨.number (.float x), ⟨0, (whole ++ '.' :: fraction).length⟩⟩] }) ∧
    (∀ code : Fin Binary64.codes, ∃ w : Written,
      (Number.float (.finite false code)).text = String.ofList w.chars ∧
      w.rendered = some (Number.float (.finite false code)).plainText.toList) ∧
    ∀ n : Nat, Lexed.ofSource (Number.int n).plainText =
      { tokens := [⟨.number (.int n), ⟨0, (Number.int n).plainText.toList.length⟩⟩] } := by
  refine ⟨fun w => ?_, fun code => ?_, fun n => ?_⟩
  · obtain ⟨whole, fraction, hplain, hwhole, hfraction, hvalue, hread⟩ :=
      Decimal.exists_plain_value w.decimal
    refine ⟨whole, fraction, w.decimal.toBinary64 false, ?_, hwhole, hfraction, ?_, ?_, ?_⟩
    · rw [Written.rendered, w.read?_chars, Option.map_some, hplain]
    · rw [hvalue, w.value_decimal]
    · exact w.read?_binary64
    · exact (Spells.float hwhole hfraction hread).ofSource_eq
  · obtain ⟨w, htext, hrendered⟩ := Decimal.exists_written_text (Decimal.shortest code)
    refine ⟨w, ?_, ?_⟩
    · exact congrArg String.ofList htext
    · rw [hrendered]
      exact congrArg some String.toList_ofList.symm
  · have htoken := (Unsigned.int n).spells.ofSource_eq
    rwa [String.ofList_toList] at htoken

/-- The point moves left past the first digit, stops between digits, or moves right past the last
one. -/
example : (["12e-3", "12e-1", "12e1", "1.2e1"].map fun text =>
      (Decimal.read? text.toList).map fun d => String.ofList d.plain) =
    [some "0.012", some "1.2", some "120.0", some "12.0"] := by decide +kernel

end Number

end TypedSexp
