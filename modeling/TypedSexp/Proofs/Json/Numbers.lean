import Mathlib.Tactic.IntervalCases
import TypedSexp.Json.Reader
import TypedSexp.Proofs.Number.Rounding

/-!
# JSON numbers read back

An integer is written as its digits, without a zero before others, and a float with a
fraction or an exponent. A number ends where no digit, point or exponent goes on with it
(`Json.EndsNumber`), and the text of a number before such an end reads back as that number
(`Json.readNumber_digits`, `Json.readNumber_text`).

The text of a float is that of the shortest decimal that rounds to it. With all its places
it may stand for another decimal, but one of the same value; with an exponent it reads back
as the very decimal it came from.

Integers are written and read with all their digits. The limit that a machine may set on such
conversions, commonly 4300 digits, is left out.
-/

namespace TypedSexp

namespace Json

/-- What may follow a number: no digit, no point and no exponent. -/
def EndsNumber (rest : List Char) : Prop :=
  ∀ c ∈ rest.head?, Decimal.isDigit c = false ∧ c ≠ '.' ∧ c ≠ 'e' ∧ c ≠ 'E'

/-- The digits of a number are read as they are, up to something that is no digit. They do not start
with a zero, unless the zero is all there is. -/
theorem readDigits_digits (n : Nat) {rest : List Char}
    (stop : ∀ c ∈ rest.head?, Decimal.isDigit c = false) :
    readDigits (Decimal.digits n ++ rest) = some (Decimal.digits n, rest) := by
  have inside : ∀ c ∈ Decimal.digits n, Decimal.isDigit c = true :=
    fun c hc => Decimal.isDigit_of_mem_digits hc
  by_cases hn : n = 0
  · subst hn
    rfl
  · have hhead := Decimal.head_digits_ne_zero hn
    obtain ⟨c, cs, hcs⟩ := List.exists_cons_of_ne_nil (Decimal.digits_ne_nil n)
    have htake := takeWhile_run inside stop
    have hdrop := dropWhile_run inside stop
    rw [hcs] at hhead htake hdrop ⊢
    rw [List.cons_append] at htake hdrop ⊢
    rw [readDigits]
    · simp [htake, hdrop]
    · rintro _ ⟨⟩
      exact hhead '0' rfl rfl

/-- A single digit is read whether it is a zero or not. This is the whole part of a number with an
exponent. -/
theorem readDigits_singleton {c : Char} (h : Decimal.isDigit c = true) {rest : List Char}
    (stop : ∀ c ∈ rest.head?, Decimal.isDigit c = false) :
    readDigits (c :: rest) = some ([c], rest) := by
  by_cases hc : c = '0'
  · subst hc
    rfl
  · have inside : ∀ a ∈ [c], Decimal.isDigit a = true := by simpa using h
    have htake := takeWhile_run inside stop
    have hdrop := dropWhile_run inside stop
    rw [List.singleton_append] at htake hdrop
    rw [readDigits]
    · simp [htake, hdrop]
    · rintro _ ⟨⟩
      exact hc rfl

theorem readFraction_none {rest : List Char} (h : ∀ c ∈ rest.head?, c ≠ '.') :
    readFraction rest = ([], rest) := by
  unfold readFraction
  split
  next r => exact absurd rfl (h '.' rfl)
  next => rfl

/-- A point and digits are a fraction, which ends where no digit goes on with it. -/
theorem readFraction_digits {ds rest : List Char} (hne : ds ≠ [])
    (inside : ∀ c ∈ ds, Decimal.isDigit c = true)
    (stop : ∀ c ∈ rest.head?, Decimal.isDigit c = false) :
    readFraction ('.' :: (ds ++ rest)) = (ds, rest) := by
  simp [readFraction, takeWhile_run inside stop, dropWhile_run inside stop, hne]

theorem readPower_none {rest : List Char} (h : ∀ c ∈ rest.head?, c ≠ 'e' ∧ c ≠ 'E') :
    readPower rest = (none, rest) := by
  cases rest with
  | nil => rfl
  | cons c rest => simp [readPower, h c rfl]

/-- An exponent is read back from its sign and its digits, also with a zero before a single
digit. -/
theorem readPower_padded (e : Int) {rest : List Char}
    (stop : ∀ c ∈ rest.head?, Decimal.isDigit c = false) :
    readPower ('e' :: (if e < 0 then '-' else '+') :: (Decimal.padded 2 e.natAbs ++ rest)) =
      (some e, rest) := by
  have inside : ∀ c ∈ Decimal.padded 2 e.natAbs, Decimal.isDigit c = true :=
    fun c hc => Decimal.isDigit_of_mem_padded hc
  have hne : Decimal.padded 2 e.natAbs ≠ [] := by
    simp [Decimal.padded, Decimal.digits_ne_nil]
  by_cases he : e < 0
  · simp [readPower, he, takeWhile_run inside stop, dropWhile_run inside stop, hne,
      abs_of_neg he]
  · simp [readPower, he, takeWhile_run inside stop, dropWhile_run inside stop, hne,
      abs_of_nonneg (not_lt.mp he)]

/-! ## Numbers -/

/-- The digits of an integer read back as the integer, with the sign that was read before them. What
follows must be neither a digit nor a point nor an exponent. -/
theorem readNumber_digits (negative : Bool) (n : Nat) {rest : List Char} (ends : EndsNumber rest) :
    readNumber negative (Decimal.digits n ++ rest) =
      some (.int (if negative then -n else n), rest) := by
  have hdigits := readDigits_digits n fun c hc => (ends c hc).1
  have hfraction := readFraction_none fun c hc => (ends c hc).2.1
  have hpower := readPower_none fun c hc => (ends c hc).2.2
  simp [readNumber, hdigits, hfraction, hpower]

/-- A decimal with all its places reads back as the float that it rounds to. The reader gets another
decimal of the same value if zeros had to be written, and that rounds the same. -/
theorem readNumber_plain (negative : Bool) (d : Decimal) {rest : List Char}
    (ends : EndsNumber rest) : readNumber negative (d.plain ++ rest) =
      some (.float (d.toBinary64 negative), rest) := by
  obtain ⟨whole, fraction, hplain, hne, inside, hvalue⟩ := Decimal.exists_plain_eq d
  have hdigits : readDigits (Decimal.digits whole ++ '.' :: (fraction ++ rest)) =
      some (Decimal.digits whole, '.' :: (fraction ++ rest)) :=
    readDigits_digits whole (by rintro c ⟨⟩; rfl)
  have hfraction := readFraction_digits hne inside fun c hc => (ends c hc).1
  have hpower := readPower_none fun c hc => (ends c hc).2.2
  rw [hplain, List.append_assoc, List.cons_append, readNumber, hdigits]
  simp [hfraction, hpower, hne, ← hvalue negative]

/-- A digit, perhaps with a fraction, and an exponent read as the float that this decimal rounds
to. -/
theorem readNumber_power (negative : Bool) {c : Char} {more tail rest : List Char} {e : Int}
    (hdigit : Decimal.isDigit c = true) (inside : ∀ a ∈ more, Decimal.isDigit a = true)
    (hpower : readPower ('e' :: tail) = (some e, rest)) :
    readNumber negative (c :: ((if more = [] then [] else '.' :: more) ++ 'e' :: tail)) =
      some (.float (Decimal.toBinary64 negative
        ⟨Decimal.digitsValue (c :: more), -(more.length : Int) + e⟩), rest) := by
  by_cases hmore : more = []
  · subst hmore
    have hwhole : readDigits (c :: 'e' :: tail) = some ([c], 'e' :: tail) :=
      readDigits_singleton hdigit (by rintro a ⟨⟩; rfl)
    have hfraction : readFraction ('e' :: tail) = ([], 'e' :: tail) :=
      readFraction_none (by rintro a ⟨⟩; decide)
    simp [readNumber, hwhole, hfraction, hpower, Decimal.ofDigits]
  · have hwhole : readDigits (c :: '.' :: (more ++ 'e' :: tail)) =
        some ([c], '.' :: (more ++ 'e' :: tail)) :=
      readDigits_singleton hdigit (by rintro a ⟨⟩; rfl)
    have hfraction : readFraction ('.' :: (more ++ 'e' :: tail)) = (more, 'e' :: tail) :=
      readFraction_digits hmore inside (by rintro a ⟨⟩; rfl)
    simp [readNumber, hmore, hwhole, hfraction, hpower, Decimal.ofDigits]

/-- A decimal in the notation with an exponent reads back as the float that it rounds to. The
exponent moves the point to where it was. -/
theorem readNumber_scientific (negative : Bool) (d : Decimal) {rest : List Char}
    (ends : EndsNumber rest) : readNumber negative (d.scientific ++ rest) =
      some (.float (d.toBinary64 negative), rest) := by
  have hpower := readPower_padded (d.magnitude - 1) fun c hc => (ends c hc).1
  obtain ⟨c, more, hmore⟩ := List.exists_cons_of_ne_nil (Decimal.digits_ne_nil d.coefficient)
  have hdigits : ∀ a ∈ c :: more, Decimal.isDigit a = true := by
    rw [← hmore]
    exact fun a ha => Decimal.isDigit_of_mem_digits ha
  obtain ⟨hdigit, inside⟩ := List.forall_mem_cons.mp hdigits
  have hscientific : d.scientific ++ rest = c :: ((if more = [] then [] else '.' :: more) ++
      'e' :: (if d.magnitude - 1 < 0 then '-' else '+') ::
        (Decimal.padded 2 (d.magnitude - 1).natAbs ++ rest)) := by
    simp [Decimal.scientific_eq hmore]
  have hvalue : Decimal.digitsValue (c :: more) = d.coefficient := by
    rw [← hmore, Decimal.digitsValue_digits]
  rw [hscientific, readNumber_power negative hdigit inside hpower, hvalue,
    Decimal.exponent_scientific hmore]

/-- A decimal reads back as the float that it rounds to, in whichever of the two notations its size
gives it. -/
theorem readNumber_text (negative : Bool) (d : Decimal) {rest : List Char}
    (ends : EndsNumber rest) : readNumber negative (d.text ++ rest) =
      some (.float (d.toBinary64 negative), rest) := by
  simp only [Decimal.text]
  split
  · exact readNumber_plain negative d ends
  · exact readNumber_scientific negative d ends

/-! ## Pieces -/

/-- A digit starts a number and no word. -/
theorem readPiece_digit {c : Char} (h : Decimal.isDigit c = true) (cs : List Char) :
    readPiece (c :: cs) =
      (readNumber false (c :: cs)).map fun (n, r) => (.value (.number n), r) := by
  obtain ⟨d, hd, rfl⟩ := Decimal.exists_digitChar h
  interval_cases d <;> rfl

/-- A minus before a digit starts a number. The word for negative infinity starts with a minus too,
but no digit follows there. -/
theorem readPiece_minus {c : Char} (h : Decimal.isDigit c = true) (cs : List Char) :
    readPiece ('-' :: c :: cs) =
      (readNumber true (c :: cs)).map fun (n, r) => (.value (.number n), r) := by
  obtain ⟨d, hd, rfl⟩ := Decimal.exists_digitChar h
  interval_cases d <;> rfl

/-- A number that is read starts with a digit, after its sign. So no other piece is taken for
one. -/
theorem exists_digit_of_readNumber {negative : Bool} {cs : List Char} {r : Number × List Char}
    (h : readNumber negative cs = some r) :
    ∃ c more, cs = c :: more ∧ Decimal.isDigit c = true := by
  cases cs with
  | nil => cases h
  | cons c more =>
    refine ⟨c, more, rfl, ?_⟩
    by_contra hc
    have hzero : c ≠ '0' := by
      rintro rfl
      exact hc rfl
    have hnone : readDigits (c :: more) = none := by
      rw [readDigits]
      · simp [hc]
      · rintro _ ⟨⟩
        exact hzero rfl
    rw [readNumber, hnone] at h
    cases h

/-- A number is a piece, after its sign. -/
theorem readPiece_signed {negative : Bool} {cs rest : List Char} {x : Number}
    (h : readNumber negative cs = some (x, rest)) :
    readPiece (if negative then '-' :: cs else cs) = some (.value (.number x), rest) := by
  obtain ⟨c, more, rfl, hc⟩ := exists_digit_of_readNumber h
  cases negative with
  | true => simp [readPiece_minus hc, h]
  | false => simp [readPiece_digit hc, h]

/-- An integer is written as its digits, with a minus before them if it is below zero. -/
theorem toList_toString_int (n : Int) : (toString n).toList =
    if decide (n < 0) then '-' :: Decimal.digits n.natAbs else Decimal.digits n.natAbs := by
  cases n with
  | ofNat m =>
    change (toString m).toList = Nat.toDigits 10 m
    rw [Nat.toString_eq_ofList_toDigits, String.toList_ofList]
  | negSucc m =>
    rw [decide_eq_true (Int.negSucc_lt_zero m), if_pos rfl]
    change ("-" ++ Nat.repr (m + 1)).toList = '-' :: Nat.toDigits 10 (m + 1)
    simp [Nat.repr_eq_ofList_toDigits]

/-- The text of a number is one piece, for integers and floats and also for the three words that
stand for no number or for infinity. -/
theorem readPiece_jsonText (x : Number) {rest : List Char} (ends : EndsNumber rest) :
    readPiece (x.jsonText.toList ++ rest) = some (.value (.number x), rest) := by
  cases x with
  | int n =>
    have hread := readPiece_signed (readNumber_digits (decide (n < 0)) n.natAbs ends)
    have hvalue : (if decide (n < 0) then -(n.natAbs : Int) else n.natAbs) = n := by
      split
      next hn =>
        have := of_decide_eq_true hn
        omega
      next hn =>
        have := of_decide_eq_false (Bool.eq_false_of_not_eq_true hn)
        omega
    rw [hvalue] at hread
    change readPiece ((toString n).toList ++ rest) = _
    rw [toList_toString_int]
    by_cases hn : n < 0 <;> simpa [hn] using hread
  | float x =>
    cases x with
    | finite negative code =>
      have hread := readPiece_signed (readNumber_text negative (Decimal.shortest code) ends)
      rw [Decimal.toBinary64_shortest] at hread
      change readPiece ((String.ofList _).toList ++ rest) = _
      rw [String.toList_ofList]
      cases negative <;> exact hread
    | infinite negative => cases negative <;> rfl
    | nan => rfl

end Json

end TypedSexp
