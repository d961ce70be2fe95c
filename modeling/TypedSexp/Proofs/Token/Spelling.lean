import Mathlib.Data.List.TakeWhile
import TypedSexp.Proofs.Number.Digits
import TypedSexp.Token.Lexer

/-!
# Spellings

How a lexeme is written. A delimiter is one character, a string is a text without
quotes between two quotes, an identifier is a name, and a number is digits with an
optional fraction. Only numbers have more than one spelling: the value of a spelling is
what it reads as, and zeros at either end do not change that.

The lexer takes a word as far as its characters go and then decides what it is.
`Lexer.word?_eq_some_iff` says that it decides by the spellings: a word is a lexeme
exactly if it spells it.

A number may be spelled with any number of digits. The limit that a machine may set on converting
them, commonly 4300 digits, is left out.
-/

namespace TypedSexp

/-- Whether a lexeme is written as a word: a name or a number. -/
def Lexeme.isWord : Lexeme → Bool
  | .ident _ | .number _ => true
  | _ => false

namespace Lexer

/-- A character of names: an ASCII letter or digit, or one of five signs. -/
def IsNameChar (c : Char) : Prop := c.isAlphanum = true ∨ c ∈ ['.', '*', '/', '+', '-']

/-- A text of such characters that starts with one other than a digit. -/
structure IsName (cs : List Char) : Prop where
  start : ∃ c ∈ cs.head?, c.isDigit = false
  chars : ∀ c ∈ cs, IsNameChar c

/-- One or more digits. -/
structure IsDigits (cs : List Char) : Prop where
  ne_nil : cs ≠ []
  digits : ∀ c ∈ cs, c.isDigit = true

/-- The texts that a lexeme is written as. -/
inductive Spells : Lexeme → List Char → Prop
  | opener (d : Delimiter) : Spells (.opener d) [d.opening]
  | closer (d : Delimiter) : Spells (.closer d) [d.closing]
  | string {body : List Char} (quoteless : '"' ∉ body) :
      Spells (.string (String.ofList body)) ('"' :: (body ++ ['"']))
  | ident {word : List Char} (name : IsName word) : Spells (.ident (String.ofList word)) word
  | integer {ds : List Char} (digits : IsDigits ds) :
      Spells (.number (.int (Nat.ofDigitChars 10 ds 0))) ds
  | float {whole fraction : List Char} {x : Binary64} (digits : IsDigits whole)
      (places : IsDigits fraction) (reads : Binary64.read? (whole ++ '.' :: fraction) = some x) :
      Spells (.number (.float x)) (whole ++ '.' :: fraction)

/-! ## Characters -/

/-- The lexer takes exactly the characters of names into a word. -/
theorem isWordChar_iff {c : Char} : isWordChar c = true ↔ IsNameChar c := by
  have hletters : c.isAlphanum = (decide ('A' ≤ c ∧ c ≤ 'Z') ||
      (decide ('a' ≤ c) && decide (c ≤ 'z')) || c.isDigit) := rfl
  simp only [isWordChar, IsNameChar, Decimal.isDigit_eq, hletters, Bool.or_eq_true,
    Bool.and_eq_true, decide_eq_true_eq, beq_iff_eq, List.mem_cons, List.not_mem_nil, or_false]
  tauto

theorem not_isNameChar_iff {c : Char} : ¬IsNameChar c ↔ isWordChar c = false := by
  rw [← isWordChar_iff, Bool.not_eq_true]

theorem isWordChar_of_isDigit {c : Char} (h : Decimal.isDigit c = true) : isWordChar c = true := by
  simp [isWordChar, h]

/-- What is known of all ASCII characters of names is known of all characters of names. Facts about
them are decided by going through these. -/
theorem forall_isWordChar {P : Char → Prop}
    (ascii : ∀ n < 128, isWordChar (Char.ofNat n) = true → P (Char.ofNat n)) {c : Char}
    (h : isWordChar c = true) : P c := by
  have hc : c.toNat < 128 := by
    have hchar := h
    simp only [isWordChar, Decimal.isDigit, Bool.or_eq_true, Bool.and_eq_true, decide_eq_true_eq,
      beq_iff_eq, Char.le_def, UInt32.le_iff_toNat_le] at hchar
    rcases hchar with ((((((hle | hle) | hle) | rfl) | rfl) | rfl) | rfl) | rfl
    · exact lt_of_le_of_lt hle.2 (by decide)
    · exact lt_of_le_of_lt hle.2 (by decide)
    · exact lt_of_le_of_lt hle.2 (by decide)
    all_goals decide
  rw [← Char.ofNat_toNat c] at h ⊢
  exact ascii c.toNat hc h

/-- A character of names starts nothing but a word. -/
theorem isWordChar_excludes {c : Char} (h : isWordChar c = true) :
    delimiter? c = none ∧ Text.isBlank c = false ∧ c ≠ ';' ∧ c ≠ '"' :=
  forall_isWordChar (P := fun c => delimiter? c = none ∧ Text.isBlank c = false ∧ c ≠ ';' ∧ c ≠ '"')
    (by decide +kernel) h

/-- A character is a delimiter lexeme exactly if it opens or closes one of the two kinds. There are
four such characters. -/
theorem delimiter?_eq_some_iff {c : Char} {l : Lexeme} : delimiter? c = some l ↔
    ∃ d : Delimiter, (c = d.opening ∧ l = .opener d) ∨ (c = d.closing ∧ l = .closer d) := by
  constructor
  · intro h
    unfold delimiter? at h
    split at h
    · cases h
      exact ⟨.paren, .inl ⟨rfl, rfl⟩⟩
    · cases h
      exact ⟨.paren, .inr ⟨rfl, rfl⟩⟩
    · cases h
      exact ⟨.bracket, .inl ⟨rfl, rfl⟩⟩
    · cases h
      exact ⟨.bracket, .inr ⟨rfl, rfl⟩⟩
    · cases h
  · rintro ⟨d, ⟨rfl, rfl⟩ | ⟨rfl, rfl⟩⟩
    · cases d <;> rfl
    · cases d <;> rfl

@[simp] theorem delimiter?_opening (d : Delimiter) : delimiter? d.opening = some (.opener d) := by
  cases d <;> rfl

@[simp] theorem delimiter?_closing (d : Delimiter) : delimiter? d.closing = some (.closer d) := by
  cases d <;> rfl

/-! ## Numbers -/

theorem ne_of_isDigit {c x : Char} (h : Decimal.isDigit c = true)
    (hx : Decimal.isDigit x = false) : c ≠ x := by
  rintro rfl
  rw [hx] at h
  cases h

/-- The digits of a number are digits, and at least one. -/
theorem isDigits_digits (n : Nat) : IsDigits (Decimal.digits n) :=
  ⟨Decimal.digits_ne_nil n, fun _ hc => Decimal.isDigit_of_mem_digits hc⟩

theorem IsDigits.exists_cons {ds : List Char} (h : IsDigits ds) :
    ∃ c rest, ds = c :: rest ∧ Decimal.isDigit c = true := by
  obtain ⟨c, rest, rfl⟩ := List.exists_cons_of_ne_nil h.ne_nil
  exact ⟨c, rest, rfl, h.digits c List.mem_cons_self⟩

theorem IsDigits.takeWhile_eq {ds : List Char} (h : IsDigits ds) :
    ds.takeWhile Decimal.isDigit = ds := List.takeWhile_eq_self_iff.mpr h.digits

theorem IsDigits.dropWhile_eq {ds : List Char} (h : IsDigits ds) :
    ds.dropWhile Decimal.isDigit = [] := List.dropWhile_eq_nil_iff.mpr h.digits

theorem IsDigits.takeWhile_fraction {ds : List Char} (h : IsDigits ds) (fraction : List Char) :
    (ds ++ '.' :: fraction).takeWhile Decimal.isDigit = ds :=
  takeWhile_run h.digits (by rintro c ⟨⟩; rfl)

theorem IsDigits.dropWhile_fraction {ds : List Char} (h : IsDigits ds) (fraction : List Char) :
    (ds ++ '.' :: fraction).dropWhile Decimal.isDigit = '.' :: fraction :=
  dropWhile_run h.digits (by rintro c ⟨⟩; rfl)

/-- A text that starts with a digit has no sign and is none of the words for numbers, so only its
digits, point and exponent are read. -/
theorem read?_of_isDigit {c : Char} (h : Decimal.isDigit c = true) (cs : List Char) :
    Binary64.read? (c :: cs) = (Decimal.read? (c :: cs)).map (·.toBinary64 false) := by
  have unsigned : Binary64.read? (c :: cs) =
      if c :: cs = "inf".toList then some (.infinite false)
      else if c :: cs = "nan".toList then some .nan
      else (Decimal.read? (c :: cs)).map (·.toBinary64 false) := by
    unfold Binary64.read?
    split
    next heq =>
      split at heq
      · exact absurd (List.cons.inj ‹_›).1 (ne_of_isDigit h rfl)
      · exact absurd (List.cons.inj ‹_›).1 (ne_of_isDigit h rfl)
      · cases heq
        rfl
  rw [unsigned, if_neg, if_neg]
  · exact fun heq => ne_of_isDigit h rfl (List.cons.inj heq).1
  · exact fun heq => ne_of_isDigit h rfl (List.cons.inj heq).1

/-- Digits, a point and digits read as the float nearest to the decimal they write. So the lexer and
the reader of floats agree on numerals. -/
theorem read?_fraction {whole fraction : List Char} (hw : IsDigits whole)
    (hf : IsDigits fraction) : Binary64.read? (whole ++ '.' :: fraction) =
      some ((Decimal.ofDigits whole fraction).toBinary64 false) := by
  have hdecimal : Decimal.read? (whole ++ '.' :: fraction) =
      some (Decimal.ofDigits whole fraction) := by
    simp [Decimal.read?, hw.takeWhile_fraction, hw.dropWhile_fraction, hf.takeWhile_eq,
      hf.dropWhile_eq, hw.ne_nil, Decimal.readExponent?]
  obtain ⟨c, rest, rfl, hc⟩ := hw.exists_cons
  rw [List.cons_append] at hdecimal ⊢
  rw [read?_of_isDigit hc, hdecimal, Option.map_some]

/-- The lexer's number is one that the word spells, digit by digit. Without a point it is an
integer, and with one a float. -/
theorem spells_of_number? {word : List Char} {x : Number} (h : number? word = some x) :
    Spells (.number x) word := by
  have hsplit := List.takeWhile_append_dropWhile (p := Decimal.isDigit) (l := word)
  have hwhole : ∀ c ∈ word.takeWhile Decimal.isDigit, c.isDigit = true :=
    fun c hc => List.mem_takeWhile_imp hc
  simp only [number?] at h
  split at h
  next hrest =>
    rw [hrest, List.append_nil] at hsplit
    split at h
    next => cases h
    next hne =>
      cases h
      rw [hsplit] at hne hwhole ⊢
      rw [Decimal.digitsValue_eq]
      exact .integer ⟨by simpa using hne, hwhole⟩
  next c fraction hrest =>
    rw [hrest] at hsplit
    split at h
    next hparts =>
      obtain ⟨rfl, hne, hplaces, hall⟩ := hparts
      cases h
      have hw : IsDigits (word.takeWhile Decimal.isDigit) := ⟨hne, hwhole⟩
      have hf : IsDigits fraction := ⟨hplaces, List.all_eq_true.mp hall⟩
      have := Spells.float hw hf (read?_fraction hw hf)
      rwa [hsplit] at this
    next => cases h

/-- A word that spells a number is taken as that number. -/
theorem number?_of_spells {word : List Char} {x : Number} (h : Spells (.number x) word) :
    number? word = some x := by
  cases h with
  | integer digits =>
    simp [number?, digits.takeWhile_eq, digits.dropWhile_eq, digits.ne_nil, Decimal.digitsValue_eq]
  | @float whole fraction x digits places reads =>
    rw [read?_fraction digits places] at reads
    cases reads
    have hall : fraction.all Decimal.isDigit = true := List.all_eq_true.mpr places.digits
    simp only [number?, digits.takeWhile_fraction, digits.dropWhile_fraction]
    rw [if_pos ⟨trivial, digits.ne_nil, places.ne_nil, hall⟩]

/-- A number is spelled by digits, with or without a fraction. -/
theorem number?_eq_none_iff {word : List Char} : number? word = none ↔ ¬IsDigits word ∧
    ∀ whole fraction, IsDigits whole → IsDigits fraction → word ≠ whole ++ '.' :: fraction := by
  constructor
  · intro h
    refine ⟨fun digits => ?_, ?_⟩
    · rw [number?_of_spells (.integer digits)] at h
      cases h
    · rintro whole fraction digits places rfl
      rw [number?_of_spells (.float digits places (read?_fraction digits places))] at h
      cases h
  · rintro ⟨noInteger, noFloat⟩
    rw [Option.eq_none_iff_forall_ne_some]
    intro x hx
    cases spells_of_number? hx with
    | integer digits => exact noInteger digits
    | float digits places _ => exact noFloat _ _ digits places rfl

/-! ## Words -/

/-- A word is a lexeme exactly if it spells it: a name if it starts with no digit, and otherwise a
number if it is digits with or without a fraction. -/
theorem word?_eq_some_iff {word : List Char} {l : Lexeme}
    (chars : ∀ c ∈ word, isWordChar c = true) :
    word? word = some l ↔ Spells l word ∧ l.isWord = true := by
  constructor
  · intro h
    cases word with
    | nil => cases h
    | cons c rest =>
      simp only [word?] at h
      split at h
      next hdigit =>
        obtain ⟨x, hx, rfl⟩ := Option.map_eq_some_iff.mp h
        exact ⟨spells_of_number? hx, rfl⟩
      next hdigit =>
        cases h
        refine ⟨.ident ⟨⟨c, rfl, Bool.eq_false_of_not_eq_true hdigit⟩, ?_⟩, rfl⟩
        exact fun c hc => isWordChar_iff.mp (chars c hc)
  · rintro ⟨h, hword⟩
    cases h with
    | opener d => cases hword
    | closer d => cases hword
    | string quoteless => cases hword
    | ident name =>
      obtain ⟨c, hc, hdigit⟩ := name.start
      obtain ⟨rest, rfl⟩ := List.head?_eq_some_iff.mp hc
      rw [word?, if_neg (by rw [Decimal.isDigit_eq, hdigit]; decide)]
    | integer digits =>
      have hnumber := number?_of_spells (.integer digits)
      obtain ⟨c, rest, rfl, hc⟩ := digits.exists_cons
      rw [word?, if_pos hc, hnumber, Option.map_some]
    | float digits places reads =>
      have hnumber := number?_of_spells (.float digits places reads)
      obtain ⟨c, rest, rfl, hc⟩ := digits.exists_cons
      rw [List.cons_append] at hnumber ⊢
      rw [word?, if_pos hc, hnumber, Option.map_some]

/-- The only words that are no lexemes start with a digit and are no numbers. -/
theorem word?_eq_none_iff {c : Char} {rest : List Char} :
    word? (c :: rest) = none ↔ c.isDigit = true ∧ number? (c :: rest) = none := by
  rw [word?, Decimal.isDigit_eq]
  split
  next hdigit => simp [hdigit]
  next hdigit => simp [hdigit]

/-- The spelling of a word is made of characters of names, and is not empty. So the lexer takes all
of it and nothing more. -/
theorem Spells.wordChars {l : Lexeme} {text : List Char} (h : Spells l text)
    (hword : l.isWord = true) : text ≠ [] ∧ ∀ c ∈ text, isWordChar c = true := by
  cases h with
  | opener d => cases hword
  | closer d => cases hword
  | string quoteless => cases hword
  | ident name =>
    obtain ⟨c, hc, -⟩ := name.start
    refine ⟨?_, fun c hc => isWordChar_iff.mpr (name.chars c hc)⟩
    rintro rfl
    cases hc
  | integer digits =>
    exact ⟨digits.ne_nil, fun c hc => isWordChar_of_isDigit (digits.digits c hc)⟩
  | float digits places reads =>
    refine ⟨by simp, fun c hc => ?_⟩
    rcases List.mem_append.mp hc with hc | hc
    · exact isWordChar_of_isDigit (digits.digits c hc)
    · rcases List.mem_cons.mp hc with rfl | hc
      · rfl
      · exact isWordChar_of_isDigit (places.digits c hc)

end Lexer

end TypedSexp
