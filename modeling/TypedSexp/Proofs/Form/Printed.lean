import TypedSexp.Form.Printer
import TypedSexp.Proofs.Form.Flattening
import TypedSexp.Proofs.Number.Rounding
import TypedSexp.Proofs.Token.Layout

/-!
# Printed programs

A program that is printed and parsed again has the same forms up to their notes
(`Form.parse_printProgram`). This holds of the forms that can be written in a source at
all, `Form.Writable`: symbols with a name, strings without a quote, and numbers without
a sign. What was parsed is of that kind, except that a numeral may be so large that it
reads as infinity, for which there is no numeral.

The text of a form is lexed to tokens that flatten to a form of the same shape, whatever
follows, as long as it does not go on with a word (`Form.Writable.prints`). A blank
or a closing delimiter never does, and these are all that a print puts after a form.

What is not kept: notes, so the forms have the places of the printed text and no types, and how a
numeral was spelled. Forms that can be built but not written are left out; a number below zero is
printed as what reads as a name. Integers are printed with all their digits, and the limit that a
machine may set on reading them again, commonly 4300 digits, is left out.
-/

namespace TypedSexp

/-- The numbers that a numeral is printed for: integers and floats without a sign. -/
inductive Number.Unsigned : Number → Prop
  | int (n : Nat) : Unsigned (.int n)
  | float (code : Fin Binary64.codes) : Unsigned (.float (.finite false code))

/-- The numbers that a numeral reads as. -/
def Number.Numeral (x : Number) : Prop := x.Unsigned ∨ x = .float (.infinite false)

namespace Form

variable {α : Type}

/-- A form without its notes. -/
def shape : Form α → Form Unit := map fun _ => ()

/-- The forms that a source can hold, given the numbers that it can. -/
inductive Writable (fits : Number → Prop) : Form α → Prop
  | symbol {n : α} {name : String} (isName : Lexer.IsName name.toList) :
      Writable fits (.symbol n name)
  | string {n : α} {value : String} (quoteless : '"' ∉ value.toList) :
      Writable fits (.string n value)
  | number {n : α} {x : Number} (fit : fits x) : Writable fits (.number n x)
  | list {n : α} {es : List (Form α)} (elements : ∀ e ∈ es, Writable fits e) :
      Writable fits (.list n es)
  | vector {n : α} {es : List (Form α)} (elements : ∀ e ∈ es, Writable fits e) :
      Writable fits (.vector n es)

end Form

open Lexer (Spells isWordChar scan)

/-- A number without a sign is printed as one of its numerals. Infinity has none, and a number below
zero would be printed as a name. -/
theorem Number.Unsigned.spells {x : Number} (h : x.Unsigned) :
    Spells (.number x) x.plainText.toList := by
  cases h with
  | int n =>
    have htext : (Number.int n).plainText.toList = Nat.toDigits 10 n := by
      change (toString n).toList = _
      rw [Nat.toString_eq_ofList_toDigits, String.toList_ofList]
    have digits : Lexer.IsDigits (Nat.toDigits 10 n) := Lexer.isDigits_digits n
    have := Spells.integer digits
    rwa [Nat.ofDigitChars_ten_toDigits, ← htext] at this
  | float code =>
    obtain ⟨whole, fraction, hplain, hne, hdigits, hvalue⟩ :=
      Decimal.exists_plain_eq (Decimal.shortest code)
    have htext : (Number.float (.finite false code)).plainText.toList =
        Decimal.digits whole ++ '.' :: fraction := by
      change (String.ofList (Decimal.plain (Decimal.shortest code))).toList = _
      rw [String.toList_ofList, hplain]
    have digits := Lexer.isDigits_digits whole
    have places : Lexer.IsDigits fraction := ⟨hne, hdigits⟩
    rw [htext]
    refine .float digits places ?_
    rw [Lexer.read?_fraction digits places, hvalue, Decimal.toBinary64_shortest]

/-- A numeral reads as a number without a sign, or as infinity if it is too large. So this is the
only number that is read and cannot be printed. -/
theorem Lexer.Spells.numeral {x : Number} {text : List Char} (h : Spells (.number x) text) :
    x.Numeral := by
  cases h with
  | integer digits => exact .inl (.int _)
  | @float whole fraction x digits places reads =>
    rw [Lexer.read?_fraction digits places] at reads
    cases reads
    rcases Decimal.toBinary64_nonneg (Decimal.ofDigits whole fraction) with ⟨code, h⟩ | h
    · rw [h]
      exact .inl (.float code)
    · rw [h]
      exact .inr rfl

namespace Form

variable {α : Type}

/-! ## Lexing a print -/

/-- The text, which starts at offset `pos` before `rest`, is lexed to the tokens of forms
of the given shapes. -/
def Prints (pos : Nat) (text rest : List Char) (es : List (Form α)) : Prop :=
  ∃ ts fs, scan pos (text ++ rest) = (scan (pos + text.length) rest).prepend ts ∧
    FlattensAll fs ts ∧ fs.map shape = es.map shape

/-- The text of a leaf is lexed to the leaf, if what follows does not go on with the word. -/
theorem prints_leaf {l : Lexeme} {text rest : List Char} (h : Spells l text)
    (stop : ∀ c ∈ rest.head?, isWordChar c = false) {e : Form α}
    (leaf : ∀ s, ∃ f, OfLeaf ⟨l, s⟩ f ∧ f.shape = e.shape) (pos : Nat) :
    Prints pos text rest [e] := by
  obtain ⟨f, hf, hshape⟩ := leaf ⟨pos, pos + text.length⟩
  refine ⟨[⟨l, _⟩], [f], h.scan_eq (fun _ => stop) pos, ?_, by simp [hshape]⟩
  exact .cons (.leaf hf) .nil

/-- Texts one after the other are lexed to the forms of both, if each is where the other is beside
it. -/
theorem Prints.append {pos : Nat} {text more rest : List Char} {es fs : List (Form α)}
    (h : Prints pos text (more ++ rest) es) (hmore : Prints (pos + text.length) more rest fs) :
    Prints pos (text ++ more) rest (es ++ fs) := by
  obtain ⟨ts, es', hscan, hflat, hshape⟩ := h
  obtain ⟨us, fs', hscan', hflat', hshape'⟩ := hmore
  refine ⟨ts ++ us, es' ++ fs', ?_, hflat.append hflat', by simp [hshape, hshape']⟩
  rw [List.append_assoc, hscan, hscan', List.length_append, Nat.add_assoc]
  simp [Lexed.prepend]

theorem prints_blank {c : Char} (h : Text.isBlank c = true) (pos : Nat) (rest : List Char) :
    Prints pos [c] rest ([] : List (Form α)) :=
  ⟨[], [], Lexer.scan_blank h pos rest, .nil, rfl⟩

/-- Forms one after the other, with a blank between any two of them, are lexed to these forms. What
follows the last one must not go on with a word. -/
theorem prints_intercalate {separator : Char} (isBlank : Text.isBlank separator = true)
    {rest : List Char} (stop : ∀ c ∈ rest.head?, isWordChar c = false) {es : List (Form α)}
    (each : ∀ e ∈ es, ∀ (pos : Nat) (more : List Char),
      (∀ c ∈ more.head?, isWordChar c = false) → Prints pos (print e).toList more [e]) (pos : Nat) :
    Prints pos ([separator].intercalate (es.map fun e => (print e).toList)) rest es := by
  induction es generalizing pos with
  | nil => exact ⟨[], [], rfl, .nil, rfl⟩
  | cons e es ih =>
    obtain ⟨he, hes⟩ := List.forall_mem_cons.mp each
    cases es with
    | nil =>
      simpa using he pos rest stop
    | cons e' es =>
      rw [List.map_cons, List.map_cons, List.intercalate_cons_cons, List.append_assoc]
      -- The separator ends the word that the first form may end with.
      refine (he pos _ ?_).append ((prints_blank isBlank _ _).append (ih hes _))
      rintro c ⟨⟩
      exact Lexer.isBlank_not_wordChar isBlank

/-- A list or a vector: forms between two delimiters. The delimiters need no blanks, as neither is a
character of words. -/
theorem prints_compound (d : Delimiter) {text rest : List Char} {es : List (Form α)} {e : Form α}
    {pos : Nat} (inner : Prints (pos + 1) text (d.closing :: rest) es)
    (compound : ∀ n fs, fs.map shape = es.map shape →
      (Reader.compound d n fs).shape = e.shape) :
    Prints pos (d.opening :: (text ++ [d.closing])) rest [e] := by
  obtain ⟨ts, fs, hscan, hflat, hshape⟩ := inner
  have hopen := Lexer.scan_delimiter (Lexer.delimiter?_opening d) pos (text ++ d.closing :: rest)
  have hclose := Lexer.scan_delimiter (Lexer.delimiter?_closing d) (pos + 1 + text.length) rest
  have closed := Flattens.compound d ⟨pos, (pos + 1 : Nat)⟩
    ⟨(pos + 1 + text.length : Nat), (pos + 1 + text.length + 1 : Nat)⟩ hflat
  refine ⟨_, [_], ?_, .singleton closed, by simp [compound _ fs hshape]⟩
  rw [List.cons_append, List.append_assoc, List.singleton_append, hopen, hscan, hclose]
  simp [Lexer.scan.emit, Lexed.prepend, Nat.add_assoc, Nat.add_comm 1, Int.add_assoc]

theorem closing_not_wordChar (d : Delimiter) (rest : List Char) :
    ∀ c ∈ (d.closing :: rest).head?, isWordChar c = false := by
  rintro c ⟨⟩
  cases d <;> rfl

/-- The print of a form is lexed to the tokens of a form of the same shape. The induction is over
the form, with the place and the rest of the text free. -/
theorem Writable.prints {e : Form α} (h : e.Writable Number.Unsigned) (pos : Nat)
    (rest : List Char) (stop : ∀ c ∈ rest.head?, isWordChar c = false) :
    Prints pos (print e).toList rest [e] := by
  induction h generalizing pos rest with
  | @symbol n name isName =>
    have spells : Spells (.ident name) name.toList := by
      have := Spells.ident isName
      rwa [String.ofList_toList] at this
    have htext : (print (.symbol n name)).toList = name.toList := by simp [print, printWith]
    rw [htext]
    exact prints_leaf spells stop (fun s => ⟨_, .symbol, rfl⟩) pos
  | @string n value quoteless =>
    have spells : Spells (.string value) ('"' :: (value.toList ++ ['"'])) := by
      have := Spells.string quoteless
      rwa [String.ofList_toList] at this
    have htext : (print (.string n value)).toList = '"' :: (value.toList ++ ['"']) := by
      simp [print, printWith]
    rw [htext]
    exact prints_leaf spells stop (fun s => ⟨_, .string, rfl⟩) pos
  | @number n x fit =>
    have htext : (print (.number n x)).toList = x.plainText.toList := by simp [print, printWith]
    rw [htext]
    exact prints_leaf fit.spells stop (fun s => ⟨_, .number, rfl⟩) pos
  | @list n es elements ih =>
    have htext : (print (.list n es)).toList =
        '(' :: ([' '].intercalate (es.map fun e => (print e).toList) ++ [')']) := by
      simp [print, printWith, String.toList_intercalate, Function.comp_def]
    rw [htext]
    refine prints_compound .paren
      (prints_intercalate rfl (closing_not_wordChar .paren rest) ih (pos + 1)) ?_
    intro m fs hfs
    simpa [Reader.compound, shape, map] using hfs
  | @vector n es elements ih =>
    have htext : (print (.vector n es)).toList =
        '[' :: ([' '].intercalate (es.map fun e => (print e).toList) ++ [']']) := by
      simp [print, printWith, String.toList_intercalate, Function.comp_def]
    rw [htext]
    refine prints_compound .bracket
      (prints_intercalate rfl (closing_not_wordChar .bracket rest) ih (pos + 1)) ?_
    intro m fs hfs
    simpa [Reader.compound, shape, map] using hfs

/-! ## Parsing a print -/

/-- A printed program is read as forms of the same shapes. Places come from the print and types are
gone, so only shapes can be compared. -/
theorem exists_parse_printProgram {es : List (Form α)}
    (h : ∀ e ∈ es, e.Writable Number.Unsigned) :
    ∃ fs, parse (printProgram es) = .ok fs ∧ fs.map shape = es.map shape := by
  have htext : (printProgram es).toList =
      ['\n'].intercalate (es.map fun e => (print e).toList) := by
    simp [printProgram, String.toList_intercalate, Function.comp_def]
  have hprints : Prints 0 (printProgram es).toList [] es := by
    rw [htext]
    exact prints_intercalate rfl (by simp) (fun e he => (h e he).prints) 0
  obtain ⟨ts, fs, hscan, hflat, hshape⟩ := hprints
  refine ⟨fs, ofLexed_eq_ok_iff.mpr ?_, hshape⟩
  rw [List.append_nil] at hscan
  rw [Lexed.ofSource, hscan]
  exact ⟨by simp [scan, Lexed.prepend], by simpa [scan, Lexed.prepend] using hflat.ofTokens_eq⟩

/-! ## What was parsed can be written -/

mutual

/-- Forms whose tokens were spelled can be written again: their symbols are names, their strings
have no quotes, and their numbers have numerals. -/
theorem Flattens.writable : ∀ {e : Form Note} {ts : List Token}, Flattens e ts →
    (∀ t ∈ ts, ∃ text, Spells t.lexeme text) → e.Writable Number.Numeral
  | _, _, .leaf (t := t) h, spelled => by
    -- A leaf has the value of its token, so what spells the token restricts it.
    obtain ⟨text, spells⟩ := spelled t List.mem_cons_self
    cases h with
    | symbol =>
      cases spells with
      | ident name =>
        refine .symbol ?_
        rwa [String.toList_ofList]
    | string =>
      cases spells with
      | string quoteless =>
        refine .string ?_
        rwa [String.toList_ofList]
    | number => exact .number spells.numeral
  | _, _, .list inner, spelled =>
    .list (inner.writable fun t ht => spelled t (by simp [ht]))
  | _, _, .vector inner, spelled =>
    .vector (inner.writable fun t ht => spelled t (by simp [ht]))

theorem FlattensAll.writable : ∀ {es : List (Form Note)} {ts : List Token}, FlattensAll es ts →
    (∀ t ∈ ts, ∃ text, Spells t.lexeme text) → ∀ e ∈ es, e.Writable Number.Numeral
  | _, _, .nil, _ => by simp
  | _, _, .cons first rest, spelled => by
    refine List.forall_mem_cons.mpr ⟨first.writable ?_, rest.writable ?_⟩
    · exact fun t ht => spelled t (List.mem_append_left _ ht)
    · exact fun t ht => spelled t (List.mem_append_right _ ht)

end

theorem writable_of_parse {source : String} {fs : List (Form Note)}
    (h : parse source = .ok fs) : ∀ f ∈ fs, f.Writable Number.Numeral := by
  obtain ⟨-, htokens⟩ := ofLexed_eq_ok_iff.mp h
  obtain ⟨text, after, l, -, -, hlayout, -⟩ := Lexer.laidOut_scan 0 source.toList
  refine (flattensAll_of_ofTokens htokens).writable fun t ht => ?_
  rw [Lexed.ofSource, hlayout] at ht
  obtain ⟨-, word, -, -, spells, -⟩ := l.spells_of_mem ht
  exact ⟨word, spells⟩

/-- **A printed program parses to the same forms**, as many and each the same up to notes.
What parses can be printed, but for numerals that read as infinity. -/
theorem parse_printProgram :
    (∀ es : List (Form Note), (∀ e ∈ es, e.Writable Number.Unsigned) →
      ∃ fs, parse (printProgram es) = .ok fs ∧ fs.map shape = es.map shape) ∧
    ∀ (source : String) (fs : List (Form Note)), parse source = .ok fs →
      ∀ f ∈ fs, f.Writable fun x => x.Unsigned ∨ x = .float (.infinite false) :=
  ⟨fun _ => exists_parse_printProgram, fun _ _ => writable_of_parse⟩

/-- Words that look like numbers, a string with delimiters and a line break, and a float
beside an integer of the same value. -/
theorem parse_printProgram_lookalikes :
    let es : List (Form Note) := [.list {} [.symbol {} "-1", .symbol {} "+.5", .symbol {} "."],
      .vector {} [.string {} "(;\n]", .number {} (.float (.zero false)), .number {} (.int 0),
        .list {} []]]
    (∀ e ∈ es, e.Writable Number.Unsigned) ∧ ∃ fs, parse (printProgram es) = .ok fs ∧
      fs.map shape = es.map shape ∧
      ∀ f ∈ fs, f.Writable fun x => x.Unsigned ∨ x = .float (.infinite false) := by
  intro es
  have isName {s : String} (start : ∃ c ∈ s.toList.head?, c.isDigit = false)
      (chars : s.toList.all isWordChar = true) : Lexer.IsName s.toList :=
    ⟨start, fun c hc => Lexer.isWordChar_iff.mp (List.all_eq_true.mp chars c hc)⟩
  have writable : ∀ e ∈ es, e.Writable Number.Unsigned := by
    simp only [es, List.forall_mem_cons, List.not_mem_nil, false_imp_iff, implies_true, and_true]
    refine ⟨.list ?_, .vector ?_⟩
    · simp only [List.forall_mem_cons, List.not_mem_nil, false_imp_iff, implies_true, and_true]
      exact ⟨.symbol (isName ⟨'-', rfl, rfl⟩ rfl), .symbol (isName ⟨'+', rfl, rfl⟩ rfl),
        .symbol (isName ⟨'.', rfl, rfl⟩ rfl)⟩
    · simp only [List.forall_mem_cons, List.not_mem_nil, false_imp_iff, implies_true, and_true]
      exact ⟨.string (by decide), .number (.float _), .number (.int 0), .list (by simp)⟩
  obtain ⟨fs, hparse, hshape⟩ := parse_printProgram.1 es writable
  exact ⟨writable, fs, hparse, hshape, parse_printProgram.2 _ fs hparse⟩

end Form

end TypedSexp
