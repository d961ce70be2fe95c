import TypedSexp.Proofs.Form.Printed
import TypedSexp.Script

/-!
# Reading a script

A grammar of the emitted expressions (`Script.Expr`), read from left to right: an expression is a
primary one and all calls and method calls that follow it. Each rule says what stands at the start
of a text, which form that is, and which text is left.

The grammar is unambiguous (`Script.Expr.unique`). The first characters of a primary expression
tell its kind (`Script.Primary.start?_eq`), and after each part the next character tells how it
goes on: a call or method call, a separator, or the end of what was opened. Parentheses around an
expression are no part of the form, and an operator after the first expression in them is what
tells an operation from an expression in parentheses.

This is a grammar of what is emitted, not of the language that scripts are written in, of which most
is never emitted.
-/

namespace TypedSexp

/-! ## Numerals -/

/-- The numbers with a value: integers, and floats that are neither infinite nor undefined. -/
inductive Number.Finite : Number → Prop
  | int (n : Int) : Finite (.int n)
  | float (negative : Bool) (code : Fin Binary64.codes) : Finite (.float (.finite negative code))

namespace Number

/-- The number with the other sign. -/
def neg : Number → Number
  | .int n => .int (-n)
  | .float (.finite negative code) => .float (.finite (!negative) code)
  | .float (.infinite negative) => .float (.infinite (!negative))
  | .float .nan => .float .nan

/-- A finite number is written as one without a sign, or as the one with the other sign and a sign
before it. -/
theorem Finite.exists_unsigned {x : Number} (h : x.Finite) : ∃ y : Number, y.Unsigned ∧
    (x = y ∨ x = y.neg ∧ x.plainText.toList = '-' :: y.plainText.toList) := by
  cases h with
  | int n =>
    cases n with
    | ofNat n => exact ⟨_, .int n, .inl rfl⟩
    | negSucc n =>
      refine ⟨_, .int (n + 1), .inr ⟨rfl, ?_⟩⟩
      show ("-" ++ toString (n + 1)).toList = '-' :: (toString (n + 1)).toList
      simp
  | float negative code =>
    cases negative with
    | false => exact ⟨_, .float code, .inl rfl⟩
    | true =>
      refine ⟨_, .float code, .inr ⟨rfl, ?_⟩⟩
      show (String.ofList ('-' :: _)).toList = '-' :: (String.ofList _).toList
      simp

end Number

namespace Script

/-- A character of numerals. -/
def isNumeralChar (c : Char) : Bool := c.isDigit || c == '.' || c == '-'

/-- A number without a sign is written with characters of numerals, of which the first is no
minus. -/
theorem exists_numeral_of_unsigned {x : Number} (h : x.Unsigned) :
    ∃ c cs, x.plainText.toList = c :: cs ∧ c ≠ '-' ∧
      ∀ d ∈ x.plainText.toList, isNumeralChar d = true := by
  have ofDigit : ∀ c : Char, c.isDigit = true → isNumeralChar c = true := by
    intro c hc
    simp [isNumeralChar, hc]
  have spells := h.spells
  generalize x.plainText.toList = text at spells ⊢
  cases spells with
  | integer digits =>
    obtain ⟨c, cs, rfl, hc⟩ := digits.exists_cons
    exact ⟨c, cs, rfl, Lexer.ne_of_isDigit hc rfl, fun d hd => ofDigit d (digits.digits d hd)⟩
  | float digits places reads =>
    obtain ⟨c, cs, rfl, hc⟩ := digits.exists_cons
    refine ⟨c, _, rfl, Lexer.ne_of_isDigit hc rfl, fun d hd => ?_⟩
    rcases List.mem_append.mp hd with hd | hd
    · exact ofDigit d (digits.digits d hd)
    · rcases List.mem_cons.mp hd with rfl | hd
      · rfl
      · exact ofDigit d (places.digits d hd)

/-- A finite number is written with characters of numerals and at least one of them. -/
theorem numeralChars {x : Number} (h : x.Finite) : x.plainText.toList ≠ [] ∧
    ∀ c ∈ x.plainText.toList, isNumeralChar c = true := by
  obtain ⟨y, hy, rfl | ⟨-, htext⟩⟩ := h.exists_unsigned
  · obtain ⟨c, cs, htext, -, chars⟩ := exists_numeral_of_unsigned hy
    exact ⟨by simp [htext], chars⟩
  · obtain ⟨-, -, -, -, chars⟩ := exists_numeral_of_unsigned hy
    rw [htext, List.forall_mem_cons]
    exact ⟨by simp, rfl, chars⟩

/-- The number that a numeral with an optional sign reads as. -/
def numeral? : List Char → Option Number
  | '-' :: cs => (Lexer.number? cs).map Number.neg
  | cs => Lexer.number? cs

/-- A finite number is read from its text, with its sign, and an integer is not taken for a
float. -/
theorem numeral?_plainText {x : Number} (h : x.Finite) : numeral? x.plainText.toList = some x := by
  obtain ⟨y, hy, rfl | ⟨rfl, htext⟩⟩ := h.exists_unsigned
  · have hread := Lexer.number?_of_spells hy.spells
    obtain ⟨c, cs, htext, hc, -⟩ := exists_numeral_of_unsigned hy
    rw [htext] at hread ⊢
    unfold numeral?
    split
    next heq => exact absurd (List.cons.inj heq).1 hc
    next => exact hread
  · rw [htext, numeral?, Lexer.number?_of_spells hy.spells, Option.map_some]

/-! ## Words -/

/-- The characters that stand in scripts besides those of words. -/
def punctuation : List Char := " \"()[]\x7b\x7d,;.+-*/".toList

/-- A character of words. -/
def isWordChar (c : Char) : Bool := !punctuation.contains c

/-- A word that stands for itself: it does not start with a digit and is no keyword. -/
structure IsWord (w : List Char) : Prop where
  start : ∃ c ∈ w.head?, c.isDigit = false
  chars : ∀ c ∈ w, isWordChar c = true
  notFunction : w ≠ "function".toList
  notReturn : w ≠ "return".toList

/-! ## The grammar -/

/-- What the first characters of a primary expression tell. -/
inductive Kind where
  | name
  | text
  | numeral
  | bracket
  | keyword
  | group

/-- The kind of a primary expression at the start of a text. -/
def start? : List Char → Option Kind
  | [] => none
  | c :: cs =>
    if c = '"' then some .text
    else if c = '[' then some .bracket
    else if c = '(' then some .group
    else if isNumeralChar c then some .numeral
    else if isWordChar c then
      some (if (c :: cs).takeWhile isWordChar = "function".toList then .keyword else .name)
    else none

/-- No call and no method call starts here. -/
def Clear (cs : List Char) : Prop := ∀ c ∈ cs.head?, c ≠ '(' ∧ c ≠ '.'

/-- Where no call or method follows, no opening parenthesis does. -/
theorem Clear.ne_call {cs : List Char} (h : Clear cs) (body : List Char) : cs ≠ '(' :: body := by
  rintro rfl
  exact (h '(' rfl).1 rfl

theorem Clear.ne_method {cs : List Char} (h : Clear cs) (body : List Char) : cs ≠ '.' :: body := by
  rintro rfl
  exact (h '.' rfl).2 rfl

/-- An operator with blanks around it. -/
def spaced (op : String) : List Char := ' ' :: (op.toList ++ [' '])

mutual

/-- A primary expression at the start of a text, its form, and the text that is left. -/
inductive Primary : Kind → List Char → Form Unit → List Char → Prop
  | name {cs w r : List Char} (word : IsWord w) (text : cs = w ++ r)
      (stop : ∀ c ∈ r.head?, isWordChar c = false) :
      Primary .name cs (.symbol () (String.ofList w)) r
  | string {cs s r : List Char} (quoteless : '"' ∉ s) (text : cs = '"' :: (s ++ '"' :: r)) :
      Primary .text cs (.string () (String.ofList s)) r
  | number {cs r : List Char} {x : Number} (finite : x.Finite)
      (text : cs = x.plainText.toList ++ r) (stop : ∀ c ∈ r.head?, isNumeralChar c = false) :
      Primary .numeral cs (.number () x) r
  | vector {cs body r : List Char} {es : List (Form Unit)} (text : cs = '[' :: body)
      (items : Items ']' body es r) : Primary .bracket cs (.vector () es) r
  | function {cs body rest lines r : List Char} {ps es : List (Form Unit)}
      (text : cs = "function".toList ++ '(' :: body) (params : Items ')' body ps rest)
      (opening : rest = " \x7b ".toList ++ lines) (statements : Body lines es r) :
      Primary .keyword cs (.list () (.symbol () Form.fnName :: .vector () ps :: es)) r
  | paren {cs body r : List Char} {e : Form Unit} (text : cs = '(' :: body)
      (inner : Expr body e (')' :: r)) : Primary .group cs e r
  | operation {cs body rest r : List Char} {op : String} {e f : Form Unit} {es : List (Form Unit)}
      (text : cs = '(' :: body) (first : Expr body e rest) (known : op ∈ infixOperators)
      (more : More (spaced op) ')' rest (f :: es) r) :
      Primary .group cs (.list () (.symbol () op :: e :: f :: es)) r

/-- All calls and method calls that follow an expression. -/
inductive Chain : Form Unit → List Char → Form Unit → List Char → Prop
  | stop {cs : List Char} {e : Form Unit} (clear : Clear cs) : Chain e cs e cs
  | call {cs body rest r : List Char} {e f : Form Unit} {es : List (Form Unit)}
      (text : cs = '(' :: body) (items : Items ')' body es rest)
      (chain : Chain (.list () (e :: es)) rest f r) : Chain e cs f r
  | method {cs w body rest r : List Char} {e f : Form Unit} {es : List (Form Unit)}
      (word : IsWord w) (text : cs = '.' :: (w ++ '(' :: body)) (items : Items ')' body es rest)
      (chain : Chain (.list () (.symbol () (String.ofList ('.' :: w)) :: e :: es)) rest f r) :
      Chain e cs f r

/-- An expression. -/
inductive Expr : List Char → Form Unit → List Char → Prop
  | intro {k : Kind} {cs rest r : List Char} {e f : Form Unit} (primary : Primary k cs e rest)
      (chain : Chain e rest f r) : Expr cs f r

/-- Expressions with commas between them, up to a closing character. -/
inductive Items : Char → List Char → List (Form Unit) → List Char → Prop
  | none {close : Char} {cs r : List Char} (text : cs = close :: r) : Items close cs [] r
  | some {close : Char} {cs rest r : List Char} {e : Form Unit} {es : List (Form Unit)}
      (first : Expr cs e rest) (more : More ", ".toList close rest es r) :
      Items close cs (e :: es) r

/-- Expressions with a separator before each of them, up to a closing character. -/
inductive More : List Char → Char → List Char → List (Form Unit) → List Char → Prop
  | last {sep : List Char} {close : Char} {cs r : List Char} (text : cs = close :: r) :
      More sep close cs [] r
  | next {sep : List Char} {close : Char} {cs body rest r : List Char} {e : Form Unit}
      {es : List (Form Unit)} (text : cs = sep ++ body) (first : Expr body e rest)
      (more : More sep close rest es r) : More sep close cs (e :: es) r

/-- The statements of a function, up to its end. -/
inductive Body : List Char → List (Form Unit) → List Char → Prop
  | none {cs r : List Char} (text : cs = '\x7d' :: r) : Body cs [] r
  | last {cs body rest r : List Char} {e : Form Unit} (text : cs = "return".toList ++ ' ' :: body)
      (first : Expr body e rest) (closing : rest = "; \x7d".toList ++ r) : Body cs [e] r
  | next {cs rest lines r : List Char} {e f : Form Unit} {es : List (Form Unit)}
      (first : Expr cs e rest) (closing : rest = "; ".toList ++ lines)
      (more : Body lines (f :: es) r) : Body cs (e :: f :: es) r

end

/-! ## Kinds -/

theorem ne_of_isWordChar {c d : Char} (h : isWordChar c = true) (hd : d ∈ punctuation) : c ≠ d := by
  rintro rfl
  have hc : punctuation.contains c = true := List.contains_iff_mem.mpr hd
  rw [isWordChar, hc] at h
  cases h

theorem ne_of_isNumeralChar {c d : Char} (h : isNumeralChar c = true)
    (hd : isNumeralChar d = false) : c ≠ d := by
  rintro rfl
  rw [hd] at h
  cases h

/-- A word or keyword is told by all of its characters. One character would not do, as a word may go
on where the keyword ends. -/
theorem start?_word {w r : List Char} (start : ∃ c ∈ w.head?, c.isDigit = false)
    (chars : ∀ c ∈ w, isWordChar c = true) (stop : ∀ c ∈ r.head?, isWordChar c = false) :
    start? (w ++ r) = some (if w = "function".toList then .keyword else .name) := by
  obtain ⟨c, hc, hdigit⟩ := start
  obtain ⟨cs, rfl⟩ := List.head?_eq_some_iff.mp hc
  have hword : isWordChar c = true := chars c List.mem_cons_self
  have hne : ∀ d ∈ punctuation, c ≠ d := fun d hd => ne_of_isWordChar hword hd
  have hnumeral : isNumeralChar c = false := by
    simp [isNumeralChar, hdigit, hne '.' (by decide), hne '-' (by decide)]
  have hrun := takeWhile_run chars stop
  rw [List.cons_append] at hrun ⊢
  rw [start?, if_neg (hne '"' (by decide)), if_neg (hne '[' (by decide)),
    if_neg (hne '(' (by decide)), hnumeral, hword, hrun]
  rfl

/-- The kind of a primary expression is told by the text, so there is only one rule to be compared
with. -/
theorem Primary.start?_eq {k : Kind} {cs r : List Char} {e : Form Unit} (h : Primary k cs e r) :
    start? cs = some k := by
  cases h with
  | name word text stop =>
    rw [text, start?_word word.start word.chars stop, if_neg word.notFunction]
  | string quoteless text => rw [text]; rfl
  | number finite text stop =>
    obtain ⟨hne, chars⟩ := numeralChars finite
    obtain ⟨c, cs, htext⟩ := List.exists_cons_of_ne_nil hne
    have hc : isNumeralChar c = true := chars c (by simp [htext])
    rw [text, htext, List.cons_append, start?, if_neg (ne_of_isNumeralChar hc rfl),
      if_neg (ne_of_isNumeralChar hc rfl), if_neg (ne_of_isNumeralChar hc rfl), if_pos hc]
  | vector text items => rw [text]; rfl
  | function text params opening statements =>
    have chars : ∀ c ∈ "function".toList, isWordChar c = true := List.all_eq_true.mp (by decide)
    rw [text, start?_word ⟨'f', rfl, rfl⟩ chars (by rintro c ⟨⟩; rfl), if_pos rfl]
  | paren text inner => rw [text]; rfl
  | operation text first known more => rw [text]; rfl

theorem Expr.exists_start? {cs r : List Char} {e : Form Unit} (h : Expr cs e r) :
    ∃ k, start? cs = some k := by
  cases h with
  | intro primary chain => exact ⟨_, primary.start?_eq⟩

/-- What closes a list of expressions starts none. So it is seen at once whether a list goes on. -/
theorem Expr.ne_closing {cs r r' : List Char} {e : Form Unit} {c : Char} (h : Expr cs e r)
    (hc : c ∈ [')', ']', '\x7d']) : cs ≠ c :: r' := by
  have hclosing : ∀ c ∈ [')', ']', '\x7d'], start? (c :: r') = none := by
    simp only [List.forall_mem_cons, List.not_mem_nil, false_imp_iff, implies_true, and_true]
    exact ⟨rfl, rfl, rfl⟩
  rintro rfl
  obtain ⟨k, hk⟩ := h.exists_start?
  rw [hclosing c hc] at hk
  cases hk

/-- No expression starts with the keyword of the last statement. So it is seen at once which
statement is the last. -/
theorem Expr.ne_return {cs body r : List Char} {e : Form Unit} (h : Expr cs e r) :
    cs ≠ "return".toList ++ ' ' :: body := by
  have chars : ∀ c ∈ "return".toList, isWordChar c = true := List.all_eq_true.mp (by decide)
  have stop : ∀ c ∈ (' ' :: body).head?, isWordChar c = false := by
    rintro c ⟨⟩
    rfl
  intro hreturn
  have hkind : start? cs = some .name := by
    rw [hreturn, start?_word ⟨'r', rfl, rfl⟩ chars stop, if_neg (by decide)]
  cases h with
  | @intro k _ _ _ _ _ primary chain =>
    obtain rfl : k = .name := Option.some.inj (primary.start?_eq.symm.trans hkind)
    cases primary with
    | name word text stop' =>
      obtain ⟨hword, -⟩ := run_unique word.chars chars stop' stop (text.symm.trans hreturn)
      exact word.notReturn hword

/-! ## Unique reading -/

/-- An operator is told by the first characters of what separates its operands, and none of them
is a parenthesis. -/
theorem exists_spaced_eq {op : String} (h : op ∈ infixOperators) (cs : List Char) :
    ∃ c, op = String.singleton c ∧ spaced op ++ cs = ' ' :: c :: ' ' :: cs := by
  simp only [infixOperators, List.mem_cons, List.not_mem_nil, or_false] at h
  rcases h with rfl | rfl | rfl | rfl
  · exact ⟨'+', rfl, rfl⟩
  · exact ⟨'-', rfl, rfl⟩
  · exact ⟨'*', rfl, rfl⟩
  · exact ⟨'/', rfl, rfl⟩

/-- An operator between operands is told from the parenthesis that closes them. -/
theorem spaced_ne_closing {op : String} (h : op ∈ infixOperators) (cs r : List Char) :
    spaced op ++ cs ≠ ')' :: r := by
  obtain ⟨c, -, htext⟩ := exists_spaced_eq h cs
  rw [htext]
  exact fun heq => absurd (List.cons.inj heq).1 (by decide)

/-- A comma between members is told from what closes them. -/
theorem comma_ne_closing {close : Char} (h : close ∈ [')', ']']) (cs r : List Char) :
    ", ".toList ++ cs ≠ close :: r := by
  intro heq
  have hcomma : ',' = close := (List.cons.inj heq).1
  subst hcomma
  exact absurd h (by decide)

/-- What separates operands tells the operator, if there are at least two operands. No operator with
blanks around it is the start of another one. -/
theorem More.operator_eq {op op' : String} (known : op ∈ infixOperators)
    (known' : op' ∈ infixOperators) {cs r r' : List Char} {e e' : Form Unit}
    {es es' : List (Form Unit)} (h : More (spaced op) ')' cs (e :: es) r)
    (h' : More (spaced op') ')' cs (e' :: es') r') : op = op' := by
  cases h with
  | @next _ _ _ body _ _ _ _ text first more =>
    cases h' with
    | @next _ _ _ body' _ _ _ _ text' first' more' =>
      obtain ⟨c, rfl, htext⟩ := exists_spaced_eq known body
      obtain ⟨c', rfl, htext'⟩ := exists_spaced_eq known' body'
      have heq := text.symm.trans text'
      rw [htext, htext'] at heq
      rw [(List.cons.inj (List.cons.inj heq).2).1]

/-- Operands do not start where a parenthesis closes. -/
theorem More.ne_closing {op : String} (known : op ∈ infixOperators) {r r' : List Char}
    {e : Form Unit} {es : List (Form Unit)} (h : More (spaced op) ')' (')' :: r) (e :: es) r') :
    False := by
  cases h with
  | next text first more => exact spaced_ne_closing known _ _ text.symm

mutual

/-- Of one kind, a text is read as one primary expression at most, and in one way: the same form and
the same rest. The cases are the rules of the grammar. -/
theorem Primary.unique : ∀ {k : Kind} {cs r : List Char} {e : Form Unit}, Primary k cs e r →
    ∀ {r' : List Char} {e' : Form Unit}, Primary k cs e' r' → e = e' ∧ r = r'
  | _, _, _, _, .name word text stop => by
    intro h'
    cases h' with
    | name word' text' stop' =>
      obtain ⟨rfl, rfl⟩ := run_unique word.chars word'.chars stop stop' (text.symm.trans text')
      exact ⟨rfl, rfl⟩
  | _, _, _, _, .string quoteless text => by
    intro h'
    cases h' with
    | string quoteless' text' =>
      have inside : ∀ {s : List Char}, '"' ∉ s → ∀ c ∈ s, decide (c ≠ '"') = true := by
        intro s hs c hc
        simpa using fun heq : c = '"' => hs (heq ▸ hc)
      obtain ⟨rfl, hrest⟩ := run_unique (inside quoteless) (inside quoteless')
        (by rintro c ⟨⟩; rfl) (by rintro c ⟨⟩; rfl) (List.cons.inj (text.symm.trans text')).2
      exact ⟨rfl, (List.cons.inj hrest).2⟩
  | _, _, _, _, .number finite text stop => by
    intro h'
    cases h' with
    | number finite' text' stop' =>
      obtain ⟨htext, rfl⟩ := run_unique (numeralChars finite).2 (numeralChars finite').2 stop stop'
        (text.symm.trans text')
      have hread := numeral?_plainText finite
      rw [htext, numeral?_plainText finite'] at hread
      cases hread
      exact ⟨rfl, rfl⟩
  | _, _, _, _, .vector text items => by
    intro h'
    cases h' with
    | vector text' items' =>
      obtain rfl := (List.cons.inj (text.symm.trans text')).2
      obtain ⟨rfl, rfl⟩ := items.unique (by simp) items'
      exact ⟨rfl, rfl⟩
  | _, _, _, _, .function text params opening statements => by
    intro h'
    cases h' with
    | function text' params' opening' statements' =>
      obtain rfl := (List.cons.inj (List.append_cancel_left (text.symm.trans text'))).2
      obtain ⟨rfl, rfl⟩ := params.unique (by simp) params'
      obtain rfl := List.append_cancel_left (opening.symm.trans opening')
      obtain ⟨rfl, rfl⟩ := statements.unique statements'
      exact ⟨rfl, rfl⟩
  | _, _, _, _, .paren text inner => by
    intro h'
    cases h' with
    | paren text' inner' =>
      obtain rfl := (List.cons.inj (text.symm.trans text')).2
      obtain ⟨rfl, hrest⟩ := inner.unique inner'
      exact ⟨rfl, (List.cons.inj hrest).2⟩
    | operation text' first' known' more' =>
      obtain rfl := (List.cons.inj (text.symm.trans text')).2
      obtain ⟨rfl, rfl⟩ := inner.unique first'
      exact (more'.ne_closing known').elim
  | _, _, _, _, .operation text first known more => by
    intro h'
    cases h' with
    | paren text' inner' =>
      obtain rfl := (List.cons.inj (text.symm.trans text')).2
      obtain ⟨rfl, rfl⟩ := first.unique inner'
      exact (more.ne_closing known).elim
    | operation text' first' known' more' =>
      obtain rfl := (List.cons.inj (text.symm.trans text')).2
      obtain ⟨rfl, rfl⟩ := first.unique first'
      obtain rfl := more.operator_eq known known' more'
      obtain ⟨hes, rfl⟩ := more.unique (spaced_ne_closing known) more'
      rw [hes]
      exact ⟨rfl, rfl⟩

/-- The calls and methods that follow an expression are read in one way. After each of them the next
character tells whether another one follows. -/
theorem Chain.unique : ∀ {cs r : List Char} {e f : Form Unit}, Chain e cs f r →
    ∀ {r' : List Char} {f' : Form Unit}, Chain e cs f' r' → f = f' ∧ r = r'
  | _, _, _, _, .stop clear => by
    intro h'
    cases h' with
    | stop => exact ⟨rfl, rfl⟩
    | call text' => exact (clear.ne_call _ text').elim
    | method word' text' => exact (clear.ne_method _ text').elim
  | _, _, _, _, .call text items chain => by
    intro h'
    cases h' with
    | stop clear' => exact (clear'.ne_call _ text).elim
    | call text' items' chain' =>
      obtain rfl := (List.cons.inj (text.symm.trans text')).2
      obtain ⟨rfl, rfl⟩ := items.unique (by simp) items'
      exact chain.unique chain'
    | method word' text' => exact absurd (List.cons.inj (text.symm.trans text')).1 (by decide)
  | _, _, _, _, .method word text items chain => by
    intro h'
    cases h' with
    | stop clear' => exact (clear'.ne_method _ text).elim
    | call text' => exact absurd (List.cons.inj (text.symm.trans text')).1 (by decide)
    | method word' text' items' chain' =>
      obtain ⟨rfl, hbody⟩ := run_unique word.chars word'.chars (by rintro c ⟨⟩; rfl)
        (by rintro c ⟨⟩; rfl) (List.cons.inj (text.symm.trans text')).2
      obtain rfl := (List.cons.inj hbody).2
      obtain ⟨rfl, rfl⟩ := items.unique (by simp) items'
      exact chain.unique chain'

/-- A text is read as one expression at most, and in one way. The induction is over the first
derivation, along with those for lists and bodies; the second is taken apart by the kind that the
text has. -/
theorem Expr.unique : ∀ {cs r : List Char} {e : Form Unit}, Expr cs e r →
    ∀ {r' : List Char} {e' : Form Unit}, Expr cs e' r' → e = e' ∧ r = r'
  | _, _, _, .intro primary chain => by
    intro h'
    cases h' with
    | intro primary' chain' =>
      obtain rfl := Option.some.inj (primary.start?_eq.symm.trans primary'.start?_eq)
      obtain ⟨rfl, rfl⟩ := primary.unique primary'
      exact chain.unique chain'

theorem Items.unique : ∀ {close : Char} {cs r : List Char} {es : List (Form Unit)},
    Items close cs es r → close ∈ [')', ']'] →
      ∀ {r' : List Char} {es' : List (Form Unit)}, Items close cs es' r' → es = es' ∧ r = r'
  | close, _, _, _, .none text => by
    intro hclose r' es' h'
    cases h' with
    | none text' => exact ⟨rfl, (List.cons.inj (text.symm.trans text')).2⟩
    | some first' more' => exact (first'.ne_closing (List.mem_append_left _ hclose) text).elim
  | close, _, _, _, .some first more => by
    intro hclose r' es' h'
    cases h' with
    | none text' => exact (first.ne_closing (List.mem_append_left _ hclose) text').elim
    | some first' more' =>
      obtain ⟨rfl, rfl⟩ := first.unique first'
      obtain ⟨rfl, rfl⟩ := more.unique (comma_ne_closing hclose) more'
      exact ⟨rfl, rfl⟩

/-- The further members of a list are read in one way, if their separator is told from what closes
the list. -/
theorem More.unique : ∀ {sep : List Char} {close : Char} {cs r : List Char}
    {es : List (Form Unit)}, More sep close cs es r → (∀ cs r, sep ++ cs ≠ close :: r) →
      ∀ {r' : List Char} {es' : List (Form Unit)}, More sep close cs es' r' → es = es' ∧ r = r'
  | _, _, _, _, _, .last text => by
    intro hsep r' es' h'
    cases h' with
    | last text' => exact ⟨rfl, (List.cons.inj (text.symm.trans text')).2⟩
    | next text' first' more' => exact (hsep _ _ (text'.symm.trans text)).elim
  | _, _, _, _, _, .next text first more => by
    intro hsep r' es' h'
    cases h' with
    | last text' => exact (hsep _ _ (text.symm.trans text')).elim
    | next text' first' more' =>
      obtain rfl := List.append_cancel_left (text.symm.trans text')
      obtain ⟨rfl, rfl⟩ := first.unique first'
      obtain ⟨rfl, rfl⟩ := more.unique hsep more'
      exact ⟨rfl, rfl⟩

theorem Body.unique : ∀ {cs r : List Char} {es : List (Form Unit)}, Body cs es r →
    ∀ {r' : List Char} {es' : List (Form Unit)}, Body cs es' r' → es = es' ∧ r = r'
  | _, _, _, .none text => by
    intro h'
    cases h' with
    | none text' => exact ⟨rfl, (List.cons.inj (text.symm.trans text')).2⟩
    | last text' => exact absurd (List.cons.inj (text.symm.trans text')).1 (by decide)
    | next first' => exact (first'.ne_closing (by simp) text).elim
  | _, _, _, .last text first closing => by
    intro h'
    cases h' with
    | none text' => exact absurd (List.cons.inj (text.symm.trans text')).1 (by decide)
    | last text' first' closing' =>
      obtain rfl := (List.cons.inj (List.append_cancel_left (text.symm.trans text'))).2
      obtain ⟨rfl, rfl⟩ := first.unique first'
      exact ⟨rfl, List.append_cancel_left (closing.symm.trans closing')⟩
    | next first' => exact (first'.ne_return text).elim
  | _, _, _, .next first closing more => by
    intro h'
    cases h' with
    | none text' => exact (first.ne_closing (by simp) text').elim
    | last text' => exact (first.ne_return text').elim
    | next first' closing' more' =>
      obtain ⟨rfl, rfl⟩ := first.unique first'
      obtain rfl := List.append_cancel_left (closing.symm.trans closing')
      obtain ⟨hes, rfl⟩ := more.unique more'
      rw [hes]
      exact ⟨rfl, rfl⟩

end

end Script

end TypedSexp
