import TypedSexp.Proofs.Compile.Emission
import TypedSexp.Proofs.Script.Reading

/-!
# The script determines the form

Two plain forms have the same script only if they are the same up to their notes
(`Script.emit_eq_iff`). Plain forms are built from words, strings without quotes, finite numbers,
vectors, functions, operations, method calls and calls.

The script of a plain form is read as that form by the grammar, and the grammar reads a text in
one way only. A form is emitted before the calls in which it is the callee, so what is read of a
script is not the form alone but the form and all calls that follow it: `Script.Reads` leaves open
what follows. Where a function or a number would be read otherwise before a call, emission puts it
in parentheses, and the grammar takes these away (`Script.Reads.paren`).

Forms that are not plain are left out; a name that is no word can make a script that is also that of
another form. Nothing is said about what a script does when it is run.
-/

namespace TypedSexp

namespace Form

variable {α : Type}

theorem shape_list (n : α) (es : List (Form α)) : shape (.list n es) = .list () (es.map shape) := by
  rw [shape, map, mapAll_eq_map]

theorem shape_vector (n : α) (es : List (Form α)) :
    shape (.vector n es) = .vector () (es.map shape) := by
  rw [shape, map, mapAll_eq_map]

end Form

namespace Script

variable {α β : Type}

/-- The forms whose scripts can be told apart: every name is a word, operators stand only before
two or more operands, and a method is called on something. -/
inductive Plain : Form α → Prop
  | symbol {n : α} {name : String} (word : IsWord name.toList) : Plain (.symbol n name)
  | string {n : α} {value : String} (quoteless : '"' ∉ value.toList) : Plain (.string n value)
  | number {n : α} {x : Number} (finite : x.Finite) : Plain (.number n x)
  | vector {n : α} {es : List (Form α)} (elements : ∀ e ∈ es, Plain e) : Plain (.vector n es)
  | function {n k m : α} {ps body : List (Form α)}
      (params : ∀ p ∈ ps, ∃ j name, p = .symbol j name ∧ IsWord name.toList)
      (statements : ∀ e ∈ body, Plain e) :
      Plain (.list n (.symbol k Form.fnName :: .vector m ps :: body))
  | operation {n k : α} {op : String} {first second : Form α} {rest : List (Form α)}
      (known : op ∈ infixOperators) (operands : ∀ e ∈ first :: second :: rest, Plain e) :
      Plain (.list n (.symbol k op :: first :: second :: rest))
  | method {n k : α} {name : String} {target : Form α} {args : List (Form α)}
      (word : IsWord name.toList) (receiver : Plain target) (arguments : ∀ e ∈ args, Plain e) :
      Plain (.list n (.symbol k ("." ++ name) :: target :: args))
  | call {n : α} {head : Form α} {args : List (Form α)}
      (noFunction : head.isSymbol Form.fnName = false) (callee : Plain head)
      (arguments : ∀ e ∈ args, Plain e) : Plain (.list n (head :: args))

/-! ## What may follow an expression -/

/-- What may follow an expression after all calls. -/
def Ends (k : List Char) : Prop := ∀ c ∈ k.head?, c ∈ [')', ']', ',', ';', ' ']

/-- What may follow the text of a form, which may be a call. -/
def Follows (e : Form α) (k : List Char) : Prop :=
  ∀ c ∈ k.head?, c ∈ ['(', ')', ']', ',', ';', ' '] ∨ c = '.' ∧ ∀ n x, e ≠ .number n x

/-- A text is read as a form and what follows it. -/
def Reads (e : Form α) (cs : List Char) : Prop :=
  ∀ {k r : List Char} {f : Form Unit}, Follows e k → Chain e.shape k f r → Expr (cs ++ k) f r

/-- A closing delimiter, a comma, a semicolon or a blank ends an expression. -/
theorem ends_cons {c : Char} (h : c ∈ [')', ']', ',', ';', ' ']) (cs : List Char) :
    Ends (c :: cs) := by
  rintro d ⟨⟩
  exact h

theorem Ends.follows {k : List Char} (h : Ends k) (e : Form α) : Follows e k :=
  fun c hc => .inl (List.mem_cons_of_mem _ (h c hc))

/-- What may follow an expression does not go on with a word. -/
theorem Follows.not_wordChar {e : Form α} {k : List Char} (h : Follows e k) :
    ∀ c ∈ k.head?, isWordChar c = false := by
  have hlist : ∀ c ∈ ['(', ')', ']', ',', ';', ' '], (!isWordChar c) = true :=
    List.all_eq_true.mp (by decide)
  intro c hc
  rcases h c hc with hmem | ⟨rfl, -⟩
  · simpa using hlist c hmem
  · rfl

/-- What may follow a numeral does not go on with it; a point would. -/
theorem Follows.not_numeralChar {n : α} {x : Number} {k : List Char}
    (h : Follows (.number n x) k) : ∀ c ∈ k.head?, isNumeralChar c = false := by
  have hlist : ∀ c ∈ ['(', ')', ']', ',', ';', ' '], (!isNumeralChar c) = true :=
    List.all_eq_true.mp (by decide)
  intro c hc
  rcases h c hc with hmem | ⟨-, hne⟩
  · simpa using hlist c hmem
  · exact (hne n x rfl).elim

/-- A text that is read as a form is an expression for it before anything that ends one. -/
theorem Reads.expr {e : Form α} {cs k : List Char} (h : Reads e cs) (ends : Ends k) :
    Expr (cs ++ k) e.shape k := by
  refine h (ends.follows e) (.stop fun c hc => ⟨?_, ?_⟩)
  · rintro rfl
    exact absurd (ends '(' hc) (by decide)
  · rintro rfl
    exact absurd (ends '.' hc) (by decide)

/-- Parentheses around an expression do not change what it is, and a call or a method may follow
them. -/
theorem Reads.paren {e : Form α} {cs k r : List Char} {f : Form Unit} (h : Reads e cs)
    (chain : Chain e.shape k f r) : Expr ('(' :: (cs ++ ')' :: k)) f r :=
  .intro (.paren rfl (h.expr (ends_cons (by simp) k))) chain

/-! ## The parts of a script -/

/-- Texts with separators are the first one, and each of the others after a separator. This is how
the grammar takes a list of members. -/
theorem toList_intercalate_cons (sep t : String) (ts : List String) :
    (String.intercalate sep (t :: ts)).toList =
      t.toList ++ ts.flatMap fun t => sep.toList ++ t.toList := by
  induction ts generalizing t with
  | nil => simp
  | cons u ts ih =>
    rw [String.intercalate_cons_cons, String.toList_append, String.toList_append, ih,
      List.flatMap_cons, List.append_assoc]
    simp

/-- After an expression in a list comes the separator or what closes the list, and both end it. -/
theorem ends_more {sep : List Char} {close : Char} (hsep : ∀ cs, Ends (sep ++ cs))
    (hclose : ∀ cs, Ends (close :: cs)) (texts : List String) (r : List Char) :
    Ends ((texts.flatMap fun t => sep ++ t.toList) ++ close :: r) := by
  cases texts with
  | nil => exact hclose r
  | cons t texts =>
    rw [List.flatMap_cons, List.append_assoc, List.append_assoc]
    exact hsep _

theorem ends_comma (cs : List Char) : Ends (", ".toList ++ cs) := by
  show Ends (',' :: ' ' :: cs)
  exact ends_cons (by simp) _

theorem ends_spaced (op : String) (cs : List Char) : Ends (spaced op ++ cs) :=
  ends_cons (by simp) _

section Lists

variable {es : List (Form α)} {texts : List String}
  (each : List.Forall₂ (fun e t => Reads e t.toList) es texts)

include each

/-- Emitted texts with separators before them are read as the further members of a list. -/
theorem reads_more {sep : List Char} {close : Char} (hsep : ∀ cs, Ends (sep ++ cs))
    (hclose : ∀ cs, Ends (close :: cs)) (r : List Char) :
    More sep close ((texts.flatMap fun t => sep ++ t.toList) ++ close :: r)
      (es.map Form.shape) r := by
  induction each with
  | nil => exact .last rfl
  | @cons e t es texts first rest ih =>
    rw [List.flatMap_cons, List.append_assoc, List.append_assoc]
    exact .next rfl (first.expr (ends_more hsep hclose texts r)) ih

/-- Emitted texts with commas between them are read as the members of a list. -/
theorem reads_items {close : Char} (hclose : ∀ cs, Ends (close :: cs)) (r : List Char) :
    Items close ((commas texts).toList ++ close :: r) (es.map Form.shape) r := by
  cases each with
  | nil => exact .none rfl
  | @cons e t es texts first rest =>
    rw [commas, toList_intercalate_cons, List.append_assoc]
    exact .some (first.expr (ends_more ends_comma hclose texts r))
      (reads_more rest ends_comma hclose r)

/-- Emitted statements are read as the body of a function, of which the last is returned. An empty
body is read as no statement. -/
theorem reads_body (r : List Char) :
    Body ((statements texts).toList ++ '\x7d' :: r) (es.map Form.shape) r := by
  induction each with
  | nil => exact .none rfl
  | @cons e t es texts first rest ih =>
    have semicolon : ∀ cs, Ends (';' :: cs) := ends_cons (by simp)
    cases rest with
    | nil =>
      refine .last ?_ (first.expr (semicolon (" \x7d".toList ++ r))) rfl
      simp [statements]
    | @cons e' t' es texts second rest =>
      have htext : (statements (t :: t' :: texts)).toList ++ '\x7d' :: r = t.toList ++
          ("; ".toList ++ ((statements (t' :: texts)).toList ++ '\x7d' :: r)) := by
        simp [statements]
      rw [htext]
      exact .next (first.expr (semicolon _)) rfl ih

end Lists

/-! ## What is emitted of a plain form -/

/-- A letter is no digit, so a text that starts with a letter is not taken for a number. -/
theorem not_isDigit_of_isAlpha {c : Char} (h : c.isAlpha = true) : c.isDigit = false := by
  have hletters : c.isAlpha =
      (decide ('A' ≤ c ∧ c ≤ 'Z') || (decide ('a' ≤ c) && decide (c ≤ 'z'))) := rfl
  have hdigits : c.isDigit = (decide ('0' ≤ c) && decide (c ≤ '9')) := rfl
  simp only [hletters, hdigits, Bool.or_eq_true, Bool.and_eq_true, decide_eq_true_eq,
    Bool.and_eq_false_iff, decide_eq_false_iff_not] at h ⊢
  right
  intro atMost
  rcases h with ⟨atLeast, -⟩ | ⟨atLeast, -⟩
  · exact absurd (Char.le_trans atLeast atMost) (by decide)
  · exact absurd (Char.le_trans atLeast atMost) (by decide)

/-- A word of letters and digits that starts with a letter and is no keyword stands for itself.
Plain forms may use other words as well. -/
theorem isWord_of_alphanum {name : String} (start : ∃ c ∈ name.toList.head?, c.isAlpha = true)
    (chars : ∀ c ∈ name.toList, c.isAlphanum = true) (noFunction : name ≠ "function")
    (noReturn : name ≠ "return") : IsWord name.toList := by
  refine ⟨?_, fun c hc => ?_, fun h => ?_, fun h => ?_⟩
  · obtain ⟨c, hc, hletter⟩ := start
    exact ⟨c, hc, not_isDigit_of_isAlpha hletter⟩
  · have hpunctuation : ∀ d ∈ punctuation, (!d.isAlphanum) = true :=
      List.all_eq_true.mp (by decide)
    rw [isWordChar, Bool.not_eq_true', Bool.eq_false_iff]
    intro hmem
    have := hpunctuation c (List.contains_iff_mem.mp hmem)
    rw [chars c hc] at this
    cases this
  · exact noFunction (String.toList_inj.mp h)
  · exact noReturn (String.toList_inj.mp h)

theorem IsWord.not_mem {w : List Char} (h : IsWord w) {c : Char} (hc : c ∈ punctuation) :
    c ∉ w := fun hmem => ne_of_isWordChar (h.chars c hmem) hc rfl

/-- No operator is a word, so a form that is called is not taken for an operation. -/
theorem not_isWord_of_operator {op : String} (h : op ∈ infixOperators) : ¬IsWord op.toList := by
  intro word
  simp only [infixOperators, List.mem_cons, List.not_mem_nil, or_false] at h
  rcases h with rfl | rfl | rfl | rfl
  · exact word.not_mem (c := '+') (by decide) (by decide)
  · exact word.not_mem (c := '-') (by decide) (by decide)
  · exact word.not_mem (c := '*') (by decide) (by decide)
  · exact word.not_mem (c := '/') (by decide) (by decide)

/-- A plain form that is called is no operator, so it is written as a callee. -/
theorem Plain.operator?_eq_none {e : Form α} (h : Plain e) : operator? e = none := by
  cases h with
  | @symbol n name word =>
    rw [operator?, if_neg]
    intro hmem
    exact not_isWord_of_operator (List.contains_iff_mem.mp hmem) word
  | _ => rfl

/-- A plain form that is called is no method, so no receiver is looked for. -/
theorem Plain.method?_eq_none {e : Form α} (h : Plain e) : method? e = none := by
  cases h with
  | @symbol n name word =>
    rw [method?, if_neg]
    unfold isMethodName
    split
    next hname => exact fun _ => word.not_mem (c := '.') (by decide) (by simp [hname])
    next => simp
  | _ => rfl

/-- The script of a function definition, from the names of its parameters and the scripts of its
body. -/
theorem emit_function {n k m : α} {ps body : List (Form α)} {names lines : List String}
    (hps : paramNames ps = .ok names) (hbody : emitAll body = .ok lines) :
    emit (.list n (.symbol k Form.fnName :: .vector m ps :: body)) =
      .ok (functionText names lines) := by
  rw [emit.eq_def]
  simp only [hps, hbody]
  rfl

/-- The script of an operation: its operands with the operator between any two of them, in
parentheses. -/
theorem emit_operation {n k : α} {op : String} {operands : List (Form α)} {texts : List String}
    (known : op ∈ infixOperators) (h : emitAll operands = .ok texts) :
    emit (.list n (.symbol k op :: operands)) =
      .ok ("(" ++ String.intercalate (" " ++ op ++ " ") texts ++ ")") := by
  have noFunction : (Form.symbol k op).isSymbol Form.fnName = false := by
    rw [Form.isSymbol, beq_eq_false_iff_ne]
    rintro rfl
    exact absurd known (by decide)
  have hop : operator? (Form.symbol k op) = some op := by
    rw [operator?, if_pos (List.contains_iff_mem.mpr known)]
  rw [emit.eq_def]
  simp only [noFunction, hop, h]
  rfl

/-- The script of a method call: the receiver, the name after a point, and the other operands in
parentheses. -/
theorem emit_method {n k : α} {name r : String} {target : Form α} {args : List (Form α)}
    {texts : List String} (word : IsWord name.toList) (htarget : emit target = .ok r)
    (hargs : emitAll args = .ok texts) :
    emit (.list n (.symbol k ("." ++ name) :: target :: args)) =
      .ok (receiverText target r ++ ("." ++ name) ++ "(" ++ commas texts ++ ")") := by
  have htext : ("." ++ name).toList = '.' :: name.toList := by simp
  have hhead : ∀ s : String, s.toList.head? ≠ some '.' → "." ++ name ≠ s := by
    rintro s hs rfl
    exact hs (by rw [htext]; rfl)
  have noFunction : (Form.symbol k ("." ++ name)).isSymbol Form.fnName = false := by
    rw [Form.isSymbol, beq_eq_false_iff_ne]
    exact hhead _ (by decide)
  have hop : operator? (Form.symbol k ("." ++ name)) = none := by
    rw [operator?, if_neg]
    rw [List.contains_iff_mem]
    simp only [infixOperators, List.mem_cons, List.not_mem_nil, or_false, not_or]
    exact ⟨hhead _ (by decide), hhead _ (by decide), hhead _ (by decide), hhead _ (by decide)⟩
  have hmethod : method? (Form.symbol k ("." ++ name)) = some ("." ++ name) := by
    obtain ⟨c, hc, -⟩ := word.start
    obtain ⟨cs, hname⟩ := List.head?_eq_some_iff.mp hc
    rw [method?, if_pos]
    rw [isMethodName, htext, hname]
    rfl
  rw [emit.eq_def]
  simp only [noFunction, hop, hmethod, htarget, hargs]
  rfl

/-- The script of a call: the callee, and the operands in parentheses. -/
theorem emit_call {n : α} {head : Form α} {args : List (Form α)} {c : String}
    {texts : List String} (noFunction : head.isSymbol Form.fnName = false) (plain : Plain head)
    (hhead : emit head = .ok c) (hargs : emitAll args = .ok texts) :
    emit (.list n (head :: args)) = .ok (calleeText head c ++ "(" ++ commas texts ++ ")") := by
  rw [emit.eq_def]
  simp only [noFunction, plain.operator?_eq_none, plain.method?_eq_none, hhead, hargs]
  rfl

/-- Forms that are emitted and read back one by one are so together: there is a script for each of
them, in the order of the forms. -/
theorem exists_emitAll {es : List (Form α)}
    (h : ∀ e ∈ es, ∃ text, emit e = .ok text ∧ Reads e text.toList) :
    ∃ texts, emitAll es = .ok texts ∧ List.Forall₂ (fun e t => Reads e t.toList) es texts := by
  induction es with
  | nil => exact ⟨[], rfl, .nil⟩
  | cons e es ih =>
    rw [List.forall_mem_cons] at h
    obtain ⟨⟨text, htext, reads⟩, hes⟩ := h
    obtain ⟨texts, htexts, each⟩ := ih hes
    refine ⟨text :: texts, ?_, .cons reads each⟩
    rw [emitAll, htext, htexts]
    rfl

theorem paramNames_eq_emitAll {ps : List (Form α)}
    (h : ∀ p ∈ ps, ∃ j name, p = .symbol j name ∧ IsWord name.toList) :
    paramNames ps = emitAll ps := by
  induction ps with
  | nil => rfl
  | cons p ps ih =>
    rw [List.forall_mem_cons] at h
    obtain ⟨⟨j, name, rfl, -⟩, hps⟩ := h
    rw [paramNames, emitAll, ih hps, emit]
    cases emitAll ps <;> rfl

/-! ## Reading what is emitted -/

/-- An expression in the place of a callee is read as the form, with the call that follows.
Functions are put in parentheses there, and other forms are not. -/
theorem Reads.callee {e : Form α} {text : String} (h : Reads e text.toList) {k r : List Char}
    {f : Form Unit} (chain : Chain e.shape ('(' :: k) f r) :
    Expr ((calleeText e text).toList ++ '(' :: k) f r := by
  unfold calleeText
  split
  · have htext : ("(" ++ text ++ ")").toList ++ '(' :: k =
        '(' :: (text.toList ++ ')' :: '(' :: k) := by simp
    rw [htext]
    exact h.paren chain
  · refine h ?_ chain
    rintro c ⟨⟩
    exact .inl (by simp)

/-- An expression in the place of a receiver is read as the form, with the method call that follows.
Numbers and functions are put in parentheses there. -/
theorem Reads.receiver {e : Form α} {text : String} (h : Reads e text.toList) {k r : List Char}
    {f : Form Unit} (chain : Chain e.shape ('.' :: k) f r) :
    Expr ((receiverText e text).toList ++ '.' :: k) f r := by
  have htext : ("(" ++ text ++ ")").toList ++ '.' :: k =
      '(' :: (text.toList ++ ')' :: '.' :: k) := by simp
  unfold receiverText
  split
  next =>
    rw [htext]
    exact h.paren chain
  next notNumber =>
    unfold calleeText
    split
    · rw [htext]
      exact h.paren chain
    · refine h ?_ chain
      rintro c ⟨⟩
      exact .inr ⟨rfl, notNumber⟩

theorem reads_symbol {n : α} {name : String} (word : IsWord name.toList) :
    Reads (.symbol n name) name.toList := by
  intro k r f follows chain
  have primary : Primary .name (name.toList ++ k) (.symbol () (String.ofList name.toList)) k :=
    .name word rfl follows.not_wordChar
  rw [String.ofList_toList] at primary
  exact .intro primary chain

/-- A text in quotes is read as the string, if it holds no quotes. Line ends in it are written as
they are. -/
theorem reads_string {n : α} {value : String} (quoteless : '"' ∉ value.toList) :
    Reads (.string n value) ("\"" ++ value ++ "\"").toList := by
  intro k r f _ chain
  have htext : ("\"" ++ value ++ "\"").toList ++ k = '"' :: (value.toList ++ '"' :: k) := by simp
  have primary : Primary .text ('"' :: (value.toList ++ '"' :: k))
      (.string () (String.ofList value.toList)) k := .string quoteless rfl
  rw [String.ofList_toList] at primary
  rw [htext]
  exact .intro primary chain

/-- The text of a finite number is read as the number. Infinity and what is no number have texts
that are words. -/
theorem reads_number {n : α} {x : Number} (finite : x.Finite) :
    Reads (.number n x) x.plainText.toList := by
  intro k r f follows chain
  exact .intro (.number finite rfl follows.not_numeralChar) chain

section Compounds

variable {es : List (Form α)} {texts : List String}
  (each : List.Forall₂ (fun e t => Reads e t.toList) es texts)

include each

theorem reads_vector (n : α) : Reads (.vector n es) ("[" ++ commas texts ++ "]").toList := by
  intro k r f _ chain
  have htext : ("[" ++ commas texts ++ "]").toList ++ k =
      '[' :: ((commas texts).toList ++ ']' :: k) := by simp
  rw [Form.shape_vector] at chain
  rw [htext]
  exact .intro (.vector rfl (reads_items each (ends_cons (by simp)) k)) chain

/-- The text of a function is read as its definition, with the names of its parameters and its
body. -/
theorem reads_function {ps : List (Form α)} {names : List String}
    (params : List.Forall₂ (fun p t => Reads p t.toList) ps names) (n i j : α) :
    Reads (.list n (.symbol i Form.fnName :: .vector j ps :: es))
      (functionText names texts).toList := by
  intro k r f _ chain
  have htext : (functionText names texts).toList ++ k =
      "function".toList ++ '(' :: ((commas names).toList ++ ')' ::
        (" \x7b ".toList ++ ((statements texts).toList ++ '\x7d' :: k))) := by
    simp [functionText]
  rw [Form.shape_list, List.map_cons, List.map_cons, Form.shape_vector] at chain
  rw [htext]
  exact .intro (.function rfl (reads_items params (ends_cons (by simp)) _) rfl
    (reads_body each k)) chain

/-- The operands in parentheses, with the operator between them, are read as the operation. At least
one operand has to follow the first one, or nothing would show the operator. -/
theorem reads_operation {op : String} (known : op ∈ infixOperators) {first : Form α} {t : String}
    (reads : Reads first t.toList) (hne : es ≠ []) (n i : α) :
    Reads (.list n (.symbol i op :: first :: es))
      ("(" ++ String.intercalate (" " ++ op ++ " ") (t :: texts) ++ ")").toList := by
  intro k r f _ chain
  have hsep : (" " ++ op ++ " ").toList = spaced op := by simp [spaced]
  have htext : ("(" ++ String.intercalate (" " ++ op ++ " ") (t :: texts) ++ ")").toList ++ k =
      '(' :: (t.toList ++ ((texts.flatMap fun t => spaced op ++ t.toList) ++ ')' :: k)) := by
    rw [String.toList_append, String.toList_append, toList_intercalate_cons, hsep]
    simp
  have hclose : ∀ cs, Ends (')' :: cs) := ends_cons (by simp)
  have more := reads_more each (ends_spaced op) hclose k
  obtain ⟨second, rest, rfl⟩ := List.exists_cons_of_ne_nil hne
  rw [Form.shape_list, List.map_cons, List.map_cons] at chain
  rw [htext]
  exact .intro (.operation rfl (reads.expr (ends_more (ends_spaced op) hclose texts k)) known
    more) chain

/-- The text of a method call is read as the list that starts with the method. What is called comes
first in the text and second in the list. -/
theorem reads_method {name : String} (word : IsWord name.toList) {target : Form α} {t : String}
    (reads : Reads target t.toList) (n i : α) :
    Reads (.list n (.symbol i ("." ++ name) :: target :: es))
      (receiverText target t ++ ("." ++ name) ++ "(" ++ commas texts ++ ")").toList := by
  intro k r f _ chain
  have htext : (receiverText target t ++ ("." ++ name) ++ "(" ++ commas texts ++ ")").toList ++ k =
      (receiverText target t).toList ++
        '.' :: (name.toList ++ '(' :: ((commas texts).toList ++ ')' :: k)) := by simp
  have hname : "." ++ name = String.ofList ('.' :: name.toList) := by
    rw [← String.toList_inj]
    simp
  rw [Form.shape_list, List.map_cons, List.map_cons, hname] at chain
  rw [htext]
  exact reads.receiver (.method word rfl (reads_items each (ends_cons (by simp)) k) chain)

/-- The text of a call is read as the list that starts with the callee. -/
theorem reads_call {head : Form α} {t : String} (reads : Reads head t.toList) (n : α) :
    Reads (.list n (head :: es)) (calleeText head t ++ "(" ++ commas texts ++ ")").toList := by
  intro k r f _ chain
  have htext : (calleeText head t ++ "(" ++ commas texts ++ ")").toList ++ k =
      (calleeText head t).toList ++ '(' :: ((commas texts).toList ++ ')' :: k) := by simp
  rw [Form.shape_list, List.map_cons] at chain
  rw [htext]
  exact reads.callee (.call rfl (reads_items each (ends_cons (by simp)) k) chain)

end Compounds

/-- A plain form is emitted, and its script is read as the form. The induction is over the ways in
which a form is plain, with a lemma above for each. -/
theorem Plain.exists_emit {e : Form α} (h : Plain e) :
    ∃ text, emit e = .ok text ∧ Reads e text.toList := by
  induction h with
  | symbol word => exact ⟨_, rfl, reads_symbol word⟩
  | string quoteless => exact ⟨_, rfl, reads_string quoteless⟩
  | number finite => exact ⟨_, rfl, reads_number finite⟩
  | @vector n es _ ih =>
    obtain ⟨texts, htexts, each⟩ := exists_emitAll ih
    have hemit : emit (.vector n es) = .ok ("[" ++ commas texts ++ "]") := by
      rw [emit, htexts]
      rfl
    exact ⟨_, hemit, reads_vector each n⟩
  | @function n i j ps body params _ ih =>
    have hparams : ∀ p ∈ ps, ∃ text, emit p = .ok text ∧ Reads p text.toList := by
      intro p hp
      obtain ⟨_, name, rfl, word⟩ := params p hp
      exact ⟨name, rfl, reads_symbol word⟩
    obtain ⟨lines, hlines, each⟩ := exists_emitAll ih
    obtain ⟨names, hnames, eachName⟩ := exists_emitAll hparams
    rw [← paramNames_eq_emitAll params] at hnames
    exact ⟨_, emit_function hnames hlines, reads_function each eachName n i j⟩
  | @operation n i op first second rest known _ ih =>
    obtain ⟨texts, htexts, each⟩ := exists_emitAll ih
    refine ⟨_, emit_operation known htexts, ?_⟩
    cases each with
    | cons reads more => exact reads_operation more known reads (by simp) n i
  | @method n i name target args word _ _ ihr ih =>
    obtain ⟨t, ht, reads⟩ := ihr
    obtain ⟨texts, htexts, each⟩ := exists_emitAll ih
    exact ⟨_, emit_method word ht htexts, reads_method each word reads n i⟩
  | @call n head args noFunction callee _ ihc ih =>
    obtain ⟨t, ht, reads⟩ := ihc
    obtain ⟨texts, htexts, each⟩ := exists_emitAll ih
    exact ⟨_, emit_call noFunction callee ht htexts, reads_call each reads n⟩

/-- **The script determines the form.** Every plain form is emitted, and two plain forms have the
same script exactly if they are the same up to their notes. -/
theorem emit_eq_iff {e : Form α} {f : Form β} (he : Plain e) (hf : Plain f) :
    (∃ text, emit e = .ok text) ∧ (emit e = emit f ↔ e.shape = f.shape) := by
  obtain ⟨text, htext, reads⟩ := he.exists_emit
  obtain ⟨text', htext', reads'⟩ := hf.exists_emit
  refine ⟨⟨text, htext⟩, ?_, ?_⟩
  · intro h
    have hsame : text = text' := Except.ok.inj (htext.symm.trans (h.trans htext'))
    subst hsame
    have ends : Ends [] := by rintro c ⟨⟩
    exact ((reads.expr ends).unique (reads'.expr ends)).1
  · intro h
    have hshape := congrArg emit h
    rwa [Form.shape, Form.shape, emit_map, emit_map] at hshape

/-- A function with two statements, called by a method, whose last operand is an integer or a float
of the same value. -/
theorem emit_eq_iff_lookalikes :
    let form (x : Number) : Form Note := .list {} [.symbol {} ("." ++ "map1"), .list {}
      [.symbol {} "fn", .vector {} [.symbol {} "x"], .list {} [.symbol {} "f", .string {} "(,"],
        .list {} [.symbol {} "+", .symbol {} "x", .number {} x]], .vector {} []]
    Plain (form (.int 0)) ∧ Plain (form (.float (.zero false))) ∧
      (∃ text, emit (form (.int 0)) = .ok text) ∧
      emit (form (.int 0)) ≠ emit (form (.float (.zero false))) := by
  intro form
  have word {name : String} (start : ∃ c ∈ name.toList.head?, c.isAlpha = true)
      (chars : name.toList.all Char.isAlphanum = true) (noFunction : name ≠ "function")
      (noReturn : name ≠ "return") : IsWord name.toList :=
    isWord_of_alphanum start (List.all_eq_true.mp chars) noFunction noReturn
  have plain : ∀ x : Number, x.Finite → Plain (form x) := by
    intro x finite
    have wordX : IsWord "x".toList := word ⟨'x', rfl, rfl⟩ rfl (by decide) (by decide)
    have callee : Plain (.symbol {} "f" : Form Note) :=
      .symbol (word ⟨'f', rfl, rfl⟩ rfl (by decide) (by decide))
    refine .method (word ⟨'m', rfl, rfl⟩ rfl (by decide) (by decide)) (.function ?_ ?_) ?_
    · exact List.forall_mem_singleton.mpr ⟨{}, "x", rfl, wordX⟩
    · refine List.forall_mem_cons.mpr ⟨?_, List.forall_mem_singleton.mpr ?_⟩
      · exact .call rfl callee (List.forall_mem_singleton.mpr (.string (by decide)))
      · exact .operation (by decide) (List.forall_mem_cons.mpr
          ⟨.symbol wordX, List.forall_mem_singleton.mpr (.number finite)⟩)
    · exact List.forall_mem_singleton.mpr (.vector nofun)
  have plainInt : Plain (form (.int 0)) := plain _ (.int 0)
  have plainFloat : Plain (form (.float (.zero false))) := plain _ (.float false _)
  obtain ⟨emitted, same⟩ := emit_eq_iff plainInt plainFloat
  refine ⟨plainInt, plainFloat, emitted, fun h => ?_⟩
  have hshape := same.mp h
  simp [form, Form.shape, Form.map] at hshape

end Script

end TypedSexp
