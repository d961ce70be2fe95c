import TypedSexp.Proofs.Token.Layout

/-!
# Joined sources

A newline ends words and comments, so a source that was lexed to its end is lexed the same
before a newline (`Lexer.scan_append_newline`): its layout is a layout of the longer text.
What follows the newline is lexed like a source of its own, with all places moved
(`Lexer.scan_add`).

The first source has to be lexed to its end. Sources with a fault before the newline are left out,
and so is joining without one.
-/

namespace TypedSexp

/-! ## Places moved -/

/-- The token moved by a number of characters. -/
def Token.shift (k : Nat) (t : Token) : Token := { t with span := t.span.shift k }

/-- The fault moved by a number of characters. -/
def LexFault.shift (k : Nat) : LexFault → LexFault
  | .unrecognized c offset => .unrecognized c (offset + k)
  | .malformedNumber word s => .malformedNumber word (s.shift k)

/-- The result moved by a number of characters. -/
def Lexed.shift (k : Nat) (l : Lexed) : Lexed :=
  ⟨l.tokens.map (Token.shift k), l.fault.map (LexFault.shift k)⟩

namespace Lexer

/-- The place of some characters further on is the moved place. -/
theorem shift_span (k pos length : Nat) :
    Span.shift k ⟨pos, pos + length⟩ = ⟨(pos + k : Nat), (pos + k : Nat) + length⟩ := by
  simp only [Span.shift, Span.mk.injEq]
  omega

theorem shift_emit (k pos : Nat) (l : Lexeme) (length : Nat) (more : Lexed) :
    (scan.emit pos l length more).shift k = scan.emit (pos + k) l length (more.shift k) := by
  simp only [scan.emit, Lexed.shift, List.map_cons, Token.shift, shift_span]

/-- A fault is the same one further on, at the moved place. -/
theorem FaultAt.shift {pos : Nat} {cs : List Char} {e : LexFault} (h : FaultAt pos cs e) (k : Nat) :
    FaultAt (pos + k) cs (e.shift k) := by
  cases h with
  | unrecognized h => exact .unrecognized h
  | malformed h =>
    rw [LexFault.shift, shift_span]
    exact .malformed h

/-- A text further on is lexed the same, with all places moved. The induction goes along the
scan. -/
theorem scan_add (k pos : Nat) (cs : List Char) : scan (pos + k) cs = (scan pos cs).shift k := by
  refine scan_ind (motive := fun pos cs r => scan (pos + k) cs = r.shift k)
    ?nothing ?fault ?blank ?comment ?lexeme pos cs
  case nothing =>
    intro pos
    rw [scan]
    rfl
  case fault =>
    intro pos cs e h
    exact (h.shift k).scan_eq
  case blank =>
    intro pos c rest r h ih
    rw [scan_blank h, Nat.add_right_comm, ih]
  case comment =>
    intro pos body rest r oneLine ends ih
    rw [scan_comment oneLine ends, Nat.add_right_comm pos k, Nat.add_right_comm (pos + 1) k, ih]
  case lexeme =>
    intro pos x word rest r h stop ih
    rw [h.scan_eq stop, Nat.add_right_comm, ih, shift_emit]

/-! ## A source before a newline -/

/-- A comment that ends with the text ends with the line as well, once a newline follows. -/
theorem EndsLine.append_newline {cs : List Char} (h : EndsLine (cs ++ [])) (rest : List Char) :
    EndsLine (cs ++ '\n' :: rest) := by
  rw [List.append_nil] at h
  cases cs with
  | nil =>
    rintro c ⟨⟩
    rfl
  | cons c cs => exact h

/-- A gap at the end of a text is one before a newline. -/
theorem Gap.append_newline {gap after : List Char} (h : Gap (after ++ []) gap) (rest : List Char) :
    Gap (after ++ '\n' :: rest) gap := by
  induction h with
  | nil => exact .nil
  | blank isBlank _ ih => exact .blank isBlank ih
  | comment oneLine ends _ ih =>
    rw [← List.append_assoc] at ends
    have ends' := ends.append_newline rest
    rw [List.append_assoc] at ends'
    exact .comment oneLine ends' ih

/-- A layout of a whole text is one of the text before a newline. -/
def Layout.appendNewline {text : List Char} (l : Layout text []) (rest : List Char) :
    Layout text ('\n' :: rest) :=
  { l with
    leadGap := l.leadGap.append_newline rest
    gaps := fun s more h => (l.gaps s more h).append_newline rest }

/-- A text that is lexed to its end is lexed the same before a newline, and what follows as if it
stood alone. Without the newline a word or a comment at the end might go on. -/
theorem scan_append_newline {cs : List Char} (h : (scan 0 cs).fault = none) (rest : List Char) :
    scan 0 (cs ++ '\n' :: rest) =
      ((scan 0 rest).shift (cs.length + 1)).prepend (scan 0 cs).tokens := by
  obtain ⟨text, after, l, hcs, -, htokens, hafter⟩ := laidOut_scan 0 cs
  obtain rfl := hafter h
  rw [List.append_nil] at hcs
  subst hcs
  have hstops : (l.appendNewline rest).Stops := by
    rintro s - - - c ⟨⟩
    rfl
  have hrest := scan_add (cs.length + 1) 0 rest
  rw [Nat.zero_add] at hrest
  rw [(l.appendNewline rest).scan_eq hstops 0, scan_blank rfl, htokens, Nat.zero_add, hrest]
  rfl

end Lexer

end TypedSexp
