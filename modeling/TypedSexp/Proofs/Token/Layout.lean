import Mathlib.Data.List.Chain
import TypedSexp.Proofs.Token.Spelling

/-!
# Layouts

A source is lexemes in their spellings with gaps before, between and after them. A gap is
any number of blanks and comments, and two words that follow each other need one that is
not empty. A layout of a text is such a division of it (`Lexer.Layout`), and it gives
tokens: every lexeme with the place at which its spelling stands.

Lexing finds exactly the layouts. A text that has one is lexed to its tokens
(`Lexer.Layout.scan_eq`), as every gap is passed over and every spelling is taken as a
whole: a word because nothing that goes on with it may follow. What was lexed of a text
has a layout (`Lexer.laidOut_scan`), built back to front along the scan (`Lexer.scan_ind`).

Both are stated for a text before another one, `after`, since a comment in the last gap
ends with the line and not with the text.

A source may have several layouts, as a gap is blanks and comments and nothing tells how it was
meant; their tokens are the same. Numbers may have any number of digits. The limit that a machine
may set on them, commonly 4300 digits, is left out.
-/

namespace TypedSexp

/-- A result after more tokens. -/
def Lexed.prepend (ts : List Token) (more : Lexed) : Lexed :=
  { more with tokens := ts ++ more.tokens }

namespace Lexer

/-- Where a comment ends: before a newline, or where nothing follows. -/
def EndsLine (cs : List Char) : Prop := ∀ c ∈ cs.head?, c = '\n'

/-- Blanks and comments before a text. -/
inductive Gap (after : List Char) : List Char → Prop
  | nil : Gap after []
  | blank {c : Char} {gap : List Char} (isBlank : Text.isBlank c = true) (rest : Gap after gap) :
      Gap after (c :: gap)
  | comment {body gap : List Char} (oneLine : '\n' ∉ body) (ends : EndsLine (gap ++ after))
      (rest : Gap after gap) : Gap after (';' :: (body ++ gap))

/-- A lexeme in one of its spellings, and the gap after it. -/
structure Segment where
  lexeme : Lexeme
  text : List Char
  gap : List Char

/-- The characters of a segment. -/
def Segment.chars (s : Segment) : List Char := s.text ++ s.gap

/-- The tokens of segments, of which the first starts at offset `pos`. -/
def tokensFrom (pos : Nat) : List Segment → List Token
  | [] => []
  | s :: rest =>
    ⟨s.lexeme, ⟨pos, pos + s.text.length⟩⟩ :: tokensFrom (pos + s.chars.length) rest

/-- A division of a text, before another one, into lexemes and gaps. -/
structure Layout (text after : List Char) where
  /-- The gap before the first lexeme. -/
  lead : List Char
  segments : List Segment
  text_eq : text = lead ++ segments.flatMap Segment.chars
  spelled : ∀ s ∈ segments, Spells s.lexeme s.text
  leadGap : Gap (segments.flatMap Segment.chars ++ after) lead
  gaps : ∀ s rest, s :: rest <:+ segments → Gap (rest.flatMap Segment.chars ++ after) s.gap
  /-- Words that follow each other are told apart by the gap between them. -/
  apart : segments.IsChain fun s t =>
    s.lexeme.isWord = true → t.lexeme.isWord = true → s.gap ≠ []

namespace Layout

variable {text after : List Char}

/-- The tokens of a layout of a text that starts at offset `pos`. -/
def tokens (pos : Nat) (l : Layout text after) : List Token :=
  tokensFrom (pos + l.lead.length) l.segments

/-- What follows the first lexeme of a layout has a layout. -/
def tail (l : Layout text after) {s : Segment} {rest : List Segment}
    (h : l.segments = s :: rest) : Layout (s.gap ++ rest.flatMap Segment.chars) after where
  lead := s.gap
  segments := rest
  text_eq := rfl
  spelled t ht := l.spelled t (h ▸ List.mem_cons_of_mem s ht)
  leadGap := l.gaps s rest (h ▸ List.suffix_rfl)
  gaps t more ht := l.gaps t more (h ▸ ht.trans (List.suffix_cons s rest))
  apart := by
    have := l.apart
    rw [h] at this
    exact this.tail

end Layout

/-! ## Scanning a layout -/

theorem scan_blank {c : Char} (h : Text.isBlank c = true) (pos : Nat) (rest : List Char) :
    scan pos (c :: rest) = scan (pos + 1) rest := by
  have hnone : delimiter? c = none := by
    rw [Option.eq_none_iff_forall_ne_some]
    intro l hl
    obtain ⟨d, ⟨rfl, -⟩ | ⟨rfl, -⟩⟩ := delimiter?_eq_some_iff.mp hl
    all_goals cases d <;> cases h
  rw [scan, hnone]
  simp [h]

/-- A comment is passed over up to the end of its line. -/
theorem scan_comment {body rest : List Char} (oneLine : '\n' ∉ body) (ends : EndsLine rest)
    (pos : Nat) : scan pos (';' :: (body ++ rest)) = scan (pos + 1 + body.length) rest := by
  have inside : ∀ c ∈ body, decide (c ≠ '\n') = true := by
    intro c hc
    simpa using fun heq : c = '\n' => oneLine (heq ▸ hc)
  have stop : ∀ c ∈ rest.head?, decide (c ≠ '\n') = false := by
    intro c hc
    simpa using ends c hc
  rw [scan]
  simp only [delimiter?, takeWhile_run inside stop, dropWhile_run inside stop]
  rfl

/-- A gap is passed over, whatever it is made of, and lexing goes on after it. The induction is over
the blanks and comments of the gap. -/
theorem Gap.scan_eq {after gap : List Char} (h : Gap after gap) :
    ∀ pos, scan pos (gap ++ after) = scan (pos + gap.length) after := by
  induction h with
  | nil => exact fun _ => rfl
  | @blank c gap isBlank rest ih =>
    intro pos
    rw [List.cons_append, scan_blank isBlank, ih, List.length_cons]
    congr 1
    omega
  | @comment body gap oneLine ends rest ih =>
    intro pos
    rw [List.cons_append, List.append_assoc, scan_comment oneLine ends, ih, List.length_cons,
      List.length_append]
    congr 1
    omega

theorem scan_delimiter {c : Char} {l : Lexeme} (h : delimiter? c = some l) (pos : Nat)
    (rest : List Char) : scan pos (c :: rest) = scan.emit pos l 1 (scan (pos + 1) rest) := by
  rw [scan, h]

/-- A string goes from one quote to the next, with whatever stands between them. Line ends and
semicolons in it count for nothing. -/
theorem scan_string {body : List Char} (quoteless : '"' ∉ body) (pos : Nat) (rest : List Char) :
    scan pos ('"' :: (body ++ '"' :: rest)) =
      scan.emit pos (.string (String.ofList body)) (body.length + 2)
        (scan (pos + (body.length + 2)) rest) := by
  have inside : ∀ c ∈ body, decide (c ≠ '"') = true := by
    intro c hc
    simpa using fun heq : c = '"' => quoteless (heq ▸ hc)
  have stop : ∀ c ∈ ('"' :: rest).head?, decide (c ≠ '"') = false := by
    rintro c ⟨⟩
    rfl
  have hdelimiter : delimiter? '"' = none := rfl
  have hblank : Text.isBlank '"' = false := rfl
  have hcomment : '"' ≠ ';' := by decide
  rw [scan]
  simp only [hdelimiter, hblank, hcomment, takeWhile_run inside stop, if_true, if_false,
    Bool.false_eq_true]
  split
  next heq =>
    rw [dropWhile_run inside stop] at heq
    cases heq
  next heq =>
    rw [dropWhile_run inside stop] at heq
    cases heq
    rfl

/-- A word is one token up to where it stops. It is not cut before that, so two words need something
between them. -/
theorem scan_word {word rest : List Char} {l : Lexeme} (h : Spells l word)
    (hword : l.isWord = true) (stop : ∀ c ∈ rest.head?, isWordChar c = false) (pos : Nat) :
    scan pos (word ++ rest) = scan.emit pos l word.length (scan (pos + word.length) rest) := by
  obtain ⟨hne, hchars⟩ := h.wordChars hword
  have hlexeme := (word?_eq_some_iff hchars).mpr ⟨h, hword⟩
  obtain ⟨c, cs, rfl⟩ := List.exists_cons_of_ne_nil hne
  obtain ⟨hc, hcs⟩ := List.forall_mem_cons.mp hchars
  obtain ⟨hdelimiter, hblank, hcomment, hquote⟩ := isWordChar_excludes hc
  rw [List.cons_append, scan]
  simp only [hdelimiter, hblank, hcomment, hquote, hc, takeWhile_run hcs stop,
    dropWhile_run hcs stop, hlexeme, if_true, if_false, Bool.false_eq_true]

/-- A lexeme is taken as a whole, if nothing follows that would go on with a word. After a delimiter
or a string anything may follow. -/
theorem Spells.scan_eq {l : Lexeme} {text rest : List Char} (h : Spells l text)
    (stop : l.isWord = true → ∀ c ∈ rest.head?, isWordChar c = false) (pos : Nat) :
    scan pos (text ++ rest) = scan.emit pos l text.length (scan (pos + text.length) rest) := by
  cases hword : l.isWord with
  | true => exact scan_word h hword (stop hword) pos
  | false =>
    cases h with
    | opener d => exact scan_delimiter (delimiter?_opening d) pos rest
    | closer d => exact scan_delimiter (delimiter?_closing d) pos rest
    | string quoteless =>
      rw [List.cons_append, List.append_assoc, List.singleton_append, scan_string quoteless]
      simp
    | ident name => cases hword
    | integer digits => cases hword
    | float digits places reads => cases hword

/-! ## Where a word stops -/

/-- A blank is no character of words, so it ends a word. -/
theorem isBlank_not_wordChar {c : Char} (h : Text.isBlank c = true) : isWordChar c = false := by
  by_contra hc
  have hblank := (isWordChar_excludes (Bool.eq_true_of_not_eq_false hc)).2.1
  rw [h] at hblank
  cases hblank

/-- A gap does not go on with a word. -/
theorem Gap.head_not_wordChar {after gap : List Char} (h : Gap after gap) :
    ∀ c ∈ gap.head?, isWordChar c = false := by
  cases h with
  | nil => simp
  | blank isBlank rest =>
    rintro c ⟨⟩
    exact isBlank_not_wordChar isBlank
  | comment oneLine ends rest =>
    rintro c ⟨⟩
    rfl

/-- Neither does a lexeme that is no word. -/
theorem Spells.head_not_wordChar {l : Lexeme} {text : List Char} (h : Spells l text)
    (hword : l.isWord = false) : text ≠ [] ∧ ∀ c ∈ text.head?, isWordChar c = false := by
  cases h with
  | opener d => exact ⟨by simp, by rintro c ⟨⟩; cases d <;> rfl⟩
  | closer d => exact ⟨by simp, by rintro c ⟨⟩; cases d <;> rfl⟩
  | string quoteless => exact ⟨by simp, by rintro c ⟨⟩; rfl⟩
  | ident name => cases hword
  | integer digits => cases hword
  | float digits places reads => cases hword

namespace Layout

variable {text after : List Char}

/-- What stands after the layout goes on with no word at its end. -/
def Stops (l : Layout text after) : Prop :=
  ∀ s ∈ l.segments.getLast?, s.lexeme.isWord = true → s.gap = [] →
    ∀ c ∈ after.head?, isWordChar c = false

/-- Nothing in a layout goes on with its first lexeme: a gap does not, and a lexeme without a gap
before it is no word or follows none. -/
theorem stop_head (l : Layout text after) (hl : l.Stops) {s : Segment} {rest : List Segment}
    (h : l.segments = s :: rest) (hword : s.lexeme.isWord = true) :
    ∀ c ∈ (s.gap ++ (rest.flatMap Segment.chars ++ after)).head?, isWordChar c = false := by
  have hgap := (l.gaps s rest (h ▸ List.suffix_rfl)).head_not_wordChar
  by_cases hempty : s.gap = []
  · rw [hempty, List.nil_append]
    cases rest with
    | nil => exact hl s (by simp [h]) hword hempty
    | cons t rest =>
      have hapart := l.apart
      rw [h] at hapart
      have ht : t.lexeme.isWord = false := by
        by_contra hword'
        have hword' := Bool.eq_true_of_not_eq_false hword'
        exact (List.isChain_cons_cons.mp hapart).1 hword hword' hempty
      obtain ⟨hne, hhead⟩ := (l.spelled t (by simp [h])).head_not_wordChar ht
      rw [List.flatMap_cons, Segment.chars, List.append_assoc, List.append_assoc,
        List.head?_append_of_ne_nil _ hne]
      exact hhead
  · rw [List.head?_append_of_ne_nil _ hempty]
    exact hgap

/-- Without its first segment a layout still stops before what follows. -/
theorem Stops.tail {l : Layout text after} (hl : l.Stops) {s : Segment} {rest : List Segment}
    (h : l.segments = s :: rest) : (l.tail h).Stops := by
  intro t ht
  refine hl t ?_
  rw [h]
  cases rest with
  | nil => cases ht
  | cons u rest => exact ht

theorem scan_lead (l : Layout text after) (pos : Nat) : scan pos (text ++ after) =
    scan (pos + l.lead.length) (l.segments.flatMap Segment.chars ++ after) := by
  rw [← l.leadGap.scan_eq pos, ← List.append_assoc, ← l.text_eq]

/-- A text is as long as the gap at its start and its segments are. -/
theorem length_text (l : Layout text after) :
    text.length = l.lead.length + (l.segments.flatMap Segment.chars).length :=
  (congrArg List.length l.text_eq).trans List.length_append

/-- A text with a layout is lexed to the tokens of the layout, and then what follows is lexed. The
induction is over the segments. -/
theorem scan_eq (l : Layout text after) (hl : l.Stops) (pos : Nat) :
    scan pos (text ++ after) = (scan (pos + text.length) after).prepend (l.tokens pos) := by
  -- The induction is on the lexemes; the gap after the first is the lead of what follows it.
  obtain ⟨segments, h⟩ : ∃ segments, l.segments = segments := ⟨_, rfl⟩
  induction segments generalizing text pos with
  | nil =>
    rw [l.scan_lead, l.length_text, tokens, h]
    rfl
  | cons s rest ih =>
    have hlexeme := (l.spelled s (h ▸ List.mem_cons_self)).scan_eq (l.stop_head hl h)
    have hrest := ih (l.tail h) (hl.tail h) (pos + l.lead.length + s.text.length) rfl
    rw [List.append_assoc] at hrest
    rw [l.scan_lead, l.length_text, tokens, h, List.flatMap_cons, Segment.chars, List.append_assoc,
      List.append_assoc, hlexeme, hrest]
    simp [scan.emit, Lexed.prepend, tokensFrom, tokens, tail, Segment.chars, Nat.add_assoc]

end Layout

/-! ## What was scanned

Lexing takes a blank, a comment or a lexeme, or it stops at a fault. -/

/-- No lexeme starts with the character. A quote starts one unless it is the last quote. -/
structure StartsNothing (c : Char) (rest : List Char) : Prop where
  bracket : ∀ d : Delimiter, c ≠ d.opening ∧ c ≠ d.closing
  blank : Text.isBlank c = false
  comment : c ≠ ';'
  name : ¬IsNameChar c
  quote : c = '"' → '"' ∉ rest

/-- A run of characters of names, as long as it can be to both sides, that starts with a digit and
is neither digits nor digits with a fraction. -/
structure MalformedNumber (before word rest : List Char) : Prop where
  start : ∃ c ∈ word.head?, c.isDigit = true
  chars : ∀ c ∈ word, IsNameChar c
  first : ∀ c ∈ before.getLast?, ¬IsNameChar c
  last : ∀ c ∈ rest.head?, ¬IsNameChar c
  noInteger : ¬IsDigits word
  noFloat : ∀ whole fraction, IsDigits whole → IsDigits fraction →
    word ≠ whole ++ '.' :: fraction

/-- The fault that lexing meets right at the start of a text at an offset. -/
inductive FaultAt (pos : Nat) : List Char → LexFault → Prop
  | unrecognized {c : Char} {rest : List Char} (h : StartsNothing c rest) :
      FaultAt pos (c :: rest) (.unrecognized c pos)
  | malformed {word rest : List Char} (h : MalformedNumber [] word rest) :
      FaultAt pos (word ++ rest)
        (.malformedNumber (String.ofList word) ⟨pos, pos + word.length⟩)

/-- A character that starts no lexeme is a fault, after which nothing is lexed. An opening quote
that no other quote follows is such a character. -/
theorem StartsNothing.scan_eq {c : Char} {rest : List Char} (h : StartsNothing c rest) (pos : Nat) :
    scan pos (c :: rest) = { tokens := [], fault := some (.unrecognized c pos) } := by
  have hdelimiter : delimiter? c = none := by
    rw [Option.eq_none_iff_forall_ne_some]
    intro l hl
    obtain ⟨d, ⟨hc, -⟩ | ⟨hc, -⟩⟩ := delimiter?_eq_some_iff.mp hl
    · exact (h.bracket d).1 hc
    · exact (h.bracket d).2 hc
  have hname := not_isNameChar_iff.mp h.name
  rw [scan]
  simp only [hdelimiter, h.blank, h.comment, hname, if_false, Bool.false_eq_true]
  split
  next hquote =>
    split
    next => rfl
    next heq =>
      -- A quote after this one would be the end of a string.
      have hmem : '"' ∈ rest := by
        have hhead := head?_dropWhile (· ≠ '"') rest _ (by rw [heq]; rfl)
        obtain rfl : _ = '"' := by simpa using hhead
        exact (List.dropWhile_suffix _).subset (heq ▸ List.mem_cons_self)
      exact (h.quote hquote hmem).elim
  next => rfl

/-- A run of characters of names that starts with a digit and is no number is a fault, after which
nothing is lexed. The fault names the whole run. -/
theorem MalformedNumber.scan_eq {before word rest : List Char}
    (h : MalformedNumber before word rest) (pos : Nat) :
    scan pos (word ++ rest) =
      { tokens := []
        fault := some (.malformedNumber (String.ofList word) ⟨pos, pos + word.length⟩) } := by
  obtain ⟨c, hc, hdigit⟩ := h.start
  obtain ⟨cs, rfl⟩ := List.head?_eq_some_iff.mp hc
  have hchars : ∀ d ∈ c :: cs, isWordChar d = true := fun d hd => isWordChar_iff.mpr (h.chars d hd)
  have stop : ∀ d ∈ rest.head?, isWordChar d = false :=
    fun d hd => not_isNameChar_iff.mp (h.last d hd)
  have hword : word? (c :: cs) = none :=
    word?_eq_none_iff.mpr ⟨hdigit, number?_eq_none_iff.mpr ⟨h.noInteger, h.noFloat⟩⟩
  obtain ⟨hc, hcs⟩ := List.forall_mem_cons.mp hchars
  obtain ⟨hdelimiter, hblank, hcomment, hquote⟩ := isWordChar_excludes hc
  rw [List.cons_append, scan]
  simp only [hdelimiter, hblank, hcomment, hquote, hc, takeWhile_run hcs stop, hword, if_true,
    if_false, Bool.false_eq_true]

/-- Where a fault is met there are no tokens but the fault. -/
theorem FaultAt.scan_eq {pos : Nat} {cs : List Char} {e : LexFault} (h : FaultAt pos cs e) :
    scan pos cs = { tokens := [], fault := some e } := by
  cases h with
  | unrecognized h => exact h.scan_eq pos
  | malformed h => exact h.scan_eq pos

section Induction

variable {motive : Nat → List Char → Lexed → Prop} (nil : ∀ pos, motive pos [] { tokens := [] })
  (fault : ∀ {pos cs e}, FaultAt pos cs e → motive pos cs { tokens := [], fault := some e })
  (blank : ∀ {pos c rest r}, Text.isBlank c = true → motive (pos + 1) rest r →
    motive pos (c :: rest) r)
  (comment : ∀ {pos body rest r}, '\n' ∉ body → EndsLine rest →
    motive (pos + 1 + body.length) rest r → motive pos (';' :: (body ++ rest)) r)
  (lexeme : ∀ {pos x word rest r}, Spells x word →
    (x.isWord = true → ∀ c ∈ rest.head?, isWordChar c = false) →
    motive (pos + word.length) rest r → motive pos (word ++ rest) (scan.emit pos x word.length r))

include nil fault blank comment lexeme in
/-- Induction along a scan, one case for each thing that is taken and one for the faults. The lexer
itself is not opened anywhere else. -/
theorem scan_ind (pos : Nat) (cs : List Char) : motive pos cs (scan pos cs) := by
  fun_induction scan pos cs with
  | case1 pos => exact nil pos
  | case2 pos c rest l hdelimiter ih =>
    obtain ⟨d, ⟨rfl, rfl⟩ | ⟨rfl, rfl⟩⟩ := delimiter?_eq_some_iff.mp hdelimiter
    · exact lexeme (.opener d) (by rintro ⟨⟩) ih
    · exact lexeme (.closer d) (by rintro ⟨⟩) ih
  | case3 pos c rest _ hblank ih => exact blank hblank ih
  | case4 pos rest _ _ ih =>
    have oneLine : '\n' ∉ rest.takeWhile (· ≠ '\n') := fun h => by
      simpa using List.mem_takeWhile_imp h
    have ends : EndsLine (rest.dropWhile (· ≠ '\n')) := fun c hc => by
      simpa using head?_dropWhile _ rest c hc
    have := comment oneLine ends ih
    rwa [List.takeWhile_append_dropWhile] at this
  | case5 pos rest hend hdelimiter hblank hcomment =>
    refine fault (.unrecognized ⟨?_, rfl, hcomment, not_isNameChar_iff.mpr rfl, fun _ hmem => ?_⟩)
    · rintro (_ | _) <;> decide
    · have := List.dropWhile_eq_nil_iff.mp hend _ hmem
      simp at this
  | case6 pos rest body quote after hafter _ _ _ ih =>
    -- The text up to the next quote is the body, and what was found after it is that quote.
    have quoteless : '"' ∉ body := fun h => by simpa using List.mem_takeWhile_imp h
    have hquote : quote = '"' := by
      simpa using head?_dropWhile (· ≠ '"') rest quote (by rw [hafter]; rfl)
    have hrest : rest = body ++ '"' :: after := by
      rw [← hquote, ← hafter, List.takeWhile_append_dropWhile]
    have hlength : ('"' :: (body ++ ['"'])).length = body.length + 2 := by simp
    have := lexeme (.string quoteless) (by rintro ⟨⟩) (hlength ▸ ih)
    rw [hlength] at this
    simpa [hrest] using this
  | case7 pos c rest _ _ _ _ hc word l hl ih =>
    have hchars : ∀ c ∈ word, isWordChar c = true :=
      List.forall_mem_cons.mpr ⟨hc, fun c hc => List.mem_takeWhile_imp hc⟩
    have := lexeme ((word?_eq_some_iff hchars).mp hl).1
      (fun _ => head?_dropWhile isWordChar rest) ih
    rwa [List.cons_append, List.takeWhile_append_dropWhile] at this
  | case8 pos c rest _ _ _ _ hc word hl =>
    have hchars : ∀ c ∈ word, isWordChar c = true :=
      List.forall_mem_cons.mpr ⟨hc, fun c hc => List.mem_takeWhile_imp hc⟩
    obtain ⟨hdigit, hnumber⟩ := word?_eq_none_iff.mp hl
    obtain ⟨noInteger, noFloat⟩ := number?_eq_none_iff.mp hnumber
    have malformed : MalformedNumber [] word (rest.dropWhile isWordChar) :=
      { start := ⟨c, rfl, hdigit⟩
        chars := fun d hd => isWordChar_iff.mp (hchars d hd)
        first := nofun
        last := fun d hd => not_isNameChar_iff.mpr (head?_dropWhile isWordChar rest d hd)
        noInteger := noInteger
        noFloat := noFloat }
    have hfault : FaultAt pos (word ++ rest.dropWhile isWordChar) _ := .malformed malformed
    have := fault hfault
    rwa [List.cons_append, List.takeWhile_append_dropWhile] at this
  | case9 pos c rest hdelimiter hblank hcomment hquote hc =>
    refine fault (.unrecognized ⟨fun d => ⟨?_, ?_⟩, Bool.eq_false_of_not_eq_true hblank, hcomment,
      not_isNameChar_iff.mpr (Bool.eq_false_of_not_eq_true hc), fun heq => (hquote heq).elim⟩)
    · rintro rfl
      simp at hdelimiter
    · rintro rfl
      simp at hdelimiter

end Induction

/-! ## The layout of what was scanned

A layout grows at its front, by a blank, a comment or a lexeme. -/

namespace Layout

variable {text after : List Char}

def empty (after : List Char) : Layout [] after where
  lead := []
  segments := []
  text_eq := rfl
  spelled := by simp
  leadGap := .nil
  gaps := by simp
  apart := .nil

def blank (l : Layout text after) {c : Char} (h : Text.isBlank c = true) :
    Layout (c :: text) after :=
  { l with
    lead := c :: l.lead
    text_eq := congrArg (c :: ·) l.text_eq
    leadGap := .blank h l.leadGap }

def comment (l : Layout text after) {body : List Char} (oneLine : '\n' ∉ body)
    (ends : EndsLine (text ++ after)) : Layout (';' :: (body ++ text)) after :=
  { l with
    lead := ';' :: (body ++ l.lead)
    text_eq := by simp [l.text_eq]
    leadGap := by
      refine .comment oneLine ?_ l.leadGap
      rw [l.text_eq, List.append_assoc] at ends
      exact ends }

/-- Nothing before the first lexeme of a layout means that the text goes on with it. So where a word
has just ended, a gap or no word must come. -/
theorem apart_of_glue (l : Layout text after)
    (glue : ∀ c ∈ (text ++ after).head?, isWordChar c = false) :
    ∀ t ∈ l.segments.head?, t.lexeme.isWord = true → l.lead ≠ [] := by
  intro t ht hword hlead
  obtain ⟨rest, hsegments⟩ := List.head?_eq_some_iff.mp ht
  obtain ⟨hne, hchars⟩ := (l.spelled t (by simp [hsegments])).wordChars hword
  obtain ⟨c, cs, hcs⟩ := List.exists_cons_of_ne_nil hne
  have hc := glue c (by simp [l.text_eq, hlead, hsegments, Segment.chars, hcs])
  rw [hchars c (by simp [hcs])] at hc
  cases hc

def lexeme (l : Layout text after) {x : Lexeme} {word : List Char} (h : Spells x word)
    (glue : x.isWord = true → ∀ c ∈ (text ++ after).head?, isWordChar c = false) :
    Layout (word ++ text) after where
  lead := []
  segments := ⟨x, word, l.lead⟩ :: l.segments
  text_eq := by simp [l.text_eq, Segment.chars]
  spelled := List.forall_mem_cons.mpr ⟨h, l.spelled⟩
  leadGap := .nil
  gaps s rest hs := by
    rcases List.suffix_cons_iff.mp hs with heq | hs
    · cases heq
      exact l.leadGap
    · exact l.gaps s rest hs
  apart := by
    refine l.apart.cons ?_
    intro t ht hx hword
    exact l.apart_of_glue (glue hx) t ht hword

theorem tokens_blank (l : Layout text after) {c : Char} (h : Text.isBlank c = true) (pos : Nat) :
    (l.blank h).tokens pos = l.tokens (pos + 1) := by
  simp [tokens, blank, Nat.add_assoc, Nat.add_comm 1]

/-- A comment before a layout moves its tokens by the length of the comment, and adds none. -/
theorem tokens_comment (l : Layout text after) {body : List Char} (oneLine : '\n' ∉ body)
    (ends : EndsLine (text ++ after)) (pos : Nat) :
    (l.comment oneLine ends).tokens pos = l.tokens (pos + 1 + body.length) := by
  have hoffset : pos + (l.comment oneLine ends).lead.length =
      pos + 1 + body.length + l.lead.length := by
    simp only [comment, List.length_cons, List.length_append]
    omega
  rw [tokens, hoffset]
  rfl

theorem tokens_lexeme (l : Layout text after) {x : Lexeme} {word : List Char} (h : Spells x word)
    (glue : x.isWord = true → ∀ c ∈ (text ++ after).head?, isWordChar c = false) (pos : Nat) :
    (l.lexeme h glue).tokens pos =
      ⟨x, ⟨pos, pos + word.length⟩⟩ :: l.tokens (pos + word.length) := by
  simp [tokens, lexeme, tokensFrom, Segment.chars, Nat.add_assoc]

/-- With a lexeme before it a layout still stops before what follows. Only the last word of a layout
counts for this. -/
theorem Stops.lexeme {l : Layout text after} (hl : l.Stops) {x : Lexeme} {word : List Char}
    (h : Spells x word)
    (glue : x.isWord = true → ∀ c ∈ (text ++ after).head?, isWordChar c = false) :
    (l.lexeme h glue).Stops := by
  intro s hs hword hgap
  cases hsegments : l.segments with
  | nil =>
    simp only [Layout.lexeme, hsegments, List.getLast?_singleton, Option.mem_some_iff] at hs
    subst hs
    have htext : text = [] := by rw [l.text_eq, hsegments]; simpa using hgap
    subst htext
    exact glue hword
  | cons t rest =>
    refine hl s ?_ hword hgap
    rw [hsegments]
    simpa [Layout.lexeme, hsegments] using hs

end Layout

/-- A result of scanning a text at offset `pos` is the tokens of a layout of what was read of
it, which is all of the text unless there is a fault. -/
def LaidOut (pos : Nat) (cs : List Char) (r : Lexed) : Prop :=
  ∃ (text after : List Char) (l : Layout text after), cs = text ++ after ∧ l.Stops ∧
    r.tokens = l.tokens pos ∧ (r.fault = none → after = [])

namespace LaidOut

variable {pos : Nat} {rest : List Char} {r : Lexed}

theorem nothing (pos : Nat) : LaidOut pos [] { tokens := [] } :=
  ⟨[], [], .empty [], rfl, by simp [Layout.Stops, Layout.empty], rfl, by simp⟩

/-- Where a fault is met, the empty layout is all there is of the text. -/
theorem fault (pos : Nat) (cs : List Char) (e : LexFault) :
    LaidOut pos cs { tokens := [], fault := some e } :=
  ⟨[], cs, .empty cs, rfl, by simp [Layout.Stops, Layout.empty], rfl, by simp⟩

theorem blank {c : Char} (h : Text.isBlank c = true) (hr : LaidOut (pos + 1) rest r) :
    LaidOut pos (c :: rest) r := by
  obtain ⟨text, after, l, rfl, hl, htokens, hfault⟩ := hr
  refine ⟨c :: text, after, l.blank h, rfl, hl, ?_, hfault⟩
  rw [htokens, l.tokens_blank]

/-- A layout may start with a comment that ends with its line. -/
theorem comment {body : List Char} (oneLine : '\n' ∉ body) (ends : EndsLine rest)
    (hr : LaidOut (pos + 1 + body.length) rest r) : LaidOut pos (';' :: (body ++ rest)) r := by
  obtain ⟨text, after, l, rfl, hl, htokens, hfault⟩ := hr
  refine ⟨';' :: (body ++ text), after, l.comment oneLine ends, by simp, hl, ?_, hfault⟩
  rw [htokens, l.tokens_comment]

/-- A layout may start with a lexeme, if what follows does not go on with it. -/
theorem lexeme {x : Lexeme} {word : List Char} (h : Spells x word)
    (glue : x.isWord = true → ∀ c ∈ rest.head?, isWordChar c = false)
    (hr : LaidOut (pos + word.length) rest r) :
    LaidOut pos (word ++ rest) (scan.emit pos x word.length r) := by
  obtain ⟨text, after, l, rfl, hl, htokens, hfault⟩ := hr
  refine ⟨word ++ text, after, l.lexeme h glue, by simp, hl.lexeme h glue, ?_, hfault⟩
  rw [l.tokens_lexeme, ← htokens]
  rfl

end LaidOut

/-- What was scanned of a text has a layout, up to the fault if there is one. This goes along the
scan, one of the lemmas before for each step. -/
theorem laidOut_scan (pos : Nat) (cs : List Char) : LaidOut pos cs (scan pos cs) :=
  scan_ind .nothing (fun _ => .fault _ _ _) .blank .comment .lexeme pos cs

/-! ## Places -/

/-- A token of segments has the place of the spelling of its own segment, after the spellings and
gaps of the segments before. -/
theorem exists_segment_of_mem_tokensFrom {segments : List Segment} {t : Token} {pos : Nat}
    (h : t ∈ tokensFrom pos segments) : ∃ before s after, segments = before ++ s :: after ∧
      t = ⟨s.lexeme, ⟨pos + (before.flatMap Segment.chars).length,
        pos + (before.flatMap Segment.chars).length + s.text.length⟩⟩ := by
  induction segments generalizing pos with
  | nil => cases h
  | cons s rest ih =>
    rcases List.mem_cons.mp h with rfl | h
    · exact ⟨[], s, rest, rfl, by simp⟩
    · obtain ⟨before, u, after, rfl, ht⟩ := ih h
      exact ⟨s :: before, u, after, rfl, by simp [ht, Int.add_assoc]⟩

/-- A token of a layout spells the text at its place. The place is given by the text before it, so
two tokens have different places. -/
theorem Layout.spells_of_mem {text after : List Char} (l : Layout text after) {t : Token}
    (h : t ∈ l.tokens 0) : ∃ before word rest, text = before ++ word ++ rest ∧
      Spells t.lexeme word ∧ t.span = ⟨before.length, (before ++ word).length⟩ := by
  obtain ⟨before, s, rest, hsegments, rfl⟩ := exists_segment_of_mem_tokensFrom h
  refine ⟨l.lead ++ before.flatMap Segment.chars, s.text, s.gap ++ rest.flatMap Segment.chars,
    ?_, l.spelled s (by simp [hsegments]), by simp [Int.add_assoc]⟩
  conv_lhs => rw [l.text_eq, hsegments]
  simp [Segment.chars]

/-- A source is lexed without a fault exactly if it has a layout, and to the tokens of that
layout. All layouts of a source have the same tokens, and a token spells the text at its
place. -/
theorem ofSource_eq_iff_layout (source : String) :
    (∀ ts, Lexed.ofSource source = { tokens := ts } ↔
      ∃ l : Layout source.toList [], l.tokens 0 = ts) ∧
    (∀ l m : Layout source.toList [], l.tokens 0 = m.tokens 0) ∧
    ∀ l : Layout source.toList [], ∀ t ∈ l.tokens 0, ∃ before word rest,
      source.toList = before ++ word ++ rest ∧ Spells t.lexeme word ∧
        t.span = ⟨before.length, (before ++ word).length⟩ := by
  have hscan (l : Layout source.toList []) : Lexed.ofSource source = { tokens := l.tokens 0 } := by
    have := l.scan_eq (by simp [Layout.Stops]) 0
    simpa [Lexed.ofSource, Lexed.prepend, scan] using this
  refine ⟨fun ts => ⟨fun h => ?_, ?_⟩, fun l m => ?_, fun l t => l.spells_of_mem⟩
  · obtain ⟨text, after, l, hsource, -, htokens, hfault⟩ := laidOut_scan 0 source.toList
    change scan 0 source.toList = _ at h
    rw [h] at htokens hfault
    obtain rfl := hfault rfl
    rw [List.append_nil] at hsource
    subst hsource
    exact ⟨l, htokens.symm⟩
  · rintro ⟨l, rfl⟩
    exact hscan l
  · simpa using (hscan l).symm.trans (hscan m)

/-- A name, a string and a number without gaps between them, and a comment up to the end. -/
theorem ofSource_layout_adjacent :
    let source := "a\"(\"1;b"
    let ts : List Token :=
      [⟨.ident "a", ⟨0, 1⟩⟩, ⟨.string "(", ⟨1, 4⟩⟩, ⟨.number (.int 1), ⟨4, 5⟩⟩]
    Lexed.ofSource source = { tokens := ts } ∧ (∃ l : Layout source.toList [], l.tokens 0 = ts) ∧
      ∃ before word rest, source.toList = before ++ word ++ rest ∧ Spells (.string "(") word ∧
        (⟨1, 4⟩ : Span) = ⟨before.length, (before ++ word).length⟩ := by
  intro source ts
  have hts : Lexed.ofSource source = { tokens := ts } := by
    decide +kernel
  obtain ⟨hsource, -, hplace⟩ := ofSource_eq_iff_layout source
  obtain ⟨l, hl⟩ := (hsource ts).mp hts
  exact ⟨hts, ⟨l, hl⟩, hplace l ⟨.string "(", ⟨1, 4⟩⟩ (by simp [hl, ts])⟩

end Lexer

end TypedSexp
