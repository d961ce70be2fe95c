import TypedSexp.Proofs.Token.Placed

/-!
# Lexing faults

Lexing stops at the first place where nothing can be taken. Before it stands a layout of the tokens
given, in which every comment has come to its newline, as a fault is never met inside one. At it
stands either a character that starts no lexeme, or a whole run of characters of names that starts
with a digit and is no number. Each of the two is a fault wherever it follows such a layout, so
these are all faults, and the tokens before a fault are the only ones (`Lexer.ofSource_fault_iff`).

The layout is built back to front along the scan, as for a source without a fault
(`Lexer.stopsAt_scan`).

Lexing ends at its first fault. Nothing is said about the rest of the source, and nothing could be
found out about it.
-/

namespace TypedSexp.Lexer

/-! ## What stands before a fault -/

/-- Blanks and comments, each comment with the newline that ends it. -/
inductive ClosedGap : List Char → Prop
  | nil : ClosedGap []
  | blank {c : Char} {gap : List Char} (isBlank : Text.isBlank c = true) (rest : ClosedGap gap) :
      ClosedGap (c :: gap)
  | comment {body gap : List Char} (oneLine : '\n' ∉ body) (rest : ClosedGap gap) :
      ClosedGap (';' :: (body ++ '\n' :: gap))

/-- A gap in which all comments are ended is one before any text. -/
theorem ClosedGap.gap {gap : List Char} (h : ClosedGap gap) (after : List Char) :
    Gap after gap := by
  induction h with
  | nil => exact .nil
  | blank isBlank _ ih => exact .blank isBlank ih
  | comment oneLine _ ih =>
    refine .comment oneLine ?_ (.blank rfl ih)
    rintro c ⟨⟩
    rfl

/-- The comments of a gap are ended inside it, unless the text after it does that with a newline at
its start. -/
theorem Gap.closed {after gap : List Char} (h : Gap after gap)
    (head : ∃ c ∈ after.head?, c ≠ '\n') : ClosedGap gap := by
  induction h with
  | nil => exact .nil
  | blank isBlank _ ih => exact .blank isBlank ih
  | @comment body gap oneLine ends rest ih =>
    cases gap with
    | nil =>
      obtain ⟨c, hc, hne⟩ := head
      exact (hne (ends c hc)).elim
    | cons c gap =>
      obtain rfl : c = '\n' := ends c rfl
      cases ih with
      | blank _ closed => exact .comment oneLine closed

/-- A gap in which all comments are ended ends with a blank, as a newline is one. So what follows it
cannot go on with the word before it. -/
theorem ClosedGap.isBlank_last {gap : List Char} (h : ClosedGap gap) :
    ∀ c ∈ gap.getLast?, Text.isBlank c = true := by
  have later : ∀ {c d : Char} {gap : List Char}, d ∈ (c :: gap).getLast? →
      d = c ∨ d ∈ gap.getLast? := by
    intro c d gap hd
    cases gap with
    | nil => exact .inl (Option.some.inj hd).symm
    | cons e gap => exact .inr hd
  induction h with
  | nil => nofun
  | blank isBlank _ ih =>
    intro c hc
    rcases later hc with rfl | hc
    · exact isBlank
    · exact ih c hc
  | @comment body gap oneLine _ ih =>
    intro c hc
    rw [← List.cons_append, List.getLast?_append_of_ne_nil _ (by simp)] at hc
    rcases later hc with rfl | hc
    · rfl
    · exact ih c hc

/-- No lexeme is spelled with a newline first. -/
theorem Spells.head_ne_newline {l : Lexeme} {text : List Char} (h : Spells l text) :
    ∃ c ∈ text.head?, c ≠ '\n' := by
  cases hword : l.isWord with
  | true =>
    obtain ⟨hne, hchars⟩ := h.wordChars hword
    obtain ⟨c, rest, rfl⟩ := List.exists_cons_of_ne_nil hne
    refine ⟨c, rfl, ?_⟩
    rintro rfl
    cases hchars _ List.mem_cons_self
  | false =>
    cases h with
    | opener d => exact ⟨_, rfl, by cases d <;> decide⟩
    | closer d => exact ⟨_, rfl, by cases d <;> decide⟩
    | string quoteless => exact ⟨_, rfl, by decide⟩
    | ident name => cases hword
    | integer digits => cases hword
    | float digits places reads => cases hword

/-- The last character of a lexeme that is no word is no character of names. So a run that follows
it starts there. -/
theorem Spells.last_not_wordChar {l : Lexeme} {text : List Char} (h : Spells l text)
    (hword : l.isWord = false) : ∀ c ∈ text.getLast?, isWordChar c = false := by
  cases h with
  | opener d =>
    rintro c ⟨⟩
    cases d <;> rfl
  | closer d =>
    rintro c ⟨⟩
    cases d <;> rfl
  | string quoteless =>
    rw [← List.cons_append, List.getLast?_concat]
    rintro c ⟨⟩
    rfl
  | ident name => cases hword
  | integer digits => cases hword
  | float digits places reads => cases hword

namespace Layout

variable {text after : List Char}

/-- All comments of a layout are ended inside it. -/
structure Closed (l : Layout text after) : Prop where
  lead : ClosedGap l.lead
  gaps : ∀ s ∈ l.segments, ClosedGap s.gap

/-- A layout in which all comments are ended does not depend on what follows the text. -/
def inFrontOf (l : Layout text after) (h : l.Closed) (after' : List Char) : Layout text after' :=
  { l with
    leadGap := h.lead.gap _
    gaps := fun s _ hs => (h.gaps s (hs.subset List.mem_cons_self)).gap _ }

/-- Where a text goes on with something else than a newline, the comments before it are ended. A
comment that is not would take in what follows. -/
theorem closed (l : Layout text after) (head : ∃ c ∈ after.head?, c ≠ '\n') : l.Closed := by
  have headOf : ∀ {segments : List Segment}, segments <:+ l.segments →
      ∃ c ∈ (segments.flatMap Segment.chars ++ after).head?, c ≠ '\n' := by
    intro segments hs
    cases segments with
    | nil => exact head
    | cons s rest =>
      have spells := l.spelled s (hs.subset List.mem_cons_self)
      rw [List.flatMap_cons, Segment.chars, List.append_assoc, List.append_assoc,
        List.head?_append_of_ne_nil _ spells.ne_nil]
      exact spells.head_ne_newline
  refine ⟨l.leadGap.closed (headOf List.suffix_rfl), fun s hs => ?_⟩
  obtain ⟨front, rest, hsegments⟩ := List.append_of_mem hs
  have suffix : s :: rest <:+ l.segments := ⟨front, hsegments.symm⟩
  exact (l.gaps s rest suffix).closed (headOf ((List.suffix_cons s rest).trans suffix))

/-- The last character of a closed layout belongs to no word, unless the last lexeme is a word
without a gap after it. -/
theorem last_not_wordChar (l : Layout text after) (h : l.Closed)
    (last : ∀ s ∈ l.segments.getLast?, s.gap = [] → s.lexeme.isWord = false) :
    ∀ c ∈ text.getLast?, isWordChar c = false := by
  intro c hc
  rcases List.eq_nil_or_concat' l.segments with hsegments | ⟨front, s, hsegments⟩
  · rw [l.text_eq, hsegments, List.flatMap_nil, List.append_nil] at hc
    exact isBlank_not_wordChar (h.lead.isBlank_last c hc)
  · have hs : s ∈ l.segments := hsegments ▸ List.mem_append_right _ (List.mem_singleton_self s)
    have htext : text = l.lead ++ front.flatMap Segment.chars ++ s.text ++ s.gap := by
      conv_lhs => rw [l.text_eq, hsegments]
      simp [Segment.chars]
    have spells := l.spelled s hs
    by_cases hgap : s.gap = []
    · rw [htext, hgap, List.append_nil, List.getLast?_append_of_ne_nil _ spells.ne_nil] at hc
      exact spells.last_not_wordChar (last s (by rw [hsegments, List.getLast?_concat]; rfl) hgap)
        c hc
    · rw [htext, List.getLast?_append_of_ne_nil _ hgap] at hc
      exact isBlank_not_wordChar ((h.gaps s hs).isBlank_last c hc)

end Layout

/-- No fault is met at a newline, which is a blank, or where nothing is left. -/
theorem FaultAt.head_ne_newline {pos : Nat} {cs : List Char} {e : LexFault} (h : FaultAt pos cs e) :
    ∃ c ∈ cs.head?, c ≠ '\n' := by
  cases h with
  | @unrecognized c rest h =>
    refine ⟨c, rfl, ?_⟩
    rintro rfl
    cases h.blank
  | @malformed word rest h =>
    obtain ⟨c, hc, hdigit⟩ := h.start
    obtain ⟨cs, rfl⟩ := List.head?_eq_some_iff.mp hc
    refine ⟨c, rfl, ?_⟩
    rintro rfl
    cases hdigit

/-! ## The layout before a fault -/

/-- A result of scanning a text at offset `pos` that has a fault is the tokens of a layout of what
stands before the fault. -/
def StopsAt (pos : Nat) (cs : List Char) (r : Lexed) : Prop :=
  ∀ e ∈ r.fault, ∃ (text after : List Char) (l : Layout text after), cs = text ++ after ∧
    l.Stops ∧ r.tokens = l.tokens pos ∧ FaultAt (pos + text.length) after e

namespace StopsAt

variable {pos : Nat} {rest : List Char} {r : Lexed}

/-- A fault that is met at once is met after no tokens. -/
theorem here {cs : List Char} {e : LexFault} (h : FaultAt pos cs e) :
    StopsAt pos cs { tokens := [], fault := some e } := by
  rintro _ ⟨⟩
  exact ⟨[], cs, .empty cs, rfl, by simp [Layout.Stops, Layout.empty], rfl, h⟩

theorem blank {c : Char} (h : Text.isBlank c = true) (hr : StopsAt (pos + 1) rest r) :
    StopsAt pos (c :: rest) r := by
  intro e he
  obtain ⟨text, after, l, rfl, hl, htokens, hfault⟩ := hr e he
  refine ⟨c :: text, after, l.blank h, rfl, hl, ?_, ?_⟩
  · rw [htokens, l.tokens_blank]
  · rwa [List.length_cons, Nat.add_comm text.length, ← Nat.add_assoc]

/-- A fault after a comment is met after the comment, which has to end with its line. -/
theorem comment {body : List Char} (oneLine : '\n' ∉ body) (ends : EndsLine rest)
    (hr : StopsAt (pos + 1 + body.length) rest r) : StopsAt pos (';' :: (body ++ rest)) r := by
  intro e he
  obtain ⟨text, after, l, rfl, hl, htokens, hfault⟩ := hr e he
  refine ⟨';' :: (body ++ text), after, l.comment oneLine ends, by simp, hl, ?_, ?_⟩
  · rw [htokens, l.tokens_comment]
  · have hlength : pos + (';' :: (body ++ text)).length = pos + 1 + body.length + text.length := by
      simp only [List.length_cons, List.length_append]
      omega
    rwa [hlength]

/-- A fault after a lexeme is met after the lexeme, whose token comes first. If the lexeme is a
word, what follows must not go on with it. -/
theorem lexeme {x : Lexeme} {word : List Char} (h : Spells x word)
    (glue : x.isWord = true → ∀ c ∈ rest.head?, isWordChar c = false)
    (hr : StopsAt (pos + word.length) rest r) :
    StopsAt pos (word ++ rest) (scan.emit pos x word.length r) := by
  intro e he
  obtain ⟨text, after, l, rfl, hl, htokens, hfault⟩ := hr e he
  refine ⟨word ++ text, after, l.lexeme h glue, by simp, hl.lexeme h glue, ?_, ?_⟩
  · rw [l.tokens_lexeme, ← htokens]
    rfl
  · rwa [List.length_append, ← Nat.add_assoc]

end StopsAt

/-- Every scan that ends with a fault stops there, after a layout of its tokens. The induction
follows the scan, and the layout grows at its front. -/
theorem stopsAt_scan (pos : Nat) (cs : List Char) : StopsAt pos cs (scan pos cs) :=
  scan_ind (fun _ => nofun) .here .blank .comment .lexeme pos cs

/-! ## Sources with a fault -/

/-- The fault before which a layout stops is met after the tokens of the layout. The layout is of
the text before the fault, and it says nothing about what comes after it. -/
theorem Layout.scan_fault {text after : List Char} (l : Layout text after) (hl : l.Stops)
    {e : LexFault} (h : FaultAt text.length after e) :
    scan 0 (text ++ after) = { tokens := l.tokens 0, fault := some e } := by
  rw [l.scan_eq hl, Nat.zero_add, h.scan_eq, Lexed.prepend, List.append_nil]

/-- What lexing was stopped by, and the layout before it. The layout is closed, as no fault starts
with a newline. -/
theorem exists_layout_of_fault {cs : List Char} {ts : List Token} {e : LexFault}
    (h : scan 0 cs = { tokens := ts, fault := some e }) : ∃ text after, cs = text ++ after ∧
      FaultAt text.length after e ∧
      ∃ l : Layout text after, l.Closed ∧ l.Stops ∧ l.tokens 0 = ts := by
  obtain ⟨text, after, l, hcs, hl, htokens, hfault⟩ := stopsAt_scan 0 cs e (by rw [h]; rfl)
  rw [Nat.zero_add] at hfault
  refine ⟨text, after, hcs, hfault, l, l.closed hfault.head_ne_newline, hl, ?_⟩
  rw [← htokens, h]

/-- A run that a layout stops before is as long as it can be to the left, because the last character
before it belongs to no word. -/
theorem MalformedNumber.after {text word rest : List Char} (h : MalformedNumber [] word rest)
    (l : Layout text (word ++ rest)) (closed : l.Closed) (hl : l.Stops) :
    MalformedNumber text word rest := by
  obtain ⟨c, hc, hdigit⟩ := h.start
  obtain ⟨cs, rfl⟩ := List.head?_eq_some_iff.mp hc
  have hword : isWordChar c = true := isWordChar_of_isDigit hdigit
  refine { h with first := fun d hd => not_isNameChar_iff.mpr ?_ }
  refine l.last_not_wordChar closed (fun s hs hgap => ?_) d hd
  -- A word right before the run would have been taken together with it.
  by_contra hlexeme
  have hstop := hl s hs (Bool.eq_true_of_not_eq_false hlexeme) hgap c rfl
  rw [hword] at hstop
  cases hstop

/-- A layout stops before a run that is as long as it can be to the left, since the last word before
it does not reach up to it. -/
theorem MalformedNumber.stops {text word rest after : List Char}
    (h : MalformedNumber text word rest) (l : Layout text after) : l.Stops := by
  intro s hs hword hgap
  obtain ⟨front, hsegments⟩ := List.getLast?_eq_some_iff.mp hs
  obtain ⟨hne, hchars⟩ := (l.spelled s (by simp [hsegments])).wordChars hword
  have htext : text = l.lead ++ front.flatMap Segment.chars ++ s.text := by
    conv_lhs => rw [l.text_eq, hsegments]
    simp [Segment.chars, hgap]
  have hlast : s.text.getLast hne ∈ text.getLast? := by
    rw [htext, List.getLast?_append_of_ne_nil _ hne]
    exact List.getLast?_eq_some_getLast hne
  have hname := not_isNameChar_iff.mp (h.first _ hlast)
  rw [hchars _ (List.getLast_mem hne)] at hname
  cases hname

/-- **Lexing faults are exact.** Lexing a source gives tokens and then a fault of a kind at a place
exactly if the place starts where a layout of these tokens ends, all comments of which are ended,
and either it is the place of one character that starts no lexeme, or it is that of a whole run of
characters of names that starts with a digit and is no number. -/
theorem ofSource_fault_iff (source : String) (ts : List Token) (kind : String) (s : Span) :
    (∃ e, Lexed.ofSource source = { tokens := ts, fault := some e } ∧
      e.diagnostic.stage = .lex ∧ e.diagnostic.kind = kind ∧ e.diagnostic.span = some s) ↔
    ∃ text after, source.toList = text ++ after ∧
      (∃ l : Layout text [], l.Closed ∧ l.tokens 0 = ts) ∧
      ((kind = "unrecognized input" ∧ s = ⟨text.length, text.length + 1⟩ ∧
          ∃ c rest, after = c :: rest ∧ StartsNothing c rest) ∨
        (kind = "malformed number" ∧ ∃ word rest, after = word ++ rest ∧
          s = ⟨text.length, text.length + word.length⟩ ∧ MalformedNumber text word rest)) := by
  constructor
  · rintro ⟨e, hsource, -, rfl, hspan⟩
    obtain ⟨text, after, hcs, hfault, l, closed, hl, htokens⟩ := exists_layout_of_fault hsource
    refine ⟨text, after, hcs, ⟨l.inFrontOf closed [], ⟨closed.lead, closed.gaps⟩, htokens⟩, ?_⟩
    cases hfault with
    | @unrecognized c rest h => exact .inl ⟨rfl, (Option.some.inj hspan).symm, c, rest, rfl, h⟩
    | @malformed word rest h =>
      exact .inr ⟨rfl, word, rest, rfl, (Option.some.inj hspan).symm, h.after l closed hl⟩
  · rintro ⟨text, after, hcs, ⟨l, closed, rfl⟩, ⟨rfl, rfl, c, rest, rfl, h⟩ |
      ⟨rfl, word, rest, rfl, rfl, h⟩⟩
    · have hl : (l.inFrontOf closed (c :: rest)).Stops := by
        rintro _ - - - d ⟨⟩
        exact not_isNameChar_iff.mp h.name
      refine ⟨.unrecognized c text.length, ?_, rfl, rfl, rfl⟩
      rw [Lexed.ofSource, hcs, Layout.scan_fault _ hl (.unrecognized h)]
      rfl
    · refine ⟨.malformedNumber (String.ofList word) ⟨text.length, text.length + word.length⟩, ?_,
        rfl, rfl, rfl⟩
      have hhere : MalformedNumber [] word rest :=
        { h with first := fun _ hd => absurd hd (Option.not_mem_none _) }
      rw [Lexed.ofSource, hcs, Layout.scan_fault _ (h.stops (l.inFrontOf closed _))
        (.malformed hhere)]
      rfl

end TypedSexp.Lexer
