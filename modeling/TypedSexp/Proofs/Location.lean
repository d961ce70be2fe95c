import TypedSexp.Proofs.Number.Digits
import TypedSexp.Span
import TypedSexp.Text.Split

/-!
# Places in a source

A span lies inside a source if it holds at least one character and all of its characters are
characters of the source (`Span.Inside`); the text there is its slice.

The place at which a span starts is given by a line and a column. The text before the span is
whole lines, each with its newline, and the start of one more line. So the line number counts
the pieces into which the newlines cut the source, and the column is a position in that piece
or just after it, where its newline stands (`Span.exists_line`).

So an offset can be counted back from its place, and later offsets have later places
(`Span.location_faithful`): an offset on an earlier line is at most at that line's newline, which
the lines up to a later one leave behind (`Text.lines_before`).

Only newlines end lines, and columns count characters, not bytes and not what a screen shows.
Offsets outside of the source are left out.
-/

namespace TypedSexp

/-! ## Lines -/

namespace Text

variable {separator : Char} {piece cs : List Char}

/-- The first piece ends at the first separator, and the rest is cut as if it stood alone. -/
theorem splitAt_separator (h : separator ∉ piece) :
    splitAt separator (piece ++ separator :: cs) = piece :: splitAt separator cs := by
  induction piece with
  | nil => rw [List.nil_append, splitAt, if_pos rfl]
  | cons c piece ih =>
    rw [List.mem_cons, not_or] at h
    rw [List.cons_append, splitAt, if_neg (Ne.symm h.1), ih h.2]

/-- A text without separators goes on in the first piece of what follows it. The other pieces stay
as they are. -/
theorem splitAt_append (h : separator ∉ piece) (cs : List Char) : ∃ first rest,
    splitAt separator cs = first :: rest ∧
      splitAt separator (piece ++ cs) = (piece ++ first) :: rest := by
  induction piece with
  | nil =>
    have hne : splitAt separator cs ≠ [] := by
      unfold splitAt
      split
      · simp
      · split
        · simp
        · split <;> simp
    obtain ⟨first, rest, hcs⟩ := List.exists_cons_of_ne_nil hne
    exact ⟨first, rest, hcs, hcs⟩
  | cons c piece ih =>
    rw [List.mem_cons, not_or] at h
    obtain ⟨first, rest, hcs, hpiece⟩ := ih h.2
    refine ⟨first, rest, hcs, ?_⟩
    rw [List.cons_append, splitAt, if_neg (Ne.symm h.1), hpiece]
    rfl

/-- Pieces, each with a separator after it. -/
def ended (separator : Char) (pieces : List (List Char)) : List Char :=
  pieces.flatMap (· ++ [separator])

theorem ended_cons (piece : List Char) (pieces : List (List Char)) :
    ended separator (piece :: pieces) = piece ++ separator :: ended separator pieces := by
  rw [ended, List.flatMap_cons, List.append_assoc, List.singleton_append]
  rfl

/-- The length of ended pieces is that of the pieces, and one character for each of their ends. -/
theorem length_ended (pieces : List (List Char)) :
    (ended separator pieces).length = (pieces.map List.length).sum + pieces.length := by
  induction pieces with
  | nil => rfl
  | cons piece pieces ih =>
    rw [ended_cons, List.length_append, List.length_cons, ih, List.map_cons, List.sum_cons,
      List.length_cons]
    omega

/-- Of two positions in a text, each after some lines and at a column of the next one, the earlier
has fewer lines before it, or as many and a lesser column. -/
theorem lines_before {before before' after after' : List (List Char)} {line line' : List Char}
    {column column' : Nat} (same : before ++ line :: after = before' ++ line' :: after')
    (hcolumn : column' ≤ line'.length)
    (hlt : (ended separator before).length + column <
      (ended separator before').length + column') :
    before.length < before'.length ∨ before.length = before'.length ∧ column < column' := by
  rcases Nat.lt_trichotomy before.length before'.length with hlines | hlines | hlines
  · exact .inl hlines
  · obtain ⟨rfl, -⟩ := List.append_inj same hlines
    exact .inr ⟨rfl, by omega⟩
  · -- The line of the second position is among those before the first, with its newline.
    exfalso
    rcases List.append_eq_append_iff.mp same with ⟨middle, rfl, -⟩ | ⟨middle, rfl, hline⟩
    · rw [List.length_append] at hlines
      omega
    · cases middle with
      | nil =>
        rw [List.append_nil] at hlines
        omega
      | cons piece middle =>
        obtain ⟨rfl, -⟩ := List.cons.inj hline
        simp only [length_ended, List.map_append, List.sum_append, List.map_cons, List.sum_cons,
          List.length_append, List.length_cons] at hlt
        omega

/-- A text is ended pieces, each with its separator, and one more that is not ended. The last piece
may be empty, and none holds a separator. -/
theorem exists_ended (separator : Char) (cs : List Char) : ∃ pieces last,
    (∀ piece ∈ pieces, separator ∉ piece) ∧ separator ∉ last ∧
      cs = ended separator pieces ++ last := by
  induction cs with
  | nil => exact ⟨[], [], by simp, by simp, rfl⟩
  | cons c cs ih =>
    obtain ⟨pieces, last, hpieces, hlast, rfl⟩ := ih
    by_cases hc : separator = c
    · subst hc
      exact ⟨[] :: pieces, last, by simpa using hpieces, hlast, by rw [ended_cons]; rfl⟩
    · cases pieces with
      | nil => exact ⟨[], c :: last, by simp, by simp [hc, hlast], rfl⟩
      | cons piece pieces =>
        rw [List.forall_mem_cons] at hpieces
        refine ⟨(c :: piece) :: pieces, last, ?_, hlast, ?_⟩
        · rw [List.forall_mem_cons]
          exact ⟨by simp [hc, hpieces.1], hpieces.2⟩
        · rw [ended_cons, ended_cons]
          rfl

/-- Ended pieces are pieces of the text, and what follows them is cut as if it stood alone. -/
theorem splitAt_ended {pieces : List (List Char)} (h : ∀ piece ∈ pieces, separator ∉ piece) :
    splitAt separator (ended separator pieces ++ cs) = pieces ++ splitAt separator cs := by
  induction pieces with
  | nil => rfl
  | cons piece pieces ih =>
    rw [List.forall_mem_cons] at h
    rw [ended_cons, List.append_assoc, List.cons_append, splitAt_separator h.1, ih h.2,
      List.cons_append]

/-- There are as many separators as ended pieces, if none is inside a piece. So the line number
counts newlines. -/
theorem count_ended {pieces : List (List Char)} (h : ∀ piece ∈ pieces, separator ∉ piece) :
    (ended separator pieces).count separator = pieces.length := by
  induction pieces with
  | nil => rfl
  | cons piece pieces ih =>
    rw [List.forall_mem_cons] at h
    rw [ended_cons, List.count_append, List.count_cons_self, ih h.2,
      List.count_eq_zero_of_not_mem h.1, List.length_cons, Nat.zero_add]

/-- Ended pieces end with the separator, if there are any. -/
theorem getLast?_ended (pieces : List (List Char)) :
    ∀ c ∈ (ended separator pieces).getLast?, c = separator := by
  induction pieces with
  | nil => simp [ended]
  | cons piece pieces ih =>
    intro c hc
    rw [ended_cons, List.getLast?_append, List.getLast?_cons, Option.some_or] at hc
    cases hlast : (ended separator pieces).getLast? with
    | none =>
      rw [hlast] at hc
      exact (Option.some.inj hc).symm
    | some d =>
      rw [hlast] at hc
      exact ih c (hlast.trans hc)

end Text

/-! ## Spans -/

namespace Span

/-- The span holds a character, and no character that is not one of the source. -/
structure Inside (source : List Char) (s : Span) : Prop where
  nonneg : 0 ≤ s.start
  start_lt_stop : s.start < s.stop
  stop_le : s.stop ≤ source.length

/-- The text of a source at a span. -/
def slice (s : Span) (source : List Char) : List Char :=
  (source.take s.stop.toNat).drop s.start.toNat

/-- What covers two spans inside a source is inside it. -/
theorem Inside.cover {source : List Char} {s t : Span} (hs : s.Inside source)
    (ht : t.Inside source) : (s.cover t).Inside source := by
  obtain ⟨hs₁, hs₂, hs₃⟩ := hs
  obtain ⟨ht₁, ht₂, ht₃⟩ := ht
  refine ⟨?_, ?_, ?_⟩ <;> simp only [Span.cover] <;> omega

section Part

variable {source before part after : List Char} (h : source = before ++ part ++ after)

include h

/-- A part of a source that is not empty has a span inside it. -/
theorem inside_of_eq (hne : part ≠ []) :
    Inside source ⟨before.length, (before ++ part).length⟩ := by
  have hpos := List.length_pos_iff.mpr hne
  subst h
  refine ⟨?_, ?_, ?_⟩ <;> simp only [List.length_append] <;> omega

theorem slice_of_eq : slice ⟨before.length, (before ++ part).length⟩ source = part := by
  unfold slice
  rw [h, Int.toNat_natCast, Int.toNat_natCast, List.take_left, List.drop_left]

end Part

/-! ## Lines and columns -/

/-- The line counts the newlines before a span, the column the characters since the last one. Both
count from one. -/
theorem location_eq {source after last : List Char} {pieces : List (List Char)} {s : Span}
    (hpieces : ∀ piece ∈ pieces, '\n' ∉ piece) (hlast : '\n' ∉ last)
    (hsource : source = Text.ended '\n' pieces ++ last ++ after)
    (hstart : s.start = (Text.ended '\n' pieces ++ last).length) :
    s.location source = ⟨pieces.length + 1, last.length + 1⟩ := by
  have hbefore : s.textBefore source = Text.ended '\n' pieces ++ last := by
    have hnonneg : ¬ s.start < 0 := by omega
    rw [textBefore, if_neg hnonneg, hstart, Int.natAbs_natCast, hsource, List.take_left]
  have hline : (Text.ended '\n' pieces ++ last).count '\n' = pieces.length := by
    rw [List.count_append, Text.count_ended hpieces, List.count_eq_zero_of_not_mem hlast,
      Nat.add_zero]
  have hrun : ((Text.ended '\n' pieces ++ last).reverse.takeWhile (· ≠ '\n')).length =
      last.length := by
    have inside : ∀ c ∈ last.reverse, decide (c ≠ '\n') = true := by
      intro c hc
      simpa using fun heq : c = '\n' => hlast (heq ▸ List.mem_reverse.mp hc)
    have stop : ∀ c ∈ (Text.ended '\n' pieces).reverse.head?, decide (c ≠ '\n') = false := by
      intro c hc
      rw [List.head?_reverse] at hc
      simpa using Text.getLast?_ended pieces c hc
    rw [List.reverse_append, takeWhile_run inside stop, List.length_reverse]
  unfold location
  rw [hbefore]
  dsimp only
  rw [hline, hrun, hstart, List.length_append]
  congr 1
  omega

/-- A span that starts in a source starts on one of its lines: what stands before it is the
lines before, each with its newline, and a part of that line. -/
theorem exists_line {source : List Char} {s : Span} (hnonneg : 0 ≤ s.start)
    (hle : s.start ≤ source.length) : ∃ before line after, ∃ column : Nat,
      column ≤ line.length ∧ Text.splitAt '\n' source = before ++ line :: after ∧
        s.location source = ⟨before.length + 1, column + 1⟩ ∧
        s.start = (Text.ended '\n' before).length + column := by
  obtain ⟨pieces, last, hpieces, hlast, htake⟩ :=
    Text.exists_ended '\n' (source.take s.start.toNat)
  have hsource : source =
      Text.ended '\n' pieces ++ last ++ source.drop s.start.toNat := by
    rw [← htake, List.take_append_drop]
  have hstart : s.start = (Text.ended '\n' pieces ++ last).length := by
    rw [← htake, List.length_take]
    omega
  obtain ⟨first, rest, -, hline⟩ :=
    Text.splitAt_append hlast (source.drop s.start.toNat)
  refine ⟨pieces, last ++ first, rest, last.length, ?_, ?_, ?_, ?_⟩
  · rw [List.length_append]
    omega
  · conv_lhs => rw [hsource]
    rw [List.append_assoc, Text.splitAt_ended hpieces, hline]
  · exact location_eq hpieces hlast hsource hstart
  · rw [hstart, List.length_append]
    omega

/-- A span inside a source starts on one of its lines, at a character of it or at its end, where the
newline stands. -/
theorem Inside.exists_location {source : List Char} {s : Span} (h : s.Inside source) :
    ∃ line, 1 ≤ (s.location source).line ∧
      (s.location source).line ≤ (Text.splitAt '\n' source).length ∧
      (Text.splitAt '\n' source)[(s.location source).line - 1]? = some line ∧
      1 ≤ (s.location source).column ∧ (s.location source).column ≤ line.length + 1 := by
  have hle : s.start ≤ source.length := Int.le_trans (Int.le_of_lt h.start_lt_stop) h.stop_le
  obtain ⟨before, line, after, column, hcolumn, hlines, hlocation, -⟩ := exists_line h.nonneg hle
  rw [hlines, hlocation]
  refine ⟨line, ?_, ?_, ?_, ?_, ?_⟩
  · show 1 ≤ before.length + 1
    omega
  · show before.length + 1 ≤ _
    rw [List.length_append, List.length_cons]
    omega
  · show (before ++ line :: after)[before.length + 1 - 1]? = some line
    rw [Nat.add_sub_cancel, List.getElem?_append_right (Nat.le_refl _), Nat.sub_self]
    rfl
  · show (1 : Int) ≤ column + 1
    omega
  · show (column + 1 : Int) ≤ line.length + 1
    omega

end Span

/-! ## The order of places -/

/-- A place comes before another if it is on an earlier line, or earlier on the same line. -/
def Location.Before (l m : Location) : Prop :=
  l.line < m.line ∨ l.line = m.line ∧ l.column < m.column

namespace Span

/-- **Places are faithful to offsets.** Later offsets in a source have later places. And the place
of an offset counts it out on the pieces between the newlines of the source: it is the length of
all pieces before the line, a newline for each of them, and the characters before the column, of
which there are no more than the line has. -/
theorem location_faithful (source : List Char) :
    (∀ s t : Span, 0 ≤ s.start → s.start < t.start → t.start ≤ source.length →
      (s.location source).Before (t.location source)) ∧
    ∀ (s : Span) (line : Nat) (column : Int), 0 ≤ s.start → s.start ≤ source.length →
      s.location source = ⟨line, column⟩ →
      ∃ piece, 1 ≤ line ∧ (Text.splitAt '\n' source)[line - 1]? = some piece ∧
        s.start = (((Text.splitAt '\n' source).take (line - 1)).map List.length).sum +
          (line - 1 : Nat) + (column - 1) ∧
        1 ≤ column ∧ column - 1 ≤ piece.length := by
  constructor
  · intro s t hnonneg hlt hle
    have hle' : s.start ≤ source.length := by omega
    have hnonneg' : 0 ≤ t.start := by omega
    obtain ⟨before, line, after, column, -, hlines, hplace, hstart⟩ := exists_line hnonneg hle'
    obtain ⟨before', line', after', column', hcolumn', hlines', hplace', hstart'⟩ :=
      exists_line hnonneg' hle
    have hoffset : (Text.ended '\n' before).length + column <
        (Text.ended '\n' before').length + column' := by omega
    have horder := Text.lines_before (hlines.symm.trans hlines') hcolumn' hoffset
    rw [hplace, hplace']
    unfold Location.Before
    dsimp only
    omega
  · intro s line column hnonneg hle hplace
    obtain ⟨before, piece, after, characters, hcharacters, hlines, hplace', hstart⟩ :=
      exists_line hnonneg hle
    rw [hplace, Location.mk.injEq] at hplace'
    obtain ⟨rfl, rfl⟩ := hplace'
    rw [Text.length_ended] at hstart
    refine ⟨piece, by omega, ?_, ?_, by omega, by omega⟩
    · rw [hlines, Nat.add_sub_cancel, List.getElem?_append_right (Nat.le_refl _), Nat.sub_self]
      rfl
    · rw [hlines, Nat.add_sub_cancel, List.take_left]
      omega

/-- The first newline of two comes before the second one, which starts the second line, and the
end of the source is the place after its last character. -/
theorem location_faithful_newlines :
    (location ⟨1, 2⟩ ['a', '\n', '\n', 'b']).Before (location ⟨2, 3⟩ ['a', '\n', '\n', 'b']) ∧
    ∃ piece, 1 ≤ 3 ∧ (Text.splitAt '\n' ['a', '\n', '\n', 'b'])[3 - 1]? = some piece ∧
      (4 : Int) = (((Text.splitAt '\n' ['a', '\n', '\n', 'b']).take (3 - 1)).map List.length).sum +
        (3 - 1 : Nat) + (2 - 1) ∧
      (1 : Int) ≤ 2 ∧ (2 - 1 : Int) ≤ piece.length :=
  ⟨(location_faithful _).1 _ _ (by decide) (by decide) (by decide),
    (location_faithful _).2 ⟨4, 4⟩ 3 2 (by decide) (by decide) (by decide)⟩

end Span

end TypedSexp
