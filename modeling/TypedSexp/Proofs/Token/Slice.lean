import TypedSexp.Proofs.Token.Joined
import TypedSexp.Proofs.Token.Placed

/-!
# Slices of a source

Tokens that follow each other take up a part of the source, from the start of the first one to
the stop of the last one. This part alone is lexed to the same tokens, moved to its start
(`Lexer.exists_slice_of_ofSource`).

The layout of the part is cut out of the layout of the source (`Lexer.Layout.part`). All that a
gap asks of the text after it is its first character (`Lexer.Gap.congr_head`), and that is the
same one inside the part. The last lexeme loses its gap, so a comment that follows it is gone.

Tokens with others between them that are left out are not covered, as their part of the source holds
the others too.
-/

namespace TypedSexp

/-- No token is empty, and each one stops before the next one starts. -/
structure Token.Ordered (ts : List Token) : Prop where
  proper : ∀ t ∈ ts, t.span.start < t.span.stop
  before : ts.Pairwise fun t u => t.span.stop ≤ u.span.start

theorem Token.Ordered.sublist {ts us : List Token} (h : Ordered ts) (sub : us.Sublist ts) :
    Ordered us :=
  ⟨fun t ht => h.proper t (sub.subset ht), h.before.sublist sub⟩

/-- What stands between the first and the last of ordered tokens is ordered. -/
theorem Token.Ordered.inner {o c : Token} {ts : List Token} (h : Ordered (o :: (ts ++ [c]))) :
    Ordered ts :=
  h.sublist ((List.sublist_append_left ts [c]).trans (List.sublist_cons_self o _))

namespace Lexer

/-! ## The tokens of segments -/

/-- Segments after others have their tokens after theirs. -/
theorem tokensFrom_append (pos : Nat) (ss rest : List Segment) : tokensFrom pos (ss ++ rest) =
    tokensFrom pos ss ++ tokensFrom (pos + (ss.flatMap Segment.chars).length) rest := by
  induction ss generalizing pos with
  | nil => rfl
  | cons s ss ih =>
    rw [List.cons_append, tokensFrom, tokensFrom, ih, List.flatMap_cons, List.length_append,
      Nat.add_assoc, List.cons_append]

/-- The gap after the last segment does not show in the tokens. -/
theorem tokensFrom_concat (pos : Nat) (ss : List Segment) (s : Segment) :
    tokensFrom pos (ss ++ [s]) = tokensFrom pos ss ++
      [⟨s.lexeme, ⟨(pos + (ss.flatMap Segment.chars).length : Nat),
        (pos + (ss.flatMap Segment.chars ++ s.text).length : Nat)⟩⟩] := by
  rw [tokensFrom_append, List.length_append, ← Nat.add_assoc]
  rfl

theorem start_of_mem_head? {pos : Nat} {ss : List Segment} {t : Token}
    (h : t ∈ (tokensFrom pos ss).head?) : t.span.start = pos := by
  cases ss with
  | nil => cases h
  | cons s ss =>
    obtain rfl := Option.some.inj h
    rfl

theorem tokensFrom_add (k pos : Nat) (ss : List Segment) :
    tokensFrom (pos + k) ss = (tokensFrom pos ss).map (Token.shift k) := by
  induction ss generalizing pos with
  | nil => rfl
  | cons s ss ih =>
    rw [tokensFrom, tokensFrom, List.map_cons, ← ih, Token.shift, shift_span,
      Nat.add_right_comm pos k]

/-- Where tokens are divided, their segments are, as each segment has one token. The segments of the
second part start where those of the first end. -/
theorem exists_segments_of_append {pos : Nat} {ss : List Segment} {ts us : List Token}
    (h : tokensFrom pos ss = ts ++ us) : ∃ front rest, ss = front ++ rest ∧
      tokensFrom pos front = ts ∧
      tokensFrom (pos + (front.flatMap Segment.chars).length) rest = us := by
  induction ts generalizing pos ss with
  | nil => exact ⟨[], ss, rfl, rfl, h⟩
  | cons t ts ih =>
    cases ss with
    | nil => cases h
    | cons s ss =>
      obtain ⟨rfl, hrest⟩ := List.cons.inj h
      obtain ⟨front, rest, rfl, hfront, htokens⟩ := ih hrest
      refine ⟨s :: front, rest, rfl, by rw [tokensFrom, hfront], ?_⟩
      rw [List.flatMap_cons, List.length_append, ← Nat.add_assoc]
      exact htokens

/-- The tokens of segments are in order: each starts where the one before it stops, or later if
there is a gap between them. -/
theorem ordered_tokensFrom {pos : Nat} {ss : List Segment} (h : ∀ s ∈ ss, s.text ≠ []) :
    Token.Ordered (tokensFrom pos ss) := by
  induction ss generalizing pos with
  | nil => exact ⟨nofun, .nil⟩
  | cons s ss ih =>
    rw [List.forall_mem_cons] at h
    obtain ⟨proper, before⟩ : Token.Ordered (tokensFrom (pos + s.chars.length) ss) := ih h.2
    have hpos := List.length_pos_iff.mpr h.1
    refine ⟨List.forall_mem_cons.mpr ⟨?_, proper⟩, List.pairwise_cons.mpr ⟨?_, before⟩⟩
    · show (pos : Int) < pos + s.text.length
      omega
    · intro t ht
      obtain ⟨front, u, rest, -, rfl⟩ := exists_segment_of_mem_tokensFrom ht
      simp only [Segment.chars, List.length_append]
      omega

/-- The tokens of a source are in order. -/
theorem ordered_ofSource (source : String) : Token.Ordered (Lexed.ofSource source).tokens := by
  obtain ⟨text, after, l, -, -, htokens, -⟩ := laidOut_scan 0 source.toList
  rw [Lexed.ofSource, htokens]
  exact ordered_tokensFrom fun s hs => (l.spelled s hs).ne_nil

/-! ## A part of a layout -/

/-- A gap asks for the first character after it only. So a gap before one text is a gap before every
text that starts alike. -/
theorem Gap.congr_head {after after' gap : List Char} (h : Gap after gap)
    (head : after.head? = after'.head?) : Gap after' gap := by
  induction h with
  | nil => exact .nil
  | blank isBlank _ ih => exact .blank isBlank ih
  | comment oneLine ends _ ih =>
    refine .comment oneLine ?_ ih
    rw [EndsLine, List.head?_append, head, ← List.head?_append] at ends
    exact ends

namespace Layout

variable {text after : List Char}

/-- The layout of what stands from the first to the last of some lexemes. -/
def part (l : Layout text after) {before ss rest : List Segment} {s : Segment}
    (h : l.segments = before ++ (ss ++ s :: rest)) :
    Layout (ss.flatMap Segment.chars ++ s.text) [] where
  lead := []
  segments := ss ++ [{ s with gap := [] }]
  text_eq := by simp [Segment.chars]
  spelled := by
    rw [List.forall_mem_append, List.forall_mem_singleton]
    exact ⟨fun t ht => l.spelled t (by simp [h, ht]), l.spelled s (by simp [h])⟩
  leadGap := .nil
  gaps t more ht := by
    rcases List.suffix_concat_iff.mp ht with hnil | ⟨ts, heq, suffix⟩
    · cases hnil
    · cases ts with
      | nil =>
        obtain ⟨rfl, -⟩ := List.cons.inj heq
        exact .nil
      | cons u ts =>
        obtain ⟨rfl, rfl⟩ := List.cons.inj heq
        obtain ⟨front, rfl⟩ := suffix
        have gap := l.gaps t (ts ++ s :: rest) ⟨before ++ front, by simp [h]⟩
        -- What follows the gap goes on at least up to the end of the last lexeme.
        have hlong : (ts ++ s :: rest).flatMap Segment.chars ++ after =
            (ts.flatMap Segment.chars ++ s.text) ++
              (s.gap ++ (rest.flatMap Segment.chars ++ after)) := by simp [Segment.chars]
        have hshort : (ts ++ [{ s with gap := [] }]).flatMap Segment.chars ++ [] =
            ts.flatMap Segment.chars ++ s.text := by simp [Segment.chars]
        have hne : ts.flatMap Segment.chars ++ s.text ≠ [] :=
          List.append_ne_nil_of_right_ne_nil _ (l.spelled s (by simp [h])).ne_nil
        refine gap.congr_head ?_
        rw [hlong, List.head?_append_of_ne_nil _ hne]
        exact congrArg List.head? hshort.symm
  apart := by
    have apart := l.apart
    rw [h, List.isChain_append, List.isChain_append] at apart
    obtain ⟨-, ⟨chain, -, joint⟩, -⟩ := apart
    rw [List.isChain_append]
    refine ⟨chain, .singleton _, ?_⟩
    rintro t ht u ⟨⟩
    exact joint t ht s rfl

/-- Tokens that follow each other take up a part of the source, which is lexed to the same tokens
when it stands alone. The last of them loses the gap after it, so the part ends with its
spelling. -/
theorem exists_slice (l : Layout text after) {us ts vs : List Token}
    (h : l.tokens 0 = us ++ (ts ++ vs)) (hne : ts ≠ []) : ∃ before slice rest,
      text = before ++ slice ++ rest ∧ slice ≠ [] ∧
      (∃ m : Layout slice [], (m.tokens 0).map (Token.shift before.length) = ts) ∧
      (∀ t ∈ ts.head?, t.span.start = before.length) ∧
      ∀ t ∈ ts.getLast?, t.span.stop = (before ++ slice).length := by
  obtain ⟨front, back, hsegments, -, hback⟩ := exists_segments_of_append h
  obtain ⟨middle, rest, rfl, hmiddle, -⟩ := exists_segments_of_append hback
  rcases List.eq_nil_or_concat' middle with rfl | ⟨ss, s, rfl⟩
  · exact (hne hmiddle.symm).elim
  have hwhole : l.segments = front ++ (ss ++ s :: rest) := by rw [hsegments]; simp
  have hpos : 0 + l.lead.length + (front.flatMap Segment.chars).length =
      (l.lead ++ front.flatMap Segment.chars).length := by rw [Nat.zero_add, List.length_append]
  rw [hpos] at hmiddle
  refine ⟨l.lead ++ front.flatMap Segment.chars, ss.flatMap Segment.chars ++ s.text,
    s.gap ++ rest.flatMap Segment.chars, ?_, ?_, ⟨l.part hwhole, ?_⟩, ?_, ?_⟩
  · conv_lhs => rw [l.text_eq, hwhole]
    simp [Segment.chars]
  · exact List.append_ne_nil_of_right_ne_nil _ (l.spelled s (by simp [hwhole])).ne_nil
  · show (tokensFrom (0 + 0) (ss ++ [{ s with gap := [] }])).map _ = ts
    rw [← tokensFrom_add, ← hmiddle, tokensFrom_concat, tokensFrom_concat, Nat.zero_add]
  · rw [← hmiddle]
    intro t ht
    exact start_of_mem_head? ht
  · rw [← hmiddle, tokensFrom_concat, List.getLast?_concat]
    rintro t ⟨⟩
    simp only [List.length_append]

end Layout

/-- Tokens of a source that follow each other take up a part of it, which is lexed to the same
tokens, moved to its start. -/
theorem exists_slice_of_ofSource {source : String} {us ts vs : List Token}
    (h : (Lexed.ofSource source).tokens = us ++ (ts ++ vs)) (hne : ts ≠ []) :
    ∃ before slice rest ts', source.toList = before ++ slice ++ rest ∧ slice ≠ [] ∧
      Lexed.ofSource (String.ofList slice) = { tokens := ts' } ∧
      ts = ts'.map (Token.shift before.length) ∧
      (∀ t ∈ ts.head?, t.span.start = before.length) ∧
      ∀ t ∈ ts.getLast?, t.span.stop = (before ++ slice).length := by
  obtain ⟨text, after, l, hsource, -, htokens, -⟩ := laidOut_scan 0 source.toList
  obtain ⟨before, slice, rest, htext, hslice, ⟨m, hm⟩, hstart, hstop⟩ :=
    l.exists_slice (htokens.symm.trans h) hne
  refine ⟨before, slice, rest ++ after, m.tokens 0, ?_, hslice, ?_, hm.symm, hstart, hstop⟩
  · rw [hsource, htext, List.append_assoc _ rest]
  · have hscan := m.scan_eq (by simp [Layout.Stops]) 0
    simpa [Lexed.ofSource, Lexed.prepend, scan] using hscan

end Lexer

end TypedSexp
