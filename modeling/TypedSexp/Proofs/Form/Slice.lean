import TypedSexp.Proofs.Form.Joined
import TypedSexp.Proofs.Form.Notes
import TypedSexp.Proofs.Token.Slice

/-!
# The text of a form

The place of a form is exactly the text of the form. This text alone is read as the form again,
with its places moved to the start. The elements of a list or vector stand one after the other
between its delimiters, and so do the forms of a source (`Form.parse_delimits`).

All of this is seen in the tokens. The tokens of a form in a source are some that follow each
other (`Form.Flattens.exists_part`), and the place of the form goes from the start of the first
one to the stop of the last one (`Form.Flattens.exists_ends`), since the tokens of a source are in
order. Their part of the source is lexed to the same tokens (`Lexer.exists_slice_of_ofSource`), and
moved tokens are read as moved forms (`Form.parseOne_of_shift`).

Nothing is said about the text between forms, and nothing about types, as reading gives none.
-/

namespace TypedSexp

/-- The note moved by a number of characters, to the left if it is negative. -/
def Note.move (k : Int) (n : Note) : Note := { n with span := n.span.map (Span.shift k) }

namespace Form

/-- The form moved by a number of characters, to the left if it is negative. -/
def move (k : Int) : Form Note → Form Note := map (Note.move k)

/-- The first form stops before the second one starts. -/
def Before (e f : Form Note) : Prop :=
  ∃ s t, e.note.span = some s ∧ f.note.span = some t ∧ s.stop ≤ t.start

/-- The second form starts after the first one does and stops before it does. -/
def Encloses (e f : Form Note) : Prop :=
  ∃ s t, e.note.span = some s ∧ f.note.span = some t ∧ s.start < t.start ∧ t.stop < s.stop

/-- What was moved to the right is moved back by moving it to the left. Moving to the left first is
another matter, as places may become negative. -/
theorem move_shift (k : Nat) (e : Form Note) : (e.shift k).move (-k) = e := by
  have hnote : ∀ n : Note, Note.move (-k) (Note.shift k n) = n := by
    rintro ⟨span, type⟩
    cases span with
    | none => rfl
    | some s => simp [Note.move, Note.shift, Span.shift]
  rw [move, shift, map_map, funext hnote]
  exact map_id e

/-! ## The tokens of a form in a form -/

mutual

/-- The tokens of a form in a form follow each other among the tokens of that form, and the inner
form flattens to them. Induction over the flattening. -/
theorem Flattens.exists_part : ∀ {e : Form Note} {ts : List Token}, Flattens e ts →
    ∀ x ∈ e.walk, ∃ us, Flattens x us ∧ us <:+: ts
  | e, _, .leaf h, x, hx => by
    have hself : x = e := by
      cases h <;> exact List.mem_singleton.mp hx
    exact ⟨_, hself ▸ .leaf h, List.infix_rfl⟩
  | _, _, .list inner, x, hx => by
    rcases List.mem_cons.mp hx with rfl | hx
    · exact ⟨_, .list inner, List.infix_rfl⟩
    · obtain ⟨us, hus, part⟩ := inner.exists_part x hx
      exact ⟨us, hus, part.trans ⟨[_], [_], rfl⟩⟩
  | _, _, .vector inner, x, hx => by
    rcases List.mem_cons.mp hx with rfl | hx
    · exact ⟨_, .vector inner, List.infix_rfl⟩
    · obtain ⟨us, hus, part⟩ := inner.exists_part x hx
      exact ⟨us, hus, part.trans ⟨[_], [_], rfl⟩⟩

theorem FlattensAll.exists_part : ∀ {es : List (Form Note)} {ts : List Token},
    FlattensAll es ts → ∀ x ∈ walkAll es, ∃ us, Flattens x us ∧ us <:+: ts
  | _, _, .nil, x, hx => by cases hx
  | _, _, .cons first rest, x, hx => by
    rcases List.mem_append.mp hx with hx | hx
    · obtain ⟨us, hus, part⟩ := first.exists_part x hx
      exact ⟨us, hus, part.trans (List.infix_append_left ..)⟩
    · obtain ⟨us, hus, part⟩ := rest.exists_part x hx
      exact ⟨us, hus, part.trans (List.infix_append_right ..)⟩

end

/-- The tokens of one of several forms follow each other. -/
theorem FlattensAll.exists_part_of_mem {e : Form Note} {es : List (Form Note)} {ts : List Token}
    (h : FlattensAll es ts) (he : e ∈ es) : ∃ us, Flattens e us ∧ us <:+: ts := by
  refine h.exists_part e ?_
  rw [walkAll_eq_flatMap]
  exact List.mem_flatMap.mpr ⟨e, he, e.mem_walk_self⟩

/-! ## Places -/

/-- The cover of the first and the last of ordered tokens goes from the start of the first to the
stop of the last. -/
theorem cover_ordered {o c : Token} {ts : List Token} (h : Token.Ordered (o :: (ts ++ [c]))) :
    o.span.cover c.span = ⟨o.span.start, c.span.stop⟩ := by
  have hopen := h.proper o List.mem_cons_self
  have hclose := h.proper c (by simp)
  have hbetween := (List.pairwise_cons.mp h.before).1 c (by simp)
  simp only [Span.cover, Span.mk.injEq]
  omega

/-- The place of a form goes from its first token to its last one. A leaf has one token, which is
both. -/
theorem Flattens.exists_ends {e : Form Note} {ts : List Token} (h : Flattens e ts)
    (ordered : Token.Ordered ts) : ∃ first ∈ ts.head?, ∃ last ∈ ts.getLast?,
      e.note.span = some ⟨first.span.start, last.span.stop⟩ := by
  cases h with
  | @leaf t e h =>
    refine ⟨t, rfl, t, rfl, ?_⟩
    cases h <;> rfl
  | list inner =>
    rw [← List.cons_append, List.getLast?_concat]
    exact ⟨_, rfl, _, rfl, congrArg some (cover_ordered ordered)⟩
  | vector inner =>
    rw [← List.cons_append, List.getLast?_concat]
    exact ⟨_, rfl, _, rfl, congrArg some (cover_ordered ordered)⟩

/-- Forms whose tokens follow each other stand one after the other. They may touch, but they do not
overlap. -/
theorem FlattensAll.pairwise_before {es : List (Form Note)} {ts : List Token}
    (h : FlattensAll es ts) (ordered : Token.Ordered ts) : es.Pairwise Before := by
  induction es generalizing ts with
  | nil => exact .nil
  | cons e es ih =>
    cases h with
    | @cons _ _ ts us first rest =>
      have hts := ordered.sublist (List.sublist_append_left ts us)
      have hus := ordered.sublist (List.sublist_append_right ts us)
      refine List.pairwise_cons.mpr ⟨fun f hf => ?_, ih rest hus⟩
      obtain ⟨vs, hvs, part⟩ := rest.exists_part_of_mem hf
      obtain ⟨_, _, t, ht, hspan⟩ := first.exists_ends hts
      obtain ⟨u, hu, _, _, hspan'⟩ := hvs.exists_ends (hus.sublist part.sublist)
      have hcross := (List.pairwise_append.mp ordered.before).2.2
      exact ⟨_, _, hspan, hspan', hcross t (List.mem_of_getLast? ht) u
        (part.subset (List.mem_of_head? hu))⟩

/-- Forms whose tokens stand between two delimiters stand between these, and so strictly inside the
form that the delimiters make. -/
theorem FlattensAll.encloses {e : Form Note} {es : List (Form Note)} {o c : Token}
    {ts : List Token} (h : FlattensAll es ts) (ordered : Token.Ordered (o :: (ts ++ [c])))
    (hspan : e.note.span = some (o.span.cover c.span)) : ∀ f ∈ es, Encloses e f := by
  intro f hf
  obtain ⟨us, hus, part⟩ := h.exists_part_of_mem hf
  obtain ⟨hopen, hrest⟩ := List.pairwise_cons.mp ordered.before
  have hclose := (List.pairwise_append.mp hrest).2.2
  obtain ⟨t, ht, u, hu, hspan'⟩ := hus.exists_ends (ordered.inner.sublist part.sublist)
  have ht := part.subset (List.mem_of_head? ht)
  have hu := part.subset (List.mem_of_getLast? hu)
  rw [cover_ordered ordered] at hspan
  refine ⟨_, _, hspan, hspan', ?_, ?_⟩
  · exact Int.lt_of_lt_of_le (ordered.proper o List.mem_cons_self) (hopen t (by simp [ht]))
  · exact Int.lt_of_le_of_lt (hclose u hu c List.mem_cons_self) (ordered.proper c (by simp))

/-- The elements of a form stand one after the other between its delimiters. -/
theorem Flattens.children_placed {e : Form Note} {ts : List Token} (h : Flattens e ts)
    (ordered : Token.Ordered ts) :
    e.children.Pairwise Before ∧ ∀ f ∈ e.children, Encloses e f := by
  cases h with
  | leaf h => cases h <;> exact ⟨.nil, nofun⟩
  | list inner => exact ⟨inner.pairwise_before ordered.inner, inner.encloses ordered rfl⟩
  | vector inner => exact ⟨inner.pairwise_before ordered.inner, inner.encloses ordered rfl⟩

/-! ## Reading the text of a form -/

/-- Tokens are read as a form if the moved tokens are those of the moved form. This takes the
reading of a part of a source back to the reading of the whole. -/
theorem parseOne_of_shift {slice : String} {k : Nat} {e : Form Note} {ts : List Token}
    (hslice : Lexed.ofSource slice = { tokens := ts })
    (h : Flattens e (ts.map (Token.shift k))) : parseOne slice = .ok (e.move (-k)) := by
  have hmoved : ofLexed ((Lexed.shift k { tokens := ts }).prepend []) = .ok [e] :=
    ofLexed_eq_ok_iff.mpr ⟨rfl, (FlattensAll.singleton h).ofTokens_eq⟩
  rw [ofLexed_prepend_shift .nil, ← hslice] at hmoved
  rw [parseOne, parse]
  cases hread : ofLexed (Lexed.ofSource slice) with
  | error f =>
    rw [hread] at hmoved
    cases hmoved
  | ok es =>
    rw [hread] at hmoved
    have hes : es.map (shift k) = [e] := Except.ok.inj hmoved
    obtain ⟨x, rfl, rfl⟩ := List.map_eq_singleton_iff.mp hes
    rw [move_shift]

/-- A form of a source is read from the text at its place. The text has exactly the tokens of the
form, since it starts with the first of them and ends with the last. -/
theorem Flattens.parseOne_slice {source : String} {e : Form Note} {ts : List Token}
    (h : Flattens e ts) (part : ts <:+: (Lexed.ofSource source).tokens) :
    ∃ s, e.note.span = some s ∧ s.Inside source.toList ∧
      parseOne (String.ofList (s.slice source.toList)) = .ok (e.move (-s.start)) := by
  have ordered := (Lexer.ordered_ofSource source).sublist part.sublist
  obtain ⟨t, ht, u, hu, hspan⟩ := h.exists_ends ordered
  obtain ⟨us, vs, htokens⟩ := part
  rw [List.append_assoc] at htokens
  have hne : ts ≠ [] := List.ne_nil_of_mem (List.mem_of_head? ht)
  obtain ⟨before, slice, rest, ts', hsource, hslice, hlexed, rfl, hstart, hstop⟩ :=
    Lexer.exists_slice_of_ofSource htokens.symm hne
  rw [hstart t ht, hstop u hu] at hspan
  refine ⟨_, hspan, Span.inside_of_eq hsource hslice, ?_⟩
  rw [Span.slice_of_eq hsource]
  exact parseOne_of_shift hlexed h

/-- **The place of a form is exactly its text.** In the forms of a source, the text at the place
of every form is read as that form, moved to the start. The elements of every form stand one after
the other, strictly inside it, and the forms of the source stand one after the other. -/
theorem parse_delimits {source : String} {es : List (Form Note)} (h : parse source = .ok es) :
    (∀ e ∈ es, ∀ x ∈ e.walk,
      (∃ s, x.note.span = some s ∧ s.Inside source.toList ∧
        parseOne (String.ofList (s.slice source.toList)) = .ok (x.move (-s.start))) ∧
      x.children.Pairwise Before ∧ ∀ f ∈ x.children, Encloses x f) ∧
    es.Pairwise Before := by
  have flat : FlattensAll es (Lexed.ofSource source).tokens :=
    flattensAll_of_ofTokens (ofLexed_eq_ok_iff.mp h).2
  have ordered := Lexer.ordered_ofSource source
  refine ⟨fun e he x hx => ?_, flat.pairwise_before ordered⟩
  have hwalk : x ∈ walkAll es := by
    rw [walkAll_eq_flatMap]
    exact List.mem_flatMap.mpr ⟨e, he, hx⟩
  obtain ⟨ts, hts, part⟩ := flat.exists_part x hwalk
  exact ⟨hts.parseOne_slice part, hts.children_placed (ordered.sublist part.sublist)⟩

/-- A list with a bracket in a string, a comment between two elements and words that touch
delimiters. The vector in it is read from its seven characters, of which three are the comment. -/
theorem parse_delimits_comment :
    let source := "x (f\"(\"[a;)\nb]1) y"
    let vector : Form Note := .vector { span := some ⟨7, 14⟩ }
      [.symbol { span := some ⟨8, 9⟩ } "a", .symbol { span := some ⟨12, 13⟩ } "b"]
    let list : Form Note := .list { span := some ⟨2, 16⟩ } [.symbol { span := some ⟨3, 4⟩ } "f",
      .string { span := some ⟨4, 7⟩ } "(", vector, .number { span := some ⟨14, 15⟩ } (.int 1)]
    parse source = .ok [.symbol { span := some ⟨0, 1⟩ } "x", list,
        .symbol { span := some ⟨17, 18⟩ } "y"] ∧
      parseOne "[a;)\nb]" = .ok (.vector { span := some ⟨0, 7⟩ }
        [.symbol { span := some ⟨1, 2⟩ } "a", .symbol { span := some ⟨5, 6⟩ } "b"]) ∧
      list.children.Pairwise Before ∧ Encloses list vector := by
  intro source vector list
  have hlexed : Lexed.ofSource source = { tokens := [⟨.ident "x", ⟨0, 1⟩⟩,
      ⟨.opener .paren, ⟨2, 3⟩⟩, ⟨.ident "f", ⟨3, 4⟩⟩, ⟨.string "(", ⟨4, 7⟩⟩,
      ⟨.opener .bracket, ⟨7, 8⟩⟩, ⟨.ident "a", ⟨8, 9⟩⟩, ⟨.ident "b", ⟨12, 13⟩⟩,
      ⟨.closer .bracket, ⟨13, 14⟩⟩, ⟨.number (.int 1), ⟨14, 15⟩⟩, ⟨.closer .paren, ⟨15, 16⟩⟩,
      ⟨.ident "y", ⟨17, 18⟩⟩] } := by
    decide +kernel
  have h : parse source = .ok [.symbol { span := some ⟨0, 1⟩ } "x", list,
      .symbol { span := some ⟨17, 18⟩ } "y"] := by
    rw [parse, hlexed]
    rfl
  obtain ⟨forms, -⟩ := parse_delimits h
  have hlist := forms list (by simp)
  obtain ⟨⟨s, hs, -, hread⟩, -⟩ := hlist vector (by simp [list, vector, walk, walkAll])
  obtain ⟨-, before, inside⟩ := hlist list (mem_walk_self list)
  obtain rfl : ⟨7, 14⟩ = s := Option.some.inj hs
  have htext : String.ofList (Span.slice ⟨7, 14⟩ source.toList) = "[a;)\nb]" := by decide
  have hmoved : vector.move (-7) = .vector { span := some ⟨0, 7⟩ }
      [.symbol { span := some ⟨1, 2⟩ } "a", .symbol { span := some ⟨5, 6⟩ } "b"] := rfl
  rw [htext] at hread
  have hinside := inside vector (by simp [list, children])
  exact ⟨h, hread.trans (congrArg Except.ok hmoved), before, hinside⟩

end Form

end TypedSexp
