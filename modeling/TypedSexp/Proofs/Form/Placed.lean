import TypedSexp.Proofs.Form.Nesting

/-!
# The places of forms and of reading faults

A form read from a source has a place inside the source, and so has every form in it
(`Form.placed_of_parse`). A leaf has the place of its token, so the text at the place of a
symbol is its name. A list or vector covers its two delimiters.

A source that cannot be read has its fault inside as well (`Form.exists_inside_of_parse_error`):
the fault names a token or a part of the source that could not be lexed, and an empty source
has no fault.

That a place is no larger than the text of the form is not shown here but with the slices of a
source. Places of forms that were not read, but built or restored, are left out: they may be
anything.
-/

namespace TypedSexp

/-- The token stands inside a source, and a name stands where it is spelled. -/
structure Token.Placed (source : List Char) (t : Token) : Prop where
  inside : t.span.Inside source
  name : ∀ name, t.lexeme = .ident name → t.span.slice source = name.toList

/-- The tokens of a source stand where they are spelled: inside the source, and the text at the
place spells the token. -/
theorem Lexer.placed_of_mem_ofSource {source : String} {t : Token}
    (h : t ∈ (Lexed.ofSource source).tokens) : t.Placed source.toList := by
  refine ⟨inside_of_mem_ofSource h, fun name hname => ?_⟩
  obtain ⟨before, word, after, hsource, spells, hspan⟩ := spells_of_mem_ofSource h
  rw [hname] at spells
  cases spells with
  | ident isName => rw [hspan, Span.slice_of_eq hsource, String.toList_ofList]

namespace Form

/-- The form has a place inside a source, and a symbol stands where its name is spelled. -/
structure Stands (source : List Char) (e : Form Note) (s : Span) : Prop where
  span_eq : e.note.span = some s
  inside : s.Inside source
  name : ∀ n name, e = .symbol n name → s.slice source = name.toList

/-- Every form in a form stands inside a source. -/
def Placed (source : List Char) (e : Form Note) : Prop := ∀ x ∈ e.walk, ∃ s, Stands source x s

section Tokens

variable {source : List Char}

/-- A leaf stands where its token does, and a symbol is spelled by its own name there. Other leaves
may be spelled in several ways. -/
theorem OfLeaf.placed {t : Token} {e : Form Note} (h : OfLeaf t e) (ht : t.Placed source) :
    Placed source e := by
  intro x hx
  cases h with
  | symbol =>
    obtain rfl := List.mem_singleton.mp hx
    refine ⟨_, rfl, ht.inside, ?_⟩
    rintro n name ⟨⟩
    exact ht.name _ rfl
  | string =>
    obtain rfl := List.mem_singleton.mp hx
    exact ⟨_, rfl, ht.inside, nofun⟩
  | number =>
    obtain rfl := List.mem_singleton.mp hx
    exact ⟨_, rfl, ht.inside, nofun⟩

/-- A list or vector stands inside if its delimiters and its elements do. Its place covers both
delimiters. -/
theorem Placed.compound (d : Delimiter) {o c : Span} (opening : o.Inside source)
    (closing : c.Inside source) {es : List (Form Note)} (inner : ∀ e ∈ es, Placed source e) :
    Placed source (Reader.compound d (Reader.noteAt (o.cover c)) es) := by
  have elements : ∀ x ∈ walkAll es, ∃ s, Stands source x s := by
    intro x hx
    rw [walkAll_eq_flatMap, List.mem_flatMap] at hx
    obtain ⟨e, he, hx⟩ := hx
    exact inner e he x hx
  cases d with
  | paren =>
    exact List.forall_mem_cons.mpr ⟨⟨_, rfl, opening.cover closing, nofun⟩, elements⟩
  | bracket =>
    exact List.forall_mem_cons.mpr ⟨⟨_, rfl, opening.cover closing, nofun⟩, elements⟩

mutual

/-- Forms stand where their tokens do, and so do all forms inside them. -/
theorem Flattens.placed : ∀ {e : Form Note} {ts : List Token}, Flattens e ts →
    (∀ t ∈ ts, t.Placed source) → Placed source e
  | _, _, .leaf h, tokens => h.placed (tokens _ List.mem_cons_self)
  | _, _, .list inner, tokens => by
    rw [List.forall_mem_cons, List.forall_mem_append, List.forall_mem_singleton] at tokens
    obtain ⟨opening, between, closing⟩ := tokens
    exact Placed.compound .paren opening.inside closing.inside (inner.placed between)
  | _, _, .vector inner, tokens => by
    rw [List.forall_mem_cons, List.forall_mem_append, List.forall_mem_singleton] at tokens
    obtain ⟨opening, between, closing⟩ := tokens
    exact Placed.compound .bracket opening.inside closing.inside (inner.placed between)

theorem FlattensAll.placed : ∀ {es : List (Form Note)} {ts : List Token}, FlattensAll es ts →
    (∀ t ∈ ts, t.Placed source) → ∀ e ∈ es, Placed source e
  | _, _, .nil, _ => nofun
  | _, _, .cons first rest, tokens => by
    rw [List.forall_mem_append] at tokens
    rw [List.forall_mem_cons]
    exact ⟨first.placed tokens.1, rest.placed tokens.2⟩

end

end Tokens

/-- The forms of a source stand inside it, at every depth. What their text is at these places is
said in `Form.parse_delimits`. -/
theorem placed_of_parse {source : String} {es : List (Form Note)} (h : parse source = .ok es) :
    ∀ e ∈ es, Placed source.toList e := by
  have hread := (ofLexed_eq_ok_iff.mp h).2
  exact (flattensAll_of_ofTokens hread).placed fun t ht => Lexer.placed_of_mem_ofSource ht

/-! ## Faults -/

/-- Tokens of a source that cannot be read on have the fault at one of them. Which one it is does
not matter here, only that it has a place inside. -/
theorem exists_token_of_run_error {source : String} {f : ReadFault}
    (h : Reader.run {} (Lexed.ofSource source).tokens = .error f) :
    ∃ t ∈ (Lexed.ofSource source).tokens, f.diagnostic.span = some t.span := by
  have known : ∀ t ∈ (Lexed.ofSource source).tokens, ∀ shown, t.lexeme ≠ .other shown :=
    fun t ht => known_of_mem_ofSource ht
  by_cases hnested : Token.Nested (Lexed.ofSource source).tokens
  · obtain ⟨st, hrun⟩ := Reader.exists_run known hnested
    rw [hrun] at h
    cases h
  · obtain ⟨before, t, after, htokens, hbefore, ht⟩ := Token.exists_unmatched hnested
    rw [htokens] at h known ⊢
    rw [List.forall_mem_append] at known
    obtain ⟨g, hrun, reports⟩ := Reader.run_unmatched known.1 hbefore ht after
    rw [hrun] at h
    cases h
    exact ⟨t, List.mem_append_right _ List.mem_cons_self, reports.span_eq⟩

/-- What is reported as never closed is a token, namely the one that opened it. The end of the
source itself has no place. -/
theorem exists_token_of_finish_error {ts : List Token} {st : Reader.State} {f : ReadFault}
    (hrun : Reader.run {} ts = .ok st) (h : Reader.finish st = .error f) :
    ∃ t ∈ ts, f.diagnostic.span = some t.span := by
  have hopened := Reader.opened_run hrun
  cases hstack : st.stack with
  | nil =>
    have hclosed : st.opened = [] := List.map_eq_nil_iff.mpr hstack
    rw [Reader.finish_closed hclosed] at h
    cases h
  | cons frame stack =>
    have hhead : frame.token ∈ st.opened.head? := by
      rw [Reader.State.opened, hstack]
      rfl
    obtain ⟨g, hfinish, reports⟩ := Reader.finish_opened hhead
    rw [hfinish] at h
    cases h
    have hmem : frame.token ∈ Token.stillOpen ts := hopened ▸ List.mem_of_mem_head? hhead
    exact ⟨frame.token, Token.mem_of_mem_stillOpen hmem, reports.span_eq⟩

/-- A source that cannot be read has its fault inside, whether lexing or reading stopped. In either
case the fault names at least one character of the source. -/
theorem exists_inside_of_parse_error {source : String} {f : ParseFault}
    (h : parse source = .error f) :
    ∃ s, f.diagnostic.span = some s ∧ s.Inside source.toList := by
  have placed : ∀ {g : ReadFault}, (∃ t ∈ (Lexed.ofSource source).tokens,
      g.diagnostic.span = some t.span) → ∃ s, g.diagnostic.span = some s ∧
        s.Inside source.toList := by
    rintro g ⟨t, ht, hspan⟩
    exact ⟨t.span, hspan, Lexer.inside_of_mem_ofSource ht⟩
  rw [parse, ofLexed] at h
  cases hrun : Reader.run {} (Lexed.ofSource source).tokens with
  | error g =>
    rw [hrun] at h
    cases h
    exact placed (exists_token_of_run_error hrun)
  | ok st =>
    rw [hrun] at h
    dsimp only at h
    cases hfault : (Lexed.ofSource source).fault with
    | some e =>
      rw [hfault] at h
      cases h
      exact ⟨e.span, e.diagnostic_span, Lexer.inside_of_fault hfault⟩
    | none =>
      rw [hfault] at h
      dsimp only at h
      cases hfinish : Reader.finish st with
      | ok es =>
        rw [hfinish] at h
        cases h
      | error g =>
        rw [hfinish] at h
        cases h
        exact placed (exists_token_of_finish_error hrun hfinish)

end Form

end TypedSexp
