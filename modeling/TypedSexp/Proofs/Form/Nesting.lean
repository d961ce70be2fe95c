import TypedSexp.Proofs.Form.Flattening
import TypedSexp.Proofs.Result
import TypedSexp.Proofs.Token.Placed

/-!
# The earliest fault

Tokens are read as they are lexed, so of several faults in a source the first one met counts. A
closing delimiter that does not match is met at its own place, even if the source cannot be
lexed further on. A fault of lexing is met before the end of the source, so it hides what is
left open. Only at the end a delimiter that was never closed is a fault, and it is the innermost
one that is named (`Form.parse_reports_earliest`).

Which delimiters match is said of the tokens alone. `Token.stillOpen` gives the delimiters that
tokens leave open, and tokens are nested if no closing delimiter in them is unmatched
(`Token.Nested`). The frames of the reader are the delimiters still open (`Reader.opened_run`),
so it goes on through nested tokens and stops at the first unmatched one.

Of what is reported the stage, the kind and the place are given, not the detail. Further faults of
the source are not reported at all.
-/

namespace TypedSexp

/-! ## Nested tokens -/

namespace Token

/-- The open delimiters, the innermost first, after one more token. A closing delimiter takes
the innermost one away, whether or not the two match. -/
def nest (stack : List Token) (t : Token) : List Token :=
  match t.lexeme with
  | .opener _ => t :: stack
  | .closer _ => stack.tail
  | _ => stack

/-- The opening delimiters that tokens leave open, the innermost first. -/
def stillOpen (ts : List Token) : List Token := ts.foldl nest []

/-- The token is a closing delimiter, and either nothing is open or what is open innermost is
not of its kind. -/
def Unmatched (stack : List Token) (t : Token) : Prop :=
  ∃ d, t.lexeme = .closer d ∧ ∀ o ∈ stack.head?, o.lexeme ≠ .opener d

/-- No closing delimiter among the tokens is unmatched where it stands. -/
def Nested (ts : List Token) : Prop :=
  ∀ before t after, ts = before ++ t :: after → ¬Unmatched (stillOpen before) t

/-- One more token does to what is open what it does alone. -/
theorem stillOpen_concat (ts : List Token) (t : Token) :
    stillOpen (ts ++ [t]) = nest (stillOpen ts) t := by
  unfold stillOpen
  rw [List.foldl_append]
  rfl

theorem nested_nil : Nested [] := by
  intro before t after h
  simp at h

/-- Tokens with one more are nested exactly if they were before and the new one is not unmatched
there. -/
theorem nested_concat_iff {ts : List Token} {t : Token} :
    Nested (ts ++ [t]) ↔ Nested ts ∧ ¬Unmatched (stillOpen ts) t := by
  constructor
  · intro h
    refine ⟨fun before u after hts => ?_, h ts t [] rfl⟩
    exact h before u (after ++ [t]) (by rw [hts, List.append_assoc, List.cons_append])
  · rintro ⟨hts, ht⟩ before u after heq
    rcases List.eq_nil_or_concat' after with rfl | ⟨after', v, rfl⟩
    · obtain ⟨rfl, hlast⟩ := List.append_inj' heq rfl
      cases hlast
      exact ht
    · rw [← List.cons_append, ← List.append_assoc] at heq
      exact hts before u after' (List.append_inj' heq rfl).1

/-- Tokens that are not nested have a first unmatched one. What comes before it is nested, so the
innermost open delimiter there is known. -/
theorem exists_unmatched {ts : List Token} (h : ¬Nested ts) : ∃ before t after,
    ts = before ++ t :: after ∧ Nested before ∧ Unmatched (stillOpen before) t := by
  induction ts using List.reverseRecOn with
  | nil => exact (h nested_nil).elim
  | append_singleton ts t ih =>
    by_cases hts : Nested ts
    · by_cases ht : Unmatched (stillOpen ts) t
      · exact ⟨ts, t, [], rfl, hts, ht⟩
      · exact (h (nested_concat_iff.mpr ⟨hts, ht⟩)).elim
    · obtain ⟨before, u, after, rfl, hbefore, hu⟩ := ih hts
      exact ⟨before, u, after ++ [t], by rw [List.append_assoc, List.cons_append], hbefore, hu⟩

/-- What is left open is among the tokens, so it has a place in the source. -/
theorem mem_of_mem_stillOpen {ts : List Token} {o : Token} (h : o ∈ stillOpen ts) : o ∈ ts := by
  induction ts using List.reverseRecOn with
  | nil => exact h
  | append_singleton ts t ih =>
    rw [stillOpen_concat, nest] at h
    rw [List.mem_append, List.mem_singleton]
    split at h
    · rcases List.mem_cons.mp h with rfl | h
      · exact .inr rfl
      · exact .inl (ih h)
    · exact .inl (ih (List.mem_of_mem_tail h))
    · exact .inl (ih h)

end Token

/-! ## The frames of the reader -/

/-- The failure is of a stage and a kind, at a place. -/
structure Diagnostic.Reports (d : Diagnostic) (stage : Stage) (kind : String) (s : Span) :
    Prop where
  stage_eq : d.stage = stage
  kind_eq : d.kind = kind
  span_eq : d.span = some s

namespace Reader

open Token (nest stillOpen Unmatched Nested)

/-- The delimiter that opened a frame. -/
def Frame.token (f : Frame) : Token := ⟨.opener f.opener, f.span⟩

/-- The delimiters that opened the frames of a state, the innermost first. -/
def State.opened (st : State) : List Token := st.stack.map Frame.token

/-- Reading a token does to the frames what the token does to the open delimiters. The forms that
are read play no part in this. -/
theorem opened_step {st st' : State} {t : Token} (h : step st t = .ok st') :
    st'.opened = nest st.opened t := by
  obtain ⟨l, s⟩ := t
  cases l with
  | opener d =>
    cases h
    rfl
  | closer d =>
    obtain ⟨stack, done⟩ := st
    cases stack with
    | nil => cases h
    | cons f stack =>
      simp only [step] at h
      split at h
      · cases h
        rfl
      · cases h
  | ident name =>
    cases h
    rfl
  | string value =>
    cases h
    rfl
  | number value =>
    cases h
    rfl
  | other shown => cases h

/-- A token of a known kind that is not unmatched is read. Tokens of other kinds come from outside
and are refused wherever they stand. -/
theorem exists_step {st : State} {t : Token} (known : ∀ shown, t.lexeme ≠ .other shown)
    (h : ¬Unmatched st.opened t) : ∃ st', step st t = .ok st' := by
  obtain ⟨l, s⟩ := t
  cases l with
  | closer d =>
    obtain ⟨stack, done⟩ := st
    cases stack with
    | nil => exact (h ⟨d, rfl, nofun⟩).elim
    | cons f stack =>
      by_cases hd : f.opener = d
      · exact ⟨_, if_pos hd⟩
      · refine (h ⟨d, rfl, ?_⟩).elim
        rintro o ⟨⟩ heq
        exact hd (Lexeme.opener.inj heq)
  | other shown => exact (known shown rfl).elim
  | _ => exact ⟨_, rfl⟩

/-- An unmatched token is reported at its place, with one message if nothing is open and another if
something else is. -/
theorem step_unmatched {st : State} {t : Token} (h : Unmatched st.opened t) : ∃ f,
    step st t = .error f ∧ f.diagnostic.Reports .parse "mismatched delimiter" t.span := by
  obtain ⟨d, hclose, hopen⟩ := h
  obtain ⟨l, s⟩ := t
  obtain rfl : l = .closer d := hclose
  obtain ⟨stack, done⟩ := st
  cases stack with
  | nil => exact ⟨.unopened d s, rfl, rfl, rfl, rfl⟩
  | cons f stack =>
    have hne : f.opener ≠ d := fun heq => hopen f.token rfl (congrArg Lexeme.opener heq)
    exact ⟨.crossed f.opener d s, if_neg hne, rfl, rfl, rfl⟩

/-! ## Reading many tokens -/

/-- To read tokens after others is to read the first ones and then the others from the state that is
left. -/
theorem run_append (st : State) (ts us : List Token) :
    run st (ts ++ us) = (run st ts).bind fun st' => run st' us := by
  induction ts generalizing st with
  | nil => rfl
  | cons t ts ih =>
    rw [List.cons_append, run, run]
    cases step st t with
    | error f => rfl
    | ok st' => exact ih st'

theorem run_cons (st : State) (t : Token) (ts : List Token) :
    run st (t :: ts) = (step st t).bind fun st' => run st' ts := by
  rw [run]
  cases step st t <;> rfl

/-- The frames of the reader are the delimiters that the tokens read leave open, the innermost
first. This ties the states of the reader to what is said of the tokens alone. -/
theorem opened_run {ts : List Token} {st : State} (h : run {} ts = .ok st) :
    st.opened = stillOpen ts := by
  have after : ∀ {us : List Token} {st st' : State}, run st us = .ok st' →
      st'.opened = us.foldl nest st.opened := by
    intro us
    induction us with
    | nil =>
      intro st st' h
      cases h
      rfl
    | cons t us ih =>
      intro st st' h
      rw [run_cons] at h
      obtain ⟨st₁, hstep, hrun⟩ := exists_of_bind_eq_ok h
      rw [ih hrun, opened_step hstep, List.foldl_cons]
  exact after h

/-- Nested tokens of known kinds are all read. Some delimiters may still be open then, which only
the end of the source makes a fault. -/
theorem exists_run {ts : List Token} (known : ∀ t ∈ ts, ∀ shown, t.lexeme ≠ .other shown)
    (h : Nested ts) : ∃ st, run {} ts = .ok st := by
  induction ts using List.reverseRecOn with
  | nil => exact ⟨{}, rfl⟩
  | append_singleton ts t ih =>
    obtain ⟨hts, ht⟩ := Token.nested_concat_iff.mp h
    rw [List.forall_mem_append, List.forall_mem_singleton] at known
    obtain ⟨st, hrun⟩ := ih known.1 hts
    rw [← opened_run hrun] at ht
    obtain ⟨st', hstep⟩ := exists_step known.2 ht
    refine ⟨st', ?_⟩
    rw [run_append, hrun]
    show run st [t] = _
    rw [run_cons, hstep]
    rfl

/-- Reading stops at the first unmatched token, whatever follows it. The tokens before it are
nested, so they are all read, and the frames are then the delimiters still open. -/
theorem run_unmatched {before : List Token} {t : Token}
    (known : ∀ u ∈ before, ∀ shown, u.lexeme ≠ .other shown) (hbefore : Nested before)
    (h : Unmatched (stillOpen before) t) (after : List Token) :
    ∃ f, run {} (before ++ t :: after) = .error f ∧
      f.diagnostic.Reports .parse "mismatched delimiter" t.span := by
  obtain ⟨st, hrun⟩ := exists_run known hbefore
  rw [← opened_run hrun] at h
  obtain ⟨f, hstep, reports⟩ := step_unmatched h
  refine ⟨f, ?_, reports⟩
  rw [run_append, hrun]
  show run st (t :: after) = _
  rw [run_cons, hstep]
  rfl

/-- A delimiter left open at the end is reported at its place. Of several it is the innermost, which
was opened last. -/
theorem finish_opened {st : State} {o : Token} (h : o ∈ st.opened.head?) : ∃ f,
    finish st = .error f ∧ f.diagnostic.Reports .parse "unclosed delimiter" o.span := by
  obtain ⟨stack, done⟩ := st
  cases stack with
  | nil => cases h
  | cons f stack =>
    cases h
    exact ⟨.unclosed f.opener f.span, rfl, rfl, rfl, rfl⟩

/-- If nothing is open at the end, the forms that were read are returned. -/
theorem finish_closed {st : State} (h : st.opened = []) : finish st = .ok st.done.reverse := by
  have hstack : st.stack = [] := List.map_eq_nil_iff.mp h
  rw [finish, hstack]

end Reader

namespace Form

open Token (stillOpen Unmatched Nested)

/-- The lexer makes no token of an unknown kind. Only tokens from elsewhere can be of one. -/
theorem known_of_mem_ofSource {source : String} {t : Token}
    (h : t ∈ (Lexed.ofSource source).tokens) (shown : String) : t.lexeme ≠ .other shown := by
  intro hother
  obtain ⟨before, word, after, -, spells, -⟩ := Lexer.spells_of_mem_ofSource h
  rw [hother] at spells
  cases spells

/-- A fault of lexing is reported, if all tokens before it were read. -/
theorem ofLexed_of_fault {l : Lexed} {st : Reader.State} {e : LexFault}
    (hrun : Reader.run {} l.tokens = .ok st) (he : l.fault = some e) :
    ofLexed l = .error (.lex e) := by
  simp only [ofLexed, hrun, he]

/-- A fault at the end is reported, if there was none of lexing. -/
theorem ofLexed_of_finish {l : Lexed} {st : Reader.State} {f : ReadFault}
    (hrun : Reader.run {} l.tokens = .ok st) (hend : l.fault = none)
    (hfinish : Reader.finish st = .error f) : ofLexed l = .error (.read f) := by
  simp only [ofLexed, hrun, hend, hfinish]
  rfl

/-- **The earliest fault of a source is reported.** If a closing delimiter does not match, the
first one of them is reported at its place, whether or not the source can be lexed to its end.
Otherwise a fault of lexing is reported as it is, whatever was left open before it. Otherwise
the innermost delimiter left open is reported, and if none is, the source is read into forms
that flatten to its tokens. -/
theorem parse_reports_earliest (source : String) :
    (¬Nested (Lexed.ofSource source).tokens → ∃ before t after f,
      (Lexed.ofSource source).tokens = before ++ t :: after ∧ Nested before ∧
        Unmatched (stillOpen before) t ∧ parse source = .error f ∧
          f.diagnostic.Reports .parse "mismatched delimiter" t.span) ∧
    (Nested (Lexed.ofSource source).tokens →
      (∀ e, (Lexed.ofSource source).fault = some e → parse source = .error (.lex e)) ∧
      ((Lexed.ofSource source).fault = none →
        (∀ o ∈ (stillOpen (Lexed.ofSource source).tokens).head?, ∃ f, parse source = .error f ∧
          f.diagnostic.Reports .parse "unclosed delimiter" o.span) ∧
        (stillOpen (Lexed.ofSource source).tokens = [] →
          ∃ es, parse source = .ok es ∧ FlattensAll es (Lexed.ofSource source).tokens))) := by
  let l := Lexed.ofSource source
  have known : ∀ t ∈ l.tokens, ∀ shown, t.lexeme ≠ .other shown := fun t ht =>
    known_of_mem_ofSource ht
  constructor
  · intro h
    obtain ⟨before, t, after, htokens, hbefore, ht⟩ := Token.exists_unmatched h
    have knownBefore : ∀ u ∈ before, ∀ shown, u.lexeme ≠ .other shown := fun u hu =>
      known u (htokens ▸ List.mem_append_left _ hu)
    obtain ⟨f, hrun, reports⟩ := Reader.run_unmatched knownBefore hbefore ht after
    refine ⟨before, t, after, .read f, htokens, hbefore, ht, ?_, reports⟩
    rw [← htokens] at hrun
    rw [parse, ofLexed, hrun]
  · intro h
    obtain ⟨st, hrun⟩ := Reader.exists_run known h
    have hopened := Reader.opened_run hrun
    refine ⟨fun e he => ofLexed_of_fault hrun he, fun hend => ⟨fun o ho => ?_, fun hclosed => ?_⟩⟩
    · rw [← hopened] at ho
      obtain ⟨f, hfinish, reports⟩ := Reader.finish_opened ho
      exact ⟨.read f, ofLexed_of_finish hrun hend hfinish, reports⟩
    · have hread : ofTokens l.tokens = .ok st.done.reverse := by
        rw [ofTokens, hrun]
        exact Reader.finish_closed (hopened.trans hclosed)
      exact ⟨_, ofLexed_eq_ok_iff.mpr ⟨hend, hread⟩, flattensAll_of_ofTokens hread⟩

/-- Two faults in each source. A bracket that does not match hides the word after it that is no
number, and such a word hides what is left open before it. -/
theorem parse_reports_earliest_of_two :
    (∃ f, parse "(] 1x" = .error f ∧
      f.diagnostic.Reports .parse "mismatched delimiter" ⟨1, 2⟩) ∧
    parse "([ 1x" = .error (.lex (.malformedNumber "1x" ⟨3, 5⟩)) ∧
    ∃ f, parse "([a" = .error f ∧ f.diagnostic.Reports .parse "unclosed delimiter" ⟨1, 2⟩ := by
  have opened : ∀ {d : Delimiter} {s : Span} {stack : List Token},
      ¬Unmatched stack ⟨.opener d, s⟩ := by
    rintro d s stack ⟨d', hclose, -⟩
    cases hclose
  have both : Nested [⟨.opener .paren, ⟨0, 1⟩⟩, ⟨.opener .bracket, ⟨1, 2⟩⟩] :=
    Token.nested_concat_iff.mpr ⟨Token.nested_concat_iff.mpr ⟨Token.nested_nil, opened⟩, opened⟩
  refine ⟨?_, ?_, ?_⟩
  · have hlexed : Lexed.ofSource "(] 1x" =
        ⟨[⟨.opener .paren, ⟨0, 1⟩⟩, ⟨.closer .bracket, ⟨1, 2⟩⟩],
          some (.malformedNumber "1x" ⟨3, 5⟩)⟩ := by
      decide +kernel
    have mismatch := (parse_reports_earliest "(] 1x").1
    rw [hlexed] at mismatch
    have unmatched : Unmatched (stillOpen [⟨.opener .paren, ⟨0, 1⟩⟩])
        ⟨.closer .bracket, ⟨1, 2⟩⟩ := ⟨.bracket, rfl, by decide⟩
    obtain ⟨before, t, after, f, htokens, -, ht, hparse, reports⟩ :=
      mismatch fun nested => nested [_] _ [] rfl unmatched
    refine ⟨f, hparse, ?_⟩
    -- The opening delimiter is not unmatched, so the token is the closing one.
    cases before with
    | nil =>
      cases htokens
      exact (opened ht).elim
    | cons b before =>
      cases before with
      | nil =>
        cases htokens
        exact reports
      | cons b' before => simp at htokens
  · have hlexed : Lexed.ofSource "([ 1x" =
        ⟨[⟨.opener .paren, ⟨0, 1⟩⟩, ⟨.opener .bracket, ⟨1, 2⟩⟩],
          some (.malformedNumber "1x" ⟨3, 5⟩)⟩ := by
      decide +kernel
    have nested := (parse_reports_earliest "([ 1x").2
    rw [hlexed] at nested
    exact (nested both).1 _ rfl
  · have hlexed : Lexed.ofSource "([a" =
        { tokens := [⟨.opener .paren, ⟨0, 1⟩⟩, ⟨.opener .bracket, ⟨1, 2⟩⟩,
          ⟨.ident "a", ⟨2, 3⟩⟩] } := by
      decide +kernel
    have name : ∀ {stack : List Token}, ¬Unmatched stack ⟨.ident "a", ⟨2, 3⟩⟩ := by
      rintro stack ⟨d, hclose, -⟩
      cases hclose
    have nested := (parse_reports_earliest "([a").2
    rw [hlexed] at nested
    exact ((nested (Token.nested_concat_iff.mpr ⟨both, name⟩)).2 rfl).1 _ rfl

end Form

end TypedSexp
