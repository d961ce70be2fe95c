import TypedSexp.Proofs.Form.Nesting

/-!
# The longest viable prefix

Tokens are viable if more tokens can be put after them so that the whole is balanced. The reader
goes on exactly as long as what it has read is viable (`Reader.exists_run_iff_viable`): the
delimiters it holds open can always be closed, the innermost first, and balanced tokens are read
to their end. So a closing delimiter that does not match is reported at the first token that makes
the tokens not viable, and a delimiter that is never closed only if all tokens are viable and not
balanced (`Form.ofTokens_locates_fault`).

The delimiter that is then reported is the last one without a match. What follows it is balanced
(`Reader.Holds`), so every opening delimiter further on has its closing one, and no closing
delimiter is left for it.

Tokens of a kind that reading does not know are left out. They come from no source and end the
reading with a fault of their own. The detail of a report is not given here, only its stage, kind
and place.
-/

namespace TypedSexp

namespace Token

/-- More tokens can be put after the tokens so that all are balanced. -/
def Viable (ts : List Token) : Prop := ∃ more, Balanced (ts ++ more)

/-- A delimiter of a kind that was opened before the tokens is closed among them: by one of its
kind, with balanced tokens between the two. -/
def Closes (d : Delimiter) (ts : List Token) : Prop :=
  ∃ inner c rest, ts = inner ++ ⟨.closer d, c⟩ :: rest ∧ Balanced inner

/-- The place is that of the last opening delimiter that is not closed. -/
def LastUnclosed (ts : List Token) (s : Span) : Prop :=
  ∃ before d after, ts = before ++ ⟨.opener d, s⟩ :: after ∧ ¬Closes d after ∧
    ∀ between d' s' rest, after = between ++ ⟨.opener d', s'⟩ :: rest → Closes d' rest

/-- A delimiter that is closed stays closed when tokens follow. -/
theorem Closes.append {d : Delimiter} {ts : List Token} (h : Closes d ts) (us : List Token) :
    Closes d (ts ++ us) := by
  obtain ⟨inner, c, rest, rfl, balanced⟩ := h
  exact ⟨inner, c, rest ++ us, by rw [List.append_assoc, List.cons_append], balanced⟩

/-- Every opening delimiter among balanced tokens is closed after it, and what stands between the
two is balanced. -/
theorem Balanced.closes {ts : List Token} (h : Balanced ts) :
    ∀ {before : List Token} {d : Delimiter} {o : Span} {after : List Token},
      ts = before ++ ⟨.opener d, o⟩ :: after → Closes d after := by
  induction h with
  | nil =>
    intro before d o after heq
    simp at heq
  | leaf isLeaf rest ih =>
    intro before d o after heq
    cases before with
    | nil =>
      cases heq
      cases isLeaf
    | cons t before => exact ih (List.cons.inj heq).2
  | @pair d' o' c ts us inner rest ihInner ihRest =>
    intro before d o after heq
    cases before with
    | nil =>
      cases heq
      exact ⟨ts, c, us, rfl, inner⟩
    | cons t before =>
      -- The delimiter stands inside the pair or after it.
      rcases List.append_eq_append_iff.mp (List.cons.inj heq).2 with
        ⟨skipped, -, hafter⟩ | ⟨kept, hts, hafter⟩
      · cases skipped with
        | nil => cases hafter
        | cons u skipped => exact ihRest (List.cons.inj hafter).2
      · cases kept with
        | nil => cases hafter
        | cons u kept =>
          obtain ⟨rfl, rfl⟩ := List.cons.inj hafter
          exact (ihInner hts).append _

end Token

namespace Reader

open Token (Balanced Viable Closes LastUnclosed)

/-! ## How far the reader goes -/

/-- The open delimiters of a state are closed by one delimiter each, the innermost first. This is
why every prefix that is read can be continued. -/
theorem exists_run_closers (stack : List Frame) (done : List (Form Note)) :
    ∃ done', run ⟨stack, done⟩ (stack.map fun f => ⟨.closer f.opener, f.span⟩) =
      .ok ⟨[], done'⟩ := by
  induction stack generalizing done with
  | nil => exact ⟨done, rfl⟩
  | cons f stack ih =>
    rw [List.map_cons, run_closer]
    exact ih _

/-- Balanced tokens are read to their end, where nothing is open. -/
theorem exists_run_of_balanced {ts : List Token} (h : Balanced ts) :
    ∃ done, run {} ts = .ok ⟨[], done⟩ := by
  obtain ⟨es, hes⟩ := Form.exists_flattensAll h
  have hrun := hes.run_eq {} []
  rw [List.append_nil] at hrun
  exact ⟨_, hrun⟩

/-- Tokens that are read to their end with nothing open are balanced. This goes through the forms
that were read, which flatten to the tokens. -/
theorem balanced_of_run {ts : List Token} {done : List (Form Note)}
    (h : run {} ts = .ok ⟨[], done⟩) : Balanced ts := by
  have hread : Form.ofTokens ts = .ok done.reverse := by
    rw [Form.ofTokens, h]
    rfl
  exact (Form.flattensAll_of_ofTokens hread).balanced

/-- The reader goes on exactly as long as the tokens are viable. Viability is said without the
reader: the tokens can be continued to balanced ones. -/
theorem exists_run_iff_viable {ts : List Token} : (∃ st, run {} ts = .ok st) ↔ Viable ts := by
  constructor
  · rintro ⟨⟨stack, done⟩, hrun⟩
    obtain ⟨done', hclose⟩ := exists_run_closers stack done
    have hwhole : run {} (ts ++ stack.map fun f => ⟨.closer f.opener, f.span⟩) =
        .ok ⟨[], done'⟩ := by
      rw [run_append, hrun]
      exact hclose
    exact ⟨_, balanced_of_run hwhole⟩
  · rintro ⟨more, balanced⟩
    obtain ⟨done, hrun⟩ := exists_run_of_balanced balanced
    rw [run_append] at hrun
    obtain ⟨st, hst, -⟩ := exists_of_bind_eq_ok hrun
    exact ⟨st, hst⟩

/-! ## Where it stops -/

/-- A fault is met at a token, after all tokens before it were read. The state there is the one that
these tokens lead to. -/
theorem exists_step_of_run_error {ts : List Token} {st : State} {f : ReadFault}
    (h : run st ts = .error f) : ∃ before t after st', ts = before ++ t :: after ∧
      run st before = .ok st' ∧ step st' t = .error f := by
  induction ts generalizing st with
  | nil => cases h
  | cons t ts ih =>
    rw [run_cons] at h
    rcases eq_error_or_of_bind_eq_error h with hstep | ⟨st₁, hstep, hrun⟩
    · exact ⟨[], t, ts, st, rfl, rfl, hstep⟩
    · obtain ⟨before, u, after, st', rfl, hbefore, hu⟩ := ih hrun
      refine ⟨t :: before, u, after, st', rfl, ?_, hu⟩
      rw [run_cons, hstep]
      exact hbefore

/-- The only fault of a token of a known kind is that it does not match: a closing delimiter where
nothing is open, or one of the other kind. -/
theorem reports_of_step_error {st : State} {t : Token} {f : ReadFault}
    (known : ∀ shown, t.lexeme ≠ .other shown) (h : step st t = .error f) :
    f.diagnostic.Reports .parse "mismatched delimiter" t.span := by
  by_cases hunmatched : Token.Unmatched st.opened t
  · obtain ⟨g, hstep, reports⟩ := step_unmatched hunmatched
    rw [hstep] at h
    cases h
    exact reports
  · obtain ⟨st', hstep⟩ := exists_step known hunmatched
    rw [hstep] at h
    cases h

/-- What the reader holds open at the end is the last delimiter that is not closed. Delimiters after
it were opened and closed again. -/
theorem lastUnclosed_of_run {ts : List Token} {st : State} {f : Frame} {stack : List Frame}
    (h : run {} ts = .ok st) (hstack : st.stack = f :: stack) : LastUnclosed ts f.span := by
  have start : Holds {} [] := .level .nil
  have holds : Holds st ts := start.run h
  obtain ⟨_, done⟩ := st
  subst hstack
  cases holds with
  | @frame _ _ _ before after outer forms =>
    have balanced : Balanced after := forms.balanced
    refine ⟨before, f.opener, after, rfl, ?_, fun _ _ _ _ heq => balanced.closes heq⟩
    rintro ⟨inner, c, rest, rfl, hinner⟩
    -- Nothing is open after the inner tokens, so the closing delimiter could not be read.
    obtain ⟨_, hwhole⟩ := exists_run_of_balanced balanced
    obtain ⟨_, hrun⟩ := exists_run_of_balanced hinner
    rw [run_append, hrun] at hwhole
    cases hwhole

end Reader

namespace Form

open Token (Balanced Viable LastUnclosed)

variable {ts : List Token}

/-- Tokens that make no forms stop being viable at one of them, which is reported, or are viable
and not balanced, and then the last delimiter that is not closed is reported. -/
theorem ofTokens_error_cases (known : ∀ t ∈ ts, ∀ shown, t.lexeme ≠ .other shown) {f : ReadFault}
    (h : ofTokens ts = .error f) :
    (∃ before t after, ts = before ++ t :: after ∧ Viable before ∧ ¬Viable (before ++ [t]) ∧
      f.diagnostic.Reports .parse "mismatched delimiter" t.span) ∨
    ∃ s, Viable ts ∧ ¬Balanced ts ∧ LastUnclosed ts s ∧
      f.diagnostic.Reports .parse "unclosed delimiter" s := by
  rw [ofTokens] at h
  cases hrun : Reader.run {} ts with
  | error g =>
    rw [hrun] at h
    cases h
    obtain ⟨before, t, after, st, rfl, hbefore, hstep⟩ := Reader.exists_step_of_run_error hrun
    have ht := known t (List.mem_append_right _ List.mem_cons_self)
    refine .inl ⟨before, t, after, rfl, Reader.exists_run_iff_viable.mp ⟨st, hbefore⟩, ?_,
      Reader.reports_of_step_error ht hstep⟩
    intro viable
    obtain ⟨st', hrun'⟩ := Reader.exists_run_iff_viable.mpr viable
    rw [Reader.run_append, hbefore] at hrun'
    have hlast : Reader.run st [t] = .ok st' := hrun'
    rw [Reader.run_cons, hstep] at hlast
    cases hlast
  | ok st =>
    rw [hrun] at h
    have hfinish : Reader.finish st = .error f := h
    rw [Reader.finish] at hfinish
    cases hstack : st.stack with
    | nil =>
      rw [hstack] at hfinish
      cases hfinish
    | cons frame stack =>
      rw [hstack] at hfinish
      cases hfinish
      refine .inr ⟨frame.span, Reader.exists_run_iff_viable.mp ⟨st, hrun⟩, ?_,
        Reader.lastUnclosed_of_run hrun hstack, rfl, rfl, rfl⟩
      intro balanced
      obtain ⟨done, hclosed⟩ := Reader.exists_run_of_balanced balanced
      rw [hrun] at hclosed
      cases hclosed
      cases hstack

/-- The token at which tokens stop being viable is reported, whatever follows it. What stands before
it is viable, so it is read without a fault. -/
theorem ofTokens_of_not_viable {before : List Token} {t : Token} (after : List Token)
    (known : ∀ shown, t.lexeme ≠ .other shown) (hbefore : Viable before)
    (h : ¬Viable (before ++ [t])) : ∃ f, ofTokens (before ++ t :: after) = .error f ∧
      f.diagnostic.Reports .parse "mismatched delimiter" t.span := by
  obtain ⟨st, hrun⟩ := Reader.exists_run_iff_viable.mpr hbefore
  cases hstep : Reader.step st t with
  | ok st' =>
    refine (h (Reader.exists_run_iff_viable.mp ⟨st', ?_⟩)).elim
    rw [Reader.run_append, hrun]
    show Reader.run st [t] = _
    rw [Reader.run_cons, hstep]
    rfl
  | error f =>
    refine ⟨f, ?_, Reader.reports_of_step_error known hstep⟩
    have hwhole : Reader.run {} (before ++ t :: after) = .error f := by
      rw [Reader.run_append, hrun]
      show Reader.run st (t :: after) = _
      rw [Reader.run_cons, hstep]
      rfl
    rw [ofTokens, hwhole]

/-- A token of which no other one has the place is told apart by its place: where the same tokens
are divided at a token with this place, they are divided at this one. -/
theorem eq_of_span_eq {before before' after after' : List Token} {t t' : Token}
    (heq : before ++ t :: after = before' ++ t' :: after')
    (alone : t.span ∉ (before ++ after).map Token.span) (hspan : t'.span = t.span) :
    before' = before ∧ t' = t := by
  have other : t' ∉ before ++ after := fun hmem =>
    alone (List.mem_map.mpr ⟨t', hmem, hspan⟩)
  rw [List.mem_append, not_or] at other
  rcases List.append_eq_append_iff.mp heq with ⟨skipped, rfl, hrest⟩ | ⟨kept, rfl, hrest⟩
  · cases skipped with
    | nil =>
      cases hrest
      exact ⟨List.append_nil _, rfl⟩
    | cons u skipped =>
      obtain ⟨-, rfl⟩ := List.cons.inj hrest
      exact (other.2 (List.mem_append_right _ List.mem_cons_self)).elim
  · cases kept with
    | nil =>
      cases hrest
      exact ⟨(List.append_nil _).symm, rfl⟩
    | cons u kept =>
      obtain ⟨rfl, -⟩ := List.cons.inj hrest
      exact (other.1 (List.mem_append_right _ List.mem_cons_self)).elim

/-- **Faults of delimiters sit at the end of the longest viable prefix.** That a delimiter does
not match is reported at a place exactly if it is the place of a token before which the tokens
can be continued to balanced ones and with which they cannot. Where no other token has the same
place, this decides for each token whether it is the one reported. That a delimiter is never closed
is reported exactly if all tokens are not balanced but can be continued to balanced ones, and then
at the last opening delimiter that has no closing one. -/
theorem ofTokens_locates_fault (known : ∀ t ∈ ts, ∀ shown, t.lexeme ≠ .other shown) :
    (∀ s, (∃ f, ofTokens ts = .error f ∧
        f.diagnostic.Reports .parse "mismatched delimiter" s) ↔
      ∃ before t after, ts = before ++ t :: after ∧ t.span = s ∧
        Viable before ∧ ¬Viable (before ++ [t])) ∧
    (∀ before t after, ts = before ++ t :: after → t.span ∉ (before ++ after).map Token.span →
      ((∃ f, ofTokens ts = .error f ∧
        f.diagnostic.Reports .parse "mismatched delimiter" t.span) ↔
          Viable before ∧ ¬Viable (before ++ [t]))) ∧
    ((∃ f s, ofTokens ts = .error f ∧ f.diagnostic.Reports .parse "unclosed delimiter" s) ↔
      ¬Balanced ts ∧ Viable ts) ∧
    ∀ f s, ofTokens ts = .error f → f.diagnostic.Reports .parse "unclosed delimiter" s →
      LastUnclosed ts s := by
  have differ : "mismatched delimiter" ≠ "unclosed delimiter" := by decide
  have located : ∀ s, (∃ f, ofTokens ts = .error f ∧
      f.diagnostic.Reports .parse "mismatched delimiter" s) ↔
      ∃ before t after, ts = before ++ t :: after ∧ t.span = s ∧
        Viable before ∧ ¬Viable (before ++ [t]) := by
    intro s
    constructor
    · rintro ⟨f, hread, reports⟩
      rcases ofTokens_error_cases known hread with
        ⟨before, t, after, hts, hbefore, ht, reports'⟩ | ⟨_, -, -, -, reports'⟩
      · have hspan := reports'.span_eq.symm.trans reports.span_eq
        exact ⟨before, t, after, hts, Option.some.inj hspan, hbefore, ht⟩
      · exact (differ (reports.kind_eq.symm.trans reports'.kind_eq)).elim
    · rintro ⟨before, t, after, rfl, rfl, hbefore, ht⟩
      have hknown := known t (List.mem_append_right _ List.mem_cons_self)
      exact ofTokens_of_not_viable after hknown hbefore ht
  refine ⟨located, ?_, ⟨?_, ?_⟩, ?_⟩
  · rintro before t after hts alone
    rw [located]
    constructor
    · rintro ⟨before', t', after', hts', hspan, hbefore, ht⟩
      obtain ⟨rfl, rfl⟩ := eq_of_span_eq (hts.symm.trans hts') alone hspan
      exact ⟨hbefore, ht⟩
    · rintro ⟨hbefore, ht⟩
      exact ⟨before, t, after, hts, rfl, hbefore, ht⟩
  · rintro ⟨f, s, hread, reports⟩
    rcases ofTokens_error_cases known hread with
      ⟨_, _, _, -, -, -, reports'⟩ | ⟨_, viable, unbalanced, -, -⟩
    · exact (differ (reports'.kind_eq.symm.trans reports.kind_eq)).elim
    · exact ⟨unbalanced, viable⟩
  · rintro ⟨unbalanced, viable⟩
    obtain ⟨⟨stack, done⟩, hrun⟩ := Reader.exists_run_iff_viable.mpr viable
    cases stack with
    | nil => exact (unbalanced (Reader.balanced_of_run hrun)).elim
    | cons frame stack =>
      refine ⟨.unclosed frame.opener frame.span, frame.span, ?_, rfl, rfl, rfl⟩
      rw [ofTokens, hrun]
      rfl
  · intro f s hread reports
    rcases ofTokens_error_cases known hread with
      ⟨_, _, _, -, -, -, reports'⟩ | ⟨_, -, -, last, reports'⟩
    · exact (differ (reports'.kind_eq.symm.trans reports.kind_eq)).elim
    · have hspan := reports'.span_eq.symm.trans reports.span_eq
      rwa [← Option.some.inj hspan]

/-- A delimiter closed by one of the other kind two levels down, and an outer delimiter that stays
open after two inner ones were closed. -/
theorem ofTokens_locates_fault_nested :
    let crossed : List Token := [⟨.opener .paren, ⟨0, 1⟩⟩, ⟨.opener .bracket, ⟨1, 2⟩⟩,
      ⟨.ident "a", ⟨2, 3⟩⟩]
    let opened : List Token := [⟨.opener .paren, ⟨0, 1⟩⟩, ⟨.opener .bracket, ⟨1, 2⟩⟩,
      ⟨.closer .bracket, ⟨2, 3⟩⟩, ⟨.opener .paren, ⟨3, 4⟩⟩, ⟨.closer .paren, ⟨4, 5⟩⟩]
    (Viable crossed ∧ ¬Viable (crossed ++ [⟨.closer .paren, ⟨3, 4⟩⟩])) ∧
      (¬Balanced opened ∧ Viable opened) ∧ LastUnclosed opened ⟨0, 1⟩ := by
  intro crossed opened
  have hcrossed : ofTokens (crossed ++ [⟨.closer .paren, ⟨3, 4⟩⟩, ⟨.closer .bracket, ⟨4, 5⟩⟩]) =
      .error (.crossed .bracket .paren ⟨3, 4⟩) := rfl
  have hopened : ofTokens opened = .error (.unclosed .paren ⟨0, 1⟩) := rfl
  refine ⟨?_, ?_, ?_⟩
  · refine ((ofTokens_locates_fault ?_).2.1 crossed _ _ rfl ?_).mp ⟨_, hcrossed, rfl, rfl, rfl⟩
    · simp [crossed]
    · decide
  · refine (ofTokens_locates_fault ?_).2.2.1.mp ⟨_, ⟨0, 1⟩, hopened, rfl, rfl, rfl⟩
    simp [opened]
  · refine (ofTokens_locates_fault ?_).2.2.2 _ ⟨0, 1⟩ hopened ⟨rfl, rfl, rfl⟩
    simp [opened]

end Form

end TypedSexp
