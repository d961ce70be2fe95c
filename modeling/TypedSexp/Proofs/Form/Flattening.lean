import TypedSexp.Form.Reader

/-!
# Flattened forms

A form flattens to the tokens it is written with: a leaf to one token, a list or a
vector to an opening delimiter, the tokens of its elements and a closing delimiter of
the same kind. The note of a leaf holds the span of its token, the note of a list or
vector the least span over its two delimiters, and neither holds a type.

Reading is the inverse. Tokens are read into forms exactly if they are a flattening of
those forms (`Form.ofTokens_eq_ok_iff_flattensAll`), and there are such forms exactly
if the delimiters are balanced.

One direction runs the reader over a flattening, which leaves it where it was with one
more form (`Form.Flattens.run_eq`). The other one carries an invariant through every
prefix (`Reader.Holds`): what was read is the forms before each open delimiter, that
delimiter, and the forms inside the innermost one.

Of tokens that are not balanced it is said only that they are read into no forms. Which fault is
then reported is a matter of its own.
-/

namespace TypedSexp

/-- Whether a lexeme is a form by itself. -/
def Lexeme.isLeaf : Lexeme → Bool
  | .ident _ | .string _ | .number _ => true
  | _ => false

/-- Every opening delimiter has a closing one of its kind, and the pairs are nested. -/
inductive Token.Balanced : List Token → Prop
  | nil : Balanced []
  | leaf {t : Token} {ts : List Token} (isLeaf : t.lexeme.isLeaf = true) (rest : Balanced ts) :
      Balanced (t :: ts)
  | pair {d : Delimiter} {o c : Span} {ts us : List Token} (inner : Balanced ts)
      (rest : Balanced us) : Balanced (⟨.opener d, o⟩ :: (ts ++ ⟨.closer d, c⟩ :: us))

namespace Form

/-- The form that one token makes. -/
inductive OfLeaf : Token → Form Note → Prop
  | symbol {s : Span} {name : String} : OfLeaf ⟨.ident name, s⟩ (.symbol { span := some s } name)
  | string {s : Span} {value : String} :
      OfLeaf ⟨.string value, s⟩ (.string { span := some s } value)
  | number {s : Span} {value : Number} :
      OfLeaf ⟨.number value, s⟩ (.number { span := some s } value)

mutual

/-- The tokens of a form, from the first to the last. -/
inductive Flattens : Form Note → List Token → Prop
  | leaf {t : Token} {e : Form Note} (h : OfLeaf t e) : Flattens e [t]
  | list {o c : Span} {es : List (Form Note)} {ts : List Token} (inner : FlattensAll es ts) :
      Flattens (.list { span := some (o.cover c) } es)
        (⟨.opener .paren, o⟩ :: (ts ++ [⟨.closer .paren, c⟩]))
  | vector {o c : Span} {es : List (Form Note)} {ts : List Token} (inner : FlattensAll es ts) :
      Flattens (.vector { span := some (o.cover c) } es)
        (⟨.opener .bracket, o⟩ :: (ts ++ [⟨.closer .bracket, c⟩]))

/-- The tokens of several forms, one after the other. -/
inductive FlattensAll : List (Form Note) → List Token → Prop
  | nil : FlattensAll [] []
  | cons {e : Form Note} {es : List (Form Note)} {ts us : List Token} (first : Flattens e ts)
      (rest : FlattensAll es us) : FlattensAll (e :: es) (ts ++ us)

end

/-- The form that the reader makes of two delimiters flattens to what it was read from: the opening
delimiter, the tokens of its elements and the closing one. -/
theorem Flattens.compound (d : Delimiter) (o c : Span) {es : List (Form Note)} {ts : List Token}
    (inner : FlattensAll es ts) :
    Flattens (Reader.compound d (Reader.noteAt (o.cover c)) es)
      (⟨.opener d, o⟩ :: (ts ++ [⟨.closer d, c⟩])) := by
  cases d with
  | paren => exact .list inner
  | bracket => exact .vector inner

/-- Forms after others flatten to the tokens of the first ones and then those of the others. -/
theorem FlattensAll.append {es fs : List (Form Note)} {ts us : List Token}
    (h : FlattensAll es ts) (h' : FlattensAll fs us) : FlattensAll (es ++ fs) (ts ++ us) := by
  induction es generalizing ts with
  | nil =>
    cases h
    exact h'
  | cons e es ih =>
    cases h with
    | cons first rest =>
      rw [List.append_assoc]
      exact .cons first (ih rest)

theorem FlattensAll.singleton {e : Form Note} {ts : List Token} (h : Flattens e ts) :
    FlattensAll [e] ts := by
  have := FlattensAll.cons h .nil
  rwa [List.append_nil] at this

end Form

/-! ## Reading a flattening -/

namespace Reader

/-- An opening delimiter puts a frame on the stack and starts with no forms in it. -/
theorem run_opener (st : State) (d : Delimiter) (o : Span) (ts : List Token) :
    run st (⟨.opener d, o⟩ :: ts) = run ⟨⟨d, o, st.done⟩ :: st.stack, []⟩ ts := rfl

/-- A closing delimiter of the same kind takes the frame off, and makes one form of what was read
inside it. -/
theorem run_closer (d : Delimiter) (o c : Span) (before done : List (Form Note))
    (stack : List Frame) (ts : List Token) :
    run ⟨⟨d, o, before⟩ :: stack, done⟩ (⟨.closer d, c⟩ :: ts) =
      run ⟨stack, compound d (noteAt (o.cover c)) done.reverse :: before⟩ ts := by
  simp [run, step]

end Reader

namespace Form

theorem OfLeaf.step_eq {t : Token} {e : Form Note} (h : OfLeaf t e) (st : Reader.State) :
    Reader.step st t = .ok (st.push e) := by
  cases h <;> rfl

mutual

/-- Reading the tokens of a form adds that form and changes nothing else, whatever follows and
whatever is open. The induction is over the flattening. -/
theorem Flattens.run_eq : ∀ {e : Form Note} {ts : List Token}, Flattens e ts →
    ∀ (st : Reader.State) (rest : List Token),
      Reader.run st (ts ++ rest) = Reader.run (st.push e) rest
  | _, _, .leaf h, st, rest => by
    rw [List.cons_append, List.nil_append, Reader.run, h.step_eq]
  | _, _, .list inner, st, rest => by
    rw [List.cons_append, List.append_assoc, Reader.run_opener, inner.run_eq, List.append_nil,
      List.singleton_append, Reader.run_closer, List.reverse_reverse]
    rfl
  | _, _, .vector inner, st, rest => by
    rw [List.cons_append, List.append_assoc, Reader.run_opener, inner.run_eq, List.append_nil,
      List.singleton_append, Reader.run_closer, List.reverse_reverse]
    rfl

theorem FlattensAll.run_eq : ∀ {es : List (Form Note)} {ts : List Token}, FlattensAll es ts →
    ∀ (st : Reader.State) (rest : List Token),
      Reader.run st (ts ++ rest) = Reader.run { st with done := es.reverse ++ st.done } rest
  | _, _, .nil, _, _ => rfl
  | _, _, .cons first more, st, rest => by
    rw [List.append_assoc, first.run_eq, more.run_eq]
    simp [Reader.State.push]

end

/-- A flattening is read into the forms it came from. So no two lists of forms have the same
tokens. -/
theorem FlattensAll.ofTokens_eq {es : List (Form Note)} {ts : List Token}
    (h : FlattensAll es ts) : ofTokens ts = .ok es := by
  have hrun := h.run_eq {} []
  rw [List.append_nil] at hrun
  simp [ofTokens, hrun, Reader.run, Reader.finish]

end Form

/-! ## What was read is a flattening -/

namespace Reader

open Form (FlattensAll Flattens)

/-- The tokens are those of a state: the forms before each open delimiter, that delimiter,
and the forms inside the innermost one. -/
inductive Holds : State → List Token → Prop
  | level {done : List (Form Note)} {ts : List Token} (forms : FlattensAll done.reverse ts) :
      Holds ⟨[], done⟩ ts
  | frame {f : Frame} {stack : List Frame} {done : List (Form Note)} {ts us : List Token}
      (outer : Holds ⟨stack, f.before⟩ ts) (forms : FlattensAll done.reverse us) :
      Holds ⟨f :: stack, done⟩ (ts ++ ⟨.opener f.opener, f.span⟩ :: us)

/-- A form that is added to a state adds its tokens to those that the state holds. -/
theorem Holds.push {st : State} {ts : List Token} (h : Holds st ts) {e : Form Note}
    {us : List Token} (he : Flattens e us) : Holds (st.push e) (ts ++ us) := by
  cases h with
  | level forms =>
    refine .level ?_
    rw [List.reverse_cons]
    exact forms.append (.singleton he)
  | frame outer forms =>
    rw [List.append_assoc, List.cons_append]
    refine .frame outer ?_
    rw [List.reverse_cons]
    exact forms.append (.singleton he)

/-- A token that is read is added to those of the state. This is the step of the invariant that
nothing which was read is lost. -/
theorem Holds.step {st st' : State} {ts : List Token} {t : Token} (h : Holds st ts)
    (hstep : step st t = .ok st') : Holds st' (ts ++ [t]) := by
  obtain ⟨l, s⟩ := t
  cases l with
  | opener d =>
    cases hstep
    exact .frame h .nil
  | closer d =>
    cases h with
    | level forms => cases hstep
    | @frame f stack done us vs outer forms =>
      simp only [Reader.step] at hstep
      split at hstep
      next hd =>
        cases hstep
        -- The frame's delimiter and the forms inside it become one form of the level outside.
        have closed := outer.push (Flattens.compound f.opener f.span s forms)
        rw [List.append_assoc, List.cons_append, ← hd]
        exact closed
      next => cases hstep
  | ident name =>
    cases hstep
    exact h.push (.leaf .symbol)
  | string value =>
    cases hstep
    exact h.push (.leaf .string)
  | number value =>
    cases hstep
    exact h.push (.leaf .number)
  | other shown => cases hstep

/-- The tokens of the state after a run are those before it and those that were read. This is the
invariant of a single token, taken over all of them. -/
theorem Holds.run {us : List Token} : ∀ {st st' : State} {ts : List Token}, Holds st ts →
    run st us = .ok st' → Holds st' (ts ++ us) := by
  induction us with
  | nil =>
    intro st st' ts h hrun
    cases hrun
    rwa [List.append_nil]
  | cons t us ih =>
    intro st st' ts h hrun
    rw [Reader.run] at hrun
    split at hrun
    next st₁ hstep =>
      have := ih (h.step hstep) hrun
      rwa [List.append_assoc] at this
    next => cases hrun

end Reader

namespace Form

/-- Tokens that are read into forms are a flattening of them. The places of the forms are part of
this, not only their shape. -/
theorem flattensAll_of_ofTokens {ts : List Token} {es : List (Form Note)}
    (h : ofTokens ts = .ok es) : FlattensAll es ts := by
  rw [ofTokens] at h
  split at h
  next st hrun =>
    have start : Reader.Holds {} [] := .level .nil
    have holds : Reader.Holds st ts := start.run hrun
    rw [Reader.finish] at h
    cases holds with
    | level forms =>
      cases h
      exact forms
    | frame outer forms => cases h
  next => cases h

/-- A source that was lexed is read exactly if there was no fault and the tokens are read. A fault
of lexing is never hidden by forms that were complete before it. -/
theorem ofLexed_eq_ok_iff {l : Lexed} {es : List (Form Note)} :
    ofLexed l = .ok es ↔ l.fault = none ∧ ofTokens l.tokens = .ok es := by
  obtain ⟨ts, fault⟩ := l
  simp only [ofLexed, ofTokens]
  cases Reader.run {} ts with
  | error e => simp
  | ok st =>
    cases fault with
    | some e => simp
    | none =>
      change (Reader.finish st).mapError _ = _ ↔ none = none ∧ Reader.finish st = _
      cases Reader.finish st with
      | error e =>
        constructor
        · intro h
          cases h
        · rintro ⟨-, h⟩
          cases h
      | ok fs =>
        constructor
        · intro h
          cases h
          exact ⟨rfl, rfl⟩
        · rintro ⟨-, h⟩
          cases h
          rfl

/-! ## Balanced tokens -/

mutual

/-- The tokens of a form may stand before balanced tokens. The statement has the rest in it, since
balanced tokens are built up from the front. -/
theorem Flattens.balanced_append : ∀ {e : Form Note} {ts us : List Token}, Flattens e ts →
    Token.Balanced us → Token.Balanced (ts ++ us)
  | _, _, _, .leaf h, rest => .leaf (by cases h <;> rfl) rest
  | _, _, _, .list inner, rest => by
    rw [List.cons_append, List.append_assoc]
    exact .pair inner.balanced rest
  | _, _, _, .vector inner, rest => by
    rw [List.cons_append, List.append_assoc]
    exact .pair inner.balanced rest

theorem FlattensAll.balanced : ∀ {es : List (Form Note)} {ts : List Token}, FlattensAll es ts →
    Token.Balanced ts
  | _, _, .nil => .nil
  | _, _, .cons first rest => first.balanced_append rest.balanced

end

theorem exists_ofLeaf {t : Token} (h : t.lexeme.isLeaf = true) : ∃ e, OfLeaf t e := by
  obtain ⟨l, s⟩ := t
  cases l with
  | ident name => exact ⟨_, .symbol⟩
  | string value => exact ⟨_, .string⟩
  | number value => exact ⟨_, .number⟩
  | opener d => cases h
  | closer d => cases h
  | other shown => cases h

/-- Balanced tokens are a flattening of some forms. The induction is over the way in which they are
balanced, which is the way in which the forms are nested. -/
theorem exists_flattensAll {ts : List Token} (h : Token.Balanced ts) :
    ∃ es, FlattensAll es ts := by
  induction h with
  | nil => exact ⟨[], .nil⟩
  | leaf isLeaf rest ih =>
    obtain ⟨e, he⟩ := exists_ofLeaf isLeaf
    obtain ⟨es, hes⟩ := ih
    exact ⟨e :: es, .cons (.leaf he) hes⟩
  | @pair d o c ts us inner rest ihInner ihRest =>
    obtain ⟨es, hes⟩ := ihInner
    obtain ⟨fs, hfs⟩ := ihRest
    have := FlattensAll.cons (Flattens.compound d o c hes) hfs
    rw [List.cons_append, List.append_assoc] at this
    exact ⟨_, this⟩

/-- **Reading accepts exactly the balanced tokens and loses nothing.** Tokens are read into
forms exactly if they are a flattening of those forms. They are a flattening of no other
forms, and tokens are read into some forms exactly if they are balanced. -/
theorem ofTokens_eq_ok_iff_flattensAll (ts : List Token) :
    (∀ es, ofTokens ts = .ok es ↔ FlattensAll es ts) ∧
      (∀ es fs, FlattensAll es ts → FlattensAll fs ts → es = fs) ∧
      ((∃ es, ofTokens ts = .ok es) ↔ Token.Balanced ts) := by
  refine ⟨fun es => ⟨flattensAll_of_ofTokens, FlattensAll.ofTokens_eq⟩, ?_, ?_⟩
  · intro es fs hes hfs
    have same := hes.ofTokens_eq.symm.trans hfs.ofTokens_eq
    exact Except.ok.inj same
  · constructor
    · rintro ⟨es, h⟩
      exact (flattensAll_of_ofTokens h).balanced
    · intro h
      obtain ⟨es, hes⟩ := exists_flattensAll h
      exact ⟨es, hes.ofTokens_eq⟩

/-- An empty vector inside a list, and a number after it. -/
theorem ofTokens_flattensAll_nested :
    let ts : List Token := [⟨.opener .paren, ⟨0, 1⟩⟩, ⟨.ident "f", ⟨1, 2⟩⟩,
      ⟨.opener .bracket, ⟨3, 4⟩⟩, ⟨.closer .bracket, ⟨4, 5⟩⟩, ⟨.closer .paren, ⟨5, 6⟩⟩,
      ⟨.number (.int 1), ⟨7, 8⟩⟩]
    let es : List (Form Note) := [.list { span := some ⟨0, 6⟩ }
      [.symbol { span := some ⟨1, 2⟩ } "f", .vector { span := some ⟨3, 5⟩ } []],
      .number { span := some ⟨7, 8⟩ } (.int 1)]
    ofTokens ts = .ok es ∧ FlattensAll es ts ∧ (∀ fs, FlattensAll fs ts → fs = es) ∧
      Token.Balanced ts := by
  intro ts es
  obtain ⟨hread, hunique, hbalanced⟩ := ofTokens_eq_ok_iff_flattensAll ts
  have hes : ofTokens ts = .ok es := rfl
  have hflat := (hread es).mp hes
  exact ⟨hes, hflat, fun fs hfs => hunique fs es hfs hflat, hbalanced.mp ⟨es, hes⟩⟩

end Form

end TypedSexp
