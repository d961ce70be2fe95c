import TypedSexp.Proofs.Form.Flattening
import TypedSexp.Proofs.Token.Joined

/-!
# The forms of joined sources

A source that is read to its end leaves nothing open, so the reader goes on with the next
source as if it started anew, with more forms before it and all places moved. `Reader.Moved`
relates its states in both readings. Each token keeps the relation or is the same fault
(`Reader.Moved.step`).

So the forms of two sources with a newline between them are the forms of the first and the
moved forms of the second, and a fault of the second is the moved fault (`Form.parse_join`).

The first source has to be read to its end. If it is not, what follows may close a delimiter that it
left open, and nothing is said.
-/

namespace TypedSexp

/-! ## Places moved -/

/-- The note moved by a number of characters. -/
def Note.shift (k : Nat) (n : Note) : Note := { n with span := n.span.map (Span.shift k) }

/-- The form moved by a number of characters. -/
def Form.shift (k : Nat) : Form Note → Form Note := Form.map (Note.shift k)

/-- The fault moved by a number of characters. -/
def ReadFault.shift (k : Nat) : ReadFault → ReadFault
  | .unopened c s => .unopened c (s.shift k)
  | .crossed o c s => .crossed o c (s.shift k)
  | .unexpected shown s => .unexpected shown (s.shift k)
  | .unclosed o s => .unclosed o (s.shift k)

/-- The fault moved by a number of characters. -/
def ParseFault.shift (k : Nat) : ParseFault → ParseFault
  | .lex f => .lex (f.shift k)
  | .read f => .read (f.shift k)

/-- The second failure is of the same stage and kind as the first one, at the moved place. -/
structure Diagnostic.Moved (k : Nat) (d d' : Diagnostic) : Prop where
  stage : d'.stage = d.stage
  kind : d'.kind = d.kind
  span : d'.span = d.span.map (Span.shift k)
  terms : d'.terms = d.terms

/-- The report of a moved fault is the report at the moved place, with all else as it was. Texts do
not show places. -/
theorem ParseFault.moved_shift (k : Nat) (f : ParseFault) :
    f.diagnostic.Moved k (f.shift k).diagnostic := by
  cases f with
  | lex f =>
    cases f with
    | unrecognized c offset =>
      exact ⟨rfl, rfl, congrArg some (Lexer.shift_span k offset 1).symm, rfl⟩
    | malformedNumber word s => exact ⟨rfl, rfl, rfl, rfl⟩
  | read f => cases f <;> exact ⟨rfl, rfl, rfl, rfl⟩

theorem Span.cover_shift (k : Int) (s t : Span) :
    (s.shift k).cover (t.shift k) = (s.cover t).shift k := by
  simp only [cover, shift, mk.injEq]
  omega

/-! ## Reading on -/

namespace Reader

/-- A moved form of moved elements is the moved form of the elements. -/
theorem compound_shift (k : Nat) (d : Delimiter) (s : Span) (es : List (Form Note)) :
    compound d (noteAt (s.shift k)) (es.map (Form.shift k)) =
      (compound d (noteAt s) es).shift k := by
  cases d <;> rw [Form.shift, compound, compound, Form.map, Form.mapAll_eq_map] <;> rfl

/-- The second state is the first one moved, with forms before all others. -/
inductive Moved (base : List (Form Note)) (k : Nat) : State → State → Prop
  | level {done : List (Form Note)} :
      Moved base k ⟨[], done⟩ ⟨[], done.map (Form.shift k) ++ base⟩
  | frame {f : Frame} {stack stack' : List Frame} {before' done : List (Form Note)}
      (outer : Moved base k ⟨stack, f.before⟩ ⟨stack', before'⟩) :
      Moved base k ⟨f :: stack, done⟩
        ⟨⟨f.opener, f.span.shift k, before'⟩ :: stack', done.map (Form.shift k)⟩

/-- The second result is the first one moved. -/
inductive MovedResult (base : List (Form Note)) (k : Nat) :
    Except ReadFault State → Except ReadFault State → Prop
  | ok {st st' : State} (moved : Moved base k st st') : MovedResult base k (.ok st) (.ok st')
  | error {f : ReadFault} : MovedResult base k (.error f) (.error (f.shift k))

namespace Moved

variable {base : List (Form Note)} {k : Nat} {st st' : State}

theorem push (h : Moved base k st st') (e : Form Note) :
    Moved base k (st.push e) (st'.push (e.shift k)) := by
  cases h with
  | @level done =>
    show Moved base k ⟨[], e :: done⟩ ⟨[], (e :: done).map (Form.shift k) ++ base⟩
    exact .level
  | @frame f stack stack' before' done outer =>
    show Moved base k ⟨f :: stack, e :: done⟩
      ⟨⟨f.opener, f.span.shift k, before'⟩ :: stack', (e :: done).map (Form.shift k)⟩
    exact .frame outer

/-- A token is read the same at the moved place: the states stay moved, or both fail, at places that
are moved. -/
theorem step (h : Moved base k st st') (t : Token) :
    MovedResult base k (step st t) (step st' (t.shift k)) := by
  obtain ⟨l, s⟩ := t
  cases l with
  | opener d =>
    have opened : Moved base k ⟨⟨d, s, st.done⟩ :: st.stack, []⟩
        ⟨⟨d, s.shift k, st'.done⟩ :: st'.stack, [].map (Form.shift k)⟩ := .frame h
    exact .ok opened
  | closer d =>
    cases h with
    | level => exact .error
    | @frame f stack stack' before' done outer =>
      simp only [Reader.step, Token.shift]
      split
      · have closed := outer.push (compound d (noteAt (f.span.cover s)) done.reverse)
        rw [← compound_shift, ← Span.cover_shift, List.map_reverse] at closed
        exact .ok closed
      · exact .error
  | ident name => exact .ok (h.push _)
  | string value => exact .ok (h.push _)
  | number value => exact .ok (h.push _)
  | other shown => exact .error

theorem run (h : Moved base k st st') (ts : List Token) :
    MovedResult base k (run st ts) (run st' (ts.map (Token.shift k))) := by
  induction ts generalizing st st' with
  | nil => exact .ok h
  | cons t ts ih =>
    have hstep := h.step t
    rw [List.map_cons, Reader.run, Reader.run]
    generalize Reader.step st t = r at hstep ⊢
    generalize Reader.step st' (t.shift k) = r' at hstep ⊢
    cases hstep with
    | ok moved => exact ih moved
    | error => exact .error

/-- Where nothing is open the forms are those before and the moved ones. Where something is open, it
is reported at the moved place. -/
theorem finish (h : Moved base k st st') :
    finish st' = ((finish st).map fun es => base.reverse ++ es.map (Form.shift k)).mapError
      (ReadFault.shift k) := by
  cases h with
  | @level done =>
    rw [Reader.finish, Reader.finish, List.reverse_append, ← List.map_reverse]
    rfl
  | frame outer => rfl

end Moved

end Reader

namespace Form

/-- After the tokens of forms, the moved tokens of a source are read as the source alone. The fault
of the source, if there is one, is moved as well. -/
theorem ofLexed_prepend_shift {es : List (Form Note)} {ts : List Token} (h : FlattensAll es ts)
    (k : Nat) (l : Lexed) :
    ofLexed ((l.shift k).prepend ts) =
      ((ofLexed l).map fun fs => es ++ fs.map (shift k)).mapError (ParseFault.shift k) := by
  have hbase : Reader.Moved es.reverse k {} ⟨[], es.reverse ++ []⟩ := by
    rw [List.append_nil]
    exact .level
  have hrun := hbase.run l.tokens
  rw [ofLexed, ofLexed, Lexed.prepend, Lexed.shift, h.run_eq {}]
  dsimp only
  generalize Reader.run {} l.tokens = r at hrun ⊢
  generalize Reader.run _ (l.tokens.map _) = r' at hrun ⊢
  cases hrun with
  | error => rfl
  | @ok st st' moved =>
    cases l.fault with
    | some f => rfl
    | none =>
      dsimp only [Option.map_none]
      rw [moved.finish, List.reverse_reverse]
      cases Reader.finish st <;> rfl

/-- A source that is read to its end is read the same before a newline and another source, and
the other source as if it stood alone. -/
theorem parse_join {first : String} {es : List (Form Note)} (h : parse first = .ok es)
    (second : String) :
    parse (first ++ "\n" ++ second) =
      ((parse second).map fun fs => es ++ fs.map (shift (first.length + 1))).mapError
        (ParseFault.shift (first.length + 1)) := by
  obtain ⟨hfault, htokens⟩ := ofLexed_eq_ok_iff.mp h
  have htext : (first ++ "\n" ++ second).toList = first.toList ++ '\n' :: second.toList := by
    simp
  have hlexed : Lexed.ofSource (first ++ "\n" ++ second) =
      ((Lexed.ofSource second).shift (first.length + 1)).prepend (Lexed.ofSource first).tokens := by
    rw [Lexed.ofSource, htext, ← String.length_toList]
    exact Lexer.scan_append_newline hfault second.toList
  rw [parse, hlexed, ofLexed_prepend_shift (flattensAll_of_ofTokens htokens)]
  rfl

end Form

end TypedSexp
