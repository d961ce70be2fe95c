import TypedSexp.Compile
import TypedSexp.Proofs.Compile.Emission
import TypedSexp.Proofs.Form.Placed
import TypedSexp.Proofs.Inference.Blame

/-!
# Failures are placed inside the source

Whatever stage of a compilation fails, the failure has a place, and the place is inside the
source (`Compile.error_inside_source`). Failures of lexing and reading name a part of the
source or a token. Failures of typing and emission name a form, and the forms that were read
have places that cover their tokens. No stage makes a form of its own.

A name that is not bound is reported where it is spelled, as the form that is named is the
symbol itself.

Only failures of compilation are meant. What is refused before, an option, a configuration or a
file, has no place in the source. That the place is the part of the source to be changed is not
said; a mismatch lies between two forms, and only one of them is named.
-/

namespace TypedSexp

/-- The failure has its place inside a source, and a name that is not bound is spelled there. -/
structure Diagnostic.Located (source : List Char) (d : Diagnostic) (s : Span) : Prop where
  span_eq : d.span = some s
  inside : s.Inside source
  name : d.kind = "unbound symbol" →
    ∃ name, d.detail = Text.quoted name ∧ s.slice source = name.toList

/-! ## Kinds of failures -/

/-- Only a name that is not bound is reported as one. -/
theorem TypeFault.Cause.eq_unbound_of_kind {cause : TypeFault.Cause}
    (h : cause.kind = "unbound symbol") : ∃ name, cause = .unbound name := by
  cases cause with
  | unbound name => exact ⟨name, rfl⟩
  | mismatch m => cases m <;> simp [kind, Mismatch.kind] at h
  | _ => simp [kind] at h

/-- No fault of reading a source is reported as a name that is not bound. -/
theorem ParseFault.kind_ne_unbound (f : ParseFault) : f.diagnostic.kind ≠ "unbound symbol" := by
  cases f with
  | lex f => cases f <;> simp [diagnostic, LexFault.diagnostic]
  | read f => cases f <;> simp [diagnostic, ReadFault.diagnostic]

/-! ## The stages -/

/-- A source that cannot be read fails inside it. Even at the end of the source something before the
end is shown: the delimiter that was not closed, or the quote. -/
theorem Form.located_of_parse_error {source : String} {f : ParseFault}
    (h : parse source = .error f) : ∃ s, f.diagnostic.Located source.toList s := by
  obtain ⟨s, hspan, inside⟩ := exists_inside_of_parse_error h
  exact ⟨s, hspan, inside, fun hkind => (f.kind_ne_unbound hkind).elim⟩

/-- A fault that is about a form in a source is placed inside the source, at the form. If it is a
name that is not bound, the form is this name. -/
theorem TypeFault.Blames.located {source : List Char} {f : TypeFault} {x : Form Note} {s : Span}
    (h : f.Blames x) (stands : x.Stands source s) : f.diagnostic.Located source s := by
  refine ⟨h.span_eq.trans stands.span_eq, stands.inside, fun hkind => ?_⟩
  obtain ⟨name, hcause⟩ := Cause.eq_unbound_of_kind hkind
  obtain ⟨n, hx⟩ := h.name name hcause
  refine ⟨name, ?_, stands.name n name hx⟩
  show f.cause.detail = _
  rw [hcause]
  rfl

/-- A form that was typed stands where it stood. A fault of emission is placed by the typed form, so
this is needed there. -/
theorem Inference.span_of_run {scope : Scope} {form : Form Note} {next : Nat} {r : Inferred}
    (h : (run scope form next).1 = .ok r) : r.form.note.span = form.note.span := by
  have hnote := congrArg Form.note (untyped_of_run h)
  rwa [Form.untyped, Form.untyped, Form.note_map, Form.note_map] at hnote

namespace Compile

variable {o : Options} {source : List Char} {index : Nat} {e : Form Note} {d : Diagnostic}

/-- A form of a source that cannot be typed fails inside the source. The fault is about one of the
forms in it, each of which was read and so has a place. -/
theorem located_of_typeForm (placed : e.Placed source) (h : typeForm o index e = .error d) :
    ∃ s, d.Located source s := by
  unfold typeForm at h
  split at h
  · cases hrun : e.infer with
    | ok r =>
      rw [hrun] at h
      cases h
    | error f =>
      rw [hrun] at h
      cases h
      obtain ⟨x, hx, blames⟩ := Inference.run_blames hrun
      obtain ⟨s, stands⟩ := placed x hx
      exact ⟨s, blames.located stands⟩
  · cases h

/-- Typing moves no form. The form that is emitted has the place of the one that was read, so a
fault of emission may be placed by either of them. -/
theorem span_of_typeForm {r : FormReport} (h : typeForm o index e = .ok r) :
    r.form.note.span = e.note.span := by
  unfold typeForm at h
  split at h
  · cases hrun : e.infer with
    | error f =>
      rw [hrun] at h
      cases h
    | ok typed =>
      rw [hrun] at h
      cases h
      exact Inference.span_of_run hrun
  · cases h
    rfl

/-- A fault of emission has the place of the whole form, not of the part that cannot be emitted. -/
theorem span_of_emitForm {r : FormReport} (h : emitForm o r = .error d) :
    d.span = r.form.note.span ∧ d.kind = "emit failure" := by
  unfold emitForm at h
  split at h
  · cases hemit : Script.emit r.form with
    | ok text =>
      rw [hemit] at h
      cases h
    | error f =>
      rw [hemit] at h
      cases h
      exact ⟨rfl, rfl⟩
  · cases h

/-- A form of a source that does not compile fails inside the source, be it in typing or in
emission. -/
theorem located_of_form (placed : e.Placed source) (h : form o index e = .error d) :
    ∃ s, d.Located source s := by
  rcases eq_error_or_of_bind_eq_error h with htype | ⟨r, htype, hemit⟩
  · exact located_of_typeForm placed htype
  · obtain ⟨hspan, hkind⟩ := span_of_emitForm hemit
    obtain ⟨s, stands⟩ := placed e e.mem_walk_self
    refine ⟨s, ?_, stands.inside, fun hunbound => ?_⟩
    · rw [hspan, span_of_typeForm htype, stands.span_eq]
    · rw [hkind] at hunbound
      exact absurd hunbound (by decide)

/-- Forms of a source that are compiled one after the other fail inside the source, if they fail.
The first that does so is reported, and no form after it is looked at. -/
theorem located_of_forms {es : List (Form Note)} (placed : ∀ e ∈ es, e.Placed source)
    (h : forms o index es = .error d) : ∃ s, d.Located source s := by
  induction es generalizing index with
  | nil => cases h
  | cons e es ih =>
    rw [List.forall_mem_cons] at placed
    rw [forms] at h
    rcases eq_error_or_of_bind_eq_error h with hfirst | ⟨r, -, h⟩
    · exact located_of_form placed.1 hfirst
    rcases eq_error_or_of_bind_eq_error h with hrest | ⟨rs, -, h⟩
    · exact ih placed.2 hrest
    · cases h

/-- A source that does not compile fails inside it. -/
theorem located_of_compile {filename source : String} (h : compile o filename source = .error d) :
    ∃ s, d.Located source.toList s := by
  rw [compile] at h
  cases hparse : Form.parse source with
  | error f =>
    rw [hparse] at h
    cases h
    exact Form.located_of_parse_error hparse
  | ok es =>
    rw [hparse] at h
    exact located_of_forms (Form.placed_of_parse hparse) (eq_error_of_map_eq_error h)

/-- **Every failure is placed inside the source.** Whatever fails, with any options, has a span
that holds at least one character of the source and none outside it. So the place that is shown
has the number of one of the lines into which the newlines cut the source, and a column that is
a position in this line or just after it. The text at the span of a name that is not bound is
this name. -/
theorem error_inside_source {filename source : String}
    (h : compile o filename source = .error d) : ∃ s, d.span = some s ∧
      (0 ≤ s.start ∧ s.start < s.stop ∧ s.stop ≤ source.length) ∧
      (∃ p line, d.location? source = some p ∧
        1 ≤ p.line ∧ p.line ≤ (Text.splitAt '\n' source.toList).length ∧
        (Text.splitAt '\n' source.toList)[p.line - 1]? = some line ∧
        1 ≤ p.column ∧ p.column ≤ line.length + 1) ∧
      (d.kind = "unbound symbol" →
        ∃ name, d.detail = Text.quoted name ∧ s.slice source.toList = name.toList) := by
  obtain ⟨s, hspan, inside, hname⟩ := located_of_compile h
  obtain ⟨line, hline⟩ := inside.exists_location
  refine ⟨s, hspan, ⟨inside.nonneg, inside.start_lt_stop, ?_⟩, ⟨_, line, ?_, hline⟩, hname⟩
  · rw [← String.length_toList]
    exact inside.stop_le
  · rw [Diagnostic.location?, hspan, Option.map_some]

/-- A name that is not bound, on the second line. -/
theorem error_inside_source_second_line :
    let source := "; sum\n(+ 2 xs)"
    ∃ d s, compile {} "f" source = .error d ∧ d.kind = "unbound symbol" ∧ d.span = some s ∧
      (0 ≤ s.start ∧ s.start < s.stop ∧ s.stop ≤ source.length) ∧
      (∃ p line, d.location? source = some p ∧
        1 ≤ p.line ∧ p.line ≤ (Text.splitAt '\n' source.toList).length ∧
        (Text.splitAt '\n' source.toList)[p.line - 1]? = some line ∧
        1 ≤ p.column ∧ p.column ≤ line.length + 1) ∧
      d.location? source = some ⟨2, 6⟩ ∧
      ∃ name, d.detail = Text.quoted name ∧ s.slice source.toList = name.toList := by
  intro source
  have hlexed : Lexed.ofSource source = { tokens := [⟨.opener .paren, ⟨6, 7⟩⟩,
      ⟨.ident "+", ⟨7, 8⟩⟩, ⟨.number (.int 2), ⟨9, 10⟩⟩, ⟨.ident "xs", ⟨11, 13⟩⟩,
      ⟨.closer .paren, ⟨13, 14⟩⟩] } := by
    decide +kernel
  have h : compile {} "f" source =
      .error (TypeFault.diagnostic ⟨.unbound "xs", some ⟨11, 13⟩⟩) := by
    rw [compile, Form.parse, hlexed]
    rfl
  have hlocation : Span.location ⟨11, 13⟩ source.toList = ⟨2, 6⟩ := by decide
  obtain ⟨s, hspan, inside, place, hname⟩ := error_inside_source h
  exact ⟨_, s, h, rfl, hspan, inside, place, congrArg some hlocation, hname rfl⟩

end Compile

end TypedSexp
