import TypedSexp.Compile
import TypedSexp.Proofs.Compile.Emission
import TypedSexp.Proofs.Form.Joined
import TypedSexp.Proofs.Inference.Relabelling
import TypedSexp.Proofs.Result

/-!
# Compilation of joined sources

Two sources with a newline between them compile to the reports of the first and those of the
second, with indices and places moved (`Compile.compile_join`). A failure of the second is
the failure of both, at the moved place.

The reader gives the forms of both sources (`Form.parse_join`). Every form is compiled on its
own: inference and emission do not look at places (`Form.infer_shift`), so a moved form has
the moved report (`Compile.form_shift`).

What is left out: sources joined without a newline, where a word or a comment goes on into the
second source, and a first source that does not compile. A delimiter that it leaves open may be
closed by what follows, so its failure need not be that of both.
-/

namespace TypedSexp

/-- The report of a form moved by a number of forms and a number of characters. -/
def FormReport.shift (n k : Nat) (r : FormReport) : FormReport :=
  { r with index := r.index + n, form := r.form.shift k }

/-- The failure moved by a number of characters. -/
def Diagnostic.shift (k : Nat) (d : Diagnostic) : Diagnostic :=
  { d with span := d.span.map (Span.shift k) }

/-- A report that is moved by some characters has a moved place and all else as it was. -/
theorem Diagnostic.moved_shift (k : Nat) (d : Diagnostic) : d.Moved k (d.shift k) :=
  ⟨rfl, rfl, rfl, rfl⟩

/-! ## Inference at another place -/

/-- Moving every form by a number of characters. -/
def Relabelling.ofShift (k : Nat) : Relabelling :=
  { Relabelling.unchanged with place := Option.map (Span.shift k) }

/-- A form to which the relabelling of a shift has been done is the shifted form. Types that are
noted before inference are not looked at, and they are kept here. -/
theorem Form.alter_before_ofShift (k : Nat) (e : Form Note) :
    e.alter (Relabelling.ofShift k).before = e.shift k :=
  alter_eq_map (Note.shift k) e

/-- A shift changes nothing in a result but the places in the form. -/
theorem Inferred.relabel_ofShift (k : Nat) (r : Inferred) :
    r.relabel (.ofShift k) = { r with form := r.form.shift k } := by
  have hform : r.form.alter (Relabelling.ofShift k).keeping = r.form.shift k :=
    Form.alter_eq_map (Note.shift k) r.form
  rw [relabel_of_id rfl, hform]

/-- A form at another place has the same type, or it fails in the same way at the moved place.
Places may be moved past the end of any source; nothing here looks at one. -/
theorem Form.infer_shift (k : Nat) (e : Form Note) :
    (e.shift k).infer = (e.infer.map fun r => { r with form := r.form.shift k }).mapError
      fun f => { f with span := f.span.map (Span.shift k) } := by
  have hscope : Inference.ScopeRelabelled (.ofShift k) [Frame.standard 0] [Frame.standard 0] :=
    Inference.scopeRelabelled_of_eq rfl fun _ t _ => Ty.rename_id t
  have hrun := Inference.run_relabel hscope e (Nat.zero_le Frame.standardVars)
  rw [alter_before_ofShift] at hrun
  have hfault : TypeFault.relabel (.ofShift k) = _ := funext (TypeFault.relabel_of_id rfl)
  have hresult : Inferred.relabel (.ofShift k) = _ := funext (Inferred.relabel_ofShift k)
  rw [hfault, hresult] at hrun
  exact congrArg Prod.fst hrun

/-! ## Forms at another place -/

namespace Compile

variable (o : Options) (n k : Nat)

/-- Typing a moved form gives the moved report, or fails at the moved place. -/
theorem typeForm_shift (index : Nat) (e : Form Note) :
    typeForm o (index + n) (e.shift k) =
      ((typeForm o index e).map (FormReport.shift n k)).mapError (Diagnostic.shift k) := by
  unfold typeForm
  split
  · rw [Form.infer_shift]
    cases e.infer <;> rfl
  · rfl

/-- Emitting for a moved report gives the moved report with the same script, or fails at the moved
place. -/
theorem emitForm_shift (r : FormReport) :
    emitForm o (r.shift n k) =
      ((emitForm o r).map (FormReport.shift n k)).mapError (Diagnostic.shift k) := by
  unfold emitForm
  split
  · have hemit : Script.emit (r.shift n k).form = Script.emit r.form := Script.emit_map _ r.form
    rw [hemit]
    cases Script.emit r.form with
    | error f =>
      have hnote : (r.shift n k).form.note = Note.shift k r.form.note := Form.note_map _ r.form
      dsimp only [emitDiagnostic]
      rw [hnote]
      rfl
    | ok text => rfl
  · rfl

/-- A form at another place compiles to the moved report, or fails at the moved place. Nothing but
places and the index is changed, as neither inference nor emission looks at a place. -/
theorem form_shift (index : Nat) (e : Form Note) :
    form o (index + n) (e.shift k) =
      ((form o index e).map (FormReport.shift n k)).mapError (Diagnostic.shift k) := by
  rw [form, form, typeForm_shift]
  cases typeForm o index e with
  | error d => rfl
  | ok r => exact emitForm_shift o n k r

/-- Forms that are compiled one after the other and stand at other places compile to the moved
reports. Their indices are moved by the number of forms before them. -/
theorem forms_shift (index : Nat) (es : List (Form Note)) :
    forms o (index + n) (es.map (Form.shift k)) =
      ((forms o index es).map (List.map (FormReport.shift n k))).mapError (Diagnostic.shift k) := by
  induction es generalizing index with
  | nil => rfl
  | cons e es ih =>
    rw [List.map_cons, forms, forms, form_shift, Nat.add_right_comm, ih]
    cases form o index e with
    | error d => rfl
    | ok r => cases forms o (index + 1) es <;> rfl

/-! ## Scripts -/

variable {o}

/-- Where forms are emitted, the script that is added to a report is that of the form in the
report. -/
theorem script_of_emitForm (emits : o.emits = true) {r r' : FormReport}
    (h : emitForm o r = .ok r') :
    ∃ text, r'.script = some text ∧ Script.emit r.form = .ok text := by
  rw [emitForm, if_pos emits] at h
  cases htext : Script.emit r.form with
  | error f =>
    rw [htext] at h
    cases h
  | ok text =>
    rw [htext] at h
    cases h
    exact ⟨text, rfl, rfl⟩

/-- Where forms are emitted, a report holds the script of its form as it was read. The form in the
report has types, but they do not show in a script. -/
theorem script_of_form (emits : o.emits = true) {index : Nat} {e : Form Note} {r : FormReport}
    (h : form o index e = .ok r) : ∃ text, r.script = some text ∧ Script.emit e = .ok text := by
  obtain ⟨r', htyped, hemitted⟩ := exists_of_bind_eq_ok h
  obtain ⟨text', hscript, htext'⟩ := script_of_emitForm emits hemitted
  rw [typeForm] at htyped
  split at htyped
  · cases hrun : e.infer with
    | error f =>
      rw [hrun] at htyped
      cases htyped
    | ok typed =>
      rw [hrun] at htyped
      cases htyped
      -- The types that were noted do not count for the script.
      obtain ⟨text, hform, htext⟩ := Inference.exists_emit_of_run hrun
      rw [htext] at htext'
      cases htext'
      exact ⟨_, hscript, hform⟩
  · cases htyped
    exact ⟨text', hscript, htext'⟩

/-- Where forms are emitted, the reports hold the scripts of all forms, in order and without
gaps. -/
theorem scripts_of_forms (emits : o.emits = true) {index : Nat} {es : List (Form Note)}
    {rs : List FormReport} (h : forms o index es = .ok rs) :
    Script.emitAll es = .ok (rs.filterMap (·.script)) := by
  induction es generalizing index rs with
  | nil =>
    cases h
    rfl
  | cons e es ih =>
    rw [forms] at h
    obtain ⟨r, hfirst, h⟩ := exists_of_bind_eq_ok h
    obtain ⟨more, hrest, h⟩ := exists_of_bind_eq_ok h
    cases h
    obtain ⟨text, hscript, htext⟩ := script_of_form emits hfirst
    rw [Script.emitAll, htext, ih hrest, List.filterMap_cons_some hscript]
    rfl

end Compile

/-- The script of several reports is the scripts of its parts, one after the other. -/
theorem Report.script_append (filename : String) (rs ss : List FormReport) :
    Report.script ⟨filename, rs ++ ss⟩ =
      Report.script ⟨filename, rs⟩ ++ Report.script ⟨filename, ss⟩ := by
  simp only [script, List.filterMap_append, List.map_append, String.join_append]

/-- The script of reports does not depend on their indices and places. -/
theorem Report.script_shift (filename : String) (n k : Nat) (rs : List FormReport) :
    Report.script ⟨filename, rs.map (FormReport.shift n k)⟩ = Report.script ⟨filename, rs⟩ := by
  simp only [script, List.filterMap_map]
  rfl

/-! ## Joined sources -/

namespace Compile

variable {o : Options} {filename source : String} {r : Report}

/-- A source that compiles was read to forms, and the reports are those of these forms, counted from
zero. -/
theorem exists_of_compile (h : compile o filename source = .ok r) :
    ∃ es, Form.parse source = .ok es ∧ forms o 0 es = .ok r.forms := by
  rw [compile] at h
  cases hparse : Form.parse source with
  | error f =>
    rw [hparse] at h
    cases h
  | ok es =>
    rw [hparse] at h
    obtain ⟨rs, hforms, rfl⟩ := exists_of_map_eq_ok h
    exact ⟨es, rfl, hforms⟩

/-- A source that was read compiles as its forms do. Nothing of the source but its forms is looked
at after that. -/
theorem compile_of_parse {es : List (Form Note)} (h : Form.parse source = .ok es) :
    compile o filename source =
      (forms o 0 es).map fun forms => { filename, forms } := by
  rw [compile, h]

/-- The forms of the second source are compiled after those of the first one, as they are alone.
There is no state that goes from one form to the next. -/
theorem forms_join {es : List (Form Note)} {rs : List FormReport} (h : forms o 0 es = .ok rs)
    (fs : List (Form Note)) (k : Nat) :
    forms o 0 (es ++ fs.map (Form.shift k)) =
      ((forms o 0 fs).map fun ss => rs ++ ss.map (FormReport.shift rs.length k)).mapError
        (Diagnostic.shift k) := by
  have hmore := forms_shift o rs.length k 0 fs
  rw [length_forms h] at hmore
  rw [forms_append, h, length_forms h]
  simp only [Except.bind, hmore]
  cases forms o 0 fs <;> rfl

/-- **Compilation is compositional.** Let a source compile. If another one does, both with a
newline between them do, and the reports are those of the first source followed by those of
the second one, with indices and places moved and nothing else changed. The script is the one
of the first source followed by the one of the second, and it is the script of the program
that both make. If the other source fails, both fail in the same way at the moved place. -/
theorem compile_join {o : Options} {filename first : String} {r : Report}
    (h : compile o filename first = .ok r) (second : String) :
    (∀ r', compile o filename second = .ok r' →
      ∃ joined, compile o filename (first ++ "\n" ++ second) = .ok joined ∧
        joined.forms =
          r.forms ++ r'.forms.map (FormReport.shift r.forms.length (first.length + 1)) ∧
        joined.script = r.script ++ r'.script ∧
        (o.emits = true → ∃ es, Form.parse (first ++ "\n" ++ second) = .ok es ∧
          Script.emitProgram es = .ok joined.script)) ∧
    ∀ d, compile o filename second = .error d →
      ∃ d', compile o filename (first ++ "\n" ++ second) = .error d' ∧
        d.Moved (first.length + 1) d' := by
  obtain ⟨es, hparse, hforms⟩ := exists_of_compile h
  have hjoin := Form.parse_join hparse second
  constructor
  · intro r' h'
    obtain ⟨fs, hparse', hforms'⟩ := exists_of_compile h'
    rw [hparse'] at hjoin
    have hall := forms_join hforms fs (first.length + 1)
    rw [hforms'] at hall
    refine ⟨⟨filename, _⟩, ?_, rfl, ?_, ?_⟩
    · rw [compile_of_parse hjoin]
      exact congrArg (Except.map _) hall
    · rw [Report.script_append, Report.script_shift]
      rfl
    · intro emits
      refine ⟨_, hjoin, ?_⟩
      rw [Script.emitProgram, scripts_of_forms emits hall]
      rfl
  · intro d h'
    rw [compile] at h'
    cases hparse' : Form.parse second with
    | error f =>
      rw [hparse'] at h' hjoin
      cases h'
      refine ⟨_, ?_, f.moved_shift (first.length + 1)⟩
      rw [compile, hjoin]
      rfl
    | ok fs =>
      rw [hparse'] at h' hjoin
      have hforms' : forms o 0 fs = .error d := eq_error_of_map_eq_error h'
      have hall := forms_join hforms fs (first.length + 1)
      rw [hforms'] at hall
      refine ⟨_, ?_, d.moved_shift (first.length + 1)⟩
      rw [compile_of_parse hjoin]
      exact congrArg (Except.map _) hall

/-- The first source ends in a comment that holds an opening delimiter. The comment ends before
the second source does. -/
theorem compile_join_comment :
    let o : Options := { emits := true }
    let first := "1 ;("
    ∃ r r' joined d d', compile o "f" first = .ok r ∧ compile o "f" "[\"b\"]" = .ok r' ∧
      compile o "f" (first ++ "\n" ++ "[\"b\"]") = .ok joined ∧
      joined.forms = r.forms ++ r'.forms.map (FormReport.shift r.forms.length (first.length + 1)) ∧
      joined.script = r.script ++ r'.script ∧
      compile o "f" "2x" = .error d ∧ compile o "f" (first ++ "\n" ++ "2x") = .error d' ∧
      d'.kind = d.kind ∧ d'.span = some ⟨5, 7⟩ := by
  intro o first
  have lexed_first : Lexed.ofSource first = { tokens := [⟨.number (.int 1), ⟨0, 1⟩⟩] } := by
    decide +kernel
  have lexed_second : Lexed.ofSource "[\"b\"]" = { tokens := [⟨.opener .bracket, ⟨0, 1⟩⟩,
      ⟨.string "b", ⟨1, 4⟩⟩, ⟨.closer .bracket, ⟨4, 5⟩⟩] } := by
    decide +kernel
  have lexed_bad : Lexed.ofSource "2x" =
      { tokens := [], fault := some (.malformedNumber "2x" ⟨0, 2⟩) } := by
    decide +kernel
  have hfirst : Form.parse first = .ok [.number { span := some ⟨0, 1⟩ } (.int 1)] := by
    rw [Form.parse, lexed_first]
    rfl
  have hsecond : Form.parse "[\"b\"]" =
      .ok [.vector { span := some ⟨0, 5⟩ } [.string { span := some ⟨1, 4⟩ } "b"]] := by
    rw [Form.parse, lexed_second]
    rfl
  have hbad : Form.parse "2x" = .error (.lex (.malformedNumber "2x" ⟨0, 2⟩)) := by
    rw [Form.parse, lexed_bad]
    rfl
  obtain ⟨rs, hrs⟩ : ∃ rs, forms o 0 [.number { span := some ⟨0, 1⟩ } (.int 1)] = .ok rs := by
    rw [forms, form, typeForm, if_pos rfl, Form.infer_number]
    exact ⟨_, rfl⟩
  have solved : Solver.run { pending := [⟨.var ⟨3, 0⟩, .string, some ⟨1, 4⟩⟩] } =
      .ok [(⟨3, 0⟩, .string)] := by
    cbv
  have hinfer : (Form.vector { span := some ⟨0, 5⟩ } [.string { span := some ⟨1, 4⟩ } "b"]).infer =
      .ok _ := Inference.run_of_assigns (.vector (.cons .string .nil)) solved
  obtain ⟨ss, hss⟩ : ∃ ss, forms o 0 [.vector { span := some ⟨0, 5⟩ }
      [.string { span := some ⟨1, 4⟩ } "b"]] = .ok ss := by
    rw [forms, form, typeForm, if_pos rfl, hinfer]
    exact ⟨_, rfl⟩
  have h : compile o "f" first = .ok ⟨"f", rs⟩ := by
    rw [compile_of_parse hfirst, hrs]
    rfl
  have h' : compile o "f" "[\"b\"]" = .ok ⟨"f", ss⟩ := by
    rw [compile_of_parse hsecond, hss]
    rfl
  have hd : compile o "f" "2x" =
      .error (ParseFault.lex (.malformedNumber "2x" ⟨0, 2⟩)).diagnostic := by
    rw [compile, hbad]
  obtain ⟨joined, hjoined, hforms, hscript, -⟩ := (compile_join h "[\"b\"]").1 _ h'
  obtain ⟨d', hd', moved⟩ := (compile_join h "2x").2 _ hd
  have hlength : first.length + 1 = 5 := by decide
  have hspan := moved.span
  rw [hlength] at hspan
  exact ⟨_, _, joined, _, d', h, h', hjoined, hforms, hscript, hd, hd', moved.kind, hspan⟩

end Compile

end TypedSexp
