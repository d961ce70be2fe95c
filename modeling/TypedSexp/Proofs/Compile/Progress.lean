import TypedSexp.Proofs.Compile.Composition

/-!
# How far a compilation gets

A compilation that succeeds has a report for every form of the source, in their order
(`Compile.exists_inOrder_of_compile`). One that fails stops at reading, or at the first form that
cannot be typed or emitted, after all forms before it were compiled
(`Compile.compile_eq_error_iff`).

Nothing is said here about the written form of a report, nor about the notifications that a
compilation sends.
-/

namespace TypedSexp

namespace Compile

variable {o : Options} {filename source : String}

/-! ## Success -/

/-- The report of a form has the index that the form was compiled under, whether or not the form was
typed and emitted. -/
theorem index_of_form {index : Nat} {e : Form Note} {r : FormReport}
    (h : form o index e = .ok r) : r.index = index := by
  obtain ⟨r', htyped, hemitted⟩ := exists_of_bind_eq_ok h
  have hindex : r'.index = index := by
    rw [typeForm] at htyped
    split at htyped
    · split at htyped <;> cases htyped
      rfl
    · cases htyped
      rfl
  rw [emitForm] at hemitted
  split at hemitted
  · split at hemitted <;> cases hemitted
    exact hindex
  · cases hemitted
    exact hindex

/-- The reports of forms, the first of which has the given index: one for each, in order. -/
def InOrder (o : Options) (index : Nat) (es : List (Form Note)) (rs : List FormReport) : Prop :=
  rs.length = es.length ∧ ∀ k e, es[k]? = some e →
    ∃ r, rs[k]? = some r ∧ r.index = index + k ∧ form o (index + k) e = .ok r

/-- Forms that compile have a report each, in the order of the forms and with indices that count
on. -/
theorem inOrder_of_forms {index : Nat} {es : List (Form Note)} {rs : List FormReport}
    (h : forms o index es = .ok rs) : InOrder o index es rs := by
  refine ⟨length_forms h, ?_⟩
  induction es generalizing index rs with
  | nil =>
    intro k e hk
    cases hk
  | cons e es ih =>
    rw [forms] at h
    obtain ⟨r, hfirst, h⟩ := exists_of_bind_eq_ok h
    obtain ⟨more, hrest, h⟩ := exists_of_bind_eq_ok h
    cases h
    intro k e' hk
    cases k with
    | zero =>
      cases hk
      exact ⟨r, rfl, index_of_form hfirst, hfirst⟩
    | succ k =>
      rw [show index + (k + 1) = index + 1 + k by omega]
      exact ih hrest k e' hk

/-- A source that compiles was read to forms that have a report each, in order. If scripts are
emitted, theirs together are the program that the forms make. -/
theorem exists_inOrder_of_compile {r : Report} (h : compile o filename source = .ok r) :
    ∃ es, Form.parse source = .ok es ∧ InOrder o 0 es r.forms ∧
      (o.emits = true → Script.emitProgram es = .ok r.script) := by
  obtain ⟨es, hparse, hforms⟩ := exists_of_compile h
  refine ⟨es, hparse, inOrder_of_forms hforms, fun emits => ?_⟩
  rw [Script.emitProgram, scripts_of_forms emits hforms]
  rfl

/-! ## Failure -/

/-- Forms fail where one of them does after all before it were compiled. What comes after the
failing form is not looked at. -/
theorem forms_eq_error_iff {index : Nat} {es : List (Form Note)} {d : Diagnostic} :
    forms o index es = .error d ↔ ∃ before e after rs, es = before ++ e :: after ∧
      forms o index before = .ok rs ∧ form o (index + before.length) e = .error d := by
  constructor
  · intro h
    induction es generalizing index with
    | nil => cases h
    | cons e es ih =>
      rw [forms] at h
      rcases eq_error_or_of_bind_eq_error h with hfirst | ⟨r, hfirst, h⟩
      · exact ⟨[], e, es, [], rfl, rfl, hfirst⟩
      · rcases eq_error_or_of_bind_eq_error h with hrest | ⟨more, -, h⟩
        · obtain ⟨before, e', after, rs, rfl, hbefore, hfails⟩ := ih hrest
          refine ⟨e :: before, e', after, r :: rs, rfl, ?_, ?_⟩
          · rw [forms, hfirst, hbefore]
            rfl
          · rw [List.length_cons, Nat.add_comm before.length, ← Nat.add_assoc]
            exact hfails
        · cases h
  · rintro ⟨before, e, after, rs, rfl, hbefore, hfails⟩
    rw [forms_append, hbefore, forms, hfails]
    rfl

/-- Typing fails exactly where forms are typed and inference refuses the form. -/
theorem typeForm_eq_error_iff {index : Nat} {e : Form Note} {d : Diagnostic} :
    typeForm o index e = .error d ↔
      ∃ f, o.infers = true ∧ e.infer = .error f ∧ f.diagnostic = d := by
  rw [typeForm]
  split
  · next infers => cases e.infer <;> simp [infers]
  · next skips => simp [skips]

/-- Emission fails exactly where forms are emitted and the emitter refuses the form of the
report. -/
theorem emitForm_eq_error_iff {r : FormReport} {d : Diagnostic} :
    emitForm o r = .error d ↔
      ∃ f, o.emits = true ∧ Script.emit r.form = .error f ∧ emitDiagnostic r.form f = d := by
  rw [emitForm]
  split
  · next emits => cases Script.emit r.form <;> simp [emits]
  · next skips => simp [skips]

/-- How a compilation stops: at reading, or at a form where all forms before it were compiled. -/
inductive Stops (o : Options) (source : String) : Diagnostic → Prop
  | reading {f : ParseFault} (unread : Form.parse source = .error f) : Stops o source f.diagnostic
  | typing {before after : List (Form Note)} {e : Form Note} {rs : List FormReport} {f : TypeFault}
      (parsed : Form.parse source = .ok (before ++ e :: after)) (done : forms o 0 before = .ok rs)
      (infers : o.infers = true) (refused : e.infer = .error f) : Stops o source f.diagnostic
  | emission {before after : List (Form Note)} {e : Form Note} {rs : List FormReport}
      {r : FormReport} {f : EmitFault} (parsed : Form.parse source = .ok (before ++ e :: after))
      (done : forms o 0 before = .ok rs) (typed : typeForm o before.length e = .ok r)
      (emits : o.emits = true) (refused : Script.emit r.form = .error f) :
      Stops o source (emitDiagnostic r.form f)

/-- A compilation fails as it stops: at reading, or after any number of forms at typing or emitting
the next one. The two sides say the same of every source and all options. -/
theorem compile_eq_error_iff {d : Diagnostic} :
    compile o filename source = .error d ↔ Stops o source d := by
  constructor
  · intro h
    cases hparse : Form.parse source with
    | error f =>
      rw [compile, hparse] at h
      cases h
      exact .reading hparse
    | ok es =>
      rw [compile_of_parse hparse] at h
      obtain ⟨before, e, after, rs, rfl, done, hform⟩ :=
        forms_eq_error_iff.mp (eq_error_of_map_eq_error h)
      rw [Nat.zero_add] at hform
      rcases eq_error_or_of_bind_eq_error hform with htype | ⟨r, htype, hemit⟩
      · obtain ⟨f, infers, refused, rfl⟩ := typeForm_eq_error_iff.mp htype
        exact .typing hparse done infers refused
      · obtain ⟨f, emits, refused, rfl⟩ := emitForm_eq_error_iff.mp hemit
        exact .emission hparse done htype emits refused
  · have fails : ∀ {before after : List (Form Note)} {e : Form Note} {rs : List FormReport},
        Form.parse source = .ok (before ++ e :: after) → forms o 0 before = .ok rs →
          form o before.length e = .error d → compile o filename source = .error d := by
      intro before after e rs parsed done hform
      rw [compile_of_parse parsed, forms_eq_error_iff.mpr
        ⟨before, e, after, rs, rfl, done, by rw [Nat.zero_add]; exact hform⟩]
      rfl
    intro h
    cases h with
    | reading unread => rw [compile, unread]
    | @typing before _ e _ _ parsed done infers refused =>
      refine fails parsed done ?_
      rw [form, typeForm_eq_error_iff.mpr ⟨_, infers, refused, rfl⟩]
      rfl
    | @emission before _ e _ r _ parsed done typed emits refused =>
      refine fails parsed done ?_
      rw [form, typed]
      exact emitForm_eq_error_iff.mpr ⟨_, emits, refused, rfl⟩

end Compile

end TypedSexp
