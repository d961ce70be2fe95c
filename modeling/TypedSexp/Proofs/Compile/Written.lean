import TypedSexp.Proofs.Compile.Progress
import TypedSexp.Proofs.Form.Restored
import TypedSexp.Proofs.Inference.Annotation
import TypedSexp.Report

/-!
# What a written report says

A check types every form of a source and emits it if that is asked for (`Compile.Finds`). Its report
is written in one of two ways, and both say what was found out about every form of the source, in
the order of the forms.

In a text, every form has its lines (`Compile.Tells`): one with the form and its type, or with the
types of all its parts; one for each variable of the solution, if the solution is shown; and one
with the script, if there is one. There are no other lines (`Report.tellsAll_text`).

In JSON, every form has its object (`Compile.Describes`), which holds its place among the forms, its
text, its record, its type, its solution and its script under their names and nothing else. The
whole is one document, which reads back as what was written (`Report.describesAll_jsonText`).

Both are said of the forms of the source and what inference and emission make of them, not of the
parts of the report. What the names of types and the scripts are is said elsewhere, and so is what a
record keeps of a form. A form that holds a string with a line end makes more than one line of the
text; the lines meant here are those that the report ends.
-/

namespace TypedSexp

/-! ## Forms in their syntax -/

namespace Form

variable {α β : Type}

/-- A print shows nothing of the notes, so it is the same before and after types are noted. -/
theorem print_map (f : α → β) (e : Form α) : (e.map f).print = e.print := by
  induction e using elementsInd with
  | symbol n s | string n s | number n x | bare n => rfl
  | list n es ih | vector n es ih =>
    have hes : es.map (print ∘ map f) = es.map print := List.map_congr_left ih
    simp only [print, map, mapAll_eq_map, printWith, printEach_eq_map, List.map_map] at hes ⊢
    rw [hes]

/-- A form without bare forms in it has a text. One with a bare form has none, which is why it
cannot be left open here. -/
theorem toSource_of_isComplete {e : Form Note} (complete : e.isComplete = true) (typed : Bool) :
    e.toSource typed = .ok (if typed then e.printTyped else e.print) := by
  rw [toSource, supported, if_pos complete]
  cases typed <;> rfl

end Form

/-! ## What is found out about a form -/

namespace Compile

variable {o : Options} {index : Nat} {e : Form Note} {t : Inferred} {script : Option String}

/-- What a check finds out about a form of a source: how it is typed, and its script where forms
are emitted. -/
structure Finds (o : Options) (e : Form Note) (t : Inferred) (script : Option String) : Prop where
  typed : e.infer = .ok t
  emitted : o.emits = true → ∃ text, script = some text ∧ Script.emit e = .ok text
  silent : o.emits = false → script = none

namespace Finds

/-- No bare form is in a form that was typed, neither before nor after. -/
theorem isComplete (found : Finds o e t script) :
    e.isComplete = true ∧ t.form.isComplete = true := by
  have after := (Inference.annotates_of_run found.typed).isComplete
  have same := congrArg Form.isComplete (Inference.untyped_of_run found.typed)
  rw [Form.untyped, Form.untyped, Form.isComplete_map, Form.isComplete_map] at same
  exact ⟨same ▸ after, after⟩

theorem print_eq (found : Finds o e t script) : t.form.print = e.print := by
  have same := congrArg Form.print (Inference.untyped_of_run found.typed)
  rwa [Form.untyped, Form.untyped, Form.print_map, Form.print_map] at same

end Finds

/-- The report of a form with what was found out about it. -/
def reportOf (index : Nat) (t : Inferred) (script : Option String) : FormReport :=
  ⟨index, t.form, some (t.type, t.substitution), script⟩

/-- Where forms are typed, the report of a form holds what is found out about it. Without typing the
report has no type, and this says nothing. -/
theorem exists_finds_of_form (infers : o.infers = true) {r : FormReport}
    (h : form o index e = .ok r) :
    ∃ t script, Finds o e t script ∧ r = reportOf index t script := by
  obtain ⟨r', htyped, hemitted⟩ := exists_of_bind_eq_ok h
  rw [typeForm, if_pos infers] at htyped
  cases hrun : e.infer with
  | error f =>
    rw [hrun] at htyped
    cases htyped
  | ok t =>
    rw [hrun] at htyped
    cases htyped
    cases emits : o.emits with
    | true =>
      obtain ⟨text, hscript, htext⟩ := script_of_form emits h
      refine ⟨t, some text, ⟨hrun, fun _ => ⟨text, rfl, htext⟩, fun silent => ?_⟩, ?_⟩
      · rw [emits] at silent
        cases silent
      · rw [emitForm, if_pos emits] at hemitted
        split at hemitted <;> cases hemitted
        rw [← hscript]
        rfl
    | false =>
      refine ⟨t, none, ⟨hrun, fun emitted => ?_, fun _ => rfl⟩, ?_⟩
      · rw [emits] at emitted
        cases emitted
      · rw [emitForm, if_neg (by simp [emits])] at hemitted
        cases hemitted
        rfl

/-- What is found out about every form of a source is in the report at its place, under the index of
the form. -/
theorem InOrder.exists_finds (infers : o.infers = true) {es : List (Form Note)}
    {rs : List FormReport} (h : InOrder o 0 es rs) {k : Nat} (hk : es[k]? = some e) :
    ∃ t script, Finds o e t script ∧ rs[k]? = some (reportOf k t script) := by
  obtain ⟨r, hr, -, hform⟩ := h.2 k e hk
  rw [Nat.zero_add] at hform
  obtain ⟨t, script, found, rfl⟩ := exists_finds_of_form infers hform
  exact ⟨t, script, found, hr⟩

/-! ## Texts -/

/-- The lines of a text report about a form. The first has the form in its syntax, with its type or
with the types of all its parts. After it, if the solution is shown, every variable that is solved
has a line with its type, in the order of the solution. The last has the script, if there is one. -/
structure Tells (o : Options) (e : Form Note) (t : Inferred) (script : Option String)
    (lines : List String) : Prop where
  whole : o.showsTypes = false →
    ∃ text, e.toSource false = .ok text ∧ lines[0]? = some (text ++ " : " ++ t.type.pretty)
  parts : o.showsTypes = true → ∃ text, t.form.toSource true = .ok text ∧ lines[0]? = some text
  solution : o.showsSubstitution = true → ∀ k x u, t.substitution[k]? = some (x, u) →
    lines[k + 1]? = some ("  " ++ x.rawName ++ " -> " ++ u.raw)
  emitted : ∀ text, script = some text → lines.getLast? = some ("  // " ++ text)
  length : lines.length =
    1 + (if o.showsSubstitution then t.substitution.length else 0) + script.toList.length

/-- The lines of the solution, one for each variable in the order of the solution, or none if it is
not shown. -/
theorem substitutionLines_reportOf (o : Options) (index : Nat) (t : Inferred)
    (script : Option String) : (reportOf index t script).substitutionLines o =
      if o.showsSubstitution then
        t.substitution.map fun b => "  " ++ b.1.rawName ++ " -> " ++ b.2.raw
      else [] := by
  simp only [reportOf, FormReport.substitutionLines, FormReport.pairTexts, List.map_map]
  rfl

theorem scriptLines_reportOf (index : Nat) (t : Inferred) (script : Option String) :
    (reportOf index t script).scriptLines = script.toList.map fun text => "  // " ++ text := by
  cases script <;> rfl

/-- The lines that are written for a form tell what was found out about it, under the options of the
report. There is one case for each option and for a script that is there or not. -/
theorem tells_lines (found : Finds o e t script) (index : Nat) :
    Tells o e t script ((reportOf index t script).lines o) := by
  have hlines : (reportOf index t script).lines o = (reportOf index t script).line o ::
      ((reportOf index t script).substitutionLines o ++
        script.toList.map fun text => "  // " ++ text) := by
    rw [FormReport.lines, scriptLines_reportOf, List.cons_append]
  rw [hlines, substitutionLines_reportOf]
  constructor
  case whole =>
    intro plain
    refine ⟨e.print, Form.toSource_of_isComplete found.isComplete.1 false, ?_⟩
    rw [List.getElem?_cons_zero, FormReport.line, if_neg (by simp [plain]), ← found.print_eq]
    rfl
  case parts =>
    intro shown
    refine ⟨t.form.printTyped, Form.toSource_of_isComplete found.isComplete.2 true, ?_⟩
    rw [List.getElem?_cons_zero, FormReport.line, if_pos shown]
    rfl
  case solution =>
    intro shown k x u hk
    obtain ⟨hlt, -⟩ := List.getElem?_eq_some_iff.mp hk
    rw [List.getElem?_cons_succ, if_pos shown,
      List.getElem?_append_left (by rw [List.length_map]; exact hlt), List.getElem?_map, hk]
    rfl
  case emitted =>
    intro text hscript
    rw [hscript, ← List.cons_append]
    exact List.getLast?_concat
  case length =>
    rw [List.length_cons, List.length_append, List.length_map]
    split
    · rw [List.length_map]
      omega
    · rw [List.length_nil]
      omega

/-- A text holds the lines about every form, in the order of the forms, and each is ended by a line
end. -/
def TellsAll (o : Options) (es : List (Form Note)) (text : String) : Prop :=
  ∃ blocks : List (List String), text = String.join (blocks.flatten.map (· ++ "\n")) ∧
    blocks.length = es.length ∧ ∀ (k : Nat) (e : Form Note), es[k]? = some e →
      ∃ lines t script, blocks[k]? = some lines ∧ Finds o e t script ∧ Tells o e t script lines

/-! ## JSON -/

/-- The object of a JSON report about a form: what is found under each name, and which names there
are. The types of the parts are in the record of the form. -/
structure Describes (index : Nat) (e : Form Note) (t : Inferred) (script : Option String)
    (j : Json) : Prop where
  names : ∃ fields, j = .object fields ∧ fields.map Prod.fst =
    ["index", "source", "tree", "type", "substitution"] ++ script.toList.map fun _ => "javascript"
  position : j.field? "index" = some (.int index)
  source : ∃ text, e.toSource false = .ok text ∧ j.field? "source" = some (.string text)
  tree : ∃ tree, Record.serialize t.form = .ok tree ∧ j.field? "tree" = some tree
  type : j.field? "type" = some (.string t.type.pretty)
  solution : j.field? "substitution" = some (.array (t.substitution.map fun b =>
    .array [.string b.1.rawName, .string b.2.raw]))
  emitted : j.field? "javascript" = script.map .string

/-- The object that is written for a form describes what was found out about it. Each part is looked
up under its name, and there are no other names. -/
theorem describes_toJson (found : Finds o e t script) (index : Nat) :
    Describes index e t script (reportOf index t script).toJson := by
  have hserialize : Record.serialize t.form = .ok (Record.ofForm (t.form.map Note.label)) := by
    rw [Record.serialize, Form.supported, if_pos found.isComplete.2]
  have hpairs : (FormReport.pairTexts t.substitution).map (fun p =>
      Json.array [.string p.1, .string p.2]) = t.substitution.map fun b =>
        .array [.string b.1.rawName, .string b.2.raw] := by
    rw [FormReport.pairTexts, List.map_map]
    rfl
  have hsource : (reportOf index t script).form.print = e.print := found.print_eq
  constructor
  case names => exact ⟨_, rfl, by cases script <;> rfl⟩
  case position => cases script <;> rfl
  case source =>
    refine ⟨e.print, Form.toSource_of_isComplete found.isComplete.1 false, ?_⟩
    rw [← hsource]
    cases script <;> rfl
  case tree => exact ⟨_, hserialize, by cases script <;> rfl⟩
  case type => cases script <;> rfl
  case solution =>
    rw [← hpairs]
    cases script <;> rfl
  case emitted => cases script <;> rfl

/-- A JSON value describes the forms of a file in their order, under the name of the file. -/
def DescribesAll (o : Options) (filename : String) (es : List (Form Note)) (j : Json) : Prop :=
  ∃ items, j = .object [("filename", .string filename), ("forms", .array items)] ∧
    items.length = es.length ∧ ∀ (k : Nat) (e : Form Note), es[k]? = some e →
      ∃ item t script, items[k]? = some item ∧ Finds o e t script ∧ Describes k e t script item

end Compile

/-! ## Whole reports -/

section Whole

variable {o : Options} {es : List (Form Note)} {r : Report}

/-- A text report tells what was found out about all forms. The forms are those of the source, so a
report that left one out would not do. -/
theorem Report.tellsAll_text (infers : o.infers = true) (ordered : Compile.InOrder o 0 es r.forms) :
    Compile.TellsAll o es (r.text o) := by
  refine ⟨r.forms.map (·.lines o), ?_, by rw [List.length_map, ordered.1], fun k e hk => ?_⟩
  · rw [Report.text, List.flatMap_def]
  · obtain ⟨t, script, found, hr⟩ := ordered.exists_finds infers hk
    refine ⟨_, t, script, ?_, found, Compile.tells_lines found k⟩
    rw [List.getElem?_map, hr]
    rfl

/-- No name stands twice in what is written about a form. The record of the form brings its own
objects, which is why the form must be complete. -/
theorem FormReport.namesDistinct_toJson {r : FormReport} (complete : r.form.isComplete = true) :
    r.toJson.NamesDistinct := by
  have hindex : (Json.int r.index).NamesDistinct := .number _
  have hpairs : ∀ ps : List (String × String), (Json.array (ps.map fun p =>
      .array [.string p.1, .string p.2])).NamesDistinct := by
    intro ps
    refine .array (List.forall_mem_map.mpr fun p _ => .array ?_)
    simp [Json.NamesDistinct.string]
  have htree := Record.namesDistinct_ofForm complete
  obtain ⟨index, form, typing, script⟩ := r
  refine .object ?_ ?_
  · cases typing <;> cases script <;> simp
  · cases typing <;> cases script <;> simp [hindex, htree, hpairs, Json.NamesDistinct.string]

/-- Where forms are typed, the form of every report holds no bare form. So each of them has a
record, and what is written as JSON has all its parts. -/
theorem Compile.InOrder.isComplete (infers : o.infers = true)
    {rs : List FormReport} (ordered : Compile.InOrder o 0 es rs) :
    ∀ r ∈ rs, r.form.isComplete = true := by
  intro r hr
  obtain ⟨k, hk, rfl⟩ := List.mem_iff_getElem.mp hr
  have hk' : k < es.length := ordered.1 ▸ hk
  obtain ⟨t, script, found, hreport⟩ := ordered.exists_finds infers (List.getElem?_eq_getElem hk')
  rw [List.getElem?_eq_getElem hk, Option.some.injEq] at hreport
  rw [hreport]
  exact found.isComplete.2

/-- A JSON report is one document. It reads back as what was written, and that describes what was
found out about all forms. So nothing of a text that a form holds can be taken for a part of the
document. -/
theorem Report.describesAll_jsonText (infers : o.infers = true)
    (ordered : Compile.InOrder o 0 es r.forms) :
    ∃ j, r.jsonText = j.indented true 0 ++ "\n" ∧ Json.parse? r.jsonText = some j ∧
      Compile.DescribesAll o r.filename es j := by
  refine ⟨r.toJson, rfl, ?_, _, rfl, by rw [List.length_map, ordered.1], fun k e hk => ?_⟩
  · have hforms : (Json.array (r.forms.map FormReport.toJson)).NamesDistinct :=
      .array (List.forall_mem_map.mpr fun f hf =>
        FormReport.namesDistinct_toJson (ordered.isComplete infers f hf))
    have hdistinct : r.toJson.NamesDistinct :=
      .object (by simp) (by simp [hforms, Json.NamesDistinct.string])
    refine Json.parse?_of_cuts ?_ hdistinct
    rw [jsonText, String.toList_append, ← List.append_nil r.toJson.toPieces]
    exact (Json.cuts_indented true r.toJson 0 _ (by simp [Json.EndsNumber, Decimal.isDigit])).append
      (Json.cuts_blank (by simp [Json.isSpace]) [])
  · obtain ⟨t, script, found, hr⟩ := ordered.exists_finds infers hk
    refine ⟨_, t, script, ?_, found, Compile.describes_toJson found k⟩
    rw [List.getElem?_map, hr]
    rfl

end Whole

end TypedSexp
