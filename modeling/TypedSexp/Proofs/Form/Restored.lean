import TypedSexp.Form.Record
import TypedSexp.Proofs.Form.Notes
import TypedSexp.Proofs.Json.RoundTrip

/-!
# Restored forms

A form that is written as a record and read again is the form with the same content and
places and without types (`Record.read_write`). Types count for the id of a record but are
not restored, so only a form without types is written as the same text again.

The text of a record reads back as the very record, since its fields have different names
and JSON documents read back. It remains to restore a form from its record. The id in a
record is that of the other fields, and the fields of that name are left out when an id is
computed, so each record passes the check of its id (`Record.checkId_fieldsOf`).

Left out are forms with a bare form in them, for which there is no record, and records that were not
written by this program.
-/

namespace TypedSexp

namespace Record

/-- The fields of a record but its id. -/
def contentFields (kind : String) (label : Label) (content : List (String × Json)) :
    List (String × Json) :=
  ("node", .string kind) :: ((label.span.map fun s => ("span", Json.array [s.1, s.2])).toList ++
    content ++ (label.type.map fun t => ("type", Json.string t)).toList)

/-- The fields of a record. -/
def fieldsOf (kind : String) (label : Label) (content : List (String × Json)) :
    List (String × Json) :=
  contentFields kind label content ++
    [("id", .string (contentId (.object (contentFields kind label content))))]

/-- A record is an object of its kind, its place and its type if it has them, its content, and its
id at the end. -/
theorem ofFields_eq (kind : String) (label : Label) (content : List (String × Json)) :
    ofFields kind label content = .object (fieldsOf kind label content) := by
  obtain ⟨span, type⟩ := label
  cases span <;> cases type <;> rfl

@[simp] theorem ofForms_eq_map (es : List (Form Label)) : ofForms es = es.map ofForm := by
  induction es with
  | nil => rfl
  | cons e es ih => rw [ofForms, ih, List.map_cons]

/-- The names that a record uses for itself. -/
def ownNames : List String := ["node", "span", "type", "id"]

/-- Leaving out ids leaves out an id at the end, whatever its value. So a record with its id has the
id that the record without it had. -/
theorem contentId_append_id (fields : List (String × Json)) (j : Json) :
    contentId (.object (fields ++ [("id", j)])) = contentId (.object fields) := by
  have hfields : Json.withoutFields "id" (fields ++ [("id", j)]) =
      Json.withoutFields "id" fields := by
    induction fields with
    | nil => rfl
    | cons f fields ih => rw [List.cons_append, Json.withoutFields, Json.withoutFields, ih]
  rw [contentId, contentId, canonicalText, canonicalText, Json.without, Json.without, hfields]

section Fields

variable (kind : String) (label : Label) {content : List (String × Json)}

/-- Under a name that is none of a record's own, a record holds what its content does. -/
theorem get?_fieldsOf {name : String} (h : name ∉ ownNames) :
    Entries.get? name (fieldsOf kind label content) = Entries.get? name content := by
  have hne : ∀ own ∈ ownNames, (own == name) = false := by
    intro own hown
    simpa using fun heq : own = name => h (heq ▸ hown)
  simp only [ownNames, List.forall_mem_cons] at hne
  obtain ⟨span, type⟩ := label
  cases span <;> cases type <;>
    simp [fieldsOf, contentFields, Entries.get?_append, Entries.get?_cons, hne]

variable (fresh : ∀ f ∈ content, f.1 ∉ ownNames)

include fresh

/-- The content of a record uses none of the record's own names. -/
theorem get?_own (own : String) (h : own ∈ ownNames) : Entries.get? own content = none := by
  rw [Entries.get?, Entries.find?, Option.map_eq_none_iff, List.find?_eq_none]
  intro f hf heq
  exact fresh f hf (eq_of_beq heq ▸ h)

/-- The id that a record is written with passes the check. It was computed from the other fields,
and the check leaves the fields of that name out before it computes the id again. -/
theorem checkId_fieldsOf : checkId (fieldsOf kind label content) = .ok () := by
  have hid : Entries.get? "id" (fieldsOf kind label content) =
      some (.string (contentId (.object (contentFields kind label content)))) := by
    have hcontent := get?_own fresh "id" (by decide)
    obtain ⟨span, type⟩ := label
    cases span <;> cases type <;>
      simp [fieldsOf, contentFields, Entries.get?_append, Entries.get?_cons, hcontent]
  rw [checkId, hid]
  -- The id is found among the fields but left out of the text that is digested.
  simp only [fieldsOf, contentId_append_id, if_true]

/-- The place that a record is written with is read back. The type is written too, but it is not
read. -/
theorem labelOf_fieldsOf : labelOf (fieldsOf kind label content) = .ok { span := label.span } := by
  have hcontent := get?_own fresh "span" (by decide)
  obtain ⟨span, type⟩ := label
  cases span <;> cases type <;>
    simp [labelOf, fieldsOf, contentFields, Entries.get?_append, Entries.get?_cons, hcontent,
      itemsOf?]

end Fields

/-! ## Restoring -/

/-- The elements are restored from the field with their name, and none are without it. -/
theorem restoreElements_eq (fields : List (String × Json)) : restoreElements fields =
    match Entries.get? "elements" fields with
    | some j => restoreItems j
    | none => .ok [] := by
  induction fields with
  | nil => rfl
  | cons f fields ih =>
    rw [restoreElements, Entries.get?_cons, ih]
    by_cases h : f.1 = "elements" <;> simp [h]

theorem restoreAll_map {es : List (Form Label)} {g : Form Label → Form Label}
    (each : ∀ e ∈ es, restore (ofForm e) = .ok (g e)) :
    restoreAll (es.map ofForm) = .ok (es.map g) := by
  induction es with
  | nil => rfl
  | cons e es ih =>
    obtain ⟨he, hes⟩ := List.forall_mem_cons.mp each
    rw [List.map_cons, restoreAll, he, ih hes]
    rfl

/-- What restoring finds in a record with one field of its own content. -/
theorem lookups (kind : String) (l : Label) (name : String) (j : Json) (h : name ∉ ownNames) :
    checkId (fieldsOf kind l [(name, j)]) = .ok () ∧
      labelOf (fieldsOf kind l [(name, j)]) = .ok { span := l.span } ∧
      Entries.get? name (fieldsOf kind l [(name, j)]) = some j := by
  have fresh : ∀ f ∈ [(name, j)], f.1 ∉ ownNames := by simpa using h
  refine ⟨checkId_fieldsOf kind l fresh, labelOf_fieldsOf kind l fresh, ?_⟩
  rw [get?_fieldsOf kind l h, Entries.get?_cons]
  simp

/-- The elements of a written record are restored to forms one by one. -/
theorem restoreElements_fieldsOf (kind : String) (l : Label) {es : List (Form Label)}
    {g : Form Label → Form Label} (each : ∀ e ∈ es, restore (ofForm e) = .ok (g e)) :
    restoreElements (fieldsOf kind l [("elements", .array (ofForms es))]) = .ok (es.map g) := by
  obtain ⟨-, -, helements⟩ := lookups kind l "elements" (.array (ofForms es)) (by decide)
  rw [restoreElements_eq, helements, ofForms_eq_map]
  exact restoreAll_map each

theorem requiredText_of_get? {name s : String} {fields : List (String × Json)}
    (h : Entries.get? name fields = some (.string s)) : requiredText name fields = .ok s := by
  rw [requiredText, required, h]
  rfl

/-- A form is restored from its record without its types. A form with a bare form in it has no
record, which is why it has to be complete. -/
theorem restore_ofForm {e : Form Label} (complete : e.isComplete = true) :
    restore (ofForm e) = .ok (e.map fun l => { span := l.span }) := by
  induction e using Form.elementsInd with
  | symbol l s =>
    obtain ⟨hid, hlabel, hname⟩ := lookups "Symbol" l "name" (.string s) (by decide)
    rw [ofForm, ofFields_eq, restore, hid, hlabel, requiredText_of_get? hname]
    rfl
  | string l s =>
    obtain ⟨hid, hlabel, hvalue⟩ := lookups "StringLiteral" l "value" (.string s) (by decide)
    rw [ofForm, ofFields_eq, restore, hid, hlabel, requiredText_of_get? hvalue]
    rfl
  | number l x =>
    obtain ⟨hid, hlabel, hvalue⟩ := lookups "NumberLiteral" l "value" (.number x) (by decide)
    rw [ofForm, ofFields_eq, restore, hid, hlabel, required, hvalue]
    rfl
  | list l es ih =>
    rw [Form.isComplete, Form.areComplete_eq_all, List.all_eq_true] at complete
    obtain ⟨hid, hlabel, -⟩ := lookups "List" l "elements" (.array (ofForms es)) (by decide)
    have helements := restoreElements_fieldsOf "List" l fun e he => ih e he (complete e he)
    rw [ofForm, ofFields_eq, restore, hid, hlabel, helements, Form.map, Form.mapAll_eq_map]
    rfl
  | vector l es ih =>
    rw [Form.isComplete, Form.areComplete_eq_all, List.all_eq_true] at complete
    obtain ⟨hid, hlabel, -⟩ := lookups "Vector" l "elements" (.array (ofForms es)) (by decide)
    have helements := restoreElements_fieldsOf "Vector" l fun e he => ih e he (complete e he)
    rw [ofForm, ofFields_eq, restore, hid, hlabel, helements, Form.map, Form.mapAll_eq_map]
    rfl
  | bare l => cases complete

/-! ## Reading what was written -/

/-- The fields of a record have different names, at every depth. Without this the text might be read
as another value. -/
theorem namesDistinct_fieldsOf (kind : String) (n : Note) {name : String} {j : Json}
    (h : name ∉ ownNames) (hj : j.NamesDistinct) :
    (Json.object (fieldsOf kind n.label [(name, j)])).NamesDistinct := by
  obtain ⟨span, type⟩ := n
  refine .object ?_ ?_
  · have hne : ∀ own ∈ ownNames, own ≠ name := fun own hown heq => h (heq ▸ hown)
    have hne' : ∀ own ∈ ownNames, name ≠ own := fun own hown heq => h (heq ▸ hown)
    simp only [ownNames, List.forall_mem_cons] at hne hne'
    cases span <;> cases type <;> simp [fieldsOf, contentFields, Note.label, hne, hne']
  · have hint : ∀ i, (Json.int i).NamesDistinct := fun i => .number (.int i)
    have hpair : ∀ i k, (Json.array [.int i, .int k]).NamesDistinct := fun i k =>
      .array (by simp [hint])
    cases span <;> cases type <;>
      simp [fieldsOf, contentFields, Note.label, hj, hpair, Json.NamesDistinct.string]

/-- In the record of a form no object has a name twice, at any depth. So its text reads back as the
very record, in which each name is looked up. -/
theorem namesDistinct_ofForm {e : Form Note} (complete : e.isComplete = true) :
    (ofForm (e.map Note.label)).NamesDistinct := by
  have compound {es : List (Form Note)} (h : ∀ e ∈ es, (ofForm (e.map Note.label)).NamesDistinct) :
      (Json.array (ofForms (Form.mapAll Note.label es))).NamesDistinct := by
    rw [Form.mapAll_eq_map, ofForms_eq_map, List.map_map]
    exact .array (List.forall_mem_map.mpr h)
  induction e using Form.elementsInd with
  | symbol n s =>
    rw [Form.map, ofForm, ofFields_eq]
    exact namesDistinct_fieldsOf "Symbol" n (by decide) (.string s)
  | string n s =>
    rw [Form.map, ofForm, ofFields_eq]
    exact namesDistinct_fieldsOf "StringLiteral" n (by decide) (.string s)
  | number n x =>
    rw [Form.map, ofForm, ofFields_eq]
    exact namesDistinct_fieldsOf "NumberLiteral" n (by decide) (.number x)
  | list n es ih =>
    rw [Form.isComplete, Form.areComplete_eq_all, List.all_eq_true] at complete
    rw [Form.map, ofForm, ofFields_eq]
    exact namesDistinct_fieldsOf "List" n (by decide) (compound fun e he => ih e he (complete e he))
  | vector n es ih =>
    rw [Form.isComplete, Form.areComplete_eq_all, List.all_eq_true] at complete
    rw [Form.map, ofForm, ofFields_eq]
    exact namesDistinct_fieldsOf "Vector" n (by decide)
      (compound fun e he => ih e he (complete e he))
  | bare n => cases complete

/-- **A form that is written and read again is the same up to types.** Every id in the text
passes its check, and the form has the kinds, places and contents it had, and no types. If
it had none before, it is written as the same text again. -/
theorem read_write (asciiOnly : Bool) (form : Form Note) (complete : form.isComplete = true) :
    ∃ restored : Form Label, read (write asciiOnly form) = .ok restored ∧
      restored = form.map (fun n => { span := n.label.span }) ∧
      ((∀ e ∈ form.walk, e.note.type = none) →
        (ofForm restored).indented asciiOnly 0 = write asciiOnly form) := by
  refine ⟨_, ?_, rfl, fun untyped => ?_⟩
  · have hrestore : restore (ofForm (form.map Note.label)) =
        .ok (form.map fun n => { span := n.label.span }) := by
      rw [restore_ofForm (by rw [Form.isComplete_map, complete]), Form.map_map]
    rw [read, write, Json.parse?_indented asciiOnly (namesDistinct_ofForm complete)]
    exact hrestore
  · have hlabels : form.map (fun n => ({ span := n.label.span } : Label)) =
        form.map Note.label := by
      refine Form.map_congr_walk fun e he => ?_
      simp [Note.label, untyped e he]
    rw [hlabels, write]

/-- A string with a quote, a line break and a character of two units, beside the numbers
that have no digits, a zero with a sign, and places before the start. -/
theorem read_write_strange :
    let form : Form Note := .list { span := some ⟨-1, 4⟩ } [.symbol {} "",
      .string {} "\"\n\\😀", .vector { span := some ⟨0, 0⟩ } [.number {} (.float .nan),
        .number {} (.float (.infinite true)), .number {} (.float (.zero true)),
        .number {} (.int (-7))]]
    form.isComplete = true ∧ (∀ e ∈ form.walk, e.note.type = none) ∧
      read (write true form) = .ok (form.map fun n => { span := n.label.span }) ∧
      (ofForm (form.map fun n => { span := n.label.span })).indented true 0 = write true form := by
  intro form
  have untyped : ∀ e ∈ form.walk, e.note.type = none := by
    simp [form, Form.walk, Form.note]
  obtain ⟨restored, hread, rfl, hwrite⟩ := read_write true form rfl
  exact ⟨rfl, untyped, hread, hwrite untyped⟩

end Record

end TypedSexp
