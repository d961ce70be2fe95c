import TypedSexp.Proofs.Form.Restored
import TypedSexp.Proofs.Json.Canonical
import TypedSexp.Proofs.Result

/-!
# Tampered records

The id at the root of a record vouches for all of it (`Record.read_tamper_evident`). Two texts that
keep the same root id are read as the same form, unless their canonical texts are different
and have the same digest. So a text that was changed to keep another form, and still has the
id of the first, is refused.

What a record keeps, whether or not its ids are right, is the relation `Record.Keeps`.
Restoring is this relation with the check of an id at every node
(`Record.restore_eq_ok_iff`). If the nodes of a record are plain, then its canonical value
keeps the same form (`Record.Keeps.canonical`): nothing that restoring looks at is left out,
and no look-up depends on the order of fields. Equal canonical texts come from equal
canonical values, and a value keeps at most one form (`Record.Keeps.unique`).

That the two canonical texts do not collide is a premise about these texts, as no digest keeps all
texts apart. Changes that no look-up shows are not noticed: other blanks, another order of fields,
another escape for a character. And records with nodes that are not plain are left out, where
sorting and leaving out fields could change what is restored.
-/

namespace TypedSexp

namespace Record

/-! ## What a record keeps -/

/-- The value that holds the elements of a record. -/
def elementsOf (fields : List (String × Json)) : Json :=
  (Entries.get? "elements" fields).getD (.array [])

mutual

/-- A value keeps a form, and the fields of every node on the way pass a test. -/
inductive Keeps (passes : List (String × Json) → Prop) : Json → Form Label → Prop
  | node {fields : List (String × Json)} {kind : Kind} {label : Label} {e : Form Label}
      (pass : passes fields) (named : kindOf fields = .ok kind)
      (placed : labelOf fields = .ok label) (content : Content passes fields label kind e) :
      Keeps passes (.object fields) e

/-- Fields hold the content of a form of a kind. -/
inductive Content (passes : List (String × Json) → Prop) :
    List (String × Json) → Label → Kind → Form Label → Prop
  | symbol {fields : List (String × Json)} {label : Label} {name : String}
      (text : requiredText "name" fields = .ok name) :
      Content passes fields label .symbol (.symbol label name)
  | string {fields : List (String × Json)} {label : Label} {value : String}
      (text : requiredText "value" fields = .ok value) :
      Content passes fields label .string (.string label value)
  | number {fields : List (String × Json)} {label : Label} {x : Number}
      (value : required "value" fields = .ok (.number x)) :
      Content passes fields label .number (.number label x)
  | list {fields : List (String × Json)} {label : Label} {items : List Json}
      {es : List (Form Label)} (elements : itemsOf? (elementsOf fields) = some items)
      (each : KeepsAll passes items es) : Content passes fields label .list (.list label es)
  | vector {fields : List (String × Json)} {label : Label} {items : List Json}
      {es : List (Form Label)} (elements : itemsOf? (elementsOf fields) = some items)
      (each : KeepsAll passes items es) : Content passes fields label .vector (.vector label es)

/-- Values keep forms, one each. -/
inductive KeepsAll (passes : List (String × Json) → Prop) : List Json → List (Form Label) → Prop
  | nil : KeepsAll passes [] []
  | cons {j : Json} {js : List Json} {e : Form Label} {es : List (Form Label)}
      (first : Keeps passes j e) (rest : KeepsAll passes js es) :
      KeepsAll passes (j :: js) (e :: es)

end

variable {passes passes' : List (String × Json) → Prop}

mutual

/-- A value keeps at most one form, whatever check the ids have passed. The two derivations may have
passed different checks. -/
theorem Keeps.unique : ∀ {j : Json} {e e' : Form Label}, Keeps passes j e →
    Keeps passes' j e' → e = e'
  | _, _, _, .node _ named placed content, .node _ named' placed' content' => by
    rw [named] at named'
    rw [placed] at placed'
    cases named'
    cases placed'
    exact content.unique content'

/-- The content of a node determines the form, given its label and its kind, whatever is asked of
the ids of either side. Induction over the content, together with that of the elements. -/
theorem Content.unique : ∀ {fields : List (String × Json)} {label : Label} {kind : Kind}
    {e e' : Form Label}, Content passes fields label kind e →
      Content passes' fields label kind e' → e = e'
  | _, _, _, _, _, .symbol text, .symbol text' => by
    rw [text] at text'
    cases text'
    rfl
  | _, _, _, _, _, .string text, .string text' => by
    rw [text] at text'
    cases text'
    rfl
  | _, _, _, _, _, .number value, .number value' => by
    rw [value] at value'
    cases value'
    rfl
  | _, _, _, _, _, .list elements each, .list elements' each' => by
    rw [elements] at elements'
    cases elements'
    rw [each.unique each']
  | _, _, _, _, _, .vector elements each, .vector elements' each' => by
    rw [elements] at elements'
    cases elements'
    rw [each.unique each']

theorem KeepsAll.unique : ∀ {js : List Json} {es es' : List (Form Label)},
    KeepsAll passes js es → KeepsAll passes' js es' → es = es'
  | _, _, _, .nil, .nil => rfl
  | _, _, _, .cons first rest, .cons first' rest' => by
    rw [first.unique first', rest.unique rest']

end

/-! ## Restoring -/

/-- The id of a node is that of its content. -/
abbrev Vouched (fields : List (String × Json)) : Prop := checkId fields = .ok ()

/-- Restoring a value finds what it keeps. -/
def RestoresKept (j : Json) : Prop := ∀ e, restore j = .ok e ↔ Keeps Vouched j e

/-- What is no object keeps no form and is not restored. This is the base of the induction over a
value, in which only objects are nodes. -/
theorem restoresKept_of_ne {j : Json} (h : ∀ fields, j ≠ .object fields) : RestoresKept j := by
  intro e
  constructor
  · intro hrestore
    cases j with
    | object fields => exact absurd rfl (h fields)
    | _ =>
      rw [restore] at hrestore
      · cases hrestore
      · exact h
  · intro keeps
    cases keeps with
    | @node fields => exact absurd rfl (h fields)

/-- Items are restored to forms exactly if they keep them and every id in them vouches for its node,
provided this holds of each item alone. -/
theorem restoreAll_eq_ok_iff {items : List Json} (each : ∀ j ∈ items, RestoresKept j)
    {es : List (Form Label)} : restoreAll items = .ok es ↔ KeepsAll Vouched items es := by
  induction items generalizing es with
  | nil =>
    constructor
    · intro h
      cases h
      exact .nil
    · intro h
      cases h
      rfl
  | cons j js ih =>
    obtain ⟨hj, hjs⟩ := List.forall_mem_cons.mp each
    constructor
    · intro h
      rw [restoreAll] at h
      obtain ⟨e, hfirst, h⟩ := exists_of_bind_eq_ok h
      obtain ⟨more, hrest, h⟩ := exists_of_bind_eq_ok h
      cases h
      exact .cons ((hj e).mp hfirst) ((ih hjs).mp hrest)
    · intro h
      cases h with
      | cons first rest =>
        rw [restoreAll, (hj _).mpr first, (ih hjs).mpr rest]
        rfl

/-- The forms of the elements are those of the items, one by one. Something that has no items is
refused before. -/
theorem restoreElements_eq_ok_iff {fields : List (String × Json)} {es : List (Form Label)} :
    restoreElements fields = .ok es ↔
      ∃ items, itemsOf? (elementsOf fields) = some items ∧ restoreAll items = .ok es := by
  have hitems : restoreElements fields = restoreItems (elementsOf fields) := by
    rw [restoreElements_eq, elementsOf]
    cases Entries.get? "elements" fields <;> rfl
  rw [hitems]
  generalize elementsOf fields = v
  cases v with
  | array items => simp [restoreItems, itemsOf?]
  | string s =>
    cases hs : s.toList with
    | nil =>
      obtain rfl : s = "" := String.toList_eq_nil_iff.mp hs
      simp [restoreItems, itemsOf?, restoreAll]
    | cons c cs =>
      have hne : s ≠ "" := by
        rintro rfl
        cases hs
      have hfirst : ∀ js, restoreAll (.string (String.singleton c) :: js) = .error .notObject :=
        fun _ => rfl
      simp [restoreItems, itemsOf?, hne, hs, hfirst]
  | object fs =>
    cases fs with
    | nil => simp [restoreItems, itemsOf?, restoreAll]
    | cons f fs =>
      have hfirst : ∀ js, restoreAll (.string f.1 :: js) = .error .notObject := fun _ => rfl
      simp [restoreItems, itemsOf?, hfirst]
  | _ => simp [restoreItems, itemsOf?]

/-- An object is restored to the form that it keeps, provided this holds of the items among its
elements. All checks are made before: the id, the kind, the label and the content. -/
theorem restoresKept_object {fields : List (String × Json)}
    (each : ∀ items, itemsOf? (elementsOf fields) = some items → ∀ j ∈ items, RestoresKept j) :
    RestoresKept (.object fields) := by
  intro e
  constructor
  · intro h
    rw [restore] at h
    obtain ⟨_, hid, h⟩ := exists_of_bind_eq_ok h
    obtain ⟨kind, hkind, h⟩ := exists_of_bind_eq_ok h
    obtain ⟨label, hlabel, h⟩ := exists_of_bind_eq_ok h
    refine .node hid hkind hlabel ?_
    cases kind with
    | symbol =>
      obtain ⟨name, htext, h⟩ := exists_of_bind_eq_ok h
      cases h
      exact .symbol htext
    | string =>
      obtain ⟨value, htext, h⟩ := exists_of_bind_eq_ok h
      cases h
      exact .string htext
    | number =>
      obtain ⟨j, hvalue, h⟩ := exists_of_bind_eq_ok h
      cases j with
      | number x =>
        cases h
        exact .number hvalue
      | _ => cases h
    | list =>
      obtain ⟨es, helements, h⟩ := exists_of_bind_eq_ok h
      cases h
      obtain ⟨items, hitems, hall⟩ := restoreElements_eq_ok_iff.mp helements
      exact .list hitems ((restoreAll_eq_ok_iff (each items hitems)).mp hall)
    | vector =>
      obtain ⟨es, helements, h⟩ := exists_of_bind_eq_ok h
      cases h
      obtain ⟨items, hitems, hall⟩ := restoreElements_eq_ok_iff.mp helements
      exact .vector hitems ((restoreAll_eq_ok_iff (each items hitems)).mp hall)
  · rintro (⟨hid, hkind, hlabel, content⟩)
    rw [restore, hid, hkind, hlabel]
    cases content with
    | symbol htext =>
      rw [htext]
      rfl
    | string htext =>
      rw [htext]
      rfl
    | number hvalue =>
      rw [hvalue]
      rfl
    | list hitems hall =>
      have hall' := (restoreAll_eq_ok_iff (each _ hitems)).mpr hall
      rw [restoreElements_eq_ok_iff.mpr ⟨_, hitems, hall'⟩]
      rfl
    | vector hitems hall =>
      have hall' := (restoreAll_eq_ok_iff (each _ hitems)).mpr hall
      rw [restoreElements_eq_ok_iff.mpr ⟨_, hitems, hall'⟩]
      rfl

/-- The value that holds the elements is the empty array or one of the fields. So it is smaller than
the node, which the induction over values needs. -/
theorem elementsOf_cases (fields : List (String × Json)) :
    elementsOf fields = .array [] ∨ ∃ f ∈ fields, elementsOf fields = f.2 := by
  rw [elementsOf]
  cases h : Entries.get? "elements" fields with
  | none => exact .inl rfl
  | some j =>
    obtain ⟨f, hf, rfl⟩ := Option.map_eq_some_iff.mp h
    exact .inr ⟨f, List.mem_of_find?_eq_some hf, rfl⟩

/-- Restoring finds the form that a value keeps, if each id on the way is right, and nothing else.
The two sides are defined apart; the right one does not say in which order things are checked. -/
theorem restore_eq_ok_iff {j : Json} {e : Form Label} :
    restore j = .ok e ↔ Keeps Vouched j e := by
  -- Along with a value, the induction speaks of its items, where the elements are found.
  suffices h : RestoresKept j ∧ ∀ items, itemsOf? j = some items → ∀ i ∈ items, RestoresKept i from
    h.1 e
  have hstrings : ∀ s : String, RestoresKept (.string s) := fun s => restoresKept_of_ne nofun
  induction j using Json.ind with
  | null => exact ⟨restoresKept_of_ne nofun, nofun⟩
  | bool b => exact ⟨restoresKept_of_ne nofun, nofun⟩
  | number x => exact ⟨restoresKept_of_ne nofun, nofun⟩
  | string s =>
    refine ⟨hstrings s, ?_⟩
    rintro items ⟨⟩
    exact List.forall_mem_map.mpr fun c _ => hstrings _
  | array items ih =>
    refine ⟨restoresKept_of_ne nofun, ?_⟩
    rintro items' ⟨⟩
    exact fun i hi => (ih i hi).1
  | object fields ih =>
    refine ⟨restoresKept_object ?_, ?_⟩
    · rcases elementsOf_cases fields with h | ⟨f, hf, h⟩
      · rw [h]
        rintro items ⟨⟩
        simp
      · rw [h]
        exact (ih f hf).2
    · rintro items ⟨⟩
      exact List.forall_mem_map.mpr fun f _ => hstrings _

/-! ## Plain records -/

/-- The field with the content of a form that has no elements. -/
def Kind.contentName? : Kind → Option String
  | .symbol => some "name"
  | .string | .number => some "value"
  | .list | .vector => none

/-- A value without parts. -/
def isScalar : Json → Bool
  | .array _ | .object _ => false
  | _ => true

/-- The content of a node is a scalar, and its place is not given, null, or two integers. -/
structure PlainNode (fields : List (String × Json)) : Prop where
  content : ∀ kind name, kindOf fields = .ok kind → kind.contentName? = some name →
    ∀ j, Entries.get? name fields = some j → isScalar j = true
  place : ∀ j, Entries.get? "span" fields = some j →
    j = .null ∨ ∃ a b, j = .array [.int a, .int b]

/-- The value is a node, and it and all nodes inside it are plain. -/
inductive Plain : Json → Prop
  | node {fields : List (String × Json)} (own : PlainNode fields)
      (inner : ∀ kind, kindOf fields = .ok kind → kind.contentName? = none →
        ∀ items, itemsOf? (elementsOf fields) = some items → ∀ j ∈ items, Plain j) :
      Plain (.object fields)

/-! ## The canonical value of a record -/

section Lookups

variable {fields : List (String × Json)}

theorem canonical_scalar {j : Json} (h : isScalar j = true) : j.canonical "id" = j := by
  cases j with
  | array items => cases h
  | object fs => cases h
  | _ => rfl

theorem kindOf_canonical {kind : Kind} (h : kindOf fields = .ok kind) :
    kindOf (Json.canonicalFields "id" fields) = .ok kind := by
  rw [kindOf, Json.get?_canonicalFields (by decide)]
  rw [kindOf] at h
  cases hnode : Entries.get? "node" fields with
  | none =>
    rw [hnode] at h
    cases h
  | some j =>
    rw [hnode] at h
    cases j with
    | string s => exact h
    | _ => cases h

/-- The canonical value of a plain node has the same label. The place of such a node is two integers
or nothing, in which there is nothing to sort or to drop. -/
theorem labelOf_canonical (plain : PlainNode fields) :
    labelOf (Json.canonicalFields "id" fields) = labelOf fields := by
  have hspan : (Entries.get? "span" fields).map (Json.canonical "id") =
      Entries.get? "span" fields := by
    cases h : Entries.get? "span" fields with
    | none => rfl
    | some j => rcases plain.place j h with rfl | ⟨a, b, rfl⟩ <;> rfl
  rw [labelOf, labelOf, Json.get?_canonicalFields (by decide), hspan]

/-- The content of a plain node is in its canonical value as it stands. Of a node that is not plain
an id inside the content would be lost. -/
theorem required_canonical (plain : PlainNode fields) {kind : Kind} {name : String}
    (named : kindOf fields = .ok kind) (hname : kind.contentName? = some name) :
    required name (Json.canonicalFields "id" fields) = required name fields := by
  have hne : name ≠ "id" := by
    rintro rfl
    cases kind <;> simp [Kind.contentName?] at hname
  rw [required, required, Json.get?_canonicalFields hne]
  cases h : Entries.get? name fields with
  | none => rfl
  | some j => rw [Option.map_some, canonical_scalar (plain.content kind name named hname j h)]

/-- The elements in the canonical value are the canonical value of the elements. -/
theorem elementsOf_canonical :
    elementsOf (Json.canonicalFields "id" fields) = (elementsOf fields).canonical "id" := by
  rw [elementsOf, elementsOf, Json.get?_canonicalFields (by decide)]
  cases Entries.get? "elements" fields <;> rfl

/-- Only an array holds items that keep forms, so these are the items of the canonical value. A
string or an object has items too, but none of them keeps a form. -/
theorem itemsOf?_canonical {v : Json} {items : List Json} {es : List (Form Label)}
    (h : itemsOf? v = some items) (each : KeepsAll passes items es) :
    itemsOf? (v.canonical "id") = some (items.map (Json.canonical "id")) := by
  cases v with
  | array js =>
    cases h
    rw [Json.canonical_array]
    rfl
  | string s =>
    cases h
    cases hs : s.toList with
    | nil => simp [Json.canonical, Json.without, Json.sorted, itemsOf?, hs]
    | cons c cs =>
      rw [hs] at each
      cases each with
      | cons first rest => cases first
  | object fs =>
    cases h
    cases fs with
    | nil => rfl
    | cons f fs =>
      cases each with
      | cons first rest => cases first
  | _ => cases h

end Lookups

mutual

/-- The canonical value of a plain record keeps the same form. It has no ids, so no check of them is
asked for there. -/
theorem Keeps.canonical : ∀ {j : Json} {e : Form Label}, Keeps passes j e → Plain j →
    Keeps (fun _ => True) (j.canonical "id") e
  | _, _, .node _ named placed content, .node own inner => by
    rw [Json.canonical_object]
    refine .node trivial (kindOf_canonical named) ?_ (content.canonical named own inner)
    rw [labelOf_canonical own, placed]

theorem Content.canonical : ∀ {fields : List (String × Json)} {label : Label} {kind : Kind}
    {e : Form Label}, Content passes fields label kind e → kindOf fields = .ok kind →
      PlainNode fields →
      (∀ kind, kindOf fields = .ok kind → kind.contentName? = none →
        ∀ items, itemsOf? (elementsOf fields) = some items → ∀ j ∈ items, Plain j) →
      Content (fun _ => True) (Json.canonicalFields "id" fields) label kind e
  | _, _, _, _, .symbol text, named, own, _ => by
    refine .symbol ?_
    rw [requiredText, required_canonical own named rfl]
    exact text
  | _, _, _, _, .string text, named, own, _ => by
    refine .string ?_
    rw [requiredText, required_canonical own named rfl]
    exact text
  | _, _, _, _, .number value, named, own, _ => by
    refine .number ?_
    rw [required_canonical own named rfl]
    exact value
  | _, _, _, _, .list elements each, named, _, inner => by
    refine .list ?_ (each.canonical (inner _ named rfl _ elements))
    rw [elementsOf_canonical]
    exact itemsOf?_canonical elements each
  | _, _, _, _, .vector elements each, named, _, inner => by
    refine .vector ?_ (each.canonical (inner _ named rfl _ elements))
    rw [elementsOf_canonical]
    exact itemsOf?_canonical elements each

theorem KeepsAll.canonical : ∀ {js : List Json} {es : List (Form Label)}, KeepsAll passes js es →
    (∀ j ∈ js, Plain j) → KeepsAll (fun _ => True) (js.map (Json.canonical "id")) es
  | _, _, .nil, _ => .nil
  | _, _, .cons first rest, plain =>
    .cons (first.canonical (plain _ List.mem_cons_self))
      (rest.canonical fun j hj => plain j (List.mem_cons_of_mem _ hj))

end

/-- Plain records with the same canonical text keep the same form. The text determines the canonical
value, and that keeps one form only. -/
theorem Keeps.eq_of_canonicalText {j j' : Json} {e e' : Form Label} (names : j.NamesDistinct)
    (names' : j'.NamesDistinct) (plain : Plain j) (plain' : Plain j')
    (same : canonicalText j = canonicalText j') (h : Keeps passes j e)
    (h' : Keeps passes' j' e') : e = e' := by
  have hvalue : j.canonical "id" = j'.canonical "id" :=
    Json.canonical_eq_of_compact names names' same
  have hkeeps := h.canonical plain
  rw [hvalue] at hkeeps
  exact hkeeps.unique (h'.canonical plain')

/-! ## The id at the root -/

/-- A node whose id passes the check has the id of its content. -/
theorem id_of_checkId {fields : List (String × Json)} (h : checkId fields = .ok ()) :
    Entries.get? "id" fields = some (.string (contentId (.object fields))) := by
  rw [checkId] at h
  split at h
  next => cases h
  next => cases h
  next s hid =>
    split at h
    next hs => rw [hid, hs]
    next => cases h
  next => cases h

/-- An accepted record has the id of its content at the root. -/
theorem Keeps.id_eq {j : Json} {e : Form Label} (h : Keeps Vouched j e) :
    j.field? "id" = some (.string (contentId j)) := by
  cases h with
  | node vouched => exact id_of_checkId vouched

/-- A record with another id than that of its content is refused, whatever it keeps. The check of
the id comes before all others, so this is also the reason that is given. -/
theorem restore_of_id_ne {j : Json} {s : String} (hid : j.field? "id" = some (.string s))
    (hne : s ≠ contentId j) : restore j = .error .integrity := by
  cases j with
  | object fields =>
    have hcheck : checkId fields = .error .integrity := by
      rw [checkId, show Entries.get? "id" fields = _ from hid]
      exact if_neg hne
    rw [restore, hcheck]
    rfl
  | _ => cases hid

/-- **Records show tampering.** Let a text be accepted, and let the nodes of it and of another
text be plain. If both have the same id at the root, and their canonical texts are the same or
have different ids, then the other text is read as the same form or not at all. And if the
other text keeps another form, whatever its ids, then it is refused because of its id. -/
theorem read_tamper_evident {text text' : String} {j j' : Json} {e : Form Label}
    (hj : Json.parse? text = some j) (hj' : Json.parse? text' = some j')
    (plain : Plain j) (plain' : Plain j') (accepted : read text = .ok e)
    (sameId : j'.field? "id" = j.field? "id")
    (noCollision : contentId j' = contentId j → canonicalText j' = canonicalText j) :
    (∀ e', read text' = .ok e' → e' = e) ∧
      ∀ e', Keeps (fun _ => True) j' e' → e' ≠ e → read text' = .error .integrity := by
  have hread : ∀ {text : String} {j : Json}, Json.parse? text = some j → read text = restore j := by
    intro text j hj
    rw [read, hj]
  have names := Json.namesDistinct_of_parse? hj
  have names' := Json.namesDistinct_of_parse? hj'
  rw [hread hj] at accepted
  have kept := restore_eq_ok_iff.mp accepted
  have hid : j'.field? "id" = some (.string (contentId j)) := sameId.trans kept.id_eq
  rw [hread hj']
  constructor
  · intro e' accepted'
    have kept' := restore_eq_ok_iff.mp accepted'
    have hsame : contentId j' = contentId j := by
      rw [kept'.id_eq] at hid
      simpa using hid
    exact kept'.eq_of_canonicalText names' names plain' plain (noCollision hsame) kept
  · intro e' kept' hne
    refine restore_of_id_ne hid fun hsame => hne ?_
    exact kept'.eq_of_canonicalText names' names plain' plain (noCollision hsame.symm) kept

/-- An integer inside a vector is changed into the float of the same value, and all ids are
kept. -/
theorem read_tamper_evident_float :
    let text := "\x7b\"node\":\"Vector\",\"span\":[0,3],\"elements\":[\x7b\"node\":" ++
      "\"NumberLiteral\",\"value\":0,\"id\":\"58e2e719252eeb13\"\x7d]," ++
      "\"id\":\"063262c9dfcc41fd\"\x7d"
    let tampered := "\x7b\"node\":\"Vector\",\"span\":[0,3],\"elements\":[\x7b\"node\":" ++
      "\"NumberLiteral\",\"value\":0.0,\"id\":\"58e2e719252eeb13\"\x7d]," ++
      "\"id\":\"063262c9dfcc41fd\"\x7d"
    read text = .ok (.vector { span := some (.int 0, .int 3) } [.number {} (.int 0)]) ∧
      read tampered = .error .integrity := by
  intro text tampered
  let element (x : Number) : List (String × Json) :=
    [("node", .string "NumberLiteral"), ("value", .number x), ("id", .string "58e2e719252eeb13")]
  let fields (x : Number) : List (String × Json) :=
    [("node", .string "Vector"), ("span", .array [.int 0, .int 3]),
      ("elements", .array [.object (element x)]), ("id", .string "063262c9dfcc41fd")]
  have names (x : Number) : (Json.object (fields x)).NamesDistinct := by
    have inner : (Json.object (element x)).NamesDistinct :=
      .object (by simp [element]) (by simp [element, Json.NamesDistinct.string,
        Json.NamesDistinct.number])
    have place : (Json.array [.int 0, .int 3]).NamesDistinct :=
      .array (by simp [Json.int, Json.NamesDistinct.number])
    exact .object (by simp [fields]) (by simp [fields, Json.NamesDistinct.string, place,
      Json.NamesDistinct.array (List.forall_mem_singleton.mpr inner)])
  have hj : Json.parse? text = some (.object (fields (.int 0))) := by
    have htext : text = (Json.object (fields (.int 0))).compact := by decide +kernel
    rw [htext, Json.parse?_compact (names _)]
  have hj' : Json.parse? tampered = some (.object (fields (.float (.zero false)))) := by
    have htext : tampered = (Json.object (fields (.float (.zero false)))).compact := by
      decide +kernel
    rw [htext, Json.parse?_compact (names _)]
  have plain (x : Number) : Plain (.object (fields x)) := by
    refine .node ⟨?_, ?_⟩ ?_
    · rintro kind name ⟨⟩ ⟨⟩
    · rintro j ⟨⟩
      exact .inr ⟨0, 3, rfl⟩
    · rintro kind ⟨⟩ - items ⟨⟩
      refine List.forall_mem_singleton.mpr (.node ⟨?_, nofun⟩ ?_)
      · rintro kind name ⟨⟩ ⟨⟩ j ⟨⟩
        rfl
      · rintro kind ⟨⟩ ⟨⟩
  have kept {passes : List (String × Json) → Prop} {x : Number} (root : passes (fields x))
      (inner : passes (element x)) : Keeps passes (.object (fields x))
        (.vector { span := some (.int 0, .int 3) } [.number {} x]) :=
    .node root rfl rfl (.vector rfl (.cons (.node inner rfl rfl (.number rfl)) .nil))
  have hid : contentId (.object (fields (.int 0))) = "063262c9dfcc41fd" := by decide +kernel
  have hne : contentId (.object (fields (.float (.zero false)))) ≠ "063262c9dfcc41fd" := by
    decide +kernel
  have accepted : read text =
      .ok (.vector { span := some (.int 0, .int 3) } [.number {} (.int 0)]) := by
    rw [read, hj]
    refine restore_eq_ok_iff.mpr (kept (if_pos hid.symm) (if_pos ?_))
    decide +kernel
  obtain ⟨-, hrefused⟩ := read_tamper_evident hj hj' (plain _) (plain _) accepted rfl
    fun hsame => absurd (hsame.trans hid) hne
  exact ⟨accepted, hrefused _ (kept trivial trivial) nofun⟩

end Record

end TypedSexp
