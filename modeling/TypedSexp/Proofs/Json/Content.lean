import Mathlib.Data.List.Forall2
import Mathlib.Data.List.Nodup
import Mathlib.Data.String.Basic
import TypedSexp.Form.Record
import TypedSexp.Proofs.Json.Canonical

/-!
# What a canonical text tells

Two values are alike (`Json.Alike`) if they are the same but for the order of fields and for the
fields of one name, which are ignored at every depth. This is said by look-ups only, without
sorting anything and without leaving anything out.

Values are alike exactly if they have the same canonical value (`Json.canonical_eq_iff_alike`), and
the compact text of a canonical value is that of no other one. So the text from which an id is
computed tells the content up to just that, and nothing less (`Record.canonicalText_eq_iff`).

One half of this goes through the fields of an object: sorting leaves them in strict order
(`Json.ordered_sortedFields`), and fields in strict order are determined by what each name looks
up (`Json.Ordered.eq_of_get?`).

The id of a record is a digest of this text. That different texts have different digests is not
said, and nothing could be proved about it.
-/

namespace TypedSexp

namespace Json

/-! ## Values alike -/

/-- The same value but for the order of fields and for the fields of one name, at every depth:
scalars are the same, arrays are alike item by item, and objects hold values that are alike, or
none, under every other name. -/
inductive Alike (ignored : String) : Json → Json → Prop
  | null : Alike ignored .null .null
  | bool (b : Bool) : Alike ignored (.bool b) (.bool b)
  | number (x : Number) : Alike ignored (.number x) (.number x)
  | string (s : String) : Alike ignored (.string s) (.string s)
  | array {items items' : List Json} (each : List.Forall₂ (Alike ignored) items items') :
      Alike ignored (.array items) (.array items')
  | object {fields fields' : List (String × Json)}
      (each : ∀ name, name ≠ ignored →
        Option.Rel (Alike ignored) (Entries.get? name fields) (Entries.get? name fields')) :
      Alike ignored (.object fields) (.object fields')

/-! ## Fields in the order of their names -/

/-- Each name is greater than the one before. -/
def Ordered (fields : List (String × Json)) : Prop := fields.Pairwise fun f g => f.1 < g.1

theorem Ordered.names_nodup {fields : List (String × Json)} (h : Ordered fields) :
    (fields.map Prod.fst).Nodup := by
  refine List.pairwise_map.mpr (h.imp ?_)
  intro f g hlt heq
  rw [heq] at hlt
  exact String.lt_irrefl _ hlt

/-- Fields in the order of their names are determined by what each name looks up. They hold the same
entries then, and there is one order for them. -/
theorem Ordered.eq_of_get? {fields fields' : List (String × Json)} (h : Ordered fields)
    (h' : Ordered fields') (same : ∀ name, Entries.get? name fields = Entries.get? name fields') :
    fields = fields' := by
  have hperm : fields.Perm fields' := by
    rw [List.perm_ext_iff_of_nodup h.names_nodup.of_map h'.names_nodup.of_map]
    intro f
    constructor
    · intro hf
      exact Entries.mem_of_get? ((same f.1).symm.trans (Entries.get?_of_mem h.names_nodup hf))
    · intro hf
      exact Entries.mem_of_get? ((same f.1).trans (Entries.get?_of_mem h'.names_nodup hf))
  refine hperm.eq_of_pairwise ?_ h h'
  intro f g _ _ hlt hgt
  exact absurd (String.lt_trans hlt hgt) (String.lt_irrefl _)

/-- Inserting a field with a new name keeps fields in order. With a name that is there the order
would not be strict any more. -/
theorem Ordered.insertField {f : String × Json} {fields : List (String × Json)}
    (h : Ordered fields) (hf : f.1 ∉ fields.map Prod.fst) : Ordered (insertField f fields) := by
  induction fields with
  | nil => exact List.pairwise_singleton _ _
  | cons g gs ih =>
    rw [List.map_cons, List.mem_cons, not_or] at hf
    obtain ⟨hg, hgs⟩ := List.pairwise_cons.mp h
    rw [Json.insertField]
    split
    next hlt =>
      refine List.pairwise_cons.mpr ⟨fun e he => ?_, ih hgs hf.2⟩
      rcases List.mem_cons.mp ((perm_insertField f gs).mem_iff.mp he) with rfl | he
      · exact hlt
      · exact hg e he
    next hlt =>
      have hfg : f.1 < g.1 := lt_of_le_of_ne (String.not_lt.mp hlt) hf.1
      refine List.pairwise_cons.mpr ⟨fun e he => ?_, h⟩
      rcases List.mem_cons.mp he with rfl | he
      · exact hfg
      · exact String.lt_trans hfg (hg e he)

/-- Fields with different names are in strict order after sorting. With a name twice they would not
be. -/
theorem ordered_sortedFields {fields : List (String × Json)} (h : (fields.map Prod.fst).Nodup) :
    Ordered (sortedFields fields) := by
  induction fields with
  | nil => exact List.Pairwise.nil
  | cons f fields ih =>
    rw [List.map_cons, List.nodup_cons] at h
    have hnames := (perm_sortedFields fields).map Prod.fst
    rw [List.map_map] at hnames
    rw [sortedFields]
    refine (ih h.2).insertField fun hf => h.1 ?_
    exact hnames.mem_iff.mp hf

/-- The canonical fields of an object with different names are in strict order. -/
theorem ordered_canonicalFields (ignored : String) {fields : List (String × Json)}
    (h : (fields.map Prod.fst).Nodup) : Ordered (canonicalFields ignored fields) :=
  ordered_sortedFields (h.sublist (names_withoutFields ignored fields))

theorem get?_canonicalFields_self (ignored : String) (fields : List (String × Json)) :
    Entries.get? ignored (canonicalFields ignored fields) = none := by
  induction fields with
  | nil => rfl
  | cons f fields ih =>
    rw [canonicalFields, withoutFields]
    split
    next => exact ih
    next hf =>
      rw [sortedFields, get?_insertField, Entries.get?_cons, if_neg (by simpa using hf)]
      exact ih

/-- Two objects have the same canonical fields exactly if every name but the one left out looks up
the same canonical value. -/
theorem canonicalFields_eq_iff {ignored : String} {fields fields' : List (String × Json)}
    (h : (fields.map Prod.fst).Nodup) (h' : (fields'.map Prod.fst).Nodup) :
    canonicalFields ignored fields = canonicalFields ignored fields' ↔
      ∀ name, name ≠ ignored → (Entries.get? name fields).map (canonical ignored) =
        (Entries.get? name fields').map (canonical ignored) := by
  constructor
  · intro same name hname
    rw [← get?_canonicalFields hname, ← get?_canonicalFields hname, same]
  · intro same
    refine (ordered_canonicalFields ignored h).eq_of_get? (ordered_canonicalFields ignored h') ?_
    intro name
    by_cases hname : name = ignored
    · rw [hname, get?_canonicalFields_self, get?_canonicalFields_self]
    · rw [get?_canonicalFields hname, get?_canonicalFields hname, same name hname]

/-! ## Canonical values -/

section Pointwise

variable {α β : Type} {f : α → β} {R : α → α → Prop}

/-- Lists have the same images exactly if they are related member by member, if that is so of their
members. Here the members are the items of two arrays. -/
theorem map_eq_map_iff {as bs : List α} (h : ∀ a ∈ as, ∀ b ∈ bs, f a = f b ↔ R a b) :
    as.map f = bs.map f ↔ List.Forall₂ R as bs := by
  induction as generalizing bs with
  | nil => simp [eq_comm]
  | cons a as ih =>
    cases bs with
    | nil => simp
    | cons b bs =>
      have hhead := h a List.mem_cons_self b List.mem_cons_self
      have htail := ih fun a ha b hb =>
        h a (List.mem_cons_of_mem _ ha) b (List.mem_cons_of_mem _ hb)
      rw [List.map_cons, List.map_cons, List.cons.injEq, List.forall₂_cons, hhead, htail]

theorem optionMap_eq_iff {a b : Option α} (h : ∀ x ∈ a, ∀ y ∈ b, f x = f y ↔ R x y) :
    a.map f = b.map f ↔ Option.Rel R a b := by
  cases a with
  | none =>
    cases b with
    | none => simp
    | some y => simp
  | some x =>
    cases b with
    | none => simp
    | some y => simp [h x rfl y rfl]

end Pointwise

/-- Values have the same canonical value exactly if they are alike. Alike is said by look-ups and
items, without sorting anything. -/
theorem canonical_eq_iff_alike {ignored : String} {j j' : Json} (h : j.NamesDistinct)
    (h' : j'.NamesDistinct) :
    canonical ignored j = canonical ignored j' ↔ Alike ignored j j' := by
  induction j using ind generalizing j' with
  | null | bool _ | number _ | string _ =>
    -- A scalar is its own canonical value, and no other value has it.
    constructor
    · intro same
      cases j' <;> cases same
      constructor
    · intro alike
      cases alike
      rfl
  | array items ih =>
    cases j' with
    | array items' =>
      cases h with | array each =>
      cases h' with | array each' =>
      have hitems : items.map (canonical ignored) = items'.map (canonical ignored) ↔
          List.Forall₂ (Alike ignored) items items' :=
        map_eq_map_iff fun j hj j' hj' => ih j hj (each j hj) (each' j' hj')
      rw [canonical_array, canonical_array, Json.array.injEq, hitems]
      constructor
      · exact .array
      · intro alike
        cases alike with
        | array each => exact each
    | _ =>
      constructor
      · intro same
        cases same
      · intro alike
        cases alike
  | object fields ih =>
    cases j' with
    | object fields' =>
      cases h with | object names each =>
      cases h' with | object names' each' =>
      have hfield : ∀ name, (Entries.get? name fields).map (canonical ignored) =
            (Entries.get? name fields').map (canonical ignored) ↔
          Option.Rel (Alike ignored) (Entries.get? name fields) (Entries.get? name fields') := by
        intro name
        refine optionMap_eq_iff fun v hv v' hv' => ?_
        have hmem := Entries.mem_of_get? hv
        have hmem' := Entries.mem_of_get? hv'
        exact ih _ hmem (each _ hmem) (each' _ hmem')
      rw [canonical_object, canonical_object, Json.object.injEq,
        canonicalFields_eq_iff names names']
      simp only [hfield]
      constructor
      · exact .object
      · intro alike
        cases alike with
        | object each => exact each
    | _ =>
      constructor
      · intro same
        cases same
      · intro alike
        cases alike

end Json

namespace Record

/-- **The canonical text of a record tells its content.** Two values have the same canonical text
exactly if they are the same but for the order of fields and for ids. Integers are told apart from
floats, and texts that look like structure from structure. -/
theorem canonicalText_eq_iff {j j' : Json} (h : j.NamesDistinct) (h' : j'.NamesDistinct) :
    canonicalText j = canonicalText j' ↔ Json.Alike "id" j j' := by
  rw [← Json.canonical_eq_iff_alike h h']
  constructor
  · exact Json.canonical_eq_of_compact h h'
  · intro same
    exact congrArg Json.compact same

/-- Another order and other ids give the same text, also where a string looks like a field; and an
integer has another text than the float of the same value. -/
theorem canonicalText_eq_iff_reordered :
    canonicalText (.object [("id", .null), ("b", .array [.object [("id", .bool true)]]),
        ("a", .string "\",\"b\":")]) =
      canonicalText (.object [("a", .string "\",\"b\":"), ("b", .array [.object []])]) ∧
    canonicalText (.number (.int 0)) ≠ canonicalText (.number (.float (.zero false))) := by
  constructor
  · have inner : (Json.object [("id", .bool true)]).NamesDistinct :=
      .object (by decide) (List.forall_mem_singleton.mpr (.bool true))
    have names : (Json.object [("id", .null), ("b", .array [.object [("id", .bool true)]]),
        ("a", .string "\",\"b\":")]).NamesDistinct := by
      refine .object (by decide) ?_
      simp [Json.NamesDistinct.null, Json.NamesDistinct.string,
        Json.NamesDistinct.array (List.forall_mem_singleton.mpr inner)]
    have empty : (Json.object []).NamesDistinct := .object (by decide) (by simp)
    have names' : (Json.object [("a", .string "\",\"b\":"),
        ("b", .array [.object []])]).NamesDistinct := by
      refine .object (by decide) ?_
      simp [Json.NamesDistinct.string,
        Json.NamesDistinct.array (List.forall_mem_singleton.mpr empty)]
    refine (canonicalText_eq_iff names names').mpr (.object fun name hname => ?_)
    have alike : Json.Alike "id" (.array [.object [("id", .bool true)]]) (.array [.object []]) := by
      refine .array (.cons (.object fun name hname => ?_) .nil)
      simp [Entries.get?_cons, hname.symm]
    by_cases ha : name = "a"
    · subst ha
      exact .some (.string _)
    · by_cases hb : name = "b"
      · subst hb
        exact .some alike
      · simp [Entries.get?_cons, hname.symm, Ne.symm ha, Ne.symm hb]
  · intro same
    cases (canonicalText_eq_iff (.number _) (.number _)).mp same

end Record

end TypedSexp
