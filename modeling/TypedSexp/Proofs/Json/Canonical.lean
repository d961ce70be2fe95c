import TypedSexp.Proofs.Json.RoundTrip

/-!
# Canonical JSON

A value that was read has objects with fields of different names (`Json.namesDistinct_of_parse?`),
and leaving fields out or sorting them keeps that. Such a value is read back from its compact
text (`Json.parse?_compact`), so different values have different compact texts
(`Json.compact_injective`).

Sorting the fields of an object does not change what a name looks up, and leaving out the
fields of one name does not change what any other name does (`Json.get?_canonicalFields`).

Values with an object that has a name twice are left out. They are never read, and of their fields a
look-up shows only one. Integers and floats of the same value are different values here, as they are
written differently.
-/

namespace TypedSexp

namespace Json

/-! ## Compact texts -/

@[simp] theorem compactAll_eq_map (js : List Json) : compactAll js = js.map compact := by
  induction js with
  | nil => rfl
  | cons j js ih => rw [compactAll, ih, List.map_cons]

@[simp] theorem compactFields_eq_map (fs : List (String × Json)) :
    compactFields fs = fs.map fun f => quoted false f.1 ++ ":" ++ compact f.2 := by
  induction fs with
  | nil => rfl
  | cons f fs ih => rw [compactFields, ih, List.map_cons]

/-- Items between two delimiters, without blanks, are cut into the delimiters and the pieces of the
items with commas between them. -/
theorem cuts_between {α : Type} {opening closing : String} {first last : Piece}
    (hfirst : ∀ rest, Cuts opening.toList rest [first])
    (hlast : ∀ rest, Cuts closing.toList rest [last])
    (ends : ∀ rest, EndsNumber (closing.toList ++ rest)) {text : α → String}
    {parts : α → List Piece} {items : List α}
    (each : ∀ a ∈ items, ∀ rest, EndsNumber rest → Cuts (text a).toList rest (parts a))
    (rest : List Char) :
    Cuts (opening ++ String.intercalate "," (items.map text) ++ closing).toList rest
      (first :: ([.comma].intercalate (items.map parts) ++ [last])) := by
  have htext : (opening ++ String.intercalate "," (items.map text) ++ closing).toList =
      opening.toList ++ ([','].intercalate (items.map fun a => (text a).toList) ++
        closing.toList) := by
    simp [String.toList_intercalate, Function.comp_def]
  have comma : ∀ rest, Cuts [','] rest [.comma] := fun rest => cuts_char (fun _ => rfl) rest
  have commaEnds : ∀ rest, EndsNumber ([','] ++ rest) := by
    rintro rest c ⟨⟩
    decide
  rw [htext]
  exact (hfirst _).append ((cuts_intercalate comma commaEnds each (ends rest)).append (hlast rest))

/-- The compact text of a value is cut into its pieces, the same as those of the indented text. What
follows must not go on with a number. -/
theorem cuts_compact (j : Json) : ∀ rest : List Char, EndsNumber rest →
    Cuts j.compact.toList rest j.toPieces := by
  induction j using ind with
  | null => exact fun _ => cuts_scalarText
  | bool b => exact fun _ => cuts_scalarText
  | number x => exact fun _ => cuts_scalarText
  | string s => exact fun _ => cuts_scalarText
  | array items ih =>
    intro rest _
    rw [compact, toPieces, compactAll_eq_map, itemPieces_eq_map]
    refine cuts_between cuts_openArray cuts_closeArray ?_ ih rest
    rintro rest c ⟨⟩
    decide
  | object fields ih =>
    intro rest _
    rw [compact, toPieces, compactFields_eq_map, fieldPieces_eq_map]
    refine cuts_between cuts_openObject cuts_closeObject ?_ ?_ rest
    · rintro rest c ⟨⟩
      decide
    · intro f hf rest ends
      have colon : ∀ rest, Cuts ":".toList rest [.colon] := fun rest =>
        cuts_char (fun _ => rfl) rest
      rw [String.toList_append, String.toList_append, List.append_assoc]
      exact (cuts_quoted false f.1 _).append ((colon _).append (ih f hf rest ends))

/-- A compact document reads back as the value it was written from, if no object in it has a name
twice. -/
theorem parse?_compact {j : Json} (h : j.NamesDistinct) : parse? j.compact = some j :=
  parse?_of_cuts (cuts_compact j [] (by simp [EndsNumber])) h

/-- Different values have different compact texts. The condition on names is needed: of two fields
with one name only the last is read back. -/
theorem compact_injective {j j' : Json} (h : j.NamesDistinct) (h' : j'.NamesDistinct)
    (same : j.compact = j'.compact) : j = j' := by
  have hread := parse?_compact h
  rw [same, parse?_compact h'] at hread
  exact (Option.some.inj hread).symm

/-! ## What was read -/

/-- A piece that is a value has no parts, and so no name twice. -/
theorem namesDistinct_of_readPiece {cs rest : List Char} {j : Json}
    (h : readPiece cs = some (.value j, rest)) : j.NamesDistinct := by
  have hnumber : ∀ {x : Option (Number × List Char)},
      x.map (fun p => (Piece.value (.number p.1), p.2)) = some (.value j, rest) →
        j.NamesDistinct := by
    intro x hx
    obtain ⟨⟨n, r⟩, -, heq⟩ := Option.map_eq_some_iff.mp hx
    cases heq
    exact .number n
  unfold readPiece at h
  split at h
  case h_8 rest' =>
    obtain ⟨⟨s, r⟩, -, heq⟩ := Option.map_eq_some_iff.mp h
    cases heq
    exact .string s
  case h_9 c rest' _ _ _ _ _ _ _ =>
    split at h
    next v r hword =>
      cases h
      obtain ⟨⟨w, v⟩, hmem, hafter⟩ := List.exists_of_findSome?_eq_some hword
      obtain ⟨r, -, heq⟩ := Option.map_eq_some_iff.mp hafter
      cases heq
      simp only [words, List.mem_cons, Prod.mk.injEq, List.not_mem_nil, or_false] at hmem
      rcases hmem with ⟨-, rfl⟩ | ⟨-, rfl⟩ | ⟨-, rfl⟩ | ⟨-, rfl⟩ | ⟨-, rfl⟩ | ⟨-, rfl⟩
      · exact .null
      · exact .bool true
      · exact .bool false
      · exact .number _
      · exact .number _
      · exact .number _
    next =>
      split at h
      · exact hnumber h
      · exact hnumber h
  all_goals cases h

/-- All values among the pieces have objects with fields of different names. -/
def PiecesDistinct (ps : List Piece) : Prop := ∀ j, Piece.value j ∈ ps → j.NamesDistinct

/-- The values among the pieces of a text have no name twice. They are texts, numbers and words, and
objects come about only when pieces are put together. -/
theorem piecesDistinct_pieces {bound : Nat} {cs : List Char} {ps : List Piece}
    (h : pieces bound cs = some ps) : PiecesDistinct ps := by
  induction bound generalizing cs ps with
  | zero => cases h
  | succ bound ih =>
    rw [pieces] at h
    split at h
    next =>
      cases h
      intro j hj
      cases hj
    next =>
      split at h
      next => cases h
      next p rest hread =>
        obtain ⟨more, hmore, rfl⟩ := Option.map_eq_some_iff.mp h
        intro j hj
        rcases List.mem_cons.mp hj with rfl | hj
        · exact namesDistinct_of_readPiece hread
        · exact ih hmore j hj

/-- A reading of pieces gives values with different names and leaves such pieces. -/
structure ReadsDistinct (bound : Nat) : Prop where
  value {ps rest : List Piece} {j : Json} (h : PiecesDistinct ps)
    (read : readValue bound ps = some (j, rest)) : j.NamesDistinct ∧ PiecesDistinct rest
  items {ps rest : List Piece} {js : List Json} (h : PiecesDistinct ps)
    (read : readItems bound ps = some (js, rest)) :
      (∀ j ∈ js, j.NamesDistinct) ∧ PiecesDistinct rest
  fields {ps rest : List Piece} {fs : List (String × Json)} (h : PiecesDistinct ps)
    (read : readFields bound ps = some (fs, rest)) :
      (∀ f ∈ fs, f.2.NamesDistinct) ∧ PiecesDistinct rest

theorem PiecesDistinct.tail {p : Piece} {ps : List Piece} (h : PiecesDistinct (p :: ps)) :
    PiecesDistinct ps := fun j hj => h j (List.mem_cons_of_mem _ hj)

/-- What is read from such pieces has no name twice. The induction is over the bound, for values,
items and fields at once. -/
theorem readsDistinct (bound : Nat) : ReadsDistinct bound := by
  induction bound with
  | zero =>
    constructor
    case value =>
      intro ps rest j h read
      cases read
    case items =>
      intro ps rest js h read
      cases read
    case fields =>
      intro ps rest fs h read
      cases read
  | succ bound ih =>
    constructor
    case value =>
      intro ps rest j h read
      unfold readValue at read
      split at read
      next => contradiction
      next =>
        cases read
        exact ⟨h j List.mem_cons_self, h.tail⟩
      next =>
        cases read
        exact ⟨.array (by simp), h.tail.tail⟩
      next hbound =>
        cases hbound
        obtain ⟨⟨js, r⟩, hitems, heq⟩ := Option.map_eq_some_iff.mp read
        cases heq
        obtain ⟨heach, hrest⟩ := ih.items h.tail hitems
        exact ⟨.array heach, hrest⟩
      next =>
        cases read
        exact ⟨.object (by simp) (by simp), h.tail.tail⟩
      next hbound =>
        cases hbound
        obtain ⟨⟨fs, r⟩, hfields, heq⟩ := Option.map_eq_some_iff.mp read
        cases heq
        obtain ⟨heach, hrest⟩ := ih.fields h.tail hfields
        -- Of a name that comes twice one value is kept.
        refine ⟨.object (Entries.nodup_ofPairs fs) fun f hf => ?_, hrest⟩
        obtain ⟨p, hp, heq⟩ := Entries.exists_of_mem_ofPairs hf
        exact heq ▸ heach p hp
      next => cases read
    case items =>
      intro ps rest js h read
      rw [readItems] at read
      split at read
      next j rest' hvalue =>
        obtain ⟨hj, hrest⟩ := ih.value h hvalue
        obtain ⟨⟨more, r⟩, hmore, heq⟩ := Option.map_eq_some_iff.mp read
        cases heq
        obtain ⟨heach, hrest⟩ := ih.items hrest.tail hmore
        exact ⟨List.forall_mem_cons.mpr ⟨hj, heach⟩, hrest⟩
      next j rest' hvalue =>
        cases read
        obtain ⟨hj, hrest⟩ := ih.value h hvalue
        exact ⟨List.forall_mem_singleton.mpr hj, hrest.tail⟩
      next => cases read
    case fields =>
      intro ps rest fs h read
      unfold readFields at read
      split at read
      next k ps' hbound =>
        cases hbound
        split at read
        next v rest' hvalue =>
          obtain ⟨hv, hrest⟩ := ih.value h.tail.tail hvalue
          obtain ⟨⟨more, r⟩, hmore, heq⟩ := Option.map_eq_some_iff.mp read
          cases heq
          obtain ⟨heach, hrest⟩ := ih.fields hrest.tail hmore
          exact ⟨List.forall_mem_cons.mpr ⟨hv, heach⟩, hrest⟩
        next v rest' hvalue =>
          cases read
          obtain ⟨hv, hrest⟩ := ih.value h.tail.tail hvalue
          exact ⟨List.forall_mem_singleton.mpr hv, hrest.tail⟩
        next => cases read
      next => cases read

/-- A value that was read has objects with fields of different names, whatever the text had. The
later of two fields with one name is kept. -/
theorem namesDistinct_of_parse? {text : String} {j : Json} (h : parse? text = some j) :
    j.NamesDistinct := by
  rw [parse?] at h
  split at h
  next => cases h
  next ps hpieces =>
    split at h
    next j' hvalue =>
      cases h
      exact ((readsDistinct _).value (piecesDistinct_pieces hpieces) hvalue).1
    next => cases h

/-! ## Canonical values -/

@[simp] theorem withoutAll_eq_map (name : String) (js : List Json) :
    withoutAll name js = js.map (without name) := by
  induction js with
  | nil => rfl
  | cons j js ih => rw [withoutAll, ih, List.map_cons]

@[simp] theorem sortedAll_eq_map (js : List Json) : sortedAll js = js.map sorted := by
  induction js with
  | nil => rfl
  | cons j js ih => rw [sortedAll, ih, List.map_cons]

/-- The value without the fields of one name, and with all others in the order of their
names. -/
def canonical (name : String) (j : Json) : Json := (j.without name).sorted

/-- The fields of a canonical object. -/
def canonicalFields (name : String) (fields : List (String × Json)) : List (String × Json) :=
  sortedFields (withoutFields name fields)

/-- The canonical value of an object has its fields without the one left out, canonical and in the
order of their names. -/
theorem canonical_object (name : String) (fields : List (String × Json)) :
    canonical name (.object fields) = .object (canonicalFields name fields) := by
  rw [canonical, without, sorted, canonicalFields]

/-- The canonical value of an array has the canonical items in their order. -/
theorem canonical_array (name : String) (items : List Json) :
    canonical name (.array items) = .array (items.map (canonical name)) := by
  rw [canonical, without, sorted, withoutAll_eq_map, sortedAll_eq_map, List.map_map]
  rfl

/-- A field finds its place after those of lesser names only, so a look-up meets it as if it
stood first. -/
theorem get?_insertField (name : String) (f : String × Json) (fs : List (String × Json)) :
    Entries.get? name (insertField f fs) = Entries.get? name (f :: fs) := by
  induction fs with
  | nil => rfl
  | cons g gs ih =>
    rw [insertField]
    split
    next hlt =>
      have hne : f.1 ≠ g.1 := fun heq => by
        rw [heq] at hlt
        exact String.lt_irrefl _ hlt
      rw [Entries.get?_cons, ih, Entries.get?_cons, Entries.get?_cons, Entries.get?_cons]
      by_cases hf : f.1 = name
      · have hg : g.1 ≠ name := fun heq => hne (hf.trans heq.symm)
        simp [hf, hg]
      · simp [hf]
    next => rfl

/-- Every name but the one left out looks up the canonical value of what it looked up before.
Sorting does not change this, also where a name stands twice. -/
theorem get?_canonicalFields {name other : String} (h : other ≠ name)
    (fields : List (String × Json)) :
    Entries.get? other (canonicalFields name fields) =
      (Entries.get? other fields).map (canonical name) := by
  induction fields with
  | nil => rfl
  | cons f fs ih =>
    obtain ⟨k, v⟩ := f
    rw [canonicalFields, withoutFields, Entries.get?_cons]
    by_cases hk : k = name
    · have hother : (k == other) = false := by simpa [hk] using h.symm
      rw [if_pos hk, hother]
      exact ih
    · rw [if_neg hk, sortedFields, get?_insertField, Entries.get?_cons]
      by_cases hother : k = other
      · simp [hother, canonical]
      · have hbeq : (k == other) = false := by simpa using hother
        rw [hbeq]
        exact ih

/-! ### Names stay different -/

/-- A field that remains when a name is left out was a field of another name, with the name left out
inside its value. -/
theorem mem_withoutFields {name : String} {fields : List (String × Json)} {g : String × Json}
    (h : g ∈ withoutFields name fields) : ∃ f ∈ fields, g = (f.1, f.2.without name) := by
  induction fields with
  | nil => cases h
  | cons f fs ih =>
    rw [withoutFields] at h
    split at h
    · obtain ⟨f', hf', heq⟩ := ih h
      exact ⟨f', List.mem_cons_of_mem _ hf', heq⟩
    · rcases List.mem_cons.mp h with rfl | h
      · exact ⟨f, List.mem_cons_self, rfl⟩
      · obtain ⟨f', hf', heq⟩ := ih h
        exact ⟨f', List.mem_cons_of_mem _ hf', heq⟩

/-- Leaving a name out leaves the other names in their order. -/
theorem names_withoutFields (name : String) (fields : List (String × Json)) :
    ((withoutFields name fields).map Prod.fst).Sublist (fields.map Prod.fst) := by
  induction fields with
  | nil => exact .slnil
  | cons f fs ih =>
    rw [withoutFields]
    split
    · exact ih.cons f.1
    · exact ih.cons_cons f.1

/-- Inserting a field adds it and changes nothing else but places. -/
theorem perm_insertField (f : String × Json) (fs : List (String × Json)) :
    (insertField f fs).Perm (f :: fs) := by
  induction fs with
  | nil => exact .refl _
  | cons g gs ih =>
    rw [insertField]
    split
    · exact (ih.cons g).trans (.swap f g gs)
    · exact .refl _

/-- Sorting fields gives the same fields with sorted values, in some order. -/
theorem perm_sortedFields (fields : List (String × Json)) :
    (sortedFields fields).Perm (fields.map (Prod.map id sorted)) := by
  induction fields with
  | nil => exact .refl _
  | cons f fs ih =>
    rw [sortedFields, List.map_cons]
    exact (perm_insertField _ _).trans (ih.cons _)

/-- Leaving a name out leaves names different, at every depth. -/
theorem NamesDistinct.without {j : Json} (h : j.NamesDistinct) (name : String) :
    (j.without name).NamesDistinct := by
  induction h with
  | null => exact .null
  | bool b => exact .bool b
  | number x => exact .number x
  | string s => exact .string s
  | array each ih =>
    rw [Json.without, withoutAll_eq_map]
    exact .array (List.forall_mem_map.mpr ih)
  | object names each ih =>
    rw [Json.without]
    refine .object (names.sublist (names_withoutFields name _)) fun g hg => ?_
    obtain ⟨f, hf, rfl⟩ := mem_withoutFields hg
    exact ih f hf

theorem NamesDistinct.sorted {j : Json} (h : j.NamesDistinct) : j.sorted.NamesDistinct := by
  induction h with
  | null => exact .null
  | bool b => exact .bool b
  | number x => exact .number x
  | string s => exact .string s
  | array each ih =>
    rw [Json.sorted, sortedAll_eq_map]
    exact .array (List.forall_mem_map.mpr ih)
  | @object fields names each ih =>
    have hperm := perm_sortedFields fields
    rw [Json.sorted]
    refine .object ?_ fun g hg => ?_
    · have hnames : (fields.map (Prod.map id Json.sorted)).map Prod.fst = fields.map Prod.fst := by
        rw [List.map_map]
        rfl
      rw [(hperm.map Prod.fst).nodup_iff, hnames]
      exact names
    · obtain ⟨f, hf, rfl⟩ := List.mem_map.mp (hperm.mem_iff.mp hg)
      exact ih f hf

/-- Values with the same canonical text have the same canonical value. The values themselves may
differ in order and in what is left out. -/
theorem canonical_eq_of_compact {name : String} {j j' : Json} (h : j.NamesDistinct)
    (h' : j'.NamesDistinct) (same : (canonical name j).compact = (canonical name j').compact) :
    canonical name j = canonical name j' :=
  compact_injective (h.without name).sorted (h'.without name).sorted same

end Json

end TypedSexp
