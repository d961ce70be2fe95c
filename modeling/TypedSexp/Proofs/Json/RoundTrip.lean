import TypedSexp.Proofs.Entries
import TypedSexp.Proofs.Json.Numbers
import TypedSexp.Proofs.Json.Strings

/-!
# JSON documents read back

A value is written as a sequence of pieces (`Json.toPieces`), with blanks between them that
depend on the layout. Cutting the indented text of a value gives its pieces back
(`Json.cuts_indented`), and reading the pieces gives the value, if every object in it has
fields of different names (`Json.NamesDistinct.readsBack`). Together this is
`Json.parse?_indented`.

Both passes have a bound on the number of their steps. A text is cut with a bound for its
characters and read with a bound for its pieces, and each step takes at least one of those;
so the statements hold of every bound that is large enough, and the cut carries along that
there are no more pieces than characters.

Only texts that were written here are meant, and values in which no object has a name twice. Which
other texts are read, as what, and which are refused is left out.
-/

namespace TypedSexp

namespace Json

/-- The value of a field is smaller than the fields, so the recursion over values may go into it. -/
theorem sizeOf_field_lt {f : String × Json} {fields : List (String × Json)} (h : f ∈ fields) :
    sizeOf f.2 < sizeOf fields := by
  have hmem := List.sizeOf_lt_of_mem h
  have hpair : sizeOf f = 1 + sizeOf f.1 + sizeOf f.2 := rfl
  omega

/-- Induction over values, with the hypothesis for each item of an array and each field of an
object. -/
theorem ind {motive : Json → Prop} (null : motive .null) (bool : ∀ b, motive (.bool b))
    (number : ∀ x, motive (.number x)) (string : ∀ s, motive (.string s))
    (array : ∀ items, (∀ j ∈ items, motive j) → motive (.array items))
    (object : ∀ fields, (∀ f ∈ fields, motive f.2) → motive (.object fields)) : ∀ j, motive j
  | .null => null
  | .bool b => bool b
  | .number x => number x
  | .string s => string s
  | .array items => array items fun j _ => ind null bool number string array object j
  | .object fields => object fields fun f hf =>
    have := sizeOf_field_lt hf
    ind null bool number string array object f.2

/-- Every object has fields of different names. -/
inductive NamesDistinct : Json → Prop
  | null : NamesDistinct .null
  | bool (b : Bool) : NamesDistinct (.bool b)
  | number (x : Number) : NamesDistinct (.number x)
  | string (s : String) : NamesDistinct (.string s)
  | array {items : List Json} (each : ∀ j ∈ items, NamesDistinct j) : NamesDistinct (.array items)
  | object {fields : List (String × Json)} (names : (fields.map Prod.fst).Nodup)
      (each : ∀ f ∈ fields, NamesDistinct f.2) : NamesDistinct (.object fields)

mutual

/-- The pieces that a value is written with. -/
def toPieces : Json → List Piece
  | .array items => .openArray :: ([.comma].intercalate (itemPieces items) ++ [.closeArray])
  | .object fields => .openObject :: ([.comma].intercalate (fieldPieces fields) ++ [.closeObject])
  | j => [.value j]

/-- The pieces of each item. -/
def itemPieces : List Json → List (List Piece)
  | [] => []
  | j :: js => toPieces j :: itemPieces js

/-- The pieces of each field. -/
def fieldPieces : List (String × Json) → List (List Piece)
  | [] => []
  | (k, v) :: fs => (.value (.string k) :: .colon :: toPieces v) :: fieldPieces fs

end

@[simp] theorem itemPieces_eq_map (js : List Json) : itemPieces js = js.map toPieces := by
  induction js with
  | nil => rfl
  | cons j js ih => rw [itemPieces, ih, List.map_cons]

@[simp] theorem fieldPieces_eq_map (fs : List (String × Json)) :
    fieldPieces fs = fs.map fun f => .value (.string f.1) :: .colon :: toPieces f.2 := by
  induction fs with
  | nil => rfl
  | cons f fs ih => rw [fieldPieces, ih, List.map_cons]

@[simp] theorem indentedAll_eq_map (asciiOnly : Bool) (depth : Nat) (js : List Json) :
    indentedAll asciiOnly depth js = js.map (indented asciiOnly depth) := by
  induction js with
  | nil => rfl
  | cons j js ih => rw [indentedAll, ih, List.map_cons]

@[simp] theorem indentedFields_eq_map (asciiOnly : Bool) (depth : Nat)
    (fs : List (String × Json)) : indentedFields asciiOnly depth fs =
      fs.map fun f => quoted asciiOnly f.1 ++ ": " ++ indented asciiOnly depth f.2 := by
  induction fs with
  | nil => rfl
  | cons f fs ih => rw [indentedFields, ih, List.map_cons]

/-! ## Cutting -/

/-- A text before another one is cut into pieces, of which there are no more than
characters. -/
def Cuts (text rest : List Char) (ps : List Piece) : Prop :=
  ps.length ≤ text.length ∧
    ∀ bound, pieces (bound + ps.length) (text ++ rest) = (pieces bound rest).map (ps ++ ·)

/-- Texts one after the other are cut into the pieces of both, if the first is so with the second
behind it. -/
theorem Cuts.append {text more rest : List Char} {ps qs : List Piece}
    (h : Cuts text (more ++ rest) ps) (h' : Cuts more rest qs) :
    Cuts (text ++ more) rest (ps ++ qs) := by
  refine ⟨?_, fun bound => ?_⟩
  · rw [List.length_append, List.length_append]
    exact Nat.add_le_add h.1 h'.1
  · have hbound : bound + (ps ++ qs).length = bound + qs.length + ps.length := by
      rw [List.length_append]
      omega
    rw [hbound, List.append_assoc, h.2, h'.2, Option.map_map]
    simp [Function.comp_def]

theorem cuts_blank {text : List Char} (h : ∀ c ∈ text, isSpace c = true) (rest : List Char) :
    Cuts text rest [] := by
  refine ⟨Nat.zero_le _, fun bound => ?_⟩
  have hpieces : pieces bound (text ++ rest) = pieces bound rest := by
    cases bound with
    | zero => rfl
    | succ bound => rw [pieces, pieces, List.dropWhile_append_of_pos h]
  simpa using hpieces

theorem readPiece_space {c : Char} (h : isSpace c = true) (cs : List Char) :
    readPiece (c :: cs) = none := by
  simp only [isSpace, Bool.or_eq_true, beq_iff_eq] at h
  rcases h with ((rfl | rfl) | rfl) | rfl <;> rfl

theorem cuts_piece {text rest : List Char} {p : Piece} (hne : text ≠ [])
    (hread : readPiece (text ++ rest) = some (p, rest)) : Cuts text rest [p] := by
  obtain ⟨c, cs, rfl⟩ := List.exists_cons_of_ne_nil hne
  rw [List.cons_append] at hread
  have hspace : ¬ isSpace c = true := by
    intro h
    rw [readPiece_space h] at hread
    cases hread
  refine ⟨by simp, fun bound => ?_⟩
  rw [List.length_singleton, List.cons_append, pieces, List.dropWhile_cons_of_neg hspace]
  simp only [hread]
  rfl

/-- A character that is a piece of its own is cut into it, whatever follows. -/
theorem cuts_char {c : Char} {p : Piece} (h : ∀ rest, readPiece (c :: rest) = some (p, rest))
    (rest : List Char) : Cuts [c] rest [p] := cuts_piece (by simp) (h rest)

theorem cuts_openArray (rest : List Char) : Cuts "[".toList rest [.openArray] :=
  cuts_char (fun _ => rfl) rest

theorem cuts_closeArray (rest : List Char) : Cuts "]".toList rest [.closeArray] :=
  cuts_char (fun _ => rfl) rest

theorem cuts_openObject (rest : List Char) : Cuts "\x7b".toList rest [.openObject] :=
  cuts_char (fun _ => rfl) rest

theorem cuts_closeObject (rest : List Char) : Cuts "\x7d".toList rest [.closeObject] :=
  cuts_char (fun _ => rfl) rest

theorem cuts_quoted (asciiOnly : Bool) (s : String) (rest : List Char) :
    Cuts (quoted asciiOnly s).toList rest [.value (.string s)] := by
  have htext : (quoted asciiOnly s).toList =
      '"' :: (s.toList.flatMap (escapeChar asciiOnly) ++ ['"']) := by
    rw [quoted, String.toList_ofList]
  rw [htext]
  refine cuts_piece (by simp) ?_
  rw [List.cons_append, List.append_assoc, List.singleton_append, readPiece, readString_quoted,
    Option.map_some]

/-- The text of a number is one piece, if nothing follows that goes on with it. -/
theorem cuts_jsonText (x : Number) {rest : List Char} (ends : EndsNumber rest) :
    Cuts x.jsonText.toList rest [.value (.number x)] := by
  refine cuts_piece ?_ (readPiece_jsonText x ends)
  intro hempty
  have hread : readPiece (x.jsonText.toList ++ []) = _ :=
    readPiece_jsonText x (by simp [EndsNumber])
  rw [hempty] at hread
  cases hread

/-- Items with a comma between any two of them are cut into their pieces with commas between them.
The separator may hold blanks besides the comma, and it has to end a number. -/
theorem cuts_intercalate {α : Type} {separator : List Char}
    (comma : ∀ rest, Cuts separator rest [.comma])
    (ends : ∀ rest, EndsNumber (separator ++ rest)) {text : α → List Char}
    {parts : α → List Piece} {items : List α}
    (each : ∀ a ∈ items, ∀ rest, EndsNumber rest → Cuts (text a) rest (parts a))
    {rest : List Char} (hrest : EndsNumber rest) :
    Cuts (separator.intercalate (items.map text)) rest
      ([.comma].intercalate (items.map parts)) := by
  induction items with
  | nil => exact cuts_blank (by simp) rest
  | cons a items ih =>
    obtain ⟨ha, hitems⟩ := List.forall_mem_cons.mp each
    cases items with
    | nil => simpa using ha rest hrest
    | cons b items =>
      rw [List.map_cons, List.map_cons, List.intercalate_cons_cons, List.map_cons, List.map_cons,
        List.intercalate_cons_cons, List.append_assoc, List.append_assoc]
      refine (ha _ ?_).append ((comma _).append (ih hitems))
      rw [List.append_assoc]
      exact ends _

/-- A line starts with a newline and two blanks for each level. -/
theorem toList_lineStart (depth : Nat) :
    (lineStart depth).toList = '\n' :: List.replicate (2 * depth) ' ' := by
  simp [lineStart]

theorem isSpace_lineStart (depth : Nat) : ∀ c ∈ (lineStart depth).toList, isSpace c = true := by
  rw [toList_lineStart]
  refine List.forall_mem_cons.mpr ⟨rfl, fun c hc => ?_⟩
  rw [(List.mem_replicate.mp hc).2]
  rfl

theorem endsNumber_lineStart (depth : Nat) (rest : List Char) :
    EndsNumber ((lineStart depth).toList ++ rest) := by
  rw [toList_lineStart]
  rintro c ⟨⟩
  decide

/-- Items on lines of their own between two delimiters are cut into the delimiters and the pieces of
the items. Without items there are no lines either. -/
theorem cuts_block {α : Type} {opening closing : String} {first last : Piece}
    (hfirst : ∀ rest, Cuts opening.toList rest [first])
    (hlast : ∀ rest, Cuts closing.toList rest [last]) (depth : Nat) {text : α → String}
    {parts : α → List Piece} {items : List α}
    (each : ∀ a ∈ items, ∀ rest, EndsNumber rest → Cuts (text a).toList rest (parts a))
    (rest : List Char) : Cuts (block opening closing depth (items.map text)).toList rest
      (first :: ([.comma].intercalate (items.map parts) ++ [last])) := by
  have htext : (block opening closing depth (items.map text)).toList =
      opening.toList ++ ((lineStart (depth + 1)).toList ++
        ((',' :: (lineStart (depth + 1)).toList).intercalate (items.map fun a => (text a).toList) ++
          ((lineStart depth).toList ++ closing.toList))) := by
    simp [block, String.toList_intercalate, Function.comp_def]
  have comma : ∀ rest, Cuts (',' :: (lineStart (depth + 1)).toList) rest [.comma] := fun rest =>
    (cuts_char (fun _ => rfl) _).append (cuts_blank (isSpace_lineStart _) rest)
  have ends : ∀ rest, EndsNumber (',' :: (lineStart (depth + 1)).toList ++ rest) := by
    rintro rest c ⟨⟩
    decide
  rw [htext]
  refine (hfirst _).append ((cuts_blank (isSpace_lineStart _) _).append
    ((cuts_intercalate comma ends each ?_).append
      ((cuts_blank (isSpace_lineStart _) _).append (hlast rest))))
  rw [List.append_assoc]
  exact endsNumber_lineStart depth _

/-- The text of a value without parts is one piece. Of arrays and objects this is said of the empty
ones. -/
theorem cuts_scalarText {asciiOnly : Bool} {j : Json} {rest : List Char} (ends : EndsNumber rest) :
    Cuts (j.scalarText asciiOnly).toList rest
      (match j with
        | .array _ => [.openArray, .closeArray]
        | .object _ => [.openObject, .closeObject]
        | j => [.value j]) := by
  cases j with
  | null => exact cuts_piece (by simp [scalarText]) (by rw [scalarText]; rfl)
  | bool b => cases b <;> exact cuts_piece (by simp [scalarText]) (by rw [scalarText]; rfl)
  | number x => exact cuts_jsonText x ends
  | string s => exact cuts_quoted asciiOnly s rest
  | array items =>
    rw [scalarText]
    exact (cuts_openArray _).append (cuts_closeArray rest)
  | object fields =>
    rw [scalarText]
    exact (cuts_openObject _).append (cuts_closeObject rest)

/-- The indented text of a value is cut into its pieces at every depth, with or without characters
beyond ASCII. The induction is over the value, with the depth and what follows free. -/
theorem cuts_indented (asciiOnly : Bool) (j : Json) : ∀ (depth : Nat) (rest : List Char),
    EndsNumber rest → Cuts (j.indented asciiOnly depth).toList rest j.toPieces := by
  induction j using ind with
  | null => exact fun _ _ => cuts_scalarText
  | bool b => exact fun _ _ => cuts_scalarText
  | number x => exact fun _ _ => cuts_scalarText
  | string s => exact fun _ _ => cuts_scalarText
  | array items ih =>
    intro depth rest ends
    cases items with
    | nil => exact cuts_scalarText ends
    | cons j js =>
      rw [indented, toPieces, indentedAll_eq_map, itemPieces_eq_map]
      exact cuts_block cuts_openArray cuts_closeArray depth (fun j hj => ih j hj (depth + 1)) rest
  | object fields ih =>
    intro depth rest ends
    cases fields with
    | nil => exact cuts_scalarText ends
    | cons f fs =>
      rw [indented, toPieces, indentedFields_eq_map, fieldPieces_eq_map]
      refine cuts_block cuts_openObject cuts_closeObject depth ?_ rest
      intro f hf rest ends
      have colon : ∀ rest, Cuts [':', ' '] rest [.colon] := fun rest =>
        (cuts_char (fun _ => rfl) _).append (cuts_blank (by simp [isSpace]) rest)
      rw [String.toList_append, String.toList_append, List.append_assoc]
      exact (cuts_quoted asciiOnly f.1 _).append ((colon _).append (ih f hf (depth + 1) rest ends))

/-! ## Reading the pieces -/

/-- Pieces are read back as a value by every bound for their number, whatever follows. -/
def ReadsBack (j : Json) (ps : List Piece) : Prop :=
  ∀ (bound : Nat) (rest : List Piece), ps.length ≤ bound →
    readValue bound (ps ++ rest) = some (j, rest)

/-- The pieces of items are read back as the items, up to the end of the array. The bound of the
reader is the number of pieces, which is always enough. -/
theorem readItems_intercalate {js : List Json} (hne : js ≠ [])
    (each : ∀ j ∈ js, ReadsBack j j.toPieces) (bound : Nat) (rest : List Piece)
    (hbound : ([.comma].intercalate (js.map toPieces)).length < bound) :
    readItems bound ([.comma].intercalate (js.map toPieces) ++ .closeArray :: rest) =
      some (js, rest) := by
  induction js generalizing bound with
  | nil => exact absurd rfl hne
  | cons j js ih =>
    obtain ⟨hj, hjs⟩ := List.forall_mem_cons.mp each
    obtain ⟨bound, rfl⟩ := Nat.exists_eq_succ_of_ne_zero (Nat.ne_zero_of_lt hbound)
    cases js with
    | nil =>
      have hlength : j.toPieces.length < bound + 1 := by simpa using hbound
      have hfirst := hj bound (.closeArray :: rest) (Nat.le_of_lt_succ hlength)
      simp [readItems, hfirst]
    | cons j' js =>
      simp only [List.map_cons, List.intercalate_cons_cons, List.length_append, List.length_cons,
        List.append_assoc, List.singleton_append] at hbound ih ⊢
      have hfirst : ∀ ps, readValue bound (j.toPieces ++ ps) = some (j, ps) := fun ps =>
        hj bound ps (by omega)
      have hmore := ih (by simp) hjs bound (by omega)
      simp only [readItems, hfirst, List.cons_append, hmore, Option.map_some]

/-- The pieces of fields, with a comma between each two, are read back as the fields, up to the end
of the object. The bound counts pieces, and every field has at least three. -/
theorem readFields_intercalate {fs : List (String × Json)} (hne : fs ≠ [])
    (each : ∀ f ∈ fs, ReadsBack f.2 f.2.toPieces) (bound : Nat) (rest : List Piece)
    (hbound : ([.comma].intercalate (fieldPieces fs)).length < bound) :
    readFields bound ([.comma].intercalate (fieldPieces fs) ++ .closeObject :: rest) =
      some (fs, rest) := by
  induction fs generalizing bound with
  | nil => exact absurd rfl hne
  | cons f fs ih =>
    obtain ⟨hf, hfs⟩ := List.forall_mem_cons.mp each
    obtain ⟨bound, rfl⟩ := Nat.exists_eq_succ_of_ne_zero (Nat.ne_zero_of_lt hbound)
    cases fs with
    | nil =>
      simp only [fieldPieces_eq_map, List.map_cons, List.map_nil, List.intercalate_singleton,
        List.length_cons] at hbound ⊢
      have hfirst := hf bound (.closeObject :: rest) (by omega)
      simp [readFields, hfirst]
    | cons f' fs =>
      simp only [fieldPieces_eq_map, List.map_cons, List.intercalate_cons_cons, List.length_append,
        List.length_cons, List.append_assoc, List.cons_append, List.nil_append] at hbound ih ⊢
      have hfirst : ∀ ps, readValue bound (f.2.toPieces ++ ps) = some (f.2, ps) := fun ps =>
        hf bound ps (by omega)
      have hmore := ih (by simp) hfs bound (by omega)
      simp only [readFields, hfirst, hmore, Option.map_some]

/-- An array that ends at once has no items, which the reader sees before it reads any. -/
theorem readItems_closeArray (bound : Nat) (rest : List Piece) :
    readItems bound (.closeArray :: rest) = none := by
  cases bound with
  | zero => rfl
  | succ bound => cases bound <;> rfl

theorem readFields_closeObject (bound : Nat) (rest : List Piece) :
    readFields bound (.closeObject :: rest) = none := by
  cases bound <;> rfl

/-- The pieces of a value read back as the value, and leave what follows. In an object with a name
twice a field would be lost here. -/
theorem NamesDistinct.readsBack {j : Json} (h : j.NamesDistinct) : ReadsBack j j.toPieces := by
  induction h with
  | null | bool | number | string =>
    intro bound rest hbound
    obtain ⟨bound, rfl⟩ := Nat.exists_eq_succ_of_ne_zero (Nat.ne_zero_of_lt hbound)
    rfl
  | @array items each ih =>
    intro bound rest hbound
    obtain ⟨bound, rfl⟩ := Nat.exists_eq_succ_of_ne_zero (Nat.ne_zero_of_lt hbound)
    cases items with
    | nil => rfl
    | cons j js =>
      simp only [toPieces, itemPieces_eq_map, List.length_cons, List.length_append,
        List.length_nil] at hbound
      have hitems := readItems_intercalate (by simp) ih bound rest (by omega)
      simp only [toPieces, itemPieces_eq_map, List.cons_append, List.append_assoc, List.nil_append]
      rw [readValue, hitems, Option.map_some]
      -- Items that were read do not start with the end of the array.
      intro more hmore
      rw [hmore, readItems_closeArray] at hitems
      cases hitems
  | @object fields names each ih =>
    intro bound rest hbound
    obtain ⟨bound, rfl⟩ := Nat.exists_eq_succ_of_ne_zero (Nat.ne_zero_of_lt hbound)
    cases fields with
    | nil => rfl
    | cons f fs =>
      simp only [toPieces, List.length_cons, List.length_append, List.length_nil] at hbound
      have hfields := readFields_intercalate (by simp) ih bound rest (by omega)
      simp only [toPieces, List.cons_append, List.append_assoc, List.nil_append]
      rw [readValue, hfields, Option.map_some]
      · simp only [Entries.ofPairs_eq_self names]
      · intro more hmore
        rw [hmore, readFields_closeObject] at hfields
        cases hfields

/-- A text that is cut into the pieces of a value reads back as the value. Both layouts use this,
the indented and the compact one. -/
theorem parse?_of_cuts {text : String} {j : Json} (cuts : Cuts text.toList [] j.toPieces)
    (h : j.NamesDistinct) : parse? text = some j := by
  obtain ⟨hlength, hcut⟩ := cuts
  generalize hcs : text.toList = cs at hlength hcut
  have hpieces : pieces (cs.length + 1) cs = some j.toPieces := by
    -- The bound is for the characters; what the pieces leave of it is enough for the end.
    obtain ⟨extra, hextra⟩ := Nat.exists_eq_add_of_le hlength
    have := hcut (extra + 1)
    rw [List.append_nil] at this
    have hbound : cs.length + 1 = extra + 1 + j.toPieces.length := by omega
    rw [hbound, this]
    simp [pieces]
  have hvalue := h.readsBack (j.toPieces.length + 1) [] (Nat.le_succ _)
  rw [List.append_nil] at hvalue
  simp only [parse?, hcs, hpieces, hvalue]

/-- An indented document reads back as the value it was written from, if no object in it has a name
twice. -/
theorem parse?_indented (asciiOnly : Bool) {j : Json} (h : j.NamesDistinct) :
    parse? (j.indented asciiOnly 0) = some j :=
  parse?_of_cuts (cuts_indented asciiOnly j 0 [] (by simp [EndsNumber])) h

end Json

end TypedSexp
