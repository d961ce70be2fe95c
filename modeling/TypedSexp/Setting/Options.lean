import TypedSexp.Setting.Value
import TypedSexp.Text.Blank

/-!
# Options

What a compilation does and what its report shows. Options are read from a
mapping with two sections, in which unknown names do not count and names left out
have their defaults, and can be written back as such a mapping. Merging lays
further settings over the written form and reads the result, so a setting that
was merged is checked like every other.
-/

namespace TypedSexp

/-- How a report is written. -/
inductive OutputFormat where
  | text
  | json
  deriving DecidableEq, Repr

namespace OutputFormat

/-- The name of a format. -/
def name : OutputFormat → String
  | .text => "text"
  | .json => "json"

/-- The format of a name. -/
def ofName? (s : String) : Option OutputFormat :=
  if s = text.name then some .text else if s = json.name then some .json else none

/-- A name stands for the format that has it. -/
theorem ofName?_eq_some_iff {s : String} {f : OutputFormat} : ofName? s = some f ↔ f.name = s := by
  unfold ofName?
  split
  · next h => subst h; cases f <;> simp [name]
  · next ht =>
    split
    · next h => subst h; cases f <;> simp [name]
    · next hj =>
      constructor
      · intro h; cases h
      · intro h
        cases f
        · exact absurd h.symm ht
        · exact absurd h.symm hj

end OutputFormat

/-- The options of a compilation. -/
structure Options where
  /-- Whether forms are type checked. -/
  infers : Bool := true
  format : OutputFormat := .text
  /-- Whether a text report shows the type of every part of a form. -/
  showsTypes : Bool := false
  /-- Whether a text report shows the solved variables of every form. -/
  showsSubstitution : Bool := false
  /-- Whether every form is emitted as script. -/
  emits : Bool := false
  deriving DecidableEq, Repr, Inhabited

/-- Why settings are no options. -/
inductive OptionFault where
  /-- A section is something else than a mapping. -/
  | sectionKind (name : String)
  /-- A text is no truth value. -/
  | truth (found : String)
  /-- There is no such format. -/
  | format (found : String)
  deriving DecidableEq, Repr

/-- The wording of a fault. -/
def OptionFault.message : OptionFault → String
  | .sectionKind name => s!"configuration section '{name}' must be a mapping"
  | .truth found => s!"expected a boolean, found {Text.quoted found}"
  | .format found => s!"unknown output format {Text.quoted found}; expected one of text, json"

namespace Options

/-- The words for true in a setting. -/
def trueWords : List String := ["1", "true", "yes", "on"]

/-- The words for false in a setting. -/
def falseWords : List String := ["0", "false", "no", "off"]

/-- The truth value of a setting. Nothing is the default; a text is a word, in
any case and with blanks around it; all else counts as true or not. -/
def truth (default : Bool) : Option Value → Except OptionFault Bool
  | none | some .null => .ok default
  | some (.text s) =>
    let word := String.ofList (Text.asciiLower (Text.trimBlanks s.toList))
    if trueWords.contains word then .ok true
    else if falseWords.contains word then .ok false
    else .error (.truth s)
  | some v => .ok v.isTrue

/-- The entries of a section. A section that is left out or nothing is empty. -/
def sectionOf (name : String) (entries : List (Value × Value)) :
    Except OptionFault (List (Value × Value)) :=
  match Value.field? name entries with
  | none | some .null => .ok []
  | some (.map es) => .ok es
  | some _ => .error (.sectionKind name)

/-- The format that a section names. Only a format that is left out is the
default; nothing is no format. -/
def formatOf (entries : List (Value × Value)) : Except OptionFault OutputFormat :=
  match Value.field? "format" entries with
  | none => .ok .text
  | some v =>
    match OutputFormat.ofName? v.shown with
    | some f => .ok f
    | none => .error (.format v.shown)

/-- The options that the entries of a mapping give. The format is the last that
is checked. -/
def ofEntries (entries : List (Value × Value)) : Except OptionFault Options := do
  let inference ← sectionOf "inference" entries
  let output ← sectionOf "output" entries
  let infers ← truth true (Value.field? "enabled" inference)
  let showsTypes ← truth false (Value.field? "show_types" output)
  let showsSubstitution ← truth false (Value.field? "show_substitution" output)
  let emits ← truth false (Value.field? "emit_javascript" output)
  let format ← formatOf output
  return { infers, format, showsTypes, showsSubstitution, emits }

/-- The entries that say all options. -/
def toEntries (o : Options) : List (Value × Value) :=
  [(.text "inference", .map [(.text "enabled", .bool o.infers)]),
   (.text "output", .map [
     (.text "format", .text o.format.name),
     (.text "show_types", .bool o.showsTypes),
     (.text "show_substitution", .bool o.showsSubstitution),
     (.text "emit_javascript", .bool o.emits)])]

/-- Options that are written out read back. -/
theorem ofEntries_toEntries (o : Options) : ofEntries o.toEntries = .ok o := by
  obtain ⟨infers, format, showsTypes, showsSubstitution, emits⟩ := o
  cases format <;> rfl

end Options

namespace Value

mutual

/-- A value laid over what stood in its place: a mapping over a mapping entry by
entry, anything else in its stead. -/
def laidOver (old : Option Value) : Value → Value
  | .map updates =>
    match old with
    | some (.map base) => .map (layEntries base updates)
    | _ => .map updates
  | v => v

/-- Entries laid over those of another mapping. -/
def layEntries (base : List (Value × Value)) : List (Value × Value) → List (Value × Value)
  | [] => base
  | (k, v) :: updates => layEntries (putEntry k (laidOver (lookup? k base) v) base) updates

end

end Value

namespace Options

/-- Options with further settings laid over them. -/
def merge (o : Options) (updates : List (Value × Value)) : Except OptionFault Options :=
  if updates.isEmpty then .ok o else ofEntries (Value.layEntries o.toEntries updates)

end Options

end TypedSexp
