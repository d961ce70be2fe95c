import Mathlib.Tactic.Common
import TypedSexp.Proofs.Result
import TypedSexp.Setting.Options

/-!
# Settings laid over each other

Laying settings over others replaces what stands under a name, unless two mappings meet, which are
laid over each other in turn (`Value.field?_layEntries`).

Options are read from a mapping by looking up names, and a value of an option is read the same
whatever it was laid over. So two mappings that give the same options still do after the same
settings are laid over both (`Options.ofEntries_layEntries`). In particular it makes no difference
whether options are written out in between. The one thing to be asked of the settings is that an
option is not given an empty mapping: laid over a mapping it would count as true, and alone it does
not.

Nothing is said about the order in which entries stand, on which no option depends.
-/

namespace TypedSexp

namespace Value

/-! ## Names as keys -/

/-- A key is the same as a name only if it is that name. Keys of other kinds that look alike are
not. -/
theorem sameKey_text_iff {name : String} {k : Value} :
    sameKey (.text name) k = true ↔ k = .text name := by
  cases k with
  | text s =>
    show (name == s) = true ↔ Value.text s = .text name
    rw [beq_iff_eq, Value.text.injEq, eq_comm]
  | _ => exact iff_of_false (by intro h; cases h) (by intro h; cases h)

theorem sameKey_iff_text {name : String} {k : Value} :
    sameKey k (.text name) = true ↔ k = .text name := by
  cases k with
  | text s =>
    show (s == name) = true ↔ Value.text s = .text name
    rw [beq_iff_eq, Value.text.injEq]
  | complex z => simp [sameKey, keyNumber?]
  | _ => exact iff_of_false (by intro h; cases h) (by intro h; cases h)

section Fields

variable {name other : String} {k v w : Value} {e : Value × Value} {es : List (Value × Value)}

@[simp] theorem field?_cons_self : field? name ((.text name, v) :: es) = some v := by
  have hkey : sameKey (.text name) (.text name) = true := sameKey_text_iff.mpr rfl
  simp [field?, lookup?, Entries.find?, hkey]

theorem field?_cons_of_ne (h : e.1 ≠ .text name) : field? name (e :: es) = field? name es := by
  have hkey : sameKey (.text name) e.1 = false := by
    simpa using mt sameKey_text_iff.mp h
  simp [field?, lookup?, Entries.find?, hkey]

/-- A value put under a key that comes first takes its place. -/
theorem putEntry_cons_of_eq (h : sameKey k e.1 = true) :
    putEntry k v (e :: es) = (e.1, v) :: es := by
  rw [putEntry, Entries.putBy, if_pos h]

/-- A value put under another key leaves the first entry. -/
theorem putEntry_cons_of_ne (h : ¬sameKey k e.1 = true) :
    putEntry k v (e :: es) = e :: putEntry k v es := by
  rw [putEntry, Entries.putBy, if_neg h]
  rfl

/-- What was put under a name is found there. -/
@[simp] theorem field?_putField_self : field? name (putField name v es) = some v := by
  induction es with
  | nil => exact field?_cons_self
  | cons e es ih =>
    by_cases he : e.1 = .text name
    · rw [putField, putEntry_cons_of_eq (sameKey_text_iff.mpr he), he]
      exact field?_cons_self
    · rw [putField, putEntry_cons_of_ne (mt sameKey_text_iff.mp he), field?_cons_of_ne he]
      exact ih

/-- What was put under a key changes nothing under other names. The key may be any value, not only a
text. -/
theorem field?_putEntry_of_ne (h : k ≠ .text name) :
    field? name (putEntry k v es) = field? name es := by
  induction es with
  | nil => exact field?_cons_of_ne h
  | cons e es ih =>
    by_cases he : sameKey k e.1 = true
    · have hne : e.1 ≠ .text name := fun heq => h (sameKey_iff_text.mp (heq ▸ he))
      rw [putEntry_cons_of_eq he, field?_cons_of_ne hne]
      exact field?_cons_of_ne hne
    · rw [putEntry_cons_of_ne he]
      by_cases hname : e.1 = .text name
      · obtain ⟨_, w⟩ := e
        obtain rfl : _ = Value.text name := hname
        rw [field?_cons_self, field?_cons_self]
      · rw [field?_cons_of_ne hname, field?_cons_of_ne hname, ih]

/-- What was put under a name changes nothing under other names. -/
theorem field?_putField_of_ne (h : other ≠ name) :
    field? name (putField other v es) = field? name es :=
  field?_putEntry_of_ne fun heq => h (Value.text.inj heq)

/-- A value put under a name replaces the one put there before, in its place. -/
theorem putField_putField : putField name v (putField name w es) = putField name v es := by
  induction es with
  | nil =>
    show putField name v [(.text name, w)] = [(.text name, v)]
    exact putEntry_cons_of_eq (sameKey_text_iff.mpr rfl)
  | cons e es ih =>
    by_cases he : sameKey (.text name) e.1 = true
    · simp only [putField]
      rw [putEntry_cons_of_eq he, putEntry_cons_of_eq he]
      exact putEntry_cons_of_eq he
    · simp only [putField] at ih ⊢
      rw [putEntry_cons_of_ne he, putEntry_cons_of_ne he, putEntry_cons_of_ne he, ih]

/-- Values put under two names may be put in either order, if one of the names is there already.
Otherwise the order of the new entries would differ. -/
theorem putField_comm (h : other ≠ name) (present : (field? name es).isSome = true) :
    putField name v (putField other w es) = putField other w (putField name v es) := by
  induction es with
  | nil => cases present
  | cons e es ih =>
    obtain ⟨key, u⟩ := e
    by_cases hname : key = .text name
    · have hother : ¬sameKey (.text other) key = true := fun heq =>
        h (Value.text.inj ((sameKey_text_iff.mp heq).symm.trans hname))
      have hself : sameKey (.text name) key = true := sameKey_text_iff.mpr hname
      simp only [putField]
      rw [putEntry_cons_of_ne hother, putEntry_cons_of_eq hself, putEntry_cons_of_eq hself,
        putEntry_cons_of_ne hother]
    · have hne := mt sameKey_text_iff.mp hname
      rw [field?_cons_of_ne hname] at present
      simp only [putField] at ih ⊢
      by_cases hother : sameKey (.text other) key = true
      · rw [putEntry_cons_of_eq hother, putEntry_cons_of_ne hne, putEntry_cons_of_ne hne,
          putEntry_cons_of_eq hother]
      · rw [putEntry_cons_of_ne hother, putEntry_cons_of_ne hne, putEntry_cons_of_ne hne,
          putEntry_cons_of_ne hother, ih present]

theorem field?_of_not_mem (h : .text name ∉ es.map Prod.fst) : field? name es = none := by
  induction es with
  | nil => rfl
  | cons e es ih =>
    rw [List.map_cons, List.mem_cons, not_or] at h
    rw [field?_cons_of_ne (Ne.symm h.1), ih h.2]

end Fields

/-! ## Laying one mapping over another -/

theorem isMap_eq_false_or (v : Value) : v.isMap = false ∨ ∃ es, v = .map es := by
  cases v with
  | map es => exact .inr ⟨es, rfl⟩
  | _ => exact .inl rfl

/-- What is no mapping takes the place of whatever it is laid over. -/
theorem laidOver_of_not_map {v : Value} (h : v.isMap = false) (old : Option Value) :
    laidOver old v = v := by
  cases v with
  | map es => cases h
  | _ => rfl

theorem laidOver_none (v : Value) : laidOver none v = v := by
  cases v <;> rfl

theorem layEntries_cons (base : List (Value × Value)) (k v : Value)
    (updates : List (Value × Value)) : layEntries base ((k, v) :: updates) =
      layEntries (putEntry k (laidOver (lookup? k base) v) base) updates := rfl

/-- A single entry is laid over what stands under its name. -/
theorem layEntries_singleton (base : List (Value × Value)) (name : String) (v : Value) :
    layEntries base [(.text name, v)] =
      putField name (laidOver (field? name base) v) base := rfl

/-- No name is a key twice, as in every mapping. -/
def NamesOnce (es : List (Value × Value)) : Prop :=
  es.Pairwise fun e f => ∀ name, e.1 = .text name → f.1 ≠ .text name

theorem namesOnce_of_nodup {es : List (Value × Value)} (h : (es.map Prod.fst).Nodup) :
    NamesOnce es := by
  refine (List.pairwise_map.mp h).imp ?_
  intro e f hne name he hf
  exact hne (he.trans hf.symm)

/-- The name of the first entry does not stand further on. -/
theorem NamesOnce.of_cons {e : Value × Value} {es : List (Value × Value)}
    (h : NamesOnce (e :: es)) :
    (∀ name, e.1 = .text name → .text name ∉ es.map Prod.fst) ∧ NamesOnce es := by
  obtain ⟨hfirst, hrest⟩ := List.pairwise_cons.mp h
  refine ⟨fun name he hmem => ?_, hrest⟩
  obtain ⟨f, hf, hkey⟩ := List.mem_map.mp hmem
  exact hfirst f hf name he hkey

/-- What stands under a name after settings were laid over others: what stood there before, if the
settings say nothing about it, or else what they say, laid over it. -/
theorem field?_layEntries {updates : List (Value × Value)} (distinct : NamesOnce updates)
    (base : List (Value × Value)) (name : String) : field? name (layEntries base updates) =
      match field? name updates with
      | none => field? name base
      | some v => some (laidOver (field? name base) v) := by
  induction updates generalizing base with
  | nil => rfl
  | cons e updates ih =>
    obtain ⟨k, v⟩ := e
    obtain ⟨absent, distinct⟩ := distinct.of_cons
    rw [layEntries_cons, ih distinct]
    by_cases hk : k = .text name
    · subst hk
      rw [field?_of_not_mem (absent name rfl), field?_cons_self]
      exact field?_putField_self
    · rw [field?_putEntry_of_ne hk, field?_cons_of_ne hk]

/-- Settings that are not empty leave no mapping empty. -/
theorem layEntries_ne_nil {base updates : List (Value × Value)} (h : base ≠ [] ∨ updates ≠ []) :
    layEntries base updates ≠ [] := by
  induction updates generalizing base with
  | nil => exact h.resolve_right fun hne => hne rfl
  | cons e updates ih =>
    refine ih (.inl ?_)
    cases base with
    | nil => exact List.cons_ne_nil _ _
    | cons b base =>
      rw [putEntry, Entries.putBy]
      split <;> exact List.cons_ne_nil _ _

/-- The keys are names, each of them once. -/
structure Named (es : List (Value × Value)) : Prop where
  names : ∀ k ∈ es.map Prod.fst, ∃ name, k = .text name
  distinct : (es.map Prod.fst).Nodup

theorem Named.namesOnce {es : List (Value × Value)} (h : Named es) : NamesOnce es :=
  namesOnce_of_nodup h.distinct

/-- The first of named entries has a name for its key that does not stand further on. -/
theorem Named.of_cons {k v : Value} {es : List (Value × Value)} (h : Named ((k, v) :: es)) :
    ∃ name, k = .text name ∧ .text name ∉ es.map Prod.fst ∧ Named es := by
  obtain ⟨name, rfl⟩ := h.names k List.mem_cons_self
  obtain ⟨hnot, hdistinct⟩ := List.nodup_cons.mp h.distinct
  exact ⟨name, rfl, hnot, fun k hk => h.names k (List.mem_cons_of_mem _ hk), hdistinct⟩

section Put

variable {name : String} {v : Value} {base updates : List (Value × Value)}

/-- A value under a name that is there already may be put before or after settings are laid over,
if they say nothing about the name. -/
theorem putField_layEntries (named : Named updates) (absent : .text name ∉ updates.map Prod.fst)
    (present : (field? name base).isSome = true) :
    putField name v (layEntries base updates) = layEntries (putField name v base) updates := by
  induction updates generalizing base with
  | nil => rfl
  | cons e updates ih =>
    obtain ⟨k, w⟩ := e
    obtain ⟨other, rfl, -, named⟩ := named.of_cons
    rw [List.map_cons, List.mem_cons, not_or] at absent
    have hother : other ≠ name := fun heq => absent.1 (congrArg Value.text heq.symm)
    have hfield : lookup? (.text other) (putField name v base) = lookup? (.text other) base :=
      field?_putField_of_ne (Ne.symm hother)
    rw [layEntries_cons, layEntries_cons, hfield, ih named absent.2]
    · exact congrArg (layEntries · updates) (putField_comm hother present)
    · exact (congrArg Option.isSome (field?_putField_of_ne hother)).trans present

/-- A value put among settings that are then laid over others is laid over what stood there. So
collecting an override and laying it over commute. -/
theorem layEntries_putField (named : Named updates) :
    layEntries base (putField name v updates) =
      putField name (laidOver (field? name base) v) (layEntries base updates) := by
  induction updates generalizing base with
  | nil => rfl
  | cons e updates ih =>
    obtain ⟨k, w⟩ := e
    obtain ⟨other, rfl, absent, named⟩ := named.of_cons
    by_cases hother : other = name
    · subst hother
      have hput : putField other v ((.text other, w) :: updates) = (.text other, v) :: updates :=
        putEntry_cons_of_eq (sameKey_text_iff.mpr rfl)
      have hpresent :
          (field? other (putField other (laidOver (field? other base) w) base)).isSome = true := by
        rw [field?_putField_self]
        rfl
      rw [hput, layEntries_cons, layEntries_cons]
      exact ((putField_layEntries named absent hpresent).trans
        (congrArg (layEntries · updates) putField_putField)).symm
    · have hput : putField name v ((.text other, w) :: updates) =
          (.text other, w) :: putField name v updates :=
        putEntry_cons_of_ne fun heq => hother (Value.text.inj (sameKey_text_iff.mp heq))
      rw [hput, layEntries_cons, layEntries_cons, ih named]
      exact congrArg (fun old => putField name (laidOver old v) _) (field?_putField_of_ne hother)

/-- Putting a value under a name adds no key but this name. -/
theorem eq_or_mem_of_mem_putField {k : Value} (h : k ∈ (putField name v base).map Prod.fst) :
    k = .text name ∨ k ∈ base.map Prod.fst := by
  induction base with
  | nil => exact .inl (List.mem_singleton.mp h)
  | cons e es ih =>
    by_cases he : sameKey (.text name) e.1 = true
    · rw [putField, putEntry_cons_of_eq he] at h
      exact .inr h
    · rw [putField, putEntry_cons_of_ne he] at h
      rcases List.mem_cons.mp h with rfl | h
      · exact .inr List.mem_cons_self
      · exact (ih h).imp_right (List.mem_cons_of_mem _)

/-- Putting a value under a name keeps the keys different names. If the name was there, the value
takes its place. -/
theorem Named.putField (named : Named base) (name : String) (v : Value) :
    Named (putField name v base) := by
  refine ⟨fun k hk => ?_, ?_⟩
  · rcases eq_or_mem_of_mem_putField hk with rfl | hk
    · exact ⟨name, rfl⟩
    · exact named.names k hk
  · induction base with
    | nil => exact List.pairwise_singleton _ _
    | cons e es ih =>
      by_cases he : sameKey (.text name) e.1 = true
      · rw [Value.putField, putEntry_cons_of_eq he]
        exact named.distinct
      · obtain ⟨key, w⟩ := e
        obtain ⟨other, rfl, absent, namedRest⟩ := named.of_cons
        rw [Value.putField, putEntry_cons_of_ne he, List.map_cons, List.nodup_cons]
        refine ⟨fun hmem => ?_, ih namedRest⟩
        rcases eq_or_mem_of_mem_putField hmem with heq | hmem
        · exact he (sameKey_text_iff.mpr heq)
        · exact absent hmem

end Put

/-- Settings laid over nothing say what they say alone. -/
theorem field?_layEntries_nil {es : List (Value × Value)} (distinct : NamesOnce es)
    (name : String) : field? name (layEntries [] es) = field? name es := by
  rw [field?_layEntries distinct]
  cases field? name es with
  | none => rfl
  | some v => exact congrArg some (laidOver_none v)

theorem ofName?_shown_map (es : List (Value × Value)) :
    OutputFormat.ofName? (Value.map es).shown = none := by
  cases h : OutputFormat.ofName? (Value.map es).shown with
  | none => rfl
  | some f =>
    have hname := OutputFormat.ofName?_eq_some_iff.mp h
    have hhead := congrArg (fun s : String => s.toList.head?) hname
    cases f <;> simp [OutputFormat.name, shown, literal] at hhead

end Value

/-! ## Options under settings -/

namespace Options

open Value

/-- What the output section says, option by option. -/
structure OutputReading where
  showsTypes : Except OptionFault Bool
  showsSubstitution : Except OptionFault Bool
  emits : Except OptionFault Bool
  format : Except OptionFault OutputFormat

/-- How the output section is read. -/
def readOutput (es : List (Value × Value)) : OutputReading where
  showsTypes := truth false (field? "show_types" es)
  showsSubstitution := truth false (field? "show_substitution" es)
  emits := truth false (field? "emit_javascript" es)
  format := formatOf es

/-- How the inference section is read. -/
def readInference (es : List (Value × Value)) : Except OptionFault Bool :=
  truth true (field? "enabled" es)

/-- The options that the two sections say, if both are there to be read. -/
def ofReadings (inference : Except OptionFault (Except OptionFault Bool))
    (output : Except OptionFault OutputReading) : Except OptionFault Options := do
  let inference ← inference
  let output ← output
  let infers ← inference
  let showsTypes ← output.showsTypes
  let showsSubstitution ← output.showsSubstitution
  let emits ← output.emits
  let format ← output.format
  return { infers, format, showsTypes, showsSubstitution, emits }

/-- Options depend on what their sections say and on nothing else. Other sections and other names
are not looked at. -/
theorem ofEntries_eq_ofReadings (es : List (Value × Value)) :
    ofEntries es = ofReadings ((sectionOf "inference" es).map readInference)
      ((sectionOf "output" es).map readOutput) := by
  unfold ofEntries
  cases sectionOf "inference" es with
  | error f => rfl
  | ok inference => cases sectionOf "output" es <;> rfl

/-- Entries that give options have both sections, which say those options. A section that is missing
counts as one that says nothing. -/
theorem exists_sections_of_ofEntries {es : List (Value × Value)} {c : Options}
    (h : ofEntries es = .ok c) :
    ∃ inference output, sectionOf "inference" es = .ok inference ∧
      sectionOf "output" es = .ok output ∧ readInference inference = .ok c.infers ∧
      readOutput output =
        ⟨.ok c.showsTypes, .ok c.showsSubstitution, .ok c.emits, .ok c.format⟩ := by
  unfold ofEntries at h
  obtain ⟨inference, hinference, h⟩ := exists_of_bind_eq_ok h
  obtain ⟨output, houtput, h⟩ := exists_of_bind_eq_ok h
  obtain ⟨infers, hinfers, h⟩ := exists_of_bind_eq_ok h
  obtain ⟨showsTypes, htypes, h⟩ := exists_of_bind_eq_ok h
  obtain ⟨showsSubstitution, hsubstitution, h⟩ := exists_of_bind_eq_ok h
  obtain ⟨emits, hemits, h⟩ := exists_of_bind_eq_ok h
  obtain ⟨format, hformat, h⟩ := exists_of_bind_eq_ok h
  cases h
  refine ⟨inference, output, hinference, houtput, hinfers, ?_⟩
  rw [readOutput, htypes, hsubstitution, hemits, hformat]

/-- The sections, each with its options that are true or false. -/
def truthNames : List (String × List String) :=
  [("inference", ["enabled"]), ("output", ["show_types", "show_substitution", "emit_javascript"])]

/-- Settings of a section that are read the same over whatever they are laid: no name is a key
twice, and none of the options that are true or false is an empty mapping. -/
structure SteadySection (options : List String) (es : List (Value × Value)) : Prop where
  distinct : NamesOnce es
  filled : ∀ name ∈ options, field? name es ≠ some (.map [])

/-- Settings whose sections are read the same over whatever they are laid. -/
structure Steady (updates : List (Value × Value)) : Prop where
  distinct : NamesOnce updates
  sections : ∀ s ∈ truthNames, ∀ es, field? s.1 updates = some (.map es) → SteadySection s.2 es

section Sections

variable {options : List String} {es s s' : List (Value × Value)}

/-- A truth value that is not an empty mapping is read the same over whatever it is laid. An empty
mapping is false alone, and it is true once it is laid over a mapping that is not empty. -/
theorem truth_laidOver {v : Value} (h : v ≠ .map []) (default : Bool) (old : Option Value) :
    truth default (some (laidOver old v)) = truth default (some v) := by
  rcases isMap_eq_false_or v with hv | ⟨updates, rfl⟩
  · rw [laidOver_of_not_map hv]
  · have hupdates : updates ≠ [] := fun heq => h (congrArg Value.map heq)
    have htrue : ∀ {es : List (Value × Value)}, es ≠ [] →
        truth default (some (.map es)) = .ok true := by
      intro es hes
      cases es with
      | nil => exact absurd rfl hes
      | cons e es => rfl
    rw [htrue hupdates]
    rcases old with _ | old
    · exact htrue hupdates
    · cases old with
      | map base => exact htrue (layEntries_ne_nil (.inr hupdates))
      | _ => exact htrue hupdates

/-- A truth value that two sections agree on is one that they agree on after the same steady
settings were laid over both. -/
theorem truth_layEntries_congr (steady : SteadySection options es) {name : String}
    (mem : name ∈ options) {default : Bool}
    (h : truth default (field? name s) = truth default (field? name s')) :
    truth default (field? name (layEntries s es)) =
      truth default (field? name (layEntries s' es)) := by
  rw [field?_layEntries steady.distinct, field?_layEntries steady.distinct]
  have hfilled := steady.filled name mem
  cases hv : field? name es with
  | none => exact h
  | some v =>
    have hne : v ≠ .map [] := fun heq => hfilled (hv.trans (congrArg some heq))
    exact (truth_laidOver hne default _).trans (truth_laidOver hne default _).symm

/-- What stands for a format is no mapping, so anything laid over it takes its place and nothing of
it is left. -/
theorem laidOver_format {f : OutputFormat} (h : formatOf s = .ok f) (v : Value) :
    laidOver (field? "format" s) v = v := by
  unfold formatOf at h
  cases hold : field? "format" s with
  | none => exact laidOver_none v
  | some old =>
    rw [hold] at h
    cases old with
    | map base =>
      simp only [ofName?_shown_map] at h
      cases h
    | _ => cases v <;> rfl

theorem formatOf_layEntries_congr (distinct : NamesOnce es) {f : OutputFormat}
    (h : formatOf s = .ok f) (h' : formatOf s' = .ok f) :
    formatOf (layEntries s es) = formatOf (layEntries s' es) := by
  cases hv : field? "format" es with
  | none =>
    have hkept : ∀ base, formatOf (layEntries base es) = formatOf base := by
      intro base
      unfold formatOf
      rw [field?_layEntries distinct, hv]
    rw [hkept, hkept, h, h']
  | some v =>
    unfold formatOf
    rw [field?_layEntries distinct, field?_layEntries distinct, hv]
    simp only [laidOver_format h, laidOver_format h']

/-- Sections that say the same about inference still do when the same steady settings are laid over
both. -/
theorem readInference_layEntries_congr (steady : SteadySection ["enabled"] es)
    (h : readInference s = readInference s') :
    readInference (layEntries s es) = readInference (layEntries s' es) :=
  truth_layEntries_congr steady (by decide) h

/-- Sections that say the same about the output still do when the same steady settings are laid over
both. -/
theorem readOutput_layEntries_congr
    (steady : SteadySection ["show_types", "show_substitution", "emit_javascript"] es)
    {f : OutputFormat} (h : readOutput s = readOutput s') (format : formatOf s = .ok f) :
    readOutput (layEntries s es) = readOutput (layEntries s' es) := by
  have htypes := truth_layEntries_congr steady (by decide) (congrArg OutputReading.showsTypes h)
  have hsubstitution :=
    truth_layEntries_congr steady (by decide) (congrArg OutputReading.showsSubstitution h)
  have hemits := truth_layEntries_congr steady (by decide) (congrArg OutputReading.emits h)
  have hformat' : formatOf s' = .ok f := (congrArg OutputReading.format h).symm.trans format
  have hformat := formatOf_layEntries_congr steady.distinct format hformat'
  rw [readOutput, htypes, hsubstitution, hemits, hformat]
  rfl

variable {ρ : Type} {read : List (Value × Value) → ρ} {name : String}
  {base base' updates : List (Value × Value)}

/-- A section after settings were laid over the whole, through a reading that only looks up names. A
section that is set to null says nothing, one that is given is laid over what was there, and
anything else is refused. -/
theorem sectionOf_layEntries
    (fields : ∀ es es', (∀ n, field? n es = field? n es') → read es = read es')
    (steady : Steady updates) (mem : (name, options) ∈ truthNames)
    (h : sectionOf name base = .ok s) :
    (sectionOf name (layEntries base updates)).map read =
      match field? name updates with
      | none => .ok (read s)
      | some .null => .ok (read [])
      | some (.map es) => .ok (read (layEntries s es))
      | some _ => .error (.sectionKind name) := by
  cases hv : field? name updates with
  | none =>
    have hkept : sectionOf name (layEntries base updates) = sectionOf name base := by
      unfold sectionOf
      rw [field?_layEntries steady.distinct, hv]
    rw [hkept, h]
    rfl
  | some v =>
    have hnew : field? name (layEntries base updates) = some (laidOver (field? name base) v) := by
      rw [field?_layEntries steady.distinct, hv]
    unfold sectionOf at h ⊢
    rw [hnew]
    cases v with
    | map es =>
      -- over a section that is not there the settings stand as they are
      have halone : read (layEntries [] es) = read es :=
        fields _ _ (field?_layEntries_nil (steady.sections _ mem es hv).distinct)
      split at h
      · next hold =>
        cases h
        rw [hold]
        exact congrArg Except.ok halone.symm
      · next hold =>
        cases h
        rw [hold]
        exact congrArg Except.ok halone.symm
      · next hold =>
        cases h
        rw [hold]
        rfl
      · cases h
    | _ => rfl

/-- If one section of two settings reads the same, it still does when the same steady settings are
laid over both, or both are refused. The condition `laid` says so for the inside of the section;
`readInference_layEntries_congr` and `readOutput_layEntries_congr` meet it. -/
theorem sectionOf_layEntries_congr
    (fields : ∀ es es', (∀ n, field? n es = field? n es') → read es = read es')
    (steady : Steady updates) (mem : (name, options) ∈ truthNames) (h : sectionOf name base = .ok s)
    (h' : sectionOf name base' = .ok s') (same : read s = read s')
    (laid : ∀ es, SteadySection options es → read (layEntries s es) = read (layEntries s' es)) :
    (sectionOf name (layEntries base updates)).map read =
      (sectionOf name (layEntries base' updates)).map read := by
  rw [sectionOf_layEntries fields steady mem h, sectionOf_layEntries fields steady mem h']
  split
  · rw [same]
  · rfl
  · next es hes => rw [laid es (steady.sections _ mem es hes)]
  · rfl

end Sections

/-- Entries that give the same options still do when the same steady settings are laid over both. So
entries may be replaced by the options they give, and nothing is lost by reading in between. -/
theorem ofEntries_layEntries {es es' updates : List (Value × Value)} {c : Options}
    (steady : Steady updates) (h : ofEntries es = .ok c) (h' : ofEntries es' = .ok c) :
    ofEntries (layEntries es updates) = ofEntries (layEntries es' updates) := by
  obtain ⟨inference, output, hinference, houtput, hinfers, hshown⟩ :=
    exists_sections_of_ofEntries h
  obtain ⟨inference', output', hinference', houtput', hinfers', hshown'⟩ :=
    exists_sections_of_ofEntries h'
  have sameInference := hinfers.trans hinfers'.symm
  have sameOutput := hshown.trans hshown'.symm
  have format : formatOf output = .ok c.format := congrArg OutputReading.format hshown
  rw [ofEntries_eq_ofReadings, ofEntries_eq_ofReadings]
  congr 1
  · refine sectionOf_layEntries_congr (fun es es' hes => ?_) steady List.mem_cons_self hinference
      hinference' sameInference fun es hes => readInference_layEntries_congr hes sameInference
    rw [readInference, readInference, hes]
  · refine sectionOf_layEntries_congr (fun es es' hes => ?_) steady
      (List.mem_cons_of_mem _ List.mem_cons_self) houtput
      houtput' sameOutput fun es hes => readOutput_layEntries_congr hes sameOutput format
    simp only [readOutput, formatOf, hes]

/-- Merging is laying over the written options, also when there is nothing to lay. -/
theorem merge_eq_ofEntries (c : Options) (updates : List (Value × Value)) :
    c.merge updates = ofEntries (layEntries c.toEntries updates) := by
  cases updates with
  | nil => exact (ofEntries_toEntries c).symm
  | cons e updates => rfl

/-- Steady settings may be merged into options or laid over any entries that give them. -/
theorem merge_of_ofEntries {es updates : List (Value × Value)} {c : Options}
    (steady : Steady updates) (h : ofEntries es = .ok c) :
    c.merge updates = ofEntries (layEntries es updates) := by
  rw [merge_eq_ofEntries]
  exact ofEntries_layEntries steady (ofEntries_toEntries c) h

end Options

end TypedSexp
