import Mathlib.Tactic.Common
import TypedSexp.Proofs.Setting.Layered
import TypedSexp.Setting.Override

/-!
# Overrides collected and overrides merged

Overrides are collected into one mapping, which is then merged into options. Each of them could
also be merged by itself, one after another: the options in between are read, checked and written
out again at every step. Where the collecting and all those merges succeed the result is the same
(`Override.collect_merges`).

Overrides that are well formed and whose values can be read are refused exactly where one leads
through a value that is no mapping. This is said of the beginnings of its path
(`Override.Blocked`), by looking values up from the outside.

Left out are overrides whose value is a mapping, and the case that one of the merges fails: what it
refuses may be replaced by a later override, and then what was collected can be merged all the same.
-/

namespace TypedSexp

/-- The value that a path of names leads to inside a value. -/
def Value.at? : List String → Value → Option Value
  | [], v => some v
  | name :: path, .map es => (field? name es).bind (at? path)
  | _ :: _, _ => none

namespace Override

open Value

/-- All names of the key, the innermost last. -/
def path (o : Override) : List String := o.sections ++ [o.name]

/-- A path leads through a value that is no mapping: one of its proper beginnings leads to it. -/
def Blocked (path : List String) (es : List (Value × Value)) : Prop :=
  ∃ front v, front <+: path ∧ front ≠ path ∧ at? front (.map es) = some v ∧ v.isMap = false

/-- Some override leads through a value that is no mapping after those before it were collected. -/
def Conflicting (items : List String) : Prop :=
  ∃ before item after o es, items = before ++ item :: after ∧ collect before = .ok es ∧
    parse item = .ok o ∧ Blocked o.path es

/-! ## Where putting a value fails -/

section Put

variable {conflict : OverrideFault} {name part : String} {parts sections : List String}
  {es : List (Value × Value)}

/-- A beginning that is not the whole path ends among the sections. -/
theorem blocked_concat_iff : Blocked (sections ++ [name]) es ↔
    ∃ front v, front <+: sections ∧ at? front (.map es) = some v ∧ v.isMap = false := by
  constructor
  · rintro ⟨front, v, hfront, hne, hat, hv⟩
    exact ⟨front, v, (List.prefix_concat_iff.mp hfront).resolve_left hne, hat, hv⟩
  · rintro ⟨front, v, hfront, hat, hv⟩
    refine ⟨front, v, hfront.trans (List.prefix_append _ _), ?_, hat, hv⟩
    rintro rfl
    exact absurd hfront.length_le (by simp)

/-- A name that stands outside of all sections is not blocked. -/
theorem not_blocked_nil : ¬Blocked [name] es := by
  rw [← List.nil_append [name], blocked_concat_iff]
  rintro ⟨front, v, hfront, hat, hv⟩
  obtain rfl := List.prefix_nil.mp hfront
  cases hat
  cases hv

/-- A path is blocked at its first section, if something else than a mapping stands there, or
further on inside of the mapping that stands there. -/
theorem blocked_cons_iff : Blocked (part :: parts ++ [name]) es ↔
    ∃ v, field? part es = some v ∧
      (v.isMap = false ∨ ∃ inner, v = .map inner ∧ Blocked (parts ++ [name]) inner) := by
  simp only [blocked_concat_iff]
  constructor
  · rintro ⟨front, v, hfront, hat, hv⟩
    rcases List.prefix_cons_iff.mp hfront with rfl | ⟨rest, rfl, hrest⟩
    · cases hat
      cases hv
    · obtain ⟨w, hw, hat⟩ := Option.bind_eq_some_iff.mp hat
      refine ⟨w, hw, (isMap_eq_false_or w).imp_right ?_⟩
      rintro ⟨inner, rfl⟩
      exact ⟨inner, rfl, rest, v, hrest, hat, hv⟩
  · rintro ⟨v, hv, hmap | ⟨inner, rfl, front, w, hfront, hat, hw⟩⟩
    · exact ⟨[part], v, ⟨parts, rfl⟩, Option.bind_eq_some_iff.mpr ⟨v, hv, rfl⟩, hmap⟩
    · exact ⟨part :: front, w, List.cons_prefix_cons.mpr ⟨rfl, hfront⟩,
        Option.bind_eq_some_iff.mpr ⟨_, hv, hat⟩, hw⟩

/-- On a blocked path nothing can be put, and the value is not even read. So a conflict is reported
before a value that is wrong. -/
theorem put_of_blocked (value : Except OverrideFault Value) (h : Blocked (sections ++ [name]) es) :
    put conflict value name sections es = .error conflict := by
  induction sections generalizing es with
  | nil => exact absurd h not_blocked_nil
  | cons part parts ih =>
    obtain ⟨v, hv, hmap | ⟨inner, rfl, hinner⟩⟩ := blocked_cons_iff.mp h
    · rw [put, hv]
      cases v with
      | map inner => cases hmap
      | _ => rfl
    · rw [put, hv]
      exact congrArg (Except.map _) (ih hinner)

theorem not_blocked_empty : ¬Blocked (sections ++ [name]) [] := by
  cases sections with
  | nil => exact not_blocked_nil
  | cons part parts =>
    intro h
    obtain ⟨v, hv, -⟩ := blocked_cons_iff.mp h
    cases hv

/-- On a path that is not blocked any value can be put, and the value alone decides whether this
succeeds. -/
theorem exists_put_of_not_blocked (h : ¬Blocked (sections ++ [name]) es) :
    ∃ f, ∀ value, put conflict value name sections es = value.map f := by
  induction sections generalizing es with
  | nil => exact ⟨fun v => putField name v es, fun _ => rfl⟩
  | cons part parts ih =>
    have inside : ∀ inner, ¬Blocked (parts ++ [name]) inner → ∃ f, ∀ value,
        (put conflict value name parts inner).map
          (fun inner => putField part (.map inner) es) = value.map f := by
      intro inner hinner
      obtain ⟨f, hf⟩ := ih hinner
      refine ⟨fun v => putField part (.map (f v)) es, fun value => ?_⟩
      rw [hf]
      cases value <;> rfl
    cases hfield : field? part es with
    | none =>
      simp only [put, hfield]
      exact inside [] not_blocked_empty
    | some v =>
      rcases isMap_eq_false_or v with hmap | ⟨inner, rfl⟩
      · exact absurd (blocked_cons_iff.mpr ⟨v, hfield, .inl hmap⟩) h
      · simp only [put, hfield]
        exact inside inner fun hinner =>
          h (blocked_cons_iff.mpr ⟨_, hfield, .inr ⟨inner, rfl, hinner⟩⟩)

end Put

/-! ## Where collecting fails -/

section Collect

variable {items : List String} {item : String} {o : Override}
  {es es' : List (Value × Value)} {f : OverrideFault}

theorem addItem_of_parse (h : parse item = .ok o) (es : List (Value × Value)) :
    addItem es item = o.add es := by
  rw [addItem, h]
  rfl

/-- An override whose value can be read is added by putting the value on its path. -/
theorem addItem_of_valueOf {v : Value} (ho : parse item = .ok o) (hv : valueOf o.text = .ok v)
    (es : List (Value × Value)) :
    addItem es item = put (.conflict o.key) (.ok v) o.name o.sections es := by
  rw [addItem_of_parse ho, add, hv]

/-- On a blocked path an override conflicts, and the fault names its key. -/
theorem add_of_blocked (h : Blocked o.path es) : o.add es = .error (.conflict o.key) :=
  put_of_blocked _ h

/-- On a path that is not blocked the only fault is that the value cannot be read. -/
theorem exists_add_of_not_blocked (h : ¬Blocked o.path es) :
    ∃ f, o.add es = (valueOf o.text).map f := by
  obtain ⟨f, hf⟩ := exists_put_of_not_blocked h
  exact ⟨f, hf _⟩

/-- An override that was added was well formed, with a value that could be read and was put on its
path. -/
theorem exists_of_addItem (h : addItem es item = .ok es') :
    ∃ o v, parse item = .ok o ∧ valueOf o.text = .ok v ∧
      put (.conflict o.key) (.ok v) o.name o.sections es = .ok es' := by
  obtain ⟨o, ho, hadd⟩ := exists_of_bind_eq_ok h
  by_cases hblocked : Blocked o.path es
  · rw [add_of_blocked hblocked] at hadd
    cases hadd
  · obtain ⟨f, hf⟩ := exists_add_of_not_blocked hblocked
    obtain ⟨v, hv, -⟩ := exists_of_map_eq_ok (hf.symm.trans hadd)
    exact ⟨o, v, ho, hv, (addItem_of_valueOf ho hv es).symm.trans h⟩

/-- Reading a value does not depend on what is there, so it is never what a conflict is about. -/
theorem valueOf_ne_conflict (text key : String) : valueOf text ≠ .error (.conflict key) := by
  intro h
  unfold valueOf at h
  dsimp only at h
  split at h
  · cases h
  · split at h
    · cases h
    · split at h
      · cases h
      · split at h <;> cases h

/-- Collecting that fails does so at an override after others that were collected. The overrides
after it are not looked at. -/
theorem exists_of_foldlM_addItem_error (h : items.foldlM addItem es = .error f) :
    ∃ before item after es', items = before ++ item :: after ∧
      before.foldlM addItem es = .ok es' ∧ addItem es' item = .error f := by
  induction items generalizing es with
  | nil => cases h
  | cons item items ih =>
    rw [List.foldlM_cons] at h
    rcases eq_error_or_of_bind_eq_error h with hitem | ⟨es₁, hitem, hrest⟩
    · exact ⟨[], item, items, es, rfl, rfl, hitem⟩
    · obtain ⟨before, item', after, es', rfl, hbefore, hfail⟩ := ih hrest
      refine ⟨item :: before, item', after, es', rfl, ?_, hfail⟩
      rw [List.foldlM_cons, hitem]
      exact hbefore

/-- Overrides of which one leads through a value that is no mapping are refused with a conflict.
Those before it have been collected; whatever comes after it is not looked at. -/
theorem collect_of_conflicting (h : Conflicting items) :
    ∃ key, collect items = .error (.conflict key) := by
  obtain ⟨before, item, after, o, es, rfl, hbefore, ho, hblocked⟩ := h
  refine ⟨o.key, ?_⟩
  unfold collect at hbefore ⊢
  rw [List.foldlM_append, hbefore]
  show ((item :: after).foldlM addItem es) = _
  rw [List.foldlM_cons, addItem_of_parse ho, add_of_blocked hblocked]
  rfl

/-- Well-formed overrides that are refused lead through a value that is no mapping, or one of
their values cannot be read. -/
theorem conflicting_or_of_collect_error (parsed : ∀ item ∈ items, ∃ o, parse item = .ok o)
    (h : collect items = .error f) : Conflicting items ∨
      ∃ item ∈ items, ∃ o, parse item = .ok o ∧ valueOf o.text = .error f := by
  obtain ⟨before, item, after, es, rfl, hbefore, hfail⟩ := exists_of_foldlM_addItem_error h
  have hmem : item ∈ before ++ item :: after := by simp
  obtain ⟨o, ho⟩ := parsed item hmem
  rw [addItem_of_parse ho] at hfail
  by_cases hblocked : Blocked o.path es
  · exact .inl ⟨before, item, after, o, es, rfl, hbefore, ho, hblocked⟩
  · obtain ⟨g, hg⟩ := exists_add_of_not_blocked hblocked
    exact .inr ⟨item, hmem, o, ho, eq_error_of_map_eq_error (hg.symm.trans hfail)⟩

end Collect

/-! ## What collected overrides look like -/

/-- Settings that overrides make whose values are no mappings. -/
inductive Built : List (Value × Value) → Prop
  | nil : Built []
  | value {es : List (Value × Value)} {name : String} {v : Value} (built : Built es)
      (plain : v.isMap = false) : Built (putField name v es)
  | inside {es inner : List (Value × Value)} {name : String} (built : Built es)
      (within : Built inner) : Built (putField name (.map inner) es)

/-- The settings of one value alone. -/
def alone (v : Value) (name : String) : List String → List (Value × Value)
  | [] => [(.text name, v)]
  | part :: parts => [(.text part, .map (alone v name parts))]

section Built

variable {conflict : OverrideFault} {name : String} {v : Value} {sections : List String}
  {es es' : List (Value × Value)}

/-- Settings that overrides make have different names as their keys, at every depth. -/
theorem Built.named (h : Built es) : Named es := by
  induction h with
  | nil => exact ⟨fun _ hk => absurd hk List.not_mem_nil, List.Pairwise.nil⟩
  | value _ _ ih => exact ih.putField _ _
  | inside _ _ ih _ => exact ih.putField _ _

/-- A mapping among such settings is made in the same way, as the mapping was made by overrides with
a longer path. -/
theorem Built.of_field? {inner : List (Value × Value)} (h : Built es)
    (hfield : field? name es = some (.map inner)) : Built inner := by
  induction h with
  | nil => cases hfield
  | @value es other v _ plain ih =>
    by_cases hother : other = name
    · subst hother
      rw [field?_putField_self] at hfield
      cases hfield
      cases plain
    · rw [field?_putField_of_ne hother] at hfield
      exact ih hfield
  | @inside es inner' other _ hinner ih _ =>
    by_cases hother : other = name
    · subst hother
      rw [field?_putField_self] at hfield
      cases hfield
      exact hinner
    · rw [field?_putField_of_ne hother] at hfield
      exact ih hfield

/-- What putting a value does: in each section on the way the inner settings are replaced. A section
that is not there yet is made. -/
theorem put_cons_cases {part : String} {parts : List String} {value : Except OverrideFault Value}
    (h : put conflict value name (part :: parts) es = .ok es') :
    ∃ inner', es' = putField part (.map inner') es ∧
      (field? part es = none ∧ put conflict value name parts [] = .ok inner' ∨
        ∃ inner, field? part es = some (.map inner) ∧
          put conflict value name parts inner = .ok inner') := by
  rw [put] at h
  split at h
  · next hfield =>
    obtain ⟨inner', hinner, rfl⟩ := exists_of_map_eq_ok h
    exact ⟨inner', rfl, .inl ⟨hfield, hinner⟩⟩
  · next inner hfield =>
    obtain ⟨inner', hinner, rfl⟩ := exists_of_map_eq_ok h
    exact ⟨inner', rfl, .inr ⟨inner, hfield, hinner⟩⟩
  · cases h

/-- A value that is put among no settings makes those that have it alone. -/
theorem put_nil (conflict : OverrideFault) (v : Value) (name : String) (sections : List String) :
    put conflict (.ok v) name sections [] = .ok (alone v name sections) := by
  induction sections with
  | nil => rfl
  | cons part parts ih =>
    show (put conflict (.ok v) name parts []).map (fun inner => putField part (.map inner) []) = _
    rw [ih]
    rfl

/-- Putting a value that is no mapping keeps settings built. -/
theorem Built.put (built : Built es) (plain : v.isMap = false)
    (h : put conflict (.ok v) name sections es = .ok es') : Built es' := by
  induction sections generalizing es es' with
  | nil =>
    cases h
    exact built.value plain
  | cons part parts ih =>
    obtain ⟨inner', rfl, ⟨-, hinner⟩ | ⟨inner, hfield, hinner⟩⟩ := put_cons_cases h
    · exact built.inside (ih .nil hinner)
    · exact built.inside (ih (built.of_field? hfield) hinner)

/-- A value put among settings is the value alone, laid over them. The value must be no mapping,
since mappings are joined when they are laid over each other. -/
theorem layEntries_alone (plain : v.isMap = false)
    (h : Override.put conflict (.ok v) name sections es = .ok es') :
    layEntries es (alone v name sections) = es' := by
  induction sections generalizing es es' with
  | nil =>
    cases h
    rw [alone, layEntries_singleton, laidOver_of_not_map plain]
  | cons part parts ih =>
    rw [alone, layEntries_singleton]
    obtain ⟨inner', rfl, ⟨hfield, hinner⟩ | ⟨inner, hfield, hinner⟩⟩ := put_cons_cases h
    · rw [put_nil] at hinner
      cases hinner
      rw [hfield, laidOver_none]
    · rw [hfield, laidOver, ih hinner]

/-- Settings with a value put among them, laid over others, are the settings and then the value
alone laid over them. This turns collecting into laying over step by step. -/
theorem layEntries_put (built : Built es) (plain : v.isMap = false)
    (h : Override.put conflict (.ok v) name sections es = .ok es') (base : List (Value × Value)) :
    layEntries base es' = layEntries (layEntries base es) (alone v name sections) := by
  induction sections generalizing es es' base with
  | nil =>
    cases h
    rw [alone, layEntries_putField built.named, layEntries_singleton, laidOver_of_not_map plain,
      laidOver_of_not_map plain]
  | cons part parts ih =>
    rw [alone, layEntries_singleton]
    obtain ⟨inner', rfl, ⟨hfield, hinner⟩ | ⟨inner, hfield, hinner⟩⟩ := put_cons_cases h
    · have hlaid : field? part (layEntries base es) = field? part base := by
        rw [field?_layEntries built.named.namesOnce, hfield]
      rw [put_nil] at hinner
      cases hinner
      rw [layEntries_putField built.named, hlaid]
    · have hlaid : field? part (layEntries base es) =
          some (laidOver (field? part base) (.map inner)) := by
        rw [field?_layEntries built.named.namesOnce, hfield]
      rw [layEntries_putField built.named, hlaid]
      congr 1
      have hover := ih (built.of_field? hfield) hinner
      have hstead := layEntries_alone plain hinner
      -- two mappings meet only where the base has one too
      rcases field? part base with _ | old
      · rw [laidOver_none, laidOver_none, laidOver, hstead]
      · cases old with
        | map b => simp only [laidOver, hover b]
        | _ => simp only [laidOver, hstead]

theorem field?_singleton {k w u : Value} (h : field? name [(k, w)] = some u) : u = w := by
  by_cases hk : k = .text name
  · subst hk
    rw [field?_cons_self] at h
    exact (Option.some.inj h).symm
  · rw [field?_cons_of_ne hk] at h
    cases h

theorem alone_ne_nil (v : Value) (name : String) (sections : List String) :
    alone v name sections ≠ [] := by
  cases sections <;> exact List.cons_ne_nil _ _

theorem alone_namesOnce (v : Value) (name : String) (sections : List String) :
    NamesOnce (alone v name sections) := by
  cases sections <;> exact List.pairwise_singleton _ _

/-- What stands under a name in the settings of one value is the value or such settings. -/
theorem eq_of_field?_alone {other : String} {w : Value}
    (h : field? other (alone v name sections) = some w) :
    w = v ∨ ∃ parts, w = .map (alone v name parts) := by
  cases sections with
  | nil => exact .inl (field?_singleton h)
  | cons part parts => exact .inr ⟨parts, field?_singleton h⟩

/-- The settings of one value are steady, if the value is no mapping. -/
theorem steady_alone (plain : v.isMap = false) (name : String) (sections : List String) :
    Options.Steady (alone v name sections) := by
  refine ⟨alone_namesOnce v name sections, fun other _ es hes => ?_⟩
  rcases eq_of_field?_alone hes with rfl | ⟨parts, heq⟩
  · cases plain
  · cases heq
    refine ⟨alone_namesOnce v name parts, fun option _ hempty => ?_⟩
    rcases eq_of_field?_alone hempty with rfl | ⟨parts', heq⟩
    · cases plain
    · exact alone_ne_nil v name parts' (Value.map.inj heq).symm

end Built

/-! ## Overrides merged one by one -/

/-- The value of an override is no mapping. -/
def Plain (item : String) : Prop :=
  ∀ o v, parse item = .ok o → valueOf o.text = .ok v → v.isMap = false

/-- An override is plain if its value can be read and is no mapping. -/
theorem plain_of_valueOf {item : String} {o : Override} {v : Value} (ho : parse item = .ok o)
    (hv : valueOf o.text = .ok v) (hmap : v.isMap = false) : Plain item := by
  intro o' v' ho' hv'
  cases ho.symm.trans ho'
  cases hv.symm.trans hv'
  exact hmap

/-- Options that overrides lead to when each is merged by itself, one after another. -/
inductive MergesEach : Options → List String → Options → Prop
  | nil {c : Options} : MergesEach c [] c
  | cons {c c₁ c₂ : Options} {item : String} {items : List String}
      {updates : List (Value × Value)} (collected : collect [item] = .ok updates)
      (merged : c.merge updates = .ok c₁) (rest : MergesEach c₁ items c₂) :
      MergesEach c (item :: items) c₂

section Merge

variable {c c₁ c₂ : Options} {item : String} {items : List String}
  {base es es' updates : List (Value × Value)}

/-- A single override is collected to the settings of its value alone. -/
theorem collect_alone {o : Override} {v : Value} (ho : parse item = .ok o)
    (hv : valueOf o.text = .ok v) : collect [item] = .ok (alone v o.name o.sections) := by
  unfold collect
  rw [List.foldlM_cons, addItem_of_valueOf ho hv, put_nil]
  rfl

/-- One override more: what was laid over the base before and merging the override alone give what
is now laid over the base. -/
theorem ofEntries_layEntries_addItem (plain : Plain item) (built : Built es)
    (before : Options.ofEntries (layEntries base es) = .ok c₁) (added : addItem es item = .ok es')
    (collected : collect [item] = .ok updates) (merged : c₁.merge updates = .ok c₂) :
    Built es' ∧ Options.ofEntries (layEntries base es') = .ok c₂ := by
  obtain ⟨o, v, ho, hv, hput⟩ := exists_of_addItem added
  have hplain : v.isMap = false := plain o v ho hv
  obtain rfl : alone v o.name o.sections = updates :=
    Except.ok.inj ((collect_alone ho hv).symm.trans collected)
  refine ⟨built.put hplain hput, ?_⟩
  calc Options.ofEntries (layEntries base es')
      = Options.ofEntries (layEntries (layEntries base es) (alone v o.name o.sections)) := by
        rw [layEntries_put built hplain hput]
    _ = c₁.merge (alone v o.name o.sections) :=
        (Options.merge_of_ofEntries (steady_alone hplain _ _) before).symm
    _ = .ok c₂ := merged

/-- Overrides collected onto settings and laid over the base give what merging them one by one
gives. The induction is over the overrides, with what was collected so far built. -/
theorem MergesEach.ofEntries_layEntries (merges : MergesEach c₁ items c₂)
    (plain : ∀ item ∈ items, Plain item) (built : Built es)
    (before : Options.ofEntries (layEntries base es) = .ok c₁)
    (collected : items.foldlM addItem es = .ok updates) :
    Options.ofEntries (layEntries base updates) = .ok c₂ := by
  induction merges generalizing es with
  | nil =>
    cases collected
    exact before
  | cons single merged _ ih =>
    rw [List.foldlM_cons] at collected
    obtain ⟨es₁, hadded, hrest⟩ := exists_of_bind_eq_ok collected
    obtain ⟨hbuilt, hnow⟩ := ofEntries_layEntries_addItem (plain _ List.mem_cons_self) built
      before hadded single merged
    exact ih (fun item hitem => plain item (List.mem_cons_of_mem _ hitem)) hbuilt hnow hrest

end Merge

/-- Overrides act like successive merges: where they are collected and can be merged one by one,
merging what was collected gives the same options. Overrides that are well formed conflict exactly
if one of them leads through a value that is no mapping, and nothing else makes them be refused if
their values can be read. -/
theorem collect_merges (items : List String) :
    (∀ (c c' : Options) (updates : List (Value × Value)), (∀ item ∈ items, Plain item) →
      collect items = .ok updates → MergesEach c items c' → c.merge updates = .ok c') ∧
    ((∀ item ∈ items, ∃ o, parse item = .ok o) →
      ((∃ key, collect items = .error (.conflict key)) ↔ Conflicting items)) ∧
    ((∀ item ∈ items, ∃ o v, parse item = .ok o ∧ valueOf o.text = .ok v) →
      ((∃ f, collect items = .error f) ↔ Conflicting items)) := by
  refine ⟨fun c c' updates plain collected merges => ?_, fun parsed => ⟨?_, collect_of_conflicting⟩,
    fun readable => ⟨?_, fun h => ?_⟩⟩
  · rw [Options.merge_eq_ofEntries]
    exact merges.ofEntries_layEntries plain .nil (Options.ofEntries_toEntries c) collected
  · rintro ⟨key, hfail⟩
    rcases conflicting_or_of_collect_error parsed hfail with h | ⟨item, -, o, -, hvalue⟩
    · exact h
    · exact absurd hvalue (valueOf_ne_conflict o.text key)
  · rintro ⟨f, hfail⟩
    have parsed : ∀ item ∈ items, ∃ o, parse item = .ok o := by
      intro item hitem
      obtain ⟨o, -, ho, -⟩ := readable item hitem
      exact ⟨o, ho⟩
    rcases conflicting_or_of_collect_error parsed hfail with h | ⟨item, hitem, o, ho, hvalue⟩
    · exact h
    · obtain ⟨o', v, ho', hv⟩ := readable item hitem
      cases ho.symm.trans ho'
      cases hvalue.symm.trans hv
  · obtain ⟨key, hkey⟩ := collect_of_conflicting h
    exact ⟨_, hkey⟩

/-- A setting below an option counts as true until the option itself is given, and cannot be given
after it. -/
theorem collect_merges_below :
    (∃ updates, collect ["output.show_types.x=true", "inference.enabled=False",
          "output.show_types=False"] = .ok updates ∧
        Options.merge { showsTypes := true } updates = .ok { infers := false }) ∧
      Conflicting ["output.show_types=False", "output.show_types.x=true"] := by
  have hbelow : parse "output.show_types.x=true" =
      .ok ⟨"output.show_types.x", ["output", "show_types"], "x", "true"⟩ := rfl
  have hdisable : parse "inference.enabled=False" =
      .ok ⟨"inference.enabled", ["inference"], "enabled", "False"⟩ := rfl
  have hhide : parse "output.show_types=False" =
      .ok ⟨"output.show_types", ["output"], "show_types", "False"⟩ := rfl
  have htrue : valueOf "true" = .ok (.bool true) := rfl
  have hfalse : valueOf "False" = .ok (.bool false) := rfl
  have hall : collect ["output.show_types.x=true", "inference.enabled=False",
      "output.show_types=False"] =
      .ok [(.text "output", .map [(.text "show_types", .bool false)]),
        (.text "inference", .map [(.text "enabled", .bool false)])] := by
    simp only [collect, List.foldlM_cons, List.foldlM_nil, addItem_of_valueOf hbelow htrue,
      addItem_of_valueOf hdisable hfalse, addItem_of_valueOf hhide hfalse]
    rfl
  have hconflict : collect ["output.show_types=False", "output.show_types.x=true"] =
      .error (.conflict "output.show_types.x") := by
    simp only [collect, List.foldlM_cons, List.foldlM_nil, addItem_of_valueOf hhide hfalse,
      addItem_of_valueOf hbelow htrue]
    rfl
  have hshown : Options.merge { showsTypes := true }
      (alone (.bool true) "x" ["output", "show_types"]) = .ok { showsTypes := true } := rfl
  have hdisabled : Options.merge { showsTypes := true }
      (alone (.bool false) "enabled" ["inference"]) =
        .ok { infers := false, showsTypes := true } := rfl
  have hhidden : Options.merge { infers := false, showsTypes := true }
      (alone (.bool false) "show_types" ["output"]) = .ok { infers := false } := rfl
  refine ⟨⟨_, hall, (collect_merges _).1 _ _ _ ?_ hall ?_⟩,
    ((collect_merges _).2.2 ?_).mp ⟨_, hconflict⟩⟩
  · simp only [List.forall_mem_cons, List.not_mem_nil, false_imp_iff, implies_true, and_true]
    exact ⟨plain_of_valueOf hbelow htrue rfl, plain_of_valueOf hdisable hfalse rfl,
      plain_of_valueOf hhide hfalse rfl⟩
  · exact .cons (collect_alone hbelow htrue) hshown
      (.cons (collect_alone hdisable hfalse) hdisabled
        (.cons (collect_alone hhide hfalse) hhidden .nil))
  · simp only [List.forall_mem_cons, List.not_mem_nil, false_imp_iff, implies_true, and_true]
    exact ⟨⟨_, _, hhide, hfalse⟩, ⟨_, _, hbelow, htrue⟩⟩

end Override

end TypedSexp
