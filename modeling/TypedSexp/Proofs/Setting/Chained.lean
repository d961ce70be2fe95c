import Mathlib.Tactic.Common
import TypedSexp.Proofs.Setting.Layered

/-!
# Merges in a row

Every merge reads the merged settings as options and writes them out again for the next one: names
that are no options are dropped, words for true and false become truth values, and what is left out
or nothing becomes a default. Nothing is lost by that. The options after a row of merges are those
that are read at the end from the settings laid over each other as they were given
(`Options.merge_row`).

Settings may be any mappings, with sections that are mappings, nothing or left out and with any
other names. Only an option itself is given no mapping (`Options.Flat`).

A row in which a merge fails is left out. What one merge refuses may be replaced by the next
settings, so that all of them laid over each other are read without a failure.
-/

namespace TypedSexp.Options

open Value

/-- The sections, each with its options. -/
def optionNames : List (String × List String) :=
  [("inference", ["enabled"]),
   ("output", ["format", "show_types", "show_substitution", "emit_javascript"])]

/-- Settings of a section that give none of the options a mapping. -/
structure FlatSection (options : List String) (es : List (Value × Value)) : Prop where
  distinct : NamesOnce es
  plain : ∀ name ∈ options, ∀ v, field? name es = some v → v.isMap = false

/-- Settings that give no option a mapping. -/
structure Flat (updates : List (Value × Value)) : Prop where
  distinct : NamesOnce updates
  sections : ∀ s ∈ optionNames, ∀ es, field? s.1 updates = some (.map es) → FlatSection s.2 es

/-- A section that gives none of its options a mapping is steady: no option can be an empty mapping
then. -/
theorem FlatSection.steadySection {options truths : List String} {es : List (Value × Value)}
    (h : FlatSection options es) (sub : truths ⊆ options) : SteadySection truths es where
  distinct := h.distinct
  filled name mem hempty := by
    have hplain := h.plain name (sub mem) _ hempty
    cases hplain

/-- Settings whose sections are flat are steady. To be flat is seen from the settings alone; to be
steady is what laying over needs. -/
theorem Flat.steady {updates : List (Value × Value)} (h : Flat updates) : Steady updates where
  distinct := h.distinct
  sections := by
    have hinference := h.sections _ List.mem_cons_self
    have houtput := h.sections _ (List.mem_cons_of_mem _ List.mem_cons_self)
    simp only [truthNames, List.forall_mem_cons, List.not_mem_nil, false_imp_iff, implies_true,
      and_true]
    exact ⟨fun es hes => (hinference es hes).steadySection (List.Subset.refl _),
      fun es hes => (houtput es hes).steadySection (List.subset_cons_self _ _)⟩

/-- Merges in a row, from entries that give the options before the first of them: each merge gives
the options that are read after its settings are laid over the entries too. The induction is over
the row. -/
theorem ofEntries_foldl_layEntries {c c' : Options} {es : List (Value × Value)}
    {row : List (List (Value × Value))} (steady : ∀ updates ∈ row, Steady updates)
    (before : ofEntries es = .ok c) (merged : row.foldlM merge c = .ok c') :
    ofEntries (row.foldl layEntries es) = .ok c' := by
  induction row generalizing c es with
  | nil =>
    cases merged
    exact before
  | cons updates row ih =>
    rw [List.foldlM_cons] at merged
    obtain ⟨c₁, hfirst, hrest⟩ := exists_of_bind_eq_ok merged
    rw [merge_of_ofEntries (steady updates List.mem_cons_self) before] at hfirst
    exact ih (fun u hu => steady u (List.mem_cons_of_mem _ hu)) hfirst hrest

/-- Merging settings one after another, where every merge succeeds, gives the options that are read
from all of them laid over the written options one after another, with nothing read in between. -/
theorem merge_row (c c' : Options) (row : List (List (Value × Value)))
    (flat : ∀ updates ∈ row, Flat updates) (merged : row.foldlM merge c = .ok c') :
    ofEntries (row.foldl layEntries c.toEntries) = .ok c' :=
  ofEntries_foldl_layEntries (fun updates hmem => (flat updates hmem).steady)
    (ofEntries_toEntries c) merged

/-- Settings that make the whole output section nothing, none at all, and then words for truth
values beside an unknown name with an empty mapping. -/
def resetRow : List (List (Value × Value)) :=
  [[(.text "output", .null)], [],
   [(.number (.int 3), .map []),
    (.text "output", .map [(.text "show_types", .text " YES "), (.text "enabled", .map []),
      (.text "emit_javascript", .null)])]]

theorem flat_resetRow : ∀ updates ∈ resetRow, Flat updates := by
  simp only [resetRow, List.forall_mem_cons, List.not_mem_nil, false_imp_iff, implies_true,
    and_true]
  refine ⟨⟨namesOnce_of_nodup (by simp), ?_⟩, ⟨namesOnce_of_nodup (by simp), ?_⟩,
    ⟨namesOnce_of_nodup (by simp), ?_⟩⟩
  all_goals
    simp only [optionNames, List.forall_mem_cons, List.not_mem_nil, false_imp_iff, implies_true,
      and_true]
    refine ⟨fun es hes => ?_, fun es hes => ?_⟩ <;> cases hes
  refine ⟨namesOnce_of_nodup (by simp), ?_⟩
  simp only [List.forall_mem_cons, List.not_mem_nil, false_imp_iff, implies_true, and_true]
  refine ⟨?_, ?_, ?_, ?_⟩ <;> (intro v hv; cases hv)
  all_goals rfl

/-- The section that was made nothing takes back what was shown and emitted before, and the words
after it turn on the types. Merging in turn and reading once at the end give the same options. -/
theorem merge_row_reset :
    resetRow.foldlM merge { format := .json, showsSubstitution := true, emits := true } =
        .ok { showsTypes := true } ∧
      ofEntries (resetRow.foldl layEntries
        (toEntries { format := .json, showsSubstitution := true, emits := true })) =
          .ok { showsTypes := true } :=
  ⟨rfl, merge_row _ _ _ flat_resetRow rfl⟩

end TypedSexp.Options
