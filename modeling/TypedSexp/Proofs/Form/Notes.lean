import TypedSexp.Form.Basic

/-!
# Notes changed

`Form.map` changes the notes of a form and nothing else. Two changes in turn are one
change, and only what is done to the notes in the form counts.
-/

namespace TypedSexp

namespace Form

variable {α β : Type}

/-- Induction over forms, with the hypothesis for each element of a list or vector. The induction
that comes with the type has a second motive for lists of forms; here it is folded into the cases of
lists and vectors. -/
theorem elementsInd {motive : Form α → Prop} (symbol : ∀ n s, motive (.symbol n s))
    (string : ∀ n s, motive (.string n s)) (number : ∀ n x, motive (.number n x))
    (list : ∀ n es, (∀ e ∈ es, motive e) → motive (.list n es))
    (vector : ∀ n es, (∀ e ∈ es, motive e) → motive (.vector n es))
    (bare : ∀ n, motive (.bare n)) : ∀ e, motive e
  | .symbol n s => symbol n s
  | .string n s => string n s
  | .number n x => number n x
  | .list n es => list n es fun e _ => elementsInd symbol string number list vector bare e
  | .vector n es => vector n es fun e _ => elementsInd symbol string number list vector bare e
  | .bare n => bare n

/-- A form is the first one in itself. -/
theorem mem_walk_self (e : Form α) : e ∈ e.walk := by
  cases e <;> exact List.mem_cons_self

/-- Changes of the notes that agree on all notes of a form give the same form. -/
theorem map_congr_walk {f g : α → β} {e : Form α} (h : ∀ x ∈ e.walk, f x.note = g x.note) :
    e.map f = e.map g := by
  induction e using elementsInd with
  | symbol n s | string n s | number n x | bare n =>
    have hn : f n = g n := h _ List.mem_cons_self
    rw [map, map, hn]
  | list n es ih | vector n es ih =>
    simp only [walk, walkAll_eq_flatMap, List.forall_mem_cons, List.mem_flatMap] at h
    have hn : f n = g n := h.1
    have hes : es.map (map f) = es.map (map g) :=
      List.map_congr_left fun e he => ih e he fun x hx => h.2 x ⟨e, he, hx⟩
    rw [map, map, mapAll_eq_map, mapAll_eq_map, hn, hes]

theorem map_map {γ : Type} (f : α → β) (g : β → γ) (e : Form α) :
    (e.map f).map g = e.map fun n => g (f n) := by
  induction e using elementsInd with
  | symbol n s | string n s | number n x | bare n => rfl
  | list n es ih | vector n es ih =>
    have hes : es.map (map g ∘ map f) = es.map (map fun n => g (f n)) := List.map_congr_left ih
    simp only [map, mapAll_eq_map, List.map_map, hes]

theorem map_id (e : Form α) : e.map id = e := by
  induction e using elementsInd with
  | symbol n s | string n s | number n x | bare n => rfl
  | list n es ih | vector n es ih =>
    have hes : es.map (map id) = es := (List.map_congr_left ih).trans (List.map_id es)
    rw [map, mapAll_eq_map, hes, id]

/-- The outermost note of a changed form is the changed outermost note. -/
theorem note_map (f : α → β) (e : Form α) : (e.map f).note = f e.note := by
  cases e <;> rfl

/-- Whether a form holds a bare form does not depend on its notes. -/
theorem isComplete_map (f : α → β) (e : Form α) : (e.map f).isComplete = e.isComplete := by
  induction e using elementsInd with
  | symbol n s | string n s | number n x | bare n => rfl
  | list n es ih | vector n es ih =>
    simp only [map, mapAll_eq_map, isComplete, areComplete_eq_all, List.all_map]
    rw [Bool.eq_iff_iff, List.all_eq_true, List.all_eq_true]
    exact forall₂_congr fun e he => by rw [Function.comp_apply, ih e he]

end Form

end TypedSexp
