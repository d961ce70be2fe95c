import TypedSexp.Proofs.Form.Notes
import TypedSexp.Proofs.Inference.Typing

/-!
# Altered forms

Typing leaves two kinds of notes in a form: those that it fills, and those at the head and at
the parameter vector of a function definition, which it passes over. `Form.alter` changes the
notes of each kind by a function of its own, and the values of literals besides.

Applying a substitution is such a change (`Form.applySubstitution_eq_alter`), and so is any
change of all notes alike (`Form.alter_eq_map`). Two changes in turn are one
(`Form.alter_alter`).

A change sees one note or one literal at a time. One that depends on what stands around a form, as
giving types does, is not of this kind.
-/

namespace TypedSexp

namespace Form

/-- How the parts of a form are changed. -/
structure Change where
  /-- The new note where typing notes a type. -/
  slot : Note → Note
  /-- The new note at the head and the parameter vector of a function definition. -/
  other : Note → Note
  /-- The new value of a string. -/
  text : String → String := id
  /-- The new value of a number. -/
  number : Number → Number := id

namespace Change

/-- The change of what stands where typing notes nothing. -/
def outer (c : Change) : Change := { c with slot := c.other }

/-- Two changes in turn. -/
def comp (c' c : Change) : Change :=
  ⟨c'.slot ∘ c.slot, c'.other ∘ c.other, c'.text ∘ c.text, c'.number ∘ c.number⟩

/-- No change. -/
def none : Change := { slot := id, other := id }

end Change

mutual

/-- The form with its parts changed. -/
def alter (c : Change) : Form Note → Form Note
  | .symbol n s => .symbol (c.slot n) s
  | .string n v => .string (c.slot n) (c.text v)
  | .number n x => .number (c.slot n) (c.number x)
  | .vector n es => .vector (c.slot n) (alterAll c es)
  | .list n [] => .list (c.slot n) []
  | .list n (head :: rest) =>
    if head.isSymbol fnName then
      match rest with
      | [] => .list (c.slot n) [alter c.outer head]
      | .vector m ps :: body =>
        .list (c.slot n)
          (alter c.outer head :: .vector (c.other m) (alterAll c ps) :: alterAll c body)
      | p :: body => .list (c.slot n) (alter c.outer head :: alter c.outer p :: alterAll c body)
    else .list (c.slot n) (alter c head :: alterAll c rest)
  | .bare n => .bare (c.slot n)

/-- Several forms with their parts changed. -/
def alterAll (c : Change) : List (Form Note) → List (Form Note)
  | [] => []
  | e :: es => alter c e :: alterAll c es

end

@[simp] theorem alterAll_eq_map (c : Change) (es : List (Form Note)) :
    alterAll c es = es.map (alter c) := by
  induction es with
  | nil => rfl
  | cons e es ih =>
    show alter c e :: alterAll c es = _
    rw [ih, List.map_cons]

/-! ## Vectors and lists -/

section Elements

variable {c : Change} {n m : Note} {head p : Form Note} {ps es : List (Form Note)}

/-- A vector has its note changed as one that typing fills, and so have its elements. -/
theorem alter_vector : alter c (.vector n es) = .vector (c.slot n) (es.map (alter c)) := by
  show Form.vector (c.slot n) (alterAll c es) = _
  rw [alterAll_eq_map]

/-- In a list of nothing but the symbol that starts function definitions, the symbol has its note
changed as one that typing leaves. -/
theorem alter_headOnly (h : head.isSymbol fnName = true) :
    alter c (.list n [head]) = .list (c.slot n) [alter c.outer head] := by
  show (if head.isSymbol fnName then _ else _) = _
  rw [if_pos h]

/-- In a function definition, the notes of the head and of the vector of parameters are those that
typing leaves. All others are those that it fills. -/
theorem alter_function (h : head.isSymbol fnName = true) :
    alter c (.list n (head :: .vector m ps :: es)) = .list (c.slot n)
      (alter c.outer head :: .vector (c.other m) (ps.map (alter c)) :: es.map (alter c)) := by
  show (if head.isSymbol fnName then Form.list (c.slot n)
    (alter c.outer head :: .vector (c.other m) (alterAll c ps) :: alterAll c es) else _) = _
  rw [if_pos h, alterAll_eq_map, alterAll_eq_map]

/-- In a list that starts as a function definition and has something else in the place of the
parameters, this is changed as the head is: typing does not get there. -/
theorem alter_malformed (h : head.isSymbol fnName = true) (hp : ∀ m ps, p = .vector m ps → False) :
    alter c (.list n (head :: p :: es)) =
      .list (c.slot n) (alter c.outer head :: alter c.outer p :: es.map (alter c)) := by
  cases p with
  | vector m ps => exact (hp m ps rfl).elim
  | _ =>
    show (if head.isSymbol fnName then Form.list (c.slot n)
      (alter c.outer head :: alter c.outer _ :: alterAll c es) else _) = _
    rw [if_pos h, alterAll_eq_map]

/-- In any other list, all notes are those that typing fills. -/
theorem alter_application (h : head.isSymbol fnName = false) :
    alter c (.list n (head :: es)) = .list (c.slot n) (alter c head :: es.map (alter c)) := by
  rw [alter.eq_def]
  simp only [h, alterAll_eq_map]
  rfl

end Elements

/-! ## What a change keeps -/

variable (c : Change) (e : Form Note)

/-- A list stays one, and its outermost note is one that typing fills, whatever kind of list it
is. -/
theorem exists_alter_list (n : Note) (es : List (Form Note)) :
    ∃ es', alter c (.list n es) = .list (c.slot n) es' := by
  cases es with
  | nil => exact ⟨[], rfl⟩
  | cons head rest =>
    by_cases h : head.isSymbol fnName = true
    · cases rest with
      | nil => exact ⟨_, alter_headOnly h⟩
      | cons p body =>
        cases p with
        | vector m ps => exact ⟨_, alter_function h⟩
        | _ => exact ⟨_, alter_malformed h nofun⟩
    · exact ⟨_, alter_application (by simpa using h)⟩

/-- The outermost note of a form is one that typing fills. -/
@[simp] theorem note_alter : (alter c e).note = c.slot e.note := by
  cases e with
  | list n es =>
    obtain ⟨es', h⟩ := exists_alter_list c n es
    rw [h]
    rfl
  | _ => rfl

/-- No change touches the names of symbols, so it can be asked before or after whether a form is a
certain symbol. -/
@[simp] theorem isSymbol_alter (name : String) : (alter c e).isSymbol name = e.isSymbol name := by
  cases e with
  | list n es =>
    obtain ⟨es', h⟩ := exists_alter_list c n es
    rw [h]
    rfl
  | _ => rfl

theorem alter_ne_vector {e : Form Note} (h : ∀ m ps, e = .vector m ps → False) :
    ∀ m ps, alter c e = .vector m ps → False := by
  intro m ps heq
  cases e with
  | list n es =>
    obtain ⟨es', h⟩ := exists_alter_list c n es
    rw [h] at heq
    cases heq
  | vector n es => exact h n es rfl
  | _ => cases heq

/-! ## The laws of `alter` -/

section Induction

variable {motive : Form Note → Prop} (symbol : ∀ n s, motive (.symbol n s))
  (string : ∀ n v, motive (.string n v)) (number : ∀ n v, motive (.number n v))
  (bare : ∀ n, motive (.bare n)) (vector : ∀ n es, (∀ e ∈ es, motive e) → motive (.vector n es))
  (empty : ∀ n, motive (.list n []))
  (headOnly : ∀ n head, head.isSymbol fnName = true → motive head → motive (.list n [head]))
  (function : ∀ n head m ps es, head.isSymbol fnName = true → motive head →
    (∀ p ∈ ps, motive p) → (∀ e ∈ es, motive e) → motive (.list n (head :: .vector m ps :: es)))
  (malformed : ∀ n head p es, head.isSymbol fnName = true → (∀ m ps, p = .vector m ps → False) →
    motive head → motive p → (∀ e ∈ es, motive e) → motive (.list n (head :: p :: es)))
  (application : ∀ n head es, head.isSymbol fnName = false → motive head →
    (∀ e ∈ es, motive e) → motive (.list n (head :: es)))

include symbol string number bare vector empty headOnly function malformed application in
/-- Induction over all parts of a form, one case for each way of changing it. Compared with
`Form.ind`, it has hypotheses for heads and for malformed parameters too. -/
theorem partsInd : ∀ e, motive e
  | .symbol n s => symbol n s
  | .string n v => string n v
  | .number n v => number n v
  | .bare n => bare n
  | .vector n es => vector n es fun e _ => partsInd e
  | .list n [] => empty n
  | .list n [head] =>
    if h : head.isSymbol fnName = true then headOnly n head h (partsInd head)
    else application n head [] (by simpa using h) (partsInd head) (by simp)
  | .list n (head :: p :: es) => by
    have inner : ∀ e ∈ es, motive e := fun e _ => partsInd e
    by_cases h : head.isSymbol fnName = true
    · cases p with
      | vector m ps =>
        exact function n head m ps es h (partsInd head) (fun p _ => partsInd p) inner
      | _ => exact malformed n head _ es h nofun (partsInd head) (partsInd _) inner
    · refine application n head (p :: es) (by simpa using h) (partsInd head) ?_
      rw [List.forall_mem_cons]
      exact ⟨partsInd p, inner⟩

end Induction

/-- Two changes in turn are one, note by note and literal by literal. Which notes are of which kind
does not depend on what they hold, so the first change does not disturb the second. -/
theorem alter_alter (c' c : Change) (e : Form Note) :
    alter c' (alter c e) = alter (c'.comp c) e := by
  have each : ∀ {es : List (Form Note)} {c' c : Change},
      (∀ e ∈ es, ∀ c' c : Change, alter c' (alter c e) = alter (c'.comp c) e) →
      (es.map (alter c)).map (alter c') = es.map (alter (c'.comp c)) := by
    intro es c' c ih
    rw [List.map_map]
    exact List.map_congr_left fun e he => ih e he c' c
  induction e using partsInd generalizing c' c with
  | symbol n s | string n s | number n x | bare n | empty n => rfl
  | vector n es ih =>
    rw [alter_vector, alter_vector, each ih, alter_vector]
    rfl
  | headOnly n head hfn ihhead =>
    rw [alter_headOnly hfn, alter_headOnly (by rwa [isSymbol_alter]), alter_headOnly hfn, ihhead]
    rfl
  | function n head m ps es hfn ihhead ihps ihes =>
    rw [alter_function hfn, alter_function (by rwa [isSymbol_alter]), alter_function hfn, ihhead,
      each ihps, each ihes]
    rfl
  | malformed n head p es hfn hp ihhead ihp ihes =>
    rw [alter_malformed hfn hp,
      alter_malformed (by rwa [isSymbol_alter]) (alter_ne_vector c.outer hp),
      alter_malformed hfn hp, ihhead, ihp, each ihes]
    rfl
  | application n head es happ ihhead ihes =>
    rw [alter_application happ, alter_application (by rwa [isSymbol_alter]),
      alter_application happ, ihhead, each ihes]
    rfl

/-- A change of all notes alike is `Form.map`, since then it does not matter which notes typing
fills. -/
theorem alter_eq_map (f : Note → Note) (e : Form Note) :
    alter { slot := f, other := f } e = e.map f := by
  have each : ∀ {es : List (Form Note)},
      (∀ e ∈ es, alter { slot := f, other := f } e = e.map f) →
      es.map (alter { slot := f, other := f }) = es.map (map f) :=
    fun ih => List.map_congr_left ih
  induction e using partsInd with
  | symbol n s | string n s | number n x | bare n | empty n => rfl
  | vector n es ih => rw [alter_vector, each ih, map, mapAll_eq_map]
  | headOnly n head hfn ihhead =>
    rw [alter_headOnly hfn, map, mapAll_eq_map, List.map_singleton, ← ihhead]
    rfl
  | function n head m ps es hfn ihhead ihps ihes =>
    rw [alter_function hfn, map, mapAll_eq_map, List.map_cons, List.map_cons, map, mapAll_eq_map,
      ← ihhead, ← each ihps, ← each ihes]
    rfl
  | malformed n head p es hfn hp ihhead ihp ihes =>
    rw [alter_malformed hfn hp, map, mapAll_eq_map, List.map_cons, List.map_cons, ← ihhead, ← ihp,
      ← each ihes]
    rfl
  | application n head es happ ihhead ihes =>
    rw [alter_application happ, map, mapAll_eq_map, List.map_cons, ihhead, each ihes]

/-- Changing nothing keeps the form. -/
@[simp] theorem alter_none (e : Form Note) : alter .none e = e := by
  rw [Change.none, alter_eq_map]
  exact map_id e

/-- Applying a substitution changes the types that were noted at the places that typing fills, and
nothing else. -/
theorem applySubstitution_eq_alter (s : Substitution) (e : Form Note) :
    e.applySubstitution s = alter { slot := Note.apply s, other := id } e := by
  have each : ∀ {es : List (Form Note)},
      (∀ e ∈ es, e.applySubstitution s = alter { slot := Note.apply s, other := id } e) →
      applyAll s es = es.map (alter { slot := Note.apply s, other := id }) := by
    intro es ih
    rw [applyAll_eq_map]
    exact List.map_congr_left ih
  have houter : Change.outer { slot := Note.apply s, other := id } = .none := rfl
  induction e using partsInd with
  | symbol n s | string n s | number n x | bare n | empty n => rfl
  | vector n es ih => rw [applySubstitution, each ih, alter_vector]
  | headOnly n head hfn _ =>
    rw [alter_headOnly hfn, houter, alter_none, applySubstitution, if_pos hfn]
  | function n head m ps es hfn _ ihps ihes =>
    rw [alter_function hfn, houter, alter_none, applySubstitution, if_pos hfn, each ihps,
      each ihes]
    rfl
  | malformed n head p es hfn hp _ _ ihes =>
    rw [alter_malformed hfn hp, houter, alter_none, alter_none, applySubstitution, if_pos hfn,
      each ihes]
    exact hp
  | application n head es happ ihhead ihes =>
    rw [alter_application happ, applySubstitution_application happ, ihhead, each ihes]

/-- A change of notes that changes their types by `f` changes the types noted by `f`. Notes that
typing leaves do not come into it. -/
theorem slots_alter {f : Option Ty → Option Ty} {c : Change}
    (h : ∀ n, (c.slot n).type = f n.type) (e : Form Note) :
    (alter c e).slots = e.slots.map f := by
  have each : ∀ {es : List (Form Note)}, (∀ e ∈ es, (alter c e).slots = e.slots.map f) →
      slotsAll (es.map (alter c)) = (slotsAll es).map f := by
    intro es ih
    rw [slotsAll_eq_flatMap, slotsAll_eq_flatMap, List.flatMap_map, List.map_flatMap]
    exact List.flatMap_congr ih
  induction e using Form.ind with
  | symbol n s | string n s | number n x | bare n | empty n =>
    simp only [alter, slots, h, List.map_singleton]
  | vector n es ih => rw [alter_vector, slots, slots, h, each ih, List.map_cons]
  | headOnly n head hfn =>
    have hfn' : (alter c.outer head).isSymbol fnName = true := by rwa [isSymbol_alter]
    rw [alter_headOnly hfn, slots, if_pos hfn', slots, if_pos hfn, h, List.map_singleton]
  | function n head m ps es hfn ihps ihes =>
    have hfn' : (alter c.outer head).isSymbol fnName = true := by rwa [isSymbol_alter]
    rw [alter_function hfn, slots, if_pos hfn', slots, if_pos hfn, h, each ihps, each ihes,
      List.map_cons, List.map_append]
  | malformed n head p es hfn hp ihes =>
    have hfn' : (alter c.outer head).isSymbol fnName = true := by rwa [isSymbol_alter]
    rw [alter_malformed hfn hp, slots, if_pos hfn', slots, if_pos hfn, h, each ihes, List.map_cons]
    · exact hp
    · exact alter_ne_vector c.outer hp
  | application n head es happ ihhead ihes =>
    have happ' : (alter c head).isSymbol fnName = false := by rwa [isSymbol_alter]
    rw [alter_application happ, slots_application happ', slots_application happ, h, ihhead,
      each ihes, List.map_cons, List.map_append]

end Form

end TypedSexp
