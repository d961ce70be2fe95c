import Mathlib.Data.List.Forall2
import TypedSexp.Inference
import TypedSexp.Proofs.Ty.Bind

/-!
# Typings

A typing of a form is a choice of types for its parts that obeys the rules of
`Typed`: one rule for each kind of form. The choice is written into the notes of the
form, so a typed form carries its own derivation, and `Typed` checks that derivation
against a context, which says what the names in reach stand for.

There is no generalisation, so a context gives each name one type. A function binds
its parameters one after the other: the last parameter of a name is the one that the
body sees, and it hides what the name stood for outside.

The rules say nothing about the notes of the head and of the parameter vector of a
function definition. `Form.slots` lists the notes that they do speak of.
-/

namespace TypedSexp

/-! ## Contexts -/

/-- What each name in reach stands for. -/
abbrev Context := String → Option Ty

namespace Context

/-- The context with names bound one after the other, so that the last binding of a name
counts. -/
def bindAll (Γ : Context) (bs : List (String × Ty)) : Context :=
  bs.foldl (fun Γ b => Function.update Γ b.1 (some b.2)) Γ

/-- The context with every type changed. -/
def map (f : Ty → Ty) (Γ : Context) : Context := fun name => (Γ name).map f

@[simp] theorem bindAll_cons (Γ : Context) (b : String × Ty) (bs : List (String × Ty)) :
    Γ.bindAll (b :: bs) = bindAll (Function.update Γ b.1 (some b.2)) bs := rfl

/-- Changing the types of a context changes those that were bound last as well. So it does not
matter whether a substitution is applied before or after parameters are bound. -/
theorem map_bindAll (f : Ty → Ty) (Γ : Context) (bs : List (String × Ty)) :
    (Γ.bindAll bs).map f = (Γ.map f).bindAll (bs.map (Prod.map id f)) := by
  induction bs generalizing Γ with
  | nil => rfl
  | cons b bs ih =>
    rw [bindAll_cons, ih, List.map_cons, bindAll_cons]
    congr 1
    funext name
    by_cases hname : name = b.1
    · subst hname
      simp [map]
    · simp [map, Function.update_of_ne hname]

end Context

namespace Scope

/-- The context that a scope gives: each name has the type of its innermost frame. -/
def context (scope : Scope) : Context := scope.lookup?

/-- Binding one more name in the innermost frame hides what it stood for, in this frame and in all
outer ones. -/
theorem context_put (frame : List (String × Ty)) (scope : Scope) (name : String) (t : Ty) :
    context ({ bindings := Entries.put name t frame } :: scope) =
      Function.update (context ({ bindings := frame } :: scope)) name (some t) := by
  funext n
  simp only [context, lookup?, List.findSome?_cons]
  by_cases hn : n = name
  · subst hn
    rw [Entries.get?_put_self, Function.update_self]
  · rw [Entries.get?_put_of_ne hn, Function.update_of_ne hn, lookup?, List.findSome?_cons]

/-- A frame of names bound one after the other extends the context by them, in their order. This is
where frames meet contexts; the rules of typing know contexts only. -/
theorem context_ofPairs (bs : List (String × Ty)) (scope : Scope) :
    context ({ bindings := Entries.ofPairs bs } :: scope) = scope.context.bindAll bs := by
  have step : ∀ (frame : List (String × Ty)),
      context ({ bindings := bs.foldl (fun es b => Entries.put b.1 b.2 es) frame } :: scope) =
        (context ({ bindings := frame } :: scope)).bindAll bs := by
    induction bs with
    | nil => exact fun _ => rfl
    | cons b bs ih =>
      intro frame
      rw [List.foldl_cons, ih, context_put, Context.bindAll_cons]
  exact step []

end Scope

/-! ## The rules -/

/-- The form is a parameter with a name and a type. -/
def IsParam (p : Form Note) (b : String × Ty) : Prop :=
  ∃ n : Note, p = .symbol n b.1 ∧ n.type = some b.2

/-- A method has a form to be called on. -/
def HasTarget {α : Type} (head : Form α) (operands : List (Form α)) : Prop :=
  ∀ n s, head = .symbol n s → isMethodName s = true → operands ≠ []

mutual

/-- The types noted in a form are a derivation of a type for it. -/
inductive Typed : Context → Form Note → Ty → Prop
  /-- A symbol has the type that its name stands for. -/
  | symbol {Γ : Context} {n : Note} {s : String} {t : Ty} (noted : n.type = some t)
      (bound : Γ s = some t) : Typed Γ (.symbol n s) t
  | string {Γ : Context} {n : Note} {v : String} (noted : n.type = some .string) :
      Typed Γ (.string n v) .string
  | number {Γ : Context} {n : Note} {v : Number} (noted : n.type = some .number) :
      Typed Γ (.number n v) .number
  /-- A vector is an array of a type that all its elements have. -/
  | vector {Γ : Context} {n : Note} {es : List (Form Note)} {ts : List Ty} {t : Ty}
      (noted : n.type = some (.array t)) (elements : TypedAll Γ es ts)
      (same : ∀ u ∈ ts, u = t) : Typed Γ (.vector n es) (.array t)
  /-- A function takes its parameters to the last form of its body, and every form of the
  body is typed where the parameters are bound. -/
  | function {Γ : Context} {n head m : Note} {ps body : List (Form Note)}
      {bs : List (String × Ty)} {ts : List Ty} {t : Ty}
      (noted : n.type = some (.fn (bs.map Prod.snd) t)) (params : List.Forall₂ IsParam ps bs)
      (inner : TypedAll (Γ.bindAll bs) body ts) (last : ts.getLast? = some t) :
      Typed Γ (.list n (.symbol head Form.fnName :: .vector m ps :: body))
        (.fn (bs.map Prod.snd) t)
  /-- An application has the result type of its callee, which takes the operands. -/
  | application {Γ : Context} {n : Note} {head : Form Note} {operands : List (Form Note)}
      {ts : List Ty} {t : Ty} (noted : n.type = some t)
      (plain : head.isSymbol Form.fnName = false) (target : HasTarget head operands)
      (callee : Typed Γ head (.fn ts t)) (arguments : TypedAll Γ operands ts) :
      Typed Γ (.list n (head :: operands)) t

/-- The types noted in several forms are derivations of types for them. -/
inductive TypedAll : Context → List (Form Note) → List Ty → Prop
  | nil {Γ : Context} : TypedAll Γ [] []
  | cons {Γ : Context} {e : Form Note} {es : List (Form Note)} {t : Ty} {ts : List Ty}
      (first : Typed Γ e t) (rest : TypedAll Γ es ts) : TypedAll Γ (e :: es) (t :: ts)

end

/-- The type of a typed form is the one noted in it. So a typed form determines its type. -/
theorem Typed.note_type {Γ : Context} {e : Form Note} {t : Ty} (h : Typed Γ e t) :
    e.note.type = some t := by
  cases h with
  | symbol noted _ => exact noted
  | string noted => exact noted
  | number noted => exact noted
  | vector noted _ _ => exact noted
  | function noted _ _ _ => exact noted
  | application noted _ _ _ _ => exact noted

/-! ## The notes that the rules speak of -/

namespace Form

/-- The form without its types. -/
def untyped (e : Form Note) : Form (Option Span) := e.map Note.span

mutual

/-- The types noted in a form, in order, but for those of the head and of the parameter
vector of a function definition. -/
def slots : Form Note → List (Option Ty)
  | .symbol n _ | .string n _ | .number n _ | .bare n | .list n [] => [n.type]
  | .vector n es => n.type :: slotsAll es
  | .list n (head :: rest) =>
    if head.isSymbol fnName then
      match rest with
      | [] => [n.type]
      | .vector _ ps :: body => n.type :: (slotsAll ps ++ slotsAll body)
      | _ :: body => n.type :: slotsAll body
    else n.type :: (slots head ++ slotsAll rest)

/-- The types noted in several forms. -/
def slotsAll : List (Form Note) → List (Option Ty)
  | [] => []
  | e :: es => slots e ++ slotsAll es

end

@[simp] theorem slotsAll_eq_flatMap (es : List (Form Note)) : slotsAll es = es.flatMap slots := by
  induction es with
  | nil => rfl
  | cons e es ih => rw [slotsAll, ih, List.flatMap_cons]

/-! ### Function definitions and applications -/

variable {n head m : Note} {e : Form Note} {ps es : List (Form Note)} {s : Substitution}

/-- The places with a type in a function definition are its own, those of the parameters and those
of the body. The head and the vector of parameters have none. -/
@[simp] theorem slots_function :
    slots (.list n (.symbol head fnName :: .vector m ps :: es)) =
      n.type :: (slotsAll ps ++ slotsAll es) := by
  simp [slots, isSymbol]

/-- The places with a type in another list are its own and those of all its elements. -/
theorem slots_application (h : e.isSymbol fnName = false) :
    slots (.list n (e :: es)) = n.type :: (slots e ++ slotsAll es) := by
  rw [slots.eq_def]
  simp only [h]
  rfl

/-- In a function definition, a substitution goes to the note of the list, to the parameters and
into the body. It leaves the notes of the head and of the vector of parameters. -/
@[simp] theorem applySubstitution_function :
    applySubstitution s (.list n (.symbol head fnName :: .vector m ps :: es)) =
      .list (n.apply s) (.symbol head fnName :: .vector m (applyAll s ps) :: applyAll s es) := by
  simp [applySubstitution, isSymbol]

/-- In another list, a substitution goes to the note of the list and into all elements. -/
theorem applySubstitution_application (h : e.isSymbol fnName = false) :
    applySubstitution s (.list n (e :: es)) =
      .list (n.apply s) (e.applySubstitution s :: applyAll s es) := by
  rw [applySubstitution.eq_def]
  simp only [h]
  rfl

/-- Applying a substitution changes no name. -/
@[simp] theorem isSymbol_applySubstitution (name : String) :
    (e.applySubstitution s).isSymbol name = e.isSymbol name := by
  cases e with
  | list n es =>
    cases es with
    | nil => rfl
    | cons e es =>
      rw [applySubstitution.eq_def]
      dsimp only
      split
      · split <;> rfl
      · rfl
  | _ => rfl

/-! ### Induction -/

section Induction

variable {motive : Form Note → Prop} (symbol : ∀ n s, motive (.symbol n s))
  (string : ∀ n v, motive (.string n v)) (number : ∀ n v, motive (.number n v))
  (bare : ∀ n, motive (.bare n)) (vector : ∀ n es, (∀ e ∈ es, motive e) → motive (.vector n es))
  (empty : ∀ n, motive (.list n []))
  (headOnly : ∀ n e, e.isSymbol fnName = true → motive (.list n [e]))
  (function : ∀ n e m ps es, e.isSymbol fnName = true → (∀ p ∈ ps, motive p) →
    (∀ e ∈ es, motive e) → motive (.list n (e :: .vector m ps :: es)))
  (malformed : ∀ n e p es, e.isSymbol fnName = true → (∀ m ps, p = .vector m ps → False) →
    (∀ e ∈ es, motive e) → motive (.list n (e :: p :: es)))
  (application : ∀ n e es, e.isSymbol fnName = false → motive e → (∀ e ∈ es, motive e) →
    motive (.list n (e :: es)))

include symbol string number bare vector empty headOnly function malformed application in
/-- Induction along the places that carry a type. In a list that starts as a function
definition these are the parameters, if they stand in a vector, and the body; in any other
list they are all elements. -/
theorem ind : ∀ e, motive e
  | .symbol n s => symbol n s
  | .string n v => string n v
  | .number n v => number n v
  | .bare n => bare n
  | .vector n es => vector n es fun e _ => ind e
  | .list n [] => empty n
  | .list n [e] =>
    if h : e.isSymbol fnName = true then headOnly n e h
    else application n e [] (by simpa using h) (ind e) (by simp)
  | .list n (e :: p :: es) => by
    have inner : ∀ e ∈ es, motive e := fun e _ => ind e
    by_cases h : e.isSymbol fnName = true
    · cases p with
      | vector m ps => exact function n e m ps es h (fun p _ => ind p) inner
      | _ => exact malformed n e _ es h nofun inner
    · refine application n e (p :: es) (by simpa using h) (ind e) ?_
      rw [List.forall_mem_cons]
      exact ⟨ind p, inner⟩

end Induction

/-! ### Applying a substitution -/

/-- Applying a substitution applies it to each of the types noted at typed places, and adds none.
The notes at the head and the parameters of a function definition are not among them. -/
theorem slots_applySubstitution (s : Substitution) (e : Form Note) :
    (e.applySubstitution s).slots = e.slots.map (Option.map s.apply) := by
  have each : ∀ {es : List (Form Note)},
      (∀ e ∈ es, (e.applySubstitution s).slots = e.slots.map (Option.map s.apply)) →
      slotsAll (applyAll s es) = (slotsAll es).map (Option.map s.apply) := by
    intro es ih
    rw [slotsAll_eq_flatMap, slotsAll_eq_flatMap, applyAll_eq_map, List.flatMap_map,
      List.map_flatMap]
    exact List.flatMap_congr ih
  induction e using Form.ind with
  | symbol n s => rfl
  | string n v => rfl
  | number n v => rfl
  | bare n => rfl
  | vector n es ih =>
    rw [applySubstitution, slots, slots, each ih]
    rfl
  | empty n => rfl
  | headOnly n e hfn =>
    rw [applySubstitution, if_pos hfn, slots, if_pos hfn, slots, if_pos hfn]
    rfl
  | function n e m ps es hfn ihps ihes =>
    rw [applySubstitution, if_pos hfn, slots, if_pos hfn, slots, if_pos hfn, each ihps, each ihes,
      List.map_cons, List.map_append]
    rfl
  | malformed n e p es hfn hp ihes =>
    rw [applySubstitution, if_pos hfn, slots, if_pos hfn, slots, if_pos hfn, each ihes]
    · rfl
    · exact hp
    · exact hp
    · exact hp
  | application n e es happ ihe ihes =>
    rw [applySubstitution_application happ, slots_application happ,
      slots_application (by rw [isSymbol_applySubstitution, happ]), ihe, each ihes,
      List.map_cons, List.map_append]
    rfl

/-! ### Forms without their types -/

@[simp] theorem untyped_symbol (name : String) :
    untyped (.symbol n name) = .symbol n.span name := rfl

@[simp] theorem untyped_string (v : String) : untyped (.string n v) = .string n.span v := rfl

@[simp] theorem untyped_number (v : Number) : untyped (.number n v) = .number n.span v := rfl

@[simp] theorem untyped_bare : untyped (.bare n) = .bare n.span := rfl

@[simp] theorem untyped_list : untyped (.list n es) = .list n.span (es.map untyped) := by
  rw [untyped, map, mapAll_eq_map]
  rfl

@[simp] theorem untyped_vector : untyped (.vector n es) = .vector n.span (es.map untyped) := by
  rw [untyped, map, mapAll_eq_map]
  rfl

section Inversion

variable {a : Option Span} {xs : List (Form (Option Span))}

/-- A form is a symbol without its types only if it was that symbol, at the same place. Taking types
away makes no form into a symbol. -/
theorem untyped_eq_symbol_iff {name : String} :
    e.untyped = .symbol a name ↔ ∃ n : Note, e = .symbol n name ∧ n.span = a := by
  cases e <;> simp [and_comm]

theorem untyped_eq_string_iff {v : String} :
    e.untyped = .string a v ↔ ∃ n : Note, e = .string n v ∧ n.span = a := by
  cases e <;> simp [and_comm]

theorem untyped_eq_number_iff {v : Number} :
    e.untyped = .number a v ↔ ∃ n : Note, e = .number n v ∧ n.span = a := by
  cases e <;> simp [and_comm]

/-- Only a vector is a vector without its types, and its elements are then those of the vector
without theirs. -/
theorem untyped_eq_vector_iff : e.untyped = .vector a xs ↔
    ∃ (n : Note) (es : List (Form Note)), e = .vector n es ∧ n.span = a ∧ es.map untyped = xs := by
  cases e <;> simp

/-- Only a list is a list without its types, and its elements are then those of the list without
theirs. -/
theorem untyped_eq_list_iff : e.untyped = .list a xs ↔
    ∃ (n : Note) (es : List (Form Note)), e = .list n es ∧ n.span = a ∧ es.map untyped = xs := by
  cases e <;> simp

end Inversion

theorem isSymbol_untyped (name : String) : e.untyped.isSymbol name = e.isSymbol name := by
  cases e <;> rfl

/-- Whether a list has a target for its method is seen without types. -/
theorem hasTarget_untyped : HasTarget e.untyped (es.map untyped) ↔ HasTarget e es := by
  cases e with
  | symbol n s => simp [HasTarget]
  | _ => simp [HasTarget]

variable {e' : Form Note} {es' : List (Form Note)}

/-- Which symbol a form is does not depend on its types. -/
theorem isSymbol_congr (h : e'.untyped = e.untyped) (name : String) :
    e'.isSymbol name = e.isSymbol name := by
  rw [← isSymbol_untyped, h, isSymbol_untyped]

/-- Whether a method has a target does not depend on types, neither on those of the head nor on
those of the operands. -/
theorem hasTarget_congr (h : e'.untyped = e.untyped) (hs : es'.map untyped = es.map untyped)
    (target : HasTarget e es) : HasTarget e' es' := by
  rw [← hasTarget_untyped] at target ⊢
  rwa [h, hs]

/-- Applying a substitution changes nothing but types. So a form and what solving makes of its types
are the same form without them. -/
theorem untyped_applySubstitution (s : Substitution) (e : Form Note) :
    (e.applySubstitution s).untyped = e.untyped := by
  have each : ∀ {es : List (Form Note)}, (∀ e ∈ es, (e.applySubstitution s).untyped = e.untyped) →
      (applyAll s es).map untyped = es.map untyped := by
    intro es ih
    rw [applyAll_eq_map, List.map_map]
    exact List.map_congr_left ih
  induction e using Form.ind with
  | symbol n s => rfl
  | string n v => rfl
  | number n v => rfl
  | bare n => rfl
  | vector n es ih =>
    rw [applySubstitution, untyped_vector, untyped_vector, each ih]
    rfl
  | empty n => rfl
  | headOnly n e hfn =>
    rw [applySubstitution, if_pos hfn]
    rfl
  | function n e m ps es hfn ihps ihes =>
    rw [applySubstitution, if_pos hfn]
    simp only [untyped_list, List.map_cons, untyped_vector, each ihps, each ihes]
    rfl
  | malformed n e p es hfn hp ihes =>
    rw [applySubstitution, if_pos hfn]
    · simp only [untyped_list, List.map_cons, each ihes]
      rfl
    · exact hp
  | application n e es happ ihe ihes =>
    rw [applySubstitution_application happ, untyped_list, untyped_list, List.map_cons,
      List.map_cons, ihe, each ihes]
    rfl

theorem untyped_applyAll (s : Substitution) (es : List (Form Note)) :
    (applyAll s es).map untyped = es.map untyped := by
  rw [applyAll_eq_map, List.map_map]
  exact List.map_congr_left fun e _ => untyped_applySubstitution s e

end Form

end TypedSexp
