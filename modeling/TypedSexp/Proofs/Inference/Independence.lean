import TypedSexp.Proofs.Inference.Relabelling
import TypedSexp.Proofs.Inference.Supply

/-!
# Independence of the supply

Two runs of inference over the same form in the same scope, with supplies at different
positions, take different variables. When neither supply hands out a variable of the scope,
that is the only difference: `TyVar.move` takes the variables of the one run to those of the
other, and keeps those of the scope.

A move forward is a relabelling, so there the result follows from `Inference.run_relabel`. A
move back is not, since it may take a variable to one that is there already. But it undoes
the move forward, and so the result is turned around (`Inference.SameOutcome.symm`).

A supply that hands out a variable of the scope is left out. With it an answer may be less general,
and so differ by more than names.
-/

namespace TypedSexp

/-! ## Moving variables -/

namespace TyVar

variable {next next' : Nat} {x : TyVar}

/-- The variable that a supply at `next'` hands out in the place of one that a supply at `next`
hands out. Variables that the supply at `next` does not hand out stay. -/
def move (next next' : Nat) (x : TyVar) : TyVar :=
  if x.mark = 0 ∧ next ≤ x.id then { x with id := x.id - next + next' } else x

theorem move_of_issued (h : x.Issued next) : move next next' x = x :=
  if_neg fun ⟨hmark, hid⟩ => Nat.not_lt.mpr hid (h hmark)

/-- The variables that are still to come are moved by the distance of the two positions. -/
theorem move_fresh {i : Nat} (h : next ≤ i) :
    move next next' { id := i } = { id := i - next + next' } :=
  if_pos ⟨rfl, h⟩

/-- Moving back undoes moving forward. The other way round it need not, as the positions between the
two have no counterpart. -/
theorem move_move (le : next ≤ next') (x : TyVar) : move next' next (move next next' x) = x := by
  by_cases h : x.mark = 0 ∧ next ≤ x.id
  · obtain ⟨id, mark⟩ := x
    obtain ⟨rfl, hid⟩ := h
    rw [move_fresh hid, move_fresh (Nat.le_add_left _ _), Nat.add_sub_cancel,
      Nat.sub_add_cancel hid]
  · have hx : x.Issued next := fun hmark => Nat.not_le.mp fun hid => h ⟨hmark, hid⟩
    rw [move_of_issued hx, move_of_issued fun hmark => Nat.lt_of_lt_of_le (hx hmark) le]

/-- Moving forward keeps variables apart: those that were issued stay below the new position, and
the others land above it. -/
theorem move_injective (le : next ≤ next') : Function.Injective (move next next') :=
  Function.LeftInverse.injective (move_move le)

end TyVar

/-- Moving variables forward, along with the supply. -/
def Relabelling.move {next next' : Nat} (le : next ≤ next') : Relabelling where
  var := TyVar.move next next'
  injective := TyVar.move_injective le
  start := next
  shift := next' - next
  var_fresh i hi := by
    rw [TyVar.move_fresh hi, TyVar.mk.injEq]
    exact ⟨by omega, rfl⟩

/-! ## The same up to names -/

/-- The change of a form that renames the variables of all types that inference notes. -/
def Form.Change.rename (ρ : TyVar → TyVar) : Form.Change :=
  { slot := fun n => { n with type := n.type.map (Ty.rename ρ) }, other := id }

/-- Two typed forms are the same up to the names of variables, and are shown the same. -/
structure Inferred.SameUpTo (ρ : TyVar → TyVar) (r r' : Inferred) : Prop where
  form : r'.form = r.form.alter (.rename ρ)
  slots : r'.form.slots = r.form.slots.map (Option.map (Ty.rename ρ))
  type : r'.type = r.type.rename ρ
  substitution : r'.substitution = r.substitution.rename ρ
  resolved : r'.substitution.resolved = Substitution.rename ρ r.substitution.resolved
  slotTexts : r'.form.slots.map (Option.map Ty.pretty) = r.form.slots.map (Option.map Ty.pretty)
  typeText : r'.type.pretty = r.type.pretty
  resolvedTexts : r'.substitution.resolved.map (·.2.pretty) =
    r.substitution.resolved.map (·.2.pretty)

/-- Two reports of a failure are the same up to the names of variables, and read the same. -/
structure Diagnostic.SameUpTo (ρ : TyVar → TyVar) (d d' : Diagnostic) : Prop where
  stage : d'.stage = d.stage
  kind : d'.kind = d.kind
  message : d'.message = d.message
  span : d'.span = d.span
  terms : d'.terms = d.terms.map (Ty.rename ρ)

/-- Two outcomes of inference are the same up to the names of variables. -/
inductive Inference.SameOutcome (ρ : TyVar → TyVar) :
    Except TypeFault Inferred → Except TypeFault Inferred → Prop
  | ok {r r' : Inferred} (same : r.SameUpTo ρ r') : SameOutcome ρ (.ok r) (.ok r')
  | error {f f' : TypeFault} (same : f.diagnostic.SameUpTo ρ f'.diagnostic) :
      SameOutcome ρ (.error f) (.error f')

section Symmetry

variable {ρ σ : TyVar → TyVar} (inv : Function.LeftInverse ρ σ)

include inv

/-- Renaming back takes a type to what it was, if it does so with every variable. -/
theorem Ty.rename_leftInverse : Function.LeftInverse (Ty.rename ρ) (Ty.rename σ) := by
  intro t
  rw [rename_rename, inv.comp_eq_id, rename_id]

/-- Renaming back takes the type in a note to what it was, if there is one. -/
theorem Ty.map_rename_leftInverse (t : Option Ty) : (t.map (rename σ)).map (rename ρ) = t := by
  rw [Option.map_map, (rename_leftInverse inv).comp_eq_id, Option.map_id, id]

/-- Renaming back takes a substitution to what it was, pair by pair. -/
theorem Substitution.rename_leftInverse (s : Substitution) :
    Substitution.rename ρ (s.rename σ) = s := by
  rw [rename_rename, inv.comp_eq_id, rename_id]

/-- Renaming back takes the types noted in a form to what they were. -/
theorem Form.alter_rename_leftInverse (e : Form Note) :
    (e.alter (.rename σ)).alter (.rename ρ) = e := by
  have hcomp : (Change.rename ρ).comp (.rename σ) = .none := by
    have hslot : (Change.rename ρ).slot ∘ (Change.rename σ).slot = id := by
      funext n
      obtain ⟨span, type⟩ := n
      exact congrArg (Note.mk span) (Ty.map_rename_leftInverse inv type)
    rw [Change.comp, hslot]
    rfl
  rw [alter_alter, hcomp, alter_none]

/-- Results that are the same up to a renaming are so up to the one that takes it back. The
direction matters, since only one of the two renamings need keep variables apart. -/
theorem Inferred.SameUpTo.symm {r r' : Inferred} (h : r.SameUpTo σ r') : r'.SameUpTo ρ r where
  form := by rw [h.form, Form.alter_rename_leftInverse inv]
  slots := by
    rw [h.slots, List.map_map]
    refine ((List.map_congr_left fun t _ => ?_).trans (List.map_id _)).symm
    exact Ty.map_rename_leftInverse inv t
  type := by rw [h.type, Ty.rename_leftInverse inv]
  substitution := by rw [h.substitution, Substitution.rename_leftInverse inv]
  resolved := by rw [h.resolved, Substitution.rename_leftInverse inv]
  slotTexts := h.slotTexts.symm
  typeText := h.typeText.symm
  resolvedTexts := h.resolvedTexts.symm

theorem Diagnostic.SameUpTo.symm {d d' : Diagnostic} (h : d.SameUpTo σ d') :
    d'.SameUpTo ρ d where
  stage := h.stage.symm
  kind := h.kind.symm
  message := h.message.symm
  span := h.span.symm
  terms := by
    rw [h.terms, List.map_map, (Ty.rename_leftInverse inv).comp_eq_id, List.map_id]

theorem Inference.SameOutcome.symm {o o' : Except TypeFault Inferred}
    (h : SameOutcome σ o o') : SameOutcome ρ o' o := by
  cases h with
  | ok same => exact .ok (same.symm inv)
  | error same => exact .error (same.symm inv)

end Symmetry

/-! ## Runs -/

/-- The message of a report is made from its kind and its detail. -/
theorem Diagnostic.message_congr {d d' : Diagnostic} (hkind : d'.kind = d.kind)
    (hdetail : d'.detail = d.detail) : d'.message = d.message := by
  rw [message, message, hkind, hdetail]

/-- A report without types has no names to change. -/
theorem Diagnostic.sameUpTo_self {ρ : TyVar → TyVar} {d : Diagnostic} (h : d.terms = []) :
    d.SameUpTo ρ d :=
  ⟨rfl, rfl, rfl, rfl, by rw [h, List.map_nil]⟩

section Runs

variable {ρ : TyVar → TyVar} (inj : Function.Injective ρ)

include inj

/-- A renamed fault is reported with the same stage, kind, message and place. Only the types that
come with the report show new names. -/
theorem TypeFault.sameUpTo_rename (f : TypeFault) :
    f.diagnostic.SameUpTo ρ (diagnostic ⟨f.cause.rename ρ, f.span⟩) := by
  obtain ⟨cause, span⟩ := f
  cases cause with
  | mismatch m =>
    have hkind : (m.rename ρ).kind = m.kind := m.kind_rename
    have hdetail := m.detail_rename inj
    have hsides : (m.rename ρ).sides = _ := m.sides_rename
    constructor
    case stage => rfl
    case kind => exact hkind
    case message => exact Diagnostic.message_congr hkind hdetail
    case span => rfl
    case terms =>
      simp only [diagnostic, Cause.rename, Cause.terms, hsides, List.map_cons, List.map_nil]
  | _ => exact Diagnostic.sameUpTo_self rfl

/-- A renamed result is the result up to this renaming. Its type is shown the same, if the renaming
keeps variables apart. -/
theorem Inferred.sameUpTo_rename (r : Inferred) :
    r.SameUpTo ρ ⟨r.form.alter (.rename ρ), r.type.rename ρ, r.substitution.rename ρ,
      r.constraintCount⟩ := by
  have hslots : (r.form.alter (.rename ρ)).slots = r.form.slots.map (Option.map (Ty.rename ρ)) :=
    Form.slots_alter (fun _ => rfl) r.form
  have hresolved := Substitution.resolved_rename inj r.substitution
  constructor
  case form => rfl
  case slots => exact hslots
  case type => rfl
  case substitution => rfl
  case resolved => exact hresolved
  case slotTexts =>
    rw [hslots, List.map_map]
    refine List.map_congr_left fun t _ => ?_
    rw [Function.comp_apply, Option.map_map]
    exact congrArg (fun f => t.map f) (funext (Ty.pretty_rename inj))
  case typeText => exact Ty.pretty_rename inj r.type
  case resolvedTexts =>
    rw [hresolved, Substitution.rename, List.map_map]
    exact List.map_congr_left fun p _ => Ty.pretty_rename inj p.2

end Runs

namespace Inference

section Scopes

variable {scope scope' : Scope} (same : scope'.context = scope.context) {next next' : Nat}
  (form : Form Note)

include same

/-- Moving the supply forward, past variables that the scope does not have, moves the variables of
the outcome and nothing else. The two scopes need only bind the same names to the same types. -/
theorem run_move (hscope : scope.context.Issued next) (le : next ≤ next') :
    SameOutcome (TyVar.move next next') (run scope form next).1 (run scope' form next').1 := by
  have hrelabel : ScopeRelabelled (.move le) scope scope' :=
    scopeRelabelled_of_eq same fun name t ht =>
      (Ty.rename_congr fun x hx => TyVar.move_of_issued (hscope name t ht x hx)).trans
        (Ty.rename_id t)
  have hrun := run_relabel hrelabel form (Nat.le_refl next)
  have hform : form.alter (Relabelling.move le).before = form := Form.alter_none form
  have hnext : next + (Relabelling.move le).shift = next' := Nat.add_sub_cancel' le
  rw [hform, hnext] at hrun
  rw [hrun]
  cases (run scope form next).1 with
  | error f => exact .error (f.sameUpTo_rename (TyVar.move_injective le))
  | ok r => exact .ok (r.sameUpTo_rename (TyVar.move_injective le))

/-- The position of the supply changes the names of the variables in the outcome and nothing
else, as long as it hands out no variable of the scope. -/
theorem run_sameOutcome (hscope : scope.context.Issued next)
    (hscope' : scope'.context.Issued next') :
    SameOutcome (TyVar.move next next') (run scope form next).1 (run scope' form next').1 := by
  rcases Nat.le_total next next' with le | le
  · exact run_move same form hscope le
  · exact (run_move same.symm form hscope' le).symm (TyVar.move_move le)

end Scopes

end Inference

end TypedSexp
