import TypedSexp.Proofs.Constraint.Relabelling
import TypedSexp.Proofs.Entries
import TypedSexp.Proofs.Form.Altered
import TypedSexp.Proofs.Inference.Soundness

/-!
# Relabelled inference

Inference does not look at the names of type variables, at the places of forms, at the values
of literals, or at the types that were noted before. A `Relabelling` changes all of these. It
moves the supply as well, by a fixed distance, and renames the variables that the supply is
still to hand out along with it.

The pass over a relabelled form takes the same turns as the pass over the form itself
(`Inference.infer_relabel`), and so do the solver and the whole run
(`Inference.run_relabel`). A success is the relabelled success, and a failure the relabelled
failure.

A relabelling keeps different variables apart. Changes that make two variables one are left out,
since they may turn a success into a failure.
-/

namespace TypedSexp

/-- A change of what inference does not look at. -/
structure Relabelling where
  /-- The new name of a variable. -/
  var : TyVar → TyVar := id
  injective : Function.Injective var := by exact Function.injective_id
  /-- Where the supply stands. -/
  start : Nat := 0
  /-- How far the supply is moved. -/
  shift : Nat := 0
  /-- The variables that the supply is still to hand out move with it. -/
  var_fresh : ∀ i, start ≤ i → var { id := i } = { id := i + shift } := by exact fun _ _ => rfl
  /-- The new place of a form. -/
  place : Option Span → Option Span := id
  /-- The new type of a note before inference. -/
  noted : Option Ty → Option Ty := id
  /-- The new value of a string. -/
  text : String → String := id
  /-- The new value of a number. -/
  number : Number → Number := id

namespace Relabelling

/-- The relabelling that leaves all as it is. -/
def unchanged : Relabelling := {}

/-- The new type of a form. -/
abbrev type (ℓ : Relabelling) : Ty → Ty := Ty.rename ℓ.var

/-- The change of a form before inference. -/
def before (ℓ : Relabelling) : Form.Change :=
  { slot := fun n => ⟨ℓ.place n.span, ℓ.noted n.type⟩
    other := fun n => ⟨ℓ.place n.span, ℓ.noted n.type⟩
    text := ℓ.text
    number := ℓ.number }

/-- The change of a form after inference. Where inference notes nothing, the note is as
before. -/
def after (ℓ : Relabelling) : Form.Change :=
  { ℓ.before with slot := fun n => ⟨ℓ.place n.span, n.type.map ℓ.type⟩ }

/-- The change of a form after inference where the variables keep their names. -/
def keeping (ℓ : Relabelling) : Form.Change :=
  { ℓ.before with slot := fun n => ⟨ℓ.place n.span, n.type⟩ }

@[simp] theorem outer_before (ℓ : Relabelling) : ℓ.before.outer = ℓ.before := rfl

end Relabelling

/-- The cause of a fault with a new name for every variable. -/
def TypeFault.Cause.rename (ρ : TyVar → TyVar) : TypeFault.Cause → TypeFault.Cause
  | .mismatch m => .mismatch (m.rename ρ)
  | c => c

/-- The fault relabelled. -/
def TypeFault.relabel (ℓ : Relabelling) (f : TypeFault) : TypeFault :=
  ⟨f.cause.rename ℓ.var, ℓ.place f.span⟩

/-- What typing a form gave, relabelled. -/
def Inferred.relabel (ℓ : Relabelling) (r : Inferred) : Inferred :=
  ⟨r.form.alter ℓ.after, ℓ.type r.type, r.substitution.rename ℓ.var, r.constraintCount⟩

section Identity

variable {ℓ : Relabelling} (h : ℓ.var = id)

include h

/-- Without new names for the variables, a fault changes its place only. -/
theorem TypeFault.relabel_of_id (f : TypeFault) :
    f.relabel ℓ = { f with span := ℓ.place f.span } := by
  obtain ⟨cause, span⟩ := f
  cases cause with
  | mismatch m =>
    rw [relabel, h]
    exact congrArg (fun m => mk (.mismatch m) _) m.rename_id
  | _ => rfl

/-- Without new names for the variables, a typed form keeps its types. -/
theorem Inferred.relabel_of_id (r : Inferred) :
    r.relabel ℓ = { r with form := r.form.alter ℓ.keeping } := by
  have htype : ℓ.type = id := by
    rw [Relabelling.type, h]
    exact funext Ty.rename_id
  have hafter : ℓ.after = ℓ.keeping := by
    rw [Relabelling.after, htype]
    simp only [Option.map_id, id]
    rfl
  rw [relabel, hafter, htype, h, Substitution.rename_id]
  rfl

end Identity

/-- An application stays one, and a list that is none keeps its fault. Only symbols and their number
count here, and no change touches these. -/
theorem Call.ofElements_alter (c c' : Form.Change) (head : Form Note) (rest : List (Form Note)) :
    (Call.ofElements (head.alter c :: rest.map (Form.alter c'))).map (fun _ => ()) =
      (Call.ofElements (head :: rest)).map fun _ => () := by
  cases head with
  | symbol n s =>
    simp only [Form.alter, Call.ofElements]
    split
    · cases rest with
      | nil => rfl
      | cons p ps => rfl
    · rfl
  | list n es =>
    obtain ⟨es', h⟩ := Form.exists_alter_list c n es
    rw [h]
    rfl
  | _ => rfl

namespace Inference

variable {ℓ : Relabelling}

/-- The state relabelled. -/
def State.relabel (ℓ : Relabelling) (st : State) : State :=
  ⟨st.next + ℓ.shift, st.constraints.map (Constraint.relabel ℓ.var ℓ.place)⟩

/-- The next variable of the supply has as its new name the next variable of the moved supply. -/
theorem State.type_fresh {st : State} (h : ℓ.start ≤ st.next) :
    ℓ.type (.var st.fresh) = .var (st.relabel ℓ).fresh :=
  congrArg Ty.var (ℓ.var_fresh st.next h)

/-- Taking a variable from the supply and moving the supply may be done in any order. -/
theorem State.relabel_advance (st : State) : st.advance.relabel ℓ = (st.relabel ℓ).advance := by
  simp only [advance, relabel, Nat.add_right_comm]

/-- A constraint that is recorded is recorded with its new names and its new place. -/
theorem State.relabel_record (st : State) (c : Constraint) :
    (st.record c).relabel ℓ = (st.relabel ℓ).record (c.relabel ℓ.var ℓ.place) := rfl

/-- The second pass is the first one relabelled. What a pass that failed leaves of the forms
is left open. -/
inductive Relabelled (ℓ : Relabelling) {φ ρ : Type} (forms : φ → φ) (result : ρ → ρ) :
    Pass φ ρ → Pass φ ρ → Prop
  | ok {es : φ} {st : State} {r : ρ} (le : ℓ.start ≤ st.next) :
      Relabelled ℓ forms result ⟨es, st, .ok r⟩ ⟨forms es, st.relabel ℓ, .ok (result r)⟩
  | error {es es' : φ} {st : State} {f : TypeFault} (le : ℓ.start ≤ st.next) :
      Relabelled ℓ forms result ⟨es, st, .error f⟩ ⟨es', st.relabel ℓ, .error (f.relabel ℓ)⟩

/-- A pass that can be relabelled has not moved the supply back behind the start of the
relabelling. -/
theorem Relabelled.le {φ ρ : Type} {forms : φ → φ} {result : ρ → ρ} {pass pass' : Pass φ ρ}
    (h : Relabelled ℓ forms result pass pass') : ℓ.start ≤ pass.state.next := by
  cases h with
  | ok le => exact le
  | error le => exact le

/-- A pass that gives a result is relabelled by relabelling its forms, its state and its result. -/
theorem Relabelled.of_eq {φ ρ : Type} {forms : φ → φ} {result : ρ → ρ} {es es' : φ} {st : State}
    {r r' : ρ} (le : ℓ.start ≤ st.next) (hes : forms es = es') (hr : result r = r') :
    Relabelled ℓ forms result ⟨es, st, .ok r⟩ ⟨es', st.relabel ℓ, .ok r'⟩ := by
  rw [← hes, ← hr]
  exact .ok le

/-- The second scope gives each name the relabelled type. -/
def ScopeRelabelled (ℓ : Relabelling) (scope scope' : Scope) : Prop :=
  scope'.context = scope.context.map ℓ.type

/-- A relabelling that keeps the types of a scope relates it to all scopes that give the names the
same types. How these are split into frames does not matter. -/
theorem scopeRelabelled_of_eq {scope scope' : Scope} (same : scope'.context = scope.context)
    (h : ∀ name t, scope.context name = some t → ℓ.type t = t) :
    ScopeRelabelled ℓ scope scope' := by
  funext name
  rw [same, Context.map]
  cases ht : scope.context name with
  | none => rw [Option.map_none]
  | some t => rw [Option.map_some, h name t ht]

/-- Binding the same parameters keeps scopes relabelled, where the types of the second frame are the
new ones. -/
theorem ScopeRelabelled.cons {scope scope' : Scope} (h : ScopeRelabelled ℓ scope scope')
    (frame : List (String × Ty)) :
    ScopeRelabelled ℓ ({ bindings := frame } :: scope)
      ({ bindings := frame.map (Prod.map id ℓ.type) } :: scope') := by
  funext name
  have hname := congrFun h name
  simp only [Scope.context, Context.map, Scope.lookup?, List.findSome?_cons] at hname ⊢
  have hget := Entries.get?_map Function.injective_id ℓ.type name frame
  rw [id] at hget
  rw [hget]
  cases Entries.get? name frame with
  | none => exact hname
  | some t => rfl

/-- Binding parameters does not see the relabelling. Each of them takes a variable from the supply,
and the moved supply gives the moved variable. -/
theorem bindParams_relabel (frame : List (String × Ty)) (ps : List (Form Note)) {st : State}
    (hst : ℓ.start ≤ st.next) :
    Relabelled ℓ (List.map (Form.alter ℓ.after))
      (Prod.map (List.map (Prod.map id ℓ.type)) (List.map ℓ.type))
      (bindParams frame ps st)
      (bindParams (frame.map (Prod.map id ℓ.type)) (ps.map (Form.alter ℓ.before))
        (st.relabel ℓ)) := by
  induction ps generalizing frame st with
  | nil => exact .ok hst
  | cons p ps ih =>
    rw [List.map_cons]
    cases p with
    | symbol n s =>
      have hput : Entries.put s (ℓ.type (.var st.fresh)) (frame.map (Prod.map id ℓ.type)) =
          (Entries.put s (.var st.fresh) frame).map (Prod.map id ℓ.type) :=
        Entries.put_map Function.injective_id ℓ.type s (.var st.fresh) frame
      have hadvance : ℓ.start ≤ st.advance.next := Nat.le_succ_of_le hst
      have hrest := ih (Entries.put s (.var st.fresh) frame) hadvance
      simp only [Form.alter, bindParams]
      rw [← State.type_fresh hst, hput, ← State.relabel_advance]
      generalize bindParams _ ps _ = pass at hrest ⊢
      generalize bindParams _ (ps.map _) _ = pass' at hrest ⊢
      cases hrest with
      | ok le => exact .ok le
      | error le => exact .error le
    | list n es =>
      obtain ⟨es', h⟩ := Form.exists_alter_list ℓ.before n es
      rw [h]
      exact .error hst
    | _ => exact .error hst

/-! ## The pass over a form -/

/-- The pass over a form does not see the relabelling. -/
def Follows (ℓ : Relabelling) (e : Form Note) : Prop :=
  ∀ {scope scope' : Scope} {st : State}, ScopeRelabelled ℓ scope scope' → ℓ.start ≤ st.next →
    Relabelled ℓ (Form.alter ℓ.after) ℓ.type (infer scope e st)
      (infer scope' (e.alter ℓ.before) (st.relabel ℓ))

section Elements

variable {scope scope' : Scope} {st : State} {es : List (Form Note)}

theorem inferAll_relabel (each : ∀ e ∈ es, Follows ℓ e) (hscope : ScopeRelabelled ℓ scope scope')
    (hst : ℓ.start ≤ st.next) :
    Relabelled ℓ (List.map (Form.alter ℓ.after)) (List.map ℓ.type) (inferAll scope es st)
      (inferAll scope' (es.map (Form.alter ℓ.before)) (st.relabel ℓ)) := by
  induction es generalizing st with
  | nil =>
    rw [List.map_nil, inferAll, inferAll]
    exact .ok hst
  | cons e es ih =>
    obtain ⟨he, hes⟩ := List.forall_mem_cons.mp each
    have hfirst := he hscope hst
    rw [List.map_cons, inferAll, inferAll]
    generalize infer scope e st = pass at hfirst ⊢
    generalize infer scope' (e.alter ℓ.before) _ = pass' at hfirst ⊢
    cases hfirst with
    | error le => exact .error le
    | @ok _ st₁ _ le =>
      have hrest := ih hes le
      dsimp only
      generalize inferAll scope es st₁ = pass at hrest ⊢
      generalize inferAll scope' (es.map _) _ = pass' at hrest ⊢
      cases hrest with
      | ok le => exact .ok le
      | error le => exact .error le

theorem inferElements_relabel (each : ∀ e ∈ es, Follows ℓ e) (element : Ty)
    (hscope : ScopeRelabelled ℓ scope scope') (hst : ℓ.start ≤ st.next) :
    Relabelled ℓ (List.map (Form.alter ℓ.after)) id (inferElements scope element es st)
      (inferElements scope' (ℓ.type element) (es.map (Form.alter ℓ.before)) (st.relabel ℓ)) := by
  induction es generalizing st with
  | nil =>
    rw [List.map_nil, inferElements, inferElements]
    exact .ok hst
  | cons e es ih =>
    obtain ⟨he, hes⟩ := List.forall_mem_cons.mp each
    have hfirst := he hscope hst
    rw [List.map_cons, inferElements, inferElements, Form.note_alter]
    generalize infer scope e st = pass at hfirst ⊢
    generalize infer scope' (e.alter ℓ.before) _ = pass' at hfirst ⊢
    cases hfirst with
    | error le => exact .error le
    | @ok _ st₁ t le =>
      have hrecord : ℓ.start ≤ (st₁.record ⟨element, t, e.note.span⟩).next := le
      have hrest := ih hes hrecord
      rw [State.relabel_record] at hrest
      dsimp only [Constraint.relabel, Relabelling.before] at hrest ⊢
      generalize inferElements scope element es _ = pass at hrest ⊢
      generalize inferElements scope' _ (es.map _) _ = pass' at hrest ⊢
      cases hrest with
      | ok le => exact .ok le
      | error le => exact .error le

end Elements

/-- The pass over a vector does not see the relabelling, if the passes over its elements do not. -/
theorem infer_relabel_vector {n : Note} {es : List (Form Note)} (each : ∀ e ∈ es, Follows ℓ e) :
    Follows ℓ (.vector n es) := by
  intro scope scope' st hscope hst
  have hadvance : ℓ.start ≤ st.advance.next := Nat.le_succ_of_le hst
  have helements := inferElements_relabel each (.var st.fresh) hscope hadvance
  rw [Form.alter_vector, infer, infer, ← State.relabel_advance, ← State.type_fresh hst]
  generalize inferElements scope _ es _ = pass at helements ⊢
  generalize inferElements scope' _ (es.map _) _ = pass' at helements ⊢
  cases helements with
  | ok le => exact .of_eq le Form.alter_vector rfl
  | error le => exact .error le

/-- The pass over a function definition does not see it, if the passes over its body do not. The
head and the vector of parameters are only looked at, so their notes are changed in another way than
the others. -/
theorem infer_relabel_function {n m : Note} {head : Form Note} {ps body : List (Form Note)}
    (hfn : head.isSymbol Form.fnName = true) (each : ∀ e ∈ body, Follows ℓ e) :
    Follows ℓ (.list n (head :: .vector m ps :: body)) := by
  intro scope scope' st hscope hst
  have hparams := bindParams_relabel [] ps hst
  rw [List.map_nil] at hparams
  rw [Form.alter_function hfn, infer, if_pos hfn, infer, if_pos (by rwa [Form.isSymbol_alter])]
  dsimp only
  rw [Relabelling.outer_before, List.isEmpty_map]
  generalize bindParams [] ps st = params at hparams ⊢
  generalize bindParams [] (ps.map _) _ = params' at hparams ⊢
  cases hparams with
  | error le => exact .error le
  | @ok _ _ r le =>
    obtain ⟨frame, ts⟩ := r
    have hbody := inferAll_relabel each (hscope.cons frame) le
    dsimp only [Prod.map]
    split
    · exact .error le
    · generalize inferAll _ body _ = pass at hbody ⊢
      generalize inferAll _ (body.map _) _ = pass' at hbody ⊢
      cases hbody with
      | error le => exact .error le
      | @ok es' st' results le =>
        have htype : ℓ.type (.fn ts (results.getLastD .number)) =
            .fn (ts.map ℓ.type) ((results.map ℓ.type).getLastD .number) := by
          refine (Ty.rename_fn ts _).trans ?_
          rw [List.getLastD_eq_getLast?, List.getLastD_eq_getLast?, List.getLast?_map]
          exact congrArg (Ty.fn _) (Option.getD_map ℓ.type _ _).symm
        dsimp only
        rw [← htype]
        exact .of_eq le (Form.alter_function hfn) rfl

/-- The pass over an application does not see a relabelling, if the passes over head and operands do
not. The variable for the result is taken from the moved supply. -/
theorem infer_relabel_application {n : Note} {head : Form Note} {rest : List (Form Note)}
    (happ : head.isSymbol Form.fnName = false) (hhead : Follows ℓ head)
    (each : ∀ e ∈ rest, Follows ℓ e) : Follows ℓ (.list n (head :: rest)) := by
  intro scope scope' st hscope hst
  have happ' : (head.alter ℓ.before).isSymbol Form.fnName = false := by rwa [Form.isSymbol_alter]
  have hcall := Call.ofElements_alter ℓ.before ℓ.before head rest
  have hcallee := hhead hscope hst
  rw [Form.alter_application happ, infer.eq_def, infer.eq_def scope']
  simp only [happ, happ', Bool.false_eq_true, if_false]
  generalize Call.ofElements (head :: rest) = call at hcall ⊢
  generalize Call.ofElements (head.alter ℓ.before :: _) = call' at hcall ⊢
  cases call with
  | error f =>
    cases call' with
    | error f' =>
      cases hcall
      exact .error hst
    | ok _ => cases hcall
  | ok c =>
    cases call' with
    | error f' => cases hcall
    | ok c' =>
      dsimp only
      generalize hpass : infer scope head st = callee at hcallee ⊢
      generalize infer scope' (head.alter ℓ.before) _ = callee' at hcallee ⊢
      cases hcallee with
      | error le => exact .error le
      | @ok head' _ t le =>
        have hplain : head'.isSymbol Form.fnName = false := by
          rw [Form.isSymbol_congr (assigns_of_infer head hpass).untyped_eq, happ]
        have hoperands := inferAll_relabel each hscope le
        dsimp only
        generalize inferAll scope rest _ = operands at hoperands ⊢
        generalize inferAll scope' (rest.map _) _ = operands' at hoperands ⊢
        cases hoperands with
        | error le => exact .error le
        | @ok es' st' ts le =>
          have htype : ℓ.type (.fn ts (.var st'.fresh)) =
              .fn (ts.map ℓ.type) (.var (st'.relabel ℓ).fresh) := by
            rw [← State.type_fresh le]
            exact Ty.rename_fn ts _
          have hstate : (st'.advance.record ⟨t, .fn ts (.var st'.fresh), n.span⟩).relabel ℓ =
              (st'.relabel ℓ).advance.record
                ⟨ℓ.type t, .fn (ts.map ℓ.type) (.var (st'.relabel ℓ).fresh), ℓ.place n.span⟩ := by
            rw [State.relabel_record, State.relabel_advance, ← htype]
            rfl
          dsimp only [Relabelling.before]
          rw [← hstate, ← State.type_fresh le]
          exact .of_eq (Nat.le_succ_of_le le) (Form.alter_application hplain) rfl

/-- A list that starts as a function definition and has no vector of parameters next is not
looked at any further. -/
theorem infer_noParameters {scope : Scope} {st : State} {n : Note} {head : Form Note}
    {rest : List (Form Note)} (hfn : head.isSymbol Form.fnName = true)
    (hrest : ∀ m ps body, rest = .vector m ps :: body → False) :
    infer scope (.list n (head :: rest)) st =
      ⟨.list n (head :: rest), st, .error ⟨.noParameters, n.span⟩⟩ := by
  rw [infer, if_pos hfn]
  exact hrest

/-- The pass over any form does not see the relabelling. This is the induction over forms, with one
lemma for each kind of compound form. -/
theorem infer_relabel (e : Form Note) : Follows ℓ e := by
  induction e using Form.ind with
  | symbol n s =>
    intro scope scope' st hscope hst
    have hbound : scope'.lookup? s = (scope.lookup? s).map ℓ.type := congrFun hscope s
    rw [Form.alter, infer, infer, hbound]
    cases scope.lookup? s with
    | none => exact .error hst
    | some t => exact .ok hst
  | string n v | number n v =>
    intro scope scope' st hscope hst
    rw [Form.alter, infer, infer]
    exact .ok hst
  | bare n =>
    intro scope scope' st hscope hst
    rw [Form.alter, infer, infer]
    exact .error hst
  | vector n es ih => exact infer_relabel_vector ih
  | empty n =>
    intro scope scope' st hscope hst
    rw [Form.alter, infer, infer]
    exact .error hst
  | headOnly n head hfn =>
    intro scope scope' st hscope hst
    rw [Form.alter_headOnly hfn, infer_noParameters hfn (by simp),
      infer_noParameters (by rwa [Form.isSymbol_alter]) (by simp)]
    exact .error hst
  | function n head m ps es hfn _ ihes => exact infer_relabel_function hfn ihes
  | malformed n head p es hfn hp _ =>
    intro scope scope' st hscope hst
    have hp' := Form.alter_ne_vector ℓ.before hp
    rw [Form.alter_malformed hfn hp, infer_noParameters hfn (by simp_all),
      infer_noParameters (by rwa [Form.isSymbol_alter]) (by simp_all)]
    exact .error hst
  | application n head es happ ihhead ihes => exact infer_relabel_application happ ihhead ihes

/-! ## Whole runs -/

/-- Applying the relabelled substitution to the relabelled types gives the relabelled types of
the outcome. -/
theorem applySubstitution_relabel (ℓ : Relabelling) (s : Substitution) (e : Form Note) :
    (e.alter ℓ.after).applySubstitution (s.rename ℓ.var) =
      (e.applySubstitution s).alter ℓ.after := by
  have hslot : Note.apply (s.rename ℓ.var) ∘ ℓ.after.slot = ℓ.after.slot ∘ Note.apply s := by
    funext n
    obtain ⟨span, type⟩ := n
    cases type with
    | none => rfl
    | some t =>
      exact congrArg (fun t => Note.mk (ℓ.place span) (some t))
        (Substitution.rename_apply ℓ.injective s t).symm
  rw [Form.applySubstitution_eq_alter, Form.applySubstitution_eq_alter, Form.alter_alter,
    Form.alter_alter, Form.Change.comp, Form.Change.comp, hslot]
  rfl

/-- A run over a relabelled form, with the supply moved along, is the relabelled run. It covers
failures as well, with their places, and the position at which the supply is left. -/
theorem run_relabel {scope scope' : Scope} (hscope : ScopeRelabelled ℓ scope scope')
    (form : Form Note) {next : Nat} (hnext : ℓ.start ≤ next) :
    run scope' (form.alter ℓ.before) (next + ℓ.shift) =
      (((run scope form next).1.map (Inferred.relabel ℓ)).mapError (TypeFault.relabel ℓ),
        (run scope form next).2 + ℓ.shift) := by
  have hpass : Relabelled ℓ (Form.alter ℓ.after) ℓ.type (infer scope form { next })
      (infer scope' (form.alter ℓ.before) { next := next + ℓ.shift }) :=
    infer_relabel form hscope hnext
  unfold run
  generalize infer scope form { next } = pass at hpass ⊢
  generalize infer scope' (form.alter ℓ.before) _ = pass' at hpass ⊢
  cases hpass with
  | error _ => rfl
  | @ok e st t le =>
    have hsolve : Solver.run { pending := (st.relabel ℓ).constraints } = _ :=
      Solver.run_relabel ℓ.injective { pending := st.constraints }
    dsimp only
    rw [hsolve]
    cases Solver.run { pending := st.constraints } with
    | error f => rfl
    | ok s =>
      have hform := applySubstitution_relabel ℓ s e
      have htype := Substitution.rename_apply ℓ.injective s t
      have hcount : (st.relabel ℓ).constraints.length = st.constraints.length := List.length_map _
      simp only [Except.map, Except.mapError, Inferred.relabel, hform, htype, hcount]
      rfl

/-- A run never moves the supply back, whether or not it succeeds. -/
theorem le_run (scope : Scope) (form : Form Note) (next : Nat) :
    next ≤ (run scope form next).2 := by
  -- The relabelling that changes nothing, with the supply where the run starts.
  have hscope : ScopeRelabelled { start := next } scope scope :=
    scopeRelabelled_of_eq rfl fun _ t _ => Ty.rename_id t
  exact (infer_relabel form hscope (Nat.le_refl next)).le

end Inference

end TypedSexp
