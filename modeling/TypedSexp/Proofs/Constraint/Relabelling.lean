import TypedSexp.Constraint.Solve
import TypedSexp.Proofs.Ty.Renaming

/-!
# Relabelled constraints

Constraints are relabelled by new names for their variables and new places for their
origins. Solving looks at neither, as long as different variables keep different names. So
each step, and with it each run, of the relabelled constraints is the relabelled step or run
(`Solver.step_relabel`, `Solver.run_relabel`), whether it ends with a substitution or with a
constraint that cannot hold. What is said of that constraint is the same, word by word
(`Mismatch.detail_rename`).

A change that gives two variables one name is left out. It may make a type infinite that was not, or
bring two types together that differ, and so turn a solution into a failure.
-/

namespace TypedSexp

variable {ρ : TyVar → TyVar}

namespace Mismatch

/-- The mismatch with a new name for every variable. -/
def rename (ρ : TyVar → TyVar) : Mismatch → Mismatch
  | .infinite x t => .infinite (ρ x) (t.rename ρ)
  | .arity ps r qs q =>
    .arity (ps.map (Ty.rename ρ)) (r.rename ρ) (qs.map (Ty.rename ρ)) (q.rename ρ)
  | .clash l r => .clash (l.rename ρ) (r.rename ρ)

/-- A mismatch is what it was when every variable keeps its name. -/
theorem rename_id (m : Mismatch) : m.rename id = m := by
  have hmap : ∀ ts : List Ty, ts.map (Ty.rename id) = ts := fun ts =>
    (List.map_congr_left fun t _ => Ty.rename_id t).trans (List.map_id ts)
  cases m <;> simp only [rename, Ty.rename_id, hmap, id]

/-- New names for variables do not change the kind of a mismatch. -/
theorem kind_rename (m : Mismatch) : (m.rename ρ).kind = m.kind := by
  cases m <;> rfl

/-- The two types of a mismatch are renamed with it, each in its place. -/
theorem sides_rename (m : Mismatch) :
    (m.rename ρ).sides = (m.sides.1.rename ρ, m.sides.2.rename ρ) := by
  cases m with
  | infinite x t => rfl
  | arity ps r qs q => simp only [rename, sides, Ty.rename_fn]
  | clash l r => rfl

/-- The wording around the two types is the same after a renaming. -/
theorem wording_rename (m : Mismatch) (left right : String) :
    (m.rename ρ).wording left right = m.wording left right := by
  cases m with
  | infinite x t => rfl
  | arity ps r qs q => simp only [rename, wording, List.length_map]
  | clash l r => rfl

/-- The detail of a failure does not show the names of variables. It shows both types with shared
names, so variables that differ have to stay different. -/
theorem detail_rename (inj : Function.Injective ρ) (m : Mismatch) :
    (m.rename ρ).detail = m.detail := by
  have hpretty : Ty.prettyAll ([m.sides.1, m.sides.2].map (Ty.rename ρ)) =
      Ty.prettyAll [m.sides.1, m.sides.2] := Ty.prettyAll_rename inj.injOn
  rw [List.map_cons, List.map_singleton] at hpretty
  simp only [detail, sides_rename, hpretty, wording_rename]

end Mismatch

/-- The constraint with new names and a new place. -/
def Constraint.relabel (ρ : TyVar → TyVar) (place : Option Span → Option Span) (c : Constraint) :
    Constraint :=
  ⟨c.left.rename ρ, c.right.rename ρ, place c.origin⟩

variable {place : Option Span → Option Span}

/-- Replacing a variable in a constraint and relabelling is relabelling and replacing the new
variable. Places are moved on both ways alike. -/
theorem Constraint.relabel_subst (inj : Function.Injective ρ) (x : TyVar) (t : Ty)
    (c : Constraint) :
    (c.subst x t).relabel ρ place = (c.relabel ρ place).subst (ρ x) (t.rename ρ) := by
  simp only [subst, relabel, Ty.rename_subst inj]

/-- The fault with new names and new places. -/
def SolveFault.relabel (ρ : TyVar → TyVar) (place : Option Span → Option Span) (f : SolveFault) :
    SolveFault :=
  ⟨f.mismatch.rename ρ, place f.span, f.bound.rename ρ, f.pending.map (Constraint.relabel ρ place)⟩

namespace Solver

/-- The state with new names and new places. -/
def relabel (ρ : TyVar → TyVar) (place : Option Span → Option Span) (s : Solver) : Solver :=
  ⟨s.pending.map (Constraint.relabel ρ place), s.bound.rename ρ⟩

/-- The outcome of a step with new names and new places. -/
def Outcome.relabel (ρ : TyVar → TyVar) (place : Option Span → Option Span) : Outcome → Outcome
  | .solved s => .solved (s.rename ρ)
  | .failed f => .failed (f.relabel ρ place)
  | .next s => .next (s.relabel ρ place)

/-- Binding a variable answers the same for relabelled constraints: it drops the constraint, refuses
it or binds the new variable in all that is left. -/
theorem bindVar_relabel (inj : Function.Injective ρ) (x : TyVar) (t : Ty) (c : Constraint)
    (rest : List Constraint) (bound : Substitution) :
    bindVar (ρ x) (t.rename ρ) (c.relabel ρ place) (rest.map (Constraint.relabel ρ place))
        (bound.rename ρ) =
      (bindVar x t c rest bound).relabel ρ place := by
  unfold bindVar
  rw [Ty.occurs_rename inj]
  by_cases hocc : Ty.occurs x t = true
  · rw [if_pos hocc, if_pos hocc]
    rfl
  · have hrest : (rest.map (Constraint.relabel ρ place)).map
        (Constraint.subst (ρ x) (t.rename ρ)) =
          (rest.map (Constraint.subst x t)).map (Constraint.relabel ρ place) := by
      rw [List.map_map, List.map_map]
      exact List.map_congr_left fun c _ => (Constraint.relabel_subst inj x t c).symm
    have hbound : bound.rename ρ ++ [(ρ x, t.rename ρ)] =
        Substitution.rename ρ (bound ++ [(x, t)]) := by
      rw [Substitution.rename_append]
      rfl
    rw [if_neg hocc, if_neg hocc, hrest, hbound]
    rfl

/-- The constraints between the parts of relabelled functions are those between the parts of the
functions, relabelled. -/
theorem functionParts_relabel (ps : List Ty) (r : Ty) (qs : List Ty) (q : Ty)
    (origin : Option Span) :
    functionParts (ps.map (Ty.rename ρ)) (r.rename ρ) (qs.map (Ty.rename ρ)) (q.rename ρ)
        (place origin) =
      (functionParts ps r qs q origin).map (Constraint.relabel ρ place) := by
  simp only [functionParts, List.map_cons, List.map_reverse, List.map_zipWith,
    List.zipWith_map]
  rfl

/-- A step does not look at the names of variables or at places. It is enough that different
variables have different new names; places may become the same. -/
theorem step_relabel (inj : Function.Injective ρ) (s : Solver) :
    (s.relabel ρ place).step = s.step.relabel ρ place := by
  obtain ⟨pending, bound⟩ := s
  cases pending with
  | nil => rfl
  | cons c rest =>
    obtain ⟨left, right, origin⟩ := c
    have hsame : (left.rename ρ = right.rename ρ) = (left = right) :=
      propext (Ty.rename_injective inj).eq_iff
    unfold step
    simp only [relabel, List.map_cons, Constraint.relabel, hsame]
    split
    · rfl
    · -- One rule for each pair of shapes; a variable on the left is taken first.
      cases left with
      | var x => exact bindVar_relabel inj x right ⟨.var x, right, origin⟩ rest bound
      | base a =>
        cases right with
        | var y => exact bindVar_relabel inj y (.base a) ⟨.base a, .var y, origin⟩ rest bound
        | _ => rfl
      | fn ps r =>
        cases right with
        | var y => exact bindVar_relabel inj y (.fn ps r) ⟨.fn ps r, .var y, origin⟩ rest bound
        | fn qs q =>
          simp only [Ty.rename_fn, List.length_map]
          split
          · rw [functionParts_relabel, ← List.map_append]
            rfl
          · rfl
        | _ => rfl
      | app d a =>
        cases right with
        | var y => exact bindVar_relabel inj y (.app d a) ⟨.app d a, .var y, origin⟩ rest bound
        | _ => rfl

/-- Nor does a run: it returns the renamed substitution or the relabelled fault. The proof goes by
the recursion of the run, with `step_relabel` for each step. -/
theorem run_relabel (inj : Function.Injective ρ) (s : Solver) :
    (s.relabel ρ place).run =
      (s.run.map (Substitution.rename ρ)).mapError (SolveFault.relabel ρ place) := by
  induction s using run.induct with
  | case1 s bound hstep =>
    have hstep' : (s.relabel ρ place).step = .solved (bound.rename ρ) := by
      rw [step_relabel inj, hstep]
      rfl
    rw [run, hstep', run, hstep]
    rfl
  | case2 s f hstep =>
    have hstep' : (s.relabel ρ place).step = .failed (f.relabel ρ place) := by
      rw [step_relabel inj, hstep]
      rfl
    rw [run, hstep', run, hstep]
    rfl
  | case3 s s' hstep ih =>
    have hstep' : (s.relabel ρ place).step = .next (s'.relabel ρ place) := by
      rw [step_relabel inj, hstep]
      rfl
    rw [run, hstep', run, hstep]
    exact ih

end Solver

end TypedSexp
