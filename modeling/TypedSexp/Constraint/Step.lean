import TypedSexp.Constraint.Basic

/-!
# One step of solving

Solving keeps the constraints that are left in a list and takes the next one from
its front: equal sides are dropped, a variable is bound to the other side and
replaced everywhere, and two compounds of one shape are taken apart. The parts of a
function type are met from the result back to the first parameter, those of an
application from the argument to the constructor.
-/

namespace TypedSexp

/-- Constraints that are left, the next one first, and the pairs bound so far. -/
structure Solver where
  pending : List Constraint
  bound : Substitution := []

namespace Solver

/-- What one step leads to. -/
inductive Outcome where
  | solved (s : Substitution)
  | failed (fault : SolveFault)
  | next (state : Solver)

/-- Binds a variable to a type that does not hold it. -/
def bindVar (x : TyVar) (t : Ty) (c : Constraint) (rest : List Constraint) (bound : Substitution) :
    Outcome :=
  if Ty.occurs x t then .failed ⟨.infinite x t, c.origin, bound, rest⟩
  else .next ⟨rest.map (Constraint.subst x t), bound ++ [(x, t)]⟩

/-- The constraints between the parts of two function types, the next one first. -/
def functionParts (ps : List Ty) (r : Ty) (qs : List Ty) (q : Ty) (origin : Option Span) :
    List Constraint :=
  ⟨r, q, origin⟩ :: (ps.zipWith (fun p p' => ⟨p, p', origin⟩) qs).reverse

/-- Takes the next constraint. -/
def step (s : Solver) : Outcome :=
  match s.pending with
  | [] => .solved s.bound
  | c :: rest =>
    if c.left = c.right then .next ⟨rest, s.bound⟩
    else
      match c.left, c.right with
      | .var x, t => bindVar x t c rest s.bound
      | t, .var x => bindVar x t c rest s.bound
      | .fn ps r, .fn qs q =>
        if ps.length = qs.length then .next ⟨functionParts ps r qs q c.origin ++ rest, s.bound⟩
        else .failed ⟨.arity ps r qs q, c.origin, s.bound, rest⟩
      | .app c₁ a₁, .app c₂ a₂ =>
        .next ⟨⟨a₁, a₂, c.origin⟩ :: ⟨c₁, c₂, c.origin⟩ :: rest, s.bound⟩
      | l, r => .failed ⟨.clash l r, c.origin, s.bound, rest⟩

/-- The variables of all constraints that are left. -/
def vars (s : Solver) : List TyVar := s.pending.flatMap Constraint.vars

/-- The number of different variables in the constraints that are left. -/
def varCount (s : Solver) : Nat := s.vars.eraseDups.length

/-- The total size of the constraints that are left. -/
def size (s : Solver) : Nat := Constraint.sizeAll s.pending

end Solver

end TypedSexp
