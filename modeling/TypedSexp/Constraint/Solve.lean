import TypedSexp.Constraint.Descent

/-!
# The solution of constraints

As every step descends, solving ends, with a substitution or with the constraint
that cannot hold.
-/

namespace TypedSexp

namespace Solver

/-- Steps until the constraints are solved or one of them cannot hold. -/
def run (s : Solver) : Except SolveFault Substitution :=
  match _h : s.step with
  | .solved bound => .ok bound
  | .failed fault => .error fault
  | .next s' => run s'
termination_by (s.varCount, s.size)
decreasing_by exact measure_step _h

end Solver

namespace Constraint

/-- A substitution that makes both sides of every constraint equal. The last
constraint is taken first. -/
def solve (cs : List Constraint) : Except SolveFault Substitution :=
  Solver.run { pending := cs.reverse }

end Constraint

end TypedSexp
