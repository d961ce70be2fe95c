import TypedSexp.Diagnostic
import TypedSexp.Ty.Render
import TypedSexp.Ty.Substitution

/-!
# Constraints

A constraint asks that two types be equal. Where it cannot hold, the mismatch says
why, and the fault of solving says where and what was left to do.
-/

namespace TypedSexp

/-- Two types that have to be equal, and the place that asks for it. -/
structure Constraint where
  left : Ty
  right : Ty
  origin : Option Span := none
  deriving DecidableEq

/-- Why two types cannot be made equal. -/
inductive Mismatch where
  /-- The variable stands inside the type it would have to be. -/
  | infinite (x : TyVar) (t : Ty)
  /-- Two function types take different numbers of arguments. -/
  | arity (leftParams : List Ty) (leftResult : Ty) (rightParams : List Ty) (rightResult : Ty)
  /-- Two types have different shapes or are different atoms. -/
  | clash (left right : Ty)
  deriving DecidableEq

namespace Mismatch

/-- The kind of the failure in a few words. -/
def kind : Mismatch → String
  | .infinite .. => "infinite type"
  | .arity .. => "arity mismatch"
  | .clash .. => "unification failure"

/-- The two types at fault. -/
def sides : Mismatch → Ty × Ty
  | .infinite x t => (.var x, t)
  | .arity ps r qs q => (.fn ps r, .fn qs q)
  | .clash l r => (l, r)

/-- The wording, around the two types as they are shown together. -/
def wording (left right : String) : Mismatch → String
  | .infinite .. => s!"{left} occurs in {right}"
  | .arity ps _ qs _ =>
    s!"{left} takes {ps.length} argument(s) but {right} takes {qs.length}"
  | .clash .. => s!"cannot unify {left} with {right}"

/-- The detail of the failure. -/
def detail (m : Mismatch) : String :=
  let (l, r) := m.sides
  match Ty.prettyAll [l, r] with
  | [left, right] => m.wording left right
  | _ => ""

end Mismatch

namespace Constraint

/-- The constraint with a variable replaced. -/
def subst (x : TyVar) (r : Ty) (c : Constraint) : Constraint :=
  { c with left := Ty.subst x r c.left, right := Ty.subst x r c.right }

/-- The variables of both sides. -/
def vars (c : Constraint) : List TyVar := c.left.vars ++ c.right.vars

/-- The size of both sides. -/
def size (c : Constraint) : Nat := c.left.size + c.right.size

/-- The size of several constraints. -/
def sizeAll : List Constraint → Nat
  | [] => 0
  | c :: cs => c.size + sizeAll cs

theorem sizeAll_append (cs ds : List Constraint) :
    sizeAll (cs ++ ds) = sizeAll cs + sizeAll ds := by
  induction cs with
  | nil => rw [List.nil_append, sizeAll, Nat.zero_add]
  | cons c cs ih => rw [List.cons_append, sizeAll, sizeAll, ih, Nat.add_assoc]

theorem sizeAll_reverse (cs : List Constraint) : sizeAll cs.reverse = sizeAll cs := by
  induction cs with
  | nil => rfl
  | cons c cs ih => rw [List.reverse_cons, sizeAll_append, ih, sizeAll, sizeAll, sizeAll]; omega

end Constraint

/-- Where solving stopped: the mismatch, the place that asked for it, the pairs
bound before, and the constraints that were still left, the next one first. -/
structure SolveFault where
  mismatch : Mismatch
  span : Option Span
  bound : Substitution
  pending : List Constraint

/-- The constraints that were still left, in the order in which they were given
and added. -/
def SolveFault.leftOver (f : SolveFault) : List Constraint := f.pending.reverse

end TypedSexp
