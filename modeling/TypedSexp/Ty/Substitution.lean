import TypedSexp.Entries
import TypedSexp.Ty.Basic

/-!
# Substitutions

A substitution is a list of variables with their replacements, in the order in
which they were found. Applying it replaces one variable after the other, so a
replacement may itself hold variables that a later pair replaces. The resolved
view gives each variable the replacement in which this has been done already.
-/

namespace TypedSexp

/-- Variables and their replacements, the first found first. -/
abbrev Substitution := List (TyVar × Ty)

namespace Substitution

/-- A type with every pair applied in order. -/
def apply (s : Substitution) (t : Ty) : Ty := s.foldl (fun t p => Ty.subst p.1 p.2 t) t

/-- Each pair with the later ones applied to its replacement. -/
def resolvePairs : Substitution → Substitution
  | [] => []
  | (x, r) :: later => (x, apply later r) :: resolvePairs later

/-- Each variable with its final replacement. A variable that was bound twice
keeps its first place and its last replacement. -/
def resolved (s : Substitution) : Substitution := Entries.ofPairs (resolvePairs s)

@[simp] theorem apply_nil (t : Ty) : apply [] t = t := rfl

@[simp] theorem apply_cons (x : TyVar) (r : Ty) (s : Substitution) (t : Ty) :
    apply ((x, r) :: s) t = apply s (Ty.subst x r t) := rfl

/-- Applying a longer substitution is applying its parts in order. -/
theorem apply_append (s₁ s₂ : Substitution) (t : Ty) :
    apply (s₁ ++ s₂) t = apply s₂ (apply s₁ t) := List.foldl_append

end Substitution

end TypedSexp
