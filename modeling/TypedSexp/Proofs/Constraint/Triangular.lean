import Mathlib.Tactic.Tauto
import TypedSexp.Proofs.Constraint.Rules
import TypedSexp.Proofs.Ty.Bind

/-!
# Triangular substitutions

A variable that solving has bound is gone from all that is left, so it stands in no
later pair. A substitution of this form is triangular. Applying its pairs in order
settles each bound variable for good: the image of the variable is the image of its
replacement (`Substitution.Triangular.apply_var`).

The invariant of solving is `Solver.Settled`: the pairs bound so far are triangular, and
no constraint that is left holds a bound variable. Every rule keeps it.

Nothing is said here about whether the pairs solve what was asked. That a substitution is triangular
is a property of its shape.
-/

namespace TypedSexp

namespace Substitution

/-- No bound variable stands in its own replacement, and none that an earlier pair binds
stands in a later pair. -/
structure Triangular (s : Substitution) : Prop where
  proper : ∀ p ∈ s, p.1 ∉ p.2.vars
  settled : s.Pairwise fun p q => p.1 ≠ q.1 ∧ p.1 ∉ q.2.vars

theorem triangular_nil : Triangular [] := ⟨by simp, .nil⟩

/-- The later pairs of a triangular substitution are triangular. Inductions go from the first pair
on, in the order in which pairs are applied. -/
theorem Triangular.tail {p : TyVar × Ty} {s : Substitution} (h : Triangular (p :: s)) :
    Triangular s :=
  ⟨fun q hq => h.proper q (List.mem_cons_of_mem _ hq), (List.pairwise_cons.mp h.settled).2⟩

/-- A pair that no bound variable stands in can be bound next. The solver meets the condition
because it replaces a bound variable in all constraints that are left. -/
theorem Triangular.append {s : Substitution} (h : Triangular s) {x : TyVar} {t : Ty}
    (hx : x ∉ t.vars) (hs : ∀ p ∈ s, p.1 ≠ x ∧ p.1 ∉ t.vars) : Triangular (s ++ [(x, t)]) := by
  refine ⟨fun p hp => ?_, List.pairwise_append.mpr ⟨h.settled, List.pairwise_singleton _ _, ?_⟩⟩
  · rcases List.mem_append.mp hp with hp | hp
    · exact h.proper p hp
    · rw [List.mem_singleton.mp hp]
      exact hx
  · intro p hp q hq
    rw [List.mem_singleton.mp hq]
    exact hs p hp

/-- A bound variable and its replacement have the same image, which is what makes the substitution
solve the constraints it came from. -/
theorem Triangular.apply_var {s : Substitution} (h : Triangular s) :
    ∀ p ∈ s, s.apply (.var p.1) = s.apply p.2 := by
  induction s with
  | nil => simp
  | cons q s ih =>
    obtain ⟨x, r⟩ := q
    intro p hp
    rw [apply_cons, apply_cons]
    rcases List.mem_cons.mp hp with rfl | hp
    · rw [Ty.subst, if_pos rfl, Ty.subst_of_not_mem_vars (h.proper _ List.mem_cons_self)]
    · obtain ⟨hne, hfree⟩ := (List.pairwise_cons.mp h.settled).1 p hp
      rw [Ty.subst, if_neg hne.symm, Ty.subst_of_not_mem_vars hfree]
      exact ih h.tail p hp

end Substitution

namespace Constraint

/-- The variable and the type of a constraint that can be bound hold variables of this constraint
only. -/
theorem Orients.mem_vars {c : Constraint} {x : TyVar} {t : Ty} (h : c.Orients x t) :
    x ∈ c.vars ∧ ∀ y ∈ t.vars, y ∈ c.vars := by
  rcases h with ⟨hx, rfl⟩ | ⟨hx, rfl⟩
  · simp +contextual [vars, hx, Ty.vars]
  · simp +contextual [vars, hx, Ty.vars]

end Constraint

namespace Solver

/-- The pairs bound so far are triangular, and the constraints that are left hold none of
the bound variables. -/
structure Settled (s : Solver) : Prop where
  triangular : s.bound.Triangular
  gone : ∀ p ∈ s.bound, p.1 ∉ s.vars

/-- Before the first step nothing is bound. -/
theorem settled_start (pending : List Constraint) : Settled { pending } :=
  ⟨Substitution.triangular_nil, by simp⟩

/-- A rule adds no variable to the constraints that are left. A replacement holds variables of the
constraint that was bound. -/
theorem Rule.mem_vars {s s' : Solver} (h : Rule s s') {y : TyVar} (hy : y ∈ s'.vars) :
    y ∈ s.vars := by
  cases h with
  | drop same =>
    rw [vars, List.flatMap_cons, List.mem_append]
    exact .inr hy
  | bind sides free => exact (mem_vars_bind sides.mem_vars.2 free hy).1
  | function left right arity =>
    simp only [vars, List.flatMap_append, List.flatMap_cons, List.mem_append] at hy ⊢
    refine hy.imp_left fun hy => ?_
    have hparts := mem_functionParts_vars hy
    rwa [Constraint.vars, left, right]
  | application left right =>
    simp only [vars, List.flatMap_cons, List.mem_append, Constraint.vars, left, right,
      Ty.vars] at hy ⊢
    tauto

/-- Every rule keeps the invariant that what is bound is triangular and that no bound variable is
left in a constraint. -/
theorem Rule.settled {s s' : Solver} (h : Rule s s') (inv : Settled s) : Settled s' := by
  have gone : ∀ p ∈ s.bound, p.1 ∉ s'.vars := fun p hp hy => inv.gone p hp (h.mem_vars hy)
  cases h with
  | drop same => exact ⟨inv.triangular, gone⟩
  | @bind c rest bound x t sides free =>
    have later : ∀ p ∈ bound, p.1 ≠ x ∧ p.1 ∉ t.vars := by
      intro p hp
      have hc : p.1 ∉ c.vars := fun hy => inv.gone p hp (by
        rw [vars, List.flatMap_cons, List.mem_append]
        exact .inl hy)
      obtain ⟨hx, ht⟩ := sides.mem_vars
      exact ⟨fun e => hc (e ▸ hx), fun hy => hc (ht _ hy)⟩
    refine ⟨inv.triangular.append free later, fun p hp => ?_⟩
    rcases List.mem_append.mp hp with hp | hp
    · exact gone p hp
    · rw [List.mem_singleton.mp hp]
      exact fun hy => (mem_vars_bind sides.mem_vars.2 free hy).2 rfl
  | function left right arity => exact ⟨inv.triangular, gone⟩
  | application left right => exact ⟨inv.triangular, gone⟩

/-- What a run returns is triangular. It started with nothing bound, so this is no assumption on the
constraints. -/
theorem triangular_of_run {pending : List Constraint} {bound : Substitution}
    (h : run { pending } = .ok bound) : bound.Triangular :=
  ((reaches_of_run h).keeps Settled Rule.settled (settled_start pending)).triangular

end Solver

end TypedSexp
