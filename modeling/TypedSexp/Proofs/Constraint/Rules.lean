import Mathlib.Logic.Relation
import TypedSexp.Constraint.Solve

/-!
# The rules of solving

A step of the solver either goes on by one of four rules (`Solver.Rule`) or stops at
a constraint that cannot hold, for one of three reasons (`Solver.Refusal`). Both are
read off the step function once, in `Solver.rule_of_step` and
`Solver.refusal_of_step`; every invariant is then a case for each rule.

A run is a chain of such steps. It returns a substitution only when no constraint is
left (`Solver.reaches_of_run`), and it fails only at a state that the steps reach
(`Solver.exists_refusal_of_run`). So what every rule keeps, every run keeps.

The rules take the constraints in one order, that of the solver. Nothing here compares the
substitution that is found with those that other orders would lead to.
-/

namespace TypedSexp

/-- What stands outermost in a type that is no variable. -/
inductive Ty.Head where
  | atom (a : TyBase)
  | function
  | application
  deriving DecidableEq

/-- What stands outermost in a type. -/
def Ty.head? : Ty → Option Ty.Head
  | .base a => some (.atom a)
  | .var _ => none
  | .fn _ _ => some .function
  | .app _ _ => some .application

/-- What stands outermost stays there when variables are replaced. So types with different things
outermost have no common image. -/
theorem Ty.head?_bind {θ : TyVar → Ty} {t : Ty} {h : Ty.Head} (ht : t.head? = some h) :
    (t.bind θ).head? = some h := by
  cases t with
  | var x => cases ht
  | base a => exact ht
  | fn ps r => exact ht
  | app c a => exact ht

/-- One side of the constraint is the variable and the other one is the type. -/
def Constraint.Orients (c : Constraint) (x : TyVar) (t : Ty) : Prop :=
  (c.left = .var x ∧ c.right = t) ∨ (c.right = .var x ∧ c.left = t)

namespace Solver

/-- How a step leads from one state to the next. -/
inductive Rule : Solver → Solver → Prop
  /-- Equal sides are dropped. -/
  | drop {c : Constraint} {rest : List Constraint} {bound : Substitution}
      (same : c.left = c.right) : Rule ⟨c :: rest, bound⟩ ⟨rest, bound⟩
  /-- A variable is bound to a type that does not hold it, and replaced in all that is left. -/
  | bind {c : Constraint} {rest : List Constraint} {bound : Substitution} {x : TyVar} {t : Ty}
      (sides : c.Orients x t) (free : x ∉ t.vars) :
      Rule ⟨c :: rest, bound⟩ ⟨rest.map (Constraint.subst x t), bound ++ [(x, t)]⟩
  /-- Two function types with the same number of parameters are taken apart. -/
  | function {c : Constraint} {rest : List Constraint} {bound : Substitution}
      {ps qs : List Ty} {r q : Ty} (left : c.left = .fn ps r) (right : c.right = .fn qs q)
      (arity : ps.length = qs.length) :
      Rule ⟨c :: rest, bound⟩ ⟨functionParts ps r qs q c.origin ++ rest, bound⟩
  /-- Two applications are taken apart. -/
  | application {c : Constraint} {rest : List Constraint} {bound : Substitution}
      {c₁ a₁ c₂ a₂ : Ty} (left : c.left = .app c₁ a₁) (right : c.right = .app c₂ a₂) :
      Rule ⟨c :: rest, bound⟩ ⟨⟨a₁, a₂, c.origin⟩ :: ⟨c₁, c₂, c.origin⟩ :: rest, bound⟩

/-- Why a step stops at a constraint. -/
inductive Refusal (c : Constraint) : Mismatch → Prop
  /-- The variable of one side stands inside the other side. -/
  | infinite {x : TyVar} {t : Ty} (sides : c.Orients x t) (occurs : x ∈ t.vars)
      (proper : t ≠ .var x) : Refusal c (.infinite x t)
  /-- The sides are function types with different numbers of parameters. -/
  | arity {ps qs : List Ty} {r q : Ty} (left : c.left = .fn ps r) (right : c.right = .fn qs q)
      (differ : ps.length ≠ qs.length) : Refusal c (.arity ps r qs q)
  /-- No side is a variable, and different things stand outermost in them. -/
  | clash {h k : Ty.Head} (left : c.left.head? = some h) (right : c.right.head? = some k)
      (differ : h ≠ k) : Refusal c (.clash c.left c.right)

/-! ## Reading the rules off a step -/

/-- Binding goes on by dropping a constraint between a variable and itself or by binding a variable
that does not stand in the other side. -/
private theorem rule_of_bindVar {x : TyVar} {t : Ty} {c : Constraint} {rest : List Constraint}
    {bound : Substitution} {s' : Solver} (sides : c.Orients x t)
    (h : bindVar x t c rest bound = .next s') : Rule ⟨c :: rest, bound⟩ s' := by
  unfold bindVar at h
  split at h
  · cases h
  · next hocc =>
    cases h
    exact .bind sides (by simpa [Ty.occurs] using hocc)

/-- Every step that goes on follows one of the rules. Invariants of a run are proved from the rules,
and the step function is not opened again. -/
theorem rule_of_step {s s' : Solver} (h : s.step = .next s') : Rule s s' := by
  obtain ⟨pending, bound⟩ := s
  unfold step at h
  split at h
  · cases h
  · next c rest hp =>
    simp only at hp
    subst hp
    split at h
    · next same =>
      cases h
      exact .drop same
    · split at h
      · next hl => exact rule_of_bindVar (.inl ⟨hl, rfl⟩) h
      · next hr _ => exact rule_of_bindVar (.inr ⟨hr, rfl⟩) h
      · next hl hr =>
        split at h
        · next arity =>
          cases h
          exact .function hl hr arity
        · cases h
      · next hl hr =>
        cases h
        exact .application hl hr
      · cases h

/-- Binding stops only where the variable properly stands in the other side, and the fault keeps the
state as it was. -/
private theorem refusal_of_bindVar {x : TyVar} {t : Ty} {c : Constraint}
    {rest : List Constraint} {bound : Substitution} {f : SolveFault} (sides : c.Orients x t)
    (proper : t ≠ .var x) (h : bindVar x t c rest bound = .failed f) :
    Refusal c f.mismatch ∧ f = ⟨f.mismatch, c.origin, bound, rest⟩ := by
  unfold bindVar at h
  split at h
  · next hocc =>
    cases h
    exact ⟨.infinite sides (by simpa [Ty.occurs] using hocc) proper, rfl⟩
  · cases h

/-- Two different types of which none is a variable, and which are neither two functions
nor two applications, have different things outermost. -/
private theorem heads_differ {l r : Ty} (hne : ¬l = r) (hl : ∀ x, l = .var x → False)
    (hr : ∀ x, r = .var x → False)
    (hfn : ∀ ps p qs q, l = .fn ps p → r = .fn qs q → False)
    (happ : ∀ c a d b, l = .app c a → r = .app d b → False) :
    ∃ h k, l.head? = some h ∧ r.head? = some k ∧ h ≠ k := by
  cases l with
  | var x => exact (hl x rfl).elim
  | base a =>
    cases r with
    | base b => exact ⟨_, _, rfl, rfl, fun e => hne (congrArg Ty.base (Ty.Head.atom.inj e))⟩
    | var y => exact (hr y rfl).elim
    | fn qs q => exact ⟨_, _, rfl, rfl, nofun⟩
    | app d b => exact ⟨_, _, rfl, rfl, nofun⟩
  | fn ps p =>
    cases r with
    | base b => exact ⟨_, _, rfl, rfl, nofun⟩
    | var y => exact (hr y rfl).elim
    | fn qs q => exact (hfn ps p qs q rfl rfl).elim
    | app d b => exact ⟨_, _, rfl, rfl, nofun⟩
  | app c a =>
    cases r with
    | base b => exact ⟨_, _, rfl, rfl, nofun⟩
    | var y => exact (hr y rfl).elim
    | fn qs q => exact ⟨_, _, rfl, rfl, nofun⟩
    | app d b => exact (happ c a d b rfl rfl).elim

/-- Every step that stops has a reason to, at the next constraint, and the fault holds the
place of that constraint and the state. -/
theorem refusal_of_step {s : Solver} {f : SolveFault} (h : s.step = .failed f) :
    ∃ c rest, s.pending = c :: rest ∧ Refusal c f.mismatch ∧
      f = ⟨f.mismatch, c.origin, s.bound, rest⟩ := by
  unfold step at h
  split at h
  · cases h
  · next c rest hp =>
    refine ⟨c, rest, hp, ?_⟩
    split at h
    · cases h
    · next hne =>
      split at h
      · next x hl =>
        exact refusal_of_bindVar (.inl ⟨hl, rfl⟩) (fun hr => hne (hl.trans hr.symm)) h
      · next x hr _ =>
        exact refusal_of_bindVar (.inr ⟨hr, rfl⟩) (fun hl => hne (hl.trans hr.symm)) h
      · next hl hr =>
        split at h
        · cases h
        · next differ =>
          cases h
          exact ⟨.arity hl hr differ, rfl⟩
      · cases h
      · next hlv hrv hfn happ =>
        cases h
        obtain ⟨_, _, left, right, differ⟩ := heads_differ hne hlv hrv hfn happ
        exact ⟨.clash left right differ, rfl⟩

/-- A step solves only a state with no constraint left, and the answer is what was bound on the way
there. Nothing is computed at the end. -/
theorem eq_of_step_solved {s : Solver} {bound : Substitution} (h : s.step = .solved bound) :
    s = ⟨[], bound⟩ := by
  obtain ⟨pending, b⟩ := s
  have hbind : ∀ {x t c rest}, bindVar x t c rest b ≠ .solved bound := by
    intro x t c rest hb
    unfold bindVar at hb
    split at hb <;> cases hb
  unfold step at h
  split at h
  · next hp =>
    cases h
    simp only at hp
    rw [hp]
  · split at h
    · cases h
    · split at h
      · exact (hbind h).elim
      · exact (hbind h).elim
      · split at h <;> cases h
      · cases h
      · cases h

/-! ## Runs -/

/-- Steps lead from one state to another one. -/
abbrev Reaches : Solver → Solver → Prop := Relation.ReflTransGen fun s s' => s.step = .next s'

/-- A run that returns a substitution has led to a state with no constraint left, in
which the substitution is what was bound. -/
theorem reaches_of_run {s : Solver} {bound : Substitution} (h : s.run = .ok bound) :
    Reaches s ⟨[], bound⟩ := by
  induction s using run.induct with
  | case1 s b hstep =>
    rw [run, hstep] at h
    cases h
    exact eq_of_step_solved hstep ▸ .refl
  | case2 s f hstep =>
    rw [run, hstep] at h
    cases h
  | case3 s s' hstep ih =>
    rw [run, hstep] at h
    exact .head hstep (ih h)

/-- A run that fails has led to a state with a constraint that is refused. The fault holds the place
of that constraint, what was bound before it and what was left after it. -/
theorem exists_refusal_of_run {s : Solver} {f : SolveFault} (h : s.run = .error f) :
    ∃ s' c rest, Reaches s s' ∧ s'.pending = c :: rest ∧ Refusal c f.mismatch ∧
      f = ⟨f.mismatch, c.origin, s'.bound, rest⟩ := by
  induction s using run.induct with
  | case1 s b hstep =>
    rw [run, hstep] at h
    cases h
  | case2 s f' hstep =>
    rw [run, hstep] at h
    cases h
    obtain ⟨c, rest, hp, refusal, hfault⟩ := refusal_of_step hstep
    exact ⟨s, c, rest, .refl, hp, refusal, hfault⟩
  | case3 s s' hstep ih =>
    rw [run, hstep] at h
    obtain ⟨s'', c, rest, reached, hp, refusal, hfault⟩ := ih h
    exact ⟨s'', c, rest, .head hstep reached, hp, refusal, hfault⟩

/-- What every rule keeps, the steps of a run keep. This is the induction over runs that all
invariants of the solver use. -/
theorem Reaches.keeps {s s' : Solver} (h : Reaches s s') (inv : Solver → Prop)
    (rule : ∀ {s s'}, Rule s s' → inv s → inv s') (start : inv s) : inv s' := by
  induction h with
  | refl => exact start
  | tail _ hstep ih => exact rule (rule_of_step hstep) ih

end Solver

end TypedSexp
