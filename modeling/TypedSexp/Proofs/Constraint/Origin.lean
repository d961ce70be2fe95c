import TypedSexp.Proofs.Constraint.Unifier

/-!
# Where a mismatch comes from

Constraints are taken apart, their variables are replaced, and the parts of one are solved
between those of others. So the constraint at which solving stops may look like none of those
that were given. Still it is a part of one of them: it asks that the types at some path in the
two sides be equal, once the pairs bound so far are applied (`Constraint.PartOf`).

Every rule keeps this (`Solver.Rule.traced`). A rule that takes a constraint apart makes the
path longer, and replacing a variable does not change what is reached by a path
(`Ty.at?_bind`). So a mismatch is reported at the place that asked for it, with the types that
stand there (`Constraint.solve_blames`).

What this does not establish: that the constraint named is the one to be changed. Two constraints
that contradict each other are both part of the reason, and the one at which solving stops depends
on the order in which it takes them.
-/

namespace TypedSexp

namespace Ty

/-- The way from a type to one of its direct parts. -/
inductive Step where
  | param (index : Nat)
  | result
  | constructor
  | argument
  deriving DecidableEq

/-- The direct part that a step leads to. -/
def part? : Ty → Step → Option Ty
  | .fn ps _, .param i => ps[i]?
  | .fn _ r, .result => some r
  | .app c _, .constructor => some c
  | .app _ a, .argument => some a
  | _, _ => none

/-- The part of a type that a path leads to. -/
def at? (t : Ty) : List Step → Option Ty
  | [] => some t
  | step :: path => (t.part? step).bind fun u => u.at? path

/-- The variable stands in a type that is more than this variable. -/
def HoldsProperly (t : Ty) (x : TyVar) : Prop := x ∈ t.vars ∧ t ≠ .var x

/-! ## Paths -/

/-- Replacing variables keeps the parts that were there, with the variables replaced in them. New
parts may come where a variable stood, so the converse fails. -/
theorem part?_bind {θ : TyVar → Ty} {t u : Ty} {step : Step} (h : t.part? step = some u) :
    (t.bind θ).part? step = some (u.bind θ) := by
  cases t with
  | base a => cases h
  | var x => cases h
  | fn ps r =>
    rw [bind_fn]
    cases step with
    | param i =>
      show (ps.map (bind θ))[i]? = _
      have hi : ps[i]? = some u := h
      rw [List.getElem?_map, hi, Option.map_some]
    | result =>
      cases h
      rfl
    | constructor => cases h
    | argument => cases h
  | app c a =>
    rw [bind_app]
    cases step with
    | param i => cases h
    | result => cases h
    | constructor =>
      cases h
      rfl
    | argument =>
      cases h
      rfl

/-- A path that leads into a type leads to the image of the same part in the image of the type. A
map may make further paths, below what was a variable, but it closes none. -/
theorem at?_bind {θ : TyVar → Ty} {t u : Ty} {path : List Step} (h : t.at? path = some u) :
    (t.bind θ).at? path = some (u.bind θ) := by
  induction path generalizing t with
  | nil =>
    cases h
    rfl
  | cons step path ih =>
    obtain ⟨v, hv, hu⟩ := Option.bind_eq_some_iff.mp h
    exact Option.bind_eq_some_iff.mpr ⟨v.bind θ, part?_bind hv, ih hu⟩

/-- A path that is one step longer leads to a part of what the path leads to. -/
theorem at?_concat {t u : Ty} {path : List Step} (h : t.at? path = some u) (step : Step) :
    t.at? (path ++ [step]) = u.part? step := by
  induction path generalizing t with
  | nil =>
    cases h
    exact Option.bind_fun_some _
  | cons first path ih =>
    obtain ⟨v, hv, hu⟩ := Option.bind_eq_some_iff.mp h
    show (t.part? first).bind _ = _
    rw [hv]
    exact ih hu

end Ty

/-- One more pair is applied after the others. The solver adds its pairs at this end. -/
theorem Substitution.apply_concat (s : Substitution) (x : TyVar) (r t : Ty) :
    apply (s ++ [(x, r)]) t = Ty.subst x r (apply s t) := apply_append s [(x, r)] t

/-! ## Parts of the given constraints -/

namespace Constraint

/-- The constraint `d` asks what `c` asks of the types at a path, once the pairs are applied. -/
structure PartOf (bound : Substitution) (path : List Ty.Step) (c d : Constraint) : Prop where
  origin : d.origin = c.origin
  left : (bound.apply c.left).at? path = some d.left
  right : (bound.apply c.right).at? path = some d.right

namespace PartOf

variable {bound : Substitution} {path : List Ty.Step} {c d : Constraint}

/-- Every constraint asks what it asks itself, on the empty path and before anything is bound. Runs
start here. -/
theorem refl (c : Constraint) : PartOf [] [] c c := ⟨rfl, rfl, rfl⟩

/-- Taking a constraint apart makes the path one step longer on both sides, and the place of the
constraint stays. -/
theorem step (h : PartOf bound path c d) {next : Ty.Step} {l r : Ty}
    (left : d.left.part? next = some l) (right : d.right.part? next = some r) :
    PartOf bound (path ++ [next]) c ⟨l, r, d.origin⟩ :=
  ⟨h.origin, (Ty.at?_concat h.left next).trans left, (Ty.at?_concat h.right next).trans right⟩

/-- Binding one more variable keeps the path. The types at its end are those that have the variable
replaced. -/
theorem subst (h : PartOf bound path c d) (x : TyVar) (t : Ty) :
    PartOf (bound ++ [(x, t)]) path c (d.subst x t) := by
  refine ⟨h.origin, ?_, ?_⟩
  · show _ = some (Ty.subst x t d.left)
    rw [Substitution.apply_concat, Ty.subst_eq_bind, Ty.subst_eq_bind]
    exact Ty.at?_bind h.left
  · show _ = some (Ty.subst x t d.right)
    rw [Substitution.apply_concat, Ty.subst_eq_bind, Ty.subst_eq_bind]
    exact Ty.at?_bind h.right

end PartOf

end Constraint

namespace Solver

/-- Every constraint that is left asks for a part of what a given one asks for. -/
def Traced (given : List Constraint) (s : Solver) : Prop :=
  ∀ d ∈ s.pending, ∃ c ∈ given, ∃ path, Constraint.PartOf s.bound path c d

/-- The constraint between two parts of function types is the one at a step. It is the same step on
both sides, so parameters are compared with the parameters at their places. -/
theorem exists_step_of_mem_functionParts {ps qs : List Ty} {r q : Ty} {o : Option Span}
    {d : Constraint} (h : d ∈ functionParts ps r qs q o) : ∃ step,
      (Ty.fn ps r).part? step = some d.left ∧ (Ty.fn qs q).part? step = some d.right ∧
        d.origin = o := by
  rw [functionParts, List.mem_cons, List.mem_reverse] at h
  rcases h with rfl | h
  · exact ⟨.result, rfl, rfl, rfl⟩
  · obtain ⟨i, hi, rfl⟩ := List.getElem_of_mem h
    rw [List.length_zipWith] at hi
    rw [List.getElem_zipWith]
    exact ⟨.param i, List.getElem?_eq_getElem (by omega), List.getElem?_eq_getElem (by omega), rfl⟩

/-- Every rule keeps the invariant that each constraint left is a part of a given one. A rule that
binds a variable has to move all of them along. -/
theorem Rule.traced {given : List Constraint} {s s' : Solver} (h : Rule s s')
    (inv : Traced given s) : Traced given s' := by
  intro d hd
  cases h with
  | drop same => exact inv d (List.mem_cons_of_mem _ hd)
  | @bind c rest bound x t sides free =>
    obtain ⟨d', hd', rfl⟩ := List.mem_map.mp hd
    obtain ⟨c', hc', path, part⟩ := inv d' (List.mem_cons_of_mem _ hd')
    exact ⟨c', hc', path, part.subst x t⟩
  | @function c rest bound ps qs r q left right arity =>
    rcases List.mem_append.mp hd with hd | hd
    · obtain ⟨c', hc', path, part⟩ := inv c List.mem_cons_self
      obtain ⟨step, hl, hr, ho⟩ := exists_step_of_mem_functionParts hd
      obtain ⟨l, r', o⟩ := d
      subst ho
      exact ⟨c', hc', path ++ [step], part.step (left ▸ hl) (right ▸ hr)⟩
    · exact inv d (List.mem_cons_of_mem _ hd)
  | @application c rest bound c₁ a₁ c₂ a₂ left right =>
    obtain ⟨c', hc', path, part⟩ := inv c List.mem_cons_self
    rcases List.mem_cons.mp hd with rfl | hd
    · refine ⟨c', hc', path ++ [.argument], part.step ?_ ?_⟩
      · rw [left]
        rfl
      · rw [right]
        rfl
    rcases List.mem_cons.mp hd with rfl | hd
    · refine ⟨c', hc', path ++ [.constructor], part.step ?_ ?_⟩
      · rw [left]
        rfl
      · rw [right]
        rfl
    · exact inv d (List.mem_cons_of_mem _ hd)

/-- A run fails at a part of a given constraint, which is refused when it is met. The fault keeps
what was bound until then and the constraints that were still to come. -/
theorem exists_part_of_run {pending : List Constraint} {f : SolveFault}
    (h : run { pending } = .error f) : ∃ c ∈ pending, ∃ path d,
      Reaches { pending } ⟨d :: f.pending, f.bound⟩ ∧ Constraint.PartOf f.bound path c d ∧
        Refusal d f.mismatch ∧ f.span = d.origin := by
  obtain ⟨⟨left, bound⟩, d, rest, reached, rfl, refusal, hfault⟩ := exists_refusal_of_run h
  have start : Traced pending { pending } := fun c hc => ⟨c, hc, [], .refl c⟩
  have traced := reached.keeps (Traced pending) Rule.traced start
  obtain ⟨c, hc, path, part⟩ := traced d List.mem_cons_self
  rw [hfault]
  exact ⟨c, hc, path, d, reached, part, refusal, rfl⟩

/-! ## The kinds of mismatches -/

namespace Refusal

variable {c : Constraint} {m : Mismatch}

/-- The types of a mismatch are the sides of the constraint, but a variable comes first if it
stands in the other side. -/
theorem sides_eq (h : Refusal c m) : m.sides = (c.left, c.right) ∨
    m.kind = "infinite type" ∧ m.sides = (c.right, c.left) := by
  cases h with
  | @infinite x t sides occurs proper =>
    rcases sides with ⟨left, right⟩ | ⟨right, left⟩
    · exact .inl (by rw [left, right]; rfl)
    · exact .inr ⟨rfl, by rw [left, right]; rfl⟩
  | arity left right differ => exact .inl (by rw [left, right]; rfl)
  | clash left right differ => exact .inl rfl

/-- Where the type would be infinite, the first of the two types shown is the variable. -/
theorem exists_var_of_infinite (h : Refusal c m) (kind : m.kind = "infinite type") :
    ∃ x, m.sides.1 = .var x := by
  cases h with
  | @infinite x t sides occurs proper => exact ⟨x, rfl⟩
  | arity left right differ => simp [Mismatch.kind] at kind
  | clash left right differ => simp [Mismatch.kind] at kind

/-- The kind says of a refused constraint that one side is a variable which the other side properly
holds. A variable against itself is never refused. -/
theorem infinite_iff (h : Refusal c m) : m.kind = "infinite type" ↔
    ∃ x, c.left = .var x ∧ c.right.HoldsProperly x ∨
      c.right = .var x ∧ c.left.HoldsProperly x := by
  cases h with
  | @infinite x t sides occurs proper =>
    refine ⟨fun _ => ⟨x, ?_⟩, fun _ => rfl⟩
    rcases sides with ⟨left, rfl⟩ | ⟨right, rfl⟩
    · exact .inl ⟨left, occurs, proper⟩
    · exact .inr ⟨right, occurs, proper⟩
  | arity left right differ =>
    refine ⟨fun kind => by simp [Mismatch.kind] at kind, ?_⟩
    rintro ⟨x, ⟨hx, -⟩ | ⟨hx, -⟩⟩
    · cases left.symm.trans hx
    · cases right.symm.trans hx
  | clash left right differ =>
    refine ⟨fun kind => by simp [Mismatch.kind] at kind, ?_⟩
    rintro ⟨x, ⟨hx, -⟩ | ⟨hx, -⟩⟩
    · rw [hx] at left
      cases left
    · rw [hx] at right
      cases right

/-- The kind says of a refused constraint that both sides are functions with different numbers of
parameters. Their parts have not been compared then. -/
theorem arity_iff (h : Refusal c m) : m.kind = "arity mismatch" ↔
    ∃ ps r qs q, c.left = .fn ps r ∧ c.right = .fn qs q ∧ ps.length ≠ qs.length := by
  cases h with
  | @infinite x t sides occurs proper =>
    refine ⟨fun kind => by simp [Mismatch.kind] at kind, ?_⟩
    rintro ⟨ps, r, qs, q, left, right, -⟩
    rcases sides with ⟨hx, -⟩ | ⟨hx, -⟩
    · cases left.symm.trans hx
    · cases right.symm.trans hx
  | arity left right differ => exact ⟨fun _ => ⟨_, _, _, _, left, right, differ⟩, fun _ => rfl⟩
  | clash left right differ =>
    refine ⟨fun kind => by simp [Mismatch.kind] at kind, ?_⟩
    rintro ⟨ps, r, qs, q, hl, hr, -⟩
    rw [hl] at left
    rw [hr] at right
    exact (differ (Option.some.inj (left.symm.trans right))).elim

/-- The kind says of a refused constraint that different things stand outermost in its sides, of
which none is a variable. -/
theorem clash_iff (h : Refusal c m) : m.kind = "unification failure" ↔
    ∃ h k, c.left.head? = some h ∧ c.right.head? = some k ∧ h ≠ k := by
  cases h with
  | @infinite x t sides occurs proper =>
    refine ⟨fun kind => by simp [Mismatch.kind] at kind, ?_⟩
    rintro ⟨h, k, left, right, -⟩
    rcases sides with ⟨hx, -⟩ | ⟨hx, -⟩
    · rw [hx] at left
      cases left
    · rw [hx] at right
      cases right
  | arity left right differ =>
    refine ⟨fun kind => by simp [Mismatch.kind] at kind, ?_⟩
    rintro ⟨h, k, hl, hr, hne⟩
    rw [left] at hl
    rw [right] at hr
    exact (hne (Option.some.inj (hl.symm.trans hr))).elim
  | clash left right differ => exact ⟨fun _ => ⟨_, _, left, right, differ⟩, fun _ => rfl⟩

end Refusal

end Solver

namespace Constraint

/-- **A mismatch is blamed on the constraint that asked for it.** Where solving fails, the fault
has the place of a given constraint, and its two types are those that a path leads to in the
sides of this constraint, with the pairs bound so far applied: the left one first, but for an
infinite type the variable. The kind of the fault is what these types show: one is a variable
that stands in the other, both are functions and differ in the number of their parameters, or
different things stand outermost in them. -/
theorem solve_blames {cs : List Constraint} {f : SolveFault} (h : solve cs = .error f) :
    ∃ c ∈ cs, ∃ path l r, f.span = c.origin ∧
      Solver.Reaches { pending := cs.reverse } ⟨⟨l, r, c.origin⟩ :: f.pending, f.bound⟩ ∧
      (f.bound.apply c.left).at? path = some l ∧ (f.bound.apply c.right).at? path = some r ∧
      (f.mismatch.sides = (l, r) ∨
        f.mismatch.kind = "infinite type" ∧ f.mismatch.sides = (r, l)) ∧
      (f.mismatch.kind = "infinite type" → ∃ x, f.mismatch.sides.1 = .var x) ∧
      (f.mismatch.kind = "infinite type" ↔
        ∃ x, l = .var x ∧ r.HoldsProperly x ∨ r = .var x ∧ l.HoldsProperly x) ∧
      (f.mismatch.kind = "arity mismatch" ↔
        ∃ ps p qs q, l = .fn ps p ∧ r = .fn qs q ∧ ps.length ≠ qs.length) ∧
      (f.mismatch.kind = "unification failure" ↔
        ∃ h k, l.head? = some h ∧ r.head? = some k ∧ h ≠ k) := by
  obtain ⟨c, hc, path, ⟨l, r, o⟩, reached, part, refusal, hspan⟩ := Solver.exists_part_of_run h
  obtain rfl : o = c.origin := part.origin
  exact ⟨c, List.mem_reverse.mp hc, path, l, r, hspan, reached, part.left, part.right,
    refusal.sides_eq, refusal.exists_var_of_infinite, refusal.infinite_iff, refusal.arity_iff,
    refusal.clash_iff⟩

/-- Two constraints, of which the last one is solved first and binds a variable of the other.
The clash is between types that stand in neither of them at the start. -/
theorem solve_blames_replaced :
    let x : TyVar := ⟨0, 0⟩
    let y : TyVar := ⟨1, 0⟩
    let cs : List Constraint :=
      [⟨.fn [.var x] (.var y), .fn [.array (.var y)] .number, some ⟨0, 5⟩⟩,
        ⟨.var x, .array .string, some ⟨6, 9⟩⟩]
    ∃ f, solve cs = .error f ∧ f.bound = [(x, .array .string), (y, .number)] ∧
      f.span = some ⟨0, 5⟩ ∧
      ∃ c ∈ cs, ∃ path l r, f.span = c.origin ∧ (f.bound.apply c.left).at? path = some l ∧
        (f.bound.apply c.right).at? path = some r ∧
        (f.mismatch.sides = (l, r) ∨
          f.mismatch.kind = "infinite type" ∧ f.mismatch.sides = (r, l)) ∧
        ∃ h k, l.head? = some h ∧ r.head? = some k ∧ h ≠ k := by
  intro x y cs
  have h : solve cs = .error ⟨.clash .string .number, some ⟨0, 5⟩,
      [(x, .array .string), (y, .number)],
      [⟨.arrayConstructor, .arrayConstructor, some ⟨0, 5⟩⟩]⟩ := by
    cbv
  obtain ⟨c, hc, path, l, r, hspan, -, hl, hr, hsides, -, -, -, hclash⟩ := solve_blames h
  exact ⟨_, h, rfl, rfl, c, hc, path, l, r, hspan, hl, hr, hsides, hclash.mp rfl⟩

end Constraint

end TypedSexp
