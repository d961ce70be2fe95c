import TypedSexp.Proofs.Constraint.Triangular

/-!
# Unifiers

A unifier of constraints is a map from variables to types that makes the two sides of
every constraint equal. Solving finds a most general one, or there is none.

The argument counts a bound pair as one more equation. With that, every rule keeps the
set of unifiers, in both directions (`Solver.Rule.unifies_iff`). So the unifiers of
the given constraints are the maps that send each bound variable where they send its
replacement (`Solver.unifies_iff_of_run`). The substitution itself is one of these
maps, since it is triangular, and none of them sees it (`Substitution.bind_apply`). No
map passes a constraint that is refused (`Solver.Refusal.bind_ne`).

Most general unifiers differ by the names of variables. Which of them is returned, and in which
order its pairs stand, is not said. Nor is it said why constraints have no unifier, only that they
have none.
-/

namespace TypedSexp

namespace Constraint

/-- The map makes both sides of every constraint equal. -/
def Unifies (θ : TyVar → Ty) (cs : List Constraint) : Prop :=
  ∀ c ∈ cs, c.left.bind θ = c.right.bind θ

variable {θ : TyVar → Ty}

@[simp] theorem unifies_nil : Unifies θ [] := by simp [Unifies]

@[simp] theorem unifies_cons {c : Constraint} {cs : List Constraint} :
    Unifies θ (c :: cs) ↔ c.left.bind θ = c.right.bind θ ∧ Unifies θ cs :=
  List.forall_mem_cons

@[simp] theorem unifies_append {cs ds : List Constraint} :
    Unifies θ (cs ++ ds) ↔ Unifies θ cs ∧ Unifies θ ds :=
  List.forall_mem_append

/-- The order of constraints does not matter to their unifiers, so that it does not matter that the
last constraint is solved first. -/
@[simp] theorem unifies_reverse {cs : List Constraint} :
    Unifies θ cs.reverse ↔ Unifies θ cs := by simp [Unifies]

/-- A constraint that can be bound asks where the map sends its variable, whichever side the
variable is on. -/
theorem Orients.bind_eq_iff {c : Constraint} {x : TyVar} {t : Ty} (h : c.Orients x t) :
    c.left.bind θ = c.right.bind θ ↔ θ x = t.bind θ := by
  rcases h with ⟨hx, rfl⟩ | ⟨hx, rfl⟩
  · rw [hx, Ty.bind]
  · rw [hx, Ty.bind, eq_comm]

/-- A map that sends a variable where it sends its replacement unifies the constraints
before the replacement as well as after it. -/
theorem unifies_map_subst {x : TyVar} {t : Ty} (h : θ x = t.bind θ) {cs : List Constraint} :
    Unifies θ (cs.map (subst x t)) ↔ Unifies θ cs := by
  simp only [Unifies, List.forall_mem_map, subst, Ty.bind_subst h]

/-- The parameters of two function types have equal images when the constraints between them hold.
The two lists have to be of one length, or the rest of the longer one would not be compared. -/
theorem unifies_zipWith (o : Option Span) :
    ∀ (ps qs : List Ty), ps.length = qs.length →
      (Unifies θ (ps.zipWith (fun p q => ⟨p, q, o⟩) qs) ↔ ps.map (Ty.bind θ) = qs.map (Ty.bind θ))
  | [], [], _ => by simp
  | p :: ps, q :: qs, h => by
    have ih := unifies_zipWith o ps qs (by simpa using h)
    rw [List.zipWith_cons_cons, unifies_cons, ih, List.map_cons, List.map_cons, List.cons.injEq]

/-- Two function types have equal images when the constraints between their parts hold. -/
theorem unifies_functionParts {ps qs : List Ty} {r q : Ty} {o : Option Span}
    (h : ps.length = qs.length) :
    Unifies θ (Solver.functionParts ps r qs q o) ↔
      (Ty.fn ps r).bind θ = (Ty.fn qs q).bind θ := by
  rw [Solver.functionParts, unifies_cons, unifies_reverse, unifies_zipWith o ps qs h, Ty.bind,
    Ty.bind, Ty.bindAll_eq_map, Ty.bindAll_eq_map, Ty.fn.injEq, and_comm]

end Constraint

namespace Solver

open Constraint (Unifies)

/-- The map unifies the constraints that are left and sends each bound variable where it
sends its replacement. -/
def UnifiedBy (θ : TyVar → Ty) (s : Solver) : Prop :=
  Unifies θ s.pending ∧ ∀ p ∈ s.bound, θ p.1 = p.2.bind θ

/-- A rule neither adds nor loses a unifier. Here a unifier of a state has to respect the pairs that
are bound as well as the constraints that are left. -/
theorem Rule.unifies_iff {s s' : Solver} (h : Rule s s') (θ : TyVar → Ty) :
    s.UnifiedBy θ ↔ s'.UnifiedBy θ := by
  cases h with
  | drop same => simp only [UnifiedBy, Constraint.unifies_cons, same, true_and]
  | @bind c rest bound x t sides free =>
    -- Both states ask where the map sends the variable, one in a constraint and one in a
    -- pair; given that, the replacement in the other constraints cannot be seen.
    simp only [UnifiedBy, Constraint.unifies_cons, sides.bind_eq_iff, List.forall_mem_append,
      List.forall_mem_singleton]
    constructor
    · rintro ⟨⟨hx, hrest⟩, hbound⟩
      exact ⟨(Constraint.unifies_map_subst hx).mpr hrest, hbound, hx⟩
    · rintro ⟨hrest, hbound, hx⟩
      exact ⟨⟨hx, (Constraint.unifies_map_subst hx).mp hrest⟩, hbound⟩
  | function left right arity =>
    simp only [UnifiedBy, Constraint.unifies_cons, Constraint.unifies_append,
      Constraint.unifies_functionParts arity, left, right]
  | application left right =>
    simp only [UnifiedBy, Constraint.unifies_cons, left, right, Ty.bind, Ty.app.injEq]
    tauto

/-- Steps neither add nor lose a unifier, where a bound pair counts as one more equation. This is
the run lemma of `Rule.unifies_iff`. -/
theorem Reaches.unifies_iff {s s' : Solver} (h : Reaches s s') (θ : TyVar → Ty) :
    s.UnifiedBy θ ↔ s'.UnifiedBy θ :=
  h.keeps (fun s' => s.UnifiedBy θ ↔ s'.UnifiedBy θ)
    (fun rule ih => ih.trans (rule.unifies_iff θ)) Iff.rfl

/-- The unifiers of constraints that were solved are the maps that send each bound
variable where they send its replacement. -/
theorem unifies_iff_of_run {pending : List Constraint} {bound : Substitution}
    (h : run { pending } = .ok bound) (θ : TyVar → Ty) :
    Unifies θ pending ↔ ∀ p ∈ bound, θ p.1 = p.2.bind θ := by
  simpa [UnifiedBy] using (reaches_of_run h).unifies_iff θ

/-- What a run returns is itself a unifier, read as the map that sends each variable to its
image. -/
theorem unifies_of_run {pending : List Constraint} {bound : Substitution}
    (h : run { pending } = .ok bound) : Unifies (fun x => bound.apply (.var x)) pending := by
  rw [unifies_iff_of_run h]
  intro p hp
  rw [← Substitution.apply_eq_bind]
  exact (triangular_of_run h).apply_var p hp

/-- No unifier sees what a run returns: it is most general, in the strong form that every unifier is
its own factor. -/
theorem bind_apply_of_run {pending : List Constraint} {bound : Substitution}
    (h : run { pending } = .ok bound) {θ : TyVar → Ty} (hθ : Unifies θ pending) (t : Ty) :
    (bound.apply t).bind θ = t.bind θ :=
  Substitution.bind_apply ((unifies_iff_of_run h θ).mp hθ) t

/-- No map makes the sides of a refused constraint equal, for each of the reasons there are. For an
infinite type the image of the variable would be a proper part of itself. -/
theorem Refusal.bind_ne {c : Constraint} {m : Mismatch} (h : Refusal c m) (θ : TyVar → Ty) :
    c.left.bind θ ≠ c.right.bind θ := by
  cases h with
  | infinite sides occurs proper =>
    rw [ne_eq, sides.bind_eq_iff]
    exact Ty.bind_ne_of_mem_vars θ occurs proper
  | arity left right differ =>
    intro heq
    rw [left, right, Ty.bind, Ty.bind, Ty.bindAll_eq_map, Ty.bindAll_eq_map, Ty.fn.injEq] at heq
    exact differ (by simpa using congrArg List.length heq.1)
  | clash left right differ =>
    intro heq
    have hhead := congrArg Ty.head? heq
    rw [Ty.head?_bind left, Ty.head?_bind right, Option.some.injEq] at hhead
    exact differ hhead

/-- Constraints on which a run fails have no unifier. The refused constraint comes late in the run,
but steps lose no unifier. -/
theorem not_unifies_of_run {pending : List Constraint} {f : SolveFault}
    (h : run { pending } = .error f) (θ : TyVar → Ty) : ¬Unifies θ pending := by
  intro hθ
  obtain ⟨s, c, rest, reached, hp, refusal, -⟩ := exists_refusal_of_run h
  have hs : s.UnifiedBy θ := (reached.unifies_iff θ).mp ⟨hθ, by simp⟩
  exact refusal.bind_ne θ (hs.1 c (hp ▸ List.mem_cons_self))

/-- Constraints that have a unifier are solved. This needs that a run always ends with one of the
two answers. -/
theorem exists_run_of_unifies {pending : List Constraint} {θ : TyVar → Ty}
    (h : Unifies θ pending) : ∃ bound, run { pending } = .ok bound := by
  cases hrun : run { pending } with
  | ok bound => exact ⟨bound, rfl⟩
  | error f => exact (not_unifies_of_run hrun θ h).elim

end Solver

namespace Constraint

/-- **Solving returns a most general unifier.** The substitution makes the sides of every
constraint equal, every unifier absorbs it, and no constraint is left when it is
returned. -/
theorem solve_mostGeneral {cs : List Constraint} {s : Substitution} (h : solve cs = .ok s) :
    (∀ c ∈ cs, s.apply c.left = s.apply c.right) ∧
      (∀ θ, Unifies θ cs → ∀ t : Ty, (s.apply t).bind θ = t.bind θ) ∧
      Solver.Reaches { pending := cs.reverse } { pending := [], bound := s } := by
  refine ⟨fun c hc => ?_, fun θ hθ t => ?_, Solver.reaches_of_run h⟩
  · have hsides := Solver.unifies_of_run h c (List.mem_reverse.mpr hc)
    rwa [← Substitution.apply_eq_bind, ← Substitution.apply_eq_bind] at hsides
  · exact Solver.bind_apply_of_run h (unifies_reverse.mpr hθ) t

/-- A chain of bindings: the last constraint binds the variable that the first one asks
about, and the parts of both are bound in turn. -/
theorem solve_mostGeneral_chain :
    ∃ s, solve [⟨.var ⟨0, 0⟩, .fn [.var ⟨1, 0⟩] (.array (.var ⟨1, 0⟩)), none⟩,
        ⟨.fn [.number] (.var ⟨2, 0⟩), .var ⟨0, 0⟩, none⟩] = .ok s ∧
      s.apply (.var ⟨0, 0⟩) = s.apply (.fn [.var ⟨1, 0⟩] (.array (.var ⟨1, 0⟩))) ∧
      s.apply (.var ⟨0, 0⟩) = .fn [.number] (.array .number) := by
  have h : solve [⟨.var ⟨0, 0⟩, .fn [.var ⟨1, 0⟩] (.array (.var ⟨1, 0⟩)), none⟩,
      ⟨.fn [.number] (.var ⟨2, 0⟩), .var ⟨0, 0⟩, none⟩] =
      .ok [(⟨0, 0⟩, .fn [.number] (.var ⟨2, 0⟩)), (⟨2, 0⟩, .array (.var ⟨1, 0⟩)),
        (⟨1, 0⟩, .number)] := by
    cbv
  exact ⟨_, h, (solve_mostGeneral h).1 _ List.mem_cons_self, by decide⟩

/-- **Solving fails on exactly the constraints that have no unifier**, whatever the reason
of the failure. -/
theorem solve_error_iff (cs : List Constraint) :
    (∃ f, solve cs = .error f) ↔ ¬∃ θ, Unifies θ cs := by
  constructor
  · rintro ⟨f, h⟩ ⟨θ, hθ⟩
    exact Solver.not_unifies_of_run h θ (unifies_reverse.mpr hθ)
  · intro hnone
    cases h : solve cs with
    | ok s => exact (hnone ⟨_, unifies_reverse.mp (Solver.unifies_of_run h)⟩).elim
    | error f => exact ⟨f, rfl⟩

end Constraint

end TypedSexp
