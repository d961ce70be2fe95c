import TypedSexp.Proofs.Constraint.Resolution

/-!
# Solving ends

Binding a variable may make every constraint that is left larger, and taking a compound apart
adds constraints, so neither their number nor their size goes down on its own. What goes down
at every step is the number of variables together with the size (`Solver.measure_step`), in
this order: a bound variable is gone from all that is left, since it does not stand in its own
replacement.

So there is no endless chain of steps (`Solver.wellFounded_step`), and every state leads to a
last one, where the answer of the run is read off (`Solver.exists_last`).

Each pair is paid for by a variable. The pairs bound and the variables left are together never
more than before (`Solver.Rule.length_add_varCount_le`), and no step brings in a variable that
was not there (`Solver.Rule.within`). So a solution has no more pairs than the constraints have
variables, and binds only these.

What is left out is a bound in terms of the constraints that were given. Binding copies types, so
neither the number of steps nor the size of the types in a solution is bounded by the size of the
constraints.
-/

namespace TypedSexp

namespace Solver

/-! ## No endless run -/

/-- No chain of steps goes on for ever. The measure is the pair of the number of variables and the
size of what is left. -/
theorem wellFounded_step : WellFounded fun s' s : Solver => s.step = .next s' := by
  have descent : WellFounded (Prod.Lex (· < · : Nat → Nat → Prop) (· < · : Nat → Nat → Prop)) :=
    (Prod.lex Nat.lt_wfRel Nat.lt_wfRel).wf
  have measured := InvImage.wf (fun s : Solver => (s.varCount, s.size)) descent
  exact Subrelation.wf (fun h => measure_step h) measured

/-- Steps lead from every state to a last one, which solves the constraints or refuses one of
them, and the run answers what happens there. -/
theorem exists_last (s : Solver) : ∃ last, Reaches s last ∧
    ((∃ bound, last.step = .solved bound ∧ s.run = .ok bound) ∨
      ∃ f, last.step = .failed f ∧ s.run = .error f) := by
  induction s using wellFounded_step.induction with
  | h s ih =>
    rw [run]
    cases hstep : s.step with
    | solved bound => exact ⟨s, .refl, .inl ⟨bound, hstep, rfl⟩⟩
    | failed f => exact ⟨s, .refl, .inr ⟨f, hstep, rfl⟩⟩
    | next s' =>
      obtain ⟨last, reached, answer⟩ := ih s' hstep
      exact ⟨last, .head hstep reached, answer⟩

/-! ## Pairs and variables -/

/-- A rule that binds a variable takes at least this one away, and no rule adds one: pairs and
variables together do not become more. -/
theorem Rule.length_add_varCount_le {s s' : Solver} (h : Rule s s') :
    s'.bound.length + s'.varCount ≤ s.bound.length + s.varCount := by
  have fewer : ∀ x ∈ s'.vars, x ∈ s.vars := fun x hx => h.mem_vars hx
  have hle : s'.varCount ≤ s.varCount := length_eraseDups_le fewer
  cases h with
  | drop same => exact Nat.add_le_add_left hle _
  | function left right arity => exact Nat.add_le_add_left hle _
  | application left right => exact Nat.add_le_add_left hle _
  | @bind c rest bound x t sides free =>
    obtain ⟨hx, ht⟩ := sides.mem_vars
    have there : x ∈ vars ⟨c :: rest, bound⟩ := by
      rw [vars, List.flatMap_cons, List.mem_append]
      exact .inl hx
    have gone : x ∉ vars ⟨rest.map (Constraint.subst x t), bound ++ [(x, t)]⟩ := fun hmem =>
      (mem_vars_bind ht free hmem).2 rfl
    have hlt : varCount ⟨rest.map (Constraint.subst x t), bound ++ [(x, t)]⟩ <
        varCount ⟨c :: rest, bound⟩ := length_eraseDups_lt fewer there gone
    show (bound ++ [(x, t)]).length + _ ≤ bound.length + _
    rw [List.length_append, List.length_singleton]
    omega

/-- Over several steps too, pairs and variables together do not become more. From the start, where
no pair is bound, this bounds the pairs of a solution. -/
theorem Reaches.length_add_varCount_le {s s' : Solver} (h : Reaches s s') :
    s'.bound.length + s'.varCount ≤ s.bound.length + s.varCount :=
  h.keeps (fun s' => s'.bound.length + s'.varCount ≤ s.bound.length + s.varCount)
    (fun rule ih => Nat.le_trans rule.length_add_varCount_le ih) (Nat.le_refl _)

/-- The constraints that are left hold, and the pairs bind, only variables of a list. -/
structure Within (vs : List TyVar) (s : Solver) : Prop where
  pending : ∀ x ∈ s.vars, x ∈ vs
  bound : ∀ x ∈ s.bound.domain, x ∈ vs

/-- No rule brings in a variable. Constraints that are left and pairs that are bound hold variables
of the given constraints only. -/
theorem Rule.within {vs : List TyVar} {s s' : Solver} (h : Rule s s') (inv : Within vs s) :
    Within vs s' := by
  have pending : ∀ x ∈ s'.vars, x ∈ vs := fun x hx => inv.pending x (h.mem_vars hx)
  cases h with
  | drop same => exact ⟨pending, inv.bound⟩
  | function left right arity => exact ⟨pending, inv.bound⟩
  | application left right => exact ⟨pending, inv.bound⟩
  | @bind c rest bound x t sides free =>
    refine ⟨pending, fun y hy => ?_⟩
    rw [Substitution.domain, List.map_append, List.mem_append] at hy
    rcases hy with hy | hy
    · exact inv.bound y hy
    · rw [List.mem_singleton.mp hy]
      refine inv.pending x ?_
      rw [vars, List.flatMap_cons, List.mem_append]
      exact .inl sides.mem_vars.1

end Solver

namespace Constraint

/-- The different variables of constraints. -/
def distinctVars (cs : List Constraint) : List TyVar := (cs.flatMap vars).eraseDups

/-- The different variables of constraints are those that stand in one of them. -/
theorem mem_distinctVars {cs : List Constraint} {x : TyVar} :
    x ∈ distinctVars cs ↔ ∃ c ∈ cs, x ∈ c.vars := by
  rw [distinctVars, List.mem_eraseDups, List.mem_flatMap]

/-- Before the first step there are the variables of the constraints, each counted once. -/
theorem varCount_start_le (cs : List Constraint) :
    Solver.varCount { pending := cs.reverse } ≤ (distinctVars cs).length := by
  refine length_eraseDups_le fun x hx => ?_
  rw [Solver.vars, List.mem_flatMap] at hx
  obtain ⟨c, hc, hx⟩ := hx
  exact List.mem_flatMap.mpr ⟨c, List.mem_reverse.mp hc, hx⟩

/-- Before the first step all variables are those of the constraints. -/
theorem within_start (cs : List Constraint) :
    Solver.Within (distinctVars cs) { pending := cs.reverse } := by
  refine ⟨fun x hx => ?_, fun x hx => ?_⟩
  · rw [Solver.vars, List.mem_flatMap] at hx
    obtain ⟨c, hc, hx⟩ := hx
    exact mem_distinctVars.mpr ⟨c, List.mem_reverse.mp hc, hx⟩
  · cases hx

/-- **Solving ends on all constraints.** Every step makes the number of variables in the
constraints that are left smaller, or keeps it and makes their total size smaller, so no chain
of steps is endless. The steps lead to a last state, in which the constraints are solved or one
is refused, and that is the answer. A solution has at most as many pairs as the constraints
have different variables, and each bound variable is one of these. -/
theorem solve_ends (cs : List Constraint) :
    (∀ s s' : Solver, s.step = .next s' →
      s'.varCount < s.varCount ∨ s'.varCount = s.varCount ∧ s'.size < s.size) ∧
    (WellFounded fun s' s : Solver => s.step = .next s') ∧
    (∃ last, Solver.Reaches { pending := cs.reverse } last ∧
      ((∃ bound, last.step = .solved bound ∧ solve cs = .ok bound) ∨
        ∃ f, last.step = .failed f ∧ solve cs = .error f)) ∧
    ∀ s, solve cs = .ok s →
      s.length ≤ (distinctVars cs).length ∧ ∀ x ∈ s.domain, x ∈ distinctVars cs := by
  refine ⟨fun s s' h => ?_, Solver.wellFounded_step, Solver.exists_last _, fun s h => ?_⟩
  · exact Prod.lex_def.mp (Solver.measure_step h)
  · have reached : Solver.Reaches { pending := cs.reverse } ⟨[], s⟩ := Solver.reaches_of_run h
    have count := reached.length_add_varCount_le
    have start := varCount_start_le cs
    refine ⟨?_, (reached.keeps _ Solver.Rule.within (within_start cs)).bound⟩
    show s.length ≤ _
    have hlength : s.length + Solver.varCount ⟨[], s⟩ ≤
        0 + Solver.varCount { pending := cs.reverse } := count
    omega

/-- Two constraints that share both of their variables: the first step makes the constraint that
is left larger, and the solution has as many pairs as there are variables. -/
theorem solve_ends_growing :
    let x : TyVar := ⟨0, 0⟩
    let y : TyVar := ⟨1, 0⟩
    let cs : List Constraint :=
      [⟨.fn [.var x] (.var x), .fn [.array (.var y)] (.array .number), none⟩,
        ⟨.var x, .array (.var y), none⟩]
    let s : Substitution := [(x, .array (.var y)), (y, .number)]
    solve cs = .ok s ∧ s.length ≤ (distinctVars cs).length ∧ (distinctVars cs).length = 2 ∧
      (∀ z ∈ s.domain, z ∈ distinctVars cs) ∧
      (∃ s' : Solver, Solver.step { pending := cs.reverse } = .next s' ∧
        (s'.varCount < Solver.varCount { pending := cs.reverse } ∨
          s'.varCount = Solver.varCount { pending := cs.reverse } ∧
            s'.size < Solver.size { pending := cs.reverse })) := by
  intro x y cs s
  have h : solve cs = .ok s := by cbv
  obtain ⟨descends, -, -, bounds⟩ := solve_ends cs
  have hstep : Solver.step { pending := cs.reverse } =
      .next ⟨[⟨.fn [.array (.var y)] (.array (.var y)), .fn [.array (.var y)] (.array .number),
        none⟩], [(x, .array (.var y))]⟩ := by
    cbv
  exact ⟨h, (bounds s h).1, by decide, (bounds s h).2, _, hstep, descends _ _ hstep⟩

end Constraint

end TypedSexp
