import TypedSexp.Constraint.Step
import TypedSexp.Distinct

/-!
# Steps descend

Each step makes the constraints that are left smaller: binding takes a variable
away from all of them, and every other step keeps their variables and shrinks
their total size (`Solver.measure_step`).
-/

namespace TypedSexp

namespace Ty

mutual

/-- The variables of a type after a replacement: those of the replacement, and
the others that were there before. -/
theorem mem_vars_subst {x y : TyVar} {r : Ty} :
    ∀ {t : Ty}, y ∈ vars (subst x r t) → y ∈ vars r ∨ (y ∈ vars t ∧ y ≠ x)
  | .base _, h => by simp [subst, vars] at h
  | .var z, h => by
    rw [subst] at h
    split at h
    · exact .inl h
    · next hz =>
      rw [vars, List.mem_singleton] at h
      exact .inr ⟨by rw [vars, List.mem_singleton]; exact h, fun e => hz (h.symm.trans e)⟩
  | .fn ps t, h => by
    rw [subst, vars, List.mem_append] at h
    rcases h with h | h
    · exact (mem_varsAll_subst h).imp_right fun ⟨h, hne⟩ =>
        ⟨by rw [vars, List.mem_append]; exact .inl h, hne⟩
    · exact (mem_vars_subst h).imp_right fun ⟨h, hne⟩ =>
        ⟨by rw [vars, List.mem_append]; exact .inr h, hne⟩
  | .app c a, h => by
    rw [subst, vars, List.mem_append] at h
    rcases h with h | h
    · exact (mem_vars_subst h).imp_right fun ⟨h, hne⟩ =>
        ⟨by rw [vars, List.mem_append]; exact .inl h, hne⟩
    · exact (mem_vars_subst h).imp_right fun ⟨h, hne⟩ =>
        ⟨by rw [vars, List.mem_append]; exact .inr h, hne⟩

/-- The same for several types. -/
theorem mem_varsAll_subst {x y : TyVar} {r : Ty} :
    ∀ {ts : List Ty}, y ∈ varsAll (substAll x r ts) → y ∈ vars r ∨ (y ∈ varsAll ts ∧ y ≠ x)
  | [], h => by simp [substAll] at h
  | t :: ts, h => by
    rw [substAll, varsAll, List.mem_append] at h
    rcases h with h | h
    · exact (mem_vars_subst h).imp_right fun ⟨h, hne⟩ =>
        ⟨by rw [varsAll, List.mem_append]; exact .inl h, hne⟩
    · exact (mem_varsAll_subst h).imp_right fun ⟨h, hne⟩ =>
        ⟨by rw [varsAll, List.mem_append]; exact .inr h, hne⟩

end

end Ty

/-- The variables of a constraint after a replacement. -/
theorem Constraint.mem_vars_subst {x y : TyVar} {r : Ty} {c : Constraint}
    (h : y ∈ (c.subst x r).vars) : y ∈ r.vars ∨ (y ∈ c.vars ∧ y ≠ x) := by
  simp only [vars, subst, List.mem_append] at h ⊢
  rcases h with h | h
  · exact (Ty.mem_vars_subst h).imp_right fun hy => ⟨.inl hy.1, hy.2⟩
  · exact (Ty.mem_vars_subst h).imp_right fun hy => ⟨.inr hy.1, hy.2⟩

namespace Solver

/-- The order in which steps descend: first by the number of variables, then by
size. -/
abbrev Descends (s' s : Solver) : Prop :=
  Prod.Lex (· < ·) (· < ·) (s'.varCount, s'.size) (s.varCount, s.size)

/-- A step that adds no variable and shrinks the size descends. -/
theorem descends_of_size_lt {s' s : Solver} (hv : ∀ x ∈ s'.vars, x ∈ s.vars)
    (hs : s'.size < s.size) : Descends s' s := by
  have hle : s'.varCount ≤ s.varCount := length_eraseDups_le hv
  rcases Nat.lt_or_eq_of_le hle with h | h
  · exact .left _ _ h
  · unfold Descends
    rw [h]
    exact .right _ hs

/-- After a binding, the constraints that are left hold no variable but those from
before, and not the bound one. -/
theorem mem_vars_bind {c : Constraint} {rest : List Constraint} {x y : TyVar} {t : Ty}
    (ht : ∀ y ∈ t.vars, y ∈ c.vars) (free : x ∉ t.vars)
    (h : y ∈ (rest.map (Constraint.subst x t)).flatMap Constraint.vars) :
    y ∈ (c :: rest).flatMap Constraint.vars ∧ y ≠ x := by
  simp only [List.mem_flatMap, List.mem_map] at h ⊢
  obtain ⟨_, ⟨d, hd, rfl⟩, hy⟩ := h
  rcases Constraint.mem_vars_subst hy with hy | ⟨hy, hne⟩
  · exact ⟨⟨c, List.mem_cons_self, ht y hy⟩, fun e => free (e ▸ hy)⟩
  · exact ⟨⟨d, List.mem_cons_of_mem _ hd, hy⟩, hne⟩

/-- Binding a variable of the next constraint descends, as no constraint holds it
any more. -/
theorem descends_bindVar {x : TyVar} {t : Ty} {c : Constraint} {rest : List Constraint}
    {bound : Substitution} {s' : Solver} (hx : x ∈ c.vars) (ht : ∀ y ∈ t.vars, y ∈ c.vars)
    (h : bindVar x t c rest bound = .next s') : Descends s' ⟨c :: rest, bound⟩ := by
  unfold bindVar at h
  split at h
  · cases h
  · next hocc =>
    have hfree : x ∉ t.vars := by simpa [Ty.occurs] using hocc
    cases h
    refine .left _ _
      (length_eraseDups_lt (fun y hy => (mem_vars_bind ht hfree hy).1) (a := x) ?_ ?_)
    · simp only [vars, List.flatMap_cons, List.mem_append]
      exact .inl hx
    · exact fun hxm => (mem_vars_bind ht hfree hxm).2 rfl

/-- The parts of two function types hold the variables that the types hold. -/
theorem mem_functionParts_vars {ps qs : List Ty} {r q : Ty} {o : Option Span} {y : TyVar}
    (h : y ∈ (functionParts ps r qs q o).flatMap Constraint.vars) :
    y ∈ (Ty.fn ps r).vars ++ (Ty.fn qs q).vars := by
  simp only [functionParts, List.flatMap_cons, List.mem_append, List.mem_flatMap,
    List.mem_reverse, Constraint.vars, Ty.vars, Ty.varsAll_eq_flatMap] at h ⊢
  rcases h with (h | h) | ⟨d, hd, h⟩
  · exact .inl (.inr h)
  · exact .inr (.inr h)
  · obtain ⟨i, hi, rfl⟩ := List.getElem_of_mem hd
    simp only [List.length_zipWith] at hi
    simp only [List.getElem_zipWith] at h
    rcases h with h | h
    · exact .inl (.inl ⟨_, List.getElem_mem _, h⟩)
    · exact .inr (.inl ⟨_, List.getElem_mem _, h⟩)

/-- The parameters of two function types taken pair by pair have their sizes. -/
theorem sizeAll_zipWith (o : Option Span) :
    ∀ (ps qs : List Ty), ps.length = qs.length →
      Constraint.sizeAll (ps.zipWith (fun p p' => ⟨p, p', o⟩) qs) =
        Ty.sizeAll ps + Ty.sizeAll qs
  | [], [], _ => rfl
  | p :: ps, q :: qs, h => by
    have ih := sizeAll_zipWith o ps qs (by simpa using h)
    simp only [List.zipWith_cons_cons, Constraint.sizeAll, ih, Constraint.size, Ty.sizeAll]
    omega

/-- Taking two function types apart makes them smaller. -/
theorem size_functionParts {ps qs : List Ty} {r q : Ty} {o : Option Span}
    (h : ps.length = qs.length) :
    Constraint.sizeAll (functionParts ps r qs q o) + 2 =
      (Ty.fn ps r).size + (Ty.fn qs q).size := by
  simp only [functionParts, Constraint.sizeAll, Constraint.sizeAll_reverse,
    sizeAll_zipWith o ps qs h, Constraint.size, Ty.size]
  omega

/-- Every step descends. -/
theorem measure_step {s s' : Solver} (h : s.step = .next s') : Descends s' s := by
  obtain ⟨pending, bound⟩ := s
  unfold step at h
  split at h
  · cases h
  · next c rest hp =>
    simp only at hp
    subst hp
    have hpos := Ty.size_pos c.left
    split at h
    · cases h
      refine descends_of_size_lt (fun y hy => ?_) ?_
      · simp only [vars, List.flatMap_cons, List.mem_append]
        exact .inr hy
      · simp only [size, Constraint.sizeAll, Constraint.size]
        omega
    · split at h
      · next x hl =>
        refine descends_bindVar ?_ ?_ h
        · simp [Constraint.vars, hl, Ty.vars]
        · intro y hy
          rw [Constraint.vars, List.mem_append]
          exact .inr hy
      · next x hr _ =>
        refine descends_bindVar ?_ ?_ h
        · simp [Constraint.vars, hr, Ty.vars]
        · intro y hy
          rw [Constraint.vars, List.mem_append]
          exact .inl hy
      · next ps r qs q hl hr =>
        split at h
        · next hlen =>
          cases h
          refine descends_of_size_lt (fun y hy => ?_) ?_
          · simp only [vars, List.flatMap_append, List.flatMap_cons, List.mem_append] at hy ⊢
            rcases hy with hy | hy
            · refine .inl ?_
              rw [Constraint.vars, hl, hr]
              exact mem_functionParts_vars hy
            · exact .inr hy
          · have := size_functionParts (r := r) (q := q) (o := c.origin) hlen
            rw [size, size, Constraint.sizeAll_append, Constraint.sizeAll, Constraint.size, hl, hr]
            omega
        · cases h
      · next c₁ a₁ c₂ a₂ hl hr =>
        cases h
        refine descends_of_size_lt (fun y hy => ?_) ?_
        · simp only [vars, List.flatMap_cons, List.mem_append, Constraint.vars, hl, hr,
            Ty.vars] at hy ⊢
          rcases hy with (hy | hy) | (hy | hy) | hy
          · exact .inl (.inl (.inr hy))
          · exact .inl (.inr (.inr hy))
          · exact .inl (.inl (.inl hy))
          · exact .inl (.inr (.inl hy))
          · exact .inr hy
        · simp only [size, Constraint.sizeAll, Constraint.size, hl, hr, Ty.size]
          omega
      · cases h

end Solver

end TypedSexp
