import Mathlib.Data.List.Forall2
import Mathlib.Data.Set.Function
import TypedSexp.Proofs.Entries
import TypedSexp.Proofs.Ty.Bind
import TypedSexp.Ty.Render

/-!
# Renamed variables

A renaming gives every variable another one in its stead. It is the case of `Ty.bind` in
which each variable goes to a variable, so its laws come from there.

A renaming that keeps different variables apart commutes with all that is done to types:
equality and the occurs check do not change, replacing a variable is replacing its new name
(`Ty.rename_subst`), and so on up to whole substitutions. And the pretty form of types does not
change at all (`Ty.prettyAll_rename`), because it names variables by the order in which they
come. For this it is enough that the variables of these types are kept apart.
-/

namespace TypedSexp

/-! ## Lists of different members -/

section Lists

variable {α β : Type} [BEq α] [LawfulBEq α] [BEq β] [LawfulBEq β] {f : α → β}

/-- New names that keep the members of a list apart keep their first places. Names of things that
are not in the list do not count. -/
theorem eraseDups_map {xs : List α} (inj : Set.InjOn f {x | x ∈ xs}) :
    (xs.map f).eraseDups = xs.eraseDups.map f := by
  induction xs using eraseDups_ind with
  | nil => rfl
  | cons x xs ih =>
    have hfilter : (xs.map f).filter (fun y => !(y == f x)) =
        (xs.filter fun y => !(y == x)).map f := by
      rw [List.filter_map]
      congr 1
      refine List.filter_congr fun y hy => ?_
      have : (f y == f x) = (y == x) := by
        rw [Bool.eq_iff_iff, beq_iff_eq, beq_iff_eq]
        exact inj.eq_iff (List.mem_cons_of_mem x hy) List.mem_cons_self
      rw [Function.comp_apply, this]
    rw [List.map_cons, List.eraseDups_cons, List.eraseDups_cons, List.map_cons, hfilter,
      ih (inj.mono fun y hy => ?_)]
    exact List.mem_cons_of_mem x (List.mem_filter.mp hy).1

/-- New names that keep the members of a list apart keep the place at which one is found. A thing
that is not in the list has to be kept apart from its members too. -/
theorem idxOf_map {xs : List α} {x : α} (inj : Set.InjOn f {y | y ∈ x :: xs}) :
    (xs.map f).idxOf (f x) = xs.idxOf x := by
  induction xs with
  | nil => rfl
  | cons y xs ih =>
    by_cases hy : y = x
    · subst hy
      rw [List.map_cons, List.idxOf_cons_self, List.idxOf_cons_self]
    · have hfy : f y ≠ f x := fun heq => hy (inj (by simp) (by simp) heq)
      have inj' : Set.InjOn f {y | y ∈ x :: xs} := inj.mono <|
        List.forall_mem_cons.mpr ⟨by simp, fun z hz => by simp [hz]⟩
      rw [List.map_cons, List.idxOf_cons_ne _ hfy, List.idxOf_cons_ne _ hy, ih inj']

end Lists

namespace Ty

variable {ρ σ : TyVar → TyVar}

/-- The type with a new name for every variable. -/
def rename (ρ : TyVar → TyVar) (t : Ty) : Ty := t.bind fun x => .var (ρ x)

/-! ## The laws of `rename` -/

@[simp] theorem rename_base (a : TyBase) : rename ρ (.base a) = .base a := rfl

@[simp] theorem rename_var (x : TyVar) : rename ρ (.var x) = .var (ρ x) := rfl

/-- A renaming goes into the parameters and the result of a function type. -/
@[simp] theorem rename_fn (ps : List Ty) (r : Ty) :
    rename ρ (.fn ps r) = .fn (ps.map (rename ρ)) (rename ρ r) := by
  rw [rename, bind, bindAll_eq_map]
  rfl

@[simp] theorem rename_app (c a : Ty) : rename ρ (.app c a) = .app (rename ρ c) (rename ρ a) := rfl

@[simp] theorem rename_id (t : Ty) : rename id t = t := bind_var t

/-- Two renamings one after the other are one renaming. They need not keep variables apart. -/
theorem rename_rename (t : Ty) : rename ρ (rename σ t) = rename (ρ ∘ σ) t := by
  rw [rename, rename, bind_bind]
  rfl

/-- Renamings that agree on the variables of a type do the same to it. -/
theorem rename_congr {t : Ty} (h : ∀ x ∈ t.vars, ρ x = σ x) : rename ρ t = rename σ t :=
  bind_congr fun x hx => congrArg var (h x hx)

/-- The variables of a renamed type are the new names of its variables, place by place. -/
theorem vars_rename (t : Ty) : (rename ρ t).vars = t.vars.map ρ := by
  rw [rename, vars_bind, List.map_eq_flatMap]
  rfl

/-- Types that differ have different new forms, if variables that differ have different new
names. -/
theorem rename_injective (inj : Function.Injective ρ) : Function.Injective (rename ρ) := by
  have : Nonempty TyVar := ⟨⟨0, 0⟩⟩
  obtain ⟨back, hback⟩ := inj.hasLeftInverse
  refine Function.LeftInverse.injective (g := rename back) fun t => ?_
  rw [rename_rename, hback.comp_eq_id, rename_id]

/-- A variable occurs in a type exactly if its new name occurs in the renamed type, where variables
are kept apart. So the check that stops a circular solution gives the same answer for both. -/
theorem occurs_rename (inj : Function.Injective ρ) (x : TyVar) (t : Ty) :
    occurs (ρ x) (rename ρ t) = occurs x t := by
  rw [occurs, occurs, vars_rename, Bool.eq_iff_iff, List.contains_iff_mem, List.contains_iff_mem]
  exact List.mem_map_of_injective inj

/-- Replacing a variable and renaming is renaming and replacing the new variable. If two variables
got one name, more would be replaced after than before. -/
theorem rename_subst (inj : Function.Injective ρ) (x : TyVar) (r t : Ty) :
    rename ρ (subst x r t) = subst (ρ x) (rename ρ r) (rename ρ t) := by
  rw [subst_eq_bind, subst_eq_bind, rename, rename, rename, bind_bind, bind_bind]
  refine bind_congr fun y _ => ?_
  rw [bind]
  by_cases hy : y = x
  · subst hy
    rw [Function.update_self, Function.update_self]
  · rw [Function.update_of_ne hy, Function.update_of_ne fun heq => hy (inj heq), bind]

/-! ## Rendered types -/

/-- To show a renamed type with names is to show the type with the names of the new variables.
Nothing else of a type depends on its variables. -/
theorem render_rename (name : TyVar → String) (t : Ty) :
    render name (rename ρ t) = render (fun x => name (ρ x)) t := by
  induction t using Ty.ind with
  | base a => rfl
  | var x => rfl
  | fn ps r ihps ihr =>
    have hps : (ps.map (rename ρ)).map (render name) =
        ps.map (render fun x => name (ρ x)) := by
      rw [List.map_map]
      exact List.map_congr_left ihps
    simp only [rename_fn, render, renderAll_eq_map, hps, ihr]
  | app c a ihc iha => simp only [rename_app, render, ihc, iha]

/-- What is shown of a type depends on the names of its own variables only. Names for other
variables may be anything. -/
theorem render_congr {name name' : TyVar → String} {t : Ty}
    (h : ∀ x ∈ t.vars, name x = name' x) : render name t = render name' t := by
  induction t using Ty.ind with
  | base a => rfl
  | var x => exact h x List.mem_cons_self
  | fn ps r ihps ihr =>
    simp only [vars, varsAll_eq_flatMap, List.mem_append, List.mem_flatMap] at h
    have hps : ps.map (render name) = ps.map (render name') :=
      List.map_congr_left fun p hp => ihps p hp fun x hx => h x (.inl ⟨p, hp, hx⟩)
    simp only [render, renderAll_eq_map, hps, ihr fun x hx => h x (.inr hx)]
  | app c a ihc iha =>
    simp only [vars, List.mem_append] at h
    simp only [render, ihc fun x hx => h x (.inl hx), iha fun x hx => h x (.inr hx)]

/-- The variables that several types share their names for are those of any of the types. -/
theorem mem_sharedVars {ts : List Ty} {x : TyVar} :
    x ∈ sharedVars ts ↔ ∃ t ∈ ts, x ∈ t.vars := by
  rw [sharedVars, List.mem_eraseDups, List.mem_flatMap]

/-- The variables of renamed types, one type after the other, are the new names of the variables of
the types. -/
theorem flatMap_vars_rename (ts : List Ty) :
    (ts.map (rename ρ)).flatMap vars = (ts.flatMap vars).map ρ := by
  rw [List.flatMap_map, List.map_flatMap]
  exact List.flatMap_congr fun t _ => vars_rename t

/-- The pretty forms of types do not show the names of their variables, only which of them are the
same. It is enough that variables of the types themselves are kept apart. -/
theorem prettyAll_rename {ts : List Ty} (inj : Set.InjOn ρ {x | x ∈ sharedVars ts}) :
    prettyAll (ts.map (rename ρ)) = prettyAll ts := by
  have hshared : sharedVars (ts.map (rename ρ)) = (sharedVars ts).map ρ := by
    rw [sharedVars, flatMap_vars_rename]
    exact eraseDups_map (inj.mono fun x hx => List.mem_eraseDups.mpr hx)
  unfold prettyAll
  rw [hshared, List.map_map]
  refine List.map_congr_left fun t ht => ?_
  rw [Function.comp_apply, render_rename]
  refine render_congr fun x hx => ?_
  have hx : x ∈ sharedVars ts := mem_sharedVars.mpr ⟨t, ht, hx⟩
  have inj' : Set.InjOn ρ {y | y ∈ x :: sharedVars ts} := inj.mono <|
    List.forall_mem_cons.mpr ⟨hx, fun y hy => hy⟩
  rw [idxOf_map inj']

/-- The pretty form of a type does not show the names of its variables. -/
theorem pretty_rename (inj : Function.Injective ρ) (t : Ty) : (rename ρ t).pretty = t.pretty := by
  have h : prettyAll ([t].map (rename ρ)) = prettyAll [t] := prettyAll_rename inj.injOn
  rw [List.map_singleton, prettyAll_singleton, prettyAll_singleton] at h
  exact (List.cons.inj h).1

end Ty

namespace Substitution

variable {ρ σ : TyVar → TyVar}

/-- The substitution with a new name for every variable. -/
def rename (ρ : TyVar → TyVar) (s : Substitution) : Substitution := s.map (Prod.map ρ (Ty.rename ρ))

@[simp] theorem rename_nil : rename ρ [] = [] := rfl

@[simp] theorem rename_cons (p : TyVar × Ty) (s : Substitution) :
    rename ρ (p :: s) = (ρ p.1, Ty.rename ρ p.2) :: rename ρ s := rfl

@[simp] theorem rename_append (s₁ s₂ : Substitution) :
    rename ρ (s₁ ++ s₂) = rename ρ s₁ ++ rename ρ s₂ := List.map_append

@[simp] theorem rename_id (s : Substitution) : rename id s = s := by
  have hpair : ∀ p : TyVar × Ty, Prod.map id (Ty.rename id) p = p := by
    rintro ⟨x, t⟩
    rw [Prod.map_apply, Ty.rename_id, id]
  rw [rename, List.map_congr_left fun p _ => hpair p, List.map_id']

/-- Two renamings of a substitution, one after the other, are one renaming. -/
theorem rename_rename (s : Substitution) : rename ρ (rename σ s) = rename (ρ ∘ σ) s := by
  rw [rename, rename, rename, List.map_map]
  refine List.map_congr_left ?_
  rintro ⟨x, t⟩ _
  rw [Function.comp_apply, Prod.map_apply, Prod.map_apply, Prod.map_apply, Ty.rename_rename]
  rfl

variable (inj : Function.Injective ρ)

include inj

/-- Applying a substitution and renaming is renaming both and applying, if the renaming keeps
variables apart. -/
theorem rename_apply (s : Substitution) (t : Ty) :
    (s.apply t).rename ρ = (s.rename ρ).apply (t.rename ρ) := by
  induction s generalizing t with
  | nil => rfl
  | cons p s ih =>
    obtain ⟨x, r⟩ := p
    rw [apply_cons, ih, rename_cons, apply_cons, Ty.rename_subst inj]

/-- Where variables are kept apart, the final replacement of each variable is renamed with it. -/
theorem rename_resolvePairs (s : Substitution) :
    (s.rename ρ).resolvePairs = s.resolvePairs.rename ρ := by
  induction s with
  | nil => rfl
  | cons p s ih =>
    obtain ⟨x, r⟩ := p
    rw [rename_cons, resolvePairs, resolvePairs, rename_cons, ih, rename_apply inj]

/-- The resolved view of a renamed substitution is the renamed one. Which binding of a variable is
the last does not depend on its name. -/
theorem resolved_rename (s : Substitution) :
    (s.rename ρ).resolved = Substitution.rename ρ s.resolved := by
  rw [resolved, rename_resolvePairs inj, rename, Entries.ofPairs_map inj]
  rfl

end Substitution

end TypedSexp
