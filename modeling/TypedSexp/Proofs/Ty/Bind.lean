import Mathlib.Data.List.Basic
import Mathlib.Logic.Function.Basic
import TypedSexp.Constraint.Descent

/-!
# Replacing all variables at once

`Ty.bind` replaces every variable of a type at once. Replacing one variable is the
case in which all others stay (`Ty.subst_eq_bind`), and applying a substitution is
the case in which each variable goes to its own image (`Substitution.apply_eq_bind`),
so both inherit the laws stated here for `bind`.

Two of the laws carry the theory of solving. A map that already sends `x` where it
sends `r` does not see a replacement of `x` by `r` (`Ty.bind_subst`). And no map sends
a variable to the image of a larger type in which it stands (`Ty.bind_ne_of_mem_vars`),
because types are finite.
-/

namespace TypedSexp

namespace Ty

/-- Induction over types, with the hypothesis for each parameter of a function. The induction that
comes with the type has a second motive for the list of parameters; here it is folded into the case
of functions. -/
theorem ind {motive : Ty → Prop} (base : ∀ a, motive (.base a)) (var : ∀ x, motive (.var x))
    (fn : ∀ ps r, (∀ p ∈ ps, motive p) → motive r → motive (.fn ps r))
    (app : ∀ c a, motive c → motive a → motive (.app c a)) : ∀ t, motive t
  | .base a => base a
  | .var x => var x
  | .fn ps r => fn ps r (fun p _ => ind base var fn app p) (ind base var fn app r)
  | .app c a => app c a (ind base var fn app c) (ind base var fn app a)

/-! ## The laws of `bind` -/

/-- The image of a function type has the images of the parameters and of the result. -/
theorem bind_fn (θ : TyVar → Ty) (ps : List Ty) (r : Ty) :
    (Ty.fn ps r).bind θ = .fn (ps.map (bind θ)) (r.bind θ) := by
  show Ty.fn (bindAll θ ps) (r.bind θ) = _
  rw [bindAll_eq_map]

theorem bind_app (θ : TyVar → Ty) (c a : Ty) :
    (Ty.app c a).bind θ = .app (c.bind θ) (a.bind θ) := rfl

/-- Two maps that agree on the variables of a type give it the same image. What they do to other
variables does not count. -/
theorem bind_congr {θ φ : TyVar → Ty} {t : Ty} (h : ∀ x ∈ t.vars, θ x = φ x) :
    t.bind θ = t.bind φ := by
  induction t using Ty.ind with
  | base a => rfl
  | var x => exact h x (by simp [vars])
  | fn ps r ihps ihr =>
    simp only [vars, varsAll_eq_flatMap, List.mem_append, List.mem_flatMap] at h
    have hps : ps.map (bind θ) = ps.map (bind φ) :=
      List.map_congr_left fun p hp => ihps p hp fun x hx => h x (.inl ⟨p, hp, hx⟩)
    simp only [bind_fn, hps, ihr fun x hx => h x (.inr hx)]
  | app c a ihc iha =>
    simp only [vars, List.mem_append] at h
    simp only [bind_app, ihc fun x hx => h x (.inl hx), iha fun x hx => h x (.inr hx)]

/-- Sending every variable to itself changes nothing. -/
@[simp] theorem bind_var (t : Ty) : t.bind .var = t := by
  induction t using Ty.ind with
  | base a => rfl
  | var x => rfl
  | fn ps r ihps ihr =>
    have hps : ps.map (bind .var) = ps := (List.map_congr_left ihps).trans (List.map_id' ps)
    simp only [bind_fn, hps, ihr]
  | app c a ihc iha => simp only [bind_app, ihc, iha]

/-- Two maps one after the other are one map, which sends a variable to the second image of its
first image. -/
theorem bind_bind (θ φ : TyVar → Ty) (t : Ty) :
    (t.bind φ).bind θ = t.bind fun x => (φ x).bind θ := by
  induction t using Ty.ind with
  | base a => rfl
  | var x => rfl
  | fn ps r ihps ihr =>
    simp only [bind_fn, List.map_map, ihr]
    congr 1
    exact List.map_congr_left ihps
  | app c a ihc iha => simp only [bind_app, ihc, iha]

/-- The variables of an image are those of the images, one after the other, with repetitions and in
the order of the places in the type. -/
theorem vars_bind (θ : TyVar → Ty) (t : Ty) :
    (t.bind θ).vars = t.vars.flatMap fun x => (θ x).vars := by
  induction t using Ty.ind with
  | base a => rfl
  | var x => exact (List.append_nil _).symm
  | fn ps r ihps ihr =>
    have hps : (ps.map (bind θ)).flatMap vars = (ps.flatMap vars).flatMap fun x => (θ x).vars := by
      rw [List.flatMap_map, List.flatMap_assoc]
      exact List.flatMap_congr ihps
    simp only [bind_fn, vars, varsAll_eq_flatMap, List.flatMap_append, hps, ihr]
  | app c a ihc iha => simp only [bind_app, vars, List.flatMap_append, ihc, iha]

/-- Replacing one variable leaves all others where they are. By this the laws of replacements come
from the laws of maps. -/
theorem subst_eq_bind (x : TyVar) (r t : Ty) :
    subst x r t = t.bind (Function.update .var x r) := by
  induction t using Ty.ind with
  | base a => rfl
  | var y =>
    show _ = Function.update Ty.var x r y
    rw [subst, Function.update_apply]
  | fn ps q ihps ihq =>
    simp only [subst, substAll_eq_map, bind_fn, ihq]
    congr 1
    exact List.map_congr_left ihps
  | app c a ihc iha => simp only [subst, bind_app, ihc, iha]

/-- A map that sends `x` where it sends `r` does not see a replacement of `x` by `r`. This is why
solving a variable keeps the unifiers of what is left. -/
theorem bind_subst {θ : TyVar → Ty} {x : TyVar} {r : Ty} (h : θ x = r.bind θ) (t : Ty) :
    (subst x r t).bind θ = t.bind θ := by
  rw [subst_eq_bind, bind_bind]
  refine bind_congr fun y _ => ?_
  by_cases hy : y = x
  · subst hy
    rw [Function.update_self, h]
  · rw [Function.update_of_ne hy]
    rfl

/-- A variable that does not stand in a type cannot be replaced there. -/
theorem subst_of_not_mem_vars {x : TyVar} {r t : Ty} (h : x ∉ t.vars) : subst x r t = t := by
  rw [subst_eq_bind]
  refine (bind_congr fun y hy => ?_).trans (bind_var t)
  have hne : y ≠ x := fun e => h (e ▸ hy)
  rw [Function.update_of_ne hne]

/-! ## The occurs check -/

/-- One of several types is no larger than all of them together. -/
theorem size_le_sizeAll {t : Ty} {ts : List Ty} (h : t ∈ ts) : t.size ≤ sizeAll ts := by
  induction ts with
  | nil => cases h
  | cons u us ih =>
    rw [sizeAll]
    rcases List.mem_cons.mp h with rfl | h
    · exact Nat.le_add_right _ _
    · exact Nat.le_trans (ih h) (Nat.le_add_left _ _)

/-- The image of a variable is no larger than the image of a type in which it stands. The two are of
one size only if the type is the variable (see `bind_ne_of_mem_vars`). -/
theorem size_le_size_bind (θ : TyVar → Ty) {x : TyVar} {t : Ty} (h : x ∈ t.vars) :
    (θ x).size ≤ (t.bind θ).size := by
  induction t using Ty.ind with
  | base a => simp [vars] at h
  | var y =>
    rw [vars, List.mem_singleton] at h
    rw [h]
    exact Nat.le_refl _
  | fn ps r ihps ihr =>
    simp only [vars, varsAll_eq_flatMap, List.mem_append, List.mem_flatMap] at h
    simp only [bind_fn, size]
    rcases h with ⟨p, hp, hx⟩ | hx
    · have hle := ihps p hp hx
      have hsum := size_le_sizeAll (List.mem_map_of_mem (f := bind θ) hp)
      omega
    · have hle := ihr hx
      omega
  | app c a ihc iha =>
    simp only [vars, List.mem_append] at h
    simp only [bind_app, size]
    rcases h with hx | hx
    · have hle := ihc hx
      omega
    · have hle := iha hx
      omega

/-- No map sends a variable to the image of another type in which it stands: that
image has the variable's own as a proper part. -/
theorem bind_ne_of_mem_vars (θ : TyVar → Ty) {x : TyVar} {t : Ty} (h : x ∈ t.vars)
    (hne : t ≠ .var x) : θ x ≠ t.bind θ := by
  intro heq
  cases t with
  | base a => simp [vars] at h
  | var y =>
    rw [vars, List.mem_singleton] at h
    exact hne (h ▸ rfl)
  | fn ps r =>
    -- The image of the function is larger by one than those of its parts together.
    have hsize := congrArg size heq
    simp only [vars, varsAll_eq_flatMap, List.mem_append, List.mem_flatMap] at h
    simp only [bind_fn, size] at hsize
    rcases h with ⟨p, hp, hx⟩ | hx
    · have hle := size_le_size_bind θ hx
      have hsum := size_le_sizeAll (List.mem_map_of_mem (f := bind θ) hp)
      omega
    · have hle := size_le_size_bind θ hx
      omega
  | app c a =>
    have hsize := congrArg size heq
    simp only [vars, List.mem_append] at h
    simp only [bind_app, size] at hsize
    rcases h with hx | hx
    · have hle := size_le_size_bind θ hx
      omega
    · have hle := size_le_size_bind θ hx
      omega

end Ty

namespace Substitution

/-- Applying a substitution sends each variable to its own image. So a list of replacements, made
one after the other, is a single map on types. -/
theorem apply_eq_bind (s : Substitution) (t : Ty) :
    s.apply t = t.bind fun x => s.apply (.var x) := by
  induction s generalizing t with
  | nil => exact (Ty.bind_var t).symm
  | cons p s ih =>
    obtain ⟨x, r⟩ := p
    simp only [apply_cons]
    rw [ih, Ty.subst_eq_bind, Ty.bind_bind]
    refine Ty.bind_congr fun y _ => ?_
    rw [ih (Ty.subst x r (.var y)), Ty.subst_eq_bind, Ty.bind]

@[simp] theorem apply_base (s : Substitution) (a : TyBase) : s.apply (.base a) = .base a := by
  rw [apply_eq_bind, Ty.bind]

/-- A substitution goes into the parameters and the result of a function type. -/
@[simp] theorem apply_fn (s : Substitution) (ps : List Ty) (r : Ty) :
    s.apply (.fn ps r) = .fn (ps.map s.apply) (s.apply r) := by
  rw [apply_eq_bind, Ty.bind_fn, ← apply_eq_bind]
  congr 1
  exact List.map_congr_left fun p _ => (apply_eq_bind s p).symm

/-- A substitution goes into both parts of an applied constructor. -/
@[simp] theorem apply_app (s : Substitution) (c a : Ty) :
    s.apply (.app c a) = .app (s.apply c) (s.apply a) := by
  rw [apply_eq_bind, Ty.bind_app, ← apply_eq_bind, ← apply_eq_bind]

@[simp] theorem apply_string (s : Substitution) : s.apply .string = .string := apply_base s _

@[simp] theorem apply_number (s : Substitution) : s.apply .number = .number := apply_base s _

@[simp] theorem apply_array (s : Substitution) (t : Ty) :
    s.apply (.array t) = .array (s.apply t) := by
  rw [Ty.array, Ty.array, apply_app, Ty.arrayConstructor, apply_base]

/-- A map that sends every bound variable where it sends its replacement does not see the
substitution. Such maps are the unifiers of what the substitution solved. -/
theorem bind_apply {θ : TyVar → Ty} {s : Substitution} (h : ∀ p ∈ s, θ p.1 = p.2.bind θ) (t : Ty) :
    (s.apply t).bind θ = t.bind θ := by
  induction s generalizing t with
  | nil => rfl
  | cons p s ih =>
    obtain ⟨x, r⟩ := p
    rw [apply_cons, ih fun p hp => h p (List.mem_cons_of_mem _ hp)]
    exact Ty.bind_subst (h (x, r) List.mem_cons_self) t

end Substitution

end TypedSexp
