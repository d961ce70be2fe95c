import TypedSexp.Proofs.Constraint.Triangular
import TypedSexp.Proofs.Entries
import TypedSexp.Proofs.Form.Altered

/-!
# Solved substitutions

Nothing in a list of pairs keeps a replacement from holding a variable that an earlier pair
binds, and for such a list the order of the pairs matters and applying it twice is not
applying it once. Solving only returns triangular substitutions, and for these the order is a
detail.

The main fact is that a triangular substitution leaves none of its variables in a type
(`Substitution.Triangular.not_mem_vars_apply`): a pair takes its own variable away, and no
later pair brings it back. So a second application finds nothing to replace
(`Substitution.Triangular.apply_apply`), and the resolved view, in which each variable has its
final replacement, says all that the pairs say (`Substitution.Triangular.apply_eq_bind_final`).

All of this is about the substitutions that solving returns. Lists of pairs that were put together
otherwise need not be triangular, and for them none of it holds.
-/

namespace TypedSexp

namespace Substitution

/-- The variables that a substitution binds, the first found first. -/
def domain (s : Substitution) : List TyVar := s.map Prod.fst

/-- The replacement that the resolved view has for a variable. A variable that is not bound
stands for itself. -/
def final (s : Substitution) (x : TyVar) : Ty := (Entries.get? x s.resolved).getD (.var x)

@[simp] theorem domain_cons (x : TyVar) (r : Ty) (s : Substitution) :
    domain ((x, r) :: s) = x :: domain s := rfl

/-! ## Types that hold no bound variable -/

/-- Where none of the bound variables stands, there is nothing to replace. -/
theorem apply_eq_self {s : Substitution} {t : Ty} (h : ∀ x ∈ s.domain, x ∉ t.vars) :
    s.apply t = t := by
  induction s with
  | nil => rfl
  | cons p s ih =>
    obtain ⟨x, r⟩ := p
    rw [domain_cons, List.forall_mem_cons] at h
    rw [apply_cons, Ty.subst_of_not_mem_vars h.1]
    exact ih h.2

/-- A variable that stands in no replacement is not brought into a type, in whatever order the
replacements are made. -/
theorem not_mem_vars_apply {s : Substitution} {x : TyVar} (h : ∀ p ∈ s, x ∉ p.2.vars) {t : Ty}
    (ht : x ∉ t.vars) : x ∉ (s.apply t).vars := by
  induction s generalizing t with
  | nil => exact ht
  | cons p s ih =>
    obtain ⟨y, r⟩ := p
    rw [List.forall_mem_cons] at h
    rw [apply_cons]
    refine ih h.2 fun hx => ?_
    rcases Ty.mem_vars_subst hx with hx | ⟨hx, -⟩
    · exact h.1 hx
    · exact ht hx

namespace Triangular

variable {s : Substitution}

/-- The bound variables are different ones. A later pair cannot bind a variable again, as no bound
variable stands in a later pair. -/
theorem nodup_domain (h : s.Triangular) : s.domain.Nodup := by
  have different : s.Pairwise fun p q => p.1 ≠ q.1 := h.settled.imp fun hpq => hpq.1
  exact List.pairwise_map.mpr different

/-- A triangular substitution leaves none of its variables in a type: each is replaced when its turn
comes, and no later pair brings it back. -/
theorem not_mem_vars_apply (h : s.Triangular) (t : Ty) :
    ∀ x ∈ s.domain, x ∉ (s.apply t).vars := by
  induction s generalizing t with
  | nil => simp [domain]
  | cons p s ih =>
    obtain ⟨x, r⟩ := p
    rw [domain_cons, List.forall_mem_cons, apply_cons]
    refine ⟨?_, ih h.tail (Ty.subst x r t)⟩
    have later : ∀ q ∈ s, x ∉ q.2.vars := fun q hq =>
      ((List.pairwise_cons.mp h.settled).1 q hq).2
    refine Substitution.not_mem_vars_apply later fun hx => ?_
    rcases Ty.mem_vars_subst hx with hx | ⟨-, hne⟩
    · exact h.proper (x, r) List.mem_cons_self hx
    · exact hne rfl

/-- Applying a triangular substitution twice is applying it once. The first application leaves none
of the bound variables, so the second one finds nothing to replace. -/
theorem apply_apply (h : s.Triangular) (t : Ty) : s.apply (s.apply t) = s.apply t :=
  apply_eq_self (h.not_mem_vars_apply t)

end Triangular

/-! ## The resolved view -/

/-- Resolving replaces the types of the pairs and keeps their variables and their order. -/
theorem domain_resolvePairs (s : Substitution) : domain (resolvePairs s) = domain s := by
  induction s with
  | nil => rfl
  | cons p s ih =>
    obtain ⟨x, r⟩ := p
    rw [resolvePairs, domain_cons, domain_cons, ih]

namespace Triangular

variable {s : Substitution}

/-- No variable is bound twice, so each pair has its own place in the resolved view. -/
theorem resolved_eq (h : s.Triangular) : s.resolved = resolvePairs s := by
  have different : (domain (resolvePairs s)).Nodup := by
    rw [domain_resolvePairs]
    exact h.nodup_domain
  exact Entries.ofPairs_eq_self different

/-- Under a bound variable stands its image under the whole substitution. Later pairs have been
applied to its replacement, and earlier ones had nothing to change in it. -/
theorem get?_resolvePairs (h : s.Triangular) {x : TyVar} (hx : x ∈ s.domain) :
    Entries.get? x (resolvePairs s) = some (s.apply (.var x)) := by
  induction s with
  | nil => cases hx
  | cons p s ih =>
    obtain ⟨y, r⟩ := p
    rw [resolvePairs, Entries.get?_cons, apply_cons, Ty.subst]
    by_cases hyx : y = x
    · rw [if_pos (beq_iff_eq.mpr hyx), if_pos hyx.symm]
    · rw [domain_cons, List.mem_cons] at hx
      rw [if_neg (fun heq => hyx (eq_of_beq heq)), if_neg (Ne.symm hyx)]
      exact ih h.tail (hx.resolve_left (Ne.symm hyx))

/-- The resolved view gives each bound variable its image. An unbound variable is not in the
view. -/
theorem get?_resolved (h : s.Triangular) {x : TyVar} (hx : x ∈ s.domain) :
    Entries.get? x s.resolved = some (s.apply (.var x)) := by
  rw [h.resolved_eq]
  exact h.get?_resolvePairs hx

/-- The resolved view binds the same variables in the same order. -/
theorem domain_resolved (h : s.Triangular) : domain s.resolved = s.domain := by
  rw [h.resolved_eq, domain_resolvePairs]

/-- To look a variable up in the resolved view, or else to keep it, is to apply the substitution to
it. -/
theorem final_eq (h : s.Triangular) (x : TyVar) : s.final x = s.apply (.var x) := by
  unfold final
  by_cases hx : x ∈ s.domain
  · rw [h.get?_resolved hx, Option.getD_some]
  · have hnone : Entries.get? x s.resolved = none := by
      rw [← h.domain_resolved] at hx
      exact Entries.get?_of_not_mem hx
    have hfree : ∀ y ∈ s.domain, y ∉ (Ty.var x).vars := by
      intro y hy hmem
      rw [Ty.vars, List.mem_singleton] at hmem
      exact hx (hmem ▸ hy)
    rw [hnone, Option.getD_none, apply_eq_self hfree]

/-- Applying the pairs in order is replacing all variables at once by the resolved view. Without the
triangular shape the two differ, since a replacement might be changed again. -/
theorem apply_eq_bind_final (h : s.Triangular) (t : Ty) : s.apply t = t.bind s.final := by
  rw [apply_eq_bind]
  exact Ty.bind_congr fun x _ => (h.final_eq x).symm

end Triangular

end Substitution

/-! ## Typed forms -/

/-- Applying a triangular substitution to the types in a form twice is applying it once. Places and
the forms themselves are not touched by either. -/
theorem Form.applySubstitution_applySubstitution {s : Substitution} (h : s.Triangular)
    (e : Form Note) : (e.applySubstitution s).applySubstitution s = e.applySubstitution s := by
  have hslot : Note.apply s ∘ Note.apply s = Note.apply s := by
    funext n
    obtain ⟨span, type⟩ := n
    cases type with
    | none => rfl
    | some t => exact congrArg (fun t => Note.mk span (some t)) (h.apply_apply t)
  rw [applySubstitution_eq_alter, applySubstitution_eq_alter, alter_alter, Change.comp, hslot]
  rfl

namespace Constraint

/-- **A solution is triangular, and applying it once is enough.** The bound variables are
different ones, none stands in its own replacement, and none stands in a later pair. So no
bound variable is left in a type to which the solution was applied, and a second application
changes neither a type nor the types in a form. The resolved view has the bound variables as
its keys and gives each of them its image, and replacing all variables by it at once is
applying the pairs in order. -/
theorem solve_idempotent {cs : List Constraint} {s : Substitution} (h : solve cs = .ok s) :
    s.domain.Nodup ∧ s.Triangular ∧
      (∀ t : Ty, ∀ x ∈ s.domain, x ∉ (s.apply t).vars) ∧
      (∀ t : Ty, s.apply (s.apply t) = s.apply t) ∧
      s.resolved.domain = s.domain ∧
      (∀ x ∈ s.domain, Entries.get? x s.resolved = some (s.apply (.var x))) ∧
      (∀ t : Ty, s.apply t = t.bind s.final) ∧
      ∀ e : Form Note, (e.applySubstitution s).applySubstitution s = e.applySubstitution s := by
  have triangular : s.Triangular := Solver.triangular_of_run h
  refine ⟨triangular.nodup_domain, triangular, triangular.not_mem_vars_apply,
    triangular.apply_apply, triangular.domain_resolved, fun x hx => triangular.get?_resolved hx,
    triangular.apply_eq_bind_final, Form.applySubstitution_applySubstitution triangular⟩

/-- Three pairs, each of which the next one changes: the first replacement holds the second
variable and the second one the third. -/
theorem solve_idempotent_chain :
    let x : TyVar := ⟨0, 0⟩
    let y : TyVar := ⟨1, 0⟩
    let z : TyVar := ⟨2, 0⟩
    let s : Substitution := [(x, .fn [.var y] .string), (y, .array (.var z)), (z, .number)]
    solve [⟨.var z, .number, none⟩, ⟨.var y, .array (.var z), none⟩,
        ⟨.var x, .fn [.var y] .string, none⟩] = .ok s ∧
      s.Triangular ∧ s.apply (s.apply (.var x)) = s.apply (.var x) ∧
      Entries.get? x s.resolved = some (.fn [.array .number] .string) ∧
      s.apply (.array (.var y)) = (Ty.array (.var y)).bind s.final := by
  intro x y z s
  have h : solve [⟨.var z, .number, none⟩, ⟨.var y, .array (.var z), none⟩,
      ⟨.var x, .fn [.var y] .string, none⟩] = .ok s := by
    cbv
  obtain ⟨-, triangular, -, twice, -, view, once, -⟩ := solve_idempotent h
  have hx : x ∈ s.domain := List.mem_cons_self
  have image : s.apply (.var x) = .fn [.array .number] .string := by decide
  exact ⟨h, triangular, twice _, (view x hx).trans (congrArg some image), once _⟩

end Constraint

end TypedSexp
