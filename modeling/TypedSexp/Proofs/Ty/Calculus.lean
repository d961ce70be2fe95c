import TypedSexp.Proofs.Ty.Bind

/-!
# The calculus of replacements

Three laws of `Ty.subst`, for all types, which together are `Ty.subst_calculus`.

* Two replacements change places (`Ty.subst_subst`). The one that moves inwards is made in the
  other one's replacement too, and must not bring back the variable that is already gone.
* A replacement that changes nothing, whatever is put in, is one of a variable that does not
  stand in the type (`Ty.subst_eq_self_iff`).
* The variables in the order of their first places are again such an order: those of the
  replacement come where the variable came, and only what has come before is dropped
  (`Ty.freeVars_subst`).

The last law is about lists. Before repetitions are dropped it is `Ty.vars_subst`, which says
nothing but that the replacement stands in every place. That repetitions may as well be dropped
first, in the type and in the replacement, is `eraseDups_flatMap`.

The first law needs its premises. Where the variable that is replaced first stands in the second
replacement, the two do not change places.
-/

namespace TypedSexp

/-! ## First places -/

section FirstPlaces

variable {α β : Type} [BEq α] [LawfulBEq α]

/-- Dropping repetitions commutes with keeping some of the members, as a member is kept or not
wherever it stands. -/
theorem eraseDups_filter (p : α → Bool) (l : List α) :
    (l.filter p).eraseDups = l.eraseDups.filter p := by
  induction l using eraseDups_ind with
  | nil => rfl
  | cons a l ih =>
    rw [List.eraseDups_cons, List.filter_cons, List.filter_cons, ← ih, List.filter_filter]
    by_cases ha : p a = true
    · rw [if_pos ha, if_pos ha, List.eraseDups_cons, List.filter_filter]
      simp only [Bool.and_comm]
    · -- The members that are kept are different from this one anyway.
      rw [if_neg ha, if_neg ha]
      congr 1
      refine List.filter_congr fun b _ => ?_
      by_cases hb : b = a
      · simp [hb, ha]
      · simp [hb]

/-- Where every member comes once there is nothing more to drop. -/
@[simp] theorem eraseDups_eraseDups (l : List α) : l.eraseDups.eraseDups = l.eraseDups := by
  induction l using eraseDups_ind with
  | nil => rfl
  | cons a l ih =>
    rw [List.eraseDups_cons, List.eraseDups_cons, ← eraseDups_filter, List.filter_filter]
    simp only [Bool.and_self]
    rw [ih]

/-- The first places in a list depend on those in its parts only. How often a member is repeated in
a part does not count. -/
theorem eraseDups_append_congr {as as' bs bs' : List α} (h : as.eraseDups = as'.eraseDups)
    (h' : bs.eraseDups = bs'.eraseDups) : (as ++ bs).eraseDups = (as' ++ bs').eraseDups := by
  have hmem : ∀ a, as.elem a = as'.elem a := by
    intro a
    rw [Bool.eq_iff_iff, List.elem_iff, List.elem_iff, ← List.mem_eraseDups, h, List.mem_eraseDups]
  rw [List.eraseDups_append, List.eraseDups_append, List.removeAll, List.removeAll,
    eraseDups_filter, eraseDups_filter, h, h']
  simp only [hmem]

/-- The first places in a list of images depend on the first places in each image only. -/
theorem eraseDups_flatMap_congr {f g : β → List α}
    (h : ∀ b, (f b).eraseDups = (g b).eraseDups) (l : List β) :
    (l.flatMap f).eraseDups = (l.flatMap g).eraseDups := by
  induction l with
  | nil => rfl
  | cons b l ih =>
    rw [List.flatMap_cons, List.flatMap_cons]
    exact eraseDups_append_congr (h b) ih

variable [BEq β] [LawfulBEq β]

/-- Where the images of one member have been taken away, the member has none left. So the member
itself may be dropped before. -/
theorem removeAll_flatMap (f : β → List α) (b : β) (l : List β) :
    (l.flatMap f).removeAll (f b) =
      ((l.filter fun c => !c == b).flatMap f).removeAll (f b) := by
  rw [List.removeAll, List.removeAll, List.filter_flatMap, List.filter_flatMap]
  induction l with
  | nil => rfl
  | cons c l ih =>
    rw [List.flatMap_cons, List.filter_cons, ih]
    by_cases hc : c = b
    · simp [hc]
    · simp [hc]

/-- A member that comes again has no image that has not come before. So repetitions may be dropped
before the images are taken. -/
theorem eraseDups_flatMap (f : β → List α) (l : List β) :
    (l.flatMap f).eraseDups = (l.eraseDups.flatMap f).eraseDups := by
  induction l using eraseDups_ind with
  | nil => rfl
  | cons b l ih =>
    rw [List.eraseDups_cons, List.flatMap_cons, List.flatMap_cons, List.eraseDups_append,
      removeAll_flatMap, ← List.eraseDups_append]
    exact eraseDups_append_congr rfl ih

end FirstPlaces

namespace Ty

variable {x y : TyVar} {a b t : Ty}

/-! ## Where a variable stands -/

@[simp] theorem subtermsAll_eq_flatMap (ts : List Ty) : subtermsAll ts = ts.flatMap subterms := by
  induction ts with
  | nil => rfl
  | cons t ts ih => rw [subtermsAll, ih, List.flatMap_cons]

/-- The variables of a type are those among its parts. This ties the two ways of asking whether a
variable stands in a type. -/
theorem var_mem_subterms_iff : .var x ∈ t.subterms ↔ x ∈ t.vars := by
  induction t using Ty.ind with
  | base a => simp [subterms, vars]
  | var y => simp [subterms, vars]
  | fn ps r ihps ihr =>
    have hps : (∃ p ∈ ps, .var x ∈ p.subterms) ↔ ∃ p ∈ ps, x ∈ p.vars :=
      exists_congr fun p => and_congr_right fun hp => ihps p hp
    simp [subterms, vars, hps, ihr]
  | app c a ihc iha => simp [subterms, vars, ihc, iha]

/-- To look for a variable among the parts of a type is to ask whether it occurs there, which is a
search of its own. -/
theorem contains_var (t : Ty) (x : TyVar) : t.contains (.var x) = occurs x t := by
  rw [contains, occurs, Bool.eq_iff_iff, List.contains_iff_mem, List.contains_iff_mem,
    var_mem_subterms_iff]

/-- A variable that does not occur in a type is none of its variables. -/
theorem occurs_eq_false_iff : occurs x t = false ↔ x ∉ t.vars := by
  rw [occurs, ← Bool.not_eq_true, List.contains_iff_mem]

/-! ## Replacing -/

/-- The variables of a replacement stand in every place of the variable, and all other variables
where they stood. Repetitions are kept. -/
theorem vars_subst (x : TyVar) (a t : Ty) :
    (subst x a t).vars = t.vars.flatMap fun y => if y = x then a.vars else [y] := by
  rw [subst_eq_bind, vars_bind]
  refine List.flatMap_congr fun y _ => ?_
  rw [Function.update_apply]
  split <;> rfl

/-- Two replacements change places, if the second does not hold the first variable. In the new order
the first replacement itself goes through the second one. -/
theorem subst_subst (hne : x ≠ y) (hb : x ∉ b.vars) (t : Ty) :
    subst y b (subst x a t) = subst x (subst y b a) (subst y b t) := by
  rw [subst_eq_bind y b, subst_eq_bind x a, subst_eq_bind x, subst_eq_bind y b t, bind_bind,
    bind_bind]
  refine bind_congr fun z _ => ?_
  by_cases hx : z = x
  · subst hx
    rw [Function.update_self, Function.update_of_ne hne, bind, Function.update_self, subst_eq_bind]
  · rw [Function.update_of_ne hx, bind]
    by_cases hy : z = y
    · subst hy
      rw [Function.update_self, ← subst_eq_bind, subst_of_not_mem_vars hb]
    · rw [Function.update_of_ne hy, bind, Function.update_of_ne hx]

/-- No replacement changes a type exactly if the variable does not stand there: a type without
variables would be seen in its place. -/
theorem subst_eq_self_iff : (∀ a, subst x a t = t) ↔ x ∉ t.vars := by
  constructor
  · intro h hx
    rw [← h default, vars_subst, List.mem_flatMap] at hx
    obtain ⟨y, -, hy⟩ := hx
    split at hy
    next => cases hy
    next hne => exact hne (List.mem_singleton.mp hy).symm
  · intro h a
    exact subst_of_not_mem_vars h

/-- The variables of a replacement come where the variable came first, and each variable is kept in
its first place only. A type without the variable keeps its variables. -/
theorem freeVars_subst (x : TyVar) (a t : Ty) : (subst x a t).freeVars =
    (t.freeVars.flatMap fun y => if y = x then a.freeVars else [y]).eraseDups := by
  rw [freeVars, vars_subst, eraseDups_flatMap]
  refine eraseDups_flatMap_congr (fun y => ?_) _
  split
  · exact (eraseDups_eraseDups a.vars).symm
  · rfl

/-- **The laws of replacing a variable.** Replacements of different variables change places, if
the first variable does not stand in the second replacement. A type is left as it is by every
replacement of a variable exactly if the variable does not stand in it, which is to say that it is
none of its parts. And the variables of the result, in the order of their first places, are those
of the type with those of the replacement in the variable's place, each kept where it comes
first. -/
theorem subst_calculus :
    (∀ (t a b : Ty) (x y : TyVar), x ≠ y → occurs x b = false →
      subst y b (subst x a t) = subst x (subst y b a) (subst y b t)) ∧
    (∀ (t : Ty) (x : TyVar), ((∀ a, subst x a t = t) ↔ occurs x t = false) ∧
      occurs x t = t.contains (.var x)) ∧
    ∀ (t a : Ty) (x : TyVar), (subst x a t).freeVars =
      (t.freeVars.flatMap fun y => if y = x then a.freeVars else [y]).eraseDups := by
  refine ⟨fun t a b x y hne hb => ?_, fun t x => ⟨?_, ?_⟩, fun t a x => ?_⟩
  · exact subst_subst hne (occurs_eq_false_iff.mp hb) t
  · rw [occurs_eq_false_iff, subst_eq_self_iff]
  · rw [contains_var]
  · exact freeVars_subst x a t

/-- The first replacement holds both variables, and the type holds the first of them twice. -/
theorem subst_calculus_both : TyVar.mk 0 0 ≠ ⟨1, 0⟩ ∧ occurs ⟨0, 0⟩ (array number) = false ∧
    subst ⟨1, 0⟩ (array number)
        (subst ⟨0, 0⟩ (.fn [.var ⟨1, 0⟩] (.var ⟨0, 0⟩)) (.fn [.var ⟨0, 0⟩] (.var ⟨0, 0⟩))) =
      subst ⟨0, 0⟩ (subst ⟨1, 0⟩ (array number) (.fn [.var ⟨1, 0⟩] (.var ⟨0, 0⟩)))
        (subst ⟨1, 0⟩ (array number) (.fn [.var ⟨0, 0⟩] (.var ⟨0, 0⟩))) :=
  ⟨by decide, by decide, subst_calculus.1 _ _ _ _ _ (by decide) (by decide)⟩

end Ty

end TypedSexp
