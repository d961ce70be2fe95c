import TypedSexp.Proofs.Inference.Soundness

/-!
# The supply of variables

A variable is issued when the supply does not hand it out any more: it was handed out
before, or it is of another kind than the variables of the supply. As long as the
variables of the scope are issued, so is every variable that the pass writes anywhere, into
types, notes and constraints (`Assigns.issued`), and each variable that it takes is new.

What a map does to variables that are not issued yet can still be changed without a
trace. `Agree` is what such a change keeps.
-/

namespace TypedSexp

/-- A supply that stands at `next` does not hand the variable out any more. -/
def TyVar.Issued (next : Nat) (x : TyVar) : Prop := x.mark = 0 → x.id < next

/-- All variables of the type are issued. -/
def Ty.Issued (next : Nat) (t : Ty) : Prop := ∀ x ∈ t.vars, x.Issued next

/-- All variables of the types that names stand for are issued. -/
def Context.Issued (next : Nat) (Γ : Context) : Prop :=
  ∀ name t, Γ name = some t → t.Issued next

/-- All variables of the types noted are issued. -/
def SlotsIssued (next : Nat) (slots : List (Option Ty)) : Prop :=
  ∀ t, some t ∈ slots → t.Issued next

/-- The second map does the same as the first one to all variables that are issued. -/
def Agree (next : Nat) (θ φ : TyVar → Ty) : Prop := ∀ x, x.Issued next → φ x = θ x

/-! ## Types -/

namespace Ty

variable {next next' : Nat}

/-- A type of issued variables stays one while the supply moves on. -/
theorem Issued.mono {t : Ty} (h : t.Issued next) (le : next ≤ next') : t.Issued next' :=
  fun x hx hmark => Nat.lt_of_lt_of_le (h x hx hmark) le

theorem issued_base (a : TyBase) : (base a).Issued next := by simp [Issued, vars]

theorem issued_var {x : TyVar} : (var x).Issued next ↔ x.Issued next := by simp [Issued, vars]

/-- A function type is of issued variables exactly if its parameters and its result are. -/
theorem issued_fn {ps : List Ty} {r : Ty} :
    (fn ps r).Issued next ↔ (∀ p ∈ ps, p.Issued next) ∧ r.Issued next := by
  simp only [Issued, vars, varsAll_eq_flatMap, List.mem_append, List.mem_flatMap]
  constructor
  · exact fun h => ⟨fun p hp x hx => h x (.inl ⟨p, hp, hx⟩), fun x hx => h x (.inr hx)⟩
  · rintro ⟨hps, hr⟩ x (⟨p, hp, hx⟩ | hx)
    · exact hps p hp x hx
    · exact hr x hx

/-- An array type is of issued variables exactly if its element type is. -/
theorem issued_array {t : Ty} : (array t).Issued next ↔ t.Issued next := by
  simp [Issued, array, arrayConstructor, vars]

/-- Maps that agree on what is issued do the same to a type of issued variables. What they do to
variables that are still to come does not matter. -/
theorem Issued.bind_eq {θ φ : TyVar → Ty} {t : Ty} (h : t.Issued next) (agree : Agree next θ φ) :
    t.bind φ = t.bind θ :=
  bind_congr fun x hx => agree x (h x hx)

theorem map_bind_eq_of_issued {θ φ : TyVar → Ty} {ts : List Ty} (h : ∀ t ∈ ts, t.Issued next)
    (agree : Agree next θ φ) : ts.map (bind φ) = ts.map (bind θ) :=
  List.map_congr_left fun t ht => (h t ht).bind_eq agree

end Ty

/-! ## Contexts and notes -/

namespace Context

variable {next next' : Nat} {Γ : Context}

/-- A context of issued variables stays one while the supply moves on. -/
theorem Issued.mono (h : Γ.Issued next) (le : next ≤ next') : Γ.Issued next' :=
  fun name t ht => (h name t ht).mono le

/-- Binding parameters to types of issued variables keeps a context one of issued variables. This is
what a function definition needs for its body. -/
theorem Issued.bindAll {bs : List (String × Ty)} (h : Γ.Issued next)
    (hbs : ∀ b ∈ bs, b.2.Issued next) : (Γ.bindAll bs).Issued next := by
  induction bs generalizing Γ with
  | nil => exact h
  | cons b bs ih =>
    rw [bindAll_cons]
    refine ih (fun name t ht => ?_) fun b hb => hbs b (List.mem_cons_of_mem _ hb)
    by_cases hname : name = b.1
    · subst hname
      rw [Function.update_self, Option.some.injEq] at ht
      exact ht ▸ hbs b List.mem_cons_self
    · rw [Function.update_of_ne hname] at ht
      exact h name t ht

/-- Maps that agree on what is issued do the same to a context of issued variables. -/
theorem Issued.map_eq {θ φ : TyVar → Ty} (h : Γ.Issued next) (agree : Agree next θ φ) :
    Γ.map (Ty.bind φ) = Γ.map (Ty.bind θ) := by
  funext name
  cases ht : Γ name with
  | none => rw [map, map, ht, Option.map_none, Option.map_none]
  | some t => rw [map, map, ht, Option.map_some, Option.map_some, (h name t ht).bind_eq agree]

end Context

/-- The variables of the standard frame are those that it takes from the supply. It is the only
frame that is not made of types that were there before. -/
theorem Frame.issued_standard (next : Nat) :
    ∀ b ∈ (Frame.standard next).bindings, b.2.Issued (next + Frame.standardVars) := by
  simp [Frame.standard, Frame.standardVars, Ty.issued_fn, Ty.issued_array, Ty.issued_var,
    TyVar.Issued, Ty.number, Ty.string, Ty.issued_base]

namespace Scope

/-- A scope is issued when each of its bindings is, also of those that are hidden by others. -/
theorem issued_of_bindings {scope : Scope} {next : Nat}
    (h : ∀ f ∈ scope, ∀ b ∈ f.bindings, b.2.Issued next) : scope.context.Issued next := by
  intro name t ht
  obtain ⟨f, hf, hget⟩ := List.exists_of_findSome?_eq_some ht
  obtain ⟨b, hb, rfl⟩ := Option.map_eq_some_iff.mp hget
  exact h f hf b (List.mem_of_find?_eq_some hb)

/-- The scope of the standard frame alone is issued once the supply has moved past it. Inference
over a single form starts here. -/
theorem issued_standard (next : Nat) :
    (context [Frame.standard next]).Issued (next + Frame.standardVars) :=
  issued_of_bindings (List.forall_mem_singleton.mpr (Frame.issued_standard next))

end Scope

namespace SlotsIssued

variable {next next' : Nat} {slots : List (Option Ty)}

/-- Types that are noted stay of issued variables while the supply moves on. -/
theorem mono (h : SlotsIssued next slots) (le : next ≤ next') : SlotsIssued next' slots :=
  fun t ht => (h t ht).mono le

theorem nil : SlotsIssued next [] := by simp [SlotsIssued]

theorem cons {t : Ty} (ht : t.Issued next) (h : SlotsIssued next slots) :
    SlotsIssued next (some t :: slots) := by
  intro u hu
  rcases List.mem_cons.mp hu with hu | hu
  · exact Option.some.inj hu ▸ ht
  · exact h u hu

/-- Types noted in two parts of a form are of issued variables if those of each part are. -/
theorem append {more : List (Option Ty)} (h : SlotsIssued next slots)
    (hmore : SlotsIssued next more) : SlotsIssued next (slots ++ more) :=
  fun t ht => (List.mem_append.mp ht).elim (h t) (hmore t)

/-- Maps that agree on what is issued do the same to the types noted. -/
theorem map_eq {θ φ : TyVar → Ty} (h : SlotsIssued next slots) (agree : Agree next θ φ) :
    slots.map (Option.map (Ty.bind φ)) = slots.map (Option.map (Ty.bind θ)) := by
  refine List.map_congr_left fun slot hslot => ?_
  cases slot with
  | none => rfl
  | some t => exact congrArg some ((h t hslot).bind_eq agree)

end SlotsIssued

/-! ## Maps -/

namespace Agree

variable {next next' : Nat} {θ φ ψ : TyVar → Ty}

theorem refl (next : Nat) (θ : TyVar → Ty) : Agree next θ θ := fun _ _ => rfl

/-- Two changes in turn, of which the second comes later. The map that is followed through a pass
grows in this way. -/
theorem trans (h₁ : Agree next θ φ) (le : next ≤ next') (h₂ : Agree next' φ ψ) :
    Agree next θ ψ :=
  fun x hx => (h₂ x fun hmark => Nat.lt_of_lt_of_le (hx hmark) le).trans (h₁ x hx)

end Agree

namespace Inference

/-! ## States -/

/-- All variables of what was asked so far are issued. -/
def State.Issued (st : State) : Prop :=
  ∀ c ∈ st.constraints, c.left.Issued st.next ∧ c.right.Issued st.next

namespace State

variable {st : State}

/-- The next variable is issued as soon as the supply has moved on, and never before. -/
theorem issued_fresh {next : Nat} (h : st.next < next) : (Ty.var st.fresh).Issued next :=
  Ty.issued_var.mpr fun _ => h

theorem issued_fresh_advance (st : State) : (Ty.var st.fresh).Issued st.advance.next :=
  issued_fresh (Nat.lt_succ_self _)

/-- A map can still be changed at the next variable without changing what it does to what is
issued. -/
theorem agree_update (st : State) (θ : TyVar → Ty) (t : Ty) :
    Agree st.next θ (Function.update θ st.fresh t) := by
  intro x hx
  refine Function.update_of_ne ?_ _ _
  rintro rfl
  exact Nat.lt_irrefl _ (hx rfl)

/-- What the next variable was changed to stand for, it keeps standing for. -/
theorem apply_fresh_of_agree {θ φ : TyVar → Ty} {t : Ty}
    (agree : Agree st.advance.next (Function.update θ st.fresh t) φ) : φ st.fresh = t := by
  have hfresh : st.fresh.Issued st.advance.next := fun _ => Nat.lt_succ_self _
  rw [agree st.fresh hfresh, Function.update_self]

/-- Taking a variable from the supply keeps all that was asked of issued variables. -/
theorem Issued.advance (h : st.Issued) : st.advance.Issued := fun c hc =>
  ⟨(h c hc).1.mono (Nat.le_succ _), (h c hc).2.mono (Nat.le_succ _)⟩

/-- A constraint between types of issued variables may be asked. -/
theorem Issued.record {c : Constraint} (h : st.Issued) (left : c.left.Issued st.next)
    (right : c.right.Issued st.next) : (st.record c).Issued :=
  List.forall_mem_cons.mpr ⟨⟨left, right⟩, h⟩

/-- A map that meets what was asked can be changed where nothing is issued yet and still meets
it. -/
theorem Issued.unifies {θ φ : TyVar → Ty} (h : st.Issued) (agree : Agree st.next θ φ)
    (met : Constraint.Unifies θ st.constraints) : Constraint.Unifies φ st.constraints := by
  intro c hc
  rw [(h c hc).1.bind_eq agree, (h c hc).2.bind_eq agree]
  exact met c hc

end State

/-! ## Passes -/

theorem AssignsParams.next_le {st st' : State} {ps ps' : List (Form Note)}
    {bs : List (String × Ty)} (h : AssignsParams st ps ps' bs st') : st.next ≤ st'.next := by
  induction h with
  | nil => exact Nat.le_refl _
  | cons rest ih => exact Nat.le_of_succ_le ih

mutual

/-- The pass only moves the supply on. By how much is not said here. -/
theorem Assigns.next_le : ∀ {scope : Scope} {st st' : State} {e e' : Form Note} {t : Ty},
    Assigns scope st e e' t st' → st.next ≤ st'.next
  | _, _, _, _, _, _, .symbol _ => Nat.le_refl _
  | _, _, _, _, _, _, .string => Nat.le_refl _
  | _, _, _, _, _, _, .number => Nat.le_refl _
  | _, _, _, _, _, _, .vector elements => Nat.le_of_succ_le elements.next_le
  | _, _, _, _, _, _, .function params inner _ => Nat.le_trans params.next_le inner.next_le
  | _, _, _, _, _, _, .application _ _ callee arguments =>
    Nat.le_succ_of_le (Nat.le_trans callee.next_le arguments.next_le)

theorem AssignsAll.next_le : ∀ {scope : Scope} {st st' : State} {es es' : List (Form Note)}
    {ts : List Ty}, AssignsAll scope st es es' ts st' → st.next ≤ st'.next
  | _, _, _, _, _, _, .nil => Nat.le_refl _
  | _, _, _, _, _, _, .cons first rest => Nat.le_trans first.next_le rest.next_le

theorem AssignsEach.next_le : ∀ {scope : Scope} {element : Ty} {st st' : State}
    {es es' : List (Form Note)}, AssignsEach scope element st es es' st' → st.next ≤ st'.next
  | _, _, _, _, _, _, .nil => Nat.le_refl _
  | _, _, _, _, _, _, .cons first rest =>
    have hrest := rest.next_le
    Nat.le_trans first.next_le hrest

end

/-- The types of parameters are variables that were just issued, in the bindings as well as in the
notes. -/
theorem AssignsParams.issued {st st' : State} {ps ps' : List (Form Note)}
    {bs : List (String × Ty)} (h : AssignsParams st ps ps' bs st') (hst : st.Issued) :
    st'.Issued ∧ (∀ b ∈ bs, b.2.Issued st'.next) ∧ SlotsIssued st'.next (Form.slotsAll ps') := by
  induction h with
  | nil => exact ⟨hst, by simp, .nil⟩
  | cons rest ih =>
    obtain ⟨hst', hbs, hslots⟩ := ih hst.advance
    have hfresh := State.issued_fresh rest.next_le
    exact ⟨hst', List.forall_mem_cons.mpr ⟨hfresh, hbs⟩, .cons hfresh hslots⟩

mutual

/-- In a scope of issued variables, all that the pass gives is of issued variables: what is
asked, the type of the form and the types noted in it. -/
theorem Assigns.issued : ∀ {scope : Scope} {st st' : State} {e e' : Form Note} {t : Ty},
    Assigns scope st e e' t st' → scope.context.Issued st.next → st.Issued →
      st'.Issued ∧ t.Issued st'.next ∧ SlotsIssued st'.next e'.slots
  | _, _, _, _, _, _, .symbol bound, hscope, hst =>
    have ht := hscope _ _ bound
    ⟨hst, ht, .cons ht .nil⟩
  | _, _, _, _, _, _, .string, _, hst =>
    ⟨hst, Ty.issued_base _, .cons (Ty.issued_base _) .nil⟩
  | _, _, _, _, _, _, .number, _, hst =>
    ⟨hst, Ty.issued_base _, .cons (Ty.issued_base _) .nil⟩
  | _, _, _, _, _, _, .vector elements, hscope, hst => by
    obtain ⟨hst', hslots⟩ := elements.issued (hscope.mono (Nat.le_succ _))
      (State.issued_fresh_advance _) hst.advance
    have ht := Ty.issued_array.mpr (State.issued_fresh elements.next_le)
    exact ⟨hst', ht, .cons ht hslots⟩
  | _, _, _, _, _, _, .function params inner last, hscope, hst => by
    obtain ⟨hst₁, hbs, hps⟩ := params.issued hst
    have hinner := (hscope.mono params.next_le).bindAll hbs
    rw [← Scope.context_ofPairs] at hinner
    obtain ⟨hst₂, hts, hbody⟩ := inner.issued hinner hst₁
    have ht := Ty.issued_fn.mpr ⟨List.forall_mem_map.mpr fun b hb => (hbs b hb).mono inner.next_le,
      hts _ (List.mem_of_getLast? last)⟩
    rw [Form.slots_function]
    exact ⟨hst₂, ht, .cons ht ((hps.mono inner.next_le).append hbody)⟩
  | _, _, _, _, _, _, @Assigns.application _ _ _ st₂ _ _ _ _ _ _ _ plain _ callee arguments,
      hscope, hst => by
    obtain ⟨hst₁, ht, hhead⟩ := callee.issued hscope hst
    obtain ⟨hst₂, hts, hoperands⟩ := arguments.issued (hscope.mono callee.next_le) hst₁
    have later := Nat.le_succ_of_le arguments.next_le
    have hfresh := st₂.issued_fresh_advance
    have hcall := Ty.issued_fn.mpr ⟨fun u hu => (hts u hu).mono (Nat.le_succ _), hfresh⟩
    rw [Form.slots_application ((Form.isSymbol_congr callee.untyped_eq _).trans plain)]
    exact ⟨hst₂.advance.record (ht.mono later) hcall, hfresh,
      .cons hfresh ((hhead.mono later).append (hoperands.mono (Nat.le_succ _)))⟩

theorem AssignsAll.issued : ∀ {scope : Scope} {st st' : State} {es es' : List (Form Note)}
    {ts : List Ty}, AssignsAll scope st es es' ts st' → scope.context.Issued st.next →
      st.Issued → st'.Issued ∧ (∀ t ∈ ts, t.Issued st'.next) ∧
        SlotsIssued st'.next (Form.slotsAll es')
  | _, _, _, _, _, _, .nil, _, hst => ⟨hst, by simp, .nil⟩
  | _, _, _, _, _, _, .cons first rest, hscope, hst => by
    obtain ⟨hst₁, ht, hslots⟩ := first.issued hscope hst
    obtain ⟨hst₂, hts, hrest⟩ := rest.issued (hscope.mono first.next_le) hst₁
    exact ⟨hst₂, List.forall_mem_cons.mpr ⟨ht.mono rest.next_le, hts⟩,
      (hslots.mono rest.next_le).append hrest⟩

/-- The pass over the elements of a vector writes issued variables only, if the type of the elements
is one of issued variables. -/
theorem AssignsEach.issued : ∀ {scope : Scope} {element : Ty} {st st' : State}
    {es es' : List (Form Note)}, AssignsEach scope element st es es' st' →
      scope.context.Issued st.next → element.Issued st.next → st.Issued →
        st'.Issued ∧ SlotsIssued st'.next (Form.slotsAll es')
  | _, _, _, _, _, _, .nil, _, _, hst => ⟨hst, .nil⟩
  | _, _, _, _, _, _, .cons first rest, hscope, helement, hst => by
    obtain ⟨hst₁, ht, hslots⟩ := first.issued hscope hst
    have helement₁ := helement.mono first.next_le
    obtain ⟨hst₂, hrest⟩ := rest.issued (hscope.mono first.next_le) helement₁
      (hst₁.record helement₁ ht)
    exact ⟨hst₂, (hslots.mono rest.next_le).append hrest⟩

end

end Inference

end TypedSexp
