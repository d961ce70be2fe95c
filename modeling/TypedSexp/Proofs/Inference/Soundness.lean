import TypedSexp.Proofs.Constraint.Unifier
import TypedSexp.Proofs.Inference.Assignment

/-!
# Inference is sound

The types that inference returns are a typing of the form it was given. The proof
follows the passes. Generating constraints keeps the form and only adds to what was
asked before (`Assigns.untyped_eq`, `Assigns.constraints_subset`). Under any substitution
that meets what was asked at the end, the types noted by the pass obey the rules
(`Assigns.typed`): what is asked of the elements of a vector and of a callee is just
what the rules for them need. Solving finds such a substitution.

No premise is needed on the variables of the scope. A variable of the scope that the
supply hands out a second time makes the typing less general, not wrong.

What is not said: that the typing is the most general one, that there is one if inference fails, and
what a typed form does when its script is run.
-/

namespace TypedSexp

namespace Inference

/-! ## What the pass keeps -/

/-- Giving parameters their variables changes nothing in them but their types. -/
theorem AssignsParams.untyped_eq {st st' : State} {ps ps' : List (Form Note)}
    {bs : List (String × Ty)} (h : AssignsParams st ps ps' bs st') :
    ps'.map Form.untyped = ps.map Form.untyped := by
  induction h with
  | nil => rfl
  | cons rest ih =>
    rw [List.map_cons, List.map_cons, ih]
    rfl

/-- Nothing is asked of parameters: what they stand for is found out in the body and in
applications. -/
theorem AssignsParams.constraints_eq {st st' : State} {ps ps' : List (Form Note)}
    {bs : List (String × Ty)} (h : AssignsParams st ps ps' bs st') :
    st'.constraints = st.constraints := by
  induction h with
  | nil => rfl
  | cons rest ih => exact ih

mutual

/-- The pass changes nothing in a form but its types. Names, literals, shape and places are kept, so
what was typed is the form that was given. -/
theorem Assigns.untyped_eq : ∀ {scope : Scope} {st st' : State} {e e' : Form Note} {t : Ty},
    Assigns scope st e e' t st' → e'.untyped = e.untyped
  | _, _, _, _, _, _, .symbol _ => rfl
  | _, _, _, _, _, _, .string => rfl
  | _, _, _, _, _, _, .number => rfl
  | _, _, _, _, _, _, .vector elements => by
    rw [Form.untyped_vector, Form.untyped_vector, elements.untyped_eq]
    rfl
  | _, _, _, _, _, _, .function params inner _ => by
    simp only [Form.untyped_list, List.map_cons, Form.untyped_vector, params.untyped_eq,
      inner.untyped_eq]
    rfl
  | _, _, _, _, _, _, .application _ _ callee arguments => by
    simp only [Form.untyped_list, List.map_cons, callee.untyped_eq, arguments.untyped_eq]
    rfl

theorem AssignsAll.untyped_eq : ∀ {scope : Scope} {st st' : State} {es es' : List (Form Note)}
    {ts : List Ty}, AssignsAll scope st es es' ts st' →
      es'.map Form.untyped = es.map Form.untyped
  | _, _, _, _, _, _, .nil => rfl
  | _, _, _, _, _, _, .cons first rest => by
    rw [List.map_cons, List.map_cons, first.untyped_eq, rest.untyped_eq]

theorem AssignsEach.untyped_eq : ∀ {scope : Scope} {element : Ty} {st st' : State}
    {es es' : List (Form Note)}, AssignsEach scope element st es es' st' →
      es'.map Form.untyped = es.map Form.untyped
  | _, _, _, _, _, _, .nil => rfl
  | _, _, _, _, _, _, .cons first rest => by
    rw [List.map_cons, List.map_cons, first.untyped_eq, rest.untyped_eq]

end

mutual

/-- The pass takes back nothing that was asked before. So a substitution that meets what is asked in
the end meets what each part asked. -/
theorem Assigns.constraints_subset : ∀ {scope : Scope} {st st' : State} {e e' : Form Note}
    {t : Ty}, Assigns scope st e e' t st' → st.constraints ⊆ st'.constraints
  | _, _, _, _, _, _, .symbol _ => fun _ hc => hc
  | _, _, _, _, _, _, .string => fun _ hc => hc
  | _, _, _, _, _, _, .number => fun _ hc => hc
  | _, _, _, _, _, _, .vector elements => elements.constraints_subset
  | _, _, _, _, _, _, .function params inner _ => fun _ hc =>
    inner.constraints_subset (params.constraints_eq ▸ hc)
  | _, _, _, _, _, _, .application _ _ callee arguments => fun _ hc =>
    List.mem_cons_of_mem _ (arguments.constraints_subset (callee.constraints_subset hc))

theorem AssignsAll.constraints_subset : ∀ {scope : Scope} {st st' : State}
    {es es' : List (Form Note)} {ts : List Ty}, AssignsAll scope st es es' ts st' →
      st.constraints ⊆ st'.constraints
  | _, _, _, _, _, _, .nil => fun _ hc => hc
  | _, _, _, _, _, _, .cons first rest => fun _ hc =>
    rest.constraints_subset (first.constraints_subset hc)

theorem AssignsEach.constraints_subset : ∀ {scope : Scope} {element : Ty} {st st' : State}
    {es es' : List (Form Note)}, AssignsEach scope element st es es' st' →
      st.constraints ⊆ st'.constraints
  | _, _, _, _, _, _, .nil => fun _ hc => hc
  | _, _, _, _, _, _, .cons first rest => fun _ hc =>
    rest.constraints_subset (List.mem_cons_of_mem _ (first.constraints_subset hc))

end

/-! ## What the pass notes is a typing -/

/-- The substitution makes both sides of everything that was asked equal. -/
def State.MetBy (st : State) (s : Substitution) : Prop :=
  ∀ c ∈ st.constraints, s.apply c.left = s.apply c.right

/-- Parameters that have their variables replaced are parameters with the types that the bindings
have then. -/
theorem AssignsParams.isParam {st st' : State} {ps ps' : List (Form Note)}
    {bs : List (String × Ty)} (h : AssignsParams st ps ps' bs st') (s : Substitution) :
    List.Forall₂ IsParam (Form.applyAll s ps') (bs.map (Prod.map id s.apply)) := by
  induction h with
  | nil => exact .nil
  | cons rest ih => exact .cons ⟨_, rfl, rfl⟩ ih

mutual

/-- The types noted in a form obey the rules, once a substitution meets what was asked. The
substitution need not come from the solver, and it need not be most general. -/
theorem Assigns.typed {s : Substitution} : ∀ {scope : Scope} {st st' : State}
    {e e' : Form Note} {t : Ty}, Assigns scope st e e' t st' → st'.MetBy s →
      Typed (scope.context.map s.apply) (e'.applySubstitution s) (s.apply t)
  | _, _, _, _, _, _, .symbol bound, _ =>
    .symbol rfl (by rw [Context.map, Scope.context, bound]; rfl)
  | _, _, _, _, _, _, .string, _ => by
    rw [Substitution.apply_string]
    exact .string (congrArg some s.apply_string)
  | _, _, _, _, _, _, .number, _ => by
    rw [Substitution.apply_number]
    exact .number (congrArg some s.apply_number)
  | _, _, _, _, _, _, .vector elements, met => by
    obtain ⟨ts, typed, same⟩ := elements.typed met
    rw [Form.applySubstitution, Substitution.apply_array]
    exact .vector (congrArg some (s.apply_array _)) typed same
  | _, _, _, _, _, _, @Assigns.function _ _ _ _ _ _ _ _ _ _ _ bs _ _ params inner last, met => by
    have htypes : (bs.map Prod.snd).map s.apply = (bs.map (Prod.map id s.apply)).map Prod.snd := by
      rw [List.map_map, List.map_map]
      rfl
    have hinner := inner.typed met
    rw [Scope.context_ofPairs, Context.map_bindAll] at hinner
    rw [Form.applySubstitution_function, Substitution.apply_fn, htypes]
    refine .function ?_ (params.isParam s) hinner ?_
    · rw [← htypes]
      exact congrArg some (s.apply_fn _ _)
    · rw [List.getLast?_map, last]
      rfl
  | _, _, _, _, _, _, .application plain target callee arguments, met => by
    -- The last thing asked is that the callee take the operands to the application's type.
    have asked := met _ List.mem_cons_self
    have earlier := fun c hc => met c (List.mem_cons_of_mem _ hc)
    have hcallee := callee.typed fun c hc => earlier c (arguments.constraints_subset hc)
    rw [asked, Substitution.apply_fn] at hcallee
    have hplain := (Form.isSymbol_congr callee.untyped_eq Form.fnName).trans plain
    have htarget := Form.hasTarget_congr
      ((Form.untyped_applySubstitution s _).trans callee.untyped_eq)
      ((Form.untyped_applyAll s _).trans arguments.untyped_eq) target
    rw [Form.applySubstitution_application hplain]
    exact .application rfl ((Form.isSymbol_applySubstitution _).trans hplain) htarget hcallee
      (arguments.typed earlier)

theorem AssignsAll.typed {s : Substitution} : ∀ {scope : Scope} {st st' : State}
    {es es' : List (Form Note)} {ts : List Ty}, AssignsAll scope st es es' ts st' → st'.MetBy s →
      TypedAll (scope.context.map s.apply) (Form.applyAll s es') (ts.map s.apply)
  | _, _, _, _, _, _, .nil, _ => .nil
  | _, _, _, _, _, _, .cons first rest, met =>
    .cons (first.typed fun c hc => met c (rest.constraints_subset hc)) (rest.typed met)

/-- The elements of a vector are typed under every substitution that meets what was asked. Their
types are one type, as each was asked to be the type of the elements. -/
theorem AssignsEach.typed {s : Substitution} : ∀ {scope : Scope} {element : Ty} {st st' : State}
    {es es' : List (Form Note)}, AssignsEach scope element st es es' st' → st'.MetBy s →
      ∃ ts, TypedAll (scope.context.map s.apply) (Form.applyAll s es') ts ∧
        ∀ u ∈ ts, u = s.apply element
  | _, _, _, _, _, _, .nil, _ => ⟨[], .nil, by simp⟩
  | _, _, _, _, _, _, .cons first rest, met => by
    obtain ⟨ts, typed, same⟩ := rest.typed met
    have before := fun c hc => met c (rest.constraints_subset hc)
    have hfirst := first.typed fun c hc => before c (List.mem_cons_of_mem _ hc)
    have asked := before _ List.mem_cons_self
    exact ⟨_ :: ts, .cons hfirst typed, List.forall_mem_cons.mpr ⟨asked.symm, same⟩⟩

end

/-! ## Whole runs -/

/-- A run gives types to the form it was given, and changes nothing else in it. Emission, places and
prints of the result are those of the form by this. -/
theorem untyped_of_run {scope : Scope} {form : Form Note} {next : Nat} {r : Inferred}
    (h : (run scope form next).1 = .ok r) : r.form.untyped = form.untyped := by
  obtain ⟨e, t, st, assigns, -, hform, -⟩ := exists_assigns_of_run h
  rw [hform, Form.untyped_applySubstitution, assigns.untyped_eq]

/-- **Inference is sound.** What a run returns is the given form with types that obey the
rules, in the context in which the solution has been applied to every binding of the scope;
the type of the whole is the one noted at its root. -/
theorem run_typed {scope : Scope} {form : Form Note} {next : Nat} {r : Inferred}
    (h : (run scope form next).1 = .ok r) :
    r.form.untyped = form.untyped ∧ r.form.note.type = some r.type ∧
      Typed (scope.context.map r.substitution.apply) r.form r.type := by
  obtain ⟨e, t, st, assigns, solved, hform, htype⟩ := exists_assigns_of_run h
  have met : st.MetBy r.substitution := by
    intro c hc
    have hsides := Solver.unifies_of_run solved c hc
    rwa [← Substitution.apply_eq_bind, ← Substitution.apply_eq_bind] at hsides
  have typed := assigns.typed met
  rw [← hform, ← htype] at typed
  exact ⟨untyped_of_run h, typed.note_type, typed⟩

/-- Two parameters of one name: the body sees the last of them. -/
theorem run_typed_repeated :
    ∃ r, (run [Frame.standard 0] (.list {} [.list {} [.symbol {} "fn",
        .vector {} [.symbol {} "x", .symbol {} "x"], .symbol {} "x"],
        .number {} (.int 1), .string {} "a"]) 3).1 = .ok r ∧
      r.type = .string ∧
      Typed (Scope.context [Frame.standard 0] |>.map r.substitution.apply) r.form .string := by
  have assigns : Assigns [Frame.standard 0] { next := 3 } (.list {} [.list {} [.symbol {} "fn",
      .vector {} [.symbol {} "x", .symbol {} "x"], .symbol {} "x"],
      .number {} (.int 1), .string {} "a"]) _ _ _ :=
    .application rfl nofun (.function (.cons (.cons .nil)) (.cons (.symbol rfl) .nil) rfl)
      (.cons .number (.cons .string .nil))
  have solved : Solver.run { pending := [⟨.fn [.var ⟨3, 0⟩, .var ⟨4, 0⟩] (.var ⟨4, 0⟩),
      .fn [.number, .string] (.var ⟨5, 0⟩), none⟩] } =
      .ok [(⟨4, 0⟩, .var ⟨5, 0⟩), (⟨5, 0⟩, .string), (⟨3, 0⟩, .number)] := by
    cbv
  have h := run_of_assigns assigns solved
  exact ⟨_, h, rfl, (run_typed h).2.2⟩

end Inference

end TypedSexp
