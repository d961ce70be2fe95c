import TypedSexp.Proofs.Inference.Supply

/-!
# Inference is complete and finds the most general typing

Whatever typing a form has, inference succeeds on it, and the types that it notes have
the given ones as instances, under one map for the whole form.

The proof follows the given derivation through the pass (`Typed.followed`). At each point
there is a map that takes the scope to the context of the derivation and meets what was
asked so far (`Meets`). A variable taken from the supply was not issued before, so the
map can be changed to send it to the type that the derivation has in its place
(`Meets.take`), and what is asked there is then met because the derivation obeys the
rules. At the end the map is a unifier of all that was asked. Solving succeeds where there
is a unifier, and applying the solution is lost on every unifier, so the same map takes the
solved types to those of the derivation.

The typings meant are those of `Typed`, in which a name has one type wherever it is used. A form
that needs two types for one name has none here and is refused. The depth to which a form is nested
is not limited, though a machine may set a limit.
-/

namespace TypedSexp

namespace Inference

open Constraint (Unifies)

/-- The map takes the scope to the context and meets what was asked so far, and all
variables in sight are issued. -/
structure Meets (Γ : Context) (θ : TyVar → Ty) (scope : Scope) (st : State) : Prop where
  context : scope.context.map (Ty.bind θ) = Γ
  scope : scope.context.Issued st.next
  state : st.Issued
  met : Unifies θ st.constraints

namespace Meets

variable {Γ : Context} {θ φ : TyVar → Ty} {scope : Scope} {st st' : State}

/-- A later state is met by a map that was only changed where nothing was issued. Scope and context
need not be looked at again then. -/
theorem later (h : Meets Γ θ scope st) (agree : Agree st.next θ φ) (le : st.next ≤ st'.next)
    (state : st'.Issued) (met : Unifies φ st'.constraints) : Meets Γ φ scope st' where
  context := (h.scope.map_eq agree).trans h.context
  scope := h.scope.mono le
  state := state
  met := met

/-- The next variable of the supply can stand for any type, as nothing that was issued holds it.
This is where a derivation's choice of types enters the map. -/
theorem take (h : Meets Γ θ scope st) (t : Ty) :
    Meets Γ (Function.update θ st.fresh t) scope st.advance :=
  have agree := st.agree_update θ t
  h.later agree (Nat.le_succ _) h.state.advance (h.state.unifies agree h.met)

/-- What is asked may be what already holds: recording such a constraint leaves the map a
unifier. -/
theorem record (h : Meets Γ θ scope st) {t u : Ty} (left : t.Issued st.next)
    (right : u.Issued st.next) (sides : t.bind θ = u.bind θ) (origin : Option Span) :
    Meets Γ θ scope (st.record ⟨t, u, origin⟩) :=
  h.later (.refl _ _) (Nat.le_refl _) (h.state.record left right)
    (Constraint.unifies_cons.mpr ⟨sides, h.met⟩)

/-- Binding parameters extends scope and context alike. Repeated names are resolved in the same way
on both sides. -/
theorem bindAll (h : Meets Γ θ scope st) {bs : List (String × Ty)}
    (issued : ∀ b ∈ bs, b.2.Issued st.next) :
    Meets (Γ.bindAll (bs.map (Prod.map id (Ty.bind θ)))) θ
      ({ bindings := Entries.ofPairs bs } :: scope) st where
  context := by rw [Scope.context_ofPairs, Context.map_bindAll, h.context]
  scope := by
    rw [Scope.context_ofPairs]
    exact h.scope.bindAll issued
  state := h.state
  met := h.met

end Meets

/-! ## Following a derivation -/

/-- Parameters are given fresh variables, which the map sends to the types that the derivation gives
the parameters. -/
theorem params_followed {Γ : Context} {scope : Scope} {ds : List (Form Note)}
    {bs : List (String × Ty)} (h : List.Forall₂ IsParam ds bs) :
    ∀ {θ : TyVar → Ty} {st : State} {ps : List (Form Note)}, Meets Γ θ scope st →
      ps.map Form.untyped = ds.map Form.untyped →
      ∃ ps' cs st' φ, AssignsParams st ps ps' cs st' ∧ Agree st.next θ φ ∧ Meets Γ φ scope st' ∧
        cs.map (Prod.map id (Ty.bind φ)) = bs ∧
        (Form.slotsAll ps').map (Option.map (Ty.bind φ)) = Form.slotsAll ds := by
  induction h with
  | nil =>
    intro θ st ps meets same
    rw [List.map_nil, List.map_eq_nil_iff] at same
    subst same
    exact ⟨[], [], st, θ, .nil, .refl _ _, meets, rfl, rfl⟩
  | @cons d b ds bs hd _ ih =>
    intro θ st ps meets same
    obtain ⟨m, rfl, noted⟩ := hd
    obtain ⟨p, ps, rfl, hp, hps⟩ := List.map_eq_cons_iff.mp same
    obtain ⟨n, rfl, -⟩ := Form.untyped_eq_symbol_iff.mp hp
    obtain ⟨ps', cs, st', φ, assigns, agree, meets', hcs, hslots⟩ := ih (meets.take b.2) hps
    have hfresh : φ st.fresh = b.2 := State.apply_fresh_of_agree agree
    refine ⟨_, _, st', φ, .cons assigns, (st.agree_update _ _).trans (Nat.le_succ _) agree, meets',
      ?_, ?_⟩
    · rw [List.map_cons, hcs, Prod.map_apply, Ty.bind, hfresh]
      rfl
    · rw [Form.slotsAll, Form.slotsAll, List.map_append, hslots, Form.slots, Form.slots, noted,
        List.map_singleton, Note.withType, Option.map_some, Ty.bind, hfresh]

end Inference

open Inference

mutual

/-- The pass can follow a derivation, and then the types that it notes have those of the
derivation as instances. -/
theorem Typed.followed : ∀ {Γ : Context} {d : Form Note} {τ : Ty}, Typed Γ d τ →
    ∀ {θ : TyVar → Ty} {scope : Scope} {st : State} {e : Form Note}, Meets Γ θ scope st →
      e.untyped = d.untyped →
      ∃ e' t st' φ, Assigns scope st e e' t st' ∧ Agree st.next θ φ ∧ Meets Γ φ scope st' ∧
        t.bind φ = τ ∧ e'.slots.map (Option.map (Ty.bind φ)) = d.slots
  | _, _, _, .symbol noted bound, θ, scope, st, _, meets, same => by
    obtain ⟨n, rfl, -⟩ := Form.untyped_eq_symbol_iff.mp same
    rw [← meets.context] at bound
    obtain ⟨t, hlookup, rfl⟩ := Option.map_eq_some_iff.mp bound
    refine ⟨_, t, st, θ, .symbol hlookup, .refl _ _, meets, rfl, ?_⟩
    rw [Form.slots, Form.slots, noted]
    rfl
  | _, _, _, .string noted, θ, scope, st, _, meets, same => by
    obtain ⟨n, rfl, -⟩ := Form.untyped_eq_string_iff.mp same
    refine ⟨_, _, st, θ, .string, .refl _ _, meets, rfl, ?_⟩
    rw [Form.slots, Form.slots, noted]
    rfl
  | _, _, _, .number noted, θ, scope, st, _, meets, same => by
    obtain ⟨n, rfl, -⟩ := Form.untyped_eq_number_iff.mp same
    refine ⟨_, _, st, θ, .number, .refl _ _, meets, rfl, ?_⟩
    rw [Form.slots, Form.slots, noted]
    rfl
  | _, _, _, @Typed.vector _ _ _ _ τ noted elements hsame, θ, scope, st, _, meets, same => by
    rw [Form.untyped_vector] at same
    obtain ⟨n, es, rfl, -, hes⟩ := Form.untyped_eq_vector_iff.mp same
    -- The variable for the elements stands for the type that they have.
    obtain ⟨es', st', φ, assigns, agree, meets', hslots⟩ := elements.followedEach hsame
      (meets.take τ) st.issued_fresh_advance (Function.update_self _ _ _) hes
    have hfresh : (Ty.array (.var st.fresh)).bind φ = .array τ :=
      congrArg Ty.array (State.apply_fresh_of_agree agree)
    refine ⟨_, _, st', φ, .vector assigns, (st.agree_update _ _).trans (Nat.le_succ _) agree,
      meets', hfresh, ?_⟩
    rw [Form.slots, Form.slots, List.map_cons, hslots, noted, Note.withType, Option.map_some,
      hfresh]
  | _, _, _, @Typed.function _ _ _ _ _ _ bs _ τ noted params inner last, θ, scope, st, _, meets,
      same => by
    simp only [Form.untyped_list, List.map_cons, Form.untyped_vector] at same
    obtain ⟨n, _, rfl, -, hes⟩ := Form.untyped_eq_list_iff.mp same
    obtain ⟨_, _, rfl, hhead, hes⟩ := List.map_eq_cons_iff.mp hes
    obtain ⟨_, body, rfl, hps, hbody⟩ := List.map_eq_cons_iff.mp hes
    obtain ⟨head, rfl, -⟩ := Form.untyped_eq_symbol_iff.mp hhead
    obtain ⟨m, ps, rfl, -, hps⟩ := Form.untyped_eq_vector_iff.mp hps
    obtain ⟨ps', cs, st₁, φ₁, assigns₁, agree₁, meets₁, rfl, hslots₁⟩ :=
      params_followed params meets hps
    obtain ⟨-, hcs, hissued₁⟩ := assigns₁.issued meets.state
    obtain ⟨body', ts, st₂, φ₂, assigns₂, agree₂, meets₂, rfl, hslots₂⟩ :=
      inner.followed (meets₁.bindAll hcs) hbody
    rw [List.getLast?_map] at last
    obtain ⟨t, hlast, rfl⟩ := Option.map_eq_some_iff.mp last
    have htype : (Ty.fn (cs.map Prod.snd) t).bind φ₂ =
        .fn ((cs.map (Prod.map id (Ty.bind φ₁))).map Prod.snd) (t.bind φ₂) := by
      rw [Ty.bind, Ty.bindAll_eq_map, Ty.map_bind_eq_of_issued (List.forall_mem_map.mpr hcs) agree₂,
        List.map_map, List.map_map]
      rfl
    refine ⟨_, _, st₂, φ₂, .function assigns₁ assigns₂ hlast,
      agree₁.trans assigns₁.next_le agree₂,
      meets₁.later agree₂ assigns₂.next_le meets₂.state meets₂.met, htype, ?_⟩
    rw [Form.slots_function, Form.slots_function, List.map_cons, List.map_append, hslots₂,
      hissued₁.map_eq agree₂, hslots₁, noted, Note.withType, Option.map_some, htype]
  | _, _, _, @Typed.application _ _ _ _ τs τ noted plain target callee arguments, θ, scope, st, _,
      meets, same => by
    simp only [Form.untyped_list, List.map_cons] at same
    obtain ⟨n, _, rfl, -, hes⟩ := Form.untyped_eq_list_iff.mp same
    obtain ⟨head, operands, rfl, hhead, hoperands⟩ := List.map_eq_cons_iff.mp hes
    obtain ⟨head', t, st₁, φ₁, assigns₁, agree₁, meets₁, ht, hslots₁⟩ :=
      callee.followed meets hhead
    obtain ⟨operands', ts, st₂, φ₂, assigns₂, agree₂, meets₂, hts, hslots₂⟩ :=
      arguments.followed meets₁ hoperands
    obtain ⟨-, tissued, hissued₁⟩ := assigns₁.issued meets.scope meets.state
    obtain ⟨-, tsissued, hissued₂⟩ := assigns₂.issued meets₁.scope meets₁.state
    -- The variable for the result stands for the type that the derivation has there.
    have agree₃ := st₂.agree_update φ₂ τ
    have agree₂₃ := agree₂.trans assigns₂.next_le agree₃
    have call : (Ty.fn ts (.var st₂.fresh)).Issued st₂.advance.next :=
      Ty.issued_fn.mpr ⟨fun u hu => (tsissued u hu).mono (Nat.le_succ _),
        st₂.issued_fresh_advance⟩
    have sides : t.bind (Function.update φ₂ st₂.fresh τ) =
        (Ty.fn ts (.var st₂.fresh)).bind (Function.update φ₂ st₂.fresh τ) := by
      rw [tissued.bind_eq agree₂₃, ht, Ty.bind, Ty.bindAll_eq_map,
        Ty.map_bind_eq_of_issued tsissued agree₃, hts, Ty.bind, Function.update_self]
    have meets₃ := (meets₂.take τ).record
      (tissued.mono (Nat.le_succ_of_le assigns₂.next_le)) call sides n.span
    have hplain := (Form.isSymbol_congr hhead _).trans plain
    refine ⟨_, _, _, _, .application hplain (Form.hasTarget_congr hhead hoperands target) assigns₁
      assigns₂, agree₁.trans assigns₁.next_le agree₂₃, meets₃, Function.update_self _ _ _, ?_⟩
    rw [Form.slots_application ((Form.isSymbol_congr assigns₁.untyped_eq _).trans hplain),
      Form.slots_application plain, List.map_cons, List.map_append, hissued₁.map_eq agree₂₃,
      hslots₁, hissued₂.map_eq agree₃, hslots₂, noted, Note.withType, Option.map_some, Ty.bind,
      Function.update_self]

/-- The same for forms that are typed one after the other. The map grows along the list, and what it
did to earlier forms is kept. -/
theorem TypedAll.followed : ∀ {Γ : Context} {ds : List (Form Note)} {τs : List Ty},
    TypedAll Γ ds τs → ∀ {θ : TyVar → Ty} {scope : Scope} {st : State} {es : List (Form Note)},
      Meets Γ θ scope st → es.map Form.untyped = ds.map Form.untyped →
      ∃ es' ts st' φ, AssignsAll scope st es es' ts st' ∧ Agree st.next θ φ ∧
        Meets Γ φ scope st' ∧ ts.map (Ty.bind φ) = τs ∧
        (Form.slotsAll es').map (Option.map (Ty.bind φ)) = Form.slotsAll ds
  | _, _, _, .nil, θ, scope, st, es, meets, same => by
    rw [List.map_nil, List.map_eq_nil_iff] at same
    subst same
    exact ⟨[], [], st, θ, .nil, .refl _ _, meets, rfl, rfl⟩
  | _, _, _, .cons first rest, θ, scope, st, _, meets, same => by
    obtain ⟨e, es, rfl, he, hes⟩ := List.map_eq_cons_iff.mp same
    obtain ⟨e', t, st₁, φ₁, assigns₁, agree₁, meets₁, rfl, hslots₁⟩ := first.followed meets he
    obtain ⟨es', ts, st₂, φ₂, assigns₂, agree₂, meets₂, rfl, hslots₂⟩ := rest.followed meets₁ hes
    obtain ⟨-, tissued, hissued₁⟩ := assigns₁.issued meets.scope meets.state
    refine ⟨_, _, st₂, φ₂, .cons assigns₁ assigns₂, agree₁.trans assigns₁.next_le agree₂, meets₂,
      ?_, ?_⟩
    · rw [List.map_cons, tissued.bind_eq agree₂]
    · rw [Form.slotsAll, Form.slotsAll, List.map_append, hissued₁.map_eq agree₂, hslots₁, hslots₂]

/-- The same for the elements of a vector, which all have the type that the map sends the element
type to. -/
theorem TypedAll.followedEach : ∀ {Γ : Context} {ds : List (Form Note)}
    {τs : List Ty}, TypedAll Γ ds τs → ∀ {τ : Ty}, (∀ u ∈ τs, u = τ) →
    ∀ {θ : TyVar → Ty} {scope : Scope} {st : State} {es : List (Form Note)} {element : Ty},
      Meets Γ θ scope st → element.Issued st.next → element.bind θ = τ →
      es.map Form.untyped = ds.map Form.untyped →
      ∃ es' st' φ, AssignsEach scope element st es es' st' ∧ Agree st.next θ φ ∧
        Meets Γ φ scope st' ∧ (Form.slotsAll es').map (Option.map (Ty.bind φ)) = Form.slotsAll ds
  | _, _, _, .nil, _, _, θ, scope, st, es, _, meets, _, _, same => by
    rw [List.map_nil, List.map_eq_nil_iff] at same
    subst same
    exact ⟨[], st, θ, .nil, .refl _ _, meets, rfl⟩
  | _, _, _, .cons first rest, τ, hsame, θ, scope, st, _, element, meets, issued, helement,
      same => by
    obtain ⟨e, es, rfl, he, hes⟩ := List.map_eq_cons_iff.mp same
    rw [List.forall_mem_cons] at hsame
    obtain ⟨e', t, st₁, φ₁, assigns₁, agree₁, meets₁, ht, hslots₁⟩ := first.followed meets he
    obtain ⟨-, tissued, hissued₁⟩ := assigns₁.issued meets.scope meets.state
    have issued₁ := issued.mono assigns₁.next_le
    have helement₁ : element.bind φ₁ = τ := (issued.bind_eq agree₁).trans helement
    obtain ⟨es', st₂, φ₂, assigns₂, agree₂, meets₂, hslots₂⟩ := rest.followedEach hsame.2
      (meets₁.record issued₁ tissued (helement₁.trans (ht.trans hsame.1).symm) e.note.span)
      issued₁ helement₁ hes
    refine ⟨_, st₂, φ₂, .cons assigns₁ assigns₂, agree₁.trans assigns₁.next_le agree₂, meets₂, ?_⟩
    rw [Form.slotsAll, Form.slotsAll, List.map_append, hissued₁.map_eq agree₂, hslots₁, hslots₂]

end

/-! ## Whole runs -/

namespace Inference

/-- **Inference is complete, and what it finds is most general.** Let the variables of the
scope be issued, and let a form have a typing in the context in which some map has been
applied to every binding of the scope. Then inference succeeds on the form, and one map,
which does the same to the variables of the scope, takes the type of the whole and each
type noted to the one that the typing has in its place. -/
theorem run_principal {scope : Scope} (form : Form Note) {d : Form Note} {next : Nat}
    {θ : TyVar → Ty} {τ : Ty} (issued : scope.context.Issued next)
    (typed : Typed (scope.context.map (Ty.bind θ)) d τ) (same : d.untyped = form.untyped) :
    ∃ r, (run scope form next).1 = .ok r ∧ r.form.untyped = d.untyped ∧
      ∃ ρ, Agree next θ ρ ∧ r.type.bind ρ = τ ∧
        r.form.slots.map (Option.map (Ty.bind ρ)) = d.slots := by
  have start : Meets (scope.context.map (Ty.bind θ)) θ scope { next } :=
    ⟨rfl, issued, nofun, Constraint.unifies_nil⟩
  obtain ⟨e, t, st, φ, assigns, agree, meets, htype, hslots⟩ := typed.followed start same.symm
  obtain ⟨s, solved⟩ := Solver.exists_run_of_unifies meets.met
  have absorbed := Solver.bind_apply_of_run solved meets.met
  refine ⟨_, run_of_assigns assigns solved, ?_, φ, agree, (absorbed t).trans htype, ?_⟩
  · rw [Form.untyped_applySubstitution, assigns.untyped_eq, same]
  · rw [Form.slots_applySubstitution, List.map_map, ← hslots]
    refine List.map_congr_left fun slot _ => ?_
    cases slot with
    | none => rfl
    | some u => exact congrArg some (absorbed u)

/-- A function over the standard scope that maps its argument over an empty vector. It has a
typing in which the argument takes numbers to strings. -/
theorem run_principal_map :
    ∃ r, (run [Frame.standard 0] (.list {} [.symbol {} "fn", .vector {} [.symbol {} "f"],
        .list {} [.symbol {} "map", .symbol {} "f", .vector {} []]]) 3).1 = .ok r ∧
      ∃ ρ, r.type.bind ρ = .fn [.fn [.number] .string] (.array .string) := by
  have typed : Typed ((Scope.context [Frame.standard 0]).map
      (Ty.bind fun x => if x.id = 0 then .number else .string))
      (.list ⟨none, some (.fn [.fn [.number] .string] (.array .string))⟩
        [.symbol {} "fn", .vector {} [.symbol ⟨none, some (.fn [.number] .string)⟩ "f"],
          .list ⟨none, some (.array .string)⟩
            [.symbol ⟨none, some (.fn [.fn [.number] .string, .array .number] (.array .string))⟩
                "map",
              .symbol ⟨none, some (.fn [.number] .string)⟩ "f",
              .vector ⟨none, some (.array .number)⟩ []]])
      (.fn [.fn [.number] .string] (.array .string)) := by
    have params : List.Forall₂ IsParam [.symbol ⟨none, some (.fn [.number] .string)⟩ "f"]
        [("f", .fn [.number] .string)] := .cons ⟨_, rfl, rfl⟩ .nil
    refine .function rfl params (.cons ?_ .nil) rfl
    refine .application rfl rfl ?_ (.symbol rfl rfl)
      (.cons (.symbol rfl rfl) (.cons (.vector rfl .nil nofun) .nil))
    exact fun _ _ _ _ => List.cons_ne_nil _ _
  obtain ⟨r, hrun, -, ρ, -, htype, -⟩ := run_principal
    (.list {} [.symbol {} "fn", .vector {} [.symbol {} "f"],
      .list {} [.symbol {} "map", .symbol {} "f", .vector {} []]])
    (Scope.issued_standard 0) typed rfl
  exact ⟨r, hrun, ρ, htype⟩

end Inference

end TypedSexp
