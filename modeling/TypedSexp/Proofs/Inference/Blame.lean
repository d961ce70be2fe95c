import TypedSexp.Proofs.Constraint.Origin
import TypedSexp.Proofs.Inference.Relabelling
import TypedSexp.Proofs.Result

/-!
# What a type fault is about

A form that has no type is refused because of one of the forms in it: the fault has the place
of that form, and a name that is not bound is the name of that form (`Inference.run_blames`).

Some faults are met while types are given, at the form that cannot be typed. Others are met
when the constraints are solved, perhaps many steps later and between types that stand nowhere
in the form. Such a fault has the place of one of the constraints
(`Solver.exists_part_of_run`), and each of these was asked for by a form of the form that is
typed (`Inference.infer_about`).

What this does not establish is that the form named is the one to be changed. A mismatch is between
what two forms ask for, and the place is that of one of them.
-/

namespace TypedSexp

/-! ## The forms that are asked about and refused -/

/-- The fault has the place of the form, and a name that is not bound is the form's name. -/
structure TypeFault.Blames (f : TypeFault) (x : Form Note) : Prop where
  span_eq : f.span = x.note.span
  name : ∀ name, f.cause = .unbound name → ∃ n, x = .symbol n name

namespace Inference

/-- What is asked in the second state and not in the first one has the place of one of the
forms. -/
def Asks (xs : List (Form Note)) (st st' : State) : Prop :=
  ∀ c ∈ st'.constraints, c ∈ st.constraints ∨ ∃ x ∈ xs, c.origin = x.note.span

/-- What a pass asks or refuses is about one of the forms. -/
structure Pass.About {φ ρ : Type} (xs : List (Form Note)) (st : State) (p : Pass φ ρ) : Prop where
  asks : Asks xs st p.state
  refuses : ∀ f, p.result = .error f → ∃ x ∈ xs, f.Blames x

section Forms

variable {xs ys : List (Form Note)} {st st₁ st₂ : State}

theorem Asks.refl (st : State) : Asks xs st st := fun _ hc => .inl hc

/-- What is asked in two parts of a pass is asked in the whole of it. -/
theorem Asks.trans (first : Asks xs st st₁) (second : Asks xs st₁ st₂) : Asks xs st st₂ := by
  intro c hc
  rcases second c hc with hc | hx
  · exact first c hc
  · exact .inr hx

/-- A constraint that is about one of some forms is about one of more forms. Passes over parts are
put into the pass over the whole with this. -/
theorem Asks.mono (h : Asks xs st st₁) (sub : ∀ x ∈ xs, x ∈ ys) : Asks ys st st₁ := by
  intro c hc
  refine (h c hc).imp_right ?_
  rintro ⟨x, hx, hc⟩
  exact ⟨x, sub x hx, hc⟩

/-- A constraint that has the place of a form is about this form. -/
theorem asks_record {x : Form Note} (hx : x ∈ xs) {c : Constraint} (hc : c.origin = x.note.span) :
    Asks xs st (st.record c) := by
  intro d hd
  rcases List.mem_cons.mp hd with rfl | hd
  · exact .inr ⟨x, hx, hc⟩
  · exact .inl hd

variable {φ ρ : Type} {forms : φ}

/-- A pass that is about some forms is about more forms. -/
theorem Pass.About.mono {p : Pass φ ρ} (h : p.About xs st) (sub : ∀ x ∈ xs, x ∈ ys) :
    p.About ys st := by
  refine ⟨h.asks.mono sub, fun f hf => ?_⟩
  obtain ⟨x, hx, blames⟩ := h.refuses f hf
  exact ⟨x, sub x hx, blames⟩

/-- A pass that gives a result refuses nothing. -/
theorem Pass.about_ok (h : Asks xs st st₁) (r : ρ) :
    (⟨forms, st₁, .ok r⟩ : Pass φ ρ).About xs st := ⟨h, nofun⟩

/-- A pass that stops is about some forms, if all that it asked before is and the fault blames one
of them. -/
theorem Pass.about_error (h : Asks xs st st₁) {f : TypeFault} {x : Form Note} (hx : x ∈ xs)
    (blames : f.Blames x) : (⟨forms, st₁, .error f⟩ : Pass φ ρ).About xs st := by
  refine ⟨h, ?_⟩
  rintro g ⟨⟩
  exact ⟨x, hx, blames⟩

/-- A fault that is passed on is about the same form. The forms and the result that come with it may
be other ones. -/
theorem Pass.About.fault {φ' ρ' : Type} {forms' : φ'} {f : TypeFault}
    (h : (⟨forms', st₂, .error f⟩ : Pass φ' ρ').About xs st₁) (before : Asks xs st st₁) :
    (⟨forms, st₂, .error f⟩ : Pass φ ρ).About xs st := by
  obtain ⟨x, hx, blames⟩ := h.refuses f rfl
  exact Pass.about_error (before.trans h.asks) hx blames

end Forms

/-! ## The pass over a form -/

/-- Binding parameters asks nothing and refuses a parameter only for what it is itself, which is no
symbol. -/
theorem bindParams_about (frame : List (String × Ty)) (ps : List (Form Note)) (st : State) :
    (bindParams frame ps st).About ps st := by
  induction ps generalizing frame st with
  | nil => exact Pass.about_ok (.refl st) _
  | cons p ps ih =>
    cases p with
    | symbol n s =>
      have hrest := (ih (Entries.put s (.var st.fresh) frame) st.advance).mono
        fun x hx => List.mem_cons_of_mem (Form.symbol n s) hx
      rw [bindParams]
      generalize bindParams _ ps st.advance = pass at hrest ⊢
      refine ⟨hrest.asks, fun f hf => ?_⟩
      exact hrest.refuses f (eq_error_of_map_eq_error hf)
    | _ => exact Pass.about_error (.refl st) List.mem_cons_self ⟨rfl, by rintro _ ⟨⟩⟩

/-- What the pass over a form asks or refuses is about one of the forms in it. -/
def Covers (e : Form Note) : Prop :=
  ∀ (scope : Scope) (st : State), (infer scope e st).About e.walk st

section Elements

variable {es : List (Form Note)}

/-- Forms that are typed one after the other ask and refuse what each of them does. The constraints
of the forms before stay, so a fault of solving may be about any of them. -/
theorem inferAll_about (each : ∀ e ∈ es, Covers e) (scope : Scope) (st : State) :
    (inferAll scope es st).About (Form.walkAll es) st := by
  induction es generalizing st with
  | nil =>
    rw [inferAll]
    exact Pass.about_ok (.refl st) _
  | cons e es ih =>
    obtain ⟨he, hes⟩ := List.forall_mem_cons.mp each
    have hfirst : (infer scope e st).About (Form.walkAll (e :: es)) st :=
      (he scope st).mono fun x hx => List.mem_append_left _ hx
    rw [inferAll]
    generalize infer scope e st = first at hfirst ⊢
    obtain ⟨e', st₁, result⟩ := first
    cases result with
    | error f => exact hfirst.fault (.refl st)
    | ok t =>
      have hrest := (ih hes st₁).mono fun x hx => List.mem_append_right e.walk hx
      dsimp only
      generalize inferAll scope es st₁ = more at hrest ⊢
      refine ⟨hfirst.asks.trans hrest.asks, fun f hf => ?_⟩
      exact hrest.refuses f (eq_error_of_map_eq_error hf)

/-- The elements of a vector do too. What is asked of an element besides, to have the type of the
others, is asked at its place. -/
theorem inferElements_about (each : ∀ e ∈ es, Covers e) (scope : Scope) (element : Ty)
    (st : State) : (inferElements scope element es st).About (Form.walkAll es) st := by
  induction es generalizing st with
  | nil =>
    rw [inferElements]
    exact Pass.about_ok (.refl st) _
  | cons e es ih =>
    obtain ⟨he, hes⟩ := List.forall_mem_cons.mp each
    have hself : e ∈ Form.walkAll (e :: es) := List.mem_append_left _ e.mem_walk_self
    have hfirst : (infer scope e st).About (Form.walkAll (e :: es)) st :=
      (he scope st).mono fun x hx => List.mem_append_left _ hx
    rw [inferElements]
    generalize infer scope e st = first at hfirst ⊢
    obtain ⟨e', st₁, result⟩ := first
    cases result with
    | error f => exact hfirst.fault (.refl st)
    | ok t =>
      have hasked : Asks _ st₁ (st₁.record ⟨element, t, e.note.span⟩) := asks_record hself rfl
      have hrest := (ih hes (st₁.record ⟨element, t, e.note.span⟩)).mono
        fun x hx => List.mem_append_right e.walk hx
      dsimp only
      generalize inferElements scope element es _ = more at hrest ⊢
      exact ⟨(hfirst.asks.trans hasked).trans hrest.asks, hrest.refuses⟩

end Elements

/-- A vector asks and refuses what its elements do. What it asks for itself is that an element have
the type of the elements, and this is asked at the element. -/
theorem infer_about_vector {n : Note} {es : List (Form Note)} (each : ∀ e ∈ es, Covers e) :
    Covers (.vector n es) := by
  intro scope st
  have helements := (inferElements_about each scope (.var st.fresh) st.advance).mono
    fun x hx => List.mem_cons_of_mem (Form.vector n es) hx
  rw [infer]
  generalize inferElements scope _ es st.advance = pass at helements ⊢
  obtain ⟨es', st₁, result⟩ := pass
  cases result with
  | ok r =>
    have hasked : Asks (Form.vector n es).walk st st₁ := helements.asks
    exact Pass.about_ok hasked _
  | error f => exact helements.fault (.refl st)

/-- A function definition asks and refuses what its body does. Of its own it may refuse its
parameters and an empty body. -/
theorem infer_about_function {n m : Note} {head : Form Note} {ps body : List (Form Note)}
    (hfn : head.isSymbol Form.fnName = true) (each : ∀ e ∈ body, Covers e) :
    Covers (.list n (head :: .vector m ps :: body)) := by
  intro scope st
  have hself : Form.list n (head :: .vector m ps :: body) ∈
      (Form.list n (head :: .vector m ps :: body)).walk := List.mem_cons_self
  have inParams : ∀ x ∈ ps, x ∈ (Form.list n (head :: .vector m ps :: body)).walk := by
    intro x hx
    simp only [Form.walk, Form.walkAll_eq_flatMap, List.mem_cons, List.flatMap_cons,
      List.mem_append, List.mem_flatMap]
    exact .inr (.inr (.inl (.inr ⟨x, hx, x.mem_walk_self⟩)))
  have inBody : ∀ x ∈ Form.walkAll body,
      x ∈ (Form.list n (head :: .vector m ps :: body)).walk := fun x hx =>
    List.mem_cons_of_mem _ (List.mem_append_right _ (List.mem_append_right _ hx))
  have hparams := (bindParams_about [] ps st).mono inParams
  rw [infer, if_pos hfn]
  dsimp only
  generalize bindParams [] ps st = params at hparams ⊢
  obtain ⟨ps', st₁, result⟩ := params
  cases result with
  | error f => exact hparams.fault (.refl st)
  | ok r =>
    obtain ⟨frame, ts⟩ := r
    dsimp only
    split
    · exact Pass.about_error hparams.asks hself ⟨rfl, by rintro _ ⟨⟩⟩
    · have hbody := (inferAll_about each ({ bindings := frame } :: scope) st₁).mono inBody
      generalize inferAll _ body st₁ = pass at hbody ⊢
      obtain ⟨body', st₂, result⟩ := pass
      cases result with
      | error f => exact hbody.fault hparams.asks
      | ok results => exact Pass.about_ok (hparams.asks.trans hbody.asks) _

/-- An application asks what its head and its operands do, and one thing of its own, that the head
be a function of the operands. It may refuse a method without a target. -/
theorem infer_about_application {n : Note} {head : Form Note} {rest : List (Form Note)}
    (happ : head.isSymbol Form.fnName = false) (hhead : Covers head)
    (each : ∀ e ∈ rest, Covers e) : Covers (.list n (head :: rest)) := by
  intro scope st
  have hself : Form.list n (head :: rest) ∈ (Form.list n (head :: rest)).walk :=
    List.mem_cons_self
  have inHead : ∀ x ∈ head.walk, x ∈ (Form.list n (head :: rest)).walk := fun x hx =>
    List.mem_cons_of_mem _ (List.mem_append_left _ hx)
  have inRest : ∀ x ∈ Form.walkAll rest, x ∈ (Form.list n (head :: rest)).walk := fun x hx =>
    List.mem_cons_of_mem _ (List.mem_append_right _ hx)
  have hcallee := (hhead scope st).mono inHead
  rw [infer.eq_def]
  simp only [happ, Bool.false_eq_true, if_false]
  cases Call.ofElements (head :: rest) with
  | error f => exact Pass.about_error (.refl st) hself ⟨rfl, by rintro _ ⟨⟩⟩
  | ok call =>
    dsimp only
    generalize infer scope head st = callee at hcallee ⊢
    obtain ⟨head', st₁, result⟩ := callee
    cases result with
    | error f => exact hcallee.fault (.refl st)
    | ok t =>
      have hoperands := (inferAll_about each scope st₁).mono inRest
      dsimp only
      generalize inferAll scope rest st₁ = operands at hoperands ⊢
      obtain ⟨rest', st₂, result⟩ := operands
      cases result with
      | error f => exact hoperands.fault hcallee.asks
      | ok ts =>
        have hasked : Asks _ st₂ (st₂.advance.record ⟨t, .fn ts (.var st₂.fresh), n.span⟩) :=
          asks_record hself rfl
        exact Pass.about_ok ((hcallee.asks.trans hoperands.asks).trans hasked) _

/-- What the pass over any form asks or refuses is about one of the forms in it. This holds of
failing passes as well, whose state is thrown away later. -/
theorem infer_about (e : Form Note) : Covers e := by
  induction e using Form.ind with
  | symbol n s =>
    intro scope st
    rw [infer]
    split
    · exact Pass.about_ok (.refl st) _
    · refine Pass.about_error (.refl st) List.mem_cons_self ⟨rfl, ?_⟩
      rintro name ⟨⟩
      exact ⟨n, rfl⟩
  | string n v | number n v =>
    intro scope st
    rw [infer]
    exact Pass.about_ok (.refl st) _
  | bare n =>
    intro scope st
    rw [infer]
    exact Pass.about_error (.refl st) List.mem_cons_self ⟨rfl, by rintro _ ⟨⟩⟩
  | vector n es ih => exact infer_about_vector ih
  | empty n =>
    intro scope st
    rw [infer]
    exact Pass.about_error (.refl st) List.mem_cons_self ⟨rfl, by rintro _ ⟨⟩⟩
  | headOnly n head hfn =>
    intro scope st
    rw [infer_noParameters hfn (by simp)]
    exact Pass.about_error (.refl st) List.mem_cons_self ⟨rfl, by rintro _ ⟨⟩⟩
  | function n head m ps es hfn _ ihes => exact infer_about_function hfn ihes
  | malformed n head p es hfn hp _ =>
    intro scope st
    rw [infer_noParameters hfn (by simp_all)]
    exact Pass.about_error (.refl st) List.mem_cons_self ⟨rfl, by rintro _ ⟨⟩⟩
  | application n head es happ ihhead ihes => exact infer_about_application happ ihhead ihes

/-- A form that a run does not type is refused because of one of the forms in it. If solving fails,
it is the form at whose place the constraint was asked. -/
theorem run_blames {scope : Scope} {form : Form Note} {next : Nat} {f : TypeFault}
    (h : (run scope form next).1 = .error f) : ∃ x ∈ form.walk, f.Blames x := by
  have about := infer_about form scope { next }
  unfold run at h
  generalize infer scope form { next } = pass at about h
  obtain ⟨form', st, result⟩ := pass
  cases result with
  | error g =>
    cases h
    exact about.refuses f rfl
  | ok t =>
    dsimp only at h
    cases hsolve : Solver.run { pending := st.constraints } with
    | ok s =>
      rw [hsolve] at h
      cases h
    | error g =>
      rw [hsolve] at h
      cases h
      obtain ⟨c, hc, _, d, -, part, -, hspan⟩ := Solver.exists_part_of_run hsolve
      rcases about.asks c hc with hc | ⟨x, hx, horigin⟩
      · cases hc
      · exact ⟨x, hx, (hspan.trans part.origin).trans horigin, by rintro _ ⟨⟩⟩

end Inference

end TypedSexp
