import TypedSexp.Proofs.Inference.Typing

/-!
# Successful passes

The pass of inference over a form that does not fail is described by rules
(`Assigns`): from a state of the supply it leads to the form with its types noted, to
the type of the whole, and to a later state. The rules are the pass read backwards.
`Assigns.infer_eq` and `assigns_of_infer` say that they give the same results, so a
property of successful passes has one case for each rule and none for the faults.

A pass that fails has no rule here. What is said of faults is proved by following the pass itself.
-/

namespace TypedSexp

namespace Inference

/-- The parameters of a function get the next variables of the supply. -/
inductive AssignsParams : State → List (Form Note) → List (Form Note) → List (String × Ty) →
    State → Prop
  | nil {st : State} : AssignsParams st [] [] [] st
  | cons {st st' : State} {n : Note} {s : String} {ps ps' : List (Form Note)}
      {bs : List (String × Ty)} (rest : AssignsParams st.advance ps ps' bs st') :
      AssignsParams st (.symbol n s :: ps) (.symbol (n.withType (.var st.fresh)) s :: ps')
        ((s, .var st.fresh) :: bs) st'

mutual

/-- The pass gives a form types and a type. -/
inductive Assigns : Scope → State → Form Note → Form Note → Ty → State → Prop
  | symbol {scope : Scope} {st : State} {n : Note} {s : String} {t : Ty}
      (bound : scope.lookup? s = some t) :
      Assigns scope st (.symbol n s) (.symbol (n.withType t) s) t st
  | string {scope : Scope} {st : State} {n : Note} {v : String} :
      Assigns scope st (.string n v) (.string (n.withType .string) v) .string st
  | number {scope : Scope} {st : State} {n : Note} {v : Number} :
      Assigns scope st (.number n v) (.number (n.withType .number) v) .number st
  | vector {scope : Scope} {st st' : State} {n : Note} {es es' : List (Form Note)}
      (elements : AssignsEach scope (.var st.fresh) st.advance es es' st') :
      Assigns scope st (.vector n es) (.vector (n.withType (.array (.var st.fresh))) es')
        (.array (.var st.fresh)) st'
  | function {scope : Scope} {st st₁ st₂ : State} {n head m : Note}
      {ps ps' body body' : List (Form Note)} {bs : List (String × Ty)} {ts : List Ty} {t : Ty}
      (params : AssignsParams st ps ps' bs st₁)
      (inner : AssignsAll ({ bindings := Entries.ofPairs bs } :: scope) st₁ body body' ts st₂)
      (last : ts.getLast? = some t) :
      Assigns scope st (.list n (.symbol head Form.fnName :: .vector m ps :: body))
        (.list (n.withType (.fn (bs.map Prod.snd) t))
          (.symbol head Form.fnName :: .vector m ps' :: body'))
        (.fn (bs.map Prod.snd) t) st₂
  | application {scope : Scope} {st st₁ st₂ : State} {n : Note} {head head' : Form Note}
      {operands operands' : List (Form Note)} {t : Ty} {ts : List Ty}
      (plain : head.isSymbol Form.fnName = false) (target : HasTarget head operands)
      (callee : Assigns scope st head head' t st₁)
      (arguments : AssignsAll scope st₁ operands operands' ts st₂) :
      Assigns scope st (.list n (head :: operands))
        (.list (n.withType (.var st₂.fresh)) (head' :: operands')) (.var st₂.fresh)
        (st₂.advance.record ⟨t, .fn ts (.var st₂.fresh), n.span⟩)

/-- The pass gives several forms types, one after the other. -/
inductive AssignsAll : Scope → State → List (Form Note) → List (Form Note) → List Ty → State →
    Prop
  | nil {scope : Scope} {st : State} : AssignsAll scope st [] [] [] st
  | cons {scope : Scope} {st st₁ st₂ : State} {e e' : Form Note} {es es' : List (Form Note)}
      {t : Ty} {ts : List Ty} (first : Assigns scope st e e' t st₁)
      (rest : AssignsAll scope st₁ es es' ts st₂) :
      AssignsAll scope st (e :: es) (e' :: es') (t :: ts) st₂

/-- The pass gives the elements of a vector types, and asks of each that it be the type of
the elements. -/
inductive AssignsEach : Scope → Ty → State → List (Form Note) → List (Form Note) → State → Prop
  | nil {scope : Scope} {element : Ty} {st : State} : AssignsEach scope element st [] [] st
  | cons {scope : Scope} {element : Ty} {st st₁ st₂ : State} {e e' : Form Note}
      {es es' : List (Form Note)} {t : Ty} (first : Assigns scope st e e' t st₁)
      (rest : AssignsEach scope element (st₁.record ⟨element, t, e.note.span⟩) es es' st₂) :
      AssignsEach scope element st (e :: es) (e' :: es') st₂

end

/-! ## The rules give what the pass gives -/

/-- A list whose head is no method without a target is an application. For methods a target has to
follow, and what it is does not matter. -/
theorem ofElements_isOk_iff {head : Form Note} {operands : List (Form Note)} :
    (∃ c, Call.ofElements (head :: operands) = .ok c) ↔ HasTarget head operands := by
  cases head with
  | symbol n s =>
    by_cases hs : isMethodName s = true
    · cases operands with
      | nil => simp [Call.ofElements, HasTarget, hs]
      | cons e es => simp [Call.ofElements, HasTarget, hs]
    · simp [Call.ofElements, HasTarget, hs]
  | _ => simp [Call.ofElements, HasTarget]

/-- Binding parameters follows the rules for them. The bindings come into the frame one after the
other, so of two parameters with one name the later one is seen. -/
theorem AssignsParams.bindParams_eq {st st' : State} {ps ps' : List (Form Note)}
    {bs : List (String × Ty)} (h : AssignsParams st ps ps' bs st') (frame : List (String × Ty)) :
    bindParams frame ps st =
      ⟨ps', st', .ok (bs.foldl (fun es b => Entries.put b.1 b.2 es) frame, bs.map Prod.snd)⟩ := by
  induction h generalizing frame with
  | nil => rfl
  | cons rest ih =>
    rw [bindParams, ih]
    rfl

/-- A body that has a last type is not empty. Functions need one, as their result is the type of the
last form. -/
theorem AssignsAll.isEmpty_eq_false {scope : Scope} {st st' : State} {es es' : List (Form Note)}
    {ts : List Ty} {t : Ty} (h : AssignsAll scope st es es' ts st') (last : ts.getLast? = some t) :
    es.isEmpty = false := by
  cases h with
  | nil => cases last
  | cons first rest => rfl

/-- A body that is not empty has a last type. -/
theorem AssignsAll.getLast?_eq {scope : Scope} {st st' : State} {es es' : List (Form Note)}
    {ts : List Ty} {t : Ty} (h : AssignsAll scope st es es' ts st')
    (inhabited : es.isEmpty = false) : ts.getLast? = some (ts.getLastD t) := by
  cases h with
  | nil => cases inhabited
  | cons first rest =>
    rw [List.getLastD_eq_getLast?, List.getLast?_cons]
    rfl

mutual

/-- The pass follows the rules: where they assign a form its notes, a type and a state, the pass
returns these. The induction is over the derivation. -/
theorem Assigns.infer_eq : ∀ {scope : Scope} {st st' : State} {e e' : Form Note} {t : Ty},
    Assigns scope st e e' t st' → infer scope e st = ⟨e', st', .ok t⟩
  | _, _, _, _, _, _, .symbol bound => by rw [infer, bound]
  | _, _, _, _, _, _, .string => by rw [infer]
  | _, _, _, _, _, _, .number => by rw [infer]
  | _, _, _, _, _, _, .vector elements => by
    rw [infer, elements.inferElements_eq]
  | _, _, _, _, _, _, .function params inner last => by
    have hparams := params.bindParams_eq []
    rw [← Entries.ofPairs] at hparams
    have hbody := inner.isEmpty_eq_false last
    rw [infer, if_pos (by simp [Form.isSymbol]), hparams]
    dsimp only
    rw [if_neg (by simp [hbody]), inner.inferAll_eq]
    dsimp only
    rw [List.getLastD_eq_getLast?, last]
    rfl
  | _, _, _, _, _, _, .application plain target callee arguments => by
    obtain ⟨c, hc⟩ := ofElements_isOk_iff.mpr target
    rw [infer.eq_def]
    simp only [plain, hc, callee.infer_eq, arguments.inferAll_eq]
    rfl

theorem AssignsAll.inferAll_eq : ∀ {scope : Scope} {st st' : State} {es es' : List (Form Note)}
    {ts : List Ty}, AssignsAll scope st es es' ts st' → inferAll scope es st = ⟨es', st', .ok ts⟩
  | _, _, _, _, _, _, .nil => by rw [inferAll]
  | _, _, _, _, _, _, .cons first rest => by
    rw [inferAll, first.infer_eq]
    dsimp only
    rw [rest.inferAll_eq]
    rfl

theorem AssignsEach.inferElements_eq : ∀ {scope : Scope} {element : Ty} {st st' : State}
    {es es' : List (Form Note)}, AssignsEach scope element st es es' st' →
      inferElements scope element es st = ⟨es', st', .ok ()⟩
  | _, _, _, _, _, _, .nil => by rw [inferElements]
  | _, _, _, _, _, _, .cons first rest => by
    rw [inferElements, first.infer_eq]
    dsimp only
    rw [rest.inferElements_eq]

end

/-! ## The pass gives nothing else -/

/-- Where binding parameters succeeds, the rules for parameters were followed. The converse of
`AssignsParams.bindParams_eq`. -/
theorem assignsParams_of_bindParams {ps : List (Form Note)} :
    ∀ {frame frame' : List (String × Ty)} {st st' : State} {ps' : List (Form Note)}
      {ts : List Ty}, bindParams frame ps st = ⟨ps', st', .ok (frame', ts)⟩ →
      ∃ bs, AssignsParams st ps ps' bs st' ∧
        frame' = bs.foldl (fun es b => Entries.put b.1 b.2 es) frame ∧ ts = bs.map Prod.snd := by
  induction ps with
  | nil =>
    intro frame frame' st st' ps' ts h
    rw [bindParams] at h
    cases h
    exact ⟨[], .nil, rfl, rfl⟩
  | cons p ps ih =>
    intro frame frame' st st' ps' ts h
    cases p with
    | symbol n s =>
      rw [bindParams] at h
      cases hrest : bindParams (Entries.put s (.var st.fresh) frame) ps st.advance with
      | mk forms state result =>
        cases result with
        | error f =>
          rw [hrest] at h
          cases h
        | ok pair =>
          rw [hrest] at h
          cases h
          obtain ⟨bs, params, hframe, hts⟩ := ih hrest
          exact ⟨(s, .var st.fresh) :: bs, .cons params, hframe, by rw [hts]; rfl⟩
    | _ =>
      rw [bindParams] at h
      · cases h
      · nofun

/-- What the pass gives a form follows the rules. -/
def FollowsRules (e : Form Note) : Prop :=
  ∀ ⦃scope : Scope⦄ ⦃st st' : State⦄ ⦃e' : Form Note⦄ ⦃t : Ty⦄,
    infer scope e st = ⟨e', st', .ok t⟩ → Assigns scope st e e' t st'

/-- Where typing forms one after the other succeeds, each of them was typed by the rules in the
state that the one before left. -/
theorem assignsAll_of_inferAll {es : List (Form Note)} (each : ∀ e ∈ es, FollowsRules e) :
    ∀ {scope : Scope} {st st' : State} {es' : List (Form Note)} {ts : List Ty},
      inferAll scope es st = ⟨es', st', .ok ts⟩ → AssignsAll scope st es es' ts st' := by
  induction es with
  | nil =>
    intro scope st st' es' ts h
    rw [inferAll] at h
    cases h
    exact .nil
  | cons e es ih =>
    intro scope st st' es' ts h
    rw [inferAll] at h
    cases hfirst : infer scope e st with
    | mk e₁ st₁ result =>
      cases result with
      | error f =>
        rw [hfirst] at h
        cases h
      | ok t =>
        rw [hfirst] at h
        dsimp only at h
        cases hrest : inferAll scope es st₁ with
        | mk es₂ st₂ result =>
          cases result with
          | error f =>
            rw [hrest] at h
            cases h
          | ok ts =>
            rw [hrest] at h
            cases h
            exact .cons (each e List.mem_cons_self hfirst)
              (ih (fun e he => each e (List.mem_cons_of_mem _ he)) hrest)

/-- Where typing the elements of a vector succeeds, each was typed by the rules and asked to have
the type of the elements. -/
theorem assignsEach_of_inferElements {element : Ty} {es : List (Form Note)}
    (each : ∀ e ∈ es, FollowsRules e) :
    ∀ {scope : Scope} {st st' : State} {es' : List (Form Note)},
      inferElements scope element es st = ⟨es', st', .ok ()⟩ →
      AssignsEach scope element st es es' st' := by
  induction es with
  | nil =>
    intro scope st st' es' h
    rw [inferElements] at h
    cases h
    exact .nil
  | cons e es ih =>
    intro scope st st' es' h
    rw [inferElements] at h
    cases hfirst : infer scope e st with
    | mk e₁ st₁ result =>
      cases result with
      | error f =>
        rw [hfirst] at h
        cases h
      | ok t =>
        rw [hfirst] at h
        dsimp only at h
        cases hrest : inferElements scope element es (st₁.record ⟨element, t, e.note.span⟩) with
        | mk es₂ st₂ result =>
          rw [hrest] at h
          cases h
          exact .cons (each e List.mem_cons_self hfirst)
            (ih (fun e he => each e (List.mem_cons_of_mem _ he)) hrest)

/-- A function definition with parameters follows the rules, if the forms of its body do. The
parameters are bound in a frame of their own, which is gone after the body. -/
private theorem followsRules_function {n head m : Note} {ps body : List (Form Note)}
    (each : ∀ e ∈ body, FollowsRules e) :
    FollowsRules (.list n (.symbol head Form.fnName :: .vector m ps :: body)) := by
  intro scope st st' e' t h
  rw [infer, if_pos (by simp [Form.isSymbol])] at h
  dsimp only at h
  cases hparams : bindParams [] ps st with
  | mk ps' st₁ result =>
    rw [hparams] at h
    cases result with
    | error f => cases h
    | ok pair =>
      obtain ⟨frame, ts⟩ := pair
      dsimp only at h
      cases hbody : body.isEmpty with
      | true =>
        rw [if_pos hbody] at h
        cases h
      | false =>
        rw [if_neg (by simp [hbody])] at h
        cases hinner : inferAll ({ bindings := frame } :: scope) body st₁ with
        | mk body' st₂ result =>
          rw [hinner] at h
          cases result with
          | error f => cases h
          | ok us =>
            cases h
            obtain ⟨bs, params, rfl, rfl⟩ := assignsParams_of_bindParams hparams
            have inner := assignsAll_of_inferAll each hinner
            exact .function params inner (inner.getLast?_eq hbody)

/-- A list that is no function definition follows the rules as an application, if its head and its
operands do. -/
private theorem followsRules_application {n : Note} {head : Form Note}
    {rest : List (Form Note)} (plain : head.isSymbol Form.fnName = false)
    (callee : FollowsRules head) (each : ∀ e ∈ rest, FollowsRules e) :
    FollowsRules (.list n (head :: rest)) := by
  intro scope st st' e' t h
  rw [infer.eq_def] at h
  simp only [plain] at h
  cases hcall : Call.ofElements (head :: rest) with
  | error f =>
    rw [hcall] at h
    cases h
  | ok c =>
    rw [hcall] at h
    cases hcallee : infer scope head st with
    | mk head' st₁ result =>
      rw [hcallee] at h
      cases result with
      | error f => cases h
      | ok u =>
        dsimp only at h
        cases harguments : inferAll scope rest st₁ with
        | mk rest' st₂ result =>
          rw [harguments] at h
          cases result with
          | error f => cases h
          | ok us =>
            cases h
            exact .application plain (ofElements_isOk_iff.mp ⟨c, hcall⟩) (callee hcallee)
              (assignsAll_of_inferAll each harguments)

/-- What the pass gives any form follows the rules. Together with `Assigns.infer_eq` the rules and
the pass say the same about forms that are typed; failures are not in the rules. -/
theorem assigns_of_infer (e : Form Note) : FollowsRules e := by
  induction e using Form.ind with
  | symbol n s =>
    intro scope st st' e' t h
    rw [infer] at h
    cases hs : scope.lookup? s with
    | none =>
      rw [hs] at h
      cases h
    | some u =>
      rw [hs] at h
      cases h
      exact .symbol hs
  | string n v =>
    intro scope st st' e' t h
    rw [infer] at h
    cases h
    exact .string
  | number n v =>
    intro scope st st' e' t h
    rw [infer] at h
    cases h
    exact .number
  | bare n =>
    intro scope st st' e' t h
    rw [infer] at h
    cases h
  | vector n es ih =>
    intro scope st st' e' t h
    rw [infer] at h
    cases hes : inferElements scope (.var st.fresh) es st.advance with
    | mk es' st₁ result =>
      rw [hes] at h
      cases result with
      | error f => cases h
      | ok u =>
        cases h
        exact .vector (assignsEach_of_inferElements ih hes)
  | empty n =>
    intro scope st st' e' t h
    rw [infer] at h
    cases h
  | headOnly n e hfn =>
    intro scope st st' e' t h
    rw [infer, if_pos hfn] at h
    · cases h
    · nofun
  | function n e m ps es hfn ihps ihes =>
    cases e with
    | symbol head s =>
      obtain rfl : s = Form.fnName := by simpa [Form.isSymbol] using hfn
      exact followsRules_function ihes
    | _ => cases hfn
  | malformed n e p es hfn hp ihes =>
    intro scope st st' e' t h
    rw [infer, if_pos hfn] at h
    · cases h
    · intro m ps body heq
      exact hp m ps (List.cons.inj heq).1
  | application n e es plain ihe ihes => exact followsRules_application plain ihe ihes

/-! ## Whole runs -/

/-- A run that succeeds is a pass that follows the rules, and constraints that were solved. The
types it returns are those of the pass with the solution applied. -/
theorem exists_assigns_of_run {scope : Scope} {form : Form Note} {next : Nat} {r : Inferred}
    (h : (run scope form next).1 = .ok r) :
    ∃ e t st, Assigns scope { next } form e t st ∧
      Solver.run { pending := st.constraints } = .ok r.substitution ∧
      r.form = e.applySubstitution r.substitution ∧ r.type = r.substitution.apply t := by
  unfold run at h
  cases hpass : infer scope form { next } with
  | mk e st result =>
    rw [hpass] at h
    cases result with
    | error f => cases h
    | ok t =>
      dsimp only at h
      cases hsolve : Solver.run { pending := st.constraints } with
      | error f =>
        rw [hsolve] at h
        cases h
      | ok s =>
        rw [hsolve] at h
        cases h
        exact ⟨e, t, st, assigns_of_infer form hpass, hsolve, rfl, rfl⟩

/-- A pass that follows the rules, and constraints that can be solved, make a run that succeeds. Its
result is given in full, so closed runs can be computed rule by rule. -/
theorem run_of_assigns {scope : Scope} {form e : Form Note} {next : Nat} {t : Ty} {st : State}
    {s : Substitution} (h : Assigns scope { next } form e t st)
    (hs : Solver.run { pending := st.constraints } = .ok s) :
    (run scope form next).1 =
      .ok ⟨e.applySubstitution s, s.apply t, s, st.constraints.length⟩ := by
  unfold run
  rw [h.infer_eq]
  dsimp only
  rw [hs]

end Inference

/-- A number is typed without anything to solve, whatever its note holds. -/
theorem Form.infer_number (n : Note) (x : Number) :
    (Form.number n x).infer = .ok ⟨.number (n.withType .number) x, .number, [], 0⟩ := by
  have solved : Solver.run { pending := [] } = .ok [] := by
    rw [Solver.run]
    rfl
  exact Inference.run_of_assigns .number solved

end TypedSexp
