import Mathlib.Data.List.Infix
import TypedSexp.Proofs.Inference.Relabelling
import TypedSexp.Session

/-!
# Inference in shared frames

Inference has a scope to itself: a function's parameters are bound in a frame that is put before
the frames of the scope, and nothing else sees it. Here the same pass is made in the session
(`Session.walk`). A function opens a scope inside the scope that it is found in, and defines its
parameters there one after the other, in frames that all scopes share. Where the pass ends at a
fault, the scopes that it opened stay as they are.

Both passes leave the same (`Session.agrees`). For that each scope that was there has to see what
it saw before, whatever was opened and defined since (`Session.Grown.scope`).

Two passes at the same time in one session are left out. What a pass leaves in the frames that it
opened is not spoken of, as no scope that was there before sees them.
-/

namespace TypedSexp

namespace Session

open Inference (Pass State)

/-! ## The pass -/

/-- The session after a definition. One that is refused changes nothing. -/
def defined (s : Session) (i : Nat) (name : String) (t : Ty) : Session :=
  match s.define i name t with
  | .ok s' => s'
  | .error _ => s

/-- Gives each parameter of a function a fresh variable and defines it in the function's scope. -/
def defineParams (s : Session) (i : Nat) :
    List (Form Note) → State → Pass (List (Form Note)) (List Ty) × Session
  | [], st => (⟨[], st, .ok []⟩, s)
  | .symbol n name :: ps, st =>
    let t : Ty := .var st.fresh
    let (rest, s) := defineParams (s.defined i name t) i ps st.advance
    (⟨.symbol (n.withType t) name :: rest.forms, rest.state, rest.result.map (t :: ·)⟩, s)
  | p :: ps, st => (⟨p :: ps, st, .error ⟨.badParameter p.kindName, p.note.span⟩⟩, s)

mutual

/-- Gives a form and all forms inside it a type in a scope of the session. -/
def walk (s : Session) (i : Nat) : Form Note → State → Pass (Form Note) Ty × Session
  | .symbol n name, st =>
    match (s.scope i).lookup? name with
    | some t => (⟨.symbol (n.withType t) name, st, .ok t⟩, s)
    | none => (⟨.symbol n name, st, .error ⟨.unbound name, n.span⟩⟩, s)
  | .string n v, st => (⟨.string (n.withType .string) v, st, .ok .string⟩, s)
  | .number n v, st => (⟨.number (n.withType .number) v, st, .ok .number⟩, s)
  | .vector n es, st =>
    let element : Ty := .var st.fresh
    let (pass, s) := walkElements s i element es st.advance
    match pass.result with
    | .ok () =>
      (⟨.vector (n.withType (.array element)) pass.forms, pass.state, .ok (.array element)⟩, s)
    | .error e => (⟨.vector n pass.forms, pass.state, .error e⟩, s)
  | .list n [], st => (⟨.list n [], st, .error ⟨.noCallee, n.span⟩⟩, s)
  | .list n (head :: rest), st =>
    if head.isSymbol Form.fnName then
      match rest with
      | .vector m ps :: body =>
        let inner := s.chains.length
        let (params, s) := defineParams (s.child i) inner ps st
        match params.result with
        | .error e =>
          (⟨.list n (head :: .vector m params.forms :: body), params.state, .error e⟩, s)
        | .ok ts =>
          if body.isEmpty then
            (⟨.list n (head :: .vector m params.forms :: body), params.state,
              .error ⟨.noBody, n.span⟩⟩, s)
          else
            let (pass, s) := walkAll s inner body params.state
            let elements := head :: .vector m params.forms :: pass.forms
            match pass.result with
            | .error e => (⟨.list n elements, pass.state, .error e⟩, s)
            | .ok results =>
              let t : Ty := .fn ts (results.getLastD .number)
              (⟨.list (n.withType t) elements, pass.state, .ok t⟩, s)
      | rest => (⟨.list n (head :: rest), st, .error ⟨.noParameters, n.span⟩⟩, s)
    else
      match Call.ofElements (head :: rest) with
      | .error e => (⟨.list n (head :: rest), st, .error ⟨.badCall e, n.span⟩⟩, s)
      | .ok _ =>
        let (callee, s) := walk s i head st
        match callee.result with
        | .error e => (⟨.list n (callee.forms :: rest), callee.state, .error e⟩, s)
        | .ok t =>
          let (operands, s) := walkAll s i rest callee.state
          let elements := callee.forms :: operands.forms
          match operands.result with
          | .error e => (⟨.list n elements, operands.state, .error e⟩, s)
          | .ok ts =>
            let result : Ty := .var operands.state.fresh
            let state := operands.state.advance.record ⟨t, .fn ts result, n.span⟩
            (⟨.list (n.withType result) elements, state, .ok result⟩, s)
  | .bare n, st => (⟨.bare n, st, .error ⟨.unsupported (Form.bare n).kindName, n.span⟩⟩, s)

/-- Gives several forms types, one after the other, up to the first fault. -/
def walkAll (s : Session) (i : Nat) :
    List (Form Note) → State → Pass (List (Form Note)) (List Ty) × Session
  | [], st => (⟨[], st, .ok []⟩, s)
  | e :: es, st =>
    let (first, s) := walk s i e st
    match first.result with
    | .error f => (⟨first.forms :: es, first.state, .error f⟩, s)
    | .ok t =>
      let (more, s) := walkAll s i es first.state
      (⟨first.forms :: more.forms, more.state, more.result.map (t :: ·)⟩, s)

/-- Gives the elements of a vector types. -/
def walkElements (s : Session) (i : Nat) (element : Ty) :
    List (Form Note) → State → Pass (List (Form Note)) Unit × Session
  | [], st => (⟨[], st, .ok ()⟩, s)
  | e :: es, st =>
    let (first, s) := walk s i e st
    match first.result with
    | .error f => (⟨first.forms :: es, first.state, .error f⟩, s)
    | .ok t =>
      let (more, s) :=
        walkElements s i element es (first.state.record ⟨element, t, e.note.span⟩)
      (⟨first.forms :: more.forms, more.state, more.result⟩, s)

end

/-! ## Sessions that grow -/

/-- There is a frame for every scope, and scopes see frames that are there. -/
structure Linked (s : Session) : Prop where
  frames : s.frames.length = s.chains.length
  inRange : ∀ chain ∈ s.chains, ∀ k ∈ chain, k < s.frames.length

/-- A session has come from another one by opening scopes and filling their frames. -/
structure Grown (s s' : Session) : Prop where
  linked : s'.Linked
  frames : s.frames <+: s'.frames
  chains : s.chains <+: s'.chains

namespace Grown

variable {s s' s'' : Session}

theorem refl (linked : s.Linked) : s.Grown s := ⟨linked, List.prefix_rfl, List.prefix_rfl⟩

/-- What has grown out of a grown session has grown out of the first one. -/
theorem trans (g : s.Grown s') (h : s'.Grown s'') : s.Grown s'' :=
  ⟨h.linked, g.frames.trans h.frames, g.chains.trans h.chains⟩

theorem lt (g : s.Grown s') {i : Nat} (hi : i < s.chains.length) : i < s'.chains.length :=
  Nat.lt_of_lt_of_le hi g.chains.length_le

/-- A scope that was there sees what it saw. Frames and chains are only added at the end, so none
that it looks at has changed. -/
theorem scope (g : s.Grown s') (linked : s.Linked) {i : Nat} (hi : i < s.chains.length) :
    s'.scope i = s.scope i := by
  obtain ⟨chains, hchains⟩ := g.chains
  obtain ⟨frames, hframes⟩ := g.frames
  rw [Session.scope, Session.scope, ← hchains, ← hframes, List.getElem?_append_left hi,
    List.getElem?_eq_getElem hi, Option.getD_some]
  refine List.filterMap_congr fun k hk => ?_
  exact List.getElem?_append_left (linked.inRange _ (List.getElem_mem hi) k hk)

end Grown

/-! ## Scopes of functions -/

/-- The session with a new scope inside another one, whose frame has bindings. -/
def opened (s : Session) (i : Nat) (bindings : List (String × Ty)) : Session :=
  { s.child i with frames := s.frames ++ [{ bindings := bindings }] }

section Opened

variable {s : Session} {i : Nat} (bindings : List (String × Ty))

theorem grown_opened (linked : s.Linked) (hi : i < s.chains.length) :
    s.Grown (s.opened i bindings) where
  frames := List.prefix_append _ _
  chains := List.prefix_append _ _
  linked :=
    { frames := by simp [opened, child, linked.frames]
      inRange := by
        intro chain hchain k hk
        have hlength : (s.opened i bindings).frames.length = s.frames.length + 1 := by simp [opened]
        rw [hlength]
        rcases List.mem_append.mp hchain with hchain | hchain
        · exact Nat.lt_succ_of_lt (linked.inRange chain hchain k hk)
        · rw [List.mem_singleton.mp hchain, List.getElem?_eq_getElem hi, Option.getD_some] at hk
          rcases List.mem_cons.mp hk with rfl | hk
          · exact Nat.lt_succ_self _
          · exact Nat.lt_succ_of_lt (linked.inRange _ (List.getElem_mem hi) k hk) }

theorem lt_opened : s.chains.length < (s.opened i bindings).chains.length := by
  simp [opened, child]

/-- The scope of a function sees its parameters before what the scope around sees. -/
theorem scope_opened (linked : s.Linked) (hi : i < s.chains.length) :
    (s.opened i bindings).scope s.chains.length = { bindings := bindings } :: s.scope i := by
  have hchain : (s.opened i bindings).chains[s.chains.length]? =
      some (s.frames.length :: s.chains[i]?.getD []) := List.getElem?_concat_length
  have hframe : (s.opened i bindings).frames[s.frames.length]? = some { bindings := bindings } :=
    List.getElem?_concat_length
  rw [scope, hchain, Option.getD_some, List.filterMap_cons_some hframe, scope,
    List.getElem?_eq_getElem hi, Option.getD_some]
  refine congrArg _ (List.filterMap_congr fun k hk => ?_)
  exact List.getElem?_append_left (linked.inRange _ (List.getElem_mem hi) k hk)

/-- A name that is defined in the scope just opened comes into the frame of that scope and into no
other. -/
theorem defined_opened (linked : s.Linked) (name : String) (t : Ty) :
    (s.opened i bindings).defined s.chains.length name t =
      s.opened i (Entries.put name t bindings) := by
  have hframe : (s.opened i bindings).frames[s.frames.length]? = some { bindings := bindings } :=
    List.getElem?_concat_length
  rw [← linked.frames, defined, define, hframe]
  simp [Frame.define, Except.map, opened]

end Opened

/-- Parameters are defined in the scope of a function as inference binds them in a frame of its own.
This covers a parameter that is refused after others were defined: the frame keeps those. -/
theorem defineParams_eq {s : Session} (linked : s.Linked) (i : Nat) (ps : List (Form Note))
    (bindings : List (String × Ty)) (st : State) :
    ∃ filled,
      ((s.opened i bindings).defineParams s.chains.length ps st).2 = s.opened i filled ∧
      Inference.bindParams bindings ps st =
        ⟨((s.opened i bindings).defineParams s.chains.length ps st).1.forms,
          ((s.opened i bindings).defineParams s.chains.length ps st).1.state,
          ((s.opened i bindings).defineParams s.chains.length ps st).1.result.map (filled, ·)⟩ := by
  induction ps generalizing bindings st with
  | nil => exact ⟨bindings, rfl, rfl⟩
  | cons p ps ih =>
    cases p with
    | symbol n name =>
      obtain ⟨filled, hsession, hpass⟩ := ih (Entries.put name (.var st.fresh) bindings) st.advance
      rw [defineParams, defined_opened _ linked, Inference.bindParams, hpass]
      generalize (s.opened i _).defineParams s.chains.length ps st.advance = rest at hsession ⊢
      obtain ⟨⟨ps', st', result⟩, s'⟩ := rest
      refine ⟨filled, hsession, ?_⟩
      cases result with
      | ok ts => rfl
      | error f => rfl
    | _ => exact ⟨bindings, rfl, rfl⟩

/-! ## The whole pass -/

/-- A pass in a session left the same as a pass of inference, and the session has only grown. -/
structure Leaves {φ ρ : Type} (s : Session) (walked : Pass φ ρ × Session) (pass : Pass φ ρ) :
    Prop where
  same : walked.1 = pass
  grown : s.Grown walked.2

/-- The pass over a form in any scope of a session leaves what inference in that scope leaves. -/
def Agrees (e : Form Note) : Prop :=
  ∀ {s : Session} {i : Nat} (st : State), s.Linked → i < s.chains.length →
    s.Leaves (s.walk i e st) (Inference.infer (s.scope i) e st)

section Elements

variable {s : Session} {i : Nat} {es : List (Form Note)}

/-- Forms one after the other leave what inference leaves, if each of them does. The session grows
along the way, and the scope sees the same throughout. -/
theorem walkAll_leaves (each : ∀ e ∈ es, Agrees e) (st : State) (linked : s.Linked)
    (hi : i < s.chains.length) :
    s.Leaves (s.walkAll i es st) (Inference.inferAll (s.scope i) es st) := by
  induction es generalizing s st with
  | nil => exact ⟨rfl, .refl linked⟩
  | cons e es ih =>
    obtain ⟨he, hes⟩ := List.forall_mem_cons.mp each
    obtain ⟨hfirst, grown⟩ := he st linked hi
    rw [walkAll, Inference.inferAll, ← hfirst]
    generalize s.walk i e st = first at grown ⊢
    obtain ⟨⟨e', st', result⟩, s'⟩ := first
    cases result with
    | error f => exact ⟨rfl, grown⟩
    | ok t =>
      obtain ⟨hmore, grown'⟩ := ih hes st' grown.linked (grown.lt hi)
      rw [grown.scope linked hi] at hmore
      dsimp only
      rw [← hmore]
      exact ⟨rfl, grown.trans grown'⟩

/-- The elements of a vector leave what inference leaves, if each of them does. All of them are
walked in the scope of the vector. -/
theorem walkElements_leaves (each : ∀ e ∈ es, Agrees e) (element : Ty) (st : State)
    (linked : s.Linked) (hi : i < s.chains.length) :
    s.Leaves (s.walkElements i element es st)
      (Inference.inferElements (s.scope i) element es st) := by
  induction es generalizing s st with
  | nil => exact ⟨rfl, .refl linked⟩
  | cons e es ih =>
    obtain ⟨he, hes⟩ := List.forall_mem_cons.mp each
    obtain ⟨hfirst, grown⟩ := he st linked hi
    rw [walkElements, Inference.inferElements, ← hfirst]
    generalize s.walk i e st = first at grown ⊢
    obtain ⟨⟨e', st', result⟩, s'⟩ := first
    cases result with
    | error f => exact ⟨rfl, grown⟩
    | ok t =>
      obtain ⟨hmore, grown'⟩ :=
        ih hes (st'.record ⟨element, t, e.note.span⟩) grown.linked (grown.lt hi)
      rw [grown.scope linked hi] at hmore
      dsimp only
      rw [← hmore]
      exact ⟨rfl, grown.trans grown'⟩

end Elements

/-- A vector leaves what inference leaves, if its elements do. -/
theorem agrees_vector {n : Note} {es : List (Form Note)} (each : ∀ e ∈ es, Agrees e) :
    Agrees (.vector n es) := by
  intro s i st linked hi
  obtain ⟨hsame, grown⟩ := walkElements_leaves each (.var st.fresh) st.advance linked hi
  rw [walk, Inference.infer, ← hsame]
  generalize s.walkElements i _ es st.advance = walked at grown ⊢
  obtain ⟨⟨es', st', result⟩, s'⟩ := walked
  cases result with
  | ok u => exact ⟨rfl, grown⟩
  | error f => exact ⟨rfl, grown⟩

/-- The body of a function is looked at in the scope that the parameters were defined in, and leaves
there what inference leaves in a frame of its own. -/
theorem agrees_function {n m : Note} {head : Form Note} {ps body : List (Form Note)}
    (hfn : head.isSymbol Form.fnName = true) (each : ∀ e ∈ body, Agrees e) :
    Agrees (.list n (head :: .vector m ps :: body)) := by
  intro s i st linked hi
  obtain ⟨filled, hsession, hparams⟩ := defineParams_eq linked i ps [] st
  have grown := grown_opened filled linked hi
  rw [walk, if_pos hfn, Inference.infer, if_pos hfn]
  dsimp only
  rw [hparams, show s.child i = s.opened i [] from rfl]
  generalize (s.opened i []).defineParams s.chains.length ps st = params at hsession ⊢
  obtain ⟨⟨ps', st', result⟩, s'⟩ := params
  dsimp only at hsession
  subst hsession
  cases result with
  | error f => exact ⟨rfl, grown⟩
  | ok ts =>
    dsimp only [Except.map]
    split
    · exact ⟨rfl, grown⟩
    · obtain ⟨hbody, grown'⟩ := walkAll_leaves each st' grown.linked (lt_opened filled)
      rw [scope_opened filled linked hi] at hbody
      rw [← hbody]
      generalize (s.opened i filled).walkAll s.chains.length body st' = inner at grown' ⊢
      obtain ⟨⟨body', st'', result⟩, s''⟩ := inner
      cases result with
      | error f => exact ⟨rfl, grown.trans grown'⟩
      | ok results => exact ⟨rfl, grown.trans grown'⟩

/-- An application leaves what inference leaves, if its head and its operands do. It opens no scope
of its own. -/
theorem agrees_application {n : Note} {head : Form Note} {rest : List (Form Note)}
    (happ : head.isSymbol Form.fnName = false) (hhead : Agrees head)
    (each : ∀ e ∈ rest, Agrees e) : Agrees (.list n (head :: rest)) := by
  intro s i st linked hi
  rw [walk.eq_def, Inference.infer.eq_def]
  simp only [happ, Bool.false_eq_true, if_false]
  cases Call.ofElements (head :: rest) with
  | error f => exact ⟨rfl, .refl linked⟩
  | ok shape =>
    obtain ⟨hcallee, grown⟩ := hhead st linked hi
    dsimp only
    rw [← hcallee]
    generalize s.walk i head st = callee at grown ⊢
    obtain ⟨⟨head', st', result⟩, s'⟩ := callee
    cases result with
    | error f => exact ⟨rfl, grown⟩
    | ok t =>
      obtain ⟨hoperands, grown'⟩ := walkAll_leaves each st' grown.linked (grown.lt hi)
      rw [grown.scope linked hi] at hoperands
      dsimp only
      rw [← hoperands]
      generalize s'.walkAll i rest st' = operands at grown' ⊢
      obtain ⟨⟨rest', st'', result⟩, s''⟩ := operands
      cases result with
      | error f => exact ⟨rfl, grown.trans grown'⟩
      | ok ts => exact ⟨rfl, grown.trans grown'⟩

/-- A list that starts as a function definition and has no vector of parameters opens no scope. -/
theorem walk_noParameters {s : Session} {i : Nat} {st : State} {n : Note} {head : Form Note}
    {rest : List (Form Note)} (hfn : head.isSymbol Form.fnName = true)
    (hrest : ∀ m ps body, rest = .vector m ps :: body → False) :
    s.walk i (.list n (head :: rest)) st =
      (⟨.list n (head :: rest), st, .error ⟨.noParameters, n.span⟩⟩, s) := by
  rw [walk, if_pos hfn]
  exact hrest

/-- A pass in the session leaves what inference leaves, and whatever the form is and wherever the
pass ends, it only opens scopes and fills their frames. So inference may be studied with scopes as
values. -/
theorem agrees (e : Form Note) : Agrees e := by
  induction e using Form.ind with
  | symbol n name =>
    intro s i st linked hi
    rw [walk, Inference.infer]
    cases (s.scope i).lookup? name with
    | some t => exact ⟨rfl, .refl linked⟩
    | none => exact ⟨rfl, .refl linked⟩
  | string n v | number n v | bare n | empty n =>
    intro s i st linked hi
    exact ⟨rfl, .refl linked⟩
  | vector n es ih => exact agrees_vector ih
  | headOnly n head hfn =>
    intro s i st linked hi
    rw [walk_noParameters hfn (by simp), Inference.infer_noParameters hfn (by simp)]
    exact ⟨rfl, .refl linked⟩
  | function n head m ps es hfn _ ihes => exact agrees_function hfn ihes
  | malformed n head p es hfn hp _ =>
    intro s i st linked hi
    rw [walk_noParameters hfn (by simp_all), Inference.infer_noParameters hfn (by simp_all)]
    exact ⟨rfl, .refl linked⟩
  | application n head es happ ihhead ihes => exact agrees_application happ ihhead ihes

end Session

end TypedSexp
