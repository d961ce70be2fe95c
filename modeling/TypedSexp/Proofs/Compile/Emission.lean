import TypedSexp.Compile
import TypedSexp.Proofs.Form.Notes
import TypedSexp.Proofs.Inference.Soundness
import TypedSexp.Proofs.Result

/-!
# Typed forms are emitted

Typing and emission go over a form on their own. Typing knows function definitions,
methods and plain applications; emission also knows infix operators, and looks for them
before it looks for methods. Yet a form that has a type is always emitted
(`Inference.Assigns.emits`): whatever emission refuses in a form, the pass of inference
reaches and refuses as well.

So a compilation that types its forms fails to read the source or to type a form, but never
to emit one (`Compile.emits_of_typed`).

Nothing is said about what a script does when it is run. The converse is no law either: with typing
off, emission takes forms that have no type, as it does not ask whether a name is bound.
-/

namespace TypedSexp

namespace Script

variable {α β : Type}

/-! ## Only the shape counts -/

/-- The names of parameters do not depend on notes, nor does whether something is refused as a
parameter. -/
theorem paramNames_mapAll (f : α → β) (ps : List (Form α)) :
    paramNames (Form.mapAll f ps) = paramNames ps := by
  induction ps with
  | nil => rfl
  | cons p ps ih =>
    cases p with
    | symbol n s => rw [Form.mapAll, Form.map, paramNames, paramNames, ih]
    | _ => rfl

theorem isSymbol_map (f : α → β) (name : String) (e : Form α) :
    (e.map f).isSymbol name = e.isSymbol name := by
  cases e <;> rfl

theorem operator?_map (f : α → β) (e : Form α) : operator? (e.map f) = operator? e := by
  cases e <;> rfl

theorem method?_map (f : α → β) (e : Form α) : method? (e.map f) = method? e := by
  cases e <;> rfl

/-- What is written for the callee of a call depends on the kind of form it is, and not on its
notes. -/
theorem calleeText_map (f : α → β) (e : Form α) (text : String) :
    calleeText (e.map f) text = calleeText e text := by
  have hfunction : (e.map f).isFunction = e.isFunction := by
    cases e with
    | list n es =>
      cases es with
      | nil => rfl
      | cons head rest => exact isSymbol_map f Form.fnName head
    | _ => rfl
  rw [calleeText, calleeText, hfunction]

/-- What is written before a method depends on the kind of form the receiver is, and not on its
notes. -/
theorem receiverText_map (f : α → β) (e : Form α) (text : String) :
    receiverText (e.map f) text = receiverText e text := by
  cases e with
  | number n x => rfl
  | _ => exact calleeText_map f _ text

mutual

/-- The script of a form does not depend on its notes. Failures are the same as well, so whether a
form is emitted does not depend on types. -/
theorem emit_map (f : α → β) : ∀ e : Form α, emit (e.map f) = emit e
  | .symbol .. => rfl
  | .string .. => rfl
  | .number .. => rfl
  | .bare _ => rfl
  | .vector n es => by rw [Form.map, emit, emit, emitAll_mapAll f es]
  | .list n [] => rfl
  | .list n (head :: rest) => by
    have hhead := emit_map f head
    have hrest := emitAll_mapAll f rest
    rw [Form.map, Form.mapAll, emit.eq_def (.list n (head :: rest)), emit.eq_def]
    simp only [isSymbol_map, operator?_map, method?_map, calleeText_map, hhead, hrest]
    split
    · cases rest with
      | nil => rfl
      | cons p body =>
        cases p with
        | vector m ps =>
          simp only [Form.mapAll, Form.map, paramNames_mapAll, emitAll_mapAll f body]
        | _ => rfl
    · split
      · rfl
      · split
        · cases rest with
          | nil => rfl
          | cons receiver arguments =>
            simp only [Form.mapAll, emit_map f receiver, emitAll_mapAll f arguments,
              receiverText_map]
        · rfl

theorem emitAll_mapAll (f : α → β) : ∀ es : List (Form α), emitAll (Form.mapAll f es) = emitAll es
  | [] => rfl
  | e :: es => by rw [Form.mapAll, emitAll, emitAll, emit_map f e, emitAll_mapAll f es]

end

/-! ## Applications -/

/-- Several forms are emitted only if each of them is. -/
theorem exists_of_emitAll_cons {e : Form α} {es : List (Form α)} {texts : List String}
    (h : emitAll (e :: es) = .ok texts) :
    ∃ text more, emit e = .ok text ∧ emitAll es = .ok more := by
  rw [emitAll] at h
  obtain ⟨text, he, h⟩ := exists_of_bind_eq_ok h
  obtain ⟨more, hes, -⟩ := exists_of_bind_eq_ok h
  exact ⟨text, more, he, hes⟩

/-- An application whose parts are emitted is emitted, whichever way it is written: between
its operands, as a method of the first of them, or as a call. -/
theorem exists_emit_application {n : α} {head : Form α} {operands : List (Form α)}
    {callee : String} {texts : List String} (plain : head.isSymbol Form.fnName = false)
    (target : HasTarget head operands) (hhead : emit head = .ok callee)
    (hoperands : emitAll operands = .ok texts) :
    ∃ text, emit (.list n (head :: operands)) = .ok text := by
  rw [emit.eq_def]
  simp only [plain, hhead, hoperands]
  cases operator? head with
  | some op => exact ⟨_, rfl⟩
  | none =>
    cases hmethod : method? head with
    | none => exact ⟨_, rfl⟩
    | some m =>
      cases operands with
      | nil =>
        -- A method without a form to be called on has no type.
        exfalso
        cases head with
        | symbol k s =>
          have hs : isMethodName s = true := by
            by_contra hs
            simp [method?, hs] at hmethod
          exact target k s rfl hs rfl
        | _ => cases hmethod
      | cons receiver arguments =>
        obtain ⟨r, args, hreceiver, harguments⟩ := exists_of_emitAll_cons hoperands
        simp only [hreceiver, harguments]
        exact ⟨_, rfl⟩

end Script

namespace Inference

/-! ## What has a type is emitted -/

/-- Parameters that typing takes are symbols, and so emission takes them too. The names are all that
emission asks of them. -/
theorem AssignsParams.exists_paramNames {st st' : State} {ps ps' : List (Form Note)}
    {bs : List (String × Ty)} (h : AssignsParams st ps ps' bs st') :
    ∃ names, Script.paramNames ps = .ok names := by
  induction h with
  | nil => exact ⟨[], rfl⟩
  | cons rest ih =>
    obtain ⟨names, hnames⟩ := ih
    rw [Script.paramNames, hnames]
    exact ⟨_, rfl⟩

mutual

/-- A form to which the pass gives a type is emitted. The pass and the emitter refuse the same
shapes of lists; the solution of the constraints plays no part. -/
theorem Assigns.emits : ∀ {scope : Scope} {st st' : State} {e e' : Form Note} {t : Ty},
    Assigns scope st e e' t st' → ∃ text, Script.emit e = .ok text
  | _, _, _, _, _, _, .symbol _ => ⟨_, rfl⟩
  | _, _, _, _, _, _, .string => ⟨_, rfl⟩
  | _, _, _, _, _, _, .number => ⟨_, rfl⟩
  | _, _, _, _, _, _, .vector elements => by
    obtain ⟨items, hitems⟩ := elements.emits
    rw [Script.emit, hitems]
    exact ⟨_, rfl⟩
  | _, _, _, _, _, _, .function params inner _ => by
    obtain ⟨names, hnames⟩ := params.exists_paramNames
    obtain ⟨lines, hlines⟩ := inner.emits
    rw [Script.emit, if_pos (by simp [Form.isSymbol]), hnames, hlines]
    exact ⟨_, rfl⟩
  | _, _, _, _, _, _, .application plain target callee arguments => by
    obtain ⟨c, hcallee⟩ := callee.emits
    obtain ⟨texts, harguments⟩ := arguments.emits
    exact Script.exists_emit_application plain target hcallee harguments

theorem AssignsAll.emits : ∀ {scope : Scope} {st st' : State} {es es' : List (Form Note)}
    {ts : List Ty}, AssignsAll scope st es es' ts st' → ∃ texts, Script.emitAll es = .ok texts
  | _, _, _, _, _, _, .nil => ⟨[], rfl⟩
  | _, _, _, _, _, _, .cons first rest => by
    obtain ⟨text, htext⟩ := first.emits
    obtain ⟨more, hmore⟩ := rest.emits
    rw [Script.emitAll, htext, hmore]
    exact ⟨_, rfl⟩

theorem AssignsEach.emits : ∀ {scope : Scope} {element : Ty} {st st' : State}
    {es es' : List (Form Note)}, AssignsEach scope element st es es' st' →
      ∃ texts, Script.emitAll es = .ok texts
  | _, _, _, _, _, _, .nil => ⟨[], rfl⟩
  | _, _, _, _, _, _, .cons first rest => by
    obtain ⟨text, htext⟩ := first.emits
    obtain ⟨more, hmore⟩ := rest.emits
    rw [Script.emitAll, htext, hmore]
    exact ⟨_, rfl⟩

end

/-- A form that a run types is emitted, and the types it was given do not show. -/
theorem exists_emit_of_run {scope : Scope} {form : Form Note} {next : Nat} {r : Inferred}
    (h : (run scope form next).1 = .ok r) :
    ∃ text, Script.emit form = .ok text ∧ Script.emit r.form = .ok text := by
  obtain ⟨e, t, st, assigns, -⟩ := exists_assigns_of_run h
  obtain ⟨text, htext⟩ := assigns.emits
  refine ⟨text, htext, ?_⟩
  rw [← Script.emit_map Note.span r.form, ← Form.untyped, untyped_of_run h, Form.untyped,
    Script.emit_map, htext]

end Inference

namespace Compile

/-! ## Compilations that type their forms -/

/-- With typing on, the only fault of a form is one of its types, since what has been typed is
emitted. -/
theorem exists_typeFault_of_form {o : Options} (infers : o.infers = true) {index : Nat}
    {e : Form Note} {d : Diagnostic} (h : form o index e = .error d) :
    ∃ f : TypeFault, d = f.diagnostic := by
  rw [form, typeForm, if_pos infers] at h
  cases hrun : e.infer with
  | error f =>
    rw [hrun] at h
    cases h
    exact ⟨f, rfl⟩
  | ok r =>
    rw [hrun] at h
    obtain ⟨text, -, htext⟩ := Inference.exists_emit_of_run hrun
    change emitForm o _ = _ at h
    rw [emitForm] at h
    split at h
    · rw [htext] at h
      cases h
    · cases h

theorem exists_typeFault_of_forms {o : Options} (infers : o.infers = true) {index : Nat}
    {es : List (Form Note)} {d : Diagnostic} (h : forms o index es = .error d) :
    ∃ f : TypeFault, d = f.diagnostic := by
  induction es generalizing index with
  | nil => cases h
  | cons e es ih =>
    rw [forms] at h
    rcases eq_error_or_of_bind_eq_error h with hfirst | ⟨r, -, h⟩
    · exact exists_typeFault_of_form infers hfirst
    rcases eq_error_or_of_bind_eq_error h with hrest | ⟨rs, -, h⟩
    · exact ih hrest
    · cases h

end Compile

/-- No fault of reading a source is one of emission. -/
theorem ParseFault.diagnostic_ne_emit (f : ParseFault) :
    f.diagnostic.stage ≠ .compile ∧ f.diagnostic.kind ≠ "emit failure" := by
  cases f with
  | lex f => cases f <;> simp [diagnostic, LexFault.diagnostic]
  | read f => cases f <;> simp [diagnostic, ReadFault.diagnostic]

/-- No fault of typing a form is one of emission. -/
theorem TypeFault.diagnostic_ne_emit (f : TypeFault) :
    f.diagnostic.stage ≠ .compile ∧ f.diagnostic.kind ≠ "emit failure" := by
  obtain ⟨cause, span⟩ := f
  cases cause with
  | mismatch m => cases m <;> simp [diagnostic, Cause.kind, Mismatch.kind]
  | _ => simp [diagnostic, Cause.kind]

namespace Compile

/-- **Typed forms are always emitted.** In any scope, a form that has a type has a script, the
same before and after its types are noted. So a compilation with typing on never fails to
emit. -/
theorem emits_of_typed :
    (∀ (scope : Scope) (form : Form Note) (next : Nat) (r : Inferred),
      (Inference.run scope form next).1 = .ok r →
        ∃ text, Script.emit form = .ok text ∧ Script.emit r.form = .ok text) ∧
    ∀ (o : Options) (filename source : String) (d : Diagnostic), o.infers = true →
      compile o filename source = .error d → d.stage ≠ .compile ∧ d.kind ≠ "emit failure" := by
  refine ⟨fun _ _ _ _ => Inference.exists_emit_of_run, ?_⟩
  intro o filename source d infers h
  rw [compile] at h
  cases hparse : Form.parse source with
  | error f =>
    rw [hparse] at h
    cases h
    exact f.diagnostic_ne_emit
  | ok es =>
    rw [hparse] at h
    have hforms : forms o 0 es = .error d := eq_error_of_map_eq_error h
    obtain ⟨f, rfl⟩ := exists_typeFault_of_forms infers hforms
    exact f.diagnostic_ne_emit

/-- A method with a target has a type and a script. One without a target is refused by
emission, but where types are given it fails before. -/
theorem emits_of_typed_method :
    let scope : Scope := [Frame.standard 0]
    let form : Form Note := .list {} [.symbol {} ".concat", .vector {} [], .vector {} []]
    let o : Options := { emits := true }
    (∃ r, (Inference.run scope form 3).1 = .ok r ∧
      ∃ text, Script.emit form = .ok text ∧ Script.emit r.form = .ok text) ∧
    ∃ d, o.infers = true ∧ compile o "f" "(.join)" = .error d ∧
      d.stage ≠ .compile ∧ d.kind ≠ "emit failure" := by
  intro scope form o
  have assigns : Inference.Assigns scope { next := 3 } form _ _ _ :=
    .application rfl (by rintro _ _ ⟨⟩ _ ⟨⟩) (.symbol rfl)
      (.cons (.vector .nil) (.cons (.vector .nil) .nil))
  have solved : Solver.run { pending := [⟨.fn [.array (.var ⟨2, 0⟩), .array (.var ⟨2, 0⟩)]
      (.array (.var ⟨2, 0⟩)), .fn [.array (.var ⟨3, 0⟩), .array (.var ⟨4, 0⟩)] (.var ⟨5, 0⟩),
      none⟩] } =
      .ok [(⟨5, 0⟩, .array (.var ⟨2, 0⟩)), (⟨2, 0⟩, .var ⟨4, 0⟩), (⟨4, 0⟩, .var ⟨3, 0⟩)] := by
    cbv
  have hrun := Inference.run_of_assigns assigns solved
  have hlexed : Lexed.ofSource "(.join)" = { tokens := [⟨.opener .paren, ⟨0, 1⟩⟩,
      ⟨.ident ".join", ⟨1, 6⟩⟩, ⟨.closer .paren, ⟨6, 7⟩⟩] } := by
    decide +kernel
  have hcompile : compile o "f" "(.join)" =
      .error (TypeFault.diagnostic ⟨.badCall (.noTarget ".join"), some ⟨0, 7⟩⟩) := by
    rw [compile, Form.parse, hlexed]
    rfl
  exact ⟨⟨_, hrun, emits_of_typed.1 _ _ _ _ hrun⟩, _, rfl, hcompile,
    emits_of_typed.2 _ _ _ _ rfl hcompile⟩

end Compile

end TypedSexp
