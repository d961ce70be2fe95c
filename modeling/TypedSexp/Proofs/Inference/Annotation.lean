import TypedSexp.Proofs.Inference.Relabelling

/-!
# What inference annotates

A form that has a type gets one noted at every form inside it, but for the head and the parameter
vector of each function definition, which keep their notes as they were. Nothing else changes:
kinds, names, values, the order of elements and places stay (`Form.Annotates`).

What inference notes does not depend on places, on the values of literals, or on the types that
were noted before. Two forms that differ in these only have the same outline (`Form.outline`), and
inference gives them the same types at the same forms and the same solution, or the same fault at
possibly different places (`Inference.run_annotates_exactly`). Both runs are compared with the run
over their outline, to which each is related by a relabelling that takes all of these away.

Nothing is said here about the types themselves, nor about a run that fails, which returns no form.
-/

namespace TypedSexp

/-- A note is filled: it keeps its place and has a type. -/
structure Note.Fills (n n' : Note) : Prop where
  span_eq : n'.span = n.span
  typed : n'.type.isSome = true

/-- Giving a note a type and applying a substitution to it fills the note: the place stays, and some
type is there. -/
theorem Note.fills_apply (n : Note) (t : Ty) (s : Substitution) :
    n.Fills ((n.withType t).apply s) := ⟨rfl, rfl⟩

namespace Form

mutual

/-- The second form is the first one with the notes filled that typing fills. -/
inductive Annotates : Form Note → Form Note → Prop
  | symbol {n n' : Note} {s : String} (note : n.Fills n') :
      Annotates (.symbol n s) (.symbol n' s)
  | string {n n' : Note} {v : String} (note : n.Fills n') :
      Annotates (.string n v) (.string n' v)
  | number {n n' : Note} {v : Number} (note : n.Fills n') :
      Annotates (.number n v) (.number n' v)
  | vector {n n' : Note} {es es' : List (Form Note)} (note : n.Fills n')
      (elements : AnnotatesAll es es') : Annotates (.vector n es) (.vector n' es')
  /-- The notes of the head and of the parameter vector are the same after as before. -/
  | function {n n' head m : Note} {ps ps' body body' : List (Form Note)} (note : n.Fills n')
      (params : AnnotatesAll ps ps') (inner : AnnotatesAll body body') :
      Annotates (.list n (.symbol head fnName :: .vector m ps :: body))
        (.list n' (.symbol head fnName :: .vector m ps' :: body'))
  | application {n n' : Note} {head head' : Form Note} {operands operands' : List (Form Note)}
      (note : n.Fills n') (plain : head.isSymbol fnName = false) (callee : Annotates head head')
      (arguments : AnnotatesAll operands operands') :
      Annotates (.list n (head :: operands)) (.list n' (head' :: operands'))

/-- The second forms are the first ones with the notes filled that typing fills. -/
inductive AnnotatesAll : List (Form Note) → List (Form Note) → Prop
  | nil : AnnotatesAll [] []
  | cons {e e' : Form Note} {es es' : List (Form Note)} (first : Annotates e e')
      (rest : AnnotatesAll es es') : AnnotatesAll (e :: es) (e' :: es')

end

mutual

/-- A form that typing went over holds no bare form. The pass refuses bare forms wherever it meets
them, and it goes over everything but heads and parameter vectors of functions, which are forms of
other kinds. -/
theorem Annotates.isComplete : ∀ {e e' : Form Note}, Annotates e e' → e'.isComplete = true
  | _, _, .symbol _ => rfl
  | _, _, .string _ => rfl
  | _, _, .number _ => rfl
  | _, _, .vector _ elements => elements.areComplete
  | _, _, .function _ params inner => by
    show (true && (areComplete _ && areComplete _)) = true
    rw [params.areComplete, inner.areComplete]
    rfl
  | _, _, .application _ _ callee arguments => by
    show (isComplete _ && areComplete _) = true
    rw [callee.isComplete, arguments.areComplete]
    rfl

theorem AnnotatesAll.areComplete :
    ∀ {es es' : List (Form Note)}, AnnotatesAll es es' → areComplete es' = true
  | _, _, .nil => rfl
  | _, _, .cons first rest => by
    show (isComplete _ && areComplete _) = true
    rw [first.isComplete, rest.areComplete]
    rfl

end

/-- What is left of a form without places, types and the values of literals. -/
def outline (e : Form Note) : Form Note :=
  e.alter
    { slot := fun _ => {}
      other := fun _ => {}
      text := fun _ => ""
      number := fun _ => .int 0 }

/-- The outline of a form with the types that typing fills in. -/
def typing (e : Form Note) : Form Note :=
  e.alter
    { slot := fun n => { type := n.type }
      other := fun _ => {}
      text := fun _ => ""
      number := fun _ => .int 0 }

end Form

namespace Inference

open Form (Annotates AnnotatesAll)

/-! ## The positions that are filled -/

section Pass

variable (s : Substitution)

/-- Parameters are symbols, and each has its note filled with a variable of its own. -/
theorem AssignsParams.annotates {st st' : State} {ps ps' : List (Form Note)}
    {bs : List (String × Ty)} (h : AssignsParams st ps ps' bs st') :
    AnnotatesAll ps (Form.applyAll s ps') := by
  induction h with
  | nil => exact .nil
  | cons rest ih => exact .cons (.symbol (Note.fills_apply _ _ s)) ih

mutual

/-- The pass fills the notes, and applying a substitution keeps them filled. The induction is over
the rules of the pass, so the step from notes to types is made in each of them. -/
theorem Assigns.annotates : ∀ {scope : Scope} {st st' : State} {e e' : Form Note} {t : Ty},
    Assigns scope st e e' t st' → Annotates e (e'.applySubstitution s)
  | _, _, _, _, _, _, .symbol _ => .symbol (Note.fills_apply _ _ s)
  | _, _, _, _, _, _, .string => .string (Note.fills_apply _ _ s)
  | _, _, _, _, _, _, .number => .number (Note.fills_apply _ _ s)
  | _, _, _, _, _, _, .vector elements => by
    rw [Form.applySubstitution]
    exact .vector (Note.fills_apply _ _ s) elements.annotates
  | _, _, _, _, _, _, .function params inner _ => by
    rw [Form.applySubstitution_function]
    exact .function (Note.fills_apply _ _ s) (params.annotates s) inner.annotates
  | _, _, _, _, _, _, .application plain _ callee arguments => by
    have hplain := (Form.isSymbol_congr callee.untyped_eq Form.fnName).trans plain
    rw [Form.applySubstitution_application hplain]
    exact .application (Note.fills_apply _ _ s) plain callee.annotates arguments.annotates

theorem AssignsAll.annotates : ∀ {scope : Scope} {st st' : State} {es es' : List (Form Note)}
    {ts : List Ty}, AssignsAll scope st es es' ts st' → AnnotatesAll es (Form.applyAll s es')
  | _, _, _, _, _, _, .nil => .nil
  | _, _, _, _, _, _, .cons first rest => .cons first.annotates rest.annotates

theorem AssignsEach.annotates : ∀ {scope : Scope} {element : Ty} {st st' : State}
    {es es' : List (Form Note)}, AssignsEach scope element st es es' st' →
      AnnotatesAll es (Form.applyAll s es')
  | _, _, _, _, _, _, .nil => .nil
  | _, _, _, _, _, _, .cons first rest => .cons first.annotates rest.annotates

end

end Pass

/-- What a run returns is the form that it was given, with the notes at typed positions filled. -/
theorem annotates_of_run {scope : Scope} {form : Form Note} {next : Nat} {r : Inferred}
    (h : (run scope form next).1 = .ok r) : Annotates form r.form := by
  obtain ⟨e, t, st, assigns, -, hform, -⟩ := exists_assigns_of_run h
  rw [hform]
  exact assigns.annotates r.substitution

/-! ## What the types depend on -/

/-- The relabelling that leaves the outline of a form. -/
def outlining : Relabelling :=
  { Relabelling.unchanged with
    place := fun _ => none
    noted := fun _ => none
    text := fun _ => ""
    number := fun _ => .int 0 }

/-- Two outcomes note the same types and have the same solution, or the same is said of them. -/
inductive SameTyping : Except TypeFault Inferred → Except TypeFault Inferred → Prop
  | ok {r r' : Inferred} (types : r'.form.typing = r.form.typing) (root : r'.type = r.type)
      (substitution : r'.substitution = r.substitution)
      (count : r'.constraintCount = r.constraintCount) : SameTyping (.ok r) (.ok r')
  | error {f f' : TypeFault} (kind : f'.diagnostic.kind = f.diagnostic.kind)
      (detail : f'.diagnostic.detail = f.diagnostic.detail)
      (terms : f'.diagnostic.terms = f.diagnostic.terms) : SameTyping (.error f) (.error f')

/-- The run over the outline of a form is the run over the form, with places and the notes of heads
and parameter vectors left out. So nothing that the outline leaves out can change a type. -/
theorem run_outline (scope : Scope) (form : Form Note) (next : Nat) :
    (run scope form.outline next).1 =
      ((run scope form next).1.map fun r => { r with form := r.form.typing }).mapError
        fun f => { f with span := none } := by
  have hscope : ScopeRelabelled outlining scope scope :=
    scopeRelabelled_of_eq rfl fun _ t _ => Ty.rename_id t
  have hrun := run_relabel hscope form (Nat.zero_le next)
  have hresult : Inferred.relabel outlining = fun r => { r with form := r.form.typing } :=
    funext (Inferred.relabel_of_id rfl)
  have hfault : TypeFault.relabel outlining = fun f => { f with span := none } :=
    funext (TypeFault.relabel_of_id rfl)
  rw [hresult, hfault] at hrun
  exact congrArg Prod.fst hrun

/-- Forms with the same outline have the same typing, since both are compared with the run over that
outline. Places may differ, and with them the places of faults. -/
theorem sameTyping_of_outline {scope : Scope} {form form' : Form Note}
    (h : form'.outline = form.outline) (next : Nat) :
    SameTyping (run scope form next).1 (run scope form' next).1 := by
  have hsame := run_outline scope form' next
  rw [h, run_outline] at hsame
  generalize (run scope form next).1 = o at hsame ⊢
  generalize (run scope form' next).1 = o' at hsame ⊢
  cases o with
  | ok r =>
    cases o' with
    | error f => cases hsame
    | ok r' =>
      have heq := Except.ok.inj hsame
      exact .ok (congrArg Inferred.form heq).symm (congrArg Inferred.type heq).symm
        (congrArg Inferred.substitution heq).symm (congrArg Inferred.constraintCount heq).symm
  | error f =>
    cases o' with
    | ok r' => cases hsame
    | error f' =>
      have hcause : f'.cause = f.cause := (congrArg TypeFault.cause (Except.error.inj hsame)).symm
      exact .error (congrArg TypeFault.Cause.kind hcause) (congrArg TypeFault.Cause.detail hcause)
        (congrArg TypeFault.Cause.terms hcause)

/-- **Inference annotates the typed positions and nothing else.** A run that succeeds returns the
form with a type noted at every form inside it but the head and the parameter vector of each
function definition, and with all else as it was. Two forms with the same outline get the same
types and the same solution, of equally many constraints, or faults of the same kind, detail and
types. -/
theorem run_annotates_exactly (scope : Scope) (form : Form Note) (next : Nat) :
    (∀ r, (run scope form next).1 = .ok r → Annotates form r.form) ∧
      ∀ form', form'.outline = form.outline →
        SameTyping (run scope form next).1 (run scope form' next).1 :=
  ⟨fun _ h => annotates_of_run h, fun _ h => sameTyping_of_outline h next⟩

/-- Types that were noted at the head and at the parameters of a function before stay where nothing
is noted and are replaced where something is. Another number at another place is typed the same. -/
theorem run_annotates_exactly_stale :
    let stale : Form Note := .list {} [.list {} [.symbol { type := some .string } "fn",
      .vector { type := some .number } [.symbol { type := some .string } "x"], .symbol {} "x"],
      .number {} (.int 1)]
    let other : Form Note := .list {} [.list {} [.symbol {} "fn", .vector {} [.symbol {} "x"],
      .symbol {} "x"], .number { span := some ⟨12, 13⟩ } (.int 7)]
    ∃ r, (run [Frame.standard 0] stale 3).1 = .ok r ∧ Annotates stale r.form ∧
      r.form = .list { type := some .number } [.list { type := some (.fn [.number] .number) }
        [.symbol { type := some .string } "fn",
          .vector { type := some .number } [.symbol { type := some .number } "x"],
          .symbol { type := some .number } "x"], .number { type := some .number } (.int 1)] ∧
      SameTyping (.ok r) (run [Frame.standard 0] other 3).1 := by
  intro stale other
  have assigns : Assigns [Frame.standard 0] { next := 3 } stale _ _ _ :=
    .application rfl nofun (.function (.cons .nil) (.cons (.symbol rfl) .nil) rfl)
      (.cons .number .nil)
  have solved : Solver.run { pending := [⟨.fn [.var ⟨3, 0⟩] (.var ⟨3, 0⟩),
      .fn [.number] (.var ⟨4, 0⟩), none⟩] } =
      .ok [(⟨3, 0⟩, .var ⟨4, 0⟩), (⟨4, 0⟩, .number)] := by
    cbv
  have h := run_of_assigns assigns solved
  obtain ⟨annotates, same⟩ := run_annotates_exactly [Frame.standard 0] stale 3
  refine ⟨_, h, annotates _ h, rfl, ?_⟩
  rw [← h]
  exact same other rfl

end Inference

end TypedSexp
