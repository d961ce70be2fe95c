import TypedSexp.Proofs.Inference.Independence
import TypedSexp.Session

/-!
# Independence of the past

Operations of a session that define nothing may move its supply and open new scopes. They
keep what every scope sees (`Session.scope_afterAll`), and they keep the supply beyond all
variables that are bound (`Session.Reached.sound`). So inference in a scope answers the same,
whatever came before, as long as the scope sees the same bindings.

Operations that define a name are left out here. After them a scope may see other bindings, and
inference may answer otherwise.
-/

namespace TypedSexp

namespace Session

/-- An operation that defines nothing. -/
inductive Op where
  | fresh
  | infer (scope : Nat) (form : Form Note)
  | lookup (scope : Nat) (name : String)
  | child (scope : Nat)

/-- The session after an operation. -/
def after (s : Session) : Op → Session
  | .fresh => s.fresh.2
  | .infer i form => (s.infer i form).2
  | .lookup _ _ => s
  | .child i => s.child i

/-- The session after several operations. -/
def afterAll (s : Session) (ops : List Op) : Session := ops.foldl after s

/-- The sessions that operations and definitions lead to. A definition uses no variable that
the supply is still to hand out. -/
inductive Reached : Session → Prop
  | start (next : Nat) : Reached (start next)
  | after {s : Session} (reached : Reached s) (op : Op) : Reached (s.after op)
  | define {s s' : Session} (reached : Reached s) {i : Nat} {name : String} {t : Ty}
      (issued : t.Issued s.next) (defined : s.define i name t = .ok s') : Reached s'

/-- What an inference says: the type as it is shown, or the message of the failure. -/
def answer (s : Session) (i : Nat) (form : Form Note) : Except String String :=
  ((s.infer i form).1.map fun r => r.type.pretty).mapError fun f => f.diagnostic.message

/-! ## What every session keeps -/

/-- All variables that are bound are issued, and chains hold numbers of frames. -/
structure Sound (s : Session) : Prop where
  issued : ∀ f ∈ s.frames, ∀ b ∈ f.bindings, b.2.Issued s.next
  inRange : ∀ chain ∈ s.chains, ∀ k ∈ chain, k < s.frames.length

/-- At the start every frame is issued and every chain leads to frames that are there. -/
theorem sound_start (next : Nat) : (start next).Sound where
  issued := by
    simp only [start, List.forall_mem_cons]
    exact ⟨Frame.issued_standard next, by simp, by simp⟩
  inRange := by simp [start]

namespace Sound

variable {s s' : Session}

/-- Moving the supply forward is all that `fresh` and `infer` do, and it keeps a session sound. -/
theorem mono (h : s.Sound) {next : Nat} (le : s.next ≤ next) : Sound { s with next } where
  issued f hf b hb := (h.issued f hf b hb).mono le
  inRange := h.inRange

/-- Opening a scope keeps a session sound. The new frame is empty, so no variable is bound in it. -/
theorem child (h : s.Sound) (i : Nat) : (s.child i).Sound where
  issued := by
    intro f hf b hb
    rcases List.mem_append.mp hf with hf | hf
    · exact h.issued f hf b hb
    · rw [List.mem_singleton.mp hf] at hb
      cases hb
  inRange := by
    intro chain hchain k hk
    have hlength : (s.child i).frames.length = s.frames.length + 1 := by simp [Session.child]
    have hrange : ∀ chain ∈ s.chains, ∀ k ∈ chain, k < s.frames.length + 1 :=
      fun chain hchain k hk => Nat.lt_succ_of_lt (h.inRange chain hchain k hk)
    rw [hlength]
    rcases List.mem_append.mp hchain with hchain | hchain
    · exact hrange chain hchain k hk
    · rw [List.mem_singleton.mp hchain] at hk
      rcases List.mem_cons.mp hk with rfl | hk
      · exact Nat.lt_succ_self _
      · cases hi : s.chains[i]? with
        | none =>
          rw [hi] at hk
          cases hk
        | some outer =>
          rw [hi] at hk
          exact hrange outer (List.mem_of_getElem? hi) k hk

/-- Every operation that defines nothing keeps a session sound. -/
theorem after (h : s.Sound) (op : Op) : (s.after op).Sound := by
  cases op with
  | fresh => exact h.mono (Nat.le_succ s.next)
  | infer i form => exact h.mono (Inference.le_run (s.scope i) form s.next)
  | lookup i name => exact h
  | child i => exact h.child i

/-- A definition keeps a session sound, if its type is one of issued variables. A type from
elsewhere might hold a variable that is still to be handed out. -/
theorem define (h : s.Sound) {i : Nat} {name : String} {t : Ty} (issued : t.Issued s.next)
    (defined : s.define i name t = .ok s') : s'.Sound := by
  have hold : ∀ b ∈ (s.frames[i]?.getD {}).bindings, b.2.Issued s.next := by
    cases hi : s.frames[i]? with
    | none => exact fun b hb => nomatch hb
    | some f => exact h.issued f (List.mem_of_getElem? hi)
  rw [Session.define, Frame.define] at defined
  split at defined
  · cases defined
  · cases defined
    constructor
    case issued =>
      intro f hf b hb
      rcases List.mem_or_eq_of_mem_set hf with hf | rfl
      · exact h.issued f hf b hb
      · rcases Entries.snd_eq_or_mem_of_mem_put hb with hb | hb
        · exact hb ▸ issued
        · exact hold b hb
    case inRange =>
      intro chain hchain k hk
      rw [List.length_set]
      exact h.inRange chain hchain k hk

/-- What a scope sees is issued, so inference in it hands out no variable that is in use. -/
theorem issued_scope (h : s.Sound) (i : Nat) : (s.scope i).context.Issued s.next := by
  refine Scope.issued_of_bindings fun f hf => h.issued f ?_
  obtain ⟨k, _, hk⟩ := List.mem_filterMap.mp hf
  exact List.mem_of_getElem? hk

end Sound

theorem Reached.sound {s : Session} (h : s.Reached) : s.Sound := by
  induction h with
  | start next => exact sound_start next
  | after _ op ih => exact ih.after op
  | define _ issued defined ih => exact ih.define issued defined

/-! ## What operations keep -/

/-- An operation keeps the scopes there are and what each of them sees. A new scope gets a number
that no scope had. -/
theorem scope_after {s : Session} (h : s.Sound) (op : Op) {i : Nat} (hi : i < s.chains.length) :
    i < (s.after op).chains.length ∧ (s.after op).scope i = s.scope i := by
  cases op with
  | fresh => exact ⟨hi, rfl⟩
  | infer j form => exact ⟨hi, rfl⟩
  | lookup j name => exact ⟨hi, rfl⟩
  | child j =>
    have hchain : (s.child j).chains[i]? = s.chains[i]? := List.getElem?_append_left hi
    refine ⟨?_, ?_⟩
    · simp only [after, child, List.length_append]
      omega
    · -- The new frame comes after all frames that the chain holds.
      rw [scope, scope, after, hchain, List.getElem?_eq_getElem hi, Option.getD_some]
      refine List.filterMap_congr fun k hk => ?_
      exact List.getElem?_append_left (h.inRange _ (List.getElem_mem hi) k hk)

theorem Sound.afterAll {s : Session} (h : s.Sound) (ops : List Op) : (s.afterAll ops).Sound := by
  induction ops generalizing s with
  | nil => exact h
  | cons op ops ih => exact ih (h.after op)

/-- Operations in a row keep what a scope sees, whatever they answered. They define nothing and may
only add scopes. -/
theorem scope_afterAll {s : Session} (h : s.Sound) (ops : List Op) {i : Nat}
    (hi : i < s.chains.length) : (s.afterAll ops).scope i = s.scope i := by
  induction ops generalizing s with
  | nil => rfl
  | cons op ops ih =>
    obtain ⟨hi', hscope⟩ := scope_after h op hi
    exact (ih (h.after op) hi').trans hscope

/-- Scopes that see the same bindings give the same answers, wherever the supplies stand. Both
supplies are beyond the variables that are bound, so the runs differ by names only. -/
theorem answer_eq {s s' : Session} (h : s.Sound) (h' : s'.Sound) {i j : Nat}
    (same : (s'.scope j).context = (s.scope i).context) (form : Form Note) :
    s'.answer j form = s.answer i form := by
  have hrun := Inference.run_sameOutcome same form (h.issued_scope i) (h'.issued_scope j)
  unfold answer infer
  generalize Inference.run (s.scope i) form s.next = o at hrun ⊢
  generalize Inference.run (s'.scope j) form s'.next = o' at hrun ⊢
  obtain ⟨outcome, next⟩ := o
  obtain ⟨outcome', next'⟩ := o'
  cases hrun with
  | ok same => exact congrArg Except.ok same.typeText
  | error same => exact congrArg Except.error same.message

/-! ## Inference and its past -/

/-- Inference does not depend on the position of the supply: two runs over a form in a scope,
with supplies beyond the variables of the scope, have the same outcome up to the names of the
variables that they take. Nor does it depend on the past of a session: operations keep what
each scope sees, and inference in scopes that see the same answers the same. -/
theorem inference_ignores_past :
    (∀ (scope : Scope) (form : Form Note) (next next' : Nat), scope.context.Issued next →
      scope.context.Issued next' →
        Inference.SameOutcome (TyVar.move next next') (Inference.run scope form next).1
          (Inference.run scope form next').1) ∧
    ∀ s : Session, s.Reached → ∀ (ops : List Op) (i : Nat),
      (i < s.chains.length → (s.afterAll ops).scope i = s.scope i) ∧
      ∀ (j : Nat) (form : Form Note),
        ((s.afterAll ops).scope j).context = (s.scope i).context →
          (s.afterAll ops).answer j form = s.answer i form := by
  refine ⟨fun scope form next next' h h' => Inference.run_sameOutcome rfl form h h', ?_⟩
  intro s hs ops i
  exact ⟨scope_afterAll hs.sound ops, fun j form same =>
    answer_eq hs.sound (hs.sound.afterAll ops) same form⟩

/-- A function that is applied to itself fails, and takes variables before it does. A scope
opened after that answers like the one around it. -/
theorem inference_ignores_past_child :
    let loop : Form Note :=
      .list {} [.symbol {} "fn", .vector {} [.symbol {} "f"],
        .list {} [.symbol {} "f", .symbol {} "f"]]
    let form : Form Note :=
      .list {} [.symbol {} "fn", .vector {} [.symbol {} "x"], .symbol {} "x"]
    let ops := [Op.fresh, .infer 0 loop, .lookup 0 "map", .child 0]
    Inference.SameOutcome (TyVar.move 3 7) (Inference.run [Frame.standard 0] loop 3).1
        (Inference.run [Frame.standard 0] loop 7).1 ∧
      ((start 0).afterAll ops).scope 0 = (start 0).scope 0 ∧
      ((start 0).afterAll ops).answer 2 form = (start 0).answer 0 form := by
  intro loop form ops
  obtain ⟨hrun, hsession⟩ := inference_ignores_past
  obtain ⟨hkept, hanswer⟩ := hsession (start 0) (.start 0) ops 0
  refine ⟨hrun _ loop 3 7 (Scope.issued_standard 0) ?_, hkept (by decide), hanswer 2 form rfl⟩
  exact (Scope.issued_standard 0).mono (by decide)

end Session

end TypedSexp
