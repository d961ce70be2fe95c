import Mathlib.Logic.Relation
import TypedSexp.Proofs.Session.InPlace
import TypedSexp.Proofs.Session.Independence

/-!
# Lexical scoping

Scopes share frames: a scope sees the frames of the scopes around it, also what is defined in them
after it was opened. What a name means in a scope is said here by the operations alone that led to
the session. A child operation puts a scope inside another (`Session.parent?`), and the last
definition of a name in a frame is its type there (`Session.bound?`). A name then has the type of
the first frame that binds it, from the scope outward (`Session.Exposes`).

Every session is what its operations say (`Session.Past.mirrors`). So a lookup can be followed
outward one scope at a time (`Session.Mirrors.lookup?_eq`), and everything else is read from that.
Inference changes nothing that a scope sees, also if it opens its scopes in the session
(`Session.walk`).

Only sessions that operations lead to are meant. Which types inference finds for a form is left out;
here it matters only that finding them defines nothing.
-/

namespace TypedSexp

namespace Session

/-! ## Operations -/

/-- An operation of a session. -/
inductive Operation where
  | define (scope : Nat) (name : String) (t : Ty)
  | contains (scope : Nat) (name : String)
  /-- An operation that defines nothing. -/
  | other (op : Op)

namespace Operation

/-- The scope in which an operation is carried out, if it is carried out in one. -/
def scope? : Operation → Option Nat
  | .define i _ _ => some i
  | .contains i _ => some i
  | .other .fresh => none
  | .other (.infer i _) => some i
  | .other (.lookup i _) => some i
  | .other (.child i) => some i

/-- The scope that an operation opens a new scope in. -/
def opens? : Operation → Option Nat
  | .other (.child i) => some i
  | _ => none

/-- The type that an operation gives a name in a scope. -/
def gives? (i : Nat) (name : String) : Operation → Option Ty
  | .define j n t => if j = i ∧ n = name then some t else none
  | _ => none

end Operation

/-- The session after an operation. -/
def performed (s : Session) : Operation → Session
  | .define i name t => s.defined i name t
  | .contains _ _ => s
  | .other op => s.after op

/-- The sessions that operations lead to, each carried out in a scope that is there. -/
inductive Past (next : Nat) : List Operation → Session → Prop
  | start : Past next [] (start next)
  | step {ops : List Operation} {s : Session} (past : Past next ops s) (op : Operation)
      (known : ∀ i ∈ op.scope?, i < s.chains.length) : Past next (ops ++ [op]) (s.performed op)

/-! ## What operations say about scopes -/

/-- The scope around a scope. The first two scopes have none around them, and every other one was
opened by an operation. -/
def parent? (ops : List Operation) : Nat → Option Nat
  | 0 => none
  | 1 => none
  | k + 2 => (ops.filterMap Operation.opens?)[k]?

/-- The type of a name in the frame of a scope: the last that was defined there. Nothing is defined
in the standard frame, which has its names from the start. -/
def bound? (next : Nat) (ops : List Operation) (i : Nat) (name : String) : Option Ty :=
  if i = 0 then Entries.get? name (Frame.standard next).bindings
  else (ops.filterMap (Operation.gives? i name)).getLast?

/-- A scope is the other one or around it. -/
def Around (ops : List Operation) : Nat → Nat → Prop :=
  Relation.ReflTransGen fun i p => parent? ops i = some p

/-- From a scope outward no frame binds a name before that of the other scope. -/
def Exposes (next : Nat) (ops : List Operation) (name : String) : Nat → Nat → Prop :=
  Relation.ReflTransGen fun i p => bound? next ops i name = none ∧ parent? ops i = some p

section Reading

variable {next : Nat} {ops : List Operation} {op : Operation}

/-- Opening a scope comes after all that were opened before. -/
theorem opens_child (ops : List Operation) (i : Nat) :
    (ops ++ [Operation.other (.child i)]).filterMap Operation.opens? =
      ops.filterMap Operation.opens? ++ [i] := List.filterMap_append

/-- An operation that opens no scope changes no scope's place. -/
theorem parent?_append (h : op.opens? = none) (k : Nat) :
    parent? (ops ++ [op]) k = parent? ops k := by
  rcases k with _ | _ | k
  · rfl
  · rfl
  · simp [parent?, h]

/-- A scope that is opened is inside the scope that it is opened in, and no other scope changes its
place. -/
theorem parent?_child (i k : Nat) : parent? (ops ++ [.other (.child i)]) k =
    if k = 2 + (ops.filterMap Operation.opens?).length then some i else parent? ops k := by
  rcases k with _ | _ | k
  · rw [if_neg (by omega)]
    rfl
  · rw [if_neg (by omega)]
    rfl
  · rw [parent?, opens_child]
    by_cases hk : k = (ops.filterMap Operation.opens?).length
    · rw [if_pos (by omega), hk, List.getElem?_concat_length]
    · rw [if_neg (by omega), List.getElem?_append]
      split
      · rfl
      · rw [List.getElem?_eq_none (by simp; omega), parent?, List.getElem?_eq_none (by omega)]

/-- An operation that gives a name no type in a frame leaves it as it was there. -/
theorem bound?_append {i : Nat} {name : String} (h : op.gives? i name = none) :
    bound? next (ops ++ [op]) i name = bound? next ops i name := by
  simp [bound?, h]

/-- A definition outside the standard frame is the last for its name there, whether or not the name
had one before. -/
theorem bound?_define {i : Nat} (hi : i ≠ 0) (name : String) (t : Ty) :
    bound? next (ops ++ [.define i name t]) i name = some t := by
  simp [bound?, hi, Operation.gives?]

/-- A definition changes nothing else that frames bind, neither other names in its frame nor the
same name in other frames. -/
theorem bound?_define_of_ne {i k : Nat} {name other : String} (h : ¬(i = k ∧ name = other))
    (t : Ty) : bound? next (ops ++ [.define i name t]) k other = bound? next ops k other :=
  bound?_append (if_neg h)

end Reading

/-! ## Sessions are what their operations say -/

/-- The frames and chains of a session are those that operations say. -/
structure Mirrors (next : Nat) (ops : List Operation) (s : Session) : Prop where
  frames : s.frames.length = s.chains.length
  count : s.chains.length = 2 + (ops.filterMap Operation.opens?).length
  standard : s.frames[0]? = some (Frame.standard next)
  /-- Only the standard frame is sealed. -/
  isSealed : ∀ {i f}, s.frames[i]? = some f → f.isSealed = true → i = 0
  /-- A frame binds what was defined in it. -/
  binds : ∀ i name, Entries.get? name (s.own i) = bound? next ops i name
  /-- A scope sees its own frame and then what the scope around it sees. -/
  sees : ∀ {i}, i < s.chains.length →
    s.chains[i]? = some (i :: ((parent? ops i).bind (s.chains[·]?)).getD [])
  /-- The scope around a scope was there before. -/
  outward : ∀ {i p}, parent? ops i = some p → p < i

namespace Mirrors

variable {next : Nat} {ops : List Operation} {s s' : Session}

/-- At the start the session is what no operations say: two scopes, of which the first has the
standard frame. -/
theorem start (next : Nat) : Mirrors next [] (start next) where
  frames := rfl
  count := rfl
  standard := rfl
  isSealed := by
    intro i f hf hsealed
    rcases i with _ | _ | i
    · rfl
    · cases hf
      cases hsealed
    · cases hf
  binds := by
    intro i name
    rcases i with _ | _ | i <;> rfl
  sees := by
    intro i hi
    rcases i with _ | _ | i
    · rfl
    · rfl
    · exact absurd hi (by simp [Session.start])
  outward := by
    intro i p hp
    rcases i with _ | _ | i <;> cases hp

/-- An operation that opens no scope and binds nothing, and so leaves every frame as it is. Lookups,
fresh variables and inference are such operations. -/
theorem quiet (m : Mirrors next ops s) {op : Operation} (opens : op.opens? = none)
    (binds : ∀ i name, bound? next (ops ++ [op]) i name = bound? next ops i name)
    (frames : s'.frames = s.frames) (chains : s'.chains = s.chains) :
    Mirrors next (ops ++ [op]) s' where
  frames := by rw [frames, chains]; exact m.frames
  count := by rw [chains, m.count]; simp [opens]
  standard := by rw [frames]; exact m.standard
  isSealed := by rw [frames]; exact m.isSealed
  binds := by
    intro i name
    rw [binds, own, frames]
    exact m.binds i name
  sees := by
    intro i hi
    rw [chains] at hi ⊢
    rw [parent?_append opens]
    exact m.sees hi
  outward := by
    intro i p hp
    rw [parent?_append opens] at hp
    exact m.outward hp

/-- Opening a scope adds a frame that binds nothing, and a chain that goes on where the scope around
is. -/
theorem child (m : Mirrors next ops s) {i : Nat} (hi : i < s.chains.length) :
    Mirrors next (ops ++ [.other (.child i)]) (s.child i) where
  frames := by simp [Session.child, m.frames]
  count := by
    rw [opens_child, Session.child, List.length_append, List.length_append, m.count, Nat.add_assoc]
    rfl
  standard := by
    have hpos : 0 < s.frames.length := by
      rw [m.frames]
      omega
    rw [Session.child, List.getElem?_append_left hpos]
    exact m.standard
  isSealed := by
    intro k f hf hsealed
    simp only [Session.child, List.getElem?_append] at hf
    split at hf
    · exact m.isSealed hf hsealed
    · rw [List.mem_singleton.mp (List.mem_of_getElem? hf)] at hsealed
      cases hsealed
  binds := by
    intro k name
    rw [bound?_append rfl, ← m.binds k name, own, own, Session.child]
    by_cases hk : k < s.frames.length
    · rw [List.getElem?_append_left hk]
    · rw [List.getElem?_eq_none (Nat.le_of_not_lt hk), List.getElem?_append_right (by omega)]
      -- What is beyond the frames is as empty as a frame that is new.
      cases k - s.frames.length with
      | zero => rfl
      | succ k => rfl
  sees := by
    intro k hk
    have hcount := m.count
    have hold : ∀ {j}, j < s.chains.length → (s.child i).chains[j]? = s.chains[j]? :=
      fun hj => List.getElem?_append_left hj
    rw [parent?_child, ← hcount]
    by_cases hnew : k = s.chains.length
    · rw [if_pos hnew, Option.bind_some, hold hi, hnew, Session.child, List.getElem?_concat_length,
        m.frames]
    · have hk' : k < s.chains.length := by
        simp only [Session.child, List.length_append, List.length_singleton] at hk
        omega
      rw [if_neg hnew, hold hk', m.sees hk']
      cases hp : parent? ops k with
      | none => rfl
      | some p => rw [Option.bind_some, Option.bind_some, hold (Nat.lt_trans (m.outward hp) hk')]
  outward := by
    intro k p hp
    rw [parent?_child] at hp
    split at hp
    · cases hp
      have := m.count
      omega
    · exact m.outward hp

theorem exists_frame (m : Mirrors next ops s) {i : Nat} (hi : i < s.chains.length) :
    ∃ f, s.frames[i]? = some f :=
  ⟨_, List.getElem?_eq_getElem (m.frames ▸ hi)⟩

/-- The standard frame takes no definition, since it is sealed. -/
theorem define_zero (m : Mirrors next ops s) (name : String) (t : Ty) :
    s.define 0 name t = .error ⟨name⟩ := by
  rw [Session.define, m.standard]
  rfl

/-- Every frame but the standard one takes definitions, and then the session is what the operations
with this one say. -/
theorem define (m : Mirrors next ops s) {i : Nat} (hpos : i ≠ 0) (hi : i < s.chains.length)
    (name : String) (t : Ty) :
    ∃ s', s.define i name t = .ok s' ∧ Mirrors next (ops ++ [.define i name t]) s' := by
  obtain ⟨f, hf⟩ := m.exists_frame hi
  have hi' : i < s.frames.length := m.frames ▸ hi
  have hopen : ¬f.isSealed = true := fun h => hpos (m.isSealed hf h)
  refine ⟨_, by rw [Session.define, hf, Option.getD_some, Frame.define, if_neg hopen]; rfl, ?_⟩
  constructor
  case frames => rw [List.length_set]; exact m.frames
  case count => rw [m.count]; simp [Operation.opens?]
  case standard => rw [List.getElem?_set_ne hpos]; exact m.standard
  case isSealed =>
    intro k f hk hsealed
    rw [List.getElem?_set] at hk
    split at hk
    · cases hk
      exact absurd hsealed hopen
    · exact m.isSealed hk hsealed
  case binds =>
    intro k n
    by_cases hk : i = k
    · subst hk
      rw [own, List.getElem?_set_self hi', Option.getD_some]
      by_cases hn : name = n
      · subst hn
        rw [bound?_define hpos]
        exact Entries.get?_put_self name t _
      · rw [bound?_define_of_ne fun h => hn h.2, ← m.binds, own, hf]
        exact Entries.get?_put_of_ne (Ne.symm hn) t _
    · rw [bound?_define_of_ne fun h => hk h.1, ← m.binds, own, own, List.getElem?_set_ne hk]
  case sees =>
    intro k hk
    rw [parent?_append rfl]
    exact m.sees hk
  case outward =>
    intro k p hp
    rw [parent?_append rfl] at hp
    exact m.outward hp

/-- A scope sees frames of scopes that were there when it was opened, and its own. So a frame that
is added later is in no chain that was there. -/
theorem le_of_mem_chain (m : Mirrors next ops s) (i : Nat) (hi : i < s.chains.length)
    {chain : List Nat} (hchain : s.chains[i]? = some chain) : ∀ k ∈ chain, k ≤ i := by
  induction i using Nat.strongRecOn generalizing chain with
  | ind i ih =>
    rw [m.sees hi, Option.some.injEq] at hchain
    subst hchain
    intro k hk
    rcases List.mem_cons.mp hk with rfl | hk
    · exact Nat.le_refl k
    · cases hp : parent? ops i with
      | none =>
        rw [hp] at hk
        cases hk
      | some p =>
        have hlt := m.outward hp
        rw [hp, Option.bind_some, List.getElem?_eq_getElem (by omega), Option.getD_some] at hk
        exact Nat.le_trans (ih p hlt (by omega) (List.getElem?_eq_getElem _) k hk) (by omega)

/-- A session that is what operations say has a frame for each scope, and chains that lead to frames
which are there. This is what `Session.Grown` needs to know of it. -/
theorem linked (m : Mirrors next ops s) : s.Linked where
  frames := m.frames
  inRange := by
    intro chain hchain k hk
    obtain ⟨i, hi, rfl⟩ := List.mem_iff_getElem.mp hchain
    rw [m.frames]
    exact Nat.lt_of_le_of_lt (m.le_of_mem_chain i hi (List.getElem?_eq_getElem hi) k hk) hi

/-! ### Looking outward -/

/-- A name has the type of a scope's own frame, or else the type that it has in the scope around.
The recursion goes outward and ends, as the scope around was there before. -/
theorem lookup?_eq (m : Mirrors next ops s) {i : Nat} (hi : i < s.chains.length) (name : String) :
    (s.scope i).lookup? name =
      (bound? next ops i name).or ((parent? ops i).bind fun p => (s.scope p).lookup? name) := by
  obtain ⟨f, hf⟩ := m.exists_frame hi
  have hbinds : Entries.get? name f.bindings = bound? next ops i name := by
    rw [← m.binds, own, hf]
    rfl
  have hscope : s.scope i = f :: ((parent? ops i).map s.scope).getD [] := by
    rw [scope, m.sees hi, Option.getD_some, List.filterMap_cons_some hf]
    cases parent? ops i with
    | none => rfl
    | some p => rfl
  rw [hscope, Scope.lookup?, List.findSome?_cons, hbinds]
  cases bound? next ops i name with
  | some t => rfl
  | none =>
    cases parent? ops i with
    | none => rfl
    | some p => rfl

theorem lookup?_of_bound (m : Mirrors next ops s) {i : Nat} (hi : i < s.chains.length)
    {name : String} {t : Ty} (h : bound? next ops i name = some t) :
    (s.scope i).lookup? name = some t := by
  rw [m.lookup?_eq hi, h]
  rfl

/-- A name that the own frame does not bind has the type that it has in the scope around. -/
theorem lookup?_of_parent (m : Mirrors next ops s) {i p : Nat} (hi : i < s.chains.length)
    {name : String} (h : bound? next ops i name = none) (hp : parent? ops i = some p) :
    (s.scope i).lookup? name = (s.scope p).lookup? name := by
  rw [m.lookup?_eq hi, h, hp]
  rfl

/-- Two scopes see one type of a name if no frame between them binds it. -/
theorem lookup?_of_exposes (m : Mirrors next ops s) {i j : Nat} {name : String}
    (h : Exposes next ops name i j) (hi : i < s.chains.length) :
    j < s.chains.length ∧ (s.scope i).lookup? name = (s.scope j).lookup? name := by
  induction h with
  | refl => exact ⟨hi, rfl⟩
  | tail _ step ih =>
    refine ⟨Nat.lt_trans (m.outward step.2) ih.1, ?_⟩
    rw [ih.2, m.lookup?_of_parent ih.1 step.1 step.2]

/-- Looking outward ends at a frame that binds the name, or at no frame, and then none of the frames
around binds it. -/
theorem exists_exposes (m : Mirrors next ops s) (name : String) (i : Nat)
    (hi : i < s.chains.length) :
    (∃ j t, Exposes next ops name i j ∧ bound? next ops j name = some t) ∨
      (s.scope i).lookup? name = none ∧ ∀ j, Around ops i j → bound? next ops j name = none := by
  induction i using Nat.strongRecOn with
  | ind i ih =>
    cases hb : bound? next ops i name with
    | some t => exact .inl ⟨i, t, .refl, hb⟩
    | none =>
      cases hp : parent? ops i with
      | none =>
        refine .inr ⟨by rw [m.lookup?_eq hi, hb, hp]; rfl, fun j hj => ?_⟩
        rcases hj.cases_head with rfl | ⟨p, hstep, _⟩
        · exact hb
        · rw [hp] at hstep
          cases hstep
      | some p =>
        have hlt := m.outward hp
        rcases ih p hlt (Nat.lt_trans hlt hi) with ⟨j, t, hj, ht⟩ | ⟨hnone, hall⟩
        · exact .inl ⟨j, t, .head ⟨hb, hp⟩ hj, ht⟩
        · refine .inr ⟨by rw [m.lookup?_of_parent hi hb hp, hnone], fun j hj => ?_⟩
          rcases hj.cases_head with rfl | ⟨q, hstep, hrest⟩
          · exact hb
          · rw [hp] at hstep
            cases hstep
            exact hall j hrest

end Mirrors

/-- Where nothing between binds a name, the outer scope is around the inner one. -/
theorem Exposes.around {next : Nat} {ops : List Operation} {name : String} {i j : Nat}
    (h : Exposes next ops name i j) : Around ops i j :=
  Relation.ReflTransGen.mono (fun _ _ step => step.2) _ _ h

namespace Mirrors

variable {next : Nat} {ops : List Operation} {s s' : Session}

/-- A name has a type in a scope if it is the type of the nearest frame around that binds it. The
right side speaks of operations only. -/
theorem lookup?_eq_some_iff (m : Mirrors next ops s) {i : Nat} (hi : i < s.chains.length)
    (name : String) (t : Ty) : (s.scope i).lookup? name = some t ↔
      ∃ j, Exposes next ops name i j ∧ bound? next ops j name = some t := by
  have hiff : ∀ {j u}, Exposes next ops name i j → bound? next ops j name = some u →
      (s.scope i).lookup? name = some u := by
    intro j u hj hu
    obtain ⟨hlt, heq⟩ := m.lookup?_of_exposes hj hi
    rw [heq, m.lookup?_of_bound hlt hu]
  constructor
  · intro h
    rcases m.exists_exposes name i hi with ⟨j, u, hj, hu⟩ | ⟨hnone, _⟩
    · refine ⟨j, hj, ?_⟩
      rw [hu, ← hiff hj hu, h]
    · rw [hnone] at h
      cases h
  · intro ⟨j, hj, hu⟩
    exact hiff hj hu

/-- A name has no type in a scope exactly if no frame around the scope binds it. -/
theorem lookup?_eq_none_iff (m : Mirrors next ops s) {i : Nat} (hi : i < s.chains.length)
    (name : String) : (s.scope i).lookup? name = none ↔
      ∀ j, Around ops i j → bound? next ops j name = none := by
  rcases m.exists_exposes name i hi with ⟨j, t, hj, ht⟩ | ⟨hnone, hall⟩
  · have hsome := (m.lookup?_eq_some_iff hi name t).mpr ⟨j, hj, ht⟩
    constructor
    · intro h
      rw [hsome] at h
      cases h
    · intro h
      rw [h j hj.around] at ht
      cases ht
  · exact ⟨fun _ => hall, fun _ => hnone⟩

/-! ### Definitions -/

theorem length_define {i : Nat} {name : String} {t : Ty} (m : Mirrors next ops s)
    (m' : Mirrors next (ops ++ [.define i name t]) s') : s'.chains.length = s.chains.length := by
  rw [m'.count, m.count]
  simp [Operation.opens?]

/-- A definition is seen where nothing nearer binds its name: in its own scope and in scopes inside
it, also in those that were opened before it was made. -/
theorem lookup?_define_of_exposes {i k : Nat} {name : String} {t : Ty}
    (m' : Mirrors next (ops ++ [.define i name t]) s') (hpos : i ≠ 0)
    (hk : k < s'.chains.length) (h : Exposes next ops name k i) :
    (s'.scope k).lookup? name = some t := by
  induction h using Relation.ReflTransGen.head_induction_on with
  | refl => exact m'.lookup?_of_bound hk (bound?_define hpos name t)
  | @head k p step _ ih =>
    by_cases hki : i = k
    · exact m'.lookup?_of_bound hk (hki ▸ bound?_define hpos name t)
    · have hp : parent? (ops ++ [.define i name t]) k = some p :=
        (parent?_append rfl k).trans step.2
      have hb : bound? next (ops ++ [.define i name t]) k name = none :=
        (bound?_define_of_ne (fun h => hki h.1) t).trans step.1
      rw [m'.lookup?_of_parent hk hb hp]
      exact ih (Nat.lt_trans (m'.outward hp) hk)

/-- A definition is seen nowhere else, and no other name is touched. A scope that has its own
definition of the name keeps seeing that. -/
theorem lookup?_define_of_not_exposes {i : Nat} {name : String} {t : Ty} (m : Mirrors next ops s)
    (m' : Mirrors next (ops ++ [.define i name t]) s') {other : String} (k : Nat)
    (hk : k < s.chains.length) (h : other ≠ name ∨ ¬Exposes next ops name k i) :
    (s'.scope k).lookup? other = (s.scope k).lookup? other := by
  have hlength := m.length_define m'
  induction k using Nat.strongRecOn with
  | ind k ih =>
    have hne : ¬(i = k ∧ name = other) := by
      rintro ⟨rfl, rfl⟩
      exact h.elim (fun h => h rfl) fun h => h .refl
    rw [m.lookup?_eq hk, m'.lookup?_eq (hlength ▸ hk), bound?_define_of_ne hne, parent?_append rfl]
    cases hb : bound? next ops k other with
    | some u => rfl
    | none =>
      cases hp : parent? ops k with
      | none => rfl
      | some p =>
        have hlt := m.outward hp
        refine ih p hlt (Nat.lt_trans hlt hk) ?_
        by_cases hother : other = name
        · refine .inr fun hexp => ?_
          subst hother
          exact h.elim (fun h => h rfl) fun h => h (.head ⟨hb, hp⟩ hexp)
        · exact .inl hother

end Mirrors

/-- Every session is what its operations say. The induction is over the operations, with one lemma
above for each kind of them. -/
theorem Past.mirrors {next : Nat} {ops : List Operation} {s : Session} (past : Past next ops s) :
    Mirrors next ops s := by
  induction past with
  | start => exact .start next
  | @step ops s _ op known m =>
    cases op with
    | contains i name => exact m.quiet rfl (fun _ _ => bound?_append rfl) rfl rfl
    | other op =>
      cases op with
      | child i => exact m.child (known i rfl)
      | _ => exact m.quiet rfl (fun _ _ => bound?_append rfl) rfl rfl
    | define i name t =>
      by_cases hi : i = 0
      · subst hi
        refine m.quiet rfl ?_ ?_ ?_
        · intro k n
          by_cases hk : k = 0
          · rw [bound?, bound?, if_pos hk, if_pos hk]
          · exact bound?_define_of_ne (fun h => hk h.1.symm) t
        · rw [performed, defined, m.define_zero]
        · rw [performed, defined, m.define_zero]
      · obtain ⟨s', hs', m'⟩ := m.define hi (known i rfl) name t
        rw [performed, defined, hs']
        exact m'

/-! ## Lexical scoping -/

/-- Scoping is lexical in every session that operations lead to. A name has in a scope the type
that was defined last in the nearest frame outward that binds it, and none if no frame outward
does. A definition is seen in its scope and in scopes inside it that have no nearer one, and it
changes nothing else that a scope sees. The standard frame stays as it is. Inference changes nothing
that a scope sees, also where it opens scopes in the session and ends at a fault inside of them. -/
theorem lexically_scoped {next : Nat} {ops : List Operation} {s : Session}
    (past : Past next ops s) :
    (∀ i name, i < s.chains.length →
      (∀ t, (s.scope i).lookup? name = some t ↔
        ∃ j, Exposes next ops name i j ∧ bound? next ops j name = some t) ∧
      ((s.scope i).lookup? name = none ↔ ∀ j, Around ops i j → bound? next ops j name = none) ∧
      ((s.scope i).contains name = true ↔
        ∃ j t, Around ops i j ∧ bound? next ops j name = some t)) ∧
    (∀ i name t, i < s.chains.length → i ≠ 0 →
      ∃ s', s.define i name t = .ok s' ∧ ∀ k, k < s.chains.length →
        (Exposes next ops name k i → (s'.scope k).lookup? name = some t) ∧
        ∀ other, other ≠ name ∨ ¬Exposes next ops name k i →
          (s'.scope k).lookup? other = (s.scope k).lookup? other) ∧
    (s.frames[0]? = some (Frame.standard next) ∧ ∀ name t, s.define 0 name t = .error ⟨name⟩) ∧
    ∀ i form, i < s.chains.length →
      (∀ k name, ((s.infer i form).2.scope k).lookup? name = (s.scope k).lookup? name) ∧
      ∀ st, (s.walk i form st).1 = Inference.infer (s.scope i) form st ∧
        ∀ k name, k < s.chains.length →
          ((s.walk i form st).2.scope k).lookup? name = (s.scope k).lookup? name := by
  have m := past.mirrors
  refine ⟨?_, ?_, ⟨m.standard, m.define_zero⟩, ?_⟩
  · intro i name hi
    have hsome := m.lookup?_eq_some_iff hi name
    have hnone := m.lookup?_eq_none_iff hi name
    refine ⟨hsome, hnone, ?_⟩
    rw [Scope.contains, Option.isSome_iff_exists]
    constructor
    · intro ⟨t, ht⟩
      obtain ⟨j, hj, hbound⟩ := (hsome t).mp ht
      exact ⟨j, t, hj.around, hbound⟩
    · intro ⟨j, t, hj, hbound⟩
      refine Option.ne_none_iff_exists'.mp fun h => ?_
      rw [hnone.mp h j hj] at hbound
      cases hbound
  · intro i name t hi hpos
    obtain ⟨s', hs', m'⟩ := m.define hpos hi name t
    refine ⟨s', hs', fun k hk => ⟨?_, fun other => m.lookup?_define_of_not_exposes m' k hk⟩⟩
    exact m'.lookup?_define_of_exposes hpos (m.length_define m' ▸ hk)
  · intro i form hi
    refine ⟨fun k name => rfl, fun st => ?_⟩
    obtain ⟨hsame, grown⟩ := agrees form st m.linked hi
    exact ⟨hsame, fun k name hk => by rw [grown.scope m.linked hk]⟩

/-- A scope inside a child of the standard one. A name is defined again in the child after the inner
scope was opened, the inner scope has a standard name for itself, and inference in it fails inside
a function whose parameter is called like the other name. -/
def nested : List Operation :=
  [.other (.child 0), .define 2 "x" .number, .other (.child 2), .define 3 "+" .string,
    .define 2 "x" .string,
    .other (.infer 3 (.list {} [.symbol {} "fn", .vector {} [.symbol {} "x"], .symbol {} "y"]))]

theorem exists_past_nested : ∃ s, Past 0 nested s ∧ s.chains.length = 4 := by
  refine ⟨_, .step (.step (.step (.step (.step (.step .start _ ?_) _ ?_) _ ?_) _ ?_) _ ?_) _ ?_,
    rfl⟩
  all_goals
    intro i hi
    cases hi
    decide

/-- The inner scope sees what was defined last in the child around it, and its own definition of the
standard name. A definition of that name in the child is seen in the child, but not further in. -/
theorem lexically_scoped_nested : ∃ s, Past 0 nested s ∧
    (s.scope 3).lookup? "x" = some .string ∧ (s.scope 3).lookup? "+" = some .string ∧
      (s.scope 3).contains "y" = false ∧
    ∃ s', s.define 2 "+" .number = .ok s' ∧
      (s'.scope 2).lookup? "+" = some .number ∧ (s'.scope 3).lookup? "+" = some .string := by
  obtain ⟨s, past, hlength⟩ := exists_past_nested
  obtain ⟨seen, defines, -, -⟩ := lexically_scoped past
  have hplus : (s.scope 3).lookup? "+" = some .string :=
    ((seen 3 "+" (by omega)).1 _).mpr ⟨3, .refl, rfl⟩
  refine ⟨s, past, ?_, hplus, ?_, ?_⟩
  · exact ((seen 3 "x" (by omega)).1 _).mpr ⟨2, .single ⟨rfl, rfl⟩, rfl⟩
  · have hnone : (s.scope 3).lookup? "y" = none := by
      refine (seen 3 "y" (by omega)).2.1.mpr fun j _ => ?_
      rw [bound?]
      split
      · decide
      · simp [nested, List.filterMap_cons, Operation.gives?]
    rw [Scope.contains, hnone]
    rfl
  · obtain ⟨s', hs', hseen⟩ := defines 2 "+" .number (by omega) (by omega)
    refine ⟨s', hs', (hseen 2 (by omega)).1 .refl, ?_⟩
    rw [(hseen 3 (by omega)).2 "+" (.inr fun h => ?_), hplus]
    -- The inner scope binds the name itself, so nothing is exposed beyond it.
    rcases h.cases_head with h | ⟨p, hstep, _⟩
    · cases h
    · cases hstep.1

end Session

end TypedSexp
