import TypedSexp.Proofs.Hook.Subscription

/-!
# Courses of operations on hooks

What a program does with hooks is a course of operations: it registers listeners, closes handles
and dispatches events. A listener that is called takes a course of its own, which may dispatch
again, and ends by returning, raising or exiting (`Course`). The changes are written down as they
are made, by the program or by a listener (`Ledger`), so that what the hooks should be can be said
without them: `Change.handles` are the handles given out and whether each was closed.

After every course the hooks are what the changes say (`Course.run_registers`). Dispatching
itself changes nothing; it calls the listeners that were there when it began, each once and in
order, whatever they do, as long as each returns or raises an error. A listener that exits is the
last that is called, since what it raises goes through the dispatch.

What this leaves out: several threads that work on the hooks at once, and the log, where an error
of a listener is written down. A course goes on after a dispatch that did not return, as a program
does that catches what came through; one that does not catch it is a course that is done there.
-/

namespace TypedSexp

variable {ℓ : Type}

/-! ## Changes -/

/-- A change of the hooks. -/
inductive Change (ℓ : Type) where
  | registered (name : String) (l : ℓ)
  /-- A handle was closed, maybe not for the first time. -/
  | closed (handle : Nat)
  deriving DecidableEq

namespace Change

/-- What was registered, if anything. -/
def registration? : Change ℓ → Option (String × ℓ)
  | .registered name l => some (name, l)
  | .closed _ => none

/-- All registrations, in order. -/
def registrations (cs : List (Change ℓ)) : List (String × ℓ) := cs.filterMap registration?

/-- The handles that were given out, one for each registration, closed if they ever were. -/
def handles [DecidableEq ℓ] (cs : List (Change ℓ)) : List (Handle ℓ) :=
  (registrations cs).mapIdx fun i r =>
    { name := r.1, listener := r.2, isClosed := Change.closed i ∈ cs }

variable [DecidableEq ℓ]

/-- There are as many handles as registrations. Closing takes none away, so a handle keeps its
number for good. -/
theorem length_handles (cs : List (Change ℓ)) : (handles cs).length = (registrations cs).length :=
  List.length_mapIdx

/-- A registration gives out one more handle, which is open. This needs that no change closes a
handle before it is given out, as then it would be closed from the start. -/
theorem handles_registered {cs : List (Change ℓ)}
    (known : ∀ i, Change.closed i ∈ cs → i < (handles cs).length)
    (name : String) (l : ℓ) :
    handles (cs ++ [.registered name l]) = handles cs ++ [{ name, listener := l }] := by
  have hregistrations :
      registrations (cs ++ [.registered name l]) = registrations cs ++ [(name, l)] := by
    rw [registrations, List.filterMap_append]
    rfl
  have hclosed : ∀ i, Change.closed i ∈ cs ++ [.registered name l] ↔ Change.closed i ∈ cs := by
    simp
  have hnew : Change.closed (registrations cs).length ∉ cs := by
    intro hmem
    have hlt := known _ hmem
    rw [length_handles] at hlt
    exact Nat.lt_irrefl _ hlt
  rw [handles, hregistrations, List.mapIdx_concat]
  simp only [hclosed, hnew, decide_false]
  rfl

/-- Closing a handle closes this one and leaves the others as they are. If it is closed already
nothing changes. -/
theorem handles_closed (cs : List (Change ℓ)) (i : Nat) : handles (cs ++ [.closed i]) =
    (handles cs).modify i Handle.closed := by
  have hregistrations : registrations (cs ++ [.closed i]) = registrations cs := by
    rw [registrations, List.filterMap_append]
    exact List.append_nil _
  refine List.ext_getElem? fun k => ?_
  rw [handles, hregistrations, List.getElem?_mapIdx, List.getElem?_modify, handles,
    List.getElem?_mapIdx]
  cases (registrations cs)[k]? with
  | none => rfl
  | some r =>
    by_cases hk : i = k
    · simp [Handle.closed, hk]
    · simp [hk, Ne.symm hk]

end Change

/-! ## Courses -/

/-- A course of operations on hooks, one after another. A dispatch has with it the course that each
call of a listener takes, by the place of the call among those of the dispatch, and how the call
ends. -/
inductive Course (ℓ : Type) where
  | done
  | register (name : String) (l : ℓ) (rest : Course ℓ)
  | close (handle : Nat) (rest : Course ℓ)
  | dispatch (e : Event) (calls : Nat → Course ℓ) (ends : Nat → Ending Unit) (rest : Course ℓ)

/-- Hooks and all changes made to them. -/
structure Ledger (ℓ : Type) where
  hooks : Hooks ℓ := {}
  changes : List (Change ℓ) := []

namespace Ledger

/-- Registers a listener. A registration that is refused changes nothing. -/
def register (s : Ledger ℓ) (name : String) (l : ℓ) : Ledger ℓ :=
  match s.hooks.register name l with
  | .ok hooks => { hooks, changes := s.changes ++ [.registered name l] }
  | .error _ => s

/-- Closes a handle that was given out. -/
def close [DecidableEq ℓ] (s : Ledger ℓ) (i : Nat) : Ledger ℓ :=
  if i < s.hooks.handles.length then
    { hooks := s.hooks.close i, changes := s.changes ++ [.closed i] }
  else s

end Ledger

/-- The hooks and the changes after a course. -/
def Course.run [DecidableEq ℓ] : Course ℓ → Ledger ℓ → Ledger ℓ
  | .done, s => s
  | .register name l rest, s => rest.run (s.register name l)
  | .close i rest, s => rest.run (s.close i)
  | .dispatch e calls ends rest, s =>
    -- The number of calls so far goes along with the ledger.
    let call (_ : ℓ) (_ : Event) (t : Ledger ℓ × Nat) : Ending Unit × (Ledger ℓ × Nat) :=
      (ends t.2, ((calls t.2).run t.1, t.2 + 1))
    rest.run (s.hooks.dispatch call e (s, 0)).2.1

/-- The hooks keep what they should, and the handles are those that the changes say. -/
structure Ledger.Sound [DecidableEq ℓ] (s : Ledger ℓ) : Prop where
  kept : s.hooks.Kept
  handles : s.hooks.handles = Change.handles s.changes
  known : ∀ i, Change.closed i ∈ s.changes → i < (Change.handles s.changes).length

namespace Hooks

section Delivery

variable {σ ε : Type} {call : ℓ → Event → σ → Ending ε × σ} {e : Event}

/-- Whether a call ends the delivery. An error does not: the listener is skipped. -/
theorem deliver_cons (call : ℓ → Event → σ → Ending ε × σ) (e : Event) (l : ℓ) (ls : List ℓ)
    (s : σ) : deliver call e (l :: ls) s =
      match (call l e s).1 with
      | .exits x => (.error x, (call l e s).2)
      | _ => deliver call e ls (call l e s).2 := by
  rw [deliver]
  rcases call l e s with ⟨ending, s'⟩
  cases ending <;> rfl

/-- The delivery goes on after a call that does not exit. -/
theorem deliver_cons_of_ne {l : ℓ} {ls : List ℓ} {s : σ} (stays : ∀ x, (call l e s).1 ≠ .exits x) :
    deliver call e (l :: ls) s = deliver call e ls (call l e s).2 := by
  rw [deliver_cons]
  split
  · next x hx => exact absurd hx (stays x)
  · rfl

/-- The delivery ends with a call that exits, in the state that this call left. -/
theorem deliver_cons_of_exits {l : ℓ} {ls : List ℓ} {s s' : σ} {x : ε}
    (exits : call l e s = (.exits x, s')) : deliver call e (l :: ls) s = (.error x, s') := by
  rw [deliver_cons, exits]

/-- What every call keeps is kept by a dispatch, also by one that a call ends. The list of listeners
is taken before the first call, so calls that change the registry do not change it. -/
theorem dispatch_induction (h : Hooks ℓ) {P : σ → Prop} {s : σ} (start : P s)
    (step : ∀ l s, P s → P (call l e s).2) : P (h.dispatch call e s).2 := by
  unfold dispatch
  induction h.listeners e.name generalizing s with
  | nil => exact start
  | cons l ls ih =>
    rw [deliver_cons]
    split
    · exact step l s start
    · exact ih (step l s start)

/-- Calls that are logged: each call adds the listener and the event that it is called with. -/
def logged (call : ℓ → Event → σ → Ending ε × σ) (l : ℓ) (e : Event)
    (t : σ × List (ℓ × Event)) : Ending ε × (σ × List (ℓ × Event)) :=
  ((call l e t.1).1, ((call l e t.1).2, t.2 ++ [(l, e)]))

/-- The log of a call that does not exit stands before the calls after it. -/
theorem deliver_logged_cons {l : ℓ} {ls : List ℓ} {s : σ} {log : List (ℓ × Event)}
    (stays : ∀ x, (call l e s).1 ≠ .exits x) : deliver (logged call) e (l :: ls) (s, log) =
      deliver (logged call) e ls ((call l e s).2, log ++ [(l, e)]) :=
  deliver_cons_of_ne stays

/-- A delivery in which no call exits returns, however many calls raise. -/
theorem deliver_returns {ls : List ℓ} (stays : ∀ l ∈ ls, ∀ s x, (call l e s).1 ≠ .exits x) (s : σ) :
    (deliver call e ls s).1 = .ok () := by
  induction ls generalizing s with
  | nil => rfl
  | cons l ls ih =>
    rw [deliver_cons_of_ne (stays l List.mem_cons_self s)]
    exact ih (fun k hk => stays k (List.mem_cons_of_mem l hk)) (call l e s).2

/-- The calls of a delivery that returns are those of all listeners, in order and each once. The
log itself changes nothing in the delivery. -/
theorem deliver_logged {ls : List ℓ} {s s' : σ} (returns : deliver call e ls s = (.ok (), s'))
    (log : List (ℓ × Event)) : deliver (logged call) e ls (s, log) =
      (.ok (), s', log ++ ls.map fun l => (l, e)) := by
  induction ls generalizing s log with
  | nil =>
    cases returns
    rw [List.map_nil, List.append_nil]
    rfl
  | cons l ls ih =>
    have stays : ∀ x, (call l e s).1 ≠ .exits x := by
      intro x hx
      rw [deliver_cons_of_exits (Prod.ext hx rfl)] at returns
      cases returns
    rw [deliver_cons_of_ne stays] at returns
    have hrest := ih returns (log ++ [(l, e)])
    rw [List.append_assoc] at hrest
    exact (deliver_logged_cons stays).trans hrest

/-- The calls of a delivery that does not return are those of the listeners up to the first whose
call exits, in order and each once. -/
theorem deliver_logged_of_error {ls : List ℓ} {s s' : σ} {x : ε}
    (left : deliver call e ls s = (.error x, s')) (log : List (ℓ × Event)) :
    ∃ before l after u, ls = before ++ l :: after ∧ call l e u = (.exits x, s') ∧
      deliver (logged call) e ls (s, log) =
        (.error x, s', log ++ (before ++ [l]).map fun l => (l, e)) := by
  induction ls generalizing s log with
  | nil => cases left
  | cons l ls ih =>
    by_cases exits : ∃ y, (call l e s).1 = .exits y
    · obtain ⟨y, hy⟩ := exits
      rw [deliver_cons_of_exits (Prod.ext hy rfl)] at left
      cases left
      refine ⟨[], l, ls, s, rfl, Prod.ext hy rfl, ?_⟩
      exact deliver_cons_of_exits (Prod.ext hy rfl)
    · have stays : ∀ y, (call l e s).1 ≠ .exits y := fun y hy => exits ⟨y, hy⟩
      rw [deliver_cons_of_ne stays] at left
      obtain ⟨before, k, after, u, rfl, hcall, hlog⟩ := ih left (log ++ [(l, e)])
      refine ⟨l :: before, k, after, u, rfl, hcall, ?_⟩
      rw [List.append_assoc] at hlog
      exact (deliver_logged_cons stays).trans hlog

end Delivery

end Hooks

namespace Ledger.Sound

variable [DecidableEq ℓ] {s : Ledger ℓ}

theorem empty : ({} : Ledger ℓ).Sound where
  kept := .empty
  handles := rfl
  known _ hmem := absurd hmem List.not_mem_nil

/-- A registration keeps a ledger sound. It may be refused, and then nothing changes, neither the
hooks nor what is written down. -/
theorem register (sound : s.Sound) (name : String) (l : ℓ) : (s.register name l).Sound := by
  unfold Ledger.register
  cases hregister : s.hooks.register name l with
  | error f => exact sound
  | ok hooks =>
    obtain ⟨-, hhandles⟩ := Hooks.register_inv hregister
    have hchanges := Change.handles_registered sound.known name l
    constructor
    case kept => exact sound.kept.register hregister
    case handles => rw [hhandles, hchanges, sound.handles]
    case known =>
      intro i hmem
      have hi := sound.known i (by simpa using hmem)
      rw [hchanges, List.length_append]
      exact Nat.lt_add_right _ hi

/-- Closing a handle keeps a ledger sound, also one that is closed already or was never given
out. -/
theorem close (sound : s.Sound) (i : Nat) : (s.close i).Sound := by
  unfold Ledger.close
  split
  · next hi =>
    have hchanges := Change.handles_closed s.changes i
    constructor
    case kept => exact sound.kept.close i
    case handles => rw [hchanges, ← sound.handles, Hooks.handles_close]
    case known =>
      intro k hmem
      rw [hchanges, List.length_modify]
      rcases List.mem_append.mp hmem with hmem | hmem
      · exact sound.known k hmem
      · cases List.mem_singleton.mp hmem
        exact sound.handles ▸ hi
  · exact sound

/-- A course keeps a ledger sound. The induction is over the course; a dispatch makes calls, which
may do whatever a course does, and each of them keeps the ledger sound. -/
theorem run (sound : s.Sound) (c : Course ℓ) : (c.run s).Sound := by
  induction c generalizing s with
  | done => exact sound
  | register name l rest ih => exact ih (sound.register name l)
  | close i rest ih => exact ih (sound.close i)
  | dispatch e calls ends rest ihcalls ih =>
    refine ih (Hooks.dispatch_induction s.hooks (P := fun t : Ledger ℓ × Nat => t.1.Sound) sound ?_)
    intro l t ht
    exact ihcalls t.2 ht

end Ledger.Sound

/-- After a course of operations the handles are those given out, closed where they were; the
listeners of every name are those of its open handles; every name that stands has listeners; two
listeners that were registered once for a name stand as they were registered.

A dispatch of which no call exits returns, and one that returns has called the listeners that were
there when it began, each once and in order, whatever its calls did and whether or not they raised.
One that does not return has called the listeners up to the one that exited, and no other. -/
theorem Course.run_registers [DecidableEq ℓ] (c : Course ℓ) (s : Ledger ℓ) (ran : c.run {} = s) :
    s.hooks.handles = Change.handles s.changes ∧
    (∀ name, (s.hooks.listeners name).Perm (Handle.opened s.hooks.handles name)) ∧
    (∀ entry ∈ s.hooks.table, entry.2 = s.hooks.listeners entry.1 ∧ entry.2 ≠ []) ∧
    (∀ name l l', [l, l'].Sublist (s.hooks.listeners name) →
      (Handle.registered s.hooks.handles name).count l ≤ 1 →
      (Handle.registered s.hooks.handles name).count l' ≤ 1 →
        [l, l'].Sublist (Handle.registered s.hooks.handles name)) ∧
    ∀ (h : Hooks ℓ) (σ ε : Type) (call : ℓ → Event → σ → Ending ε × σ) (e : Event) (t : σ),
      ((∀ l ∈ h.listeners e.name, ∀ u x, (call l e u).1 ≠ .exits x) →
        (h.dispatch call e t).1 = .ok ()) ∧
      (∀ t', h.dispatch call e t = (.ok (), t') → h.dispatch (Hooks.logged call) e (t, []) =
        (.ok (), t', (h.listeners e.name).map fun l => (l, e))) ∧
      ∀ x t', h.dispatch call e t = (.error x, t') → ∃ before l after u,
        h.listeners e.name = before ++ l :: after ∧ call l e u = (.exits x, t') ∧
          h.dispatch (Hooks.logged call) e (t, []) =
            (.error x, t', (before ++ [l]).map fun l => (l, e)) := by
  have sound : s.Sound := ran ▸ Ledger.Sound.empty.run c
  refine ⟨sound.handles, fun name => (sound.kept.backed name).counted, fun entry hentry => ?_,
    fun name l l' stand first second => ?_, fun h σ ε call e t => ⟨?_, ?_, ?_⟩⟩
  · exact ⟨sound.kept.snd_eq_listeners hentry, sound.kept.filled entry hentry⟩
  · exact (sound.kept.backed name).sublist_registered stand (decide_eq_true first)
      (decide_eq_true second)
  · exact fun stays => Hooks.deliver_returns stays t
  · exact fun t' returns => Hooks.deliver_logged returns []
  · exact fun x t' left => Hooks.deliver_logged_of_error left []

/-- A course in which the first listener that is called closes the second of its own two handles,
of which the first place goes, and raises, and the second registers another listener. In a second
dispatch the first listener exits, so the closing that the next one would do is not done. -/
def Course.doubled : Course Nat :=
  .register "a" 1 <| .register "a" 2 <| .register "a" 1 <| .register "a" 3 <|
    .dispatch (Event.ofValue "a" .null)
      (fun k => if k = 0 then .close 2 .done else if k = 1 then .register "a" 4 .done else .done)
      (fun k => if k = 0 then .raises else .returns) <|
    .dispatch (Event.ofValue "a" .null)
      (fun k => if k = 0 then .done else .close 1 .done)
      (fun _ => .exits ()) <|
    .close 2 .done

/-- One listener is registered twice and closed once, so another listener that was registered
between stands before it now. A dispatch is made in which one listener raises, and one in which the
second listener exits. -/
theorem Course.run_registers_doubled :
    (Course.doubled.run {}).hooks.listeners "a" = [2, 1, 3, 4] ∧
      ((Course.doubled.run {}).hooks.listeners "a").Perm [1, 2, 3, 4] ∧
      [2, 3].Sublist (Handle.registered (Course.doubled.run {}).hooks.handles "a") ∧
      (Course.doubled.run {}).hooks.dispatch
          (Hooks.logged fun l _ (n : Nat) => (if l = 2 then .raises else .returns, n + l))
          (Event.ofValue "a" .null) (0, []) =
        ((.ok (), 10, [2, 1, 3, 4].map fun l => (l, Event.ofValue "a" .null)) :
          Except Unit Unit × Nat × List (Nat × Event)) ∧
      ∃ before l after, [2, 1, 3, 4] = before ++ l :: after ∧
        (Course.doubled.run {}).hooks.dispatch
            (Hooks.logged fun l _ (n : Nat) => (if l = 1 then .exits () else .returns, n + l))
            (Event.ofValue "a" .null) (0, []) =
          (.error (), 3, (before ++ [l]).map fun l => (l, Event.ofValue "a" .null)) := by
  obtain ⟨-, counted, -, ordered, delivered⟩ := Course.run_registers Course.doubled _ rfl
  refine ⟨rfl, counted "a", ordered "a" 2 3 (by decide) (by decide) (by decide), ?_, ?_⟩
  · exact (delivered _ Nat Unit _ (Event.ofValue "a" .null) 0).2.1 10 rfl
  · obtain ⟨before, l, after, -, hlisteners, -, hlog⟩ :=
      (delivered (Course.doubled.run {}).hooks Nat Unit
        (fun l _ n => (if l = 1 then .exits () else .returns, n + l))
        (Event.ofValue "a" .null) 0).2.2 () 3 rfl
    exact ⟨before, l, after, hlisteners, hlog⟩

end TypedSexp
