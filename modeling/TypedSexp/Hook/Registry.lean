import TypedSexp.Entries
import TypedSexp.Hook.Event

/-!
# Hooks

Listeners that are registered for the names of events. Registering gives a handle,
and closing the handle takes the listener away again, once. An event goes to the
listeners that its name has when it is dispatched, in the order in which they were
registered; what happens to the listeners meanwhile changes nothing in that.

A listener that raises is skipped, as long as what it raises is an error. What is
raised to end the program, such as the request to exit, is not held back: it goes
through the dispatch, and the listeners after that one are not called.
-/

namespace TypedSexp

/-- A handle: the name and the listener that were registered, and whether it was
closed. -/
structure Handle (ℓ : Type) where
  name : String
  listener : ℓ
  isClosed : Bool := false
  deriving DecidableEq, Repr

/-- The listeners of each name, and all handles that were given out. -/
structure Hooks (ℓ : Type) where
  table : List (String × List ℓ) := []
  handles : List (Handle ℓ) := []

/-- Why a listener is not registered. -/
inductive HookFault where
  | noName
  | notCallable
  deriving DecidableEq, Repr

/-- The wording of a fault. -/
def HookFault.message : HookFault → String
  | .noName => "hook name must be a non-empty string"
  | .notCallable => "hook callback must be callable"

/-- How the call of a listener ends. -/
inductive Ending (ε : Type) where
  | returns
  /-- It raises an error. -/
  | raises
  /-- It raises something that is no error and is meant to end the program. -/
  | exits (x : ε)
  deriving DecidableEq, Repr

namespace Hooks

variable {ℓ : Type}

/-- The listeners of a name, in order. -/
def listeners (h : Hooks ℓ) (name : String) : List ℓ := (Entries.get? name h.table).getD []

/-- Registers a listener for a name. The new handle is the last. -/
def register (h : Hooks ℓ) (name : String) (l : ℓ) : Except HookFault (Hooks ℓ) :=
  if name = "" then .error .noName
  else
    .ok
      { table := Entries.put name (h.listeners name ++ [l]) h.table
        handles := h.handles ++ [{ name, listener := l }] }

/-- Takes a listener away from a name, where it first stands. A name without
listeners is dropped. -/
def unregister [BEq ℓ] (h : Hooks ℓ) (name : String) (l : ℓ) : Hooks ℓ :=
  let rest := (h.listeners name).erase l
  if rest.isEmpty then { h with table := Entries.remove name h.table }
  else { h with table := Entries.put name rest h.table }

/-- Closes a handle, by its place among all handles. A handle that was closed
before stays so. -/
def close [BEq ℓ] (h : Hooks ℓ) (i : Nat) : Hooks ℓ :=
  match h.handles[i]? with
  | none => h
  | some handle =>
    if handle.isClosed then h
    else
      let h' := h.unregister handle.name handle.listener
      { h' with handles := h'.handles.set i { handle with isClosed := true } }

/-- Gives an event to listeners in order. A call may change the state. After a
call that returns or raises an error the next listener is called; a call that exits
is the last, and what it raised is what the delivery ends with. -/
def deliver {σ ε : Type} (call : ℓ → Event → σ → Ending ε × σ) (event : Event) :
    List ℓ → σ → Except ε Unit × σ
  | [], s => (.ok (), s)
  | l :: ls, s =>
    match call l event s with
    | (.exits x, s) => (.error x, s)
    | (.returns, s) => deliver call event ls s
    | (.raises, s) => deliver call event ls s

/-- Gives an event to the listeners of its name. -/
def dispatch {σ ε : Type} (h : Hooks ℓ) (call : ℓ → Event → σ → Ending ε × σ)
    (event : Event) (s : σ) : Except ε Unit × σ :=
  deliver call event (h.listeners event.name) s

/-! ## What each operation does to the listeners of a name -/

/-- A listener that is registered comes last. -/
theorem listeners_register_self {h h' : Hooks ℓ} {name : String} {l : ℓ}
    (hreg : h.register name l = .ok h') : h'.listeners name = h.listeners name ++ [l] := by
  unfold register at hreg
  split at hreg
  · cases hreg
  · cases hreg
    simp only [listeners, Entries.get?_put_self, Option.getD_some]

/-- Registering for one name leaves the others alone. -/
theorem listeners_register_of_ne {h h' : Hooks ℓ} {name other : String} {l : ℓ}
    (hreg : h.register name l = .ok h') (hne : other ≠ name) :
    h'.listeners other = h.listeners other := by
  unfold register at hreg
  split at hreg
  · cases hreg
  · cases hreg
    simp only [listeners, Entries.get?_put_of_ne hne]

/-- Taking a listener away takes its first place. -/
theorem listeners_unregister_self [BEq ℓ] (h : Hooks ℓ) (name : String) (l : ℓ) :
    (h.unregister name l).listeners name = (h.listeners name).erase l := by
  unfold unregister
  by_cases hrest : ((h.listeners name).erase l).isEmpty = true
  · rw [if_pos hrest, List.isEmpty_iff.mp hrest]
    simp only [listeners, Entries.get?_remove_self, Option.getD_none]
  · rw [if_neg hrest]
    simp only [listeners, Entries.get?_put_self, Option.getD_some]

/-- Taking a listener away from one name leaves the others alone. -/
theorem listeners_unregister_of_ne [BEq ℓ] (h : Hooks ℓ) {name other : String} (l : ℓ)
    (hne : other ≠ name) : (h.unregister name l).listeners other = h.listeners other := by
  unfold unregister
  by_cases hrest : ((h.listeners name).erase l).isEmpty = true
  · rw [if_pos hrest]
    simp only [listeners, Entries.get?_remove_of_ne hne]
  · rw [if_neg hrest]
    simp only [listeners, Entries.get?_put_of_ne hne]

/-- A handle that was closed before is closed already. -/
theorem close_of_isClosed [BEq ℓ] {h : Hooks ℓ} {i : Nat} {handle : Handle ℓ}
    (hi : h.handles[i]? = some handle) (hc : handle.isClosed = true) : h.close i = h := by
  unfold close
  rw [hi]
  simp [hc]

end Hooks

end TypedSexp
