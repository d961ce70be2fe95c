import TypedSexp.Hook.Registry

/-!
# Audiences

Listeners that are given by a name and by what they do when they are called, with
a log of all calls. Some of them change the hooks while an event is delivered, or
dispatch another event. None of them exits, so every dispatch returns.
-/

namespace TypedSexp

/-- What a listener does when it is called, after the call is logged. -/
inductive Reaction where
  /-- Nothing more. -/
  | record
  /-- Raises. -/
  | raise
  /-- Tries to change the payload, which cannot be changed, and so raises. -/
  | mutate
  /-- Closes the handle under its own name. -/
  | close
  /-- Registers a new listener for the same event, which takes its name over from
  any other. -/
  | register
  /-- Dispatches a nested event, unless the event is nested. -/
  | redispatch
  deriving DecidableEq, Repr

/-- A listener. Two with the same name are still told apart by their numbers. -/
structure Listener where
  number : Nat
  name : String
  reaction : Reaction
  deriving DecidableEq, Repr

/-- Hooks with listeners by name, handles by name, and the calls so far. -/
structure Audience where
  hooks : Hooks Listener := {}
  /-- The listener of each name, with the reaction it was first given. -/
  known : List (String × Listener) := []
  /-- The handle under each name, by its place among all handles. -/
  handles : List (String × Nat) := []
  /-- The number of the next new listener. -/
  next : Nat := 0
  /-- The calls, the last first. -/
  calls : List (String × Event) := []

namespace Audience

/-- The name of nested events. -/
def nestedName : String := "nested"

/-- The nested event from an event. -/
def nestedEvent (e : Event) : Event :=
  .ofValue nestedName (.map [(.text "from", .text e.name)])

/-- Lets a new listener have its name. -/
def enrol (a : Audience) (l : Listener) : Audience :=
  { a with known := Entries.put l.name l a.known, next := a.next + 1 }

/-- The listener of a name, which is made with a reaction if it is not known. -/
def introduce (a : Audience) (name : String) (reaction : Reaction) : Listener × Audience :=
  match Entries.get? name a.known with
  | some l => (l, a)
  | none =>
    let l : Listener := ⟨a.next, name, reaction⟩
    (l, a.enrol l)

/-- Registers a listener and keeps its handle under a name. -/
def registerListener (a : Audience) (event handle : String) (l : Listener) :
    Except HookFault Audience :=
  (a.hooks.register event l).map fun hooks =>
    { a with hooks, handles := Entries.put handle a.hooks.handles.length a.handles }

/-- The handle under a name. -/
def handle? (a : Audience) (name : String) : Option Nat := Entries.get? name a.handles

/-- Closes a handle. -/
def closeHandle (a : Audience) (i : Nat) : Audience := { a with hooks := a.hooks.close i }

/-- Calls a listener, where nested events are dispatched as given. -/
def callWith (redispatch : Event → Audience → Audience) (l : Listener) (e : Event) (a : Audience) :
    Ending Empty × Audience :=
  let a := { a with calls := (l.name, e) :: a.calls }
  match l.reaction with
  | .record => (.returns, a)
  | .raise | .mutate => (.raises, a)
  | .close =>
    match a.handle? l.name with
    | some i => (.returns, a.closeHandle i)
    | none => (.raises, a)
  | .register =>
    let l' : Listener := ⟨a.next, l.name ++ "+", .record⟩
    match (a.enrol l').registerListener e.name l'.name l' with
    | .ok a => (.returns, a)
    | .error _ => (.raises, a)
  | .redispatch =>
    (.returns, if e.name = nestedName then a else redispatch (nestedEvent e) a)

/-- Calls a listener with a nested event, which leads to no other. -/
def callNested : Listener → Event → Audience → Ending Empty × Audience :=
  callWith fun _ a => a

/-- Calls a listener. -/
def call : Listener → Event → Audience → Ending Empty × Audience :=
  callWith fun e a => (a.hooks.dispatch callNested e a).2

/-- Dispatches an event. -/
def dispatch (a : Audience) (e : Event) : Audience := (a.hooks.dispatch call e a).2

/-- Dispatches an event while a handle is open, and closes the handle. -/
def dispatchWithin (a : Audience) (i : Nat) (e : Event) : Audience := (a.dispatch e).closeHandle i

/-- Takes a listener that is known away from a name. -/
def unregister (a : Audience) (event name : String) : Audience :=
  match Entries.get? name a.known with
  | some l => { a with hooks := a.hooks.unregister event l }
  | none => a

/-- Compiles a source and dispatches the event that the compilation ends with. -/
def compile (a : Audience) (o : Options) (filename source : String) :
    Except Diagnostic Report × Audience :=
  let outcome := TypedSexp.compile o filename source
  (outcome, a.dispatch (Event.ofOutcome o filename source outcome))

/-- The names of events that have listeners, in order, with the names of these. -/
def registered (a : Audience) : List (String × List String) :=
  (a.hooks.table.map fun (name, ls) => (name, ls.map (·.name))).mergeSort fun x y => x.1 ≤ y.1

end Audience

end TypedSexp
