import TypedSexp.Inference

/-!
# Sessions

A session keeps scopes and one supply of variables over many inferences. Each
scope has a frame of its own and a chain of frames that it sees, its own first.
Defining a name changes the frame of one scope, and so every scope whose chain
holds it. Inference changes no frame; it only moves the supply on.
-/

namespace TypedSexp

/-- The frames of all scopes, the chain of frames that each scope sees, and the
next variable of the supply. -/
structure Session where
  frames : List Frame
  chains : List (List Nat)
  next : Nat

namespace Session

/-- A session whose supply starts at `next`: scope 0 has the standard names and
scope 1 has none. -/
def start (next : Nat) : Session :=
  { frames := [Frame.standard next, {}]
    chains := [[0], [1]]
    next := next + Frame.standardVars }

/-- The frames that a scope sees, its own first. -/
def scope (s : Session) (i : Nat) : Scope := (s.chains[i]?.getD []).filterMap (s.frames[·]?)

/-- The session with a new scope inside another one. Its number is the number of
scopes before. -/
def child (s : Session) (i : Nat) : Session :=
  { s with
    frames := s.frames ++ [{}]
    chains := s.chains ++ [s.frames.length :: s.chains[i]?.getD []] }

/-- The session with a name defined in the frame of a scope. -/
def define (s : Session) (i : Nat) (name : String) (t : Ty) : Except SealedFault Session :=
  ((s.frames[i]?.getD {}).define name t).map fun f => { s with frames := s.frames.set i f }

/-- The bindings of a scope's own frame. -/
def own (s : Session) (i : Nat) : List (String × Ty) := (s.frames[i]?.getD {}).bindings

/-- The next variable of the supply, and the session without it. -/
def fresh (s : Session) : TyVar × Session := ({ id := s.next }, { s with next := s.next + 1 })

/-- Types a form in a scope. -/
def infer (s : Session) (i : Nat) (form : Form Note) : Except TypeFault Inferred × Session :=
  let (outcome, next) := Inference.run (s.scope i) form s.next
  (outcome, { s with next })

end Session

end TypedSexp
