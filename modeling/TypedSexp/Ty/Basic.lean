/-!
# Type terms

A type is a base type, a variable, a function type or a constructor applied to
one argument. Base types and variables are atoms: what makes one the same as
another is its name and its mark, so two atoms may print alike and still differ.
The registered base types and the variables of a supply have mark zero.
-/

namespace TypedSexp

/-- A placeholder for a type. -/
structure TyVar where
  id : Nat
  mark : Nat := 0
  deriving DecidableEq, Repr

/-- A named type without parts. -/
structure TyBase where
  name : String
  mark : Nat := 0
  deriving DecidableEq, Repr

/-- A type term. -/
inductive Ty where
  | base (atom : TyBase)
  | var (x : TyVar)
  | fn (params : List Ty) (result : Ty)
  | app (constructor argument : Ty)
  deriving Repr

instance : Inhabited TyBase := ⟨⟨"", 0⟩⟩

instance : Inhabited Ty := ⟨.base default⟩

namespace Ty

mutual

/-- Decides whether two types are the same. -/
def decEq : (s t : Ty) → Decidable (s = t)
  | .base a, .base b => if h : a = b then isTrue (h ▸ rfl) else isFalse fun e => h (Ty.base.inj e)
  | .var x, .var y => if h : x = y then isTrue (h ▸ rfl) else isFalse fun e => h (Ty.var.inj e)
  | .fn ps r, .fn qs q =>
    match decEqAll ps qs, decEq r q with
    | isTrue h₁, isTrue h₂ => isTrue (h₁ ▸ h₂ ▸ rfl)
    | isFalse h, _ => isFalse fun e => h (Ty.fn.inj e).1
    | _, isFalse h => isFalse fun e => h (Ty.fn.inj e).2
  | .app c a, .app d b =>
    match decEq c d, decEq a b with
    | isTrue h₁, isTrue h₂ => isTrue (h₁ ▸ h₂ ▸ rfl)
    | isFalse h, _ => isFalse fun e => h (Ty.app.inj e).1
    | _, isFalse h => isFalse fun e => h (Ty.app.inj e).2
  | .base _, .var _ => isFalse nofun
  | .base _, .fn _ _ => isFalse nofun
  | .base _, .app _ _ => isFalse nofun
  | .var _, .base _ => isFalse nofun
  | .var _, .fn _ _ => isFalse nofun
  | .var _, .app _ _ => isFalse nofun
  | .fn _ _, .base _ => isFalse nofun
  | .fn _ _, .var _ => isFalse nofun
  | .fn _ _, .app _ _ => isFalse nofun
  | .app _ _, .base _ => isFalse nofun
  | .app _ _, .var _ => isFalse nofun
  | .app _ _, .fn _ _ => isFalse nofun

/-- Decides whether two lists of types are the same. -/
def decEqAll : (ss ts : List Ty) → Decidable (ss = ts)
  | [], [] => isTrue rfl
  | [], _ :: _ => isFalse nofun
  | _ :: _, [] => isFalse nofun
  | s :: ss, t :: ts =>
    match decEq s t, decEqAll ss ts with
    | isTrue h₁, isTrue h₂ => isTrue (h₁ ▸ h₂ ▸ rfl)
    | isFalse h, _ => isFalse fun e => h (List.cons.inj e).1
    | _, isFalse h => isFalse fun e => h (List.cons.inj e).2

end

instance : DecidableEq Ty := decEq

/-! ## The registered types -/

/-- The type of number literals. -/
def number : Ty := .base { name := "Number" }

/-- The type of string literals. -/
def string : Ty := .base { name := "String" }

/-- The constructor of array types. -/
def arrayConstructor : Ty := .base { name := "Array" }

/-- The type of arrays of one element type. -/
def array (element : Ty) : Ty := .app arrayConstructor element

/-! ## Parts and variables -/

mutual

/-- A type and all its parts, each before its own parts. -/
def subterms : Ty → List Ty
  | .fn ps r => .fn ps r :: (subtermsAll ps ++ subterms r)
  | .app c a => .app c a :: (subterms c ++ subterms a)
  | t => [t]

/-- The parts of several types, one type after the other. -/
def subtermsAll : List Ty → List Ty
  | [] => []
  | t :: ts => subterms t ++ subtermsAll ts

end

/-- Whether an atom stands anywhere in a type. -/
def contains (t atom : Ty) : Bool := (subterms t).contains atom

mutual

/-- The variables of a type at every place where one stands. -/
def vars : Ty → List TyVar
  | .base _ => []
  | .var x => [x]
  | .fn ps r => varsAll ps ++ vars r
  | .app c a => vars c ++ vars a

/-- The variables of several types. -/
def varsAll : List Ty → List TyVar
  | [] => []
  | t :: ts => vars t ++ varsAll ts

end

/-- Whether a variable stands anywhere in a type. -/
def occurs (x : TyVar) (t : Ty) : Bool := (vars t).contains x

/-- The variables of a type, each once, in the order of their first places. -/
def freeVars (t : Ty) : List TyVar := (vars t).eraseDups

mutual

/-- The number of atoms and compounds in a type. -/
def size : Ty → Nat
  | .base _ => 1
  | .var _ => 1
  | .fn ps r => 1 + sizeAll ps + size r
  | .app c a => 1 + size c + size a

/-- The size of several types together. -/
def sizeAll : List Ty → Nat
  | [] => 0
  | t :: ts => size t + sizeAll ts

end

/-! ## Replacing variables -/

mutual

/-- The type with `r` in every place of `x`. -/
def subst (x : TyVar) (r : Ty) : Ty → Ty
  | .base a => .base a
  | .var y => if y = x then r else .var y
  | .fn ps t => .fn (substAll x r ps) (subst x r t)
  | .app c a => .app (subst x r c) (subst x r a)

/-- Several types with `r` in every place of `x`. -/
def substAll (x : TyVar) (r : Ty) : List Ty → List Ty
  | [] => []
  | t :: ts => subst x r t :: substAll x r ts

end

mutual

/-- The type with `θ x` in every place of every variable `x`, all at once. -/
def bind (θ : TyVar → Ty) : Ty → Ty
  | .base a => .base a
  | .var x => θ x
  | .fn ps t => .fn (bindAll θ ps) (bind θ t)
  | .app c a => .app (bind θ c) (bind θ a)

/-- Several types with `θ x` in every place of every variable `x`. -/
def bindAll (θ : TyVar → Ty) : List Ty → List Ty
  | [] => []
  | t :: ts => bind θ t :: bindAll θ ts

end

@[simp] theorem substAll_eq_map (x : TyVar) (r : Ty) (ts : List Ty) :
    substAll x r ts = ts.map (subst x r) := by
  induction ts with
  | nil => rfl
  | cons t ts ih => rw [substAll, ih, List.map_cons]

@[simp] theorem bindAll_eq_map (θ : TyVar → Ty) (ts : List Ty) :
    bindAll θ ts = ts.map (bind θ) := by
  induction ts with
  | nil => rfl
  | cons t ts ih => rw [bindAll, ih, List.map_cons]

@[simp] theorem varsAll_eq_flatMap (ts : List Ty) : varsAll ts = ts.flatMap vars := by
  induction ts with
  | nil => rfl
  | cons t ts ih => rw [varsAll, ih, List.flatMap_cons]

/-- Every type has a positive size. -/
theorem size_pos (t : Ty) : 0 < size t := by
  cases t <;> simp only [size] <;> omega

end Ty

end TypedSexp
