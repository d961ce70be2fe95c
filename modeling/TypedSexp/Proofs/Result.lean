import Mathlib.Tactic.Common

/-!
# Results

A chain of steps that may fail gives a result only if each of its steps does, and it fails
with the failure of one of them. These lemmas take such a chain apart, step by step.
-/

namespace TypedSexp

variable {ε ε' α β : Type} {x : Except ε α}

/-- A computation in two parts that gives a result gave one in its first part, and the second part
gave the result from it. Proofs take the stages of a compilation apart with this, without unfolding
them. -/
theorem exists_of_bind_eq_ok {f : α → Except ε β} {b : β} (h : x >>= f = .ok b) :
    ∃ a, x = .ok a ∧ f a = .ok b := by
  cases x with
  | error e => cases h
  | ok a => exact ⟨a, rfl, h⟩

/-- A computation in two parts fails in the first one, or in the second one after the first gave a
result. Which of the two it was is all that tells the stage of a failure. -/
theorem eq_error_or_of_bind_eq_error {f : α → Except ε β} {e : ε} (h : x >>= f = .error e) :
    x = .error e ∨ ∃ a, x = .ok a ∧ f a = .error e := by
  cases x with
  | error e' =>
    cases h
    exact .inl rfl
  | ok a => exact .inr ⟨a, rfl, h⟩

/-- What comes out of a mapped computation comes from something that the computation gave. -/
theorem exists_of_map_eq_ok {f : α → β} {b : β} (h : x.map f = .ok b) :
    ∃ a, x = .ok a ∧ f a = b := by
  cases x with
  | error e => cases h
  | ok a => exact ⟨a, rfl, Except.ok.inj h⟩

/-- Mapping the result of a computation neither makes a failure nor changes one. -/
theorem eq_error_of_map_eq_error {f : α → β} {e : ε} (h : x.map f = .error e) :
    x = .error e := by
  cases x with
  | error e' =>
    cases h
    rfl
  | ok a => cases h

/-- Rewording the faults of a computation does not touch a result that it gave. -/
theorem eq_ok_of_mapError_eq_ok {f : ε → ε'} {a : α} (h : x.mapError f = .ok a) : x = .ok a := by
  cases x with
  | error e => cases h
  | ok a' =>
    cases h
    rfl

/-- A reworded fault was made from a fault of the computation itself. The fault need not be the only
one that is worded like this. -/
theorem exists_of_mapError_eq_error {f : ε → ε'} {e' : ε'} (h : x.mapError f = .error e') :
    ∃ e, x = .error e ∧ f e = e' := by
  cases x with
  | error e => exact ⟨e, rfl, Except.error.inj h⟩
  | ok a => cases h

end TypedSexp
