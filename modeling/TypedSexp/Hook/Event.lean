import TypedSexp.Compile
import TypedSexp.Setting.Value

/-!
# Events

What listeners are told: the name of an event and its payload. Every compilation
ends with one event, which says what was compiled or why it failed; other events
carry a value.
-/

namespace TypedSexp

/-- What an event carries. -/
inductive Payload where
  /-- A compilation succeeded: the shown type of each form, none if it was not
  typed, and whether script was asked for. -/
  | completed (filename : String) (rootTypes : List (Option String)) (emits : Bool)
  /-- A compilation failed at a stage, with a kind of failure, in a place. -/
  | failed (filename : String) (stage : Stage) (kind : String) (location : Option Location)
  /-- Any value, mostly entries under names. -/
  | data (v : Value)

/-- An event. -/
structure Event where
  name : String
  payload : Payload

namespace Event

/-- The name of the event that a compilation succeeded. -/
def completedName : String := "compiler.run.completed"

/-- The name of the event that a compilation failed. -/
def failedName : String := "compiler.run.failed"

/-- An event with a value. Nothing stands for a mapping without entries. -/
def ofValue (name : String) : Value → Event
  | .null => ⟨name, .data (.map [])⟩
  | v => ⟨name, .data v⟩

/-- The event that a compilation ends with. -/
def ofOutcome (o : Options) (filename source : String) : Except Diagnostic Report → Event
  | .ok r => ⟨completedName, .completed filename (r.forms.map FormReport.typeText?) o.emits⟩
  | .error d => ⟨failedName, .failed filename d.stage d.kind (d.location? source)⟩

end Event

end TypedSexp
