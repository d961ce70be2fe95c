import TypedSexp.Files
import TypedSexp.Setting.Configuration

/-!
# Configurations in files

Options read from a configuration file, with further settings laid over them.
-/

namespace TypedSexp

/-- Why options cannot be loaded. -/
inductive LoadFault where
  /-- There is no configuration file. -/
  | missing (path : Path)
  | text (f : TextFault)
  | configuration (f : ConfigurationFault)
  | option (f : OptionFault)

/-- The wording of a fault. -/
def LoadFault.message : LoadFault → String
  | .missing p => s!"configuration file not found: {p.text}"
  | .text f => f.message
  | .configuration f => f.message
  | .option f => f.message

namespace Files

/-- The entries of a configuration file. -/
def configuration (files : Files) (reader : DocumentReader) (p : Path) :
    Except LoadFault (List (Value × Value)) :=
  if files.lacks p then .error (.missing p)
  else
    match files.readText p with
    | .error f => .error (.text f)
    | .ok text =>
      match Configuration.parse reader p.text text with
      | .error f => .error (.configuration f)
      | .ok es => .ok es

/-- The options that a configuration file gives, the defaults without one, with
settings laid over them. -/
def options (files : Files) (reader : DocumentReader) (p : Option Path)
    (updates : List (Value × Value)) : Except LoadFault Options := do
  let entries ← match p with
    | none => .ok []
    | some p => files.configuration reader p
  ((Options.ofEntries entries).bind (·.merge updates)).mapError .option

end Files

end TypedSexp
