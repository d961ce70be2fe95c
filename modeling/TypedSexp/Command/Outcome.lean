import TypedSexp.Command.Invocation
import TypedSexp.Report
import TypedSexp.Setting.Load
import TypedSexp.Setting.Override

/-!
# Outcomes

What an invocation does: the code that the program ends with, what it prints, and
the file that it writes. Nothing is printed or written unless all of the source
compiles. Overrides are checked first, then the configuration, then the source.

What does not belong to the program is given to it: the file system, and in its setup
the reader of documents and the configuration that it was installed with.
-/

namespace TypedSexp.Command

/-- What a program is set up with. -/
structure Setup where
  reader : DocumentReader
  /-- The configuration that counts where none is named, if there is one. -/
  config : Option Path := none

/-- What the program does. -/
structure Outcome where
  code : Nat
  /-- What is printed as the answer. -/
  out : String := ""
  /-- What is printed as the error. -/
  err : String := ""
  /-- The file that is written, and its text. -/
  file : Option (Path × String) := none

/-- Why nothing comes of an invocation. -/
inductive RunFault where
  | override (f : OverrideFault)
  | load (f : LoadFault)
  | source (f : TextFault)

/-- The wording of a fault. -/
def RunFault.message : RunFault → String
  | .override f => f.message
  | .load f => f.message
  | .source f => f.message

/-- The outcome of a failure. -/
def failure (line : String) : Outcome := { code := 1, err := line ++ "\n" }

/-- The line that tells why nothing comes of an invocation. -/
def RunFault.line (f : RunFault) : String := s!"[sexpc] error: {f.message}"

/-- Why an invocation breaks off. -/
inductive Break where
  /-- The value of an override cannot be made. -/
  | override (f : OverrideFault)
  /-- The reader of documents gave up on the configuration. -/
  | document
  | write (f : FileFault)
  deriving DecidableEq, Repr

/-- The wording of a break. -/
def Break.message : Break → String
  | .override f => f.message
  | .document => ConfigurationFault.unexpected.message
  | .write f => f.message

/-- How a fault breaks an invocation off, if it is one that is not reported. -/
def RunFault.break? : RunFault → Option Break
  | .override .badKey => some (.override .badKey)
  | .override .tooLarge => some (.override .tooLarge)
  | .load (.configuration .unexpected) => some .document
  | _ => none

/-- The outcome of a report. -/
def Action.finish (o : Options) (r : Report) : Action → Outcome
  | .check _ _ _ _ => { code := 0, out := r.write o }
  | .emit none _ => { code := 0, out := r.script }
  | .emit (some p) _ => { code := 0, file := some (p, r.script) }

namespace Invocation

/-- The options and the source of an invocation, before its action adds to the
options. -/
def load (i : Invocation) (setup : Setup) (files : Files) :
    Except RunFault (Options × String) := do
  let updates ← (Override.collect i.overrides).mapError .override
  let options ← (files.options setup.reader (i.config <|> setup.config) updates).mapError .load
  let source ← (files.readText i.source).mapError .source
  return (options, source)

/-- The outcome of an invocation with its options and its source. -/
def finish (i : Invocation) (options : Options) (source : String) : Outcome :=
  let o := i.action.options options
  match compile o i.source.text source with
  | .error d => failure (d.describe source i.source.text)
  | .ok r => i.action.finish o r

/-- The outcome of an invocation with the files that it sees, before anything is
written. -/
def outcome (i : Invocation) (setup : Setup) (files : Files) : Except Break Outcome :=
  match i.load setup files with
  | .ok (options, source) => .ok (i.finish options source)
  | .error f =>
    match f.break? with
    | some b => .error b
    | none => .ok (failure f.line)

/-- Carries out an invocation: its outcome, and the state of the file system after
it. -/
def run (i : Invocation) (setup : Setup) (system : FileSystem) (s : system.State) :
    Except Break Outcome × system.State :=
  match i.outcome setup (system.files s) with
  | .error b => (.error b, s)
  | .ok o =>
    match o.file with
    | none => (.ok o, s)
    | some (p, text) =>
      match system.write s p text.toUTF8 with
      | (.ok (), s') => (.ok o, s')
      | (.error f, s') => (.error (.write f), s')

end Invocation

end TypedSexp.Command
