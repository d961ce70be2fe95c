import TypedSexp.Command.Outcome
import TypedSexp.Setting.Yaml.Document

/-!
# The command line

Reads the files that an invocation names, carries it out, prints what it prints
and writes what it writes.
-/

namespace TypedSexp.Command

/-- The fault that the system reports for a path. A path of the wrong kind is a
directory under the code 21, which some calls report with its sign changed. What has
no place among the faults counts as a failure of the device. -/
def faultOf (p : Path) : IO.Error → FileFault
  | .inappropriateType _ code _ =>
    if code = 21 ∨ code = -21 then .directory p else .notDirectory p
  | .noFileOrDirectory _ _ _ => .missing p
  | .permissionDenied _ _ reason => .refused 13 reason p
  | _ => .refused 5 "Input/output error" p

/-- The bytes under a path. -/
def readPath (p : Path) : IO (Except FileFault ByteArray) := do
  try
    return .ok (← IO.FS.readBinFile p.text)
  catch e =>
    return .error (faultOf p e)

/-- The files under some paths. -/
def readPaths : List Path → IO Files
  | [] => return ⟨fun p => .error (.missing p)⟩
  | p :: ps => do
    let bytes ← readPath p
    let files ← readPaths ps
    return ⟨fun q => if q = p then bytes else files.read q⟩

/-- Prints and writes what an outcome says. -/
def Outcome.perform (o : Outcome) : IO UInt32 := do
  (← IO.getStdout).putStr o.out
  (← IO.getStderr).putStr o.err
  match o.file with
  | some (p, text) => IO.FS.writeFile p.text text
  | none => pure ()
  return UInt32.ofNat o.code

end TypedSexp.Command

open TypedSexp.Command in
/-- Carries out the command line that the program is called with. -/
def main (argv : List String) : IO UInt32 := do
  match Invocation.parse argv with
  | .error .help =>
    IO.println "usage: sexpc [-h] [--config CONFIG] [--set KEY=VALUE] \x7bcheck,emit\x7d ..."
    return 0
  | .error (.fault f) =>
    IO.eprintln s!"sexpc: error: {f.message}"
    return 2
  | .ok i =>
    let files ← readPaths (i.source :: i.config.toList)
    match i.outcome { reader := TypedSexp.Yaml.reader } files with
    | .error b =>
      IO.eprintln s!"[sexpc] error: {b.message}"
      return 1
    | .ok o => o.perform
