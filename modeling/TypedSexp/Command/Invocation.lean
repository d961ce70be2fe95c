import TypedSexp.Command.Arguments
import TypedSexp.Path
import TypedSexp.Setting.Options

/-!
# Invocations

What a command line asks for: to check a source and print a report, or to emit
its script. A shorter command line only emits, and is turned into one of the
full command lines.
-/

namespace TypedSexp.Command

/-- What is done with a source. -/
inductive Action where
  /-- Print a report, with what the flags add to the options. -/
  | check (types substitution script json : Bool)
  /-- Write the script to a file or print it, with or without types. -/
  | emit (output : Option Path) (skipsTypes : Bool)
  deriving DecidableEq, Repr

/-- A command line that was understood. -/
structure Invocation where
  /-- The configuration file, if one is given. -/
  config : Option Path
  /-- The overrides as given. -/
  overrides : List String
  source : Path
  action : Action
  deriving DecidableEq, Repr

/-- The options that an action asks for over those that are set. -/
def Action.options (o : Options) : Action → Options
  | .check types substitution script json =>
    { infers := true
      format := if json then .json else o.format
      showsTypes := types || o.showsTypes
      showsSubstitution := substitution || o.showsSubstitution
      emits := script || o.emits }
  | .emit _ skipsTypes => { o with infers := !skipsTypes && o.infers, emits := true }

/-- The option that asks for help. -/
def helpOption : OptionSpec := ⟨["-h", "--help"], .help⟩

/-- An option that takes a value. -/
def valueOption (name : String) : OptionSpec := ⟨[name], .value⟩

/-- An option that takes none. -/
def flagOption (name : String) : OptionSpec := ⟨[name], .flag⟩

/-- The options before the command. -/
def mainOptions : List OptionSpec := [helpOption, valueOption "--config", valueOption "--set"]

/-- The options of the command `check`. -/
def checkOptions : List OptionSpec :=
  [helpOption, flagOption "--types", flagOption "--subs", flagOption "--emit", flagOption "--json"]

/-- The options of the command `emit`. -/
def emitOptions : List OptionSpec :=
  [helpOption, valueOption "--output", flagOption "--no-check"]

/-- The options of the shorter command line. -/
def shortOptions : List OptionSpec :=
  [helpOption, valueOption "--config", valueOption "--set", valueOption "--output",
   flagOption "--no-check"]

/-- The names of the commands. -/
def commandNames : List String := ["check", "emit"]

/-- Refuses what nothing takes. -/
def refuseExtras (extras : List String) : Except Stop Unit :=
  if extras.isEmpty then .ok () else .error (.fault (.unrecognized extras))

/-- The action of a command and its source, and what nothing takes. -/
def readCommand (command : String) (argv : List String) :
    Except Stop (Path × Action × List String) :=
  if command = "check" then do
    let (r, source) ← read checkOptions "source" false argv
    let action := .check (r.flag "--types") (r.flag "--subs") (r.flag "--emit") (r.flag "--json")
    return (.ofText source, action, r.extras)
  else if command = "emit" then do
    let (r, source) ← read emitOptions "source" false argv
    let action := .emit ((r.value? "--output").map Path.ofText) (r.flag "--no-check")
    return (.ofText source, action, r.extras)
  else .error (.fault (.choice "command" command commandNames))

/-- The invocation that a command line asks for. -/
def Invocation.parse (argv : List String) : Except Stop Invocation := do
  let (r, command) ← read mainOptions "command" true argv
  let (source, action, extras) ← readCommand command r.rest
  refuseExtras (r.extras ++ extras)
  return { config := (r.value? "--config").map Path.ofText, overrides := r.values "--set",
           source, action }

/-- The full command line that a shorter one stands for. -/
def expandShort (argv : List String) : Except Stop (List String) := do
  let (r, source) ← read shortOptions "source" false argv
  refuseExtras r.extras
  let named (name : String) : List String :=
    match r.value? name with
    | some v => [name, (Path.ofText v).text]
    | none => []
  return named "--config" ++ (r.values "--set").flatMap (fun v => ["--set", v]) ++
    ["emit", (Path.ofText source).text] ++ named "--output" ++
    (if r.flag "--no-check" then ["--no-check"] else [])

/-- The invocation that a shorter command line asks for. -/
def Invocation.parseShort (argv : List String) : Except Stop Invocation :=
  (expandShort argv).bind Invocation.parse

end TypedSexp.Command
