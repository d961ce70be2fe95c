import TypedSexp.Text.Digit
import TypedSexp.Text.Quoted

/-!
# Command-line arguments

Arguments are options and operands. An option is named in full or by the start of
its name if only one option starts so; its value follows it or an equals sign.
After `--` everything is an operand. A command line takes one operand; for some the
operand is a command, which takes all arguments after it.
-/

namespace TypedSexp.Command

/-- What an option does. -/
inductive OptionKind where
  | help
  | flag
  | value
  deriving DecidableEq, Repr

/-- An option with its names. -/
structure OptionSpec where
  names : List String
  kind : OptionKind
  deriving DecidableEq, Repr

/-- All names of an option. -/
def OptionSpec.title (o : OptionSpec) : String := String.intercalate "/" o.names

/-- Why arguments are refused. -/
inductive UsageFault where
  /-- An operand is missing. -/
  | required (operand : String)
  /-- There is no such command. -/
  | choice (operand given : String) (choices : List String)
  /-- Nothing takes these arguments. -/
  | unrecognized (arguments : List String)
  /-- The value of an option is missing. -/
  | noValue (option : String)
  /-- An option takes no value. -/
  | value (option given : String)
  /-- Several options start like this. -/
  | ambiguous (given : String) (options : List String)
  deriving DecidableEq, Repr

/-- The wording of a fault. -/
def UsageFault.message : UsageFault → String
  | .required operand => s!"the following arguments are required: {operand}"
  | .choice operand given choices =>
    let options := String.intercalate ", " (choices.map Text.quoted)
    s!"argument {operand}: invalid choice: {Text.quoted given} (choose from {options})"
  | .unrecognized arguments => "unrecognized arguments: " ++ String.intercalate " " arguments
  | .noValue option => s!"argument {option}: expected one argument"
  | .value option given => s!"argument {option}: ignored explicit argument {Text.quoted given}"
  | .ambiguous given options =>
    s!"ambiguous option: {given} could match " ++ String.intercalate ", " options

/-- Why a command line is not carried out: help was asked for, or its arguments
are refused. -/
inductive Stop where
  | help
  | fault (f : UsageFault)
  deriving DecidableEq, Repr

/-- An option that an argument names, and the value given with it: after an equals
sign, or joined to a name of one letter. -/
structure Named where
  option : OptionSpec
  name : String
  value : Option String
  deriving DecidableEq, Repr

/-- An argument by its kind. -/
inductive Argument where
  | separator
  | operand (text : String)
  /-- An option, unless none has such a name. -/
  | option (text : String) (named : Option Named)

/-- The argument as given. -/
def Argument.text : Argument → String
  | .separator => "--"
  | .operand s => s
  | .option s _ => s

/-! ## Kinds of arguments -/

/-- The options and each of their names. -/
def namesOf (specs : List OptionSpec) : List (OptionSpec × String) :=
  specs.flatMap fun o => o.names.map fun n => (o, n)

/-- What stands before the first equals sign, and after it if there is one. -/
def splitValue (s : String) : String × Option String :=
  let cs := s.toList
  let before := String.ofList (cs.takeWhile (· != '='))
  match cs.dropWhile (· != '=') with
  | [] => (before, none)
  | _ :: after => (before, some (String.ofList after))

/-- The option of exactly this name. -/
def namedExactly? (specs : List OptionSpec) (name : String) (value : Option String) : Option Named :=
  ((namesOf specs).find? fun o => o.2 == name).map fun o => ⟨o.1, o.2, value⟩

/-- Whether a name starts with another text. -/
def startsWith (start name : String) : Bool := start.toList.isPrefixOf name.toList

/-- The options whose names start like an argument. After a name of one letter the
rest of the argument is its value. -/
def starting (specs : List OptionSpec) (s : String) : List Named :=
  if startsWith "--" s then
    let (start, value) := splitValue s
    (namesOf specs).filterMap fun (o, n) => if startsWith start n then some ⟨o, n, value⟩ else none
  else
    let letter := String.ofList (s.toList.take 2)
    (namesOf specs).filterMap fun (o, n) =>
      if n = letter then some ⟨o, n, some (String.ofList (s.toList.drop 2))⟩
      else if startsWith s n then some ⟨o, n, none⟩
      else none

/-- A text without the line end that it may end with. -/
def withoutLineEnd (cs : List Char) : List Char :=
  if cs.getLast? = some '\n' then cs.dropLast else cs

/-- Whether an argument looks like a negative number: digits of any script, with a
point before the last of them or with none, and maybe a line end after them. -/
def isNegativeNumber (s : String) : Bool :=
  match withoutLineEnd s.toList with
  | '-' :: cs =>
    match cs.dropWhile Text.isAnyDigit with
    | [] => !cs.isEmpty
    | '.' :: fraction => !fraction.isEmpty && fraction.all Text.isAnyDigit
    | _ => false
  | _ => false

/-- The kind of an argument before `--`. -/
def classify (specs : List OptionSpec) (s : String) : Except UsageFault Argument :=
  let (name, value) := splitValue s
  if !startsWith "-" s then .ok (.operand s)
  else
    match namedExactly? specs s none with
    | some named => .ok (.option s (some named))
    | none =>
      if s = "-" then .ok (.operand s)
      else
        match if value.isSome then namedExactly? specs name value else none with
        | some named => .ok (.option s (some named))
        | none =>
          match starting specs s with
          | [named] => .ok (.option s (some named))
          | [] =>
            if isNegativeNumber s || s.toList.contains ' ' then .ok (.operand s)
            else .ok (.option s none)
          | several => .error (.ambiguous s (several.map (·.name)))

/-- The arguments by their kinds. -/
def classifyAll (specs : List OptionSpec) : List String → Except UsageFault (List Argument)
  | [] => .ok []
  | "--" :: rest => .ok (.separator :: rest.map .operand)
  | s :: rest => do
    let a ← classify specs s
    let as ← classifyAll specs rest
    return a :: as

/-! ## Reading -/

/-- What arguments say. -/
structure Reading where
  /-- The options in order, each by its last name, with their values. -/
  options : List (String × String) := []
  operand : Option String := none
  /-- What follows a command. -/
  rest : List String := []
  /-- What nothing takes. -/
  extras : List String := []
  deriving DecidableEq, Repr

namespace Reading

/-- Whether a flag is given. -/
def flag (r : Reading) (name : String) : Bool := r.options.any (·.1 == name)

/-- The values of an option. -/
def values (r : Reading) (name : String) : List String :=
  (r.options.filter (·.1 == name)).map (·.2)

/-- The value of an option that is given last. -/
def value? (r : Reading) (name : String) : Option String := (r.values name).getLast?

/-- Adds an option. -/
def addOption (r : Reading) (o : OptionSpec) (value : String) : Reading :=
  { r with options := r.options ++ [(o.names.getLast?.getD "", value)] }

/-- Adds what nothing takes. -/
def addExtra (r : Reading) (s : String) : Reading := { r with extras := r.extras ++ [s] }

end Reading

/-- The options that an option of one letter and what is joined to it stand for. To
an option without a value more letters of options may be joined; what starts with
anything else is a value, which it refuses. -/
def spreadLetters (specs : List OptionSpec) (o : OptionSpec) (name : String) :
    List Char → Except UsageFault (List Named)
  | [] => .ok [⟨o, name, none⟩]
  | c :: cs =>
    if o.kind = .value then .ok [⟨o, name, some (String.ofList (c :: cs))⟩]
    else
      match namedExactly? specs (String.ofList ['-', c]) none with
      | none => .error (.value o.title (String.ofList (c :: cs)))
      | some n => (spreadLetters specs n.option n.name cs).map (⟨o, name, none⟩ :: ·)

/-- The options that an argument stands for, each with the value given with it if it
takes one. -/
def spread (specs : List OptionSpec) (n : Named) : Except UsageFault (List Named) :=
  match n.value with
  | none => .ok [n]
  | some v =>
    if n.option.kind = .value then .ok [n]
    else if v = "" || startsWith "--" n.name then .error (.value n.option.title v)
    else spreadLetters specs n.option n.name v.toList

/-- Reads an option whose value, if it takes one and has none, is the argument after
it. The result says whether that argument is used up. -/
def readOption (r : Reading) (n : Named) (next : Option Argument) : Except Stop (Reading × Bool) :=
  match n.option.kind with
  | .value =>
    match n.value, next with
    | some v, _ => .ok (r.addOption n.option v, false)
    | none, some (.operand v) => .ok (r.addOption n.option v, true)
    | none, _ => .error (.fault (.noValue n.option.title))
  | .flag => .ok (r.addOption n.option "", false)
  | .help => .error .help

/-- Reads the options that one argument stands for. Only the last of them may use up
the argument after it. -/
def readOptions (next : Option Argument) : Reading → List Named → Except Stop (Reading × Bool)
  | r, [] => .ok (r, false)
  | r, [n] => readOption r n next
  | r, n :: ns =>
    match readOption r n none with
    | .ok (r, _) => readOptions next r ns
    | .error e => .error e

/-- Reads an argument that names an option. -/
def readNamed (specs : List OptionSpec) (r : Reading) (n : Named) (next : Option Argument) :
    Except Stop (Reading × Bool) :=
  match spread specs n with
  | .ok ns => readOptions next r ns
  | .error f => .error (.fault f)

/-- Reads arguments by their kinds. A separator goes with the operand next to it;
for a command it stands in the command's place. -/
def readFrom (specs : List OptionSpec) (isCommand : Bool) : Reading → List Argument → Except Stop Reading
  | r, [] => .ok r
  | r, .separator :: .operand s :: as =>
    if r.operand.isSome then readFrom specs isCommand (r.addExtra "--") (.operand s :: as)
    else if isCommand then .ok { r with operand := some "--", rest := s :: as.map Argument.text }
    else readFrom specs isCommand { r with operand := some s } as
  | r, .separator :: as => readFrom specs isCommand (r.addExtra "--") as
  | r, .operand s :: as =>
    if r.operand.isSome then readFrom specs isCommand (r.addExtra s) as
    else if isCommand then .ok { r with operand := some s, rest := as.map Argument.text }
    else
      match as with
      | .separator :: as' => readFrom specs isCommand { r with operand := some s } as'
      | as' => readFrom specs isCommand { r with operand := some s } as'
  | r, .option s none :: as => readFrom specs isCommand (r.addExtra s) as
  | r, .option _ (some n) :: as =>
    match as with
    | [] =>
      match readNamed specs r n none with
      | .ok (r, _) => .ok r
      | .error e => .error e
    | next :: as' =>
      match readNamed specs r n (some next) with
      | .ok (r, true) => readFrom specs isCommand r as'
      | .ok (r, false) => readFrom specs isCommand r (next :: as')
      | .error e => .error e
termination_by _ as => as.length

/-- Reads a command line with its options and its operand, which must be there. -/
def read (specs : List OptionSpec) (operand : String) (isCommand : Bool) (argv : List String) :
    Except Stop (Reading × String) :=
  match classifyAll specs argv with
  | .error f => .error (.fault f)
  | .ok as =>
    match readFrom specs isCommand {} as with
    | .error e => .error e
    | .ok r =>
      match r.operand with
      | none => .error (.fault (.required operand))
      | some s => .ok (r, s)

end TypedSexp.Command
