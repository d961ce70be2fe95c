import TypedSexp.Setting.Document
import TypedSexp.Setting.Mapping
import TypedSexp.Text.Uppercase

/-!
# Logging

The configuration of the log: a file's settings laid over the built-in ones, key
by key, and a level for the program's own logger that goes over both. A file that
is malformed or no mapping does not count.
-/

namespace TypedSexp.Log

/-- The logger of the program; those of its parts are below it. -/
def ownLogger : String := "sexpc"

/-- The built-in settings: warnings go to the console. -/
def builtIn : List (Value × Value) :=
  let map (es : List (String × Value)) : Value := .map (es.map fun (k, v) => (.text k, v))
  let console : Value := .list [.text "console"]
  [(.text "version", .number (.int 1)),
   (.text "disable_existing_loggers", .bool false),
   (.text "formatters", map [("standard",
     map [("format", .text "%(asctime)s | %(levelname)-8s | %(name)s | %(message)s")])]),
   (.text "handlers", map [("console",
     map [("class", .text "logging.StreamHandler"), ("stream", .text "ext://sys.stderr"),
       ("formatter", .text "standard")])]),
   (.text "root", map [("level", .text "WARNING"), ("handlers", console)]),
   (.text "loggers", map [(ownLogger,
     map [("level", .text "WARNING"), ("handlers", console), ("propagate", .bool false)])])]

/-- Whether a key is one of the built-in settings. -/
def isSetting (k : Value) : Bool := (Value.lookup? k builtIn).isSome

/-- The settings with those of a file. -/
def settingsWith : Value → List (Value × Value)
  | .map es =>
    (es.filter fun e => isSetting e.1).foldl (fun acc e => Value.putEntry e.1 e.2 acc) builtIn
  | _ => builtIn

/-- The settings with a file, if there is one. -/
def settings (reader : DocumentReader) (file : Option String) :
    Except DocumentFault (List (Value × Value)) :=
  match file.map reader.read with
  | none | some (.error (.malformed _)) => .ok builtIn
  | some (.error f) => .error f
  | some (.ok v) => .ok (settingsWith v)

/-- Settings with a level for the program's own logger. An empty level is none. -/
def withLevel (level : String) (es : List (Value × Value)) :
    Except MapFault (List (Value × Value)) :=
  if level = "" then .ok es
  else do
    let loggers ← Value.mapping (Value.field? "loggers" es)
    let own ← Value.mapping (Value.field? ownLogger loggers)
    let own := Value.putField "level" (.text (Text.upper level)) own
    return Value.putField "loggers" (.map (Value.putField ownLogger (.map own) loggers)) es

/-! ## Levels in effect -/

/-- Why there is no level in effect. -/
inductive LevelFault where
  /-- There is no such level. -/
  | level
  /-- The logger has no name. -/
  | noName
  deriving DecidableEq, Repr

/-- The wording of a fault. -/
def LevelFault.message : LevelFault → String
  | .level => s!"Unable to configure logger '{ownLogger}'"
  | .noName => "logger name must be a non-empty string"

/-- The level in effect for the program's own logger when a level is set for it.
Two levels have a second name, and no level at all means the level of the root. -/
def effective? (level : String) : Option String :=
  match Text.upper level with
  | "" => some "WARNING"
  | "CRITICAL" | "FATAL" => some "CRITICAL"
  | "ERROR" => some "ERROR"
  | "WARNING" | "WARN" => some "WARNING"
  | "INFO" => some "INFO"
  | "DEBUG" => some "DEBUG"
  | "NOTSET" => some "WARNING"
  | _ => none

/-- Whether a logger is the program's own or below it. -/
def isOwn (name : String) : Bool :=
  name == ownLogger || (ownLogger ++ ".").toList.isPrefixOf name.toList

/-- The level in effect for a logger when a level is set for the program. -/
def levelOf (level name : String) : Except LevelFault String :=
  match effective? level with
  | none => .error .level
  | some l =>
    if name = "" then .error .noName else if isOwn name then .ok l else .ok "WARNING"

end TypedSexp.Log
