import TypedSexp.Setting.Document
import TypedSexp.Setting.Options

/-!
# Configurations

A configuration is a document with a mapping. An empty document is an empty
configuration.
-/

namespace TypedSexp

/-- Why a text is no configuration; most name where the text is from. -/
inductive ConfigurationFault where
  /-- The text is no document, with what the reader says about it. -/
  | malformed (source detail : String)
  | noMapping (source : String)
  /-- A part of the document has no value, with what the reader says about it. -/
  | badValue (message : String)
  /-- The reader gave up. This is not reported, so it has no wording of its own. -/
  | unexpected
  deriving DecidableEq, Repr

/-- The wording of a fault. -/
def ConfigurationFault.message : ConfigurationFault → String
  | .malformed source detail => s!"failed to parse configuration {source}: {detail}"
  | .noMapping source => s!"configuration root must be a mapping in {source}"
  | .badValue message => message
  | .unexpected => "the document cannot be read"

/-- The entries of a configuration. -/
def Configuration.parse (reader : DocumentReader) (source text : String) :
    Except ConfigurationFault (List (Value × Value)) :=
  match reader.read text with
  | .error (.malformed detail) => .error (.malformed source detail)
  | .error (.badValue message) => .error (.badValue message)
  | .error .unexpected => .error .unexpected
  | .ok .null => .ok []
  | .ok (.map es) => .ok es
  | .ok _ => .error (.noMapping source)

end TypedSexp
