import TypedSexp.Setting.Value

/-!
# Documents

A configuration is the value of a YAML document. What YAML is, is not said here: the
reader of documents is given from outside, and nothing is assumed of it. It may read
any text as any value, and refuse any text in each of the ways a reader has.

A value holds its parts and never itself, so a document that refers back to a part
around it is read as one of the values that show the same wherever they are looked
into.
-/

namespace TypedSexp

/-- Why a text has no value as a document. -/
inductive DocumentFault where
  /-- It is no document. The reader says what is wrong with it. -/
  | malformed (detail : String)
  /-- A part of it has no value of its kind. The reader says why. -/
  | badValue (message : String)
  /-- The reader gives up for a reason that nobody asks it for. -/
  | unexpected
  deriving DecidableEq, Repr

/-- A reader of documents. -/
structure DocumentReader where
  read : String → Except DocumentFault Value

end TypedSexp
