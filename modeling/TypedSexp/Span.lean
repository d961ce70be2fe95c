/-!
# Spans

A span is a pair of offsets into a source text, counted in characters. Spans
that come with data may be any integers; a place is still named for each.
-/

namespace TypedSexp

/-- The offsets at which something starts and stops. -/
structure Span where
  start : Int
  stop : Int
  deriving DecidableEq, Repr

/-- A line and a column, both counted from one. -/
structure Location where
  line : Nat
  column : Int
  deriving DecidableEq, Repr

namespace Span

/-- The least span that holds two spans. -/
def cover (s t : Span) : Span := ⟨min s.start t.start, max s.stop t.stop⟩

/-- The span moved by a number of characters. -/
def shift (n : Int) (s : Span) : Span := ⟨s.start + n, s.stop + n⟩

/-- The text before a span. A negative offset counts from the text's end. -/
def textBefore (s : Span) (source : List Char) : List Char :=
  if s.start < 0 then source.take (source.length - s.start.natAbs)
  else source.take s.start.natAbs

/-- The place where a span starts: its line is one more than the newlines before
it, its column one more than the characters since the last of them. -/
def location (s : Span) (source : List Char) : Location :=
  let before := s.textBefore source
  let onLine := (before.reverse.takeWhile (· ≠ '\n')).length
  ⟨before.count '\n' + 1, s.start - (before.length - onLine : Nat) + 1⟩

end Span

end TypedSexp
