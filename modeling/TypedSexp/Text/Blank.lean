/-!
# Blank characters

The characters that separate words: the ASCII controls from tab to carriage
return and from file separator to unit separator, and every Unicode space or
line separator. The lexer skips exactly these, and settings are trimmed of
exactly these.
-/

namespace TypedSexp.Text

/-- The blank characters as ranges of code points, in ascending order. -/
def blankRanges : List (Nat × Nat) :=
  [(0x09, 0x0d), (0x1c, 0x20), (0x85, 0x85), (0xa0, 0xa0), (0x1680, 0x1680),
   (0x2000, 0x200a), (0x2028, 0x2029), (0x202f, 0x202f), (0x205f, 0x205f),
   (0x3000, 0x3000)]

/-- A character that only separates words. -/
def isBlank (c : Char) : Bool :=
  blankRanges.any fun r => r.1 ≤ c.toNat && c.toNat ≤ r.2

/-- A text without the blanks at its two ends. -/
def trimBlanks (cs : List Char) : List Char :=
  ((cs.dropWhile isBlank).reverse.dropWhile isBlank).reverse

/-- The lower case of an ASCII text. Letters outside ASCII stay as they are,
which is all that a comparison with an ASCII word can see: no such letter but
the Kelvin sign has a lower case inside ASCII, and it stands for a `k`. -/
def asciiLower (cs : List Char) : List Char := cs.map Char.toLower

end TypedSexp.Text
