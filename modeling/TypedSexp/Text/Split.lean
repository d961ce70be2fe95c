/-!
# Splitting at a character

Keys are split at points and paths at slashes. A text has one piece more than it
has separators, so two separators in a row have an empty piece between them.
-/

namespace TypedSexp.Text

/-- The pieces of a text between the places where a character stands. -/
def splitAt (separator : Char) : List Char → List (List Char)
  | [] => [[]]
  | c :: rest =>
    if c = separator then [] :: splitAt separator rest
    else
      match splitAt separator rest with
      | piece :: pieces => (c :: piece) :: pieces
      | [] => [[c]]

/-- The pieces that are not empty. -/
def words (separator : Char) (cs : List Char) : List (List Char) :=
  (splitAt separator cs).filter fun piece => !piece.isEmpty

end TypedSexp.Text
