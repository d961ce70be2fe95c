/-!
# Line ends

Source and configuration files may end their lines with a line feed, a carriage
return, or both. Reading makes each of them one line feed.
-/

namespace TypedSexp.Text

/-- Every line end as one line feed. -/
def unifyNewlines : List Char → List Char
  | '\r' :: '\n' :: rest => '\n' :: unifyNewlines rest
  | '\r' :: rest => '\n' :: unifyNewlines rest
  | c :: rest => c :: unifyNewlines rest
  | [] => []

end TypedSexp.Text
