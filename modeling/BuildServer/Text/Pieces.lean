/-!
# Pieces of a text

A text is cut at every occurrence of a separator, so that it has one more piece than separators, and
pieces may be empty.
-/

set_option autoImplicit false

namespace BuildServer.Text

/-- The pieces of a text between the separators. -/
def pieces (separator : Char) : List Char → List (List Char)
  | [] => [[]]
  | c :: cs =>
    if c = separator then [] :: pieces separator cs
    else match pieces separator cs with
      | piece :: rest => (c :: piece) :: rest
      | [] => [[c]]

/-- A text without the copies of `c` it ends with. -/
def dropTrailing (c : Char) (s : String) : String :=
  String.ofList (s.toList.reverse.dropWhile (· == c)).reverse

end BuildServer.Text
