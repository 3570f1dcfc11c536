import BuildServer.Regex.Basic
/-!
# Searching a text

A search keeps marks for the places of a text: the first one for the place ahead of all characters, and
each further one for the place behind one more of them. Places for which there is no mark left are not
marked. An expression moves the marks on, and there is a match if one is left.

For a star the text is swept once. Wherever there is a mark, the expression is tried from this place alone,
and the places that it leads to are marked before their own turn comes, so no place is tried twice.

The size of a compiled expression is measured on what the `regex` library accepts: it is that of an
automaton over octets, and the limit is the one the library has where none is set.
-/

set_option autoImplicit false

namespace BuildServer

namespace Regex

/-- All that is marked in one list or the other. -/
def union : List Bool → List Bool → List Bool
  | [], more => more
  | marks, [] => marks
  | m :: marks, n :: more => (m || n) :: union marks more

/-- The marks for the places behind a character with the property, from the second place on. -/
def moveOn (property : Char → Bool) : List Char → List Bool → List Bool
  | [], _ | _ :: _, [] => []
  | c :: rest, m :: marks => (m && property c) :: moveOn property rest marks

/-- The mark at the end of the text, if there is one. -/
def atEnd : List Char → List Bool → List Bool
  | [], marks => marks
  | _ :: _, [] => []
  | _ :: rest, _ :: marks => false :: atEnd rest marks

/-- Some place of the text is marked. -/
def hasMark : List Char → List Bool → Bool
  | _, true :: _ => true
  | _ :: rest, false :: marks => hasMark rest marks
  | _, _ => false

/-- Goes over the text, and marks whatever a step leads to from a place that is marked. A step is told
whether it is made from the first place of the whole text. -/
def sweep (step : Bool → List Char → List Bool) : Bool → List Char → List Bool → List Bool
  | _, [], marks => marks
  | _, _ :: _, [] => []
  | first, c :: rest, m :: marks =>
    let onward := if m then union marks (step first (c :: rest)).tail else marks
    m :: sweep step false rest onward

/-- The marks for the places of a text that the expression leads to from marked ones. The text is the whole
one, if this is its first place, or what is left of it. -/
def reach : Regex → Bool → List Char → List Bool → List Bool
  | .empty, _, _, marks => marks
  | .start, first, _, marks => if first then marks.take 1 else []
  | .finish, _, text, marks => atEnd text marks
  | .literal c, _, text, marks => false :: moveOn (· == c) text marks
  | .dot, _, text, marks => false :: moveOn (· != '\n') text marks
  | .except c, _, text, marks => false :: moveOn (· != c) text marks
  | .concat e f, first, text, marks => reach f first text (reach e first text marks)
  | .star e, first, text, marks => sweep (fun first text => reach e first text [true]) first text marks

/-- There is a match somewhere in the text. -/
def search (e : Regex) (text : List Char) : Bool :=
  hasMark text (reach e true text (List.replicate (text.length + 1) true))

/-- The expression is for a single text. -/
def isFixed : Regex → Bool
  | .dot | .except _ | .star _ => false
  | .concat first second => first.isFixed && second.isFixed
  | _ => true

/-- The size of what the parts of the expression are compiled to. -/
def weight : Regex → Nat
  | .empty => 0
  | .start | .finish => 64
  | .literal c => 32 * c.utf8Size
  | .dot | .except _ => 1000
  | .concat first second => first.weight + second.weight
  | .star e => e.weight + 40

/-- How large a compiled expression may be. -/
def sizeLimit : Nat := 10 * 1024 * 1024

/-- The size of the compiled expression, which for a single text is larger by one more state. -/
def size (e : Regex) : Nat := if e.isFixed then e.weight + 64 else e.weight

end Regex

/-- The library that is there to run. -/
instance searchLibrary : RegexLibrary where
  accepts e := e.size ≤ Regex.sizeLimit
  isMatch e text := e.search text

end BuildServer
