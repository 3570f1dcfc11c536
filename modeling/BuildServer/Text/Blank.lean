/-!
# Blank characters

White space is the Unicode property White_Space, a closed list of twenty-five code points. Trimming
and the splitting into words are defined on lists of characters by `dropWhile` and `foldr`, so that
the library's lemmas about those two functions apply.
-/

set_option autoImplicit false

namespace BuildServer.Text

/-- The characters with the Unicode property White_Space. -/
def isBlank (c : Char) : Bool :=
  let n := c.toNat
  (0x09 ≤ n && n ≤ 0x0D) || n == 0x20 || n == 0x85 || n == 0xA0 || n == 0x1680 ||
    (0x2000 ≤ n && n ≤ 0x200A) || n == 0x2028 || n == 0x2029 || n == 0x202F || n == 0x205F ||
    n == 0x3000

/-- Drops the blanks at both ends. -/
def trimChars (cs : List Char) : List Char :=
  ((cs.dropWhile isBlank).reverse.dropWhile isBlank).reverse

/-- Drops the blanks at both ends. -/
def trim (s : String) : String :=
  String.ofList (trimChars s.toList)

/-- Holds of a text without any character that is not blank; the empty text is one. -/
def isAllBlank (s : String) : Bool :=
  s.toList.all isBlank

/-- One character to the left of what `words` has read so far: the word that begins there, if the
character belongs to one, and the finished words after it. -/
def wordsStep (c : Char) : List Char × List (List Char) → List Char × List (List Char)
  | (word, later) =>
    if isBlank c then ([], if word.isEmpty then later else word :: later) else (c :: word, later)

/-- The maximal runs of characters that are not blank, from left to right. -/
def words (cs : List Char) : List (List Char) :=
  match cs.foldr wordsStep ([], []) with
  | (word, later) => if word.isEmpty then later else word :: later

/-- A text with its words one space apart and no blanks at its ends. -/
def singleSpaced (s : String) : String :=
  " ".intercalate ((words s.toList).map String.ofList)

end BuildServer.Text
