import BuildServer.Text.LowercaseRuns
import BuildServer.Text.CaseProperties
/-!
# Case of names

Names are compared in two ways. Look-up in a table goes by the small letters of a name in the full
sense of Unicode, where two characters are not mapped one-to-one: the capital I with a dot becomes
two characters, and the capital sigma is written differently at the end of a word. Comparison of two
names at hand looks past the case of the twenty-six ASCII letters only.
-/

set_option autoImplicit false

namespace BuildServer.Text

/-- The first character that case rules do not skip is a letter with case. -/
def meetsCased (cs : List Char) : Bool :=
  match cs.dropWhile isCaseIgnorable with
  | [] => false
  | c :: _ => isCased c

/-- The small letters of `c`, which stands after the characters `before`, nearest first, and before
the characters `after`. A capital sigma that ends a word takes its final form. -/
def smallLettersAt (before : List Char) (c : Char) (after : List Char) : List Char :=
  if c = 'Σ' then
    if meetsCased before && !meetsCased after then ['ς'] else ['σ']
  else if c = 'İ' then ['i', '\u0307']
  else [smallLetter c]

/-- The small letters of a text that stands after the characters `before`, nearest first. -/
def smallLettersAfter (before : List Char) : List Char → List Char
  | [] => []
  | c :: cs => smallLettersAt before c cs ++ smallLettersAfter (c :: before) cs

/-- A text in small letters. -/
def lowercase (s : String) : String :=
  String.ofList (smallLettersAfter [] s.toList)

/-- Two names are the same up to the case of ASCII letters. -/
def sameName (a b : String) : Bool :=
  a.toList.map Char.toLower == b.toList.map Char.toLower

end BuildServer.Text
