/-!
# Regular expressions

The expressions that patterns for paths are compiled to, which are a small part of those that the
`regex` library knows. An expression comes as a text and is read as that library's documentation says:
a group and a character class are closed before what follows them, a star repeats the one expression in
front of it, and a character with a meaning of its own stands for itself behind a backslash. A text with
anything else in it is not read.

How a library searches a text is its own affair, and so is which expressions get too large for it when
they are compiled. Both are taken as a parameter, `RegexLibrary`.
-/

set_option autoImplicit false

namespace BuildServer

/-- A regular expression. -/
inductive Regex where
  | empty
  /-- `^`: the beginning of the text that is searched. -/
  | start
  /-- `$`: its end. -/
  | finish
  | literal (c : Char)
  /-- `.`: any character but a line feed. -/
  | dot
  /-- `[^c]`: any character but this one. -/
  | except (c : Char)
  | concat (first second : Regex)
  /-- `e*`: the expression any number of times. -/
  | star (e : Regex)
  deriving DecidableEq, Repr, Inhabited

namespace Regex

/-- The character has a meaning of its own in an expression. -/
def isMeta (c : Char) : Bool :=
  ['\\', '.', '+', '*', '?', '(', ')', '|', '[', ']', '{', '}', '^', '$', '#', '&', '-', '~'].contains c

/-- The expression for a text as it stands (`regex::escape`). -/
def escape (text : List Char) : List Char :=
  text.flatMap fun c => if isMeta c then ['\\', c] else [c]

/-- The expressions one after the other. -/
def concatAll : List Regex → Regex
  | [] => .empty
  | e :: es => .concat e (concatAll es)

/-- Reads the rest of a text. What has been read of the innermost open group is `done`, and of the groups
around it `around`, both with the last expression first. -/
def readFrom (around : List (List Regex)) (done : List Regex) : List Char → Option Regex
  | [] => if around.isEmpty then some (concatAll done.reverse) else none
  | '(' :: '?' :: ':' :: rest => readFrom (done :: around) [] rest
  | ')' :: rest =>
    match around with
    | before :: around => readFrom around (concatAll done.reverse :: before) rest
    | [] => none
  | '*' :: rest =>
    match done with
    | e :: done => readFrom around (.star e :: done) rest
    | [] => none
  | '[' :: '^' :: c :: ']' :: rest =>
    if isMeta c then none else readFrom around (.except c :: done) rest
  | '.' :: rest => readFrom around (.dot :: done) rest
  | '^' :: rest => readFrom around (.start :: done) rest
  | '$' :: rest => readFrom around (.finish :: done) rest
  | '\\' :: c :: rest => if isMeta c then readFrom around (.literal c :: done) rest else none
  | c :: rest => if isMeta c then none else readFrom around (.literal c :: done) rest

/-- Reads the text of an expression. -/
def ofText? (text : List Char) : Option Regex := readFrom [] [] text

end Regex

/-- A library of regular expressions. -/
class RegexLibrary where
  /-- The expression can be compiled (`Regex::new`): it does not get too large. -/
  accepts : Regex → Bool
  /-- Somewhere in the text there is a match (`Regex::is_match`). -/
  isMatch : Regex → List Char → Bool

end BuildServer
