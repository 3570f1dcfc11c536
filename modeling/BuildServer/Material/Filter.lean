import BuildServer.Json.Decode
import BuildServer.Json.Printer
import BuildServer.Regex.Basic
import BuildServer.Text.Blank
/-!
# Filters

A filter lists patterns for the paths of files whose changes are not looked at. In a pattern `**`
crosses directories, `*` and `?` stay within a segment, and all else stands for itself.

A pattern is compiled to a regular expression. It is gone through from left to right: at every place the
longest token there is written as an expression, and the next place is as many octets further on as the
token has. The whole is anchored at both ends. A pattern is compiled once, when it is made; it is compared
and written by its text alone.
-/

set_option autoImplicit false

namespace BuildServer

/-- A path with slashes for backslashes and no slash in front. -/
def normalizePath (cs : List Char) : List Char :=
  (cs.map fun c => if c = '\\' then '/' else c).dropWhile (· == '/')

namespace PathPattern

/-- The characters of a pattern that count: without blanks around it, as a path. -/
def normalize (text : String) : List Char := normalizePath (Text.trimChars text.toList)

/-- The expression for the token that stands first, and how many octets the token has. -/
def leading : Char → List Char → String × Nat
  | '*', '*' :: '/' :: _ => ("(?:[^/]*/)*", 3)
  | '*', '*' :: _ => (".*", 2)
  | '*', _ => ("[^/]*", 1)
  | '?', _ => ("[^/]", 1)
  | c, _ => (String.ofList (Regex.escape [c]), c.utf8Size)

/-- The expression for what is left of a pattern behind a number of octets. -/
def expressionBehind : Nat → List Char → List Char
  | _, [] => []
  | 0, c :: rest =>
    let (fragment, octets) := leading c rest
    fragment.toList ++ expressionBehind (octets - c.utf8Size) rest
  | octets, c :: rest => expressionBehind (octets - c.utf8Size) rest

/-- The text of the expression that a pattern is compiled to (`to_regex`). -/
def expression (text : String) : List Char :=
  '^' :: expressionBehind 0 (normalize text) ++ ['$']

end PathPattern

/-- A pattern for paths, as it was configured, with what it was compiled to (`IgnoredFiles`). -/
structure PathPattern where
  text : String
  regex : Option Regex
  compiled : regex = Regex.ofText? (PathPattern.expression text)
  deriving Repr

namespace PathPattern

/-- Compiles a pattern (`IgnoredFiles::new`). -/
def ofText (text : String) : PathPattern := ⟨text, Regex.ofText? (expression text), rfl⟩

/-- Patterns are compared by their texts, of which all else is made. -/
theorem ext_text {p q : PathPattern} (same : p.text = q.text) : p = q := by
  obtain ⟨text, _, rfl⟩ := p
  obtain ⟨_, _, rfl⟩ := q
  cases same
  rfl

instance : DecidableEq PathPattern := fun p q =>
  decidable_of_iff (p.text = q.text) ⟨ext_text, congrArg text⟩

instance : Inhabited PathPattern := ⟨ofText ""⟩

def normalized (p : PathPattern) : List Char := normalize p.text

section Library

variable [RegexLibrary]

/-- The pattern could be compiled (`IgnoredFiles::is_usable`). -/
def isUsable (p : PathPattern) : Bool := p.regex.any RegexLibrary.accepts

/-- The pattern covers the path (`IgnoredFiles::matches`). One that could not be compiled covers
nothing. -/
def covers (p : PathPattern) (path : String) : Bool :=
  p.regex.any fun regex =>
    RegexLibrary.accepts regex && RegexLibrary.isMatch regex (normalizePath path.toList)

end Library

end PathPattern

/-- Patterns for files whose changes are not looked at (`Filter`). -/
structure Filter where
  patterns : List PathPattern
  deriving DecidableEq, Repr, Inhabited

namespace Filter

def empty : Filter := ⟨[]⟩

def ofTexts (texts : List String) : Filter := ⟨texts.map .ofText⟩

/-- A filter without patterns never rules anything out (`should_never_ignore`). -/
def isEmpty (f : Filter) : Bool := f.patterns.isEmpty

/-- Some pattern covers the path (`Filter::matches`). -/
def covers [RegexLibrary] (f : Filter) (path : String) : Bool :=
  f.patterns.any (·.covers path)

/-- A filter is written as the list of its patterns. -/
def toJson (f : Filter) : Json :=
  Json.ofList (fun p => .string p.text) f.patterns

/-- The patterns are compiled as they are read. -/
def ofJson : Json.Decoder Filter := fun j =>
  (Json.listOf Json.text j).map ofTexts

end Filter

end BuildServer
