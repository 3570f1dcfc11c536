/-!
# Styles of text

Text on a terminal is styled by control sequences, unless styles are off. A reset inside a styled
text would end its style too early, so the style is taken up again behind it. The sequences are those of
the `colored` library.
-/

set_option autoImplicit false

namespace BuildServer.Terminal

/-- How a text stands out. -/
inductive Style where
  | bold
  | dimmed
  | red
  | green
  | yellow
  | blue
  | cyan
  deriving DecidableEq, Repr

namespace Style

/-- The number of a style in control sequences. -/
def number : Style → String
  | .bold => "1"
  | .dimmed => "2"
  | .red => "31"
  | .green => "32"
  | .yellow => "33"
  | .blue => "34"
  | .cyan => "36"

/-- The sequence that ends all styles. -/
def reset : String := "\x1b[0m"

/-- The sequence that begins a style. -/
def start (style : Style) : String := "\x1b[" ++ style.number ++ "m"

/-- A text in a style. -/
def apply (style : Style) (s : String) : String :=
  style.start ++ s.replace reset (reset ++ style.start) ++ reset

end Style

/-- How texts are styled. -/
abbrev Ink := Style → String → String

namespace Ink

/-- Styles are shown. -/
def colored : Ink := Style.apply

/-- Styles are off. -/
def plain : Ink := fun _ s => s

/-- The ink that the environment asks for, or the one for a terminal if the output is one. A zero
counts as no. -/
def ofEnvironment (lookup : String → Option String) (isTerminal : Bool) : Ink :=
  let isSet := fun name => (lookup name).any (· != "0")
  if isSet "CLICOLOR_FORCE" then colored
  else if (lookup "NO_COLOR").isSome then plain
  else if isTerminal && (lookup "CLICOLOR").all (· != "0") then colored
  else plain

end Ink

end BuildServer.Terminal
