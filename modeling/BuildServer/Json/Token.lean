import BuildServer.Json.Basic
import BuildServer.Json.Magnitude
/-!
# Tokens of a JSON text

The scanner is a machine that takes one character at a time, so that scanning is a structural
recursion on the text. Between tokens it waits; inside a word, a number or a string it remembers
what it has seen. A token that the text breaks off, or a character that begins none, is a `bad`
token, and nothing is scanned after it.

Which words, numbers and strings there are, and what they stand for, is that of `serde_json`.
-/

set_option autoImplicit false

namespace BuildServer.Json

open Text (ofDecimal)

/-- A piece of a JSON text. -/
inductive Token where
  | openArray
  | closeArray
  | openObject
  | closeObject
  | colon
  | comma
  | scalar (value : Json)
  | bad

/-! ## Numbers -/

/-- How far a number has been read. -/
inductive NumberPart where
  | sign
  | zero
  | whole
  | point
  | fraction
  | exponent
  | exponentSign
  | exponentDigits
  deriving DecidableEq

namespace NumberPart

/-- The part that a character continues the number with, if it continues it. -/
def next? : NumberPart → Char → Option NumberPart
  | .sign, c => if c = '0' then some .zero else if c.isDigit then some .whole else none
  | .zero, c =>
    if c = '.' then some .point else if c = 'e' || c = 'E' then some .exponent else none
  | .whole, c =>
    if c.isDigit then some .whole else if c = '.' then some .point
    else if c = 'e' || c = 'E' then some .exponent else none
  | .point, c => if c.isDigit then some .fraction else none
  | .fraction, c =>
    if c.isDigit then some .fraction else if c = 'e' || c = 'E' then some .exponent else none
  | .exponent, c =>
    if c.isDigit then some .exponentDigits else if c = '+' || c = '-' then some .exponentSign
    else none
  | .exponentSign, c => if c.isDigit then some .exponentDigits else none
  | .exponentDigits, c => if c.isDigit then some .exponentDigits else none

/-- The number may end before the character `c`. A zero in front must not be followed by a digit. -/
def mayEnd (part : NumberPart) (c : Char) : Bool :=
  match part with
  | .zero => !c.isDigit
  | .whole | .fraction | .exponentDigits => true
  | _ => false

/-- The part a number begins with. -/
def first? (c : Char) : Option NumberPart :=
  if c = '-' then some .sign else NumberPart.sign.next? c

end NumberPart

/-- No integer of 64 bits has more digits. -/
def integerDigits : Nat := 20

/-- The value of a number literal. Minus zero is not an integer. -/
def ofNumber (cs : List Char) : Json :=
  let negative := cs.head? == some '-'
  let digits := if negative then cs.tail else cs
  let isPlain := digits.length ≤ integerDigits && digits.all Char.isDigit
  let magnitude := if isPlain then ofDecimal digits else 0
  if isPlain && negative && 0 < magnitude && magnitude ≤ Nat.pow 2 63 then
    .integer (-(magnitude : Int))
  else if isPlain && !negative && magnitude < Nat.pow 2 64 then .integer magnitude
  else if (Magnitude.ofLiteral cs).fitsDouble then .real (String.ofList cs)
  else .outOfRange

/-! ## Strings -/

/-- What has been read of a string: its characters, last one first, whether every escape named a
character, and the first half of a surrogate pair that waits for the second. -/
structure OpenText where
  seen : List Char := []
  sound : Bool := true
  half : Option Nat := none

namespace OpenText

/-- The text goes on with something other than the second half of a pair. -/
def settle (t : OpenText) : OpenText :=
  { t with sound := t.sound && t.half.isNone, half := none }

def push (t : OpenText) (c : Char) : OpenText :=
  { t.settle with seen := c :: t.seen }

/-- The text goes on with an escaped code unit. -/
def pushUnit (t : OpenText) (unit : Nat) : OpenText :=
  if 0xDC00 ≤ unit && unit < 0xE000 then
    match t.half with
    | some high =>
      let code := 0x10000 + (high - 0xD800) * 0x400 + (unit - 0xDC00)
      { t with seen := Char.ofNat code :: t.seen, half := none }
    | none => { t with sound := false }
  else if 0xD800 ≤ unit && unit < 0xDC00 then { t.settle with half := some unit }
  else t.push (Char.ofNat unit)

/-- The string that ends here. -/
def close (t : OpenText) : Json :=
  if t.settle.sound then .string (String.ofList t.seen.reverse) else .illFormed

end OpenText

/-- The character that an escape of one letter names. -/
def escaped? (c : Char) : Option Char :=
  match c with
  | '"' => some '"'
  | '\\' => some '\\'
  | '/' => some '/'
  | 'b' => some '\x08'
  | 'f' => some '\x0c'
  | 'n' => some '\n'
  | 'r' => some '\r'
  | 't' => some '\t'
  | _ => none

/-! ## The scanner -/

/-- Where the scanner stands. -/
inductive Mode where
  | between
  /-- Inside a word of which `due` and then `rest` are still to come. -/
  | word (due : Char) (rest : List Char) (value : Json)
  /-- Inside a number, its characters last one first. -/
  | number (part : NumberPart) (seen : List Char)
  | text (t : OpenText)
  | escape (t : OpenText)
  /-- Inside an escape by number, with `missing + 1` digits to come. -/
  | unit (t : OpenText) (missing : Nat) (value : Nat)

/-- What one character does to the scanner: some tokens are complete, and then it goes on in a mode
or finds the text broken. -/
structure Step where
  mode : Option Mode
  done : List Token := []

/-- The scanner goes on in a mode. -/
def Step.goOn (mode : Mode) : Step := ⟨some mode, []⟩

/-- A token is complete, and the scanner waits for the next. -/
def Step.give (token : Token) : Step := ⟨some .between, [token]⟩

/-- The text is broken. -/
def Step.stop : Step := ⟨none, []⟩

/-- A character between tokens. -/
def scanBetween (c : Char) : Step :=
  match c with
  | ' ' | '\n' | '\t' | '\r' => .goOn .between
  | '[' => .give .openArray
  | ']' => .give .closeArray
  | '{' => .give .openObject
  | '}' => .give .closeObject
  | ':' => .give .colon
  | ',' => .give .comma
  | '"' => .goOn (.text {})
  | 'n' => .goOn (.word 'u' ['l', 'l'] .null)
  | 't' => .goOn (.word 'r' ['u', 'e'] (.bool true))
  | 'f' => .goOn (.word 'a' ['l', 's', 'e'] (.bool false))
  | _ =>
    match NumberPart.first? c with
    | some part => .goOn (.number part [c])
    | none => .stop

/-- One character. -/
def scanChar : Mode → Char → Step
  | .between, c => scanBetween c
  | .word due rest value, c =>
    if c = due then
      match rest with
      | [] => .give (.scalar value)
      | due :: rest => .goOn (.word due rest value)
    else .stop
  | .number part seen, c =>
    match part.next? c with
    | some part => .goOn (.number part (c :: seen))
    | none =>
      if part.mayEnd c then
        let after := scanBetween c
        { after with done := .scalar (ofNumber seen.reverse) :: after.done }
      else .stop
  | .text t, c =>
    if c = '"' then .give (.scalar t.close)
    else if c = '\\' then .goOn (.escape t)
    else if c.toNat < 0x20 then .stop
    else .goOn (.text (t.push c))
  | .escape t, c =>
    if c = 'u' then .goOn (.unit t 3 0)
    else match escaped? c with
      | some d => .goOn (.text (t.push d))
      | none => .stop
  | .unit t missing value, c =>
    match Text.hexValue? c with
    | none => .stop
    | some d =>
      match missing with
      | 0 => .goOn (.text (t.pushUnit (16 * value + d)))
      | missing + 1 => .goOn (.unit t missing (16 * value + d))

/-- The tokens left when the text ends. -/
def scanEnd : Mode → List Token
  | .between => []
  | .number part seen => if part.mayEnd ' ' then [.scalar (ofNumber seen.reverse)] else [.bad]
  | _ => [.bad]

/-- The tokens of a text. -/
def scan (mode : Mode) : List Char → List Token
  | [] => scanEnd mode
  | c :: cs =>
    let step := scanChar mode c
    match step.mode with
    | some mode => step.done ++ scan mode cs
    | none => step.done ++ [.bad]

end BuildServer.Json
