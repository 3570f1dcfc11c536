import BuildServer.Text.Digits
/-!
# Numbers that a double can hold

A number literal is held in a double after two roundings. Its digits are gathered into a word of 64
bits, and the word and the power of ten that goes with it are each rounded to the nearest double;
the product of these two is then rounded once more. Since only the range is asked for, everything is
a natural number here: the product is too large exactly if it is at least half a unit above the
largest double.

A literal is rounded in this way by `serde_json`, unless it is told to be exact.
-/

set_option autoImplicit false

namespace BuildServer.Json

/-- The double nearest to a natural number; of two that are equally near, the even one. -/
def nearestDouble (n : Nat) : Nat :=
  let unit := Nat.pow 2 (Nat.log2 n - 52)
  let whole := n / unit
  let twice := 2 * (n % unit)
  if unit < twice || (unit == twice && whole % 2 == 1) then (whole + 1) * unit else whole * unit

/-- The least magnitude that rounds to infinity: half a unit above the largest double. -/
def doubleBound : Nat := Nat.pow 2 1024 - Nat.pow 2 970

/-- The largest power of ten that is a double. -/
def topPower : Nat := 308

/-- Continues a word of 64 bits with decimal digits for as long as it has room for them, and gives
back the digits that are left. -/
def gather (word : Nat) : List Char → Nat × List Char
  | [] => (word, [])
  | c :: cs =>
    let next := 10 * word + Text.decimalValue c
    if next < Nat.pow 2 64 then gather next cs else (word, c :: cs)

/-- A magnitude: a word of 64 bits times a power of ten. -/
structure Magnitude where
  word : Nat
  exponent : Int

namespace Magnitude

/-- How many digits of an exponent are read. With more it is out of all bounds either way. -/
def exponentDigits : Nat := 20

/-- The number that the digits of an exponent write, or one that is large enough. -/
def exponentOf (ds : List Char) : Nat :=
  Text.ofDecimal ((ds.dropWhile (· == '0')).take exponentDigits)

/-- The exponent that a literal ends with, from the letter on. -/
def writtenExponent : List Char → Int
  | _ :: '-' :: ds => -(exponentOf ds : Int)
  | _ :: '+' :: ds => exponentOf ds
  | _ :: ds => exponentOf ds
  | [] => 0

/-- The magnitude of a number literal. Digits before the point for which the word has no room count
for the exponent, those behind it are left out. -/
def ofLiteral (cs : List Char) : Magnitude :=
  let cs := if cs.head? == some '-' then cs.tail else cs
  let rest := cs.dropWhile Char.isDigit
  let fraction := if rest.head? == some '.' then rest.tail.takeWhile Char.isDigit else []
  let (word, skipped) := gather 0 (cs.takeWhile Char.isDigit)
  let (word, ignored) := gather word fraction
  let shift : Int := skipped.length - (fraction.length - ignored.length)
  ⟨word, shift + writtenExponent (rest.dropWhile fun c => c == '.' || c.isDigit)⟩

/-- A double can hold the magnitude, up to rounding. -/
def fitsDouble (m : Magnitude) : Bool :=
  if m.word = 0 || m.exponent < 0 then true
  else if topPower < m.exponent then false
  else decide (nearestDouble m.word * nearestDouble (Nat.pow 10 m.exponent.toNat) < doubleBound)

end Magnitude

end BuildServer.Json
