/-!
# Digits

Numbers written with decimal digits or with hexadecimal digits of either case, most significant
first. All digits are those of ASCII.
-/

set_option autoImplicit false

namespace BuildServer.Text

/-- The value of a decimal digit. -/
def decimalValue (c : Char) : Nat := c.toNat - '0'.toNat

/-- The number that decimal digits write. -/
def ofDecimal (digits : List Char) : Nat :=
  digits.foldl (fun n c => 10 * n + decimalValue c) 0

/-- Reads a number below a bound. A plus sign may stand in front of it. -/
def decimalBelow? (bound : Nat) (s : String) : Option Nat :=
  let digits := match s.toList with
    | '+' :: rest => rest
    | cs => cs
  if digits.isEmpty || !digits.all Char.isDigit then none
  else if ofDecimal digits < bound then some (ofDecimal digits)
  else none

/-- The value of a hexadecimal digit of either case. -/
def hexValue? (c : Char) : Option Nat :=
  if '0' ≤ c && c ≤ '9' then some (c.toNat - '0'.toNat)
  else if 'a' ≤ c && c ≤ 'f' then some (c.toNat - 'a'.toNat + 10)
  else if 'A' ≤ c && c ≤ 'F' then some (c.toNat - 'A'.toNat + 10)
  else none

/-- The number that hexadecimal digits write. -/
def ofHex? (digits : List Char) : Option Nat :=
  digits.foldlM (fun n c => (hexValue? c).map (16 * n + ·)) 0

end BuildServer.Text
