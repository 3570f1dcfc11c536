/-!
# Sizes in octets

A size is shown in the largest of four units that it fills, each 1024 times the one before, with one
decimal place; octets are shown whole. The size is taken as a double, which keeps fifty-three binary
digits of it, and where two decimals are equally near the even one is shown.
-/

set_option autoImplicit false

namespace BuildServer.Terminal.ByteSize

/-- The integer nearest to a quotient; of two equally near the even one. -/
def divideToEven (n d : Nat) : Nat :=
  let q := n / d
  let twice := 2 * (n % d)
  if twice < d then q
  else if twice > d then q + 1
  else if q % 2 = 0 then q else q + 1

/-- The double nearest to a number. -/
def toDouble (n : Nat) : Nat :=
  let unit := Nat.pow 2 (n.log2 + 1 - 53)
  divideToEven n unit * unit

/-- A quotient with one decimal place. -/
def oneDecimal (n d : Nat) : String :=
  let tenths := divideToEven (10 * n) d
  toString (tenths / 10) ++ "." ++ toString (tenths % 10)

/-- A size for people. -/
def text (size : UInt64) : String :=
  let n := toDouble size.toNat
  if n < 1024 then toString size.toNat ++ " B"
  else if n < 1024 * 1024 then oneDecimal n 1024 ++ " KiB"
  else if n < 1024 * 1024 * 1024 then oneDecimal n (1024 * 1024) ++ " MiB"
  else oneDecimal n (1024 * 1024 * 1024) ++ " GiB"

end BuildServer.Terminal.ByteSize
