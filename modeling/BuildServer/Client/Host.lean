import BuildServer.Network.IpAddress
import BuildServer.Text.Percent
/-!
# Hosts

The host of a web address is a name or an internet address. A name is taken in small letters with
its escapes resolved, and may consist of ASCII characters only. If its last part is a number, it is
not a name but an internet address of four octets, of which the last written part may stand for
several, each part in decimal, octal or hexadecimal digits. An address of the longer kind stands in
brackets. Schemes that are not of the web have hosts too, but those are only passed on.

All of this is how the `url` library goes about a host.
-/

set_option autoImplicit false

namespace BuildServer

/-- Where a server is. -/
inductive Host where
  | name (text : String)
  | address (address : IpAddress)
  deriving DecidableEq, Repr

namespace Host

/-! ## Addresses of four octets -/

/-- The digits of a number by its beginning, and what they count by. -/
def numberDigits (cs : List Char) : Nat × List Char :=
  match cs with
  | '0' :: 'x' :: ds | '0' :: 'X' :: ds => (16, ds)
  | '0' :: d :: ds => (8, d :: ds)
  | ds => (10, ds)

/-- A number as it stands in an address. Without digits behind the mark of its kind it is zero. -/
def number? (cs : List Char) : Option Nat :=
  let (base, ds) := numberDigits cs
  if cs.isEmpty then none
  else ds.foldlM (fun n c => (Text.hexValue? c).bind fun d =>
    if d < base then some (base * n + d) else none) 0

/-- The parts of a name between points, where a point at the end counts for nothing. -/
def parts (cs : List Char) : List (List Char) :=
  let parts := Text.pieces '.' cs
  if 1 < parts.length && parts.getLast? == some [] then parts.dropLast else parts

/-- The name ends in a number, and so is not a name. -/
def endsInNumber (cs : List Char) : Bool :=
  match (parts cs).getLast? with
  | some last => (!last.isEmpty && last.all Char.isDigit) || (number? last).isSome
  | none => false

/-- The octets of a number, most significant first. -/
def octetsOf : (count : Nat) → Nat → List Nat
  | 0, _ => []
  | count + 1, n => octetsOf count (n / 256) ++ [n % 256]

/-- The octets that up to four numbers stand for: one each, but for the last, which stands for all
that are left. -/
def octets? (numbers : List Nat) : Option (List Nat) :=
  match numbers.getLast? with
  | none => none
  | some last =>
    let front := numbers.dropLast
    let left := 4 - front.length
    if 4 < numbers.length || front.any (255 < ·) || Nat.pow 256 left ≤ last then none
    else some (front ++ octetsOf left last)

/-! ## Names -/

/-- A character that no host may hold. -/
def isForbidden (c : Char) : Bool :=
  ['\x00', '\t', '\n', '\r', ' ', '#', '/', ':', '<', '>', '?', '@', '[', '\\', ']', '^',
    '|'].contains c

/-- A character that a name on the web may hold. -/
def isNameChar (c : Char) : Bool :=
  0x20 < c.toNat && c.toNat < 0x7F && c != '%' && !isForbidden c

/-- The longer kind of address, in brackets. -/
def bracketed? (cs : List Char) : Option Host :=
  if cs.getLast? == some ']' then
    (IpAddress.groups? cs.tail.dropLast).map fun groups => .address (.v6 groups)
  else none

/-- The host in an address on the web (`Host::parse`). -/
def ofText? (cs : List Char) : Option Host :=
  if cs.head? == some '[' then bracketed? cs
  else do
    let cs := (← Text.unescape? cs).toList.map Char.toLower
    if cs.isEmpty || !cs.all isNameChar then none
    else if endsInNumber cs then
      return .address (.v4 (← octets? (← (parts cs).mapM number?)))
    else return .name (String.ofList cs)

/-- The host in any other address (`Host::parse_opaque`): what is not in brackets is kept, with escapes
for characters that need them. None is written as an empty one. -/
def ofOtherText? (cs : List Char) : Option Host :=
  if cs.head? == some '[' then bracketed? cs
  else if cs.any isForbidden then none
  else some (.name (String.ofList (Text.escape (fun c => c.toNat < 0x20 || 0x7F ≤ c.toNat) cs)))

/-- The host as it stands in an address. -/
def toText : Host → String
  | .name text => text
  | .address (.v4 octets) => (IpAddress.v4 octets).toText
  | .address (.v6 groups) => "[" ++ (IpAddress.v6 groups).toText ++ "]"

end Host

end BuildServer
