import BuildServer.Text.Digits
import BuildServer.Text.Pieces
/-!
# Internet addresses

An address is four decimal octets or eight groups of up to four hexadecimal digits. In the second
form one run of zero groups may be left out between two colons, and the last two groups may be
written as four octets. Nothing else may stand in the text: no blanks, brackets or zone, and no
number of a service. This is how the standard library reads an address and writes it (`IpAddr`).
-/

set_option autoImplicit false

namespace BuildServer

/-- An internet address. -/
inductive IpAddress where
  | v4 (octets : List Nat)
  | v6 (groups : List Nat)
  deriving DecidableEq, Repr

namespace IpAddress

/-- A decimal octet, without zeros in front. -/
def octet? (digits : List Char) : Option Nat :=
  if digits.isEmpty || 3 < digits.length || !digits.all Char.isDigit then none
  else if digits.head? == some '0' && 1 < digits.length then none
  else
    let n := Text.ofDecimal digits
    if n < 256 then some n else none

/-- Four octets between points. -/
def octets? (cs : List Char) : Option (List Nat) := do
  let octets ← (Text.pieces '.' cs).mapM octet?
  if octets.length = 4 then some octets else none

/-- A group of one to four hexadecimal digits. -/
def group? (digits : List Char) : Option Nat :=
  if digits.isEmpty || 4 < digits.length then none
  else Text.ofHex? digits

/-- Groups between colons, of which the last may be four octets that count for two groups. -/
def groupsOf? : List (List Char) → Option (List Nat)
  | [] => some []
  | [last] =>
    match group? last with
    | some g => some [g]
    | none =>
      match octets? last with
      | some [a, b, c, d] => some [256 * a + b, 256 * c + d]
      | _ => none
  | first :: rest => do
    let g ← group? first
    let gs ← groupsOf? rest
    return g :: gs

/-- The groups of one side of a gap, which may have none. -/
def side? (cs : List Char) : Option (List Nat) :=
  if cs.isEmpty then some [] else groupsOf? (Text.pieces ':' cs)

/-- The parts before and after the first double colon. -/
def atGap? : List Char → Option (List Char × List Char)
  | ':' :: ':' :: rest => some ([], rest)
  | c :: rest => (atGap? rest).map fun (before, after) => (c :: before, after)
  | [] => none

/-- Eight groups, or fewer around a gap. Octets may end the address, not the part before a gap. -/
def groups? (cs : List Char) : Option (List Nat) :=
  match atGap? cs with
  | none => do
    let groups ← groupsOf? (Text.pieces ':' cs)
    if groups.length = 8 then some groups else none
  | some (before, after) => do
    let left ← if before.contains '.' then none else side? before
    let right ← side? after
    if left.length + right.length < 8 then
      some (left ++ List.replicate (8 - left.length - right.length) 0 ++ right)
    else none

/-- Reads an address. -/
def parse? (s : String) : Option IpAddress :=
  match octets? s.toList with
  | some octets => some (.v4 octets)
  | none => (groups? s.toList).map .v6

/-! ## Writing -/

/-- How many of the groups in front are zero. -/
def zeros (groups : List Nat) : Nat := (groups.takeWhile (· == 0)).length

/-- The longest run of zero groups, by its start and its length; of two as long the first one. -/
def longestGap (place : Nat) : List Nat → Nat × Nat
  | [] => (place, 0)
  | g :: gs =>
    let (start, length) := longestGap (place + 1) gs
    let here := zeros (g :: gs)
    if length ≤ here then (place, here) else (start, length)

def writeGroups (groups : List Nat) : String :=
  ":".intercalate (groups.map fun g => String.ofList (Nat.toDigits 16 g))

/-- The written form: octets between points, or groups between colons with the longest run of at
least two zero groups left out. -/
def toText : IpAddress → String
  | .v4 octets => ".".intercalate (octets.map toString)
  | .v6 groups =>
    let (start, length) := longestGap 0 groups
    if length < 2 then writeGroups groups
    else writeGroups (groups.take start) ++ "::" ++ writeGroups (groups.drop (start + length))

/-- The address is one of the machine itself. -/
def isLoopback : IpAddress → Bool
  | .v4 octets => octets.head? == some 127
  | .v6 groups => groups == [0, 0, 0, 0, 0, 0, 0, 1]

end IpAddress

end BuildServer
