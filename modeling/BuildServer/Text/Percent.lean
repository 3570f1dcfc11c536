import BuildServer.Text.Digits
/-!
# Percent escapes

An octet is escaped as a percent sign and two hexadecimal digits. A text is escaped by the octets of
its characters in UTF-8. A percent sign without two digits behind it is no escape and stands for
itself. This is the way of the `percent-encoding` library, on which both ends of a conversation rely.
-/

set_option autoImplicit false

namespace BuildServer.Text

/-- The octets of characters in UTF-8. -/
def octets (cs : List Char) : List UInt8 := cs.flatMap String.utf8EncodeChar

/-- The text with the octets, if they are UTF-8. -/
def ofOctets? (bs : List UInt8) : Option String := String.fromUTF8? ⟨⟨bs⟩⟩

/-- The octet that two hexadecimal digits write. -/
def hexOctet? (high low : UInt8) : Option UInt8 := do
  let h ← hexValue? (Char.ofUInt8 high)
  let l ← hexValue? (Char.ofUInt8 low)
  return UInt8.ofNat (16 * h + l)

/-- Octets with their escapes resolved. -/
def unescapeOctets : List UInt8 → List UInt8
  | [] => []
  | b :: rest =>
    match b, rest with
    | 0x25, high :: low :: rest =>
      match hexOctet? high low with
      | some octet => octet :: unescapeOctets rest
      | none => 0x25 :: unescapeOctets (high :: low :: rest)
    | b, rest => b :: unescapeOctets rest

/-- A text with its escapes resolved, unless they do not form a text. -/
def unescape? (cs : List Char) : Option String :=
  ofOctets? (unescapeOctets (octets cs))

/-- A hexadecimal digit, in capital letters. -/
def hexDigit (n : Nat) : Char := (Nat.digitChar n).toUpper

/-- The escape of an octet. -/
def escapeOctet (b : UInt8) : List Char := ['%', hexDigit (b.toNat / 16), hexDigit (b.toNat % 16)]

/-- A text in which the characters with the property are escaped. -/
def escape (reserved : Char → Bool) (cs : List Char) : List Char :=
  cs.flatMap fun c => if reserved c then (octets [c]).flatMap escapeOctet else [c]

end BuildServer.Text
