import BuildServer.Json.Basic
/-!
# Writing JSON texts

Values are written without white space. Of the characters in a string only the quotation mark, the
backslash and the control characters are escaped; five control characters have a letter of their
own, and the others are written by number with small hexadecimal digits. This is how
`serde_json::to_string` writes.
-/

set_option autoImplicit false

namespace BuildServer.Json

/-- A character inside a string. -/
def writeChar (c : Char) : List Char :=
  match c with
  | '"' => ['\\', '"']
  | '\\' => ['\\', '\\']
  | '\n' => ['\\', 'n']
  | '\r' => ['\\', 'r']
  | '\t' => ['\\', 't']
  | '\x08' => ['\\', 'b']
  | '\x0c' => ['\\', 'f']
  | c =>
    if c.toNat < 0x20 then
      ['\\', 'u', '0', '0', Nat.digitChar (c.toNat / 16), Nat.digitChar (c.toNat % 16)]
    else [c]

/-- A string in quotation marks. -/
def writeString (s : String) : List Char :=
  '"' :: s.toList.flatMap writeChar ++ ['"']

/-- An integer in decimal digits. -/
def writeInteger (n : Int) : List Char :=
  if n < 0 then '-' :: Nat.toDigits 10 n.natAbs else Nat.toDigits 10 n.natAbs

mutual

/-- The characters of a value, before those in `rest`. What cannot be asked for has none. -/
def write : Json → List Char → List Char
  | .null, rest => 'n' :: 'u' :: 'l' :: 'l' :: rest
  | .bool true, rest => 't' :: 'r' :: 'u' :: 'e' :: rest
  | .bool false, rest => 'f' :: 'a' :: 'l' :: 's' :: 'e' :: rest
  | .integer n, rest => writeInteger n ++ rest
  | .real text, rest => text.toList ++ rest
  | .string s, rest => writeString s ++ rest
  | .array [], rest => '[' :: ']' :: rest
  | .array (item :: items), rest => '[' :: item.write (writeItems items (']' :: rest))
  | .object [], rest => '{' :: '}' :: rest
  | .object ((key, value) :: entries), rest =>
    '{' :: writeString key ++ ':' :: value.write (writeEntries entries ('}' :: rest))
  | .outOfRange, rest | .illFormed, rest | .tooDeep, rest | .broken, rest | .keyless _, rest => rest

/-- The items after the first, each behind a comma. -/
def writeItems : List Json → List Char → List Char
  | [], rest => rest
  | item :: items, rest => ',' :: item.write (writeItems items rest)

/-- The entries after the first, each behind a comma. -/
def writeEntries : List (String × Json) → List Char → List Char
  | [], rest => rest
  | (key, value) :: entries, rest =>
    ',' :: writeString key ++ ':' :: value.write (writeEntries entries rest)

end

/-- The text of a value. -/
def toText (j : Json) : String :=
  String.ofList (j.write [])

/-! ## Values of common shape -/

/-- A value that may be absent. -/
def ofOption {α : Type} (encode : α → Json) : Option α → Json
  | none => .null
  | some a => encode a

/-- An array of values. -/
def ofList {α : Type} (encode : α → Json) (as : List α) : Json :=
  .array (as.map encode)

end BuildServer.Json
