import BuildServer.Text.Digits
/-!
# Identifiers of jobs and plan rows

A universally unique identifier is a number of 128 bits. It is written as thirty-two hexadecimal
digits in five groups; on reading, the hyphens may be left out, and the hyphenated form may stand in
braces or after a fixed heading. Whatever form was read, the hyphenated one is printed.

That is how the `uuid` library reads and writes them.

Fresh identifiers are drawn at random (`Uuid::new_v4`), from a source of which no more is assumed than
that the draws of a run do not repeat. A run draws finitely many, so it makes no difference that a
source here can be drawn from for ever and that a number may be larger than 128 bits.
-/

set_option autoImplicit false

namespace BuildServer

/-- An identifier, by its number (`Uuid`). -/
structure Uuid where
  number : Nat
  deriving DecidableEq, Repr, Inhabited

namespace Uuid

/-- The last `count` hexadecimal digits of a number. -/
def digits : (count : Nat) → Nat → List Char
  | 0, _ => []
  | count + 1, n => digits count (n / 16) ++ [Nat.digitChar (n % 16)]

/-- The thirty-two digits of the hyphenated form, if the hyphens stand where they should. -/
def unhyphenate? (cs : List Char) : Option (List Char) :=
  let hyphens := [8, 13, 18, 23]
  if cs.length = 36 && hyphens.all (cs[·]? == some '-') then
    some (cs.take 8 ++ (cs.drop 9).take 4 ++ (cs.drop 14).take 4 ++ (cs.drop 19).take 4 ++
      cs.drop 24)
  else none

/-- The heading that may precede the hyphenated form, in letters of any case. -/
def heading : List Char := "urn:uuid:".toList

/-- The digits of an identifier in any of the four forms that are read. -/
def digitsOf? (cs : List Char) : Option (List Char) :=
  if cs.length = 32 then some cs
  else if cs.length = 38 && cs.head? == some '{' && cs.getLast? == some '}' then
    unhyphenate? (cs.tail.dropLast)
  else if cs.length = 45 && heading.isPrefixOf (cs.map Char.toLower) then
    unhyphenate? (cs.drop heading.length)
  else unhyphenate? cs

/-- Reads an identifier (`Uuid::parse_str`). -/
def parse? (s : String) : Option Uuid := do
  let ds ← digitsOf? s.toList
  let n ← Text.ofHex? ds
  return ⟨n⟩

/-- The hyphenated form, in small letters. -/
def toText (id : Uuid) : String :=
  let ds := digits 32 id.number
  let group := fun (start count : Nat) => String.ofList ((ds.drop start).take count)
  "-".intercalate [group 0 8, group 8 4, group 12 4, group 16 4, group 20 12]

instance : ToString Uuid := ⟨toText⟩

/-- The order of identifiers is the order of their numbers. -/
def before (a b : Uuid) : Bool := a.number < b.number

end Uuid

/-- A supply of identifiers: `draw n` is the `n`-th one drawn, and no two draws agree. What a run draws
are the first ones, and whatever does not repeat can be these. -/
structure IdSource where
  draw : Nat → Uuid
  draw_injective : ∀ {m n : Nat}, draw m = draw n → m = n
  /-- How many have been drawn. -/
  drawn : Nat := 0

namespace IdSource

/-- Draws the next identifier. -/
def next (source : IdSource) : Uuid × IdSource :=
  (source.draw source.drawn, { source with drawn := source.drawn + 1 })

/-- The source that counts upward from a given identifier. -/
def startingAt (first : Uuid) : IdSource where
  draw n := ⟨first.number + n⟩
  draw_injective := by
    intro m n h
    have := congrArg Uuid.number h
    simpa using this

end IdSource

end BuildServer
