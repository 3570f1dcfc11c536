import BuildServer.Json.Basic
/-!
# Typed reading of JSON values

A decoder turns a value into a value of the domain or names the fault that a left-to-right reader
meets first. A record may be written as an object, in any order and with unknown entries among its
own, or as an array of its fields in order. The fields of a record are read independently of one
another, and each failure carries its place in the text; of two failures the earlier one counts.

These are the readers that `serde` derives for a type (`Deserialize`), as they work on a text that
`serde_json` reads.
-/

set_option autoImplicit false

namespace BuildServer.Json

/-- Why a value was refused. -/
inductive Fault where
  /-- The text is not JSON. -/
  | malformed
  /-- The text is JSON, but of another shape. -/
  | mismatch
  deriving DecidableEq, Repr

/-- A reader of values of one type. -/
abbrev Decoder (α : Type) := Json → Except Fault α

/-- The fault of a value that is of another kind than the one asked for. -/
def refuse : Json → Fault
  | .broken | .illFormed | .outOfRange | .tooDeep => .malformed
  | _ => .mismatch

/-- The value of an entry that a reader may leave aside: it has a key and is complete. -/
def isPassable : Json → Bool
  | .keyless _ => false
  | j => j.isComplete

/-! ## Scalars -/

def text : Decoder String
  | .string s => .ok s
  | j => .error j.refuse

def flag : Decoder Bool
  | .bool b => .ok b
  | j => .error j.refuse

/-- An integer between two bounds. -/
def integerIn (low high : Int) : Decoder Int
  | .integer n => if low ≤ n ∧ n ≤ high then .ok n else .error .mismatch
  | j => .error j.refuse

/-- A signed number of 64 bits. -/
def signed64 : Decoder Int := integerIn (-0x8000000000000000) 0x7FFFFFFFFFFFFFFF

/-- A natural number below a bound. -/
def natBelow (bound : Nat) : Decoder Nat := fun j =>
  (integerIn 0 (bound - 1) j).map Int.toNat

/-- A natural number of 64 bits. -/
def word64 : Decoder UInt64 := fun j =>
  (natBelow (Nat.pow 2 64) j).map UInt64.ofNat

/-- A string that a reader of strings accepts. -/
def parsed {α : Type} (parse : String → Option α) : Decoder α := fun j =>
  match text j with
  | .ok s => match parse s with
    | some a => .ok a
    | none => .error .mismatch
  | .error fault => .error fault

/-- One of finitely many names. It may also be written as an object whose only entry has the name
for its key and null for its value; anything that is neither string nor object is not taken for a
value at all. The key is read as a value would be, so another value in its place is a mismatch. -/
def oneOf {α : Type} (names : List (String × α)) : Decoder α
  | .string s =>
    match names.lookup s with
    | some a => .ok a
    | none => .error .mismatch
  | .object ((key, body) :: rest) =>
    match names.lookup key, body with
    | _, .keyless .notText => .error .mismatch
    | _, .keyless _ => .error .malformed
    | none, _ => .error .mismatch
    | some a, .null => if rest.isEmpty then .ok a else .error .malformed
    | some _, body => .error body.refuse
  | _ => .error .malformed

/-! ## Options and lists -/

def nullable {α : Type} (decode : Decoder α) : Decoder (Option α)
  | .null => .ok none
  | j => (decode j).map some

def listOf {α : Type} (decode : Decoder α) : Decoder (List α)
  | .array items => items.mapM decode
  | j => .error j.refuse

/-! ## Records -/

/-- The parts of a record: the entries of an object or the items of an array. -/
inductive Parts where
  | entries (list : List (String × Json))
  | items (list : List Json)

/-- A reading of some fields of a record. A failure names the place in the text where it occurs. -/
structure Attempt (α : Type) where
  outcome : Except (Nat × Fault) α

namespace Attempt

def fail {α : Type} (place : Nat) (fault : Fault) : Attempt α := ⟨.error (place, fault)⟩

/-- Both readings, or the earlier of their failures. -/
def both {α β γ : Type} (f : α → β → γ) (a : Attempt α) (b : Attempt β) : Attempt γ :=
  match a.outcome, b.outcome with
  | .ok a, .ok b => ⟨.ok (f a b)⟩
  | .error e, .ok _ => ⟨.error e⟩
  | .ok _, .error e => ⟨.error e⟩
  | .error e, .error e' => ⟨.error (if e'.1 < e.1 then e' else e)⟩

instance : Applicative Attempt where
  pure a := ⟨.ok a⟩
  map f a := ⟨a.outcome.map f⟩
  seq f a := both (· ·) f (a ())

end Attempt

namespace Parts

/-- How many parts there are. -/
def size : Parts → Nat
  | .entries list => list.length
  | .items list => list.length

/-- The field called `name`, the one at `place` among the fields of the record, with its place in
the text. -/
def find? (parts : Parts) (place : Nat) (name : String) : Option (Nat × Json) :=
  match parts with
  | .entries list =>
    match list.findIdx? (·.1 == name) with
    | some i => (list[i]?).map fun entry => (i, entry.2)
    | none => none
  | .items list => (list[place]?).map fun item => (place, item)

/-- Reads a field, or takes the outcome `absent` if there is none. -/
def fieldOr {α : Type} (parts : Parts) (place : Nat) (name : String) (decode : Decoder α)
    (absent : Attempt α) : Attempt α :=
  match parts.find? place name with
  | some (i, j) => ⟨(decode j).mapError fun fault => (i, fault)⟩
  | none => absent

/-- A field that must be there. -/
def required {α : Type} (parts : Parts) (place : Nat) (name : String) (decode : Decoder α) :
    Attempt α :=
  parts.fieldOr place name decode (.fail parts.size .mismatch)

/-- A field that has a value of its own when it is missing. -/
def defaulted {α : Type} (parts : Parts) (place : Nat) (name : String) (decode : Decoder α)
    (value : α) : Attempt α :=
  parts.fieldOr place name decode (pure value)

/-- A field that may be null, or missing from an object, but not from an array. -/
def optional {α : Type} (parts : Parts) (place : Nat) (name : String) (decode : Decoder α) :
    Attempt (Option α) :=
  parts.fieldOr place name (nullable decode) <|
    match parts with
    | .entries _ => pure none
    | .items _ => .fail parts.size .mismatch

/-- The first entry that repeats one of the known names, has a faulty key, or is cut off under an
unknown one. -/
def entriesFault? (known : List String) (place : Nat) (seen : List String) :
    List (String × Json) → Option (Nat × Fault)
  | [] => none
  | (key, value) :: rest =>
    if known.contains key then
      if seen.contains key then some (place, .mismatch)
      else entriesFault? known (place + 1) (key :: seen) rest
    else if value.isPassable then entriesFault? known (place + 1) seen rest
    else some (place, .malformed)

/-- The parts are those of a record with the known fields: none twice, nothing cut off, and no more
items than fields. -/
def wellShaped (parts : Parts) (known : List String) : Attempt Unit :=
  match parts with
  | .entries list =>
    match entriesFault? known 0 [] list with
    | some (place, fault) => .fail place fault
    | none => pure ()
  | .items list => if list.length ≤ known.length then pure () else .fail known.length .malformed

end Parts

/-- A record with the known fields, built from its parts. -/
def record {α : Type} (known : List String) (fields : Parts → Attempt α) : Decoder α := fun j =>
  let read := fun (parts : Parts) =>
    ((Attempt.both (fun a _ => a) (fields parts) (parts.wellShaped known)).outcome).mapError (·.2)
  match j with
  | .object entries => read (.entries entries)
  | .array items => read (.items items)
  | j => .error j.refuse

/-! ## Records of one field -/

/-- A record whose only field has the name. -/
def single (name : String) (value : Json) : Json := .object [(name, value)]

/-- Reads the only field of a record. -/
def onlyField {α : Type} (name : String) (decode : Decoder α) : Decoder α :=
  record [name] fun parts => parts.required 0 name decode

end BuildServer.Json
