/-!
# JSON values as a reader meets them

Texts are read and written as `serde_json` does it. A text is read from left to right, and the first
thing wrong with it decides how it is refused: a text that stops being JSON is malformed, a value of
another kind than the one asked for is a mismatch. To keep the two in their order, a value may be
cut off: `broken` stands where the text stopped being JSON, and it is then the last thing in every
value around it. More leaves stand for what is in order as long as nobody asks for its value: a
number too large for a double, a string with half a surrogate pair, an array or object inside too
many others. A key is asked for only by the reader of the object around it, so a faulty key is kept
as an entry too.

Values that are written never hold any of these.
-/

set_option autoImplicit false

namespace BuildServer

/-- What is wrong where the key of an entry should stand. -/
inductive KeyFault where
  /-- The text stops being JSON there. -/
  | cutOff
  /-- The text stops being JSON there, for the place holds a value that is not a string. -/
  | notText
  /-- The key is a string with half a surrogate pair, and the entry goes on behind it. -/
  | illFormed
  deriving DecidableEq

/-- A JSON value, possibly cut off. -/
inductive Json where
  | null
  | bool (value : Bool)
  /-- A number written as an integer, between `-2 ^ 63` and `2 ^ 64 - 1`. -/
  | integer (value : Int)
  /-- Any other number that a double can hold, as it was written. -/
  | real (text : String)
  /-- A number that no double can hold. -/
  | outOfRange
  | string (text : String)
  /-- A string with an escape for half a surrogate pair. -/
  | illFormed
  /-- An array or object that stands inside too many others. -/
  | tooDeep
  | array (items : List Json)
  /-- The entries in the order in which they were written, duplicates included. -/
  | object (entries : List (String × Json))
  /-- The text stopped being JSON here. -/
  | broken
  /-- An entry without a key that can be read. -/
  | keyless (fault : KeyFault)
  deriving Inhabited

namespace Json

mutual

/-- Nothing in the value is cut off. -/
def isComplete : Json → Bool
  | .broken => false
  | .keyless fault => fault == .illFormed
  | .array items => itemsComplete items
  | .object entries => entriesComplete entries
  | _ => true

def itemsComplete : List Json → Bool
  | [] => true
  | item :: rest => item.isComplete && itemsComplete rest

def entriesComplete : List (String × Json) → Bool
  | [] => true
  | (_, value) :: rest => value.isComplete && entriesComplete rest

end

mutual

/-- The value is complete, and everything in it can be asked for. -/
def isSound : Json → Bool
  | .broken | .outOfRange | .illFormed | .tooDeep | .keyless _ => false
  | .array items => itemsSound items
  | .object entries => entriesSound entries
  | _ => true

def itemsSound : List Json → Bool
  | [] => true
  | item :: rest => item.isSound && itemsSound rest

def entriesSound : List (String × Json) → Bool
  | [] => true
  | (_, value) :: rest => value.isSound && entriesSound rest

end

/-- The value of the last entry with the key: of duplicates the last one counts. -/
def get? : Json → String → Option Json
  | .object entries, key => (entries.reverse.find? (·.1 == key)).map (·.2)
  | _, _ => none

/-- Puts an entry into a list of entries in the order of their keys, in the place of one with the
same key. -/
def putEntry (key : String) (value : Json) : List (String × Json) → List (String × Json)
  | [] => [(key, value)]
  | (k, v) :: rest =>
    if key < k then (key, value) :: (k, v) :: rest
    else if key = k then (key, value) :: rest
    else (k, v) :: putEntry key value rest

mutual

/-- The value with the entries of every object in the order of their keys. Of entries with the same
key the last one is kept. -/
def tabulated : Json → Json
  | .array items => .array (tabulatedItems items)
  | .object entries => .object (tabulatedEntries [] entries)
  | j => j

def tabulatedItems : List Json → List Json
  | [] => []
  | item :: rest => item.tabulated :: tabulatedItems rest

def tabulatedEntries (done : List (String × Json)) :
    List (String × Json) → List (String × Json)
  | [] => done
  | (key, value) :: rest => tabulatedEntries (putEntry key value.tabulated done) rest

end

end Json

end BuildServer
