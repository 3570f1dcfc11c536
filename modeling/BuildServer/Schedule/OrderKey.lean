/-!
# Order keys

Jobs that wait are ordered by keys from a counter. The counter starts at the time of day once and
only counts after that, so keys rise even when the clock stands still or is put back.

The counter of the program has 64 bits (`AtomicI64`). That no run counts up to its end is assumed; so
keys are whole numbers here. A run counts no further than it draws identifiers.
-/

set_option autoImplicit false

namespace BuildServer

/-- A counter, by the key it gave last (`TimeStampBasedCounter`). -/
structure OrderKeys where
  last : Int
  deriving DecidableEq, Repr, Inhabited

namespace OrderKeys

/-- The counter that starts at a time in milliseconds (`TimeStampBasedCounter::new`). -/
def startingAt (milliseconds : Int) : OrderKeys := ⟨milliseconds⟩

/-- The next key (`TimeStampBasedCounter::next`). -/
def next (keys : OrderKeys) : Int × OrderKeys := (keys.last + 1, ⟨keys.last + 1⟩)

/-- The next `count` keys. -/
def take : (count : Nat) → OrderKeys → List Int
  | 0, _ => []
  | count + 1, keys =>
    let (key, keys) := keys.next
    key :: take count keys

end OrderKeys

end BuildServer
