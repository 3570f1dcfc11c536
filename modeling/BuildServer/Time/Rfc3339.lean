import BuildServer.Text.Blank
import BuildServer.Text.Digits
import BuildServer.Time.Instant
/-!
# The written form of instants

Instants are written in the form of RFC 3339: date, `T`, time of day, `Z`, with the shortest of no,
three, six or nine digits of the fraction that loses nothing. They are read more generously. Fields
may have fewer digits, blanks may stand before a field and around the separators, the `T` may be
small or a space, a sign lifts the limit of four digits on the year, and the offset may lack its
colon or be `Z` or `UTC`. This is how `chrono` reads and writes an instant in universal time.
-/

set_option autoImplicit false

namespace BuildServer.Instant

open Text (isBlank ofDecimal)

/-! ## Reading -/

/-- A reader of the front of a text; it gives what it read and the rest of the text. -/
abbrev Reader (α : Type) := StateT (List Char) Option α

def skipBlanks : Reader Unit :=
  modify (·.dropWhile isBlank)

/-- One to `limit` digits, as many as there are. -/
def digits (limit : Nat) : Reader (List Char) := fun cs =>
  let ds := (cs.take limit).takeWhile Char.isDigit
  if ds.isEmpty then none else some (ds, cs.drop ds.length)

/-- A number of one or two digits after blanks, no greater than `high` and no less than `low`. -/
def shortField (low high : Nat) : Reader Nat := do
  skipBlanks
  let n := ofDecimal (← digits 2)
  if low ≤ n && n ≤ high then pure n else failure

/-- A separator, with blanks before it. -/
def separator (c : Char) : Reader Unit := do
  skipBlanks
  match ← get with
  | d :: rest => if d = c then set rest else failure
  | [] => failure

/-- A year: up to four digits, or a sign and any number of digits. -/
def year : Reader Int := do
  skipBlanks
  match ← get with
  | '-' :: rest =>
    set rest
    let n := ofDecimal (← digits rest.length)
    pure (-(n : Int))
  | '+' :: rest =>
    set rest
    let n := ofDecimal (← digits rest.length)
    pure (n : Int)
  | _ =>
    let n := ofDecimal (← digits 4)
    pure (n : Int)

/-- The fraction of a second in nanoseconds; digits beyond the ninth are dropped. -/
def fraction : Reader Nat := do
  match ← get with
  | '.' :: rest =>
    set rest
    let ds ← digits 9
    modify (·.dropWhile Char.isDigit)
    pure (ofDecimal ds * Nat.pow 10 (9 - ds.length))
  | _ => pure 0

/-- Exactly two digits. -/
def twoDigits : Reader Nat := fun cs =>
  match cs with
  | a :: b :: rest => if a.isDigit && b.isDigit then some (ofDecimal [a, b], rest) else none
  | _ => none

/-- The word for universal time, in letters of any case. -/
def isUniversal (cs : List Char) : Bool :=
  (cs.take 3).map Char.toLower == ['u', 't', 'c']

/-- The offset from universal time in seconds. -/
def offset : Reader Int := do
  let cs ← get
  if isUniversal cs then
    set (cs.drop 3)
    pure 0
  else
    match cs with
    | 'Z' :: rest | 'z' :: rest =>
      set rest
      pure 0
    | c :: rest =>
      let sign : Int ← match c with
        | '+' => pure 1
        | '-' | '\u2212' => pure (-1)
        | _ => failure
      set rest
      let hours ← twoDigits
      modify (·.dropWhile fun c => c == ':' || isBlank c)
      let minutes ← twoDigits
      if minutes < 60 && hours < 24 then pure (sign * (3600 * hours + 60 * minutes)) else failure
    | [] => failure

/-- The separator of date and time. -/
def dateEnd : Reader Unit := do
  match ← get with
  | 't' :: rest | 'T' :: rest | ' ' :: rest => set rest
  | _ => failure

/-- The instant at a date and time of day that are `offset` seconds ahead of universal time. The
second 60 is the one before it, a second longer. -/
def ofLocal (year : Int) (month day hour minute second nanoseconds : Nat) (offset : Int) :
    Option Instant :=
  if year < firstYear || lastYear < year || daysIn year month < day then none
  else
    let leap := second = 60
    let secondOfDay : Int := 3600 * hour + 60 * minute + (if leap then 59 else second)
    let seconds := 86400 * dayNumber year month day + secondOfDay - offset
    let shifted := (date (seconds.fdiv 86400)).year
    if shifted < firstYear || lastYear < shifted then none
    else some ⟨seconds, if leap then nanoseconds + 1000000000 else nanoseconds⟩

/-- A date and time of day with an offset. -/
def instant : Reader Instant := do
  let year ← year
  separator '-'
  let month ← shortField 1 12
  separator '-'
  let day ← shortField 1 31
  dateEnd
  let hour ← shortField 0 23
  separator ':'
  let minute ← shortField 0 59
  separator ':'
  let second ← shortField 0 60
  let nanoseconds ← fraction
  skipBlanks
  let offset ← offset
  skipBlanks
  match ofLocal year month day hour minute second nanoseconds offset with
  | some instant => pure instant
  | none => failure

/-- Reads an instant. -/
def parse? (s : String) : Option Instant :=
  match instant.run s.toList with
  | some (instant, []) => some instant
  | _ => none

/-! ## Writing -/

/-- The last `count` decimal digits of a number. -/
def padded : (count : Nat) → Nat → List Char
  | 0, _ => []
  | count + 1, n => padded count (n / 10) ++ [Nat.digitChar (n % 10)]

/-- A year of four digits, or a sign and at least four digits. -/
def writeYear (year : Int) : List Char :=
  if 0 ≤ year && year ≤ 9999 then padded 4 year.toNat
  else
    let digits := Nat.toDigits 10 year.natAbs
    (if year < 0 then '-' else '+') :: List.replicate (4 - digits.length) '0' ++ digits

/-- The shortest exact fraction of the four lengths. -/
def writeFraction (nanoseconds : Nat) : List Char :=
  if nanoseconds = 0 then []
  else if nanoseconds % 1000000 = 0 then '.' :: padded 3 (nanoseconds / 1000000)
  else if nanoseconds % 1000 = 0 then '.' :: padded 6 (nanoseconds / 1000)
  else '.' :: padded 9 nanoseconds

/-- The date of an instant, with a character behind it, and its time of day. -/
def dateAndTime (separator : Char) (instant : Instant) : List Char :=
  let date := date (instant.seconds.fdiv 86400)
  let secondOfDay := (instant.seconds.fmod 86400).toNat
  let second := secondOfDay % 60 + instant.nanoseconds / 1000000000
  writeYear date.year ++ '-' :: padded 2 date.month ++ '-' :: padded 2 date.day ++
    separator :: padded 2 (secondOfDay / 3600) ++ ':' :: padded 2 (secondOfDay / 60 % 60) ++
    ':' :: padded 2 second

/-- The written form of an instant. -/
def toText (instant : Instant) : String :=
  String.ofList
    (dateAndTime 'T' instant ++ writeFraction (instant.nanoseconds % 1000000000) ++ ['Z'])

/-- An instant in whole seconds, for people. -/
def toClock (instant : Instant) : String :=
  String.ofList (dateAndTime ' ' instant)

end BuildServer.Instant
