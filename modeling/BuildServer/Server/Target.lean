/-!
# Targets of requests

The target of a request has one of three forms: a path, a scheme with an authority and a path
behind it, or an authority alone. A path may be followed by a query behind a question mark, and by
a number sign with more behind it that is not looked at. The server asks only for the path; the rest
has to have the form that belongs to it.

A target is judged as the `http` library judges it, which reads it before the server is asked
(`Uri::from_str`). How long a target, a scheme and a row of colons may be are limits of that library.
-/

set_option autoImplicit false

namespace BuildServer

/-- A target taken apart (`Uri`). -/
structure Target where
  /-- What stands before a colon and two slashes. -/
  scheme : Option (List Char) := none
  authority : List Char := []
  /-- The path and all behind it. -/
  rest : List Char
  deriving DecidableEq, Repr

namespace Target

/-- The path or what may follow it begins with the character. -/
def endsAuthority (c : Char) : Bool := c == '/' || c == '?' || c == '#'

def isSchemeChar (c : Char) : Bool := c.isAlphanum || "+-.~".toList.contains c

/-- The scheme of a text and what follows its colon and two slashes. -/
def splitScheme? (cs : List Char) : Option (List Char × List Char) :=
  match cs.dropWhile isSchemeChar with
  | ':' :: '/' :: '/' :: rest => some (cs.takeWhile isSchemeChar, rest)
  | _ => none

/-- Takes a target apart. -/
def ofText (s : String) : Target :=
  let split := fun (scheme : Option (List Char)) (cs : List Char) =>
    Target.mk scheme (cs.takeWhile (!endsAuthority ·)) (cs.dropWhile (!endsAuthority ·))
  match s.toList with
  | '/' :: cs => { rest := '/' :: cs }
  | cs =>
    match splitScheme? cs with
    | some (scheme, rest) => split (some scheme) rest
    | none => split none cs

/-- The path of a target. -/
def path (t : Target) : List Char := t.rest.takeWhile fun c => c != '?' && c != '#'

/-! ## The form of the parts -/

/-- How far an authority has been read. -/
structure AuthorityScan where
  /-- The colons outside the user's part and the brackets. -/
  colons : Nat := 0
  opened : Bool := false
  closed : Bool := false
  /-- There is a percent sign outside the user's part and the brackets. -/
  escaped : Bool := false

namespace AuthorityScan

/-- How many colons may follow one another without an end of the brackets or of the user's part. -/
def colonLimit : Nat := 8

/-- A character without a meaning of its own. -/
def isPlain (c : Char) : Bool := c.isAlphanum || "!$&'()*+,-.;=_~".toList.contains c

/-- One character of an authority. -/
def next? (a : AuthorityScan) (c : Char) : Option AuthorityScan :=
  match c with
  | ':' => if a.colons < colonLimit then some { a with colons := a.colons + 1 } else none
  | '[' => if a.escaped || a.opened then none else some { a with opened := true }
  | ']' =>
    if a.opened && !a.closed then some { a with closed := true, colons := 0, escaped := false }
    else none
  | '@' => some { a with colons := 0, escaped := false }
  | '%' => some { a with escaped := true }
  | c => if isPlain c then some a else none

/-- An authority may end here. -/
def mayEnd (a : AuthorityScan) : Bool :=
  a.opened == a.closed && a.colons ≤ 1 && !a.escaped

end AuthorityScan

/-- The text has the form of an authority (`Authority`): a server, perhaps with a user before an at
sign and the number of a service behind a colon. A server in brackets may have colons of its own. -/
def isAuthority (cs : List Char) : Bool :=
  cs.getLast? != some '@' && (cs.foldlM AuthorityScan.next? {}).any (·.mayEnd)

/-- A character that stands for itself, where the marks are those that must be escaped. -/
def isOpenChar (marks : List Char) (c : Char) : Bool :=
  0x20 < c.toNat && c.toNat != 0x7F && !marks.contains c

/-- The text has the form of a path, a query and anything behind a number sign. -/
def isPathAndQuery (cs : List Char) : Bool :=
  let cs := cs.takeWhile (· != '#')
  (cs.takeWhile (· != '?')).all (isOpenChar ['<', '>', '\x60']) &&
    (cs.dropWhile (· != '?')).all (isOpenChar ['"', '<', '>'])

/-- How long a target may be in UTF-8. -/
def sizeLimit : Nat := 65534

def schemeLimit : Nat := 64

/-- The text is a target. -/
def isTarget (s : String) : Bool :=
  let t := ofText s
  let isFormed := match t.scheme, t.authority with
    | none, [] => t.rest.head? == some '/'
    | none, _ :: _ => t.rest.isEmpty
    | some scheme, authority => scheme.length ≤ schemeLimit && !authority.isEmpty
  s.utf8ByteSize ≤ sizeLimit && isFormed && isAuthority t.authority && isPathAndQuery t.rest

end Target

end BuildServer
