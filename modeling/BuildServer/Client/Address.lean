import BuildServer.Client.Host
/-!
# Web addresses

An address is taken apart into a scheme, a host with the number of its service, a path, a query and
a fragment. Line ends and tabs are dropped, as are control characters and spaces around the whole.
With the schemes of the web a backslash counts as a slash, a host must be there, and the usual
number of a service is left out; with other schemes a path may follow the colon at once. Segments of
one or two dots are resolved, and characters that may not stand in their place are escaped. Escapes
that are there already are kept. The name of a user is not part of the address.

This is how the `url` library reads an address and writes it again. The client does not look into an
address itself: `reqwest` has it read in this way before a request is sent.
-/

set_option autoImplicit false

namespace BuildServer

/-- An address on the web or elsewhere (`Url`). -/
structure WebAddress where
  scheme : String
  host : Option Host
  /-- The number of the service on the host, if it is not the usual one. -/
  service : Option Nat := none
  path : String
  query : Option String := none
  fragment : Option String := none
  deriving DecidableEq, Repr

namespace WebAddress

/-- A control character or a space. -/
def isOuter (c : Char) : Bool := c.toNat ≤ 0x20

/-- The characters of an address that count. -/
def clean (cs : List Char) : List Char :=
  ((cs.dropWhile isOuter).reverse.dropWhile isOuter).reverse.filter fun c =>
    c != '\t' && c != '\n' && c != '\r'

/-! ## Characters that are escaped -/

/-- A character that is escaped everywhere. -/
def isControl (c : Char) : Bool := c.toNat < 0x20 || 0x7F ≤ c.toNat

/-- A character that is escaped in a fragment. -/
def isForbiddenInFragment (c : Char) : Bool :=
  isControl c || [' ', '"', '<', '>', '\x60'].contains c

/-- A character that is escaped in a path. -/
def isForbiddenInPath (c : Char) : Bool := isForbiddenInFragment c || c == '{' || c == '}'

/-- A character that is escaped in a query. -/
def isForbiddenInQuery (isWeb : Bool) (c : Char) : Bool :=
  isControl c || [' ', '"', '<', '>'].contains c || (isWeb && c == '\'')

/-! ## Paths -/

/-- Segments that mean the directory they stand in. -/
def isSingleDot (segment : List Char) : Bool :=
  [".", "%2e"].any fun dots => dots.toList == segment.map Char.toLower

/-- Segments that mean the directory above. -/
def isDoubleDot (segment : List Char) : Bool :=
  ["..", ".%2e", "%2e.", "%2e%2e"].any fun dots => dots.toList == segment.map Char.toLower

/-- The segments without those of dots, behind the ones in `done`, last one first. A path that ends
in dots ends in a slash. -/
def resolveDots (done : List (List Char)) : List (List Char) → List (List Char)
  | [] => done.reverse
  | segment :: rest =>
    let done := if isDoubleDot segment then done.tail
      else if isSingleDot segment then done
      else segment :: done
    if rest.isEmpty && (isDoubleDot segment || isSingleDot segment) then ([] :: done).reverse
    else resolveDots done rest

/-- A path of segments, with a slash in front. -/
def pathOf (cs : List Char) : String :=
  String.ofList <| (resolveDots [] (Text.pieces '/' (cs.drop 1))).flatMap fun segment =>
    '/' :: Text.escape isForbiddenInPath segment

/-! ## Reading -/

/-- The schemes of the web, with the usual numbers of their services. -/
def webSchemes : List (String × Nat) :=
  [("http", 80), ("https", 443), ("ws", 80), ("wss", 443), ("ftp", 21)]

/-- The scheme of an address, in small letters, and what follows its colon. -/
def splitScheme? (cs : List Char) : Option (String × List Char) :=
  let isSchemeChar := fun (c : Char) => c.isAlphanum || c == '+' || c == '-' || c == '.'
  match cs.takeWhile isSchemeChar, cs.dropWhile isSchemeChar with
  | c :: name, ':' :: rest =>
    if c.isAlpha then some (String.ofList ((c :: name).map Char.toLower), rest) else none
  | _, _ => none

/-- The path ends before the character. -/
def isPathEnd (c : Char) : Bool := c == '?' || c == '#'

/-- The host and the number of its service, where `read` reads the host. The name of a user stands
before an at sign. Colons in brackets are part of the host, another one comes before the number. -/
def splitServer? (read : List Char → Option Host) (usual : Option Nat) (cs : List Char) :
    Option (Host × Option Nat) := do
  let server := (Text.pieces '@' cs).getLastD []
  let bracketed := (server.reverse.dropWhile (· != ']')).reverse
  let rest := server.drop bracketed.length
  let name := bracketed ++ rest.takeWhile (· != ':')
  let number := rest.dropWhile (· != ':')
  if name.isEmpty && !(cs.isEmpty && number.isEmpty) then none
  else
    let host ← read name
    let digits := number.tail
    let service := Text.ofDecimal digits
    if !digits.all Char.isDigit || 0x10000 ≤ service then none
    else return (host, if digits.isEmpty || some service = usual then none else some service)

/-- The rest of an address, from the query on. -/
def withRest (isWeb : Bool) (cs : List Char) (address : WebAddress) : WebAddress :=
  let beforeFragment := cs.takeWhile (· != '#')
  let written := fun (isForbidden : Char → Bool) (cs : List Char) =>
    if cs.isEmpty then none else some (String.ofList (Text.escape isForbidden cs.tail))
  { address with
    query := written (isForbiddenInQuery isWeb) (beforeFragment.dropWhile (· != '?'))
    fragment := written isForbiddenInFragment (cs.dropWhile (· != '#')) }

/-- An address of a scheme of the web, from what follows the colon. -/
def ofWeb? (scheme : String) (usual : Nat) (cs : List Char) : Option WebAddress := do
  let path := (cs.takeWhile (!isPathEnd ·)).map fun c => if c == '\\' then '/' else c
  let path := path.dropWhile (· == '/')
  let (host, service) ← splitServer? Host.ofText? (some usual) (path.takeWhile (· != '/'))
  return withRest true (cs.dropWhile (!isPathEnd ·))
    { scheme, host, service, path := pathOf (path.dropWhile (· != '/')) }

/-- An address of any other scheme up to its path, from what follows the colon. Without a slash in
front the path is not taken apart. -/
def ofOtherPath? (scheme : String) (path : List Char) : Option WebAddress :=
  match path with
  | '/' :: '/' :: path => do
    let (host, service) ← splitServer? Host.ofOtherText? none (path.takeWhile (· != '/'))
    let path := path.dropWhile (· != '/')
    return { scheme, host, service, path := if path.isEmpty then "" else pathOf path }
  | '/' :: _ => some { scheme, host := none, path := pathOf path }
  | _ => some { scheme, host := none, path := String.ofList (Text.escape isControl path) }

/-- An address of any other scheme, from what follows the colon. -/
def ofOther? (scheme : String) (cs : List Char) : Option WebAddress :=
  (ofOtherPath? scheme (cs.takeWhile (!isPathEnd ·))).map
    (withRest false (cs.dropWhile (!isPathEnd ·)))

/-- Reads an address (`Url::parse`). -/
def parse? (s : String) : Option WebAddress := do
  let (scheme, rest) ← splitScheme? (clean s.toList)
  match webSchemes.lookup scheme with
  | some usual => ofWeb? scheme usual rest
  | none => ofOther? scheme rest

/-! ## Writing -/

/-- The host with the number of its service. -/
def server (address : WebAddress) : String :=
  ((address.host.map Host.toText).getD "") ++
    ((address.service.map fun n => ":" ++ toString n).getD "")

/-- The path, and behind a question mark the query if there is one. -/
def target (address : WebAddress) : String :=
  address.path ++ (address.query.map ("?" ++ ·)).getD ""

/-- Requests can be sent there: `reqwest` knows no other schemes. -/
def isReachable (address : WebAddress) : Bool :=
  address.scheme == "http" || address.scheme == "https"

/-- The address in one piece (`Url::as_str`). -/
def toText (address : WebAddress) : String :=
  address.scheme ++ ":" ++ (if address.host.isSome then "//" ++ address.server else "") ++
    address.target ++ (address.fragment.map ("#" ++ ·)).getD ""

end WebAddress

end BuildServer
