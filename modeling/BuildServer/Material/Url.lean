import BuildServer.Text.Blank
/-!
# Repository URLs

The URL of a repository may carry `user:password@` between its scheme and its host. Such credentials
must never be shown and have no part in the identity of the repository. A URL is taken apart into
scheme, user, password and rest only if it has a scheme and an `@` before the first slash of what
follows; everything else, such as a path or a remote of the form `host:path`, is left as it is.
-/

set_option autoImplicit false

namespace BuildServer

/-- The URL of a repository, as it was configured (`UrlArgument`). -/
structure RepositoryUrl where
  configured : String
  deriving DecidableEq, Repr, Inhabited

namespace RepositoryUrl

/-- A URL taken apart at its credentials (`Credentials`). -/
structure Credentials where
  /-- The scheme with its colon and slashes. -/
  scheme : List Char
  user : List Char
  password : Option (List Char)
  /-- What follows the at sign. -/
  rest : List Char

/-- A character of a scheme after its first. -/
def isSchemeChar (c : Char) : Bool :=
  c.isAlphanum || c == '+' || c == '.' || c == '-'

/-- The scheme of a URL with its colon and slashes, and what follows it. A scheme begins with a
letter and goes on with letters, digits, plus signs, points and hyphens, all of ASCII. -/
def splitScheme? (cs : List Char) : Option (List Char × List Char) :=
  let name := cs.takeWhile isSchemeChar
  match name, cs.dropWhile isSchemeChar with
  | c :: _, ':' :: '/' :: '/' :: rest =>
    if c.isAlpha then some (name ++ [':', '/', '/'], rest) else none
  | _, _ => none

/-- The parts of a text before and after the last at sign that no slash comes before. -/
def splitAtSign? : List Char → Option (List Char × List Char)
  | [] => none
  | c :: cs =>
    if c = '/' then none
    else match splitAtSign? cs with
      | some (before, after) => some (c :: before, after)
      | none => if c = '@' then some ([], cs) else none

/-- The user, and the password behind the first colon, if there is a colon. -/
def splitUserInfo (cs : List Char) : List Char × Option (List Char) :=
  let user := cs.takeWhile (· != ':')
  match cs.dropWhile (· != ':') with
  | [] => (user, none)
  | _ :: password => (user, some password)

/-- The credentials in a URL (`UrlArgument::credentials`). Where a line feed follows the at sign none are
seen. -/
def credentials? (cs : List Char) : Option Credentials := do
  let (scheme, afterScheme) ← splitScheme? cs
  let (userInfo, rest) ← splitAtSign? afterScheme
  if rest.contains '\n' then none
  else
    let (user, password) := splitUserInfo userInfo
    some ⟨scheme, user, password, rest⟩

/-- The mark shown in place of a password (`MASK`). -/
def mask : List Char := "******".toList

/-- The characters of a URL with its password masked. -/
def maskPassword (cs : List Char) : List Char :=
  match credentials? cs with
  | some ⟨scheme, user, some _, rest⟩ => scheme ++ user ++ ':' :: mask ++ '@' :: rest
  | _ => cs

/-- The characters of a URL without user and password. -/
def dropCredentials (cs : List Char) : List Char :=
  match credentials? cs with
  | some c => c.scheme ++ c.rest
  | none => cs

/-- The characters of a URL without its password, and without an empty user. -/
def dropPassword (cs : List Char) : List Char :=
  match credentials? cs with
  | some c => if c.user.isEmpty then c.scheme ++ c.rest else c.scheme ++ c.user ++ '@' :: c.rest
  | none => cs

/-- The URL with its password masked, safe to show (`for_display`). -/
def forDisplay (url : RepositoryUrl) : String :=
  String.ofList (maskPassword url.configured.toList)

/-- The URL without user and password (`without_credentials`). -/
def withoutCredentials (url : RepositoryUrl) : String :=
  String.ofList (dropCredentials url.configured.toList)

/-- The URL without its password (`without_password`). -/
def withoutPassword (url : RepositoryUrl) : String :=
  String.ofList (dropPassword url.configured.toList)

/-- The other text, less the blanks around it, names the same repository: the two agree up to credentials
(`is_same_repository`). A blank text names none. -/
def isSameRepository (url : RepositoryUrl) (other : String) : Bool :=
  let other := Text.trim other
  !other.isEmpty && url.withoutCredentials == withoutCredentials ⟨other⟩

/-- A URL is written with its password masked. -/
instance : ToString RepositoryUrl := ⟨forDisplay⟩

end RepositoryUrl

end BuildServer
