/-!
# Media types

A body is announced by a media type: a type, a slash, a subtype that may end in a plus sign and a
suffix, and parameters behind semicolons. A body of JSON has the type `application` and `json` for
its subtype or suffix, in letters of any case. Of the parameters only the form is looked at.

The parts are told apart as the `mime` library does it, and the question is the one that `axum` asks of
the header of a request before it reads the body as JSON.
-/

set_option autoImplicit false

namespace BuildServer.MediaType

/-- A character of a name. -/
def isNameChar (c : Char) : Bool :=
  c.isAlphanum || "!#$%&'*+-.^_|~".toList.contains c || c.toNat == 0x60

/-- A character between quotation marks. -/
def isQuotedChar (c : Char) : Bool := 0x20 ≤ c.toNat && c.toNat < 0x7F

/-- Where the reader of parameters stands. -/
inductive Mode where
  /-- Before a name, where there may be spaces. -/
  | start
  | name
  /-- Behind the equals sign. -/
  | equals
  | value
  /-- Behind the opening quotation mark, or further inside. A value is not empty, so a mark right
  behind the opening one is part of the value. -/
  | quoted (isEmpty : Bool)
  /-- Behind the closing quotation mark. -/
  | closed

/-- One character of the parameters. -/
def Mode.next? (mode : Mode) (c : Char) : Option Mode :=
  match mode with
  | .start => if c = ' ' then some .start else if isNameChar c then some .name else none
  | .name => if c = '=' then some .equals else if isNameChar c then some .name else none
  | .equals =>
    if c = '"' then some (.quoted true) else if isNameChar c then some .value else none
  | .value => if c = ';' then some .start else if isNameChar c then some .value else none
  | .quoted isEmpty =>
    if c = '"' && !isEmpty then some .closed
    else if isQuotedChar c then some (.quoted false) else none
  | .closed => if c = ';' then some .start else if c = ' ' then some .closed else none

/-- The parameters may end here. -/
def Mode.mayEnd : Mode → Bool
  | .start | .value | .closed | .equals => true
  | .name | .quoted _ => false

/-- The text, which follows the first semicolon, is made of parameters. -/
def areParameters (cs : List Char) : Bool :=
  match cs.foldlM Mode.next? .start with
  | some mode => mode.mayEnd
  | none => false

/-- The subtype without its suffix, and the suffix. A plus sign at the very front is part of the
subtype. -/
def splitSuffix (cs : List Char) : List Char × Option (List Char) :=
  let back := cs.reverse
  let suffix := (back.takeWhile (· != '+')).reverse
  match back.dropWhile (· != '+') with
  | _ :: name@(_ :: _) => (name.reverse, some suffix)
  | _ => (cs, none)

/-- The text is the same as another in letters of any case. -/
def isWord (word : String) (cs : List Char) : Bool := cs.map Char.toLower == word.toList

/-- The media type is one of JSON. -/
def isJson (s : String) : Bool :=
  let cs := s.toList
  let kind := cs.takeWhile (· != '/')
  let rest := (cs.dropWhile (· != '/')).tail
  let name := rest.takeWhile (· != ';')
  let (subtype, suffix) := splitSuffix name
  isWord "application" kind && name.all isNameChar &&
    (isWord "json" subtype || suffix.any (isWord "json")) &&
    areParameters (rest.dropWhile (· != ';')).tail

end BuildServer.MediaType
