import BuildServer.Json.Token
/-!
# Reading JSON texts

The reader keeps the arrays and objects that are still open on a stack and takes one token at a
time. It always answers with a value: where the tokens go wrong or run out, the value is cut off by
`broken` inside every open array and object. What follows a complete value is noted, for it is
looked at only after the value itself. An array or object that ends inside too many others is not
kept: only how it ended matters, for nobody can ask for it.

How deep a value may go is the limit of `serde_json`, and so is the order in which faults are met.
-/

set_option autoImplicit false

namespace BuildServer.Json

/-- How many arrays and objects may stand inside one another. -/
def depthLimit : Nat := 127

/-- The entry of an object under a key, or under a string that is no key. -/
def entry (key : Option String) (value : Json) : String × Json :=
  match key with
  | some key => (key, value)
  | none => ("", .keyless (if value.isComplete then .illFormed else .cutOff))

/-- An array or object that is still open, with what it holds so far, last one first. An object
remembers the key of the entry that is being read, if that is a key. -/
inductive Frame where
  | array (items : List Json)
  | object (entries : List (String × Json)) (key : Option String)

/-- A frame with a value in the place that waits for one. -/
def Frame.add (value : Json) : Frame → Frame
  | .array items => .array (value :: items)
  | .object entries key => .object (entry key value :: entries) none

/-- The array or object that ends here. -/
def Frame.close : Frame → Json
  | .array items => .array items.reverse
  | .object entries _ => .object entries.reverse

/-- What is wrong with a token that stands in the place of a key. -/
def Token.keyFault : Token → KeyFault
  | .openArray | .openObject => .notText
  | .scalar j => if j.isSound then .notText else .cutOff
  | _ => .cutOff

/-- What the reader waits for. -/
inductive Wait where
  | value
  /-- The first item of an array, or its end. -/
  | firstItem
  /-- The first key of an object, or its end. -/
  | firstKey
  | key
  | colon
  /-- A comma or the end of the innermost array or object. -/
  | next

/-- How far a text has been read: the open frames, innermost first, what may come now, and the
value that is complete once no frame is open. -/
structure Progress where
  frames : List Frame := []
  wait : Wait := .value
  whole : Json := .broken

namespace Progress

/-- A value stands in the innermost frame, or is the whole text. -/
def place (j : Json) : List Frame → Json → Progress
  | [], _ => ⟨[], .next, j⟩
  | frame :: frames, whole => ⟨frame.add j :: frames, .next, whole⟩

/-- A value, or the beginning of one, where one may stand. -/
def stepValue (p : Progress) : Token → Option Progress
  | .scalar j => some (place j p.frames p.whole)
  | .openArray => some ⟨.array [] :: p.frames, .firstItem, p.whole⟩
  | .openObject => some ⟨.object [] none :: p.frames, .firstKey, p.whole⟩
  | _ => none

/-- A key of the entry that comes next in the innermost frame. -/
def setKey (key : Option String) (p : Progress) : Option Progress :=
  match p.frames with
  | .object entries _ :: frames => some ⟨.object entries key :: frames, .colon, p.whole⟩
  | _ => none

/-- A key in the innermost frame. -/
def stepKey (p : Progress) : Token → Option Progress
  | .scalar (.string key) => p.setKey (some key)
  | .scalar .illFormed => p.setKey none
  | _ => none

/-- The innermost frame ends. -/
def stepClose (p : Progress) : Option Progress :=
  match p.frames with
  | frame :: frames =>
    let ended := if frames[depthLimit - 1]?.isSome then .tooDeep else frame.close
    some (place ended frames p.whole)
  | [] => none

/-- One token; none where the text breaks off. -/
def step (p : Progress) (token : Token) : Option Progress :=
  match p.wait, token with
  | .firstItem, .closeArray | .firstKey, .closeObject => p.stepClose
  | .value, token | .firstItem, token => p.stepValue token
  | .key, token | .firstKey, token => p.stepKey token
  | .colon, .colon => some { p with wait := .value }
  | .next, .comma =>
    match p.frames with
    | .array _ :: _ => some { p with wait := .value }
    | .object _ _ :: _ => some { p with wait := .key }
    | [] => none
  | .next, .closeArray =>
    match p.frames with
    | .array _ :: _ => p.stepClose
    | _ => none
  | .next, .closeObject =>
    match p.frames with
    | .object _ _ :: _ => p.stepClose
    | _ => none
  | _, _ => none

/-- The value that is left when the text breaks off at a token. -/
def cutOff (p : Progress) (token : Token) : Json :=
  let close := fun (value : Json) (frame : Frame) => (frame.add value).close
  match p.wait, p.frames with
  | .firstKey, .object entries _ :: frames | .key, .object entries _ :: frames =>
    frames.foldl close (.object (("", .keyless token.keyFault) :: entries).reverse)
  | _, frames => frames.foldl close .broken

/-- The whole text is one complete value. -/
def isDone (p : Progress) : Bool :=
  match p.wait with
  | .next => p.frames.isEmpty
  | _ => false

end Progress

/-- What was read: a value, and whether anything follows it. -/
structure Document where
  value : Json
  trailing : Bool

/-- Reads the rest of the tokens. -/
def build (p : Progress) : List Token → Document
  | [] => if p.isDone then ⟨p.whole, false⟩ else ⟨p.cutOff .bad, false⟩
  | token :: rest =>
    match p.step token with
    | some p => build p rest
    | none => if p.isDone then ⟨p.whole, true⟩ else ⟨p.cutOff token, false⟩

/-- Reads a text (`serde_json::from_str`). -/
def read (s : String) : Document :=
  build {} (scan .between s.toList)

/-- The value of a text that is JSON as a whole and can be asked for everywhere. -/
def parse? (s : String) : Option Json :=
  let document := read s
  if document.value.isSound && !document.trailing then some document.value else none

end BuildServer.Json
