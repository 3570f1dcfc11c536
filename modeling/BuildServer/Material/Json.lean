import BuildServer.Material.Basic
/-!
# Materials as JSON

A material is one flat object with its kind under `type`. On reading, the object is first read as a
whole, with only the kind looked at on the way, and then taken apart; so a fault of the text inside
a material comes before a mismatch in one of its fields. A dependency may also be an array.
-/

set_option autoImplicit false

namespace BuildServer

namespace MaterialKind

/-- The kinds by the names they have under `type`. -/
def tags : List (String × MaterialKind) :=
  [("git", .git), ("hg", .hg), ("svn", .svn), ("p4", .p4), ("dependency", .dependency)]

/-- The kind with the name under `type`. -/
def ofTag? (s : String) : Option MaterialKind := tags.lookup s

def toJson (kind : MaterialKind) : Json := .string kind.name

def ofJson : Json.Decoder MaterialKind :=
  Json.oneOf [("Git", .git), ("Hg", .hg), ("Svn", .svn), ("P4", .p4), ("Dependency", .dependency)]

end MaterialKind

namespace CheckoutOptions

def entries (options : CheckoutOptions) : List (String × Json) :=
  [("folder", Json.ofOption .string options.folder), ("filter", options.filter.toJson),
    ("invert_filter", .bool options.invertFilter)]

end CheckoutOptions

namespace Material

open Json.Parts (required defaulted)

def entries : Material → List (String × Json)
  | .git source options =>
    ("type", .string "git") :: ("url", .string source.url.configured) ::
      ("branch", Json.ofOption .string source.branch) ::
      ("submodule_folder", Json.ofOption .string source.submoduleFolder) ::
      ("shallow_clone", .bool source.shallowClone) :: options.entries
  | .hg source options =>
    ("type", .string "hg") :: ("url", .string source.url.configured) ::
      ("branch", Json.ofOption .string source.branch) :: options.entries
  | .svn source options =>
    ("type", .string "svn") :: ("url", .string source.url.configured) ::
      ("username", Json.ofOption .string source.username) ::
      ("check_externals", .bool source.checkExternals) :: options.entries
  | .p4 source options =>
    ("type", .string "p4") :: ("server_and_port", .string source.server) ::
      ("username", Json.ofOption .string source.username) ::
      ("view", .string source.view) :: options.entries
  | .dependency d =>
    [("type", .string "dependency"), ("pipeline_name", .string d.pipelineName),
      ("stage_name", .string d.stageName)]

def toJson (m : Material) : Json := .object m.entries

/-! ## Reading -/

/-- The kind named by an object, with the other entries in order. Entries before the end must be
sound, and the kind may be named only once. -/
def splitTag (found : Option MaterialKind) (others : List (String × Json)) :
    List (String × Json) → Except Json.Fault (MaterialKind × List (String × Json))
  | [] =>
    match found with
    | some kind => .ok (kind, others.reverse)
    | none => .error .mismatch
  | (key, value) :: rest =>
    if key = "type" then
      if found.isSome then .error .mismatch
      else
        match Json.parsed MaterialKind.ofTag? value with
        | .ok kind => splitTag (some kind) others rest
        | .error fault => .error fault
    else if value.isSound then splitTag found ((key, value) :: others) rest
    else .error .malformed

def readUrl : Json.Decoder RepositoryUrl := fun j => (Json.text j).map RepositoryUrl.mk

/-- The checkout options among the parts of a material. -/
def readOptions (parts : Json.Parts) : Json.Attempt CheckoutOptions :=
  CheckoutOptions.mk
    <$> parts.defaulted 0 "folder" (Json.nullable Json.text) none
    <*> parts.defaulted 0 "filter" Filter.ofJson .empty
    <*> parts.defaulted 0 "invert_filter" Json.flag false

def readGit : Json.Decoder Material :=
  Json.record ["url", "branch", "submodule_folder", "shallow_clone", "folder", "filter",
      "invert_filter"] fun parts =>
    Material.git
      <$> (GitSource.mk
        <$> parts.required 0 "url" readUrl
        <*> parts.defaulted 0 "branch" (Json.nullable Json.text) none
        <*> parts.defaulted 0 "submodule_folder" (Json.nullable Json.text) none
        <*> parts.defaulted 0 "shallow_clone" Json.flag false)
      <*> readOptions parts

def readHg : Json.Decoder Material :=
  Json.record ["url", "branch", "folder", "filter", "invert_filter"] fun parts =>
    Material.hg
      <$> (HgSource.mk
        <$> parts.required 0 "url" readUrl
        <*> parts.defaulted 0 "branch" (Json.nullable Json.text) none)
      <*> readOptions parts

def readSvn : Json.Decoder Material :=
  Json.record ["url", "username", "check_externals", "folder", "filter", "invert_filter"]
      fun parts =>
    Material.svn
      <$> (SvnSource.mk
        <$> parts.required 0 "url" readUrl
        <*> parts.defaulted 0 "username" (Json.nullable Json.text) none
        <*> parts.defaulted 0 "check_externals" Json.flag false)
      <*> readOptions parts

def readP4 : Json.Decoder Material :=
  Json.record ["server_and_port", "username", "view", "folder", "filter", "invert_filter"]
      fun parts =>
    Material.p4
      <$> (P4Source.mk
        <$> parts.required 0 "server_and_port" Json.text
        <*> parts.defaulted 0 "username" (Json.nullable Json.text) none
        <*> parts.required 0 "view" Json.text)
      <*> readOptions parts

def readDependency : Json.Decoder Material :=
  Json.record ["pipeline_name", "stage_name"] fun parts =>
    Material.dependency
      <$> (Dependency.mk
        <$> parts.required 0 "pipeline_name" Json.text
        <*> parts.required 1 "stage_name" Json.text)

/-- Reads a material of a kind from an object without its kind, or from an array if it is a
dependency. -/
def readKind (kind : MaterialKind) (body : Json) : Except Json.Fault Material :=
  match kind, body with
  | .dependency, body => readDependency body
  | .git, .object _ => readGit body
  | .hg, .object _ => readHg body
  | .svn, .object _ => readSvn body
  | .p4, .object _ => readP4 body
  | _, _ => .error .mismatch

/-- Reads a material. Once its text is known to be sound, every fault is a mismatch. -/
def ofJson : Json.Decoder Material := fun j =>
  let read := fun (kind : MaterialKind) (body : Json) =>
    (readKind kind body).mapError fun _ => .mismatch
  match j with
  | .object entries =>
    match splitTag none [] entries with
    | .ok (kind, entries) => read kind (.object entries)
    | .error fault => .error fault
  | .array [] => .error .mismatch
  | .array (tag :: items) =>
    match Json.parsed MaterialKind.ofTag? tag with
    | .ok kind => if Json.itemsSound items then read kind (.array items) else .error .malformed
    | .error fault => .error fault
  | j => .error j.refuse

end Material

end BuildServer
