import BuildServer.Material.Json
import BuildServer.Time.Rfc3339
/-!
# Modifications and revisions

A modification is one commit seen on a material, with the files it touched. A revision collects the
modifications of one material, which it knows by fingerprint. A revision is ignored by a material
if the material has a filter and the filter rules out every file that was touched.
-/

set_option autoImplicit false

namespace BuildServer

/-- What happened to a file (`ModifiedAction`). -/
inductive FileAction where
  | added
  | modified
  | deleted
  | unknown
  deriving DecidableEq, Repr, Inhabited

namespace FileAction

def names : List (String × FileAction) :=
  [("Added", .added), ("Modified", .modified), ("Deleted", .deleted), ("Unknown", .unknown)]

def name : FileAction → String
  | .added => "Added"
  | .modified => "Modified"
  | .deleted => "Deleted"
  | .unknown => "Unknown"

def toJson (action : FileAction) : Json := .string action.name

def ofJson : Json.Decoder FileAction := Json.oneOf names

end FileAction

/-- A file that a modification touched (`ModifiedFile`). -/
structure ModifiedFile where
  fileName : String
  folderName : Option String
  action : FileAction
  deriving DecidableEq, Repr, Inhabited

namespace ModifiedFile

def toJson (file : ModifiedFile) : Json :=
  .object [("file_name", .string file.fileName),
    ("folder_name", Json.ofOption .string file.folderName), ("action", file.action.toJson)]

def ofJson : Json.Decoder ModifiedFile :=
  Json.record ["file_name", "folder_name", "action"] fun parts =>
    ModifiedFile.mk
      <$> parts.required 0 "file_name" Json.text
      <*> parts.optional 1 "folder_name" Json.text
      <*> parts.required 2 "action" FileAction.ofJson

end ModifiedFile

/-! ## Instants as JSON -/

namespace Instant

def toJson (instant : Instant) : Json := .string instant.toText

def ofJson : Json.Decoder Instant := Json.parsed parse?

end Instant

/-- A commit on a material (`Modification`). -/
structure Modification where
  userName : Option String
  comment : Option String
  emailAddress : Option String
  modifiedTime : Instant
  revision : String
  modifiedFiles : List ModifiedFile := []
  deriving DecidableEq, Repr, Inhabited

namespace Modification

/-- The name shown for a committer who is not known. -/
def anonymous : String := "anonymous"

/-- The committer, or the anonymous one where the name is absent or blank (`user_display_name`). -/
def userDisplayName (m : Modification) : String :=
  match m.userName with
  | some user => if Text.isAllBlank user then anonymous else user
  | none => anonymous

/-- The modification with one more file (`create_modified_file`). -/
def addFile (m : Modification) (file : ModifiedFile) : Modification :=
  { m with modifiedFiles := m.modifiedFiles ++ [file] }

def toJson (m : Modification) : Json :=
  .object [("user_name", Json.ofOption .string m.userName),
    ("comment", Json.ofOption .string m.comment),
    ("email_address", Json.ofOption .string m.emailAddress),
    ("modified_time", m.modifiedTime.toJson), ("revision", .string m.revision),
    ("modified_files", Json.ofList ModifiedFile.toJson m.modifiedFiles)]

def ofJson : Json.Decoder Modification :=
  Json.record ["user_name", "comment", "email_address", "modified_time", "revision",
      "modified_files"] fun parts =>
    Modification.mk
      <$> parts.optional 0 "user_name" Json.text
      <*> parts.optional 1 "comment" Json.text
      <*> parts.optional 2 "email_address" Json.text
      <*> parts.required 3 "modified_time" Instant.ofJson
      <*> parts.required 4 "revision" Json.text
      <*> parts.defaulted 5 "modified_files" (Json.listOf ModifiedFile.ofJson) []

end Modification

/-- Modifications of one material (`MaterialRevision`). -/
structure Revision where
  fingerprint : String
  kind : MaterialKind
  modifications : List Modification
  deriving DecidableEq, Repr, Inhabited

namespace Revision

/-- The revision of a material with the given modifications (`MaterialRevision::new`). -/
def ofMaterial (m : Material) (modifications : List Modification) : Revision :=
  ⟨m.fingerprint, m.kind, modifications⟩

/-- The later of a modification and the latest one so far; of two at the same time, the second. -/
def later (latest : Option Modification) (m : Modification) : Option Modification :=
  match latest with
  | some l => if m.modifiedTime.before l.modifiedTime then some l else some m
  | none => some m

/-- The latest modification; of several at the same time, the last one. -/
def latest? (r : Revision) : Option Modification :=
  r.modifications.foldl later none

/-- What the latest modification is called in its version control system (`latest_revision`). -/
def latestRevision? (r : Revision) : Option String :=
  r.latest?.map (·.revision)

/-- The files that the modifications touched, in order (`all_files`). -/
def files (r : Revision) : List ModifiedFile :=
  r.modifications.flatMap (·.modifiedFiles)

/-- The material's filter rules out every file of the revision (`should_be_ignored_by`). A material
without a filter ignores nothing. -/
def isIgnoredBy [RegexLibrary] (r : Revision) (m : Material) : Bool :=
  !m.filter.isEmpty && r.files.all fun file => m.ignoresFile file.fileName

def toJson (r : Revision) : Json :=
  .object [("fingerprint", .string r.fingerprint), ("material_type", r.kind.toJson),
    ("modifications", Json.ofList Modification.toJson r.modifications)]

def ofJson : Json.Decoder Revision :=
  Json.record ["fingerprint", "material_type", "modifications"] fun parts =>
    Revision.mk
      <$> parts.required 0 "fingerprint" Json.text
      <*> parts.required 1 "material_type" MaterialKind.ofJson
      <*> parts.required 2 "modifications" (Json.listOf Modification.ofJson)

end Revision

/-- Revisions of several materials, in the order in which they were seen (`MaterialRevisions`). -/
structure Revisions where
  list : List Revision := []
  deriving DecidableEq, Repr, Inhabited

namespace Revisions

def add (rs : Revisions) (r : Revision) : Revisions := ⟨rs.list ++ [r]⟩

def addAll (rs others : Revisions) : Revisions := ⟨rs.list ++ others.list⟩

def size (rs : Revisions) : Nat := rs.list.length

def isEmpty (rs : Revisions) : Bool := rs.list.isEmpty

/-- The first revision of the material with the fingerprint (`find_by_fingerprint`). -/
def find? (rs : Revisions) (fingerprint : String) : Option Revision :=
  rs.list.find? (·.fingerprint == fingerprint)

/-- The first revision of the material. -/
def findMaterial? (rs : Revisions) (m : Material) : Option Revision :=
  rs.find? m.fingerprint

def toJson (rs : Revisions) : Json := Json.ofList Revision.toJson rs.list

def ofJson : Json.Decoder Revisions := fun j =>
  (Json.listOf Revision.ofJson j).map Revisions.mk

end Revisions

end BuildServer
