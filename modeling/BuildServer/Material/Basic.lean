import BuildServer.Digest.Sha256
import BuildServer.Material.Filter
import BuildServer.Material.Url
import BuildServer.Text.Lowercase
/-!
# Materials

A material is a source of change for a pipeline: a repository under one of four version control
systems, or a stage of another pipeline. What it is connected to makes up its identity; where it is
checked out and which files are looked at does not. The fingerprint of a material is the digest of
its identity, so that two pipelines share a material exactly when the fingerprints agree.
-/

set_option autoImplicit false

namespace BuildServer

/-- The kinds of material (`MaterialType`). -/
inductive MaterialKind where
  | git
  | hg
  | svn
  | p4
  | dependency
  deriving DecidableEq, Repr, Inhabited

namespace MaterialKind

/-- The name of a kind in identities and reports. -/
def label : MaterialKind → String
  | .git => "GitMaterial"
  | .hg => "HgMaterial"
  | .svn => "SvnMaterial"
  | .p4 => "P4Material"
  | .dependency => "DependencyMaterial"

/-- The name of a kind where it is a value of its own. -/
def name : MaterialKind → String
  | .git => "Git"
  | .hg => "Hg"
  | .svn => "Svn"
  | .p4 => "P4"
  | .dependency => "Dependency"

end MaterialKind

/-- How a repository is checked out (`ScmOptions`). -/
structure CheckoutOptions where
  /-- The directory under the one of the pipeline. -/
  folder : Option String := none
  filter : Filter := .empty
  /-- Only files that the filter covers are looked at. -/
  invertFilter : Bool := false
  deriving DecidableEq, Repr, Inhabited

/-- What a git material is connected to (`GitMaterialConfig`). -/
structure GitSource where
  url : RepositoryUrl
  branch : Option String := none
  submoduleFolder : Option String := none
  shallowClone : Bool := false
  deriving DecidableEq, Repr, Inhabited

/-- What a Mercurial material is connected to (`HgMaterialConfig`). -/
structure HgSource where
  url : RepositoryUrl
  branch : Option String := none
  deriving DecidableEq, Repr, Inhabited

/-- What a Subversion material is connected to (`SvnMaterialConfig`). -/
structure SvnSource where
  url : RepositoryUrl
  username : Option String := none
  checkExternals : Bool := false
  deriving DecidableEq, Repr, Inhabited

/-- What a Perforce material is connected to (`P4MaterialConfig`). -/
structure P4Source where
  server : String
  username : Option String := none
  view : String
  deriving DecidableEq, Repr, Inhabited

/-- A stage of another pipeline (`DependencyMaterialConfig`). -/
structure Dependency where
  pipelineName : String
  stageName : String
  deriving DecidableEq, Repr, Inhabited

namespace Dependency

/-- The dependency is on the named pipeline, up to the case of ASCII letters (`depends_on`). -/
def dependsOn (d : Dependency) (pipelineName : String) : Bool :=
  Text.sameName d.pipelineName pipelineName

end Dependency

/-- A material as it is configured (`MaterialConfig`). -/
inductive Material where
  | git (source : GitSource) (options : CheckoutOptions)
  | hg (source : HgSource) (options : CheckoutOptions)
  | svn (source : SvnSource) (options : CheckoutOptions)
  | p4 (source : P4Source) (options : CheckoutOptions)
  | dependency (dependency : Dependency)
  deriving DecidableEq, Repr, Inhabited

namespace Material

def kind : Material → MaterialKind
  | .git .. => .git
  | .hg .. => .hg
  | .svn .. => .svn
  | .p4 .. => .p4
  | .dependency _ => .dependency

/-! ## Checkout -/

/-- The options of a material that is checked out. -/
def options? : Material → Option CheckoutOptions
  | .git _ options | .hg _ options | .svn _ options | .p4 _ options => some options
  | .dependency _ => none

/-- Changes the options; a dependency has none to change. -/
def mapOptions (f : CheckoutOptions → CheckoutOptions) : Material → Material
  | .git source options => .git source (f options)
  | .hg source options => .hg source (f options)
  | .svn source options => .svn source (f options)
  | .p4 source options => .p4 source (f options)
  | .dependency d => .dependency d

def withFolder (folder : String) (m : Material) : Material :=
  m.mapOptions fun options => { options with folder := some folder }

def withFilter (filter : Filter) (m : Material) : Material :=
  m.mapOptions fun options => { options with filter := filter }

def withInvertedFilter (m : Material) : Material :=
  m.mapOptions fun options => { options with invertFilter := true }

def folder (m : Material) : Option String :=
  m.options?.bind (·.folder)

/-- The filter of a material; a dependency has an empty one. -/
def filter (m : Material) : Filter :=
  (m.options?.map (·.filter)).getD .empty

def isFilterInverted (m : Material) : Bool :=
  (m.options?.map (·.invertFilter)).getD false

/-- A change of this file alone is not looked at (`should_ignore_file`). -/
def ignoresFile [RegexLibrary] (m : Material) (fileName : String) : Bool :=
  m.filter.covers fileName != m.isFilterInverted

/-! ## Identity -/

def url? : Material → Option RepositoryUrl
  | .git source _ => some source.url
  | .hg source _ => some source.url
  | .svn source _ => some source.url
  | _ => none

def dependency? : Material → Option Dependency
  | .dependency d => some d
  | _ => none

/-- The attributes that make up the identity, in order. The URL is taken without credentials; a git
branch is `master` if none is given; names of pipelines and stages count by their small letters. -/
def attributes : Material → List (String × String)
  | .git source _ =>
    [("url", source.url.withoutCredentials), ("branch", source.branch.getD "master"),
      ("submoduleFolder", source.submoduleFolder.getD "")]
  | .hg source _ =>
    [("url", source.url.withoutCredentials), ("branch", source.branch.getD "")]
  | .svn source _ =>
    [("url", source.url.withoutCredentials), ("username", source.username.getD ""),
      ("checkExternals", if source.checkExternals then "true" else "false")]
  | .p4 source _ =>
    [("serverAndPort", Text.trim source.server), ("userName", source.username.getD ""),
      ("view", Text.singleSpaced source.view)]
  | .dependency d =>
    [("pipelineName", Text.lowercase d.pipelineName), ("stageName", Text.lowercase d.stageName)]

/-- The text that identifies a material: its kind and its attributes that are not empty
(`fingerprint_of`). -/
def identity (m : Material) : String :=
  let attributes := (m.attributes.filter fun (_, value) => !value.isEmpty).map
    fun (key, value) => key ++ "=" ++ value
  "<|>".intercalate (("type=" ++ m.kind.label) :: attributes)

/-- The digest of the identity (`MaterialConfig::fingerprint`). -/
def fingerprint (m : Material) : String :=
  Digest.sha256 m.identity

/-- A name to show, with the password of a URL masked (`MaterialConfig::display_name`). -/
def displayName : Material → String
  | .git source _ =>
    match source.branch with
    | some branch => source.url.forDisplay ++ " (" ++ branch ++ ")"
    | none => source.url.forDisplay
  | .hg source _ => source.url.forDisplay
  | .svn source _ => source.url.forDisplay
  | .p4 source _ => source.server ++ ":" ++ Text.trim source.view
  | .dependency d => d.pipelineName ++ " [" ++ d.stageName ++ "]"

/-- A git material on the repository with the URL (`matches_repository_url`). -/
def isOnRepository (m : Material) (url : String) : Bool :=
  match m with
  | .git source _ => source.url.isSameRepository url
  | _ => false

end Material

end BuildServer
