import BuildServer.Proofs.Material.Display
import BuildServer.Proofs.Material.Identity
import BuildServer.Proofs.Text.Spacing
import Mathlib.Logic.Relation
/-!
# Materials that are written differently

The same connection can be written in many ways: with credentials in the URL or without, with a default
left out or spelled out, with names in other letters, with more blanks than are needed. Where it is
checked out, and which files are looked at, is no part of it at all. Each way of writing a material
differently is one case of `Restated`, and each kind of material brings its own reason why the connection
stays: the login is dropped from the URL, a view counts by its words, names count by their small letters.
The fingerprint is then settled by the connection alone, however many changes are made, and in whichever
direction.
-/

set_option autoImplicit false

namespace BuildServer

namespace RepositoryUrl

variable {scheme login rest : String}

/-- A login makes no difference to the URL without credentials. -/
theorem withoutCredentials_login (named : IsSchemeName scheme.toList) (slashless : '/' ∉ login.toList)
    (noSign : NoAtSign rest.toList) (noFeed : '\n' ∉ rest.toList) :
    withoutCredentials ⟨scheme ++ "://" ++ login ++ "@" ++ rest⟩
      = withoutCredentials ⟨scheme ++ "://" ++ rest⟩ := by
  have hscheme : IsScheme (scheme.toList ++ [':', '/', '/']) := ⟨scheme.toList, named, rfl⟩
  have given : (scheme ++ "://" ++ login ++ "@" ++ rest).toList
      = (scheme.toList ++ [':', '/', '/']) ++ (login.toList ++ '@' :: rest.toList) := by simp
  have bare : (scheme ++ "://" ++ rest).toList = (scheme.toList ++ [':', '/', '/']) ++ rest.toList := by
    simp
  rw [withoutCredentials, withoutCredentials, given, bare,
    dropCredentials_eq (credentials?_login hscheme slashless noSign noFeed),
    dropCredentials_plain (credentials?_eq_none hscheme noSign)]

end RepositoryUrl

namespace Material

/-! ## The ways of writing a material -/

/-- The two materials are one connection, written in two ways. -/
inductive Restated : Material → Material → Prop
  /-- The directory of the checkout, the filter, and whether the filter is inverted. -/
  | checkout (m : Material) (change : CheckoutOptions → CheckoutOptions) : Restated m (m.mapOptions change)
  | shallowClone (source : GitSource) (options : CheckoutOptions) (shallow : Bool) :
      Restated (.git source options) (.git { source with shallowClone := shallow } options)
  /-- A login in the URL, whatever user and password it gives. -/
  | login (m : Material) {scheme login rest : String} (named : RepositoryUrl.IsSchemeName scheme.toList)
      (slashless : '/' ∉ login.toList) (noSign : RepositoryUrl.NoAtSign rest.toList)
      (noFeed : '\n' ∉ rest.toList) :
      Restated (m.atUrl ⟨scheme ++ "://" ++ rest⟩)
        (m.atUrl ⟨scheme ++ "://" ++ login ++ "@" ++ rest⟩)
  /-- Other blanks between the words of a view and around it. -/
  | view (source : P4Source) (options : CheckoutOptions) {view : String}
      (respaced : Text.Respaced source.view view) :
      Restated (.p4 source options) (.p4 { source with view := view } options)
  | server (source : P4Source) (options : CheckoutOptions) {before after : String}
      (blankBefore : Text.AllBlank before.toList) (blankAfter : Text.AllBlank after.toList) :
      Restated (.p4 source options)
        (.p4 { source with server := before ++ source.server ++ after } options)
  /-- ASCII letters of the names in the other case. -/
  | names {d d' : Dependency} (pipeline : Text.sameName d.pipelineName d'.pipelineName = true)
      (stage : Text.sameName d.stageName d'.stageName = true) :
      Restated (.dependency d) (.dependency d')
  | gitBranch {source : GitSource} (options : CheckoutOptions) (absent : source.branch = none) :
      Restated (.git source options) (.git { source with branch := some "master" } options)
  | hgBranch {source : HgSource} (options : CheckoutOptions) (absent : source.branch = none) :
      Restated (.hg source options) (.hg { source with branch := some "" } options)
  | svnUsername {source : SvnSource} (options : CheckoutOptions) (absent : source.username = none) :
      Restated (.svn source options) (.svn { source with username := some "" } options)
  | p4Username {source : P4Source} (options : CheckoutOptions) (absent : source.username = none) :
      Restated (.p4 source options) (.p4 { source with username := some "" } options)

variable {m m' : Material} {u v : RepositoryUrl}

theorem connection_mapOptions (m : Material) (change : CheckoutOptions → CheckoutOptions) :
    (m.mapOptions change).connection = m.connection := by
  cases m <;> rfl

theorem connection_atUrl (same : u.withoutCredentials = v.withoutCredentials) (m : Material) :
    (m.atUrl u).connection = (m.atUrl v).connection := by
  cases m <;> simp [atUrl, connection, same]

/-- Either way the material is connected to the same. -/
theorem Restated.connection_eq (h : Restated m m') : m.connection = m'.connection := by
  cases h with
  | checkout _ change => exact (connection_mapOptions m change).symm
  | shallowClone => rfl
  | login m named slashless noSign noFeed =>
    exact connection_atUrl (RepositoryUrl.withoutCredentials_login named slashless noSign noFeed).symm m
  | view source options respaced => rw [connection, connection, respaced.singleSpaced_eq]
  | server source options blankBefore blankAfter =>
    rw [connection, connection, Text.trim_padded blankBefore blankAfter]
  | names pipeline stage =>
    rw [connection, connection, Text.lowercase_eq_of_sameName pipeline,
      Text.lowercase_eq_of_sameName stage]
  | gitBranch options absent | hgBranch options absent | svnUsername options absent
  | p4Username options absent => simp [connection, absent]

/-- Any number of changes, each of them made or taken back. -/
theorem connection_eq_of_eqvGen (h : Relation.EqvGen Restated m m') :
    m.connection = m'.connection := by
  induction h with
  | rel _ _ step => exact step.connection_eq
  | refl => rfl
  | symm _ _ _ ih => exact ih.symm
  | trans _ _ _ _ _ first second => exact first.trans second

/-! ## The fingerprint -/

theorem fingerprint_eq_of_connection_eq (h : m.connection = m'.connection) :
    m.fingerprint = m'.fingerprint := by
  have sameKind := kind_eq_of_connection_eq h
  rw [fingerprint, fingerprint, identity, identity, sameKind, (attributes_eq_iff sameKind).mpr h]

/-- The fingerprint follows the connection and nothing else, so it stays as it is when the material is
written differently. -/
theorem restated_material_keeps_fingerprint (m m' : Material) :
    (m.connection = m'.connection → m.fingerprint = m'.fingerprint) ∧
      (Relation.EqvGen Restated m m' →
        m.connection = m'.connection ∧ m.fingerprint = m'.fingerprint) := by
  refine ⟨fingerprint_eq_of_connection_eq, ?_⟩
  intro restated
  have same := connection_eq_of_eqvGen restated
  exact ⟨same, fingerprint_eq_of_connection_eq same⟩

/-- A repository with its branch spelled out, and the same one with a login that holds an at sign, in a
directory of its own. -/
theorem branch_and_login_restated :
    let branched : Material :=
      .git { url := ⟨"https" ++ "://" ++ "host/repo.git"⟩, branch := some "master" } {}
    let loggedIn : Material :=
      .git { url := ⟨"https" ++ "://" ++ "alice:p@ss" ++ "@" ++ "host/repo.git"⟩ } { folder := some "one" }
    Relation.EqvGen Restated branched loggedIn ∧ branched.fingerprint = loggedIn.fingerprint := by
  intro branched loggedIn
  let plain : Material := .git { url := ⟨"https" ++ "://" ++ "host/repo.git"⟩ } {}
  let withLogin := plain.atUrl ⟨"https" ++ "://" ++ "alice:p@ss" ++ "@" ++ "host/repo.git"⟩
  have spelledOut : Restated plain branched := .gitBranch {} rfl
  have login : Restated plain withLogin :=
    .login plain ⟨by decide, List.all_eq_true.mp (by decide)⟩ (by decide) (by decide) (by decide)
  have elsewhere : Restated withLogin loggedIn :=
    .checkout withLogin fun options => { options with folder := some "one" }
  have restated : Relation.EqvGen Restated branched loggedIn :=
    .trans _ _ _ (.symm _ _ (.rel _ _ spelledOut)) (.trans _ _ _ (.rel _ _ login) (.rel _ _ elsewhere))
  exact ⟨restated, ((restated_material_keeps_fingerprint branched loggedIn).2 restated).2⟩

end Material

end BuildServer
