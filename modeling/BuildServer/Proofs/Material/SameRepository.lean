import BuildServer.Proofs.Material.Credentials
import BuildServer.Proofs.Pipeline.Catalog
import BuildServer.Proofs.Text.Spacing
import Mathlib.Data.Set.CoeSort
/-!
# URLs that name the same repository

Of the two texts that are compared only the one that comes from outside is trimmed, so the comparison is
not the equality of two forms of one kind. What it is rests on one fact: to drop credentials neither brings
a blank to an end of the text nor takes one away, since a scheme begins with a letter and an at sign is not
blank. A URL that is found by anything is therefore without blanks around it, and one with blanks around it
is found by nothing, not even by itself. Among URLs without such blanks the comparison is an equivalence,
and among any others it is not.
-/

set_option autoImplicit false

namespace BuildServer

/-! ## Blanks at the ends of a URL -/

namespace RepositoryUrl

variable {cs : List Char} {u v w : RepositoryUrl} {notified : String}

/-- Behind a scheme only the other end counts. -/
theorem trimmed_scheme_append {scheme : List Char} (named : IsScheme scheme) (tail : List Char) :
    Text.Trimmed (scheme ++ tail) ↔ ∀ c ∈ tail.getLast?, Text.isBlank c = false := by
  obtain ⟨name, hname, rfl⟩ := named
  have ends : (name ++ [':', '/', '/']).getLast? = some '/' := List.getLast?_append
  cases name with
  | nil => exact hname.elim
  | cons first name =>
    have letter : Text.isBlank first = false := Text.isBlank_of_isAlpha hname.1
    rw [Text.Trimmed, Text.solid_end_append ends (by decide)]
    simp [letter]

/-- To drop the credentials neither brings a blank to an end of the text nor takes one away. -/
theorem trimmed_dropCredentials : Text.Trimmed (dropCredentials cs) ↔ Text.Trimmed cs := by
  rcases found : credentials? cs with _ | c
  · rw [dropCredentials_plain found]
  · obtain ⟨separate, _, htext⟩ := credentials?_eq_some_iff.mp found
    have ends : (userInfo c.user c.password ++ ['@']).getLast? = some '@' := List.getLast?_concat
    have cut : cs = c.scheme ++ ((userInfo c.user c.password ++ ['@']) ++ c.rest) := by
      rw [htext, Credentials.text]
      simp
    rw [dropCredentials_eq found, cut, trimmed_scheme_append separate.scheme,
      trimmed_scheme_append separate.scheme, Text.solid_end_append ends (by decide)]

/-- A text that is not blank is not so without its credentials either, since the scheme is kept. -/
theorem allBlank_dropCredentials : Text.AllBlank (dropCredentials cs) ↔ Text.AllBlank cs := by
  rcases found : credentials? cs with _ | c
  · rw [dropCredentials_plain found]
  · obtain ⟨separate, _, htext⟩ := credentials?_eq_some_iff.mp found
    obtain ⟨name, _, hscheme⟩ := separate.scheme
    have solid : ¬ Text.AllBlank c.scheme := by
      intro blank
      have slash : Text.isBlank '/' = true := blank '/' (by simp [hscheme])
      exact absurd slash (by decide)
    rw [dropCredentials_eq found, htext, Credentials.text, List.append_assoc, Text.allBlank_append,
      Text.allBlank_append]
    exact iff_of_false (fun blank => solid blank.1) (fun blank => solid blank.1)

/-- The URL has no blanks around it. -/
def Unpadded (url : RepositoryUrl) : Prop := Text.Trimmed url.configured.toList

instance (url : RepositoryUrl) : Decidable url.Unpadded :=
  inferInstanceAs (Decidable (Text.Trimmed _))

theorem Unpadded.trim_eq (h : u.Unpadded) : Text.trim u.configured = u.configured := by
  rw [Text.trim, Text.trimChars_eq_self_iff.mpr h, String.ofList_toList]

theorem unpadded_trim (s : String) : Unpadded ⟨Text.trim s⟩ := by
  rw [Unpadded, Text.trim, String.toList_ofList]
  exact Text.trimChars_trimmed s.toList

theorem dropCredentials_eq_of_withoutCredentials_eq (h : u.withoutCredentials = v.withoutCredentials) :
    dropCredentials u.configured.toList = dropCredentials v.configured.toList :=
  String.ofList_injective h

theorem unpadded_iff_of_withoutCredentials_eq (h : u.withoutCredentials = v.withoutCredentials) :
    u.Unpadded ↔ v.Unpadded := by
  rw [Unpadded, Unpadded, ← trimmed_dropCredentials, dropCredentials_eq_of_withoutCredentials_eq h,
    trimmed_dropCredentials]

theorem isAllBlank_eq_of_withoutCredentials_eq (h : u.withoutCredentials = v.withoutCredentials) :
    Text.isAllBlank u.configured = Text.isAllBlank v.configured := by
  rw [Bool.eq_iff_iff, Text.isAllBlank_iff, Text.isAllBlank_iff, ← allBlank_dropCredentials,
    dropCredentials_eq_of_withoutCredentials_eq h, allBlank_dropCredentials]

/-! ## The comparison -/

theorem isSameRepository_iff :
    u.isSameRepository notified = true ↔ Text.isAllBlank notified = false ∧
      u.withoutCredentials = withoutCredentials ⟨Text.trim notified⟩ := by
  rw [isSameRepository]
  simp only [Bool.and_eq_true, Bool.not_eq_true', beq_iff_eq, Text.isEmpty_trim]

/-- Only a URL without blanks around it is ever found. -/
theorem unpadded_of_isSameRepository (h : u.isSameRepository notified = true) : u.Unpadded :=
  (unpadded_iff_of_withoutCredentials_eq (isSameRepository_iff.mp h).2).mpr (unpadded_trim notified)

/-- A notification of the second URL finds the first. -/
def FoundBy (u v : RepositoryUrl) : Prop := u.isSameRepository v.configured = true

instance (u v : RepositoryUrl) : Decidable (u.FoundBy v) :=
  inferInstanceAs (Decidable (_ = true))

/-- A URL without blanks around it finds those that are the same without credentials. -/
theorem foundBy_iff (unpadded : v.Unpadded) :
    u.FoundBy v ↔
      Text.isAllBlank v.configured = false ∧ u.withoutCredentials = v.withoutCredentials := by
  rw [FoundBy, isSameRepository_iff, unpadded.trim_eq]

/-- A URL that is not blank is found by itself exactly if there are no blanks around it. -/
theorem foundBy_self_iff (named : Text.isAllBlank u.configured = false) :
    u.FoundBy u ↔ u.Unpadded := by
  constructor
  · exact unpadded_of_isSameRepository
  · intro unpadded
    exact (foundBy_iff unpadded).mpr ⟨named, rfl⟩

/-- The comparison can be turned round exactly if the second URL has no blanks around it. -/
theorem FoundBy.symm_iff (h : u.FoundBy v) : v.FoundBy u ↔ v.Unpadded := by
  constructor
  · exact unpadded_of_isSameRepository
  · intro unpadded
    obtain ⟨named, same⟩ := (foundBy_iff unpadded).mp h
    refine (foundBy_iff (unpadded_of_isSameRepository h)).mpr ⟨?_, same.symm⟩
    rw [isAllBlank_eq_of_withoutCredentials_eq same, named]

theorem FoundBy.trans (first : u.FoundBy v) (second : v.FoundBy w) : u.FoundBy w := by
  -- what is found in the second place has no blanks around it, so in the first it was not trimmed
  have unpadded : v.Unpadded := unpadded_of_isSameRepository second
  obtain ⟨_, same⟩ := (foundBy_iff unpadded).mp first
  obtain ⟨named, same'⟩ := isSameRepository_iff.mp second
  exact isSameRepository_iff.mpr ⟨named, same.trans same'⟩

/-- Among URLs that are not blank, the comparison is an equivalence exactly if none of them has blanks
around it. -/
theorem equivalence_foundBy_iff {urls : Set RepositoryUrl}
    (named : ∀ url ∈ urls, Text.isAllBlank url.configured = false) :
    Equivalence (fun u v : urls => u.1.FoundBy v.1) ↔ ∀ url ∈ urls, url.Unpadded := by
  constructor
  · intro equivalence url hurl
    exact (foundBy_self_iff (named url hurl)).mp (equivalence.refl ⟨url, hurl⟩)
  · intro unpadded
    refine ⟨?_, ?_, ?_⟩
    · intro u
      exact (foundBy_self_iff (named u.1 u.2)).mpr (unpadded u.1 u.2)
    · intro u v found
      exact found.symm_iff.mpr (unpadded v.1 v.2)
    · intro u v w
      exact FoundBy.trans

end RepositoryUrl

/-! ## Pipelines on a repository -/

namespace Catalog

open RepositoryUrl

theorem isOnRepository_git (source : GitSource) (options : CheckoutOptions) (notified : String) :
    (Material.git source options).isOnRepository notified = source.url.isSameRepository notified := rfl

theorem mem_onRepository {c : Catalog} {notified name : String} :
    name ∈ c.onRepository notified ↔
      ∃ p ∈ c.pipelines, (∃ m ∈ p.materials, m.isOnRepository notified = true) ∧ p.name = name := by
  simp only [onRepository, List.mem_mergeSort, List.mem_map, List.mem_filter, List.any_eq_true]
  simp only [and_assoc]

/-- Among URLs that are not blank the comparison is transitive, and it is reflexive and symmetric as well
exactly if none of them has blanks around it. So a notification of the very URL with which a git material
is configured finds the pipelines that have the material, unless there are blanks around the URL. Then the
material is found by no notification at all. -/
theorem notified_url_finds_unpadded_materials (urls : Set RepositoryUrl)
    (named : ∀ url ∈ urls, Text.isAllBlank url.configured = false) :
    (Equivalence (fun u v : urls => u.1.FoundBy v.1) ↔ ∀ url ∈ urls, url.Unpadded) ∧
      (∀ u v w : RepositoryUrl, u.FoundBy v → v.FoundBy w → u.FoundBy w) ∧
      (∀ u v : RepositoryUrl, u.FoundBy v → (v.FoundBy u ↔ v.Unpadded)) ∧
      ∀ (source : GitSource) (options : CheckoutOptions), source.url ∈ urls →
        let m : Material := .git source options
        (m.isOnRepository source.url.configured = true ↔ source.url.Unpadded) ∧
        (source.url.Unpadded → ∀ c : Catalog, ∀ p ∈ c.pipelines, m ∈ p.materials →
          p.name ∈ c.onRepository source.url.configured) ∧
        (¬ source.url.Unpadded → ∀ notified, m.isOnRepository notified = false) := by
  refine ⟨equivalence_foundBy_iff named, fun _ _ _ => FoundBy.trans, fun _ _ found => found.symm_iff, ?_⟩
  intro source options member m
  have itself : m.isOnRepository source.url.configured = true ↔ source.url.Unpadded := by
    rw [isOnRepository_git]
    exact foundBy_self_iff (named source.url member)
  refine ⟨itself, ?_, ?_⟩
  · intro unpadded c p hp hm
    exact mem_onRepository.mpr ⟨p, hp, ⟨m, hm, itself.mpr unpadded⟩, rfl⟩
  · intro padded notified
    rw [isOnRepository_git, Bool.eq_false_iff]
    intro found
    exact padded (unpadded_of_isSameRepository found)

/-- A pipeline on a repository with credentials, notified of exactly its URL. -/
theorem notified_url_finds_studios :
    let url : RepositoryUrl := ⟨"https://alice:p@ss@host/repo.git"⟩
    let p : PipelineConfig := { name := "studios", materials := [.git { url := url } {}] }
    let c := Catalog.empty.afterSaves [p]
    url.Unpadded ∧ p ∈ c.pipelines ∧ p.name ∈ c.onRepository url.configured := by
  intro url p c
  have unpadded : url.Unpadded := by decide +kernel
  have named : ∀ other ∈ ({url} : Set RepositoryUrl), Text.isAllBlank other.configured = false := by
    rintro _ rfl
    decide +kernel
  have only : c.pipelines = [p] := by decide +kernel
  have stored : p ∈ c.pipelines := by simp [only]
  obtain ⟨_, _, _, materials⟩ := notified_url_finds_unpadded_materials {url} named
  obtain ⟨_, finds, _⟩ := materials { url := url } {} rfl
  exact ⟨unpadded, stored, finds unpadded c p stored List.mem_cons_self⟩

/-- A URL with a blank in front is not found by itself, and a pipeline that is configured with it is not
found by a notification of it. It does find the URL without the blank, which does not find it. -/
theorem padded_url_misses_studios :
    let padded : RepositoryUrl := ⟨" http://host/repo.git"⟩
    let bare : RepositoryUrl := ⟨"http://host/repo.git"⟩
    let p : PipelineConfig := { name := "studios", materials := [.git { url := padded } {}] }
    let c := Catalog.empty.afterSaves [p]
    Text.isAllBlank padded.configured = false ∧ ¬ padded.FoundBy padded ∧
      (bare.FoundBy padded ∧ ¬ padded.FoundBy bare) ∧
      p ∈ c.pipelines ∧ p.name ∉ c.onRepository padded.configured := by
  intro padded bare p c
  have only : c.pipelines = [p] := by decide +kernel
  have unmatched : (Material.git { url := padded } {}).isOnRepository padded.configured = false := by
    decide +kernel
  have missed : p.name ∉ c.onRepository padded.configured := by
    rw [mem_onRepository, only]
    simp [p, unmatched]
  exact ⟨by decide +kernel, by decide +kernel, by decide +kernel, by simp [only], missed⟩

end Catalog

end BuildServer
