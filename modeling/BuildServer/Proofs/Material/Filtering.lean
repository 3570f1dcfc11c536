import BuildServer.Material.Revision
import BuildServer.Regex.Search
/-!
# What a filter rules out

Whether a change is looked at is asked in two places: of a single file, and of a revision with all the
files it touches. The second looks first whether the material has a filter at all, and the first does not.
Where the filter is not inverted this makes no difference, since a filter without patterns covers no file.
Inverted it rules out every file that it does not cover, and then the two part.

For the same reason further patterns act in two directions. A filter that has more of them covers more
files, so it rules out more of them, or fewer if it is inverted. An inverted filter that had none is left
out: a revision was looked at whatever it touched, and with the first pattern it may come to be ignored.
-/

set_option autoImplicit false

namespace BuildServer

variable {m : Material} {f : String} {r : Revision}

/-! ## Single files -/

theorem Filter.covers_of_isEmpty [RegexLibrary] {filter : Filter} (h : filter.isEmpty = true)
    (f : String) : filter.covers f = false := by
  rw [Filter.isEmpty, List.isEmpty_iff] at h
  rw [Filter.covers, h, List.any_nil]

/-- Without patterns the filter covers nothing, and inverting it is all that counts. -/
theorem Material.ignoresFile_of_isEmpty [RegexLibrary] (h : m.filter.isEmpty = true) (f : String) :
    m.ignoresFile f = m.isFilterInverted := by
  rw [Material.ignoresFile, Filter.covers_of_isEmpty h, Bool.false_bne]

/-! ## More patterns -/

theorem Filter.covers_of_subset [RegexLibrary] {filter filter' : Filter}
    (more : filter.patterns ⊆ filter'.patterns) (h : filter.covers f = true) : filter'.covers f = true := by
  rw [Filter.covers, List.any_eq_true] at h ⊢
  obtain ⟨pattern, hpattern, covers⟩ := h
  exact ⟨pattern, more hpattern, covers⟩

theorem Filter.isEmpty_of_subset {filter filter' : Filter} (more : filter.patterns ⊆ filter'.patterns)
    (h : filter.isEmpty = false) : filter'.isEmpty = false := by
  rw [Filter.isEmpty, List.isEmpty_eq_false_iff] at h ⊢
  exact fun none => h (List.eq_nil_of_subset_nil (none ▸ more))

namespace Material

/-- The second material is the first one with further patterns in its filter. -/
def AddsPatterns (m m' : Material) : Prop :=
  ∃ filter : Filter, m.filter.patterns ⊆ filter.patterns ∧ m' = m.withFilter filter

theorem fingerprint_withFilter (m : Material) (filter : Filter) :
    (m.withFilter filter).fingerprint = m.fingerprint := by
  have kind : (m.withFilter filter).kind = m.kind := by cases m <;> rfl
  have attributes : (m.withFilter filter).attributes = m.attributes := by cases m <;> rfl
  rw [fingerprint, fingerprint, identity, identity, kind, attributes]

namespace AddsPatterns

variable {m' : Material} (h : m.AddsPatterns m')

include h

theorem fingerprint_eq : m.fingerprint = m'.fingerprint := by
  obtain ⟨filter, -, rfl⟩ := h
  exact (fingerprint_withFilter m filter).symm

theorem isFilterInverted_eq : m'.isFilterInverted = m.isFilterInverted := by
  obtain ⟨filter, -, rfl⟩ := h
  cases m <;> rfl

/-- A dependency has no filter to which patterns could be added. -/
theorem patterns_subset : m.filter.patterns ⊆ m'.filter.patterns := by
  obtain ⟨filter, more, rfl⟩ := h
  cases m with
  | dependency => exact List.Subset.refl _
  | _ => exact more

/-- With more patterns a filter rules out more files. -/
theorem ignoresFile [RegexLibrary] (plain : m.isFilterInverted = false)
    (ignored : m.ignoresFile f = true) : m'.ignoresFile f = true := by
  rw [Material.ignoresFile, plain, Bool.bne_false] at ignored
  rw [Material.ignoresFile, h.isFilterInverted_eq, plain, Bool.bne_false]
  exact Filter.covers_of_subset h.patterns_subset ignored

/-- An inverted filter with more patterns looks at more files. -/
theorem ignoresFile_of_inverted [RegexLibrary] (inverted : m.isFilterInverted = true)
    (ignored : m'.ignoresFile f = true) : m.ignoresFile f = true := by
  rw [Material.ignoresFile, h.isFilterInverted_eq, inverted, Bool.bne_true, Bool.not_eq_true'] at ignored
  rw [Material.ignoresFile, inverted, Bool.bne_true, Bool.not_eq_true', Bool.eq_false_iff]
  intro covers
  rw [Filter.covers_of_subset h.patterns_subset covers] at ignored
  cases ignored

end AddsPatterns

end Material

/-! ## Revisions -/

namespace Revision

/-- The revision touches the file, once or several times, and no other. -/
structure TouchesOnly (r : Revision) (f : String) : Prop where
  some_file : r.files ≠ []
  no_other : ∀ file ∈ r.files, file.fileName = f

theorem isIgnoredBy_of_isEmpty [RegexLibrary] (h : m.filter.isEmpty = true) (r : Revision) :
    r.isIgnoredBy m = false := by
  rw [isIgnoredBy, h, Bool.not_true, Bool.false_and]

/-- A revision is ignored by a material with a filter if each of its files is ruled out. -/
theorem isIgnoredBy_iff [RegexLibrary] : r.isIgnoredBy m = true ↔
    m.filter.isEmpty = false ∧ ∀ file ∈ r.files, m.ignoresFile file.fileName = true := by
  rw [isIgnoredBy, Bool.and_eq_true, Bool.not_eq_true', List.all_eq_true]

/-- With more patterns a filter ignores more revisions. -/
theorem isIgnoredBy_of_addsPatterns [RegexLibrary] {m' : Material}
    (h : m.AddsPatterns m') (plain : m.isFilterInverted = false) (ignored : r.isIgnoredBy m = true) :
    r.isIgnoredBy m' = true := by
  obtain ⟨some, files⟩ := isIgnoredBy_iff.mp ignored
  exact isIgnoredBy_iff.mpr ⟨Filter.isEmpty_of_subset h.patterns_subset some,
    fun file hfile => h.ignoresFile plain (files file hfile)⟩

/-- An inverted filter ignores fewer revisions with more patterns, unless it had none. -/
theorem isIgnoredBy_of_addsPatterns_inverted [RegexLibrary] {m' : Material}
    (h : m.AddsPatterns m') (inverted : m.isFilterInverted = true) (some : m.filter.isEmpty = false)
    (ignored : r.isIgnoredBy m' = true) : r.isIgnoredBy m = true :=
  isIgnoredBy_iff.mpr ⟨some, fun file hfile =>
    h.ignoresFile_of_inverted inverted ((isIgnoredBy_iff.mp ignored).2 file hfile)⟩

/-- With a filter the file decides about the revision that touches nothing else. -/
theorem TouchesOnly.isIgnoredBy_eq [RegexLibrary] (only : r.TouchesOnly f)
    (h : m.filter.isEmpty = false) :
    r.isIgnoredBy m = m.ignoresFile f := by
  have all : (r.files.all fun file => m.ignoresFile file.fileName) = m.ignoresFile f := by
    rw [Bool.eq_iff_iff, List.all_eq_true]
    constructor
    · intro ignored
      obtain ⟨file, hfile⟩ := List.exists_mem_of_ne_nil r.files only.some_file
      rw [← only.no_other file hfile]
      exact ignored file hfile
    · intro ignored file hfile
      rw [only.no_other file hfile]
      exact ignored
  rw [isIgnoredBy, h, Bool.not_false, Bool.true_and, all]

/-- A file is ruled out alone exactly if a revision of that file alone is, unless the material has an
inverted filter without patterns. Such a filter rules out the file, and not the revision, as it is with
every filter without patterns. -/
theorem single_file_verdicts_agree_iff [RegexLibrary] (m : Material) (f : String) (r : Revision)
    (only : r.TouchesOnly f) :
    (r.isIgnoredBy m = m.ignoresFile f ↔
        ¬ (m.filter.isEmpty = true ∧ m.isFilterInverted = true)) ∧
      (m.filter.isEmpty = true → r.isIgnoredBy m = false ∧ m.ignoresFile f = m.isFilterInverted) := by
  by_cases empty : m.filter.isEmpty = true
  · have revision : r.isIgnoredBy m = false := isIgnoredBy_of_isEmpty empty r
    have file : m.ignoresFile f = m.isFilterInverted := Material.ignoresFile_of_isEmpty empty f
    refine ⟨?_, fun _ => ⟨revision, file⟩⟩
    rw [revision, file]
    simp [empty]
  · refine ⟨iff_of_true ?_ (fun both => empty both.1), fun h => absurd h empty⟩
    exact only.isIgnoredBy_eq (Bool.eq_false_iff.mpr empty)

/-- Two modifications of one file that the patterns do not cover, seen by a material that looks at nothing
else than what they cover. -/
theorem source_file_ruled_out_by_allow_list :
    let m : Material := .git { url := ⟨"url"⟩ } { filter := .ofTexts ["docs/**"], invertFilter := true }
    let change (revision : String) : Modification :=
      { userName := none, comment := none, emailAddress := none, modifiedTime := ⟨0, 0⟩, revision,
        modifiedFiles := [⟨"src/main.rs", none, .modified⟩] }
    let r := Revision.ofMaterial m [change "r1", change "r2"]
    r.TouchesOnly "src/main.rs" ∧ r.isIgnoredBy m = m.ignoresFile "src/main.rs" := by
  intro m change r
  have only : r.TouchesOnly "src/main.rs" := by
    refine ⟨List.cons_ne_nil _ _, ?_⟩
    intro file hfile
    rcases List.mem_cons.mp hfile with rfl | hfile
    · rfl
    · rw [List.mem_singleton.mp hfile]
  refine ⟨only, (single_file_verdicts_agree_iff m "src/main.rs" r only).1.mpr ?_⟩
  exact fun both => absurd both.1 (by decide)

/-- An inverted filter without patterns rules out a file and not the revision of that file. -/
theorem empty_allow_list_verdicts_differ :
    let m : Material := .git { url := ⟨"url"⟩ } { invertFilter := true }
    let r := Revision.ofMaterial m
      [{ userName := none, comment := none, emailAddress := none, modifiedTime := ⟨0, 0⟩,
         revision := "r1", modifiedFiles := [⟨"src/main.rs", none, .modified⟩] }]
    r.TouchesOnly "src/main.rs" ∧ m.ignoresFile "src/main.rs" = true ∧ r.isIgnoredBy m = false := by
  intro m r
  refine ⟨⟨List.cons_ne_nil _ _, ?_⟩, rfl, rfl⟩
  intro file hfile
  rw [List.mem_singleton.mp hfile]

end Revision

end BuildServer
