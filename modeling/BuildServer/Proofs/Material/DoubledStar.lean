import BuildServer.Proofs.Material.Expression
import BuildServer.Proofs.Text.Spacing
/-!
# One star and two

Two patterns are the same but for one place, where the first has a star and the second has two. Around that
place they are read into the same tokens, since the star stands alone there. In that place the first has the
token for a text without slashes. The second has the one for directories if a slash comes behind, and the
one for a text without line feeds if none does.

Directories make up for the text and the slash behind it, whatever the text is. A text without line feeds
makes up for one without slashes only if that has no line feed either, although two stars are meant to
take more than one. So this is where the two patterns part.
-/

set_option autoImplicit false

namespace BuildServer.PathPattern

open PatternToken Text

variable {u v : String} {stars : List Char}

/-! ## Around the stars -/

/-- A text with slashes for backslashes. -/
def slashed (cs : List Char) : List Char := cs.map fun c => if c = '\\' then '/' else c

/-- The characters that count of what stands before a star, with which no pattern ends. -/
def before (u : String) : List Char := normalizePath (u.toList.dropWhile isBlank)

/-- The characters that count of what stands behind a star, with which no pattern begins. -/
def behind (v : String) : List Char := slashed (v.toList.reverse.dropWhile isBlank).reverse

/-- The text begins with a character that counts as a slash. -/
def BeginsWithSlash (v : String) : Prop := v.toList.head? = some '/' ∨ v.toList.head? = some '\\'

/-- Stars are neither blanks nor slashes, so that nothing is dropped beyond them. -/
theorem normalized_around (all : ∀ c ∈ stars, c = '*') (some : stars ≠ []) :
    (ofText (u ++ String.ofList stars ++ v)).normalized = before u ++ stars ++ behind v := by
  have trimmed : Trimmed stars := by
    constructor
    · intro c hc
      rw [all c (List.mem_of_mem_head? hc)]
      decide
    · intro c hc
      rw [all c (List.mem_of_mem_getLast? hc)]
      decide
  have same : slashed stars = stars := by
    refine (List.map_congr_left fun c hc => ?_).trans (List.map_id _)
    rw [all c hc]
    rfl
  have stop : ∀ c ∈ (stars ++ behind v).head?, (c == '/') = false := by
    intro c hc
    rw [List.head?_append_of_ne_nil _ some] at hc
    rw [all c (List.mem_of_mem_head? hc)]
    rfl
  rw [normalized, ofText, normalize, String.toList_append, String.toList_append, String.toList_ofList,
    trimChars_around trimmed some, normalizePath, List.map_append, List.map_append]
  change (slashed _ ++ slashed stars ++ behind v).dropWhile _ = _
  rw [same, List.append_assoc, dropWhile_append_of_stop stop, ← List.append_assoc]
  rfl

/-- No character but a star counts as one. -/
theorem eq_star_of_slashed {c : Char} (h : (if c = '\\' then '/' else c) = '*') : c = '*' := by
  split at h
  · cases h
  · exact h

theorem getLast?_before_ne (ends : u.toList.getLast? ≠ some '*') :
    (before u).getLast? ≠ some '*' := by
  intro last
  have kept : before u <:+ slashed u.toList :=
    (List.dropWhile_suffix _).trans ((List.dropWhile_suffix _).map _)
  obtain ⟨dropped, whole⟩ := kept
  have last' : (slashed u.toList).getLast? = some '*' := by
    rw [← whole]
    exact List.mem_getLast?_append_of_mem_getLast? last
  rw [slashed, List.getLast?_map, Option.map_eq_some_iff] at last'
  obtain ⟨c, hc, star⟩ := last'
  exact ends (hc.trans (congrArg some (eq_star_of_slashed star)))

/-- What counts behind a star begins with what stands there first. -/
theorem head?_behind {c : Char} (h : (behind v).head? = some c) :
    ∃ d, v.toList.head? = some d ∧ (if d = '\\' then '/' else d) = c := by
  have kept : (v.toList.reverse.dropWhile isBlank).reverse <+: v.toList := by
    rw [← List.reverse_suffix, List.reverse_reverse]
    exact List.dropWhile_suffix _
  obtain ⟨dropped, whole⟩ := kept
  rw [behind, slashed, List.head?_map, Option.map_eq_some_iff] at h
  obtain ⟨d, hd, hc⟩ := h
  refine ⟨d, ?_, hc⟩
  rw [← whole, List.head?_append, hd, Option.some_or]

theorem head?_behind_ne (starts : v.toList.head? ≠ some '*') : (behind v).head? ≠ some '*' := by
  intro star
  obtain ⟨d, hd, hstar⟩ := head?_behind star
  exact starts (hd.trans (congrArg some (eq_star_of_slashed hstar)))

/-- A slash is no blank, so it still stands behind the star when blanks at the end have been dropped. -/
theorem head?_behind_eq_slash_iff : (behind v).head? = some '/' ↔ BeginsWithSlash v := by
  constructor
  · intro h
    obtain ⟨d, hd, slash⟩ := head?_behind h
    split at slash
    case isTrue backslash => exact .inr (backslash ▸ hd)
    case isFalse => exact .inl (slash ▸ hd)
  · have stays : ∀ c : Char, isBlank c = false → v.toList.head? = some c →
        (behind v).head? = some (if c = '\\' then '/' else c) := by
      intro c solid hc
      obtain ⟨rest, hv⟩ := List.head?_eq_some_iff.mp hc
      have stop : ∀ d ∈ [c].head?, isBlank d = false := by
        rintro d ⟨⟩
        exact solid
      rw [behind, hv, List.reverse_cons, dropWhile_append_of_stop stop, List.reverse_append]
      rfl
    rintro (h | h)
    · exact stays '/' (by decide) h
    · exact stays '\\' (by decide) h

/-! ## What the two patterns cover -/

/-- The text stands in the path in the place of the stars: what comes before it in the path is for the
tokens before the stars, and what comes behind it for those behind. -/
def StandsBetween (u v : String) (text path : List Char) : Prop :=
  ∃ front back, Fits (scan (before u)) front ∧ Fits (scan (behind v)) back ∧
    path = front ++ text ++ back

/-- No line feed comes about when a path is made normal. -/
theorem lineFeed_mem_of_normalizePath {path : List Char} (h : '\n' ∈ normalizePath path) :
    '\n' ∈ path := by
  obtain ⟨c, hc, feed⟩ := List.mem_map.mp ((List.dropWhile_sublist _).subset h)
  split at feed
  · cases feed
  · exact feed ▸ hc

section Doubled

variable (ends : u.toList.getLast? ≠ some '*')

include ends

theorem tokens_single (starts : v.toList.head? ≠ some '*') :
    (ofText (u ++ "*" ++ v)).tokens
      = scan (before u) ++ .segment :: scan (behind v) := by
  have text : (ofText (u ++ "*" ++ v)).normalized = before u ++ ['*'] ++ behind v :=
    normalized_around (by simp) (List.cons_ne_nil _ _)
  rw [tokens, text, List.append_assoc, scan_append (getLast?_before_ne ends), List.singleton_append,
    scan_segment (head?_behind_ne starts)]

theorem tokens_doubled :
    (ofText (u ++ "**" ++ v)).tokens
      = scan (before u) ++ scan ('*' :: '*' :: behind v) := by
  have text : (ofText (u ++ "**" ++ v)).normalized = before u ++ ['*', '*'] ++ behind v :=
    normalized_around (by simp) (List.cons_ne_nil _ _)
  rw [tokens, text, List.append_assoc, scan_append (getLast?_before_ne ends)]
  rfl

variable {path : List Char}

theorem fits_single_iff (starts : v.toList.head? ≠ some '*') :
    Fits (ofText (u ++ "*" ++ v)).tokens path ↔
      ∃ text, '/' ∉ text ∧ StandsBetween u v text path := by
  rw [tokens_single ends starts, fits_around]
  constructor
  · rintro ⟨front, text, back, first, slashless, fits, rfl⟩
    exact ⟨text, slashless, front, back, first, fits, rfl⟩
  · rintro ⟨text, slashless, front, back, first, fits, rfl⟩
    exact ⟨front, text, back, first, slashless, fits, rfl⟩

/-- Where no slash comes behind them, two stars stand for any text without a line feed. -/
theorem fits_doubled_iff (noSlash : ¬ BeginsWithSlash v) :
    Fits (ofText (u ++ "**" ++ v)).tokens path ↔
      ∃ text, '\n' ∉ text ∧ StandsBetween u v text path := by
  rw [tokens_doubled ends, scan_anything (fun h => noSlash (head?_behind_eq_slash_iff.mp h)),
    fits_around]
  constructor
  · rintro ⟨front, text, back, first, noFeed, fits, rfl⟩
    exact ⟨text, noFeed, front, back, first, fits, rfl⟩
  · rintro ⟨text, noFeed, front, back, first, fits, rfl⟩
    exact ⟨front, text, back, first, noFeed, fits, rfl⟩

/-- With a slash behind them, two stars stand for the text of one star and the slash. -/
theorem fits_doubled_of_slash (slash : BeginsWithSlash v) {text : List Char} (slashless : '/' ∉ text)
    (stands : StandsBetween u v text path) : Fits (ofText (u ++ "**" ++ v)).tokens path := by
  obtain ⟨rest, hbehind⟩ := List.head?_eq_some_iff.mp (head?_behind_eq_slash_iff.mpr slash)
  obtain ⟨front, back, first, fits, rfl⟩ := stands
  rw [hbehind] at fits
  obtain ⟨_, back, rfl, fits', rfl⟩ := fits_cons.mp fits
  rw [tokens_doubled ends, hbehind, scan, fits_around]
  refine ⟨front, text ++ ['/'], back, first, ⟨[text], ?_, ?_⟩, fits', ?_⟩
  · exact List.forall_mem_singleton.mpr slashless
  · exact (List.flatMap_singleton _ _).symm
  · rw [List.append_assoc, List.append_assoc, List.append_assoc]

end Doubled

/-- A path that is covered with one star is covered with two in its place exactly if a slash comes behind
the stars, or some text without a line feed stands in the path in their place. So two stars cover what one
star does among the paths without line feeds. -/
theorem doubled_star_covers_iff [RegexLibrary] (lawful : RegexLibrary.Lawful) (u v : String) (ends : u.toList.getLast? ≠ some '*')
    (starts : v.toList.head? ≠ some '*')
    (usable : (ofText (u ++ "**" ++ v)).isUsable = true) (path : String)
    (covered : (ofText (u ++ "*" ++ v)).covers path = true) :
    ((ofText (u ++ "**" ++ v)).covers path = true ↔
      BeginsWithSlash v ∨
        ∃ text, '\n' ∉ text ∧ StandsBetween u v text (normalizePath path.toList)) ∧
    ('\n' ∉ path.toList → (ofText (u ++ "**" ++ v)).covers path = true) := by
  have doubled : (ofText (u ++ "**" ++ v)).covers path = true ↔
      Fits (ofText (u ++ "**" ++ v)).tokens (normalizePath path.toList) := by
    rw [covers_iff_fits lawful, and_iff_right usable]
  rw [covers_iff_fits lawful, fits_single_iff ends starts] at covered
  obtain ⟨-, text, slashless, stands⟩ := covered
  have iff : (ofText (u ++ "**" ++ v)).covers path = true ↔ BeginsWithSlash v ∨
      ∃ text, '\n' ∉ text ∧ StandsBetween u v text (normalizePath path.toList) := by
    rw [doubled]
    by_cases slash : BeginsWithSlash v
    · exact iff_of_true (fits_doubled_of_slash ends slash slashless stands) (.inl slash)
    · rw [fits_doubled_iff ends slash, or_iff_right slash]
  refine ⟨iff, fun noFeed => iff.mpr (.inr ⟨text, ?_, stands⟩)⟩
  obtain ⟨front, back, -, -, whole⟩ := stands
  intro feed
  refine noFeed (lineFeed_mem_of_normalizePath (whole ▸ ?_))
  exact List.mem_append_left _ (List.mem_append_right _ feed)

/-- A line feed that the star does not take makes no difference: it is taken by the question mark. -/
theorem line_feed_before_stars_covered :
    let u := " docs?\\"
    let v := ".md "
    RegexLibrary.Lawful ∧ u.toList.getLast? ≠ some '*' ∧ v.toList.head? ≠ some '*' ∧
      (ofText (u ++ "**" ++ v)).isUsable = true ∧
      (ofText (u ++ "*" ++ v)).covers "docs\n/v1.md" = true ∧
      (ofText (u ++ "**" ++ v)).covers "docs\n/v1.md" = true := by
  intro u v
  have ends : u.toList.getLast? ≠ some '*' := by decide
  have starts : v.toList.head? ≠ some '*' := by decide
  have usable : (ofText (u ++ "**" ++ v)).isUsable = true := by decide +kernel
  have covered : (ofText (u ++ "*" ++ v)).covers "docs\n/v1.md" = true := by decide +kernel
  have front : Fits (scan (before u)) "docs\n/".toList := fits_of_search (by decide +kernel)
  have back : Fits (scan (behind v)) ".md".toList := fits_of_search (by decide +kernel)
  have stands : StandsBetween u v "v1".toList (normalizePath "docs\n/v1.md".toList) :=
    ⟨_, _, front, back, by decide⟩
  refine ⟨lawful_searchLibrary, ends, starts, usable, covered, ?_⟩
  exact (doubled_star_covers_iff lawful_searchLibrary u v ends starts usable _ covered).1.mpr
    (.inr ⟨"v1".toList, by decide, stands⟩)

/-- One star takes a name with a line feed, and two in its place do not. -/
theorem line_feed_covered_by_one_star_only :
    let u := "docs/"
    let v := ".md"
    u.toList.getLast? ≠ some '*' ∧ v.toList.head? ≠ some '*' ∧
      (ofText (u ++ "*" ++ v)).isUsable = true ∧
      (ofText (u ++ "**" ++ v)).isUsable = true ∧
      (ofText (u ++ "*" ++ v)).covers "docs/a\nb.md" = true ∧
      (ofText (u ++ "**" ++ v)).covers "docs/a\nb.md" = false := by
  decide +kernel

end BuildServer.PathPattern
