import BuildServer.Proofs.Material.Expression
import BuildServer.Proofs.Text.Pieces
/-!
# Patterns by segments

A pattern is read character by character and never cut at its slashes. Where two stars stand for nothing
but whole segments it acts as if pattern and path were both cut: the segments of the path are used up in
order by those of the pattern, one name for an ordinary segment and any number for two stars.

The reason is that only the tokens of two stars take slashes. The other tokens of a segment take a name
without one, so the slash that stands for itself at the end of a segment is found where the name ends. Two
stars with the slash behind them take segments with the slashes behind them, zero or more, and leave a
path with at least one segment. At the end of the pattern there is no slash to be found, and they take what
is left, which has at least one segment even if it is empty.
-/

set_option autoImplicit false

namespace BuildServer.PathPattern

open PatternToken

/-- The segment that stands for any number of segments. -/
def stars : List Char := ['*', '*']

/-- A name is matched by an ordinary segment, character by character. -/
inductive Spells : List Char → List Char → Prop
  | nil : Spells [] []
  /-- A star stands for any run of characters. -/
  | star {segment name : List Char} (run : List Char) : Spells segment name →
      Spells ('*' :: segment) (run ++ name)
  /-- A question mark stands for one character. -/
  | mark {segment name : List Char} (c : Char) : Spells segment name →
      Spells ('?' :: segment) (c :: name)
  /-- Any other character stands for itself. -/
  | self {segment name : List Char} {c : Char} : c ≠ '*' → c ≠ '?' → Spells segment name →
      Spells (c :: segment) (c :: name)

/-- The segments of a pattern use up those of a path, in order. -/
inductive Consumes : List (List Char) → List (List Char) → Prop
  | nil : Consumes [] []
  /-- An ordinary segment takes one name that it matches. -/
  | ordinary {segment name : List Char} {segments names : List (List Char)} : segment ≠ stars →
      Spells segment name → Consumes segments names → Consumes (segment :: segments) (name :: names)
  /-- Two stars that others come after take any number of names. -/
  | many {segments names : List (List Char)} (taken : List (List Char)) : segments ≠ [] →
      Consumes segments names → Consumes (stars :: segments) (taken ++ names)
  /-- Two stars at the end take one name or more, none with a line feed. -/
  | final {taken : List (List Char)} : taken ≠ [] → (∀ name ∈ taken, '\n' ∉ name) →
      Consumes [stars] taken

/-- The segments of a pattern, some of them empty perhaps. -/
def segments (p : PathPattern) : List (List Char) := Text.pieces '/' p.normalized

/-- The segments of a path. -/
def segmentsOf (path : String) : List (List Char) := Text.pieces '/' (normalizePath path.toList)

/-- Two stars stand for nothing but whole segments. -/
def StarsWhole (segments : List (List Char)) : Prop :=
  ∀ segment ∈ segments, stars <:+: segment → segment = stars

instance (segments : List (List Char)) : Decidable (StarsWhole segments) :=
  inferInstanceAs (Decidable (∀ segment ∈ segments, stars <:+: segment → segment = stars))

variable {segment name path : List Char} {segments names : List (List Char)}
  {more : List PatternToken}

/-! ## One segment -/

theorem spells_nil : Spells [] name ↔ name = [] := by
  constructor
  · intro h
    cases h
    rfl
  · rintro rfl
    exact .nil

theorem spells_star : Spells ('*' :: segment) name ↔
    ∃ run rest, True ∧ Spells segment rest ∧ name = run ++ rest := by
  constructor
  · intro h
    cases h with
    | star run rest => exact ⟨run, _, trivial, rest, rfl⟩
    | self noStar => exact absurd rfl noStar
  · rintro ⟨run, rest, -, h, rfl⟩
    exact .star run h

theorem spells_mark : Spells ('?' :: segment) name ↔
    ∃ one rest, (∃ c, one = [c]) ∧ Spells segment rest ∧ name = one ++ rest := by
  constructor
  · intro h
    cases h with
    | mark c rest => exact ⟨[c], _, ⟨c, rfl⟩, rest, rfl⟩
    | self _ noMark => exact absurd rfl noMark
  · rintro ⟨_, rest, ⟨c, rfl⟩, h, rfl⟩
    exact .mark c h

theorem spells_self {c : Char} (proper : (literal c).IsProper) : Spells (c :: segment) name ↔
    ∃ one rest, one = [c] ∧ Spells segment rest ∧ name = one ++ rest := by
  constructor
  · intro h
    cases h with
    | star => exact absurd rfl proper.1
    | mark => exact absurd rfl proper.2
    | self _ _ rest => exact ⟨[c], _, rfl, rest, rfl⟩
  · rintro ⟨_, rest, rfl, h, rfl⟩
    exact .self proper.1 proper.2 h

/-- A segment without two stars in a row goes on without them. -/
theorem not_stars_infix_tail {c : Char} (single : ¬ stars <:+: c :: segment) :
    ¬ stars <:+: segment := fun h => single (h.trans (List.suffix_cons c segment).isInfix)

/-- Behind a star there is no further one. -/
theorem head?_ne_star (single : ¬ stars <:+: '*' :: segment) : segment.head? ≠ some '*' := by
  intro star
  obtain ⟨rest, rfl⟩ := List.head?_eq_some_iff.mp star
  exact single (List.prefix_append stars rest).isInfix

/-- A segment is read before the slash behind it. -/
theorem scan_segment_append (single : ¬ stars <:+: segment) (rest : List Char) :
    scan (segment ++ '/' :: rest) = scan segment ++ .literal '/' :: scan rest := by
  by_cases ends : segment.getLast? = some '*'
  · -- the last star has the slash behind it, and is one star all the same
    obtain ⟨front, rfl⟩ := List.getLast?_eq_some_iff.mp ends
    have before : front.getLast? ≠ some '*' := by
      intro last
      obtain ⟨start, rfl⟩ := List.getLast?_eq_some_iff.mp last
      refine single ⟨start, [], ?_⟩
      simp [stars]
    rw [List.append_assoc, scan_append before, scan_append before, List.singleton_append,
      scan_segment (by simp), List.append_assoc]
    rfl
  · rw [scan_append ends]
    rfl

/-- Tokens that take no slash take a name piece by piece. -/
theorem fits_cons_slashless {token : PatternToken} {tokens : List PatternToken}
    {Piece Rest : List Char → Prop} (takes : ∀ piece, token.Takes piece ↔ '/' ∉ piece ∧ Piece piece)
    (rest : ∀ name, Fits tokens name ↔ '/' ∉ name ∧ Rest name) :
    Fits (token :: tokens) name ↔
      '/' ∉ name ∧ ∃ piece back, Piece piece ∧ Rest back ∧ name = piece ++ back := by
  rw [fits_cons]
  constructor
  · rintro ⟨piece, back, taken, fits, rfl⟩
    obtain ⟨slashless, holds⟩ := (takes piece).mp taken
    obtain ⟨slashless', spells⟩ := (rest back).mp fits
    exact ⟨List.not_mem_append slashless slashless', piece, back, holds, spells, rfl⟩
  · rintro ⟨slashless, piece, back, holds, spells, rfl⟩
    rw [List.mem_append, not_or] at slashless
    exact ⟨piece, back, (takes piece).mpr ⟨slashless.1, holds⟩,
      (rest back).mpr ⟨slashless.2, spells⟩, rfl⟩

/-- The tokens of an ordinary segment take the names that it matches. -/
theorem fits_scan_iff (single : ¬ stars <:+: segment) (noSlash : '/' ∉ segment) (name : List Char) :
    Fits (scan segment) name ↔ '/' ∉ name ∧ Spells segment name := by
  induction segment generalizing name with
  | nil =>
    rw [spells_nil, scan, fits_nil]
    refine (and_iff_right_of_imp ?_).symm
    rintro rfl
    exact List.not_mem_nil
  | cons c segment ih =>
    rw [List.mem_cons, not_or] at noSlash
    have rest := ih (not_stars_infix_tail single) noSlash.2
    -- every character of a segment is a token of its own, since no two stars stand together
    by_cases star : c = '*'
    · subst star
      rw [scan_segment (head?_ne_star single), spells_star]
      exact fits_cons_slashless (fun _ => (and_iff_left trivial).symm) rest
    by_cases mark : c = '?'
    · subst mark
      rw [scan, spells_mark]
      refine fits_cons_slashless (fun piece => ?_) rest
      constructor
      · rintro ⟨d, other, rfl⟩
        exact ⟨List.mem_singleton.not.mpr (Ne.symm other), d, rfl⟩
      · rintro ⟨slashless, d, rfl⟩
        exact ⟨d, Ne.symm (List.mem_singleton.not.mp slashless), rfl⟩
    · have proper : (literal c).IsProper := ⟨star, mark⟩
      rw [scan_literal proper, spells_self proper]
      refine fits_cons_slashless (fun piece => (and_iff_right_of_imp ?_).symm) rest
      rintro rfl
      exact List.mem_singleton.not.mpr noSlash.1

/-! ## One segment and the others -/

/-- With a segment in front of them, tokens take a path behind a name that the segment matches. -/
theorem fits_ordinary_iff (single : ¬ stars <:+: segment) (noSlash : '/' ∉ segment) :
    Fits (scan segment ++ .literal '/' :: more) path ↔ ∃ name rest,
      '/' ∉ name ∧ Spells segment name ∧ Fits more rest ∧ path = name ++ '/' :: rest := by
  rw [fits_around]
  constructor
  · rintro ⟨name, _, rest, first, rfl, fits, rfl⟩
    obtain ⟨slashless, spells⟩ := (fits_scan_iff single noSlash name).mp first
    exact ⟨name, rest, slashless, spells, fits, List.append_cons _ _ _ |>.symm⟩
  · rintro ⟨name, rest, slashless, spells, fits, rfl⟩
    exact ⟨name, ['/'], rest, (fits_scan_iff single noSlash name).mpr ⟨slashless, spells⟩, rfl, fits,
      List.append_cons _ _ _⟩

/-- Whatever uses up a path, the path has a segment for it. -/
theorem Consumes.ne_nil (h : Consumes segments names) (some : segments ≠ []) : names ≠ [] := by
  induction h with
  | nil => exact some
  | ordinary => exact List.cons_ne_nil _ _
  | many taken others _ ih => exact List.append_ne_nil_of_right_ne_nil _ (ih others)
  | final taken => exact taken

/-- The last segment of a pattern uses up what is left of a path. -/
theorem fits_last_iff (whole : stars <:+: segment → segment = stars) (noSlash : '/' ∉ segment) :
    Fits (scan segment) path ↔ Consumes [segment] (Text.pieces '/' path) := by
  by_cases two : segment = stars
  · subst two
    -- the star takes all of the path, however many segments it has
    have taken : Fits (scan stars) path ↔ '\n' ∉ path := by
      rw [show scan stars = [.anything] from rfl, fits_cons]
      constructor
      · rintro ⟨piece, rest, noFeed, fits, rfl⟩
        rw [fits_nil.mp fits, List.append_nil]
        exact noFeed
      · exact fun noFeed => ⟨path, [], noFeed, fits_nil.mpr rfl, (List.append_nil _).symm⟩
    have names : '\n' ∉ path ↔ ∀ name ∈ Text.pieces '/' path, '\n' ∉ name := by
      rw [Text.mem_iff_exists_piece (by decide : '\n' ≠ '/')]
      simp only [not_exists, not_and]
    rw [taken, names]
    constructor
    · exact fun noFeed => .final (Text.pieces_ne_nil _ _) noFeed
    · intro h
      generalize Text.pieces '/' path = names at h ⊢
      cases h with
      | ordinary other => exact absurd rfl other
      | many _ others => exact absurd rfl others
      | final _ noFeed => exact noFeed
  · have single : ¬ stars <:+: segment := fun h => two (whole h)
    rw [fits_scan_iff single noSlash]
    constructor
    · rintro ⟨slashless, spells⟩
      rw [Text.pieces_of_notMem slashless]
      exact .ordinary two spells .nil
    · intro h
      generalize hnames : Text.pieces '/' path = names at h
      cases h with
      | ordinary _ spells others =>
        cases others
        obtain ⟨rfl, slashless⟩ := Text.eq_of_pieces_eq_singleton hnames
        exact ⟨slashless, spells⟩
      | many => exact absurd rfl two
      | final => exact absurd rfl two

/-- Two stars with a slash behind them use up segments before the others do. -/
theorem fits_stars_iff (others : segments ≠ [])
    (rest : ∀ path, Fits more path ↔ Consumes segments (Text.pieces '/' path)) :
    Fits (.directories :: more) path ↔ Consumes (stars :: segments) (Text.pieces '/' path) := by
  rw [fits_cons]
  constructor
  · rintro ⟨_, behind, ⟨blocks, slashless, rfl⟩, fits, rfl⟩
    rw [Text.pieces_flatMap_append slashless]
    exact .many blocks others ((rest behind).mp fits)
  · intro h
    generalize hnames : Text.pieces '/' path = names at h
    cases h with
    | ordinary other => exact absurd rfl other
    | final => exact absurd rfl others
    | many taken _ consumes =>
      obtain ⟨behind, rfl, slashless, rfl⟩ :=
        Text.exists_behind_of_pieces_eq_append hnames (consumes.ne_nil others)
      exact ⟨_, behind, ⟨taken, slashless, rfl⟩, (rest behind).mpr consumes, rfl⟩

/-- An ordinary segment uses up one name before the others use up the rest. -/
theorem fits_first_iff (ordinary : segment ≠ stars) (whole : stars <:+: segment → segment = stars)
    (noSlash : '/' ∉ segment) (others : segments ≠ [])
    (rest : ∀ path, Fits more path ↔ Consumes segments (Text.pieces '/' path)) :
    Fits (scan segment ++ .literal '/' :: more) path ↔
      Consumes (segment :: segments) (Text.pieces '/' path) := by
  rw [fits_ordinary_iff (fun h => ordinary (whole h)) noSlash]
  constructor
  · rintro ⟨name, behind, slashless, spells, fits, rfl⟩
    rw [Text.pieces_append slashless]
    exact .ordinary ordinary spells ((rest behind).mp fits)
  · intro h
    generalize hnames : Text.pieces '/' path = names at h
    cases h with
    | many => exact absurd rfl ordinary
    | final => exact absurd rfl ordinary
    | ordinary _ spells consumes =>
      obtain ⟨behind, rfl, slashless, rfl⟩ :=
        Text.exists_behind_of_pieces_eq_cons hnames (consumes.ne_nil others)
      exact ⟨_, behind, slashless, spells, (rest behind).mpr consumes, rfl⟩

/-- The tokens of a pattern in which two stars are always a whole segment take the paths that its
segments use up. -/
theorem fits_iff_consumes {pattern : List Char} (whole : StarsWhole (Text.pieces '/' pattern)) :
    ∀ path, Fits (scan pattern) path ↔
      Consumes (Text.pieces '/' pattern) (Text.pieces '/' path) := by
  -- the induction cuts the pattern at its first slash, and the path with it
  induction Text.cut '/' pattern with
  | @whole segment noSlash =>
    intro path
    rw [Text.pieces_of_notMem noSlash] at whole ⊢
    exact fits_last_iff (whole segment List.mem_cons_self) noSlash
  | @first segment behind noSlash _ ih =>
    intro path
    rw [Text.pieces_append noSlash] at whole ⊢
    obtain ⟨first, others⟩ := List.forall_mem_cons.mp whole
    have rest := ih others
    have some := Text.pieces_ne_nil '/' behind
    by_cases two : segment = stars
    · subst two
      exact fits_stars_iff some rest
    · rw [scan_segment_append fun h => two (first h)]
      exact fits_first_iff two first noSlash some rest

/-- Without two stars a pattern uses up as many names as it has segments. -/
theorem Consumes.length_eq (h : Consumes segments names) (none : stars ∉ segments) :
    names.length = segments.length := by
  induction h with
  | nil => rfl
  | ordinary _ _ _ ih =>
    rw [List.mem_cons, not_or] at none
    rw [List.length_cons, List.length_cons, ih none.2]
  | many => exact absurd List.mem_cons_self none
  | final => exact absurd List.mem_cons_self none

/-- With a library that finds what there is: where two stars stand only for whole segments of a pattern,
it covers the paths whose segments are used up in order by those of the pattern: one name for an ordinary
segment, which matches it character by character, any number for two stars that others come after, and
one or more without line feeds for two stars at the end. So a pattern without two stars in a row covers
only paths of its own depth. -/
theorem covers_iff_segments [RegexLibrary] (lawful : RegexLibrary.Lawful) (p : PathPattern)
    (path : String) :
    (StarsWhole p.segments →
      (p.covers path = true ↔ p.isUsable = true ∧ Consumes p.segments (segmentsOf path))) ∧
    (¬ stars <:+: p.normalized → p.covers path = true →
      (segmentsOf path).length = p.segments.length) := by
  have covers : StarsWhole p.segments →
      (p.covers path = true ↔ p.isUsable = true ∧ Consumes p.segments (segmentsOf path)) := by
    intro whole
    rw [covers_iff_fits lawful]
    exact and_congr_right fun _ => fits_iff_consumes whole _
  refine ⟨covers, fun single covered => ?_⟩
  -- a segment with two stars would have them in the pattern
  have none : ∀ segment ∈ p.segments, ¬ stars <:+: segment := fun segment hsegment two =>
    single (two.trans (Text.infix_of_mem_pieces hsegment))
  have whole : StarsWhole p.segments := fun segment hsegment two =>
    absurd two (none segment hsegment)
  exact ((covers whole).mp covered).2.length_eq fun two => none _ two (List.infix_refl _)

/-- Two directories stand where none has to, and two names are left for the stars at the end. A pattern
with one star does not look below the directory. -/
theorem sources_covered_by_segments :
    let deep := ofText " \\src/**/net-?/**"
    let flat := ofText "/docs\\*.md"
    RegexLibrary.Lawful ∧ StarsWhole deep.segments ∧ deep.covers "src/a/b/net-1/tcp/mod.rs" = true ∧
      ¬ stars <:+: flat.normalized ∧ flat.covers "docs/a.md" = true ∧
      (segmentsOf "docs/a.md").length = flat.segments.length := by
  intro deep flat
  have segments : deep.segments = ["src".toList, stars, "net-?".toList, stars] := by decide +kernel
  have whole : StarsWhole deep.segments := by
    rw [segments]
    decide
  have single : ¬ stars <:+: flat.normalized := by decide +kernel
  have covered : flat.covers "docs/a.md" = true := by decide +kernel
  have cut : segmentsOf "src/a/b/net-1/tcp/mod.rs"
      = "src".toList :: (["a".toList, "b".toList] ++ ["net-1".toList, "tcp".toList, "mod.rs".toList]) := by
    decide +kernel
  have spells : ∀ {segment name : List Char}, ¬ stars <:+: segment → '/' ∉ segment →
      (anchored (scan segment)).search name = true → Spells segment name :=
    fun single noSlash found => ((fits_scan_iff single noSlash _).mp (fits_of_search found)).2
  have lawful := lawful_searchLibrary
  refine ⟨lawful, whole, ((covers_iff_segments lawful deep _).1 whole).mpr ⟨by decide +kernel, ?_⟩,
    single, covered, (covers_iff_segments lawful flat _).2 single covered⟩
  rw [segments, cut]
  refine .ordinary (by decide) (spells (by decide) (by decide) (by decide +kernel)) ?_
  refine .many _ (List.cons_ne_nil _ _) ?_
  refine .ordinary (by decide) (spells (by decide) (by decide) (by decide +kernel)) ?_
  exact .final (List.cons_ne_nil _ _) (by decide)

end BuildServer.PathPattern
