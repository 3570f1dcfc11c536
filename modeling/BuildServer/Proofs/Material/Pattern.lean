import BuildServer.Material.Filter
import Mathlib.Data.List.Forall2
/-!
# The tokens of a pattern

A pattern is cut into tokens, at every place the longest one that fits, and a path is covered if it can
be cut into pieces, one for each token, such that every token may take its piece. Here is what the tokens
of a pattern are, and what they take. That a pattern is compiled to an expression with the same meaning
is shown in `Expression`.

Only a star waits for the characters behind it before it is known for what token it stands. So a pattern
can be read in parts, if none of them but the last one ends with a star.
-/

set_option autoImplicit false

namespace BuildServer

/-- A token of a pattern. -/
inductive PatternToken where
  /-- `**/`: any number of directories, none included. -/
  | directories
  /-- `**`: any text without a line feed. -/
  | anything
  /-- `*`: any text without a slash. -/
  | segment
  /-- `?`: one character that is not a slash. -/
  | anyChar
  /-- Any other character, which stands for itself. -/
  | literal (c : Char)
  deriving DecidableEq, Repr

namespace PatternToken

/-! ## Reading a pattern -/

/-- The tokens of a pattern, longest token first. -/
def scan : List Char → List PatternToken
  | '*' :: '*' :: '/' :: rest => .directories :: scan rest
  | '*' :: '*' :: rest => .anything :: scan rest
  | '*' :: rest => .segment :: scan rest
  | '?' :: rest => .anyChar :: scan rest
  | c :: rest => .literal c :: scan rest
  | [] => []

/-- How the token is written. -/
def text : PatternToken → List Char
  | .directories => ['*', '*', '/']
  | .anything => ['*', '*']
  | .segment => ['*']
  | .anyChar => ['?']
  | .literal c => [c]

/-- A character that stands for itself is none of those that have a meaning of their own. -/
def IsProper : PatternToken → Prop
  | .literal c => c ≠ '*' ∧ c ≠ '?'
  | _ => True

/-- The tokens of a pattern from left to right, each the longest that fits where it begins. -/
inductive Reads : List Char → List PatternToken → Prop
  | nil : Reads [] []
  | cons {cs rest : List Char} {token : PatternToken} {tokens : List PatternToken}
      (split : cs = token.text ++ rest) (proper : token.IsProper)
      (longest : ∀ other : PatternToken, other.IsProper → other.text <+: cs →
        other.text.length ≤ token.text.length)
      (more : Reads rest tokens) : Reads cs (token :: tokens)

theorem text_ne_nil (token : PatternToken) : token.text ≠ [] := by
  cases token <;> simp [text]

/-- Tokens are told apart by how they are written. -/
theorem eq_of_text_eq {token other : PatternToken} (proper : token.IsProper)
    (proper' : other.IsProper) (h : token.text = other.text) : token = other := by
  cases token <;> cases other <;> grind [text, IsProper]

/-- There is one way of reading a pattern. -/
theorem Reads.unique {cs : List Char} {tokens tokens' : List PatternToken} (h : Reads cs tokens)
    (h' : Reads cs tokens') : tokens = tokens' := by
  induction h generalizing tokens' with
  | nil =>
    cases h' with
    | nil => rfl
    | cons split => exact absurd (List.append_eq_nil_iff.mp split.symm).1 (text_ne_nil _)
  | @cons cs rest token tokens split proper longest more ih =>
    cases h' with
    | nil => exact absurd (List.append_eq_nil_iff.mp split.symm).1 (text_ne_nil _)
    | @cons _ rest' other tokens' split' proper' longest' more' =>
      -- each of the two tokens fits, so neither is longer than the other
      have fits : token.text <+: cs := ⟨rest, split.symm⟩
      have fits' : other.text <+: cs := ⟨rest', split'.symm⟩
      have sameLength : token.text.length = other.text.length :=
        Nat.le_antisymm (longest' token proper fits) (longest other proper' fits')
      obtain ⟨sameText, sameRest⟩ := List.append_inj (split.symm.trans split') sameLength
      subst sameRest
      rw [eq_of_text_eq proper proper' sameText, ih more']

/-- The scanner reads a pattern. -/
theorem reads_scan (cs : List Char) : Reads cs (scan cs) := by
  -- The induction is on `scan` itself: the token it takes first is the longest one that fits.
  fun_induction scan cs with
  | case1 rest ih =>
    refine .cons rfl trivial ?_ ih
    intro other _ _
    cases other <;> simp [text]
  | case2 rest noSlash ih =>
    refine .cons rfl trivial ?_ ih
    intro other _ fits
    cases other with
    | directories =>
      simp only [text, List.cons_prefix_cons, true_and] at fits
      obtain ⟨more, slash⟩ := fits
      exact absurd slash.symm (noSlash more)
    | _ => simp [text]
  | case3 rest _ noStar ih =>
    refine .cons rfl trivial ?_ ih
    intro other _ fits
    cases other with
    | directories | anything =>
      simp only [text, List.cons_prefix_cons, true_and] at fits
      obtain ⟨more, star⟩ := fits
      exact absurd star.symm (noStar _)
    | _ => simp [text]
  | case4 rest ih =>
    refine .cons rfl trivial ?_ ih
    intro other _ fits
    cases other <;> simp [text] at fits ⊢
  | case5 c rest _ _ noStar noMark ih =>
    refine .cons rfl ⟨noStar, noMark⟩ ?_ ih
    intro other _ fits
    cases other with
    | directories | anything =>
      simp only [text, List.cons_prefix_cons] at fits
      exact absurd fits.1.symm noStar
    | _ => simp [text]
  | case6 => exact .nil

theorem reads_iff {cs : List Char} {tokens : List PatternToken} :
    Reads cs tokens ↔ tokens = scan cs := by
  constructor
  · intro h
    exact h.unique (reads_scan cs)
  · rintro rfl
    exact reads_scan cs

/-! ## Reading in parts -/

theorem scan_anything {rest : List Char} (noSlash : rest.head? ≠ some '/') :
    scan ('*' :: '*' :: rest) = .anything :: scan rest := by
  refine scan.eq_2 rest ?_
  rintro more rfl
  exact noSlash rfl

theorem scan_segment {rest : List Char} (single : rest.head? ≠ some '*') :
    scan ('*' :: rest) = .segment :: scan rest := by
  have noStar : ∀ more : List Char, rest ≠ '*' :: more := by
    rintro more rfl
    exact single rfl
  exact scan.eq_3 rest (fun _ => noStar _) noStar

theorem scan_literal {c : Char} (proper : (literal c).IsProper) (rest : List Char) :
    scan (c :: rest) = .literal c :: scan rest :=
  scan.eq_5 c rest (fun _ star _ => proper.1 star) (fun _ star _ => proper.1 star) proper.1 proper.2

/-- A text that ends with no star is read before what comes behind it. -/
theorem scan_append {front : List Char} (ends : front.getLast? ≠ some '*') (rest : List Char) :
    scan (front ++ rest) = scan front ++ scan rest := by
  have shorter : ∀ {c : Char} {more : List Char}, (c :: more).getLast? ≠ some '*' →
      more.getLast? ≠ some '*' := by
    intro c more h last
    rw [List.getLast?_cons, last] at h
    exact h rfl
  -- behind a star at least one more character is part of the text
  have head : ∀ {more : List Char}, ('*' :: more).getLast? ≠ some '*' →
      (more ++ rest).head? = more.head? := by
    intro more h
    cases more with
    | nil => exact absurd rfl h
    | cons c more => rfl
  fun_induction scan front with
  | case1 more ih => exact congrArg (_ :: ·) (ih (shorter (shorter (shorter ends))))
  | case2 more noSlash ih =>
    have slash : more.head? ≠ some '/' := by
      intro slash
      obtain ⟨tail, rfl⟩ := List.head?_eq_some_iff.mp slash
      exact noSlash tail rfl
    rw [List.cons_append, List.cons_append, scan_anything (head (shorter ends) ▸ slash),
      ih (shorter (shorter ends)), List.cons_append]
  | case3 more _ noStar ih =>
    have star : more.head? ≠ some '*' := by
      intro star
      obtain ⟨tail, rfl⟩ := List.head?_eq_some_iff.mp star
      exact noStar tail rfl
    rw [List.cons_append, scan_segment (head ends ▸ star), ih (shorter ends), List.cons_append]
  | case4 more ih => exact congrArg (_ :: ·) (ih (shorter ends))
  | case5 c more _ _ noStar noMark ih =>
    rw [List.cons_append, scan_literal ⟨noStar, noMark⟩, ih (shorter ends), List.cons_append]
  | case6 => rfl

/-! ## What tokens take -/

/-- The piece of a path is one that the token may take. -/
def Takes : PatternToken → List Char → Prop
  | .directories, piece => ∃ blocks : List (List Char), (∀ block ∈ blocks, '/' ∉ block) ∧
      piece = blocks.flatMap (· ++ ['/'])
  | .anything, piece => '\n' ∉ piece
  | .segment, piece => '/' ∉ piece
  | .anyChar, piece => ∃ c, c ≠ '/' ∧ piece = [c]
  | .literal c, piece => piece = [c]

/-- The path can be cut into pieces, one for each token. -/
def Fits (tokens : List PatternToken) (path : List Char) : Prop :=
  ∃ pieces, List.Forall₂ Takes tokens pieces ∧ path = pieces.flatten

variable {token : PatternToken} {tokens : List PatternToken} {path : List Char}

theorem fits_nil : Fits [] path ↔ path = [] := by
  constructor
  · rintro ⟨pieces, taken, rfl⟩
    cases taken
    rfl
  · rintro rfl
    exact ⟨[], .nil, rfl⟩

/-- The path begins with a piece for the first token, and the other tokens make up what is left. -/
theorem fits_cons : Fits (token :: tokens) path ↔
    ∃ piece rest, token.Takes piece ∧ Fits tokens rest ∧ path = piece ++ rest := by
  constructor
  · rintro ⟨pieces, taken, rfl⟩
    cases taken with
    | @cons _ piece _ pieces first more =>
      exact ⟨piece, pieces.flatten, first, ⟨pieces, more, rfl⟩, List.flatten_cons⟩
  · rintro ⟨piece, rest, first, ⟨pieces, more, rfl⟩, rfl⟩
    exact ⟨piece :: pieces, .cons first more, List.flatten_cons.symm⟩

/-- What is made up for tokens and then for others is made up for all of them. -/
theorem fits_append {more : List PatternToken} : Fits (tokens ++ more) path ↔
    ∃ front back, Fits tokens front ∧ Fits more back ∧ path = front ++ back := by
  constructor
  · rintro ⟨pieces, taken, rfl⟩
    have first := List.forall₂_take_append pieces tokens more taken.flip
    have second := List.forall₂_drop_append pieces tokens more taken.flip
    refine ⟨_, _, ⟨_, first.flip, rfl⟩, ⟨_, second.flip, rfl⟩, ?_⟩
    rw [← List.flatten_append, List.take_append_drop]
  · rintro ⟨_, _, ⟨front, first, rfl⟩, ⟨back, second, rfl⟩, rfl⟩
    exact ⟨front ++ back, List.rel_append first second, List.flatten_append.symm⟩

/-- A token with others on both sides takes a piece with a text on both sides. -/
theorem fits_around {more : List PatternToken} : Fits (tokens ++ token :: more) path ↔
    ∃ front piece back, Fits tokens front ∧ token.Takes piece ∧ Fits more back ∧
      path = front ++ piece ++ back := by
  rw [fits_append]
  constructor
  · rintro ⟨front, _, first, behind, rfl⟩
    obtain ⟨piece, back, taken, fits, rfl⟩ := fits_cons.mp behind
    exact ⟨front, piece, back, first, taken, fits, (List.append_assoc _ _ _).symm⟩
  · rintro ⟨front, piece, back, first, taken, fits, rfl⟩
    exact ⟨front, piece ++ back, first, fits_cons.mpr ⟨piece, back, taken, fits, rfl⟩,
      List.append_assoc _ _ _⟩

end PatternToken

/-- The tokens of a pattern. -/
def PathPattern.tokens (p : PathPattern) : List PatternToken := PatternToken.scan p.normalized

end BuildServer
