import BuildServer.Proofs.Material.Pattern
import BuildServer.Proofs.Regex.Search
/-!
# Patterns and their expressions

A pattern is compiled to the text of an expression, which is read as an expression, which is searched
for in a path. Three steps show that the path is then covered as the tokens of the pattern say. What is
written for a pattern are the fragments of its tokens, since a step by the octets of a token leads to what
stands behind it. Each fragment is read as one expression, escaped characters as themselves. And that
expression takes what the token takes; with an anchor at either end, the tokens together take the whole
path or there is no match.
-/

set_option autoImplicit false

namespace BuildServer

open Regex (readFrom)

/-! ## Writing the expression -/

/-- How many octets the characters have. -/
def octets : List Char → Nat
  | [] => 0
  | c :: rest => c.utf8Size + octets rest

/-- To go on behind the octets of a text is to go on behind the text. -/
theorem PathPattern.expressionBehind_octets (front rest : List Char) :
    expressionBehind (octets front) (front ++ rest) = expressionBehind 0 rest := by
  induction front with
  | nil => rfl
  | cons c front ih =>
    have ahead : octets (c :: front) = c.utf8Size + octets front := rfl
    have some : octets (c :: front) ≠ 0 := by
      have := c.utf8Size_pos
      omega
    obtain ⟨n, hn⟩ := Nat.exists_eq_succ_of_ne_zero some
    rw [List.cons_append, hn, expressionBehind, ← hn, ahead, Nat.add_sub_cancel_left, ih]
    omega

namespace PatternToken

/-- What is written for the token. -/
def fragment : PatternToken → String
  | .directories => "(?:[^/]*/)*"
  | .anything => ".*"
  | .segment => "[^/]*"
  | .anyChar => "[^/]"
  | .literal c => String.ofList (Regex.escape [c])

/-- Where a token stands first, its fragment is written, and what stands behind it comes next. -/
theorem expressionBehind_cons {c : Char} {cs front rest : List Char} {token : PatternToken}
    {tokens : List PatternToken} (split : cs = c :: (front ++ rest))
    (first : PathPattern.leading c (front ++ rest) = (token.fragment, octets (c :: front)))
    (more : PathPattern.expressionBehind 0 rest = tokens.flatMap (·.fragment.toList)) :
    PathPattern.expressionBehind 0 cs = (token :: tokens).flatMap (·.fragment.toList) := by
  have ahead : octets (c :: front) = c.utf8Size + octets front := rfl
  rw [split, PathPattern.expressionBehind, first]
  dsimp only
  rw [ahead, Nat.add_sub_cancel_left, PathPattern.expressionBehind_octets, more, List.flatMap_cons]

/-- The fragments of the tokens are written one after the other. -/
theorem expressionBehind_eq (cs : List Char) :
    PathPattern.expressionBehind 0 cs = (scan cs).flatMap (·.fragment.toList) := by
  -- The byte count `leading` returns is that of the token `scan` takes, so both go on at the same rest.
  fun_induction scan cs with
  | case1 rest ih =>
    have size : octets ['*', '*', '/'] = 3 := by decide
    have first : PathPattern.leading '*' (['*', '/'] ++ rest)
        = (directories.fragment, octets ['*', '*', '/']) :=
      (PathPattern.leading.eq_1 rest).trans (Prod.ext rfl size.symm)
    exact expressionBehind_cons rfl first ih
  | case2 rest noSlash ih =>
    have size : octets ['*', '*'] = 2 := by decide
    have first : PathPattern.leading '*' (['*'] ++ rest)
        = (anything.fragment, octets ['*', '*']) :=
      (PathPattern.leading.eq_2 rest noSlash).trans (Prod.ext rfl size.symm)
    exact expressionBehind_cons rfl first ih
  | case3 rest _ noStar ih =>
    have size : octets ['*'] = 1 := by decide
    have first : PathPattern.leading '*' ([] ++ rest) = (segment.fragment, octets ['*']) :=
      (PathPattern.leading.eq_3 rest (fun _ => noStar _) noStar).trans (Prod.ext rfl size.symm)
    exact expressionBehind_cons rfl first ih
  | case4 rest ih =>
    have size : octets ['?'] = 1 := by decide
    have first : PathPattern.leading '?' ([] ++ rest) = (anyChar.fragment, octets ['?']) :=
      (PathPattern.leading.eq_4 rest).trans (Prod.ext rfl size.symm)
    exact expressionBehind_cons rfl first ih
  | case5 c rest noStars noStar' noStar noMark ih =>
    have first : PathPattern.leading c ([] ++ rest) = ((literal c).fragment, octets [c]) :=
      PathPattern.leading.eq_5 c rest noStar noMark
        (fun _ star _ => noStar star) (fun _ star _ => noStar star)
    exact expressionBehind_cons rfl first ih
  | case6 => rfl

/-! ## Reading the expression -/

/-- The expression for the token. -/
def regex : PatternToken → Regex
  | .directories => .star (.concatAll [.star (.except '/'), .literal '/'])
  | .anything => .star .dot
  | .segment => .star (.except '/')
  | .anyChar => .except '/'
  | .literal c => .literal c

/-- A fragment is read as the expression for its token, whatever comes behind it. -/
theorem readFrom_fragment (token : PatternToken) (around : List (List Regex)) (done : List Regex)
    (rest : List Char) :
    readFrom around done (token.fragment.toList ++ rest) = readFrom around (token.regex :: done) rest := by
  cases token with
  | literal c =>
    rw [fragment, String.toList_ofList]
    exact Regex.readFrom_escape around done rest c
  | _ => rfl

theorem readFrom_fragments (tokens : List PatternToken) (around : List (List Regex))
    (done : List Regex) (rest : List Char) :
    readFrom around done (tokens.flatMap (·.fragment.toList) ++ rest)
      = readFrom around ((tokens.map regex).reverse ++ done) rest := by
  induction tokens generalizing done with
  | nil => rfl
  | cons token tokens ih =>
    rw [List.flatMap_cons, List.append_assoc, readFrom_fragment, ih, List.map_cons,
      List.reverse_cons, List.append_assoc, List.singleton_append]

/-- The expressions for the tokens, between the two ends of the path. -/
def anchored (tokens : List PatternToken) : Regex :=
  .concatAll (.start :: tokens.map regex ++ [.finish])

/-- Every pattern is compiled to a proper expression, the one for its tokens. -/
theorem regex_eq (p : PathPattern) : p.regex = some (anchored p.tokens) := by
  have read : readFrom [] [] ('^' :: (p.tokens.flatMap (·.fragment.toList) ++ ['$']))
      = readFrom [] ((p.tokens.map regex).reverse ++ [.start]) ['$'] :=
    readFrom_fragments p.tokens [] [.start] ['$']
  have last : readFrom [] ((p.tokens.map regex).reverse ++ [.start]) ['$']
      = some (.concatAll (.finish :: ((p.tokens.map regex).reverse ++ [.start])).reverse) := rfl
  rw [p.compiled, PathPattern.expression, expressionBehind_eq]
  refine (read.trans last).trans ?_
  rw [List.reverse_cons, List.reverse_append, List.reverse_reverse]
  rfl

/-! ## Searching for the expression -/

variable {token : PatternToken} {tokens : List PatternToken} {text path : List Char}

/-- Blocks that end with slashes, each of them without another slash. -/
theorem takes_blocks : (Regex.star (.concatAll [.star (.except '/'), .literal '/'])).Takes text
    directories.Takes := by
  have block : (Regex.concatAll [.star (.except '/'), .literal '/']).Takes text
      (∃ block, '/' ∉ block ∧ · = block ++ ['/']) := by
    refine ((Regex.takes_except '/').star_without.concat
      ((Regex.takes_literal '/').concat Regex.takes_empty)).congr fun piece => ?_
    constructor
    · rintro ⟨block, _, slashless, ⟨_, _, rfl, rfl, rfl⟩, rfl⟩
      exact ⟨block, slashless, rfl⟩
    · rintro ⟨block, slashless, rfl⟩
      exact ⟨block, ['/'], slashless, ⟨['/'], [], rfl, rfl, rfl⟩, rfl⟩
  refine block.star.congr fun piece => ?_
  constructor
  · rintro ⟨pieces, all, rfl⟩
    choose! blocks slashless ends using all
    refine ⟨pieces.map blocks, ?_, ?_⟩
    · rw [List.forall_mem_map]
      exact slashless
    · rw [List.flatMap_map, List.flatten_eq_flatMap]
      exact List.flatMap_congr ends
  · rintro ⟨blocks, slashless, rfl⟩
    refine ⟨blocks.map (· ++ ['/']), ?_, List.flatMap_def⟩
    rw [List.forall_mem_map]
    exact fun block member => ⟨block, slashless block member, rfl⟩

/-- The expression for a token takes what the token takes. -/
theorem takes_regex (token : PatternToken) : token.regex.Takes text token.Takes := by
  cases token with
  | directories => exact takes_blocks
  | anything => exact Regex.takes_dot.star_without
  | segment => exact (Regex.takes_except '/').star_without
  | anyChar => exact Regex.takes_except '/'
  | literal c => exact Regex.takes_literal c

/-- The expressions for the tokens, and then the end, lead past what the tokens make up. -/
theorem leads_tokens {finish : List Char} :
    (Regex.concatAll (tokens.map regex ++ [.finish])).Leads text path finish ↔
      Fits tokens path ∧ finish = [] := by
  induction tokens generalizing path with
  | nil =>
    rw [fits_nil]
    constructor
    · rintro ⟨_, ⟨rfl, rfl⟩, rfl⟩
      exact ⟨rfl, rfl⟩
    · rintro ⟨rfl, rfl⟩
      exact ⟨[], ⟨rfl, rfl⟩, rfl⟩
  | cons token tokens ih =>
    rw [fits_cons]
    constructor
    · rintro ⟨middle, first, others⟩
      obtain ⟨piece, taken, rfl⟩ := (takes_regex token _ _).mp first
      obtain ⟨fits, rfl⟩ := ih.mp others
      exact ⟨⟨piece, middle, taken, fits, rfl⟩, rfl⟩
    · rintro ⟨⟨piece, rest, taken, fits, rfl⟩, rfl⟩
      exact ⟨rest, (takes_regex token _ _).mpr ⟨piece, taken, rfl⟩, ih.mpr ⟨fits, rfl⟩⟩

/-- A match begins at the beginning and ends at the end. -/
theorem foundIn_anchored : (anchored tokens).FoundIn path ↔ Fits tokens path := by
  constructor
  · rintro ⟨_, finish, -, _, ⟨rfl, rfl⟩, others⟩
    exact (leads_tokens.mp others).1
  · exact fun fits => ⟨path, [], List.suffix_refl _, path, ⟨rfl, rfl⟩, leads_tokens.mpr ⟨fits, rfl⟩⟩

/-- Whether tokens make up a path can be seen by a search. -/
theorem fits_of_search (found : (anchored tokens).search path = true) : Fits tokens path :=
  foundIn_anchored.mp ((Regex.search_iff _ _).mp found)

end PatternToken

namespace PathPattern

/-- With a library that finds what there is, a pattern covers the paths that its tokens make up. -/
theorem covers_iff_fits [RegexLibrary] (lawful : RegexLibrary.Lawful) (p : PathPattern)
    (path : String) : p.covers path = true ↔
      p.isUsable = true ∧ PatternToken.Fits p.tokens (normalizePath path.toList) := by
  rw [covers, isUsable, PatternToken.regex_eq, Option.any_some, Option.any_some, Bool.and_eq_true]
  refine and_congr_right fun accepted => ?_
  rw [lawful.isMatch_iff _ _ accepted, PatternToken.foundIn_anchored]

/-- With a library that finds what there is, a pattern covers a path if it can be used and the path as a
whole is made up of pieces, one for each token of the pattern, that the tokens may take. Blanks around the
pattern do not count; in pattern and path a backslash counts as a slash, and slashes in front are
dropped. -/
theorem covers_iff [RegexLibrary] (lawful : RegexLibrary.Lawful) (p : PathPattern) (path : String) :
    p.covers path = true ↔ p.isUsable = true ∧ ∃ tokens pieces,
      PatternToken.Reads p.normalized tokens ∧ List.Forall₂ PatternToken.Takes tokens pieces ∧
        normalizePath path.toList = pieces.flatten := by
  rw [covers_iff_fits lawful, PatternToken.Fits]
  refine and_congr_right fun _ => ?_
  constructor
  · rintro ⟨pieces, taken, split⟩
    exact ⟨p.tokens, pieces, PatternToken.reads_scan _, taken, split⟩
  · rintro ⟨tokens, pieces, read, taken, split⟩
    rw [PatternToken.reads_iff] at read
    subst read
    exact ⟨pieces, taken, split⟩

/-- A pattern with characters that are escaped, and one of two octets, covers a path two directories
down. -/
theorem escaped_name_covered :
    let p := ofText " /été\\**\\a+b(?).md"
    let path := "été/x/y/a+b(1).md"
    RegexLibrary.Lawful ∧ p.covers path = true ∧ p.isUsable = true ∧ ∃ tokens pieces,
      PatternToken.Reads p.normalized tokens ∧ List.Forall₂ PatternToken.Takes tokens pieces ∧
        normalizePath path.toList = pieces.flatten := by
  intro p path
  have covered : p.covers path = true := by decide +kernel
  exact ⟨lawful_searchLibrary, covered, (covers_iff lawful_searchLibrary p path).mp covered⟩

end PathPattern

end BuildServer
