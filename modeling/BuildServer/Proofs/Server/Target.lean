import BuildServer.Server.Target
import Mathlib.Data.List.TakeWhile
/-!
# Targets with the same server

Whether an address is a target is decided by its length, its scheme and its server, as long as the
characters of its path stand for themselves. So of two such addresses on one server, both are targets
if one is and the other is not too long.
-/

set_option autoImplicit false

namespace BuildServer.Target

/-- A character that stands for itself wherever in the path or the query it is, and ends neither. -/
def isPlainChar (c : Char) : Bool :=
  isOpenChar ['"', '<', '>', '\x60'] c && c != '?' && c != '#'

theorem isOpenChar_of_isPlainChar {c : Char} (h : isPlainChar c = true) :
    isOpenChar ['<', '>', '\x60'] c = true ∧ isOpenChar ['"', '<', '>'] c = true ∧
      (c != '?') = true ∧ (c != '#') = true := by
  simp only [isPlainChar, isOpenChar, Bool.and_eq_true] at h ⊢
  simp_all

section Lists

variable {α : Type} {p : α → Bool} {as more : List α}

theorem takeWhile_append_of_not (h : ¬ ∀ a ∈ as, p a = true) :
    (as ++ more).takeWhile p = as.takeWhile p := by
  rw [List.takeWhile_append, if_neg]
  intro length
  apply h
  rw [← List.takeWhile_eq_self_iff]
  exact (List.takeWhile_prefix p).eq_of_length length

theorem dropWhile_append_of_not (h : ¬ ∀ a ∈ as, p a = true) :
    (as ++ more).dropWhile p = as.dropWhile p ++ more := by
  rw [List.dropWhile_append, if_neg]
  rwa [List.isEmpty_iff, List.dropWhile_eq_nil_iff]

end Lists

/-- Plain characters at its end do not change whether a text has the form of a path and a query. -/
theorem isPathAndQuery_append (cs : List Char) {more : List Char}
    (plain : ∀ c ∈ more, isPlainChar c = true) :
    isPathAndQuery (cs ++ more) = isPathAndQuery cs := by
  have noMark : more.takeWhile (· != '#') = more := by
    rw [List.takeWhile_eq_self_iff]
    exact fun c hc => (isOpenChar_of_isPlainChar (plain c hc)).2.2.2
  have noQuery : more.takeWhile (· != '?') = more := by
    rw [List.takeWhile_eq_self_iff]
    exact fun c hc => (isOpenChar_of_isPlainChar (plain c hc)).2.2.1
  have noQuery' : more.dropWhile (· != '?') = [] := by
    rw [List.dropWhile_eq_nil_iff]
    exact fun c hc => (isOpenChar_of_isPlainChar (plain c hc)).2.2.1
  have inPath : more.all (isOpenChar ['<', '>', '\x60']) = true := by
    rw [List.all_eq_true]
    exact fun c hc => (isOpenChar_of_isPlainChar (plain c hc)).1
  have inQuery : more.all (isOpenChar ['"', '<', '>']) = true := by
    rw [List.all_eq_true]
    exact fun c hc => (isOpenChar_of_isPlainChar (plain c hc)).2.1
  simp only [isPathAndQuery]
  by_cases mark : ∀ c ∈ cs, (c != '#') = true
  · rw [List.takeWhile_append_of_pos mark, noMark, List.takeWhile_eq_self_iff.mpr mark]
    by_cases query : ∀ c ∈ cs, (c != '?') = true
    · rw [List.takeWhile_append_of_pos query, List.dropWhile_append_of_pos query, noQuery, noQuery',
        List.takeWhile_eq_self_iff.mpr query, List.dropWhile_eq_nil_iff.mpr query, List.all_append,
        inPath, Bool.and_true]
    · rw [takeWhile_append_of_not query, dropWhile_append_of_not query, List.all_append, inQuery,
        Bool.and_true]
  · rw [takeWhile_append_of_not mark]

/-- What has to hold of the scheme and the server of an address for it to be a target. -/
def isServer (scheme server : List Char) : Bool :=
  let authority := server.takeWhile (!endsAuthority ·)
  scheme.length ≤ schemeLimit && !authority.isEmpty && isAuthority authority &&
    isPathAndQuery (server.dropWhile (!endsAuthority ·))

theorem splitScheme?_address {scheme : List Char} (hscheme : ∀ c ∈ scheme, isSchemeChar c = true)
    (rest : List Char) : splitScheme? (scheme ++ ':' :: '/' :: '/' :: rest) = some (scheme, rest) := by
  have colon : ¬ isSchemeChar ':' = true := by decide
  rw [splitScheme?, List.dropWhile_append_of_pos hscheme, List.dropWhile_cons_of_neg colon,
    List.takeWhile_append_of_pos hscheme, List.takeWhile_cons_of_neg colon, List.append_nil]
  rfl

/-- An address is taken apart behind its scheme, where the authority ends. -/
theorem ofText_address {scheme : List Char} (hscheme : ∀ c ∈ scheme, isSchemeChar c = true)
    (rest : List Char) : ofText (String.ofList (scheme ++ ':' :: '/' :: '/' :: rest))
      = ⟨some scheme, rest.takeWhile (!endsAuthority ·), rest.dropWhile (!endsAuthority ·)⟩ := by
  unfold ofText
  rw [String.toList_ofList]
  split
  case h_1 cs begins =>
    -- neither a scheme nor the colon begins with a slash
    rcases scheme with _ | ⟨c, scheme⟩
    · cases begins
    · rw [List.cons_append, List.cons.injEq] at begins
      have schemeChar := hscheme c List.mem_cons_self
      rw [begins.1] at schemeChar
      exact absurd schemeChar (by decide)
  case h_2 => rw [splitScheme?_address hscheme]

/-- An address with a path of plain characters is a target if it is not too long, and its scheme and
server allow it. -/
theorem isTarget_address {scheme : List Char} (hscheme : ∀ c ∈ scheme, isSchemeChar c = true)
    (server : List Char) {path : List Char} (plain : ∀ c ∈ '/' :: path, isPlainChar c = true) :
    isTarget (String.ofList (scheme ++ ':' :: '/' :: '/' :: (server ++ '/' :: path)))
      = (decide ((String.ofList (scheme ++ ':' :: '/' :: '/' :: (server ++ '/' :: path))).utf8ByteSize
          ≤ sizeLimit) && isServer scheme server) := by
  have noneTaken : ('/' :: path).takeWhile (!endsAuthority ·) = [] :=
    List.takeWhile_cons_of_neg (by decide)
  have allLeft : ('/' :: path).dropWhile (!endsAuthority ·) = '/' :: path :=
    List.dropWhile_cons_of_neg (by decide)
  have authority : (server ++ '/' :: path).takeWhile (!endsAuthority ·)
      = server.takeWhile (!endsAuthority ·) := by
    by_cases inside : ∀ c ∈ server, (!endsAuthority c) = true
    · rw [List.takeWhile_append_of_pos inside, noneTaken, List.append_nil,
        List.takeWhile_eq_self_iff.mpr inside]
    · rw [takeWhile_append_of_not inside]
  have rest : (server ++ '/' :: path).dropWhile (!endsAuthority ·)
      = server.dropWhile (!endsAuthority ·) ++ '/' :: path := by
    by_cases inside : ∀ c ∈ server, (!endsAuthority c) = true
    · rw [List.dropWhile_append_of_pos inside, allLeft, List.dropWhile_eq_nil_iff.mpr inside,
        List.nil_append]
    · rw [dropWhile_append_of_not inside]
  unfold isTarget
  rw [ofText_address hscheme, authority, rest]
  simp only [isPathAndQuery_append _ plain, isServer, Bool.and_assoc]

/-- The path of a target that is a path of plain characters is the whole of it. -/
theorem path_ofText {path : List Char} (plain : ∀ c ∈ '/' :: path, isPlainChar c = true) :
    (ofText (String.ofList ('/' :: path))).path = '/' :: path := by
  have split : ofText (String.ofList ('/' :: path)) = { rest := '/' :: path } := by
    rw [ofText, String.toList_ofList]
    rfl
  rw [split, Target.path, List.takeWhile_eq_self_iff]
  intro c hc
  obtain ⟨-, -, query, mark⟩ := isOpenChar_of_isPlainChar (plain c hc)
  rw [query, mark]
  rfl

end BuildServer.Target
