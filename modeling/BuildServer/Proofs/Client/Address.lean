import BuildServer.Client.Address
import BuildServer.Proofs.Text.Pieces
import Mathlib.Data.List.TakeWhile
/-!
# Addresses below the URL of a server

The URL of a server with segments behind it is an address with the host of the server, and its path
has the segments, each escaped. This needs segments that are taken for what they are: no character of
them is dropped or ends the segment or the path, and none of them moves to another directory. All that
an address does to a text is then the identity, one step after the other: cleaning it, cutting it at
question marks and number signs, turning backslashes into slashes, and resolving dots.
-/

set_option autoImplicit false

namespace BuildServer

namespace WebAddress

/-- A character that ends the authority, a segment or the path of an address on the web, or that is
dropped from it. -/
def isMark (c : Char) : Bool := ['/', '\\', '?', '#', '\t', '\n', '\r'].contains c

/-- The segment is taken for what it is at the end of a path. -/
structure StandsAlone (segment : List Char) : Prop where
  plain : segment.any isMark = false
  /-- Nothing is dropped from its end, and there is something. -/
  ends : ∃ c, segment.getLast? = some c ∧ isOuter c = false
  notHere : isSingleDot segment = false
  notAbove : isDoubleDot segment = false

theorem isMark_of_mem {cs : List Char} (plain : cs.any isMark = false) {c : Char} (h : c ∈ cs) :
    isMark c = false := by
  rw [List.any_eq_false] at plain
  exact Bool.eq_false_iff.mpr (plain c h)

/-- Such characters hold no slashes. -/
theorem slash_notMem {cs : List Char} (plain : cs.any isMark = false) : '/' ∉ cs := by
  intro slash
  have mark := isMark_of_mem plain slash
  revert mark
  decide

/-- A slash or a character that is no mark neither ends the path, nor is it dropped or turned into
another one. -/
theorem kept_of_isMark {c : Char} (h : c = '/' ∨ isMark c = false) :
    isPathEnd c = false ∧ c ≠ '\\' ∧ c ≠ '\t' ∧ c ≠ '\n' ∧ c ≠ '\r' := by
  rcases h with rfl | mark
  · decide
  · simp only [isMark, List.contains_eq_mem, List.mem_cons, List.not_mem_nil, or_false,
      decide_eq_false_iff_not, not_or] at mark
    simp [isPathEnd, mark]

/-! ## Cleaning -/

/-- A text keeps all its characters if it has neither tabs nor line ends, and neither begins nor ends
with a character that is dropped there. -/
theorem clean_eq {cs : List Char} (first : ∃ c, cs.head? = some c ∧ isOuter c = false)
    (last : ∃ c, cs.getLast? = some c ∧ isOuter c = false)
    (inside : ∀ c ∈ cs, c ≠ '\t' ∧ c ≠ '\n' ∧ c ≠ '\r') : clean cs = cs := by
  have front : cs.dropWhile isOuter = cs := by
    obtain ⟨c, hc, kept⟩ := first
    obtain ⟨rest, rfl⟩ := List.head?_eq_some_iff.mp hc
    exact List.dropWhile_cons_of_neg (by simp [kept])
  have back : cs.reverse.dropWhile isOuter = cs.reverse := by
    obtain ⟨c, hc, kept⟩ := last
    rw [← List.head?_reverse] at hc
    obtain ⟨rest, hrest⟩ := List.head?_eq_some_iff.mp hc
    rw [hrest]
    exact List.dropWhile_cons_of_neg (by simp [kept])
  rw [clean, front, back, List.reverse_reverse, List.filter_eq_self]
  intro c hc
  obtain ⟨tab, lineFeed, carriage⟩ := inside c hc
  simp [tab, lineFeed, carriage]

/-! ## Paths -/

theorem resolveDots_cons {segment : List Char} (here : isSingleDot segment = false)
    (above : isDoubleDot segment = false) (done rest : List (List Char)) :
    resolveDots done (segment :: rest) = resolveDots (segment :: done) rest := by
  simp [resolveDots, here, above]

/-- Segments without dots are kept. -/
theorem resolveDots_eq {segments : List (List Char)}
    (plain : ∀ segment ∈ segments, isSingleDot segment = false ∧ isDoubleDot segment = false)
    (done : List (List Char)) : resolveDots done segments = done.reverse ++ segments := by
  induction segments generalizing done with
  | nil => simp [resolveDots]
  | cons segment segments ih =>
    rw [List.forall_mem_cons] at plain
    rw [resolveDots_cons plain.1.1 plain.1.2, ih plain.2]
    simp

/-- The segments of the directory of the pipelines. -/
def directory : List (List Char) :=
  [['a', 'p', 'i'], ['p', 'i', 'p', 'e', 'l', 'i', 'n', 'e']]

/-- The directory of the pipelines, with slashes around it. -/
def pipelines : List Char := '/' :: directory.flatMap (· ++ ['/'])

theorem pieces_pipelines {segment : List Char} (whole : '/' ∉ segment) :
    Text.pieces '/' ((pipelines ++ segment).drop 1) = directory ++ [segment] := by
  have front : (pipelines ++ segment).drop 1
      = ['a', 'p', 'i'] ++ '/' :: (['p', 'i', 'p', 'e', 'l', 'i', 'n', 'e'] ++ '/' :: segment) := rfl
  rw [front, Text.pieces_append (by decide), Text.pieces_append (by decide),
    Text.pieces_of_notMem whole]
  rfl

/-- In that directory a segment is the last one of the path, escaped. -/
theorem pathOf_pipelines {segment : List Char} (alone : StandsAlone segment) :
    pathOf (pipelines ++ segment)
      = String.ofList (pipelines ++ Text.escape isForbiddenInPath segment) := by
  have plain : ∀ other ∈ directory ++ [segment],
      isSingleDot other = false ∧ isDoubleDot other = false := by
    have fixed : ∀ other ∈ directory, isSingleDot other = false ∧ isDoubleDot other = false := by
      decide
    intro other hother
    rcases List.mem_append.mp hother with hfixed | hlast
    · exact fixed other hfixed
    · rw [List.mem_singleton.mp hlast]
      exact ⟨alone.notHere, alone.notAbove⟩
  have unchanged : directory.flatMap (fun other => '/' :: Text.escape isForbiddenInPath other)
      ++ ['/'] = pipelines := by decide
  rw [pathOf, pieces_pipelines (slash_notMem alone.plain), resolveDots_eq plain, List.reverse_nil,
    List.nil_append, List.flatMap_append, List.flatMap_singleton, ← unchanged, List.append_assoc,
    List.singleton_append]

/-! ## Reading -/

/-- The URL of a server: a scheme of the web that requests can be sent to, and an authority. -/
structure ServerUrl where
  scheme : String
  /-- The usual number of a service under the scheme. -/
  usual : Nat
  authority : List Char
  known : (scheme, usual) ∈ [("http", 80), ("https", 443)]
  nonempty : authority ≠ []
  plain : authority.any isMark = false

namespace ServerUrl

def text (url : ServerUrl) : String := url.scheme ++ "://" ++ String.ofList url.authority

/-- The address of a segment in the directory of the pipelines, on a host. -/
def below (url : ServerUrl) (segment : List Char) (server : Host × Option Nat) : WebAddress where
  scheme := url.scheme
  host := server.1
  service := server.2
  path := String.ofList (pipelines ++ Text.escape isForbiddenInPath segment)

variable (url : ServerUrl) {segment : List Char}

theorem scheme_cases : (url.scheme = "http" ∧ url.usual = 80) ∨
    (url.scheme = "https" ∧ url.usual = 443) := by
  simpa using url.known

/-- The scheme is split off at the colon. -/
theorem splitScheme?_eq (rest : List Char) :
    splitScheme? (url.scheme.toList ++ ':' :: rest) = some (url.scheme, rest) := by
  rcases url.scheme_cases with ⟨scheme, -⟩ | ⟨scheme, -⟩ <;> rw [scheme] <;> rfl

theorem webSchemes_lookup : webSchemes.lookup url.scheme = some url.usual := by
  rcases url.scheme_cases with ⟨scheme, usual⟩ | ⟨scheme, usual⟩ <;> rw [scheme, usual] <;> rfl

/-- What stands below the URL of a server, behind its scheme. -/
def behindScheme (segment : List Char) : List Char :=
  '/' :: '/' :: (url.authority ++ (pipelines ++ segment))

/-- Neither is it cut or dropped from, nor is a slash put into it. -/
theorem plain_behindScheme (alone : StandsAlone segment) : ∀ c ∈ url.behindScheme segment,
    isPathEnd c = false ∧ c ≠ '\\' ∧ c ≠ '\t' ∧ c ≠ '\n' ∧ c ≠ '\r' := by
  have fixed : ('/' :: '/' :: pipelines).all (fun c => c == '/' || !isMark c) = true := by decide
  rw [List.all_eq_true] at fixed
  intro c hc
  apply kept_of_isMark
  simp only [behindScheme, List.mem_cons, List.mem_append] at hc
  rcases hc with rfl | rfl | hauthority | hdirectory | hsegment
  · exact .inl rfl
  · exact .inl rfl
  · exact .inr (isMark_of_mem url.plain hauthority)
  · simpa using fixed c (by simp [hdirectory])
  · exact .inr (isMark_of_mem alone.plain hsegment)

/-- The address behind the scheme: the authority up to the first slash, and the path from there. -/
theorem ofWeb?_below (alone : StandsAlone segment) :
    ofWeb? url.scheme url.usual (url.behindScheme segment)
      = (splitServer? Host.ofText? (some url.usual) url.authority).map (url.below segment) := by
  have plain := url.plain_behindScheme alone
  have notSlash : ∀ c ∈ url.authority, c ≠ '/' := by
    rintro c hc rfl
    exact slash_notMem url.plain hc
  -- the authority and the segment are made of marks, so nothing in them ends the path early
  have whole : (url.behindScheme segment).takeWhile (!isPathEnd ·) = url.behindScheme segment := by
    rw [List.takeWhile_eq_self_iff]
    intro c hc
    simp [(plain c hc).1]
  have nothing : (url.behindScheme segment).dropWhile (!isPathEnd ·) = [] := by
    rw [List.dropWhile_eq_nil_iff]
    intro c hc
    simp [(plain c hc).1]
  have same : (url.behindScheme segment).map (fun c => if c == '\\' then '/' else c)
      = url.behindScheme segment := by
    rw [List.map_congr_left (g := id) fun c hc => by simp [(plain c hc).2.1], List.map_id]
  have front : (url.behindScheme segment).dropWhile (· == '/')
      = url.authority ++ (pipelines ++ segment) := by
    obtain ⟨c, rest, hauthority⟩ := List.exists_cons_of_ne_nil url.nonempty
    have first : c ≠ '/' := notSlash c (by rw [hauthority]; exact List.mem_cons_self)
    rw [behindScheme, hauthority]
    simp [first]
  have server : (url.authority ++ (pipelines ++ segment)).takeWhile (· != '/') = url.authority := by
    rw [List.takeWhile_append_of_pos fun c hc => by simp [notSlash c hc], pipelines,
      List.cons_append, List.takeWhile_cons_of_neg (by simp), List.append_nil]
  have path : (url.authority ++ (pipelines ++ segment)).dropWhile (· != '/')
      = pipelines ++ segment := by
    rw [List.dropWhile_append_of_pos fun c hc => by simp [notSlash c hc], pipelines,
      List.cons_append, List.dropWhile_cons_of_neg (by simp)]
  simp only [ofWeb?, whole, nothing, same, front, server, path, pathOf_pipelines alone]
  rcases splitServer? Host.ofText? (some url.usual) url.authority with _ | ⟨host, service⟩
  · rfl
  · rfl

/-- A segment below the URL of a server is in the directory of the pipelines on that server. -/
theorem parse?_below (alone : StandsAlone segment) :
    parse? (url.text ++ String.ofList (pipelines ++ segment))
      = (splitServer? Host.ofText? (some url.usual) url.authority).map (url.below segment) := by
  have written : (url.text ++ String.ofList (pipelines ++ segment)).toList
      = url.scheme.toList ++ ':' :: url.behindScheme segment := by
    simp [text, behindScheme]
  -- there is nothing to drop at either end, nor anything in between
  have cleaned : clean (url.scheme.toList ++ ':' :: url.behindScheme segment)
      = url.scheme.toList ++ ':' :: url.behindScheme segment := by
    apply clean_eq
    · rcases url.scheme_cases with ⟨scheme, -⟩ | ⟨scheme, -⟩ <;> rw [scheme] <;>
        exact ⟨'h', rfl, by decide⟩
    · obtain ⟨c, last, kept⟩ := alone.ends
      refine ⟨c, ?_, kept⟩
      simp [behindScheme, List.getLast?_append, List.getLast?_cons, last]
    · have scheme : (url.scheme.toList ++ [':']).any isMark = false := by
        rcases url.scheme_cases with ⟨scheme, -⟩ | ⟨scheme, -⟩ <;> rw [scheme] <;> decide
      intro c hc
      rw [List.append_cons, List.mem_append] at hc
      rcases hc with hscheme | hbehind
      · exact (kept_of_isMark (.inr (isMark_of_mem scheme hscheme))).2.2
      · exact (url.plain_behindScheme alone c hbehind).2.2
  rw [parse?, written, cleaned, splitScheme?_eq]
  simp only [Option.bind_eq_bind, Option.bind_some, webSchemes_lookup]
  exact url.ofWeb?_below alone

end ServerUrl

end WebAddress

end BuildServer
